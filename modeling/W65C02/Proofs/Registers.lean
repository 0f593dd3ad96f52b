import Mathlib.Data.Nat.Bitwise
import W65C02.Instruction.Arithmetic

/-!
# What register operations do to the status byte

Every operation on the registers goes through `withFlag` or `pullStatus`. Neither moves bit 4 of
the status byte, and both leave bit 5 set; flags under other masks keep their values.
-/

namespace W65C02

namespace Registers

/-- Setting some bits does not affect others, -/
private theorem or_and_of_disjoint {a b c : UInt8} (h : b &&& c = 0) :
    (a ||| b) &&& c = a &&& c := by
  apply UInt8.eq_of_toBitVec_eq
  ext i hi
  have hbit := congrArg (fun x : UInt8 => x.toBitVec.getLsbD i) h
  simp at hbit ⊢
  grind

/-- nor does clearing them. -/
private theorem and_not_and_of_disjoint {a b c : UInt8} (h : b &&& c = 0) :
    (a &&& ~~~b) &&& c = a &&& c := by
  apply UInt8.eq_of_toBitVec_eq
  ext i hi
  have hbit := congrArg (fun x : UInt8 => x.toBitVec.getLsbD i) h
  simp at hbit ⊢
  grind

/-- Bits that are set are set. -/
private theorem or_and_self (a b : UInt8) : (a ||| b) &&& b = b := by
  apply UInt8.eq_of_toBitVec_eq
  ext i hi
  simp
  grind

/-- Where one byte is kept the other makes no difference. -/
private theorem merge_and_of_kept {a b kept c : UInt8} (h : kept &&& c = c) :
    (a &&& ~~~kept ||| b &&& kept) &&& c = b &&& c := by
  apply UInt8.eq_of_toBitVec_eq
  ext i hi
  have hbit := congrArg (fun x : UInt8 => x.toBitVec.getLsbD i) h
  simp at hbit ⊢
  grind

/-- A bit that is set already and is not cleared need not be set again. -/
private theorem or_and_not_or_of_set {a b c kept : UInt8} (hset : a &&& kept = kept)
    (hdisjoint : c &&& kept = 0) : (a ||| b ||| kept) &&& ~~~c ||| kept = (a ||| b) &&& ~~~c := by
  apply UInt8.eq_of_toBitVec_eq
  ext i hi
  have hbit := congrArg (fun x : UInt8 => x.toBitVec.getLsbD i) hset
  have hbit' := congrArg (fun x : UInt8 => x.toBitVec.getLsbD i) hdisjoint
  simp at hbit hbit' ⊢
  grind

/-- A byte that is put together from two copies of itself, with other bits changed, is the same. -/
private theorem merge_or_of_set {a b c kept unused : UInt8} (hset : a &&& unused = unused)
    (hb : b &&& kept = 0) (hc : c &&& kept = 0) :
    a &&& ~~~kept ||| (a ||| b) &&& ~~~c &&& kept ||| unused = a := by
  apply UInt8.eq_of_toBitVec_eq
  ext i hi
  have hbit := congrArg (fun x : UInt8 => x.toBitVec.getLsbD i) hset
  have hbit' := congrArg (fun x : UInt8 => x.toBitVec.getLsbD i) hb
  have hbit'' := congrArg (fun x : UInt8 => x.toBitVec.getLsbD i) hc
  simp at hbit hbit' hbit'' ⊢
  grind

/-- Setting or clearing flags leaves the bits under other masks alone. -/
theorem flag_withFlag_of_disjoint (r : Registers) {mask other : UInt8} (on : Bool)
    (hmask : mask &&& other = 0) (hother : Status.unused &&& other = 0) :
    (r.withFlag mask on).flag other = r.flag other := by
  unfold flag withFlag
  rw [or_and_of_disjoint hother]
  cases on with
  | true => rw [if_pos rfl, or_and_of_disjoint hmask]
  | false => rw [if_neg Bool.false_ne_true, and_not_and_of_disjoint hmask]

/-- A flag that is set is set. -/
@[simp] theorem flag_withFlag_true (r : Registers) (mask : UInt8) :
    (r.withFlag mask true).flag mask = true := by
  have hset : (r.p ||| mask ||| Status.unused) &&& mask = mask := by
    rw [UInt8.or_assoc, UInt8.or_comm mask, ← UInt8.or_assoc, or_and_self]
  simp only [flag, withFlag, if_true, hset, beq_self_eq_true]

/-- A flag that is cleared is clear. -/
theorem flag_withFlag_false (r : Registers) {mask : UInt8} (hmask : mask ≠ 0)
    (hunused : Status.unused &&& mask = 0) : (r.withFlag mask false).flag mask = false := by
  have hclear : (r.p &&& ~~~mask) &&& mask = 0 := by
    rw [UInt8.and_assoc, UInt8.and_comm (~~~mask), UInt8.and_not_self, UInt8.and_zero]
  unfold flag withFlag
  rw [if_neg Bool.false_ne_true, or_and_of_disjoint hunused, hclear]
  exact beq_eq_false_iff_ne.mpr hmask.symm

/-- The routine of an interrupt is entered with decimal mode off. -/
theorem flag_decimal_enterRoutine (r : Registers) :
    ((r.withFlag Status.irqDisable true).withFlag Status.decimal false).flag Status.decimal =
      false :=
  flag_withFlag_false _ (by decide) (by decide)

/-- The routine of an interrupt is entered with interrupts masked. -/
theorem flag_irqDisable_enterRoutine (r : Registers) :
    ((r.withFlag Status.irqDisable true).withFlag Status.decimal false).flag Status.irqDisable =
      true := by
  rw [flag_withFlag_of_disjoint _ _ (by decide) (by decide), flag_withFlag_true]

/-- Entering the routine of an interrupt masks interrupts and leaves decimal mode, and nothing else
happens to a status byte whose bit 5 is set. -/
theorem p_enterRoutine {r : Registers} (h : r.flag Status.unused = true) :
    ((r.withFlag Status.irqDisable true).withFlag Status.decimal false).p =
      (r.p ||| Status.irqDisable) &&& ~~~Status.decimal :=
  or_and_not_or_of_set (eq_of_beq h) (by decide)

/-- The status byte that was pushed on the way into the routine of an interrupt comes back as it
was, whatever marks the pushed copy. -/
theorem p_pullStatus_enterRoutine {r : Registers} (h : r.flag Status.unused = true)
    (software : Bool) :
    (((r.withFlag Status.irqDisable true).withFlag Status.decimal false).pullStatus
      (r.statusToPush software)).p = r.p := by
  have hpushed : r.statusToPush software &&& ~~~(Status.brk ||| Status.unused) =
      r.p &&& ~~~(Status.brk ||| Status.unused) := by
    unfold statusToPush status
    cases software with
    | true => rw [if_pos rfl, or_and_of_disjoint (by decide), or_and_of_disjoint (by decide)]
    | false =>
      rw [if_neg Bool.false_ne_true, and_not_and_of_disjoint (by decide),
        or_and_of_disjoint (by decide)]
  simp only [pullStatus, p_enterRoutine h, hpushed]
  exact merge_or_of_set (eq_of_beq h) (by decide) (by decide)

/-- After setting or clearing any flag, bit 5 is set. -/
@[simp] theorem flag_withFlag_unused (r : Registers) (mask : UInt8) (on : Bool) :
    (r.withFlag mask on).flag Status.unused = true := by
  simp [flag, withFlag, or_and_self]

/-- Bit 5 of the status byte is a single bit. -/
theorem flag_unused_iff (r : Registers) :
    r.flag Status.unused = true ↔ r.p &&& Status.unused ≠ 0 := by
  have hnat : (r.p &&& Status.unused).toNat = (r.p.toNat.testBit 5).toNat * 2 ^ 5 := by
    rw [UInt8.toNat_and]
    exact Nat.and_two_pow r.p.toNat 5
  have hbit : r.p &&& Status.unused = 0 ∨ r.p &&& Status.unused = Status.unused := by
    cases hset : r.p.toNat.testBit 5 with
    | false =>
      rw [hset] at hnat
      exact .inl (UInt8.toNat_inj.mp hnat)
    | true =>
      rw [hset] at hnat
      exact .inr (UInt8.toNat_inj.mp hnat)
  unfold flag
  rcases hbit with hclear | hset
  · rw [hclear]
    decide
  · rw [hset]
    decide

/-- Software sees a status byte whose bit 5 is set as it is. -/
theorem status_of_unused {r : Registers} (h : r.flag Status.unused = true) : r.status = r.p := by
  have hset : r.p &&& Status.unused = Status.unused := eq_of_beq h
  rw [status, ← hset]
  apply UInt8.eq_of_toBitVec_eq
  ext i hi
  simp
  grind

/-- A pushed status byte whose bit 5 is set in the register differs from it in bit 4 at most. -/
theorem statusToPush_of_unused {r : Registers} (h : r.flag Status.unused = true)
    (software : Bool) :
    r.statusToPush software = if software then r.p ||| Status.brk else r.p &&& ~~~Status.brk := by
  rw [statusToPush, status_of_unused h]

/-- Bit 5 of a pushed status byte is set. -/
theorem statusToPush_unused (r : Registers) (software : Bool) :
    r.statusToPush software &&& Status.unused = Status.unused := by
  unfold statusToPush status
  cases software with
  | true => rw [if_pos rfl, or_and_of_disjoint (by decide), or_and_self]
  | false => rw [if_neg Bool.false_ne_true, and_not_and_of_disjoint (by decide), or_and_self]

/-- Bit 4 of a pushed status byte tells whether software pushed it. -/
theorem statusToPush_brk (r : Registers) (software : Bool) :
    r.statusToPush software &&& Status.brk = if software then Status.brk else 0 := by
  unfold statusToPush
  cases software with
  | true => rw [if_pos rfl, if_pos rfl, or_and_self]
  | false =>
    rw [if_neg Bool.false_ne_true, if_neg Bool.false_ne_true, UInt8.and_assoc,
      UInt8.and_comm (~~~Status.brk), UInt8.and_not_self, UInt8.and_zero]

/-- At power-on bit 5 of the status byte is set. -/
@[simp] theorem flag_powerOn_unused (s p : UInt8) :
    (Registers.powerOn s p).flag Status.unused = true := by
  simp [flag, Registers.powerOn, or_and_self]

/-- Writing a register leaves bit 5 of the status byte set. -/
theorem flag_unused_of_set {r r' : Registers} {register : Register} {value : Nat}
    (h : r.flag Status.unused = true) (hset : r.set register value = .ok r') :
    r'.flag Status.unused = true := by
  unfold Registers.set at hset
  split at hset
  · cases hset
  · cases hset
    cases register with
    | p => simp [flag, or_and_self]
    | _ => exact h

/-- One register file follows another without a change of bit 4 of the status byte, and with
bit 5 set if it was set before. -/
structure KeepsFixedBits (r r' : Registers) : Prop where
  /-- Bit 4 has the value that it had. -/
  brk : r'.flag Status.brk = r.flag Status.brk
  /-- Bit 5 stays set. -/
  unused : r.flag Status.unused = true → r'.flag Status.unused = true

namespace KeepsFixedBits

variable {r r' r'' : Registers}

/-- The fixed bits are kept where the status byte is. -/
theorem of_p_eq (h : r'.p = r.p) : r.KeepsFixedBits r' := by
  constructor
  · simp only [flag, h]
  · intro hset
    simpa only [flag, h] using hset

/-- They are kept twice. -/
theorem trans (h : r.KeepsFixedBits r') (h' : r'.KeepsFixedBits r'') : r.KeepsFixedBits r'' :=
  ⟨h'.brk.trans h.brk, fun hset => h'.unused (h.unused hset)⟩

/-- Changing a flag other than BRK keeps them. -/
theorem withFlag {mask : UInt8} (on : Bool) (hmask : mask &&& Status.brk = 0) :
    r.KeepsFixedBits (r.withFlag mask on) :=
  ⟨flag_withFlag_of_disjoint r on hmask (by decide), fun _ => flag_withFlag_unused r mask on⟩

/-- A status byte from the stack brings neither bit with it. -/
theorem pullStatus (value : UInt8) : r.KeepsFixedBits (r.pullStatus value) := by
  constructor
  · simp only [flag, Registers.pullStatus]
    rw [or_and_of_disjoint (by decide), merge_and_of_kept (by decide)]
  · intro _
    simp [flag, Registers.pullStatus, or_and_self]

end KeepsFixedBits

/-- One register file follows another without a change of the mask of interrupts, of decimal mode
or of the fixed bits: at most the flags that describe results have moved. -/
structure KeepsControlBits (r r' : Registers) : Prop extends KeepsFixedBits r r' where
  /-- The mask of interrupts stays. -/
  irqDisable : r'.flag Status.irqDisable = r.flag Status.irqDisable
  /-- Decimal mode stays. -/
  decimal : r'.flag Status.decimal = r.flag Status.decimal

namespace KeepsControlBits

variable {r r' r'' : Registers}

/-- The control bits are kept where the status byte is. -/
theorem of_p_eq (h : r'.p = r.p) : r.KeepsControlBits r' :=
  ⟨.of_p_eq h, by simp only [flag, h], by simp only [flag, h]⟩

/-- They are kept twice. -/
theorem trans (h : r.KeepsControlBits r') (h' : r'.KeepsControlBits r'') :
    r.KeepsControlBits r'' :=
  ⟨h.toKeepsFixedBits.trans h'.toKeepsFixedBits, h'.irqDisable.trans h.irqDisable,
    h'.decimal.trans h.decimal⟩

/-- Flags under other masks may be set or cleared. -/
theorem withFlag {mask : UInt8} (on : Bool)
    (hmask : mask &&& (Status.irqDisable ||| Status.decimal ||| Status.brk) = 0) :
    r.KeepsControlBits (r.withFlag mask on) := by
  have hdisjoint {bit : UInt8}
      (hbit : (Status.irqDisable ||| Status.decimal ||| Status.brk) &&& bit = bit) :
      mask &&& bit = 0 := by
    rw [← hbit, ← UInt8.and_assoc, hmask, UInt8.zero_and]
  exact ⟨.withFlag on (hdisjoint (by decide)),
    flag_withFlag_of_disjoint r on (hdisjoint (by decide)) (by decide),
    flag_withFlag_of_disjoint r on (hdisjoint (by decide)) (by decide)⟩

/-- Describing a result keeps them, -/
theorem withNZ (value : UInt8) : r.KeepsControlBits (r.withNZ value) :=
  (withFlag _ (by decide)).trans (withFlag _ (by decide))

/-- so does adding, -/
theorem add (value : UInt8) : r.KeepsControlBits (r.add value).2 := by
  unfold Registers.add
  split
  · exact (withFlag _ (by decide)).trans (withFlag _ (by decide))
  · exact (withFlag _ (by decide)).trans (withFlag _ (by decide))

/-- subtracting, -/
theorem subtract (value : UInt8) : r.KeepsControlBits (r.subtract value).2 := by
  unfold Registers.subtract
  split
  · exact (withFlag _ (by decide)).trans (withFlag _ (by decide))
  · exact (withFlag _ (by decide)).trans (withFlag _ (by decide))

/-- comparing, -/
theorem compare (register value : UInt8) : r.KeepsControlBits (r.compare register value).2 :=
  withFlag _ (by decide)

/-- shifting to the left -/
theorem shiftLeft (value : UInt8) : r.KeepsControlBits (r.shiftLeft value).2 :=
  withFlag _ (by decide)

/-- or to the right, -/
theorem shiftRight (value : UInt8) : r.KeepsControlBits (r.shiftRight value).2 :=
  withFlag _ (by decide)

/-- rotating to the left -/
theorem rotateLeft (value : UInt8) : r.KeepsControlBits (r.rotateLeft value).2 :=
  withFlag _ (by decide)

/-- or to the right, -/
theorem rotateRight (value : UInt8) : r.KeepsControlBits (r.rotateRight value).2 :=
  withFlag _ (by decide)

/-- and testing bits. -/
theorem testBits (value : UInt8) : r.KeepsControlBits (r.testBits value) :=
  withFlag _ (by decide)

end KeepsControlBits

end Registers

end W65C02
