import W65C02.Proofs.Cpu.Atomic

/-!
# The cycles of an instruction, added up exactly

The cycles of an instruction are added up in bytes: the constant part from the table, what branching
adds, and the penalties. This module has the same sum in natural numbers. The byte is the sum modulo
256, so it is the sum itself exactly if that fits into a byte.
-/

namespace W65C02

/-- The cycles that a branch adds: one if it is taken, and one more into another page. -/
def Registers.branchCost (regs : Registers) (taken : Bool) (target : UInt16) : ℕ :=
  if taken then (if inDifferentPages regs.pc target then 2 else 1) else 0

/-- A branch costs two cycles at most. -/
theorem Registers.branchCost_le_two (regs : Registers) (taken : Bool) (target : UInt16) :
    regs.branchCost taken target ≤ 2 := by
  unfold branchCost
  split
  · split <;> decide
  · decide

variable {β : Type} [Bus β]

namespace Execution

omit [Bus β] in
/-- Branching adds its cost to the count, which is a byte. -/
theorem branchIf_extraCycles (e : Execution β) (taken : Bool) (target : UInt16) :
    (e.branchIf taken target).inFlight.extraCycles =
      e.inFlight.extraCycles + UInt8.ofNat (e.regs.branchCost taken target) := by
  unfold branchIf Registers.branchCost addCycleAcrossPages
  cases taken with
  | false => exact (UInt8.add_zero _).symm
  | true =>
    simp only [if_true]
    split
    · exact UInt8.add_assoc _ 1 1
    · rfl

end Execution

namespace Operation

/-- The cycles that an operation adds. -/
def addedCycles (operation : Operation) (mode : AddressingMode) (e : Execution β) : ℕ :=
  let bitIs (n : Fin 8) (wanted : Bool) : Bool :=
    ((e.operandValue mode).1 &&& ((1 : UInt8) <<< UInt8.ofNat n.val) != 0) == wanted
  let farTarget := e.regs.pc + signExtend e.inFlight.operand.second
  match operation with
  | branch condition => e.regs.branchCost (e.regs.meets condition) e.inFlight.effectiveAddress
  | bbr n => e.regs.branchCost (bitIs n false) farTarget
  | bbs n => e.regs.branchCost (bitIs n true) farTarget
  | bra => if inDifferentPages e.regs.pc e.inFlight.effectiveAddress then 1 else 0
  | _ => 0

/-- An operation adds no more cycles than branching may add. -/
theorem addedCycles_le_branchCycles (operation : Operation) (mode : AddressingMode)
    (e : Execution β) : operation.addedCycles mode e ≤ operation.branchCycles := by
  cases operation with
  | branch | bbr | bbs => exact e.regs.branchCost_le_two _ _
  | bra =>
    change (if _ then 1 else 0) ≤ 1
    split <;> decide
  | _ => exact Nat.le_refl 0

/-- How many cycles have been spent plays no part. -/
theorem addedCycles_of_elapsed (operation : Operation) (mode : AddressingMode) (e : Execution β)
    (elapsed : UInt8) :
    operation.addedCycles mode { e with inFlight.elapsed := elapsed } =
      operation.addedCycles mode e := by
  have hoperand : (({ e with inFlight.elapsed := elapsed } : Execution β).operandValue mode).1 =
      (e.operandValue mode).1 := by
    cases mode <;> rfl
  unfold addedCycles
  rw [hoperand]

/-- An operation adds its cycles to the count, which is a byte. -/
theorem perform_extraCycles (operation : Operation) (mode : AddressingMode) (irqVector : UInt16)
    (e : Execution β) :
    (operation.perform mode irqVector e).inFlight.extraCycles =
      e.inFlight.extraCycles + UInt8.ofNat (operation.addedCycles mode e) := by
  have hoperand : (e.operandValue mode).2.regs = e.regs ∧
      (e.operandValue mode).2.inFlight = e.inFlight := by
    cases mode <;> exact ⟨rfl, rfl⟩
  have hbit (n : Fin 8) (wanted : Bool) :
      (e.branchOnBit mode n wanted).inFlight.extraCycles = e.inFlight.extraCycles +
        UInt8.ofNat (e.regs.branchCost (((e.operandValue mode).1 &&&
          ((1 : UInt8) <<< UInt8.ofNat n.val) != 0) == wanted)
          (e.regs.pc + signExtend e.inFlight.operand.second)) := by
    have hbranch := (e.operandValue mode).2.branchIf_extraCycles
      (((e.operandValue mode).1 &&& ((1 : UInt8) <<< UInt8.ofNat n.val) != 0) == wanted)
      ((e.operandValue mode).2.regs.pc +
        signExtend (e.operandValue mode).2.inFlight.operand.second)
    rw [hoperand.1, hoperand.2] at hbranch
    rw [← hbranch, ← hoperand.1, ← hoperand.2]
    rfl
  cases operation with
  | branch condition => exact e.branchIf_extraCycles _ _
  | bbr n => exact hbit n false
  | bbs n => exact hbit n true
  | bra =>
    simp only [perform, addedCycles, Execution.addCycleAcrossPages]
    split
    · rfl
    · exact (UInt8.add_zero _).symm
  | _ =>
    obtain ⟨added, hadded, _, hflight⟩ := perform_inFlight _ mode irqVector e
    rw [hflight, Nat.le_zero.mp hadded]
    rfl

end Operation

/-- The sum of the cycles in bytes is the exact sum modulo 256. -/
theorem Descriptor.cycles_ofNat (d : Descriptor) (extra : ℕ) (pageCrossed decimalMode : Bool) :
    d.cycles (UInt8.ofNat extra) pageCrossed decimalMode =
      UInt8.ofNat (d.exactCycles extra pageCrossed decimalMode) := by
  have hpenalty (pays : Bool) :
      (if pays then 1 else 0 : UInt8) = UInt8.ofNat (if pays then 1 else 0) := by
    cases pays <;> rfl
  unfold cycles exactCycles
  rw [UInt8.ofNat_add, UInt8.ofNat_add, UInt8.ofNat_add, UInt8.ofNat_toNat, hpenalty, hpenalty]

/-- The instructions that pay for decimal mode do not leave it. -/
theorem Operation.flag_decimal_perform {opcode : UInt8}
    (hpays : (Descriptor.ofOpcode opcode).decimalPenalty = true) (mode : AddressingMode)
    (irqVector : UInt16) (e : Execution β) :
    ((Descriptor.ofOpcode opcode).operation.perform mode irqVector e).regs.flag Status.decimal =
      e.regs.flag Status.decimal := by
  rcases Descriptor.operation_of_decimalPenalty hpays with hop | hop <;> rw [hop]
  · exact Cpu.flag_decimal_accumulate e mode fun _ v => (Registers.KeepsControlBits.add v).decimal
  · exact Cpu.flag_decimal_accumulate e mode fun _ v =>
      (Registers.KeepsControlBits.subtract v).decimal

namespace Execution

/-- The instruction with its effective address, found now unless that has been done. -/
def located (e : Execution β) : Execution β :=
  match e.inFlight.phase with
  | .fetch | .decode | .resolveAddress =>
    e.locateOperand (Descriptor.ofOpcode e.inFlight.opcode).mode
  | _ => e

/-- The cycles that the rest of the work adds. -/
def addedCycles (e : Execution β) : ℕ :=
  match e.inFlight.phase with
  | .updateFlags | .retire => 0
  | _ =>
    let d := Descriptor.ofOpcode e.inFlight.opcode
    d.operation.addedCycles d.mode e.located

/-- The cycles of the instruction in exact arithmetic, with those that have been added before. -/
def exactTotal (e : Execution β) : ℕ :=
  (Descriptor.ofOpcode e.inFlight.opcode).exactCycles
    (e.inFlight.extraCycles.toNat + e.addedCycles) e.located.inFlight.pageCrossed
    (e.regs.flag Status.decimal)

/-- Nor does the instruction in flight. -/
theorem addedCycles_le_branchCycles (e : Execution β) :
    e.addedCycles ≤ (Descriptor.ofOpcode e.inFlight.opcode).operation.branchCycles := by
  unfold addedCycles
  split
  · exact Nat.zero_le _
  · exact Nat.zero_le _
  · exact Operation.addedCycles_le_branchCycles _ _ _

/-- To what has been added before comes no more than eight. -/
theorem exactTotal_le (e : Execution β) : e.exactTotal ≤ e.inFlight.extraCycles.toNat + 8 := by
  have hmax := Descriptor.exactCycles_le_eight e.inFlight.opcode e.addedCycles_le_branchCycles
    e.located.inFlight.pageCrossed (e.regs.flag Status.decimal)
  unfold exactTotal
  unfold Descriptor.exactCycles at hmax ⊢
  omega

/-- An instruction that neither branches nor pays penalties takes the cycles of the table beside
those that have been added before. -/
theorem exactTotal_of_plain {e : Execution β} {operation : Operation} {mode : AddressingMode}
    {cycles : UInt8} (hd : Descriptor.ofOpcode e.inFlight.opcode = .plain operation mode cycles)
    (hbranch : operation.branchCycles = 0) :
    e.exactTotal = cycles.toNat + e.inFlight.extraCycles.toNat := by
  have hadded := e.addedCycles_le_branchCycles
  rw [hd] at hadded
  have hnone : e.addedCycles = 0 := Nat.le_zero.mp (Nat.le_trans hadded (Nat.le_of_eq hbranch))
  rw [exactTotal, hd, hnone]
  rfl

omit [Bus β] in
/-- The total comes from what has been added and from the penalties. The flag for decimal mode
matters only to the instructions that pay for it. -/
theorem conclude_total {d : Descriptor} {e : Execution β} {extra : ℕ} {decimalMode : Bool}
    (hextra : e.inFlight.extraCycles = UInt8.ofNat extra)
    (hdecimal : d.decimalPenalty = true → e.regs.flag Status.decimal = decimalMode) :
    (e.conclude d).inFlight.total =
      UInt8.ofNat (d.exactCycles extra e.inFlight.pageCrossed decimalMode) := by
  have hregs : (e.conclude d).regs.flag Status.decimal = e.regs.flag Status.decimal := by
    unfold conclude
    cases e.inFlight.nzResult with
    | none => rfl
    | some value => exact (Registers.KeepsControlBits.withNZ value).decimal
  have htotal : (e.conclude d).inFlight.total =
      d.cycles e.inFlight.extraCycles e.inFlight.pageCrossed
        ((e.conclude d).regs.flag Status.decimal) := rfl
  rw [htotal, hregs, ← Descriptor.cycles_ofNat, ← hextra]
  unfold Descriptor.cycles
  cases hpays : d.decimalPenalty with
  | false => rfl
  | true => rw [hdecimal hpays]

/-- How many cycles have been spent plays no part. -/
theorem exactTotal_of_elapsed (e : Execution β) (elapsed : UInt8) :
    ({ e with inFlight.elapsed := elapsed } : Execution β).exactTotal = e.exactTotal := by
  have hlocated : ({ e with inFlight.elapsed := elapsed } : Execution β).located =
      { e.located with inFlight.elapsed := elapsed } := by
    unfold located
    cases e.inFlight.phase <;> rfl
  have hadded : ({ e with inFlight.elapsed := elapsed } : Execution β).addedCycles =
      e.addedCycles := by
    unfold addedCycles
    rw [hlocated]
    cases e.inFlight.phase with
    | fetch | decode | resolveAddress | operate =>
      exact Operation.addedCycles_of_elapsed _ _ _ _
    | updateFlags | retire => rfl
  unfold exactTotal
  rw [hlocated, hadded]

/-- When the work is done, both counts are the exact ones modulo 256. -/
theorem finishWork_cycles (irqVector : UInt16) {e : Execution β}
    (hphase : e.inFlight.phase ≠ .retire) :
    (e.finishWork irqVector).inFlight.extraCycles =
        UInt8.ofNat (e.inFlight.extraCycles.toNat + e.addedCycles) ∧
      (e.finishWork irqVector).inFlight.total = UInt8.ofNat e.exactTotal := by
  let d := Descriptor.ofOpcode e.inFlight.opcode
  have hperform {f : Execution β} (hregs : f.regs = e.regs)
      (hextra : f.inFlight.extraCycles = e.inFlight.extraCycles) :
      ((d.operation.perform d.mode irqVector f).conclude d).inFlight.extraCycles =
          UInt8.ofNat (e.inFlight.extraCycles.toNat + d.operation.addedCycles d.mode f) ∧
        ((d.operation.perform d.mode irqVector f).conclude d).inFlight.total =
          UInt8.ofNat (d.exactCycles
            (e.inFlight.extraCycles.toNat + d.operation.addedCycles d.mode f)
            f.inFlight.pageCrossed (e.regs.flag Status.decimal)) := by
    have hadded := d.operation.perform_extraCycles d.mode irqVector f
    obtain ⟨_, _, _, hflight⟩ := d.operation.perform_inFlight d.mode irqVector f
    have hcrossed : (d.operation.perform d.mode irqVector f).inFlight.pageCrossed =
        f.inFlight.pageCrossed := by
      rw [hflight]
    rw [hextra, ← UInt8.ofNat_toNat (x := e.inFlight.extraCycles), ← UInt8.ofNat_add] at hadded
    refine ⟨hadded, ?_⟩
    rw [conclude_total hadded fun hpays => Operation.flag_decimal_perform hpays _ _ _, hcrossed,
      hregs]
  unfold finishWork exactTotal addedCycles located
  cases hp : e.inFlight.phase with
  | fetch | decode | resolveAddress => exact hperform (f := e.locateOperand d.mode) rfl rfl
  | operate => exact hperform rfl rfl
  | updateFlags =>
    refine ⟨UInt8.ofNat_toNat.symm, conclude_total UInt8.ofNat_toNat.symm fun _ => rfl⟩
  | retire => exact absurd hp hphase

end Execution

end W65C02
