import W65C02.Proofs.Cpu.Calculation

/-!
# Binary numbers of any length

An addition of two binary numbers byte by byte is exact, whatever their length: the bytes that come
out and the carry at the end hold all of the sum. The same holds of a difference and the borrow.
Overflow at the end tells whether the result is outside the range of two's complement of that
length, with the carry that came in counted. A subtraction undoes an addition.
-/

namespace W65C02

/-- The number that bytes stand for, the lowest one first. -/
def binaryValue (bytes : List UInt8) : ℕ := numeral 256 UInt8.toNat bytes

/-- The number that bytes stand for in two's complement, the lowest one first. -/
def signedNumber (bytes : List UInt8) : ℤ :=
  Int.bmod (binaryValue bytes) (256 ^ bytes.length)

/-- A number is in the range of two's complement of so many bytes. -/
def FitsSigned (length : ℕ) (n : ℤ) : Prop := -(256 ^ length) ≤ 2 * n ∧ 2 * n < 256 ^ length

/-- A number of some bytes is less than the power of 256 with that exponent. -/
theorem binaryValue_lt (bytes : List UInt8) : binaryValue bytes < 256 ^ bytes.length :=
  numeral_lt (by decide) fun b _ => b.toNat_lt

/-- Numbers of one length are told apart by their values. -/
theorem eq_of_binaryValue_eq {x y : List UInt8} (hlength : x.length = y.length)
    (h : binaryValue x = binaryValue y) : x = y := by
  have hmap : x.map UInt8.toNat = y.map UInt8.toNat := by
    refine Nat.ofDigits_inj_of_len_eq (by decide : 1 < 256) ?_ ?_ ?_ h
    · rw [List.length_map, List.length_map, hlength]
    · exact List.forall_mem_map.mpr fun b _ => b.toNat_lt
    · exact List.forall_mem_map.mpr fun b _ => b.toNat_lt
  exact List.map_injective_iff.mpr (fun a b => UInt8.toNat_inj.mp) hmap

/-- The upper half of the values stands for the negative numbers. -/
theorem signedNumber_eq (bytes : List UInt8) :
    signedNumber bytes =
      if 2 * binaryValue bytes < 256 ^ bytes.length then (binaryValue bytes : ℤ)
      else binaryValue bytes - 256 ^ bytes.length := by
  have hlt := binaryValue_lt bytes
  have hmod : (binaryValue bytes : ℤ) % (256 ^ bytes.length : ℕ) = binaryValue bytes :=
    Int.emod_eq_of_lt (by omega) (by exact_mod_cast hlt)
  have hcast : ((256 ^ bytes.length : ℕ) : ℤ) = 256 ^ bytes.length := by push_cast; rfl
  rw [signedNumber, Int.bmod_def, hmod, hcast]
  split <;> split <;> omega

example : signedNumber [0xFE, 0xFF] = -2 := by decide

/-- A number of one byte is that byte, with its sign. -/
theorem signedNumber_singleton (b : UInt8) : signedNumber [b] = signedValue b := by
  have hvalue : binaryValue [b] = b.toNat := by simp [binaryValue]
  rw [signedNumber_eq, hvalue, signedValue]
  simp only [List.length_singleton, Nat.pow_one]
  split <;> split <;> omega

/-- Two's complement of one more byte has values of an even number. -/
private theorem pow_eq_mul_two {length : ℕ} (hlength : 0 < length) :
    ∃ half : ℕ, 256 ^ length = 2 * half := by
  obtain ⟨shorter, rfl⟩ := Nat.exists_eq_succ_of_ne_zero hlength.ne'
  exact ⟨128 * 256 ^ shorter, by rw [Nat.pow_succ]; ring⟩

/-- Only the highest byte counts negatively. -/
theorem signedNumber_cons (b : UInt8) {bytes : List UInt8} (h : bytes ≠ []) :
    signedNumber (b :: bytes) = b.toNat + 256 * signedNumber bytes := by
  have hb := b.toNat_lt
  obtain ⟨half, heven⟩ := pow_eq_mul_two (List.length_pos_iff_ne_nil.mpr h)
  have hvalue : binaryValue (b :: bytes) = b.toNat + 256 * binaryValue bytes := numeral_cons b bytes
  have hcast : ((256 : ℤ) ^ bytes.length) = 2 * half := by exact_mod_cast heven
  rw [signedNumber_eq, signedNumber_eq, hvalue, List.length_cons, pow_succ, pow_succ, heven, hcast]
  split <;> split <;> omega

/-- A low byte makes no difference to whether a number is in range. -/
theorem fitsSigned_succ (b : UInt8) (n : ℤ) {length : ℕ} (hlength : 0 < length) :
    FitsSigned (length + 1) (b.toNat + 256 * n) ↔ FitsSigned length n := by
  have hb := b.toNat_lt
  obtain ⟨half, heven⟩ := pow_eq_mul_two hlength
  have hcast : ((256 : ℤ) ^ length) = 2 * half := by exact_mod_cast heven
  rw [FitsSigned, FitsSigned, pow_succ, hcast]
  omega

namespace Cpu.IsAboutTo

variable {c : Cpu Memory} {carry : Bool}

/-- A step of a binary addition is exact, and overflow tells whether its sum is in range. -/
theorem binarySum (h : c.IsAboutTo .adc false carry) :
    (c.step.2.regs.a.toNat : ℤ) = c.regs.a.toNat + 1 * c.operand.toNat + carry.toNat -
        256 * (c.step.2.regs.flag Status.carry).toNat ∧
      (c.step.2.regs.flag Status.overflow = true ↔
        ¬ FitsSigned 1 (signedValue c.regs.a + 1 * signedValue c.operand + carry.toNat)) := by
  have hregs : c.step.2.regs = .withResult (c.regsAfterFetch.binarySum c.operand) :=
    h.regs_step_of_adc
  have hexact := c.regsAfterFetch.binarySum_exact c.operand
  have hoverflow := c.regsAfterFetch.flag_overflow_binarySum c.operand
  rw [a_regsAfterFetch, flag_regsAfterFetch, h.carry] at hexact hoverflow
  rw [hregs, Registers.a_withResult, Registers.flag_withResult _ (by decide) (by decide),
    Registers.flag_withResult _ (by decide) (by decide), hoverflow, FitsSigned]
  exact ⟨by omega, by omega⟩

/-- A step of a binary subtraction is exact, and overflow tells whether its difference is in
range. -/
theorem binaryDifference (h : c.IsAboutTo .sbc false carry) :
    (c.step.2.regs.a.toNat : ℤ) = c.regs.a.toNat + -1 * c.operand.toNat + (carry.toNat - 1) -
        256 * ((c.step.2.regs.flag Status.carry).toNat - 1) ∧
      (c.step.2.regs.flag Status.overflow = true ↔
        ¬ FitsSigned 1
          (signedValue c.regs.a + -1 * signedValue c.operand + (carry.toNat - 1))) := by
  have hregs : c.step.2.regs = .withResult (c.regsAfterFetch.binaryDifference c.operand) :=
    h.regs_step_of_sbc
  have hexact := c.regsAfterFetch.binaryDifference_exact c.operand
  have hoverflow := c.regsAfterFetch.flag_overflow_binaryDifference c.operand
  rw [a_regsAfterFetch, flag_regsAfterFetch, h.carry] at hexact hoverflow
  rw [hregs, Registers.a_withResult, Registers.flag_withResult _ (by decide) (by decide),
    Registers.flag_withResult _ (by decide) (by decide), hoverflow, FitsSigned]
  exact ⟨by omega, by omega⟩

end Cpu.IsAboutTo

namespace Calculation

variable {operation : Operation} {carry : Bool} {x y : List UInt8} {after : List Registers}

section

variable (sign : ℤ) (carried : Bool → ℤ)

/-- If every step is exact and overflow tells whether its own result is in range, then overflow at
the end tells whether the whole result is. The carry that the highest byte receives is part of it
as much as the carry that the lowest byte received. -/
theorem overflow_of_steps
    (hstep : ∀ (c : Cpu Memory) (carry : Bool), c.IsAboutTo operation false carry →
      (c.step.2.regs.a.toNat : ℤ) = c.regs.a.toNat + sign * c.operand.toNat + carried carry -
          256 * carried (c.step.2.regs.flag Status.carry) ∧
        (c.step.2.regs.flag Status.overflow = true ↔
          ¬ FitsSigned 1 (signedValue c.regs.a + sign * signedValue c.operand + carried carry)))
    (h : Calculation operation false carry x y after) {last : Registers}
    (hlast : after.getLast? = some last) :
    last.flag Status.overflow = true ↔
      ¬ FitsSigned x.length (signedNumber x + sign * signedNumber y + carried carry) := by
  induction h with
  | done carry => exact absurd hlast nofun
  | @step c carry x y after first rest ih =>
    obtain ⟨hexact, hoverflow⟩ := hstep c carry first
    by_cases hne : x = []
    · subst hne
      obtain rfl : after = [] := List.length_eq_zero_iff.mp rest.length_eq.1
      obtain rfl : y = [] := List.length_eq_zero_iff.mp rest.length_eq.2.symm
      obtain rfl : c.step.2.regs = last := Option.some.inj hlast
      rw [signedNumber_singleton, signedNumber_singleton]
      exact hoverflow
    · have hlength : 0 < x.length := List.length_pos_iff_ne_nil.mpr hne
      have hne' : y ≠ [] := List.length_pos_iff_ne_nil.mp (rest.length_eq.2 ▸ hlength)
      obtain ⟨last', hlast'⟩ := rest.exists_last hne
      obtain rfl : last' = last := by
        rw [List.getLast?_cons, hlast'] at hlast
        exact Option.some.inj hlast
      -- What the lowest byte leaves over goes to the bytes above it.
      have hrest : signedNumber (c.regs.a :: x) + sign * signedNumber (c.operand :: y) +
          carried carry = c.step.2.regs.a.toNat + 256 * (signedNumber x + sign * signedNumber y +
            carried (c.step.2.regs.flag Status.carry)) := by
        rw [signedNumber_cons _ hne, signedNumber_cons _ hne']
        linear_combination -hexact
      rw [hrest, List.length_cons, fitsSigned_succ _ _ hlength]
      exact ih hlast'

end

end Calculation

/-- The bytes and flags that the addition of two numbers and a carry leaves. -/
structure IsBinarySum (x y : List UInt8) (carry : Bool) (after : List Registers)
    (last : Registers) : Prop where
  /-- There are as many bytes as before. -/
  length : after.length = x.length
  /-- The flags at the end are those after the highest byte. -/
  getLast : after.getLast? = some last
  /-- The bytes and the carry hold all of the sum. -/
  value : binaryValue (after.map (·.a)) + 256 ^ x.length * (last.flag Status.carry).toNat =
    binaryValue x + binaryValue y + carry.toNat
  /-- Overflow tells that the sum is out of range. -/
  overflow : last.flag Status.overflow = true ↔
    ¬ FitsSigned x.length (signedNumber x + signedNumber y + carry.toNat)
  /-- The negative flag is the highest bit. -/
  negative : last.flag Status.negative = last.a.toNat.testBit 7

/-- The bytes and flags that the subtraction of a number and a borrow from a number leaves. Carry
tells that there is no borrow. -/
structure IsBinaryDifference (x y : List UInt8) (carry : Bool) (after : List Registers)
    (last : Registers) : Prop where
  /-- There are as many bytes as before. -/
  length : after.length = x.length
  /-- The flags at the end are those after the highest byte. -/
  getLast : after.getLast? = some last
  /-- The bytes and the borrow hold all of the difference. -/
  value : (binaryValue (after.map (·.a)) : ℤ) =
    binaryValue x - binaryValue y - (1 - carry.toNat) +
      256 ^ x.length * (1 - (last.flag Status.carry).toNat)
  /-- Overflow tells that the difference is out of range. -/
  overflow : last.flag Status.overflow = true ↔
    ¬ FitsSigned x.length (signedNumber x - signedNumber y - (1 - carry.toNat))
  /-- The negative flag is the highest bit. -/
  negative : last.flag Status.negative = last.a.toNat.testBit 7

namespace Calculation

variable {carry : Bool} {x y : List UInt8} {after back : List Registers}

/-- The bytes of a sum and the carry hold all of it. -/
theorem binaryValue_sum (h : Calculation .adc false carry x y after) :
    (binaryValue (after.map (·.a)) : ℤ) = binaryValue x + binaryValue y + carry.toNat -
      256 ^ x.length * (carryOut carry after).toNat := by
  have hexact := h.exact_of_steps 256 1 (fun b => b.toNat) UInt8.toNat (fun _ => True)
    (fun _ _ first _ _ => ⟨trivial, first.binarySum.1⟩) (fun _ _ => trivial) fun _ _ => trivial
  unfold binaryValue
  linear_combination hexact.2

/-- The bytes of a difference and the borrow hold all of it. -/
theorem binaryValue_difference (h : Calculation .sbc false carry x y after) :
    (binaryValue (after.map (·.a)) : ℤ) = binaryValue x - binaryValue y - (1 - carry.toNat) +
      256 ^ x.length * (1 - (carryOut carry after).toNat) := by
  have hexact := h.exact_of_steps 256 (-1) (fun b => b.toNat - 1) UInt8.toNat (fun _ => True)
    (fun _ _ first _ _ => ⟨trivial, first.binaryDifference.1⟩) (fun _ _ => trivial)
    fun _ _ => trivial
  unfold binaryValue
  linear_combination hexact.2

/-- Adding the bytes one after another adds the numbers. -/
theorem isBinarySum (h : Calculation .adc false carry x y after) (hx : x ≠ []) :
    ∃ last, IsBinarySum x y carry after last := by
  obtain ⟨last, hlast⟩ := h.exists_last hx
  have hvalue := h.binaryValue_sum
  have hoverflow := h.overflow_of_steps 1 (fun b => b.toNat)
    (fun _ _ first => first.binarySum) hlast
  have hdescribes := h.forall_after (fun _ _ first => first.describesAccumulator (.inl rfl)) last
    (List.mem_of_getLast? hlast)
  rw [carryOut_of_getLast? hlast] at hvalue
  rw [one_mul] at hoverflow
  refine ⟨last, h.length_eq.1, hlast, ?_, hoverflow, hdescribes.negative⟩
  zify
  linear_combination hvalue

/-- Subtracting the bytes one after another subtracts the numbers. -/
theorem isBinaryDifference (h : Calculation .sbc false carry x y after) (hx : x ≠ []) :
    ∃ last, IsBinaryDifference x y carry after last := by
  obtain ⟨last, hlast⟩ := h.exists_last hx
  have hvalue := h.binaryValue_difference
  have hoverflow := h.overflow_of_steps (-1) (fun b => b.toNat - 1)
    (fun _ _ first => first.binaryDifference) hlast
  have hdescribes := h.forall_after (fun _ _ first => first.describesAccumulator (.inr rfl)) last
    (List.mem_of_getLast? hlast)
  have hsigned : signedNumber x + -1 * signedNumber y + ((carry.toNat : ℤ) - 1) =
      signedNumber x - signedNumber y - (1 - carry.toNat) := by ring
  rw [carryOut_of_getLast? hlast] at hvalue
  rw [hsigned] at hoverflow
  exact ⟨last, h.length_eq.1, hlast, hvalue, hoverflow, hdescribes.negative⟩

/-- Subtracting what was added gives back the number. -/
theorem undoes (hsum : Calculation .adc false false x y after)
    (hback : Calculation .sbc false true (after.map (·.a)) y back) : back.map (·.a) = x := by
  have hlength : (after.map (·.a)).length = x.length := by rw [List.length_map, hsum.length_eq.1]
  have hlength' : (back.map (·.a)).length = x.length := by
    rw [List.length_map, hback.length_eq.1, hlength]
  refine eq_of_binaryValue_eq hlength' ?_
  have hadded := hsum.binaryValue_sum
  have hsubtracted := hback.binaryValue_difference
  have hx := binaryValue_lt x
  have hresult := binaryValue_lt (back.map (·.a))
  rw [hlength'] at hresult
  rw [hlength] at hsubtracted
  -- The values differ by the carries alone, and both are in range.
  have hmod : binaryValue (back.map (·.a)) ≡ binaryValue x [MOD 256 ^ x.length] := by
    rw [← Int.natCast_modEq_iff, Int.modEq_iff_dvd]
    refine ⟨(carryOut false after).toNat + (carryOut true back).toNat - 1, ?_⟩
    simp only [Bool.toNat_false, Bool.toNat_true] at hadded hsubtracted
    push_cast
    linear_combination -hadded - hsubtracted
  exact hmod.eq_of_lt_of_lt hresult hx

end Calculation

/-- What comes of two numbers of as many bytes, and a carry. -/
structure CalculatesInBinary (x y : List UInt8) (carry : Bool) : Prop where
  /-- They can be added. -/
  adds : ∃ after, Calculation .adc false carry x y after
  /-- An addition leaves the sum. -/
  sum : ∀ after, Calculation .adc false carry x y after → ∃ last, IsBinarySum x y carry after last
  /-- They can be subtracted. -/
  subtracts : ∃ after, Calculation .sbc false carry x y after
  /-- A subtraction leaves the difference. -/
  difference : ∀ after, Calculation .sbc false carry x y after →
    ∃ last, IsBinaryDifference x y carry after last
  /-- A subtraction that starts without a borrow undoes an addition that started without a carry. -/
  undone : ∀ after, Calculation .adc false false x y after →
    (∃ back, Calculation .sbc false true (after.map (·.a)) y back) ∧
      ∀ back, Calculation .sbc false true (after.map (·.a)) y back → back.map (·.a) = x

/-- Sums and differences of binary numbers are exact for every number of bytes. -/
theorem calculatesInBinary {x y : List UInt8} (hlength : x.length = y.length) (hx : x ≠ [])
    (carry : Bool) : CalculatesInBinary x y carry where
  adds := Calculation.exists_of_immediate 0x69 rfl false carry hlength
  sum _ h := h.isBinarySum hx
  subtracts := Calculation.exists_of_immediate 0xE9 rfl false carry hlength
  difference _ h := h.isBinaryDifference hx
  undone _ h := by
    refine ⟨Calculation.exists_of_immediate 0xE9 rfl false true ?_, fun _ => h.undoes⟩
    rw [List.length_map, h.length_eq.1, hlength]

/-- Such numbers are `0x7FFF` and 1, whose sum has the wrong sign. -/
theorem calculatesInBinary_two_bytes :
    ([0xFF, 0x7F] : List UInt8).length = [(0x01 : UInt8), 0x00].length ∧
      ([0xFF, 0x7F] : List UInt8) ≠ [] ∧
      CalculatesInBinary [0xFF, 0x7F] [0x01, 0x00] false :=
  ⟨rfl, by decide, calculatesInBinary (x := [0xFF, 0x7F]) (y := [0x01, 0x00]) rfl (by decide) false⟩

end W65C02
