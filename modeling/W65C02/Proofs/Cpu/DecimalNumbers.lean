import W65C02.Proofs.Cpu.Calculation

/-!
# Decimal numbers of any length

Decimal mode keeps two digits in a byte. An addition of two numbers of such digits byte by byte is
exact, whatever their length, and so is a subtraction: carry is the carry or the borrow of the
decimal number. Only digits come out, so that calculations can go on with the result, and after
every byte the zero and negative flags describe the byte that is left.
-/

namespace W65C02

/-- The number that pairs of decimal digits stand for, the lowest pair first. -/
def decimalValue (bytes : List UInt8) : ℕ := numeral 100 packedValue bytes

namespace Cpu.IsAboutTo

variable {c : Cpu Memory} {carry : Bool}

/-- A step of a decimal addition is exact and leaves digits. -/
theorem decimalSum (h : c.IsAboutTo .adc true carry) (ha : IsPackedDecimal c.regs.a)
    (hoperand : IsPackedDecimal c.operand) :
    IsPackedDecimal c.step.2.regs.a ∧
      (packedValue c.step.2.regs.a : ℤ) = packedValue c.regs.a + 1 * packedValue c.operand +
        carry.toNat - 100 * (c.step.2.regs.flag Status.carry).toNat := by
  have hregs : c.step.2.regs = .withResult (c.regsAfterFetch.decimalSum c.operand) :=
    h.regs_step_of_adc
  obtain ⟨hdigits, hexact⟩ := Registers.decimalSum_exact (r := c.regsAfterFetch) ha hoperand
  rw [a_regsAfterFetch, flag_regsAfterFetch, h.carry] at hexact
  rw [hregs, Registers.a_withResult, Registers.flag_withResult _ (by decide) (by decide)]
  exact ⟨hdigits, by omega⟩

/-- A step of a decimal subtraction is exact and leaves digits. -/
theorem decimalDifference (h : c.IsAboutTo .sbc true carry) (ha : IsPackedDecimal c.regs.a)
    (hoperand : IsPackedDecimal c.operand) :
    IsPackedDecimal c.step.2.regs.a ∧
      (packedValue c.step.2.regs.a : ℤ) = packedValue c.regs.a + -1 * packedValue c.operand +
        (carry.toNat - 1) - 100 * ((c.step.2.regs.flag Status.carry).toNat - 1) := by
  have hregs : c.step.2.regs = .withResult (c.regsAfterFetch.decimalDifference c.operand) :=
    h.regs_step_of_sbc
  obtain ⟨hdigits, hexact⟩ :=
    Registers.decimalDifference_exact (r := c.regsAfterFetch) ha hoperand
  rw [a_regsAfterFetch, flag_regsAfterFetch, h.carry] at hexact
  rw [hregs, Registers.a_withResult, Registers.flag_withResult _ (by decide) (by decide)]
  exact ⟨hdigits, by omega⟩

end Cpu.IsAboutTo

/-- The bytes and flags that the addition of two decimal numbers and a carry leaves. -/
structure IsDecimalSum (x y : List UInt8) (carry : Bool) (after : List Registers) : Prop where
  /-- There are as many bytes as before. -/
  length : after.length = x.length
  /-- All of them hold decimal digits. -/
  digits : ∀ r ∈ after, IsPackedDecimal r.a
  /-- The digits and the carry hold all of the sum. -/
  value : decimalValue (after.map (·.a)) +
      100 ^ x.length * (Calculation.carryOut carry after).toNat =
    decimalValue x + decimalValue y + carry.toNat
  /-- The flags after every byte describe that byte. -/
  described : ∀ r ∈ after, r.DescribesAccumulator

/-- The bytes and flags that the subtraction of a decimal number and a borrow from a decimal number
leaves. Carry tells that there is no borrow. -/
structure IsDecimalDifference (x y : List UInt8) (carry : Bool) (after : List Registers) :
    Prop where
  /-- There are as many bytes as before. -/
  length : after.length = x.length
  /-- All of them hold decimal digits. -/
  digits : ∀ r ∈ after, IsPackedDecimal r.a
  /-- The digits and the borrow hold all of the difference. -/
  value : (decimalValue (after.map (·.a)) : ℤ) =
    decimalValue x - decimalValue y - (1 - carry.toNat) +
      100 ^ x.length * (1 - (Calculation.carryOut carry after).toNat)
  /-- The flags after every byte describe that byte. -/
  described : ∀ r ∈ after, r.DescribesAccumulator

namespace Calculation

variable {carry : Bool} {x y : List UInt8} {after : List Registers}

/-- Adding the bytes one after another adds the decimal numbers. -/
theorem isDecimalSum (h : Calculation .adc true carry x y after)
    (hx : ∀ b ∈ x, IsPackedDecimal b) (hy : ∀ b ∈ y, IsPackedDecimal b) :
    IsDecimalSum x y carry after := by
  obtain ⟨hdigits, hexact⟩ := h.exact_of_steps 100 1 (fun b => b.toNat) packedValue
    IsPackedDecimal (fun _ _ first ha hoperand => first.decimalSum ha hoperand) hx hy
  refine ⟨h.length_eq.1, hdigits, ?_, ?_⟩
  · unfold decimalValue
    zify
    linear_combination hexact
  · exact h.forall_after fun _ _ first => first.describesAccumulator (.inl rfl)

/-- Subtracting the bytes one after another subtracts the decimal numbers. -/
theorem isDecimalDifference (h : Calculation .sbc true carry x y after)
    (hx : ∀ b ∈ x, IsPackedDecimal b) (hy : ∀ b ∈ y, IsPackedDecimal b) :
    IsDecimalDifference x y carry after := by
  obtain ⟨hdigits, hexact⟩ := h.exact_of_steps 100 (-1) (fun b => b.toNat - 1) packedValue
    IsPackedDecimal (fun _ _ first ha hoperand => first.decimalDifference ha hoperand) hx hy
  refine ⟨h.length_eq.1, hdigits, ?_, ?_⟩
  · unfold decimalValue
    linear_combination hexact
  · exact h.forall_after fun _ _ first => first.describesAccumulator (.inr rfl)

end Calculation

/-- What comes of two decimal numbers of as many bytes, and a carry. -/
structure CalculatesInDecimal (x y : List UInt8) (carry : Bool) : Prop where
  /-- They can be added. -/
  adds : ∃ after, Calculation .adc true carry x y after
  /-- An addition leaves the sum. -/
  sum : ∀ after, Calculation .adc true carry x y after → IsDecimalSum x y carry after
  /-- They can be subtracted. -/
  subtracts : ∃ after, Calculation .sbc true carry x y after
  /-- A subtraction leaves the difference. -/
  difference : ∀ after, Calculation .sbc true carry x y after →
    IsDecimalDifference x y carry after

/-- Sums and differences of decimal numbers are exact for every number of bytes. -/
theorem calculatesInDecimal {x y : List UInt8} (hlength : x.length = y.length)
    (hx : ∀ b ∈ x, IsPackedDecimal b) (hy : ∀ b ∈ y, IsPackedDecimal b) (carry : Bool) :
    CalculatesInDecimal x y carry where
  adds := Calculation.exists_of_immediate 0x69 rfl true carry hlength
  sum _ h := h.isDecimalSum hx hy
  subtracts := Calculation.exists_of_immediate 0xE9 rfl true carry hlength
  difference _ h := h.isDecimalDifference hx hy

/-- Such numbers are 4999 and 5001, whose sum does not fit into four digits. -/
theorem calculatesInDecimal_two_bytes :
    ([0x99, 0x49] : List UInt8).length = [(0x01 : UInt8), 0x50].length ∧
      (∀ b ∈ ([0x99, 0x49] : List UInt8), IsPackedDecimal b) ∧
      (∀ b ∈ ([0x01, 0x50] : List UInt8), IsPackedDecimal b) ∧
      CalculatesInDecimal [0x99, 0x49] [0x01, 0x50] false := by
  have hlength : ([0x99, 0x49] : List UInt8).length = [(0x01 : UInt8), 0x50].length := rfl
  have hx : ∀ b ∈ ([0x99, 0x49] : List UInt8), IsPackedDecimal b := by simp [IsPackedDecimal]
  have hy : ∀ b ∈ ([0x01, 0x50] : List UInt8), IsPackedDecimal b := by simp [IsPackedDecimal]
  exact ⟨hlength, hx, hy, calculatesInDecimal hlength hx hy false⟩

end W65C02
