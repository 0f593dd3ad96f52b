import W65C02.Proofs.Registers

/-!
# Sums and differences of single bytes

A binary sum or difference of two bytes is exact: the byte that comes out and the carry together
hold all of it, and overflow tells whether it is outside the range of two's complement. In decimal
mode the same holds of two packed decimal digits, as long as every digit that goes in is one; the
digits that come out are then digits again.
-/

namespace W65C02

/-- Both halves of a byte are decimal digits. -/
def IsPackedDecimal (b : UInt8) : Prop := b.toNat / 16 ≤ 9 ∧ b.toNat % 16 ≤ 9

instance (b : UInt8) : Decidable (IsPackedDecimal b) :=
  inferInstanceAs (Decidable (b.toNat / 16 ≤ 9 ∧ b.toNat % 16 ≤ 9))

/-- The number that two packed decimal digits stand for. -/
def packedValue (b : UInt8) : ℕ := 10 * (b.toNat / 16) + b.toNat % 16

/-- Bit 7 is set in the upper half of all bytes. -/
theorem testBit_seven_iff (b : UInt8) : b.toNat.testBit 7 = true ↔ 128 ≤ b.toNat := by
  have hb := b.toNat_lt
  rw [Nat.testBit_eq_decide_div_mod_eq, decide_eq_true_iff]
  omega

/-- Masking bit 7 tests it. -/
theorem and_bit_seven : ∀ b : UInt8, (b &&& 0x80 != 0) = b.toNat.testBit 7 :=
  forall_byte (by decide +kernel)

/-- The low digit of a byte is its remainder by 16, -/
theorem toNat_and_low : ∀ b : UInt8, (b &&& 0x0F).toNat = b.toNat % 16 :=
  forall_byte (by decide +kernel)

/-- and the high digit is its quotient. -/
theorem toNat_and_high : ∀ b : UInt8, (b &&& 0xF0).toNat = 16 * (b.toNat / 16) :=
  forall_byte (by decide +kernel)

/-- An integer is cut to a byte modulo 256. -/
theorem toNat_ofInt (n : ℤ) : ((UInt8.ofInt n).toNat : ℤ) = n % 256 := by
  have hnonneg : 0 ≤ n % 256 := Int.emod_nonneg n (by decide)
  have hlt : n % 256 < 256 := Int.emod_lt_of_pos n (by decide)
  have hofNat : (UInt8.ofInt n).toNat = (n % 256).toNat % 256 := UInt8.toNat_ofNat'
  rw [hofNat]
  omega

/-- The bytes of both pairs differ in their top bits. -/
theorem xor_and_xor_bit_seven (a b c d : UInt8) :
    ((a ^^^ b) &&& (c ^^^ d) &&& 0x80 != 0) = true ↔
      ¬ (128 ≤ a.toNat ↔ 128 ≤ b.toNat) ∧ ¬ (128 ≤ c.toNat ↔ 128 ≤ d.toNat) := by
  have hdiffer (p q : Bool) : (p ^^ q) = true ↔ ¬ (p = true ↔ q = true) := by
    cases p <;> cases q <;> decide
  rw [and_bit_seven, UInt8.toNat_and, UInt8.toNat_xor, UInt8.toNat_xor, Nat.testBit_and,
    Nat.testBit_xor, Nat.testBit_xor, Bool.and_eq_true, hdiffer, hdiffer]
  simp only [testBit_seven_iff]

namespace Registers

variable (r : Registers) (value : UInt8)

/-- The carry flag counts for one, -/
theorem carryIn_eq : r.carryIn = (r.flag Status.carry).toNat := by
  unfold carryIn
  cases r.flag Status.carry <;> rfl

/-- and its absence for a borrow of one. -/
theorem borrowIn_eq : r.borrowIn = 1 - ((r.flag Status.carry).toNat : ℤ) := by
  unfold borrowIn
  cases r.flag Status.carry <;> rfl

/-- A flag is what it was last set to. -/
theorem flag_withFlag {mask : UInt8} (on : Bool) (hmask : mask ≠ 0)
    (hunused : Status.unused &&& mask = 0) : (r.withFlag mask on).flag mask = on := by
  cases on with
  | true => exact flag_withFlag_true r mask
  | false => exact flag_withFlag_false r hmask hunused

/-- The byte and the carry that a binary sum leaves hold all of it. -/
theorem binarySum_exact :
    (r.binarySum value).1.toNat + 256 * ((r.binarySum value).2.flag Status.carry).toNat =
      r.a.toNat + value.toNat + (r.flag Status.carry).toNat := by
  have ha := r.a.toNat_lt
  have hvalue := value.toNat_lt
  have hin := (r.flag Status.carry).toNat_le
  have hcarry : (r.binarySum value).2.flag Status.carry =
      decide (255 < r.a.toNat + value.toNat + r.carryIn) := by
    simp only [binarySum, withOverflowOfSum]
    rw [flag_withFlag_of_disjoint _ _ (by decide) (by decide)]
    exact flag_withFlag _ _ (by decide) (by decide)
  have hresult : (r.binarySum value).1.toNat = (r.a.toNat + value.toNat + r.carryIn) % 256 :=
    UInt8.toNat_ofNat'
  rw [hresult, hcarry, carryIn_eq]
  by_cases hnine : 255 < r.a.toNat + value.toNat + (r.flag Status.carry).toNat
  · rw [decide_eq_true hnine, Bool.toNat_true]
    omega
  · rw [decide_eq_false hnine, Bool.toNat_false]
    omega

/-- Overflow tells that the sum is outside the range of two's complement. -/
theorem flag_overflow_binarySum :
    (r.binarySum value).2.flag Status.overflow = true ↔
      ¬ (-128 ≤ signedValue r.a + signedValue value + (r.flag Status.carry).toNat ∧
        signedValue r.a + signedValue value + (r.flag Status.carry).toNat < 128) := by
  have ha := r.a.toNat_lt
  have hvalue := value.toNat_lt
  have hin := (r.flag Status.carry).toNat_le
  have hresult : (r.binarySum value).1.toNat = (r.a.toNat + value.toNat + r.carryIn) % 256 :=
    UInt8.toNat_ofNat'
  have hflag : (r.binarySum value).2.flag Status.overflow =
      ((r.a ^^^ (r.binarySum value).1) &&& (value ^^^ (r.binarySum value).1) &&& 0x80 != 0) :=
    flag_withFlag _ _ (by decide) (by decide)
  rw [carryIn_eq] at hresult
  rw [hflag, xor_and_xor_bit_seven, hresult]
  unfold signedValue
  split <;> split <;> omega

/-- The byte that a binary difference leaves and the borrow that carry tells of hold all of it. -/
theorem binaryDifference_exact :
    ((r.binaryDifference value).1.toNat : ℤ) =
      r.a.toNat - value.toNat - (1 - (r.flag Status.carry).toNat) +
        256 * (1 - ((r.binaryDifference value).2.flag Status.carry).toNat) := by
  have ha := r.a.toNat_lt
  have hvalue := value.toNat_lt
  have hin := (r.flag Status.carry).toNat_le
  have hcarry : (r.binaryDifference value).2.flag Status.carry =
      decide ((r.a.toNat : ℤ) - value.toNat - r.borrowIn ≥ 0) := by
    simp only [binaryDifference, withOverflowOfDifference]
    rw [flag_withFlag_of_disjoint _ _ (by decide) (by decide)]
    exact flag_withFlag _ _ (by decide) (by decide)
  have hresult : ((r.binaryDifference value).1.toNat : ℤ) =
      ((r.a.toNat : ℤ) - value.toNat - r.borrowIn) % 256 := toNat_ofInt _
  rw [hresult, hcarry, borrowIn_eq]
  by_cases hpositive : (r.a.toNat : ℤ) - value.toNat - (1 - (r.flag Status.carry).toNat) ≥ 0
  · rw [decide_eq_true hpositive, Bool.toNat_true]
    omega
  · rw [decide_eq_false hpositive, Bool.toNat_false]
    omega

/-- Overflow tells that the difference is outside the range of two's complement. -/
theorem flag_overflow_binaryDifference :
    (r.binaryDifference value).2.flag Status.overflow = true ↔
      ¬ (-128 ≤ signedValue r.a - signedValue value - (1 - (r.flag Status.carry).toNat) ∧
        signedValue r.a - signedValue value - (1 - (r.flag Status.carry).toNat) < 128) := by
  have ha := r.a.toNat_lt
  have hvalue := value.toNat_lt
  have hin := (r.flag Status.carry).toNat_le
  have hresult : ((r.binaryDifference value).1.toNat : ℤ) =
      ((r.a.toNat : ℤ) - value.toNat - r.borrowIn) % 256 := toNat_ofInt _
  have hflag : (r.binaryDifference value).2.flag Status.overflow =
      ((r.a ^^^ value) &&& (r.a ^^^ (r.binaryDifference value).1) &&& 0x80 != 0) :=
    flag_withFlag _ _ (by decide) (by decide)
  rw [borrowIn_eq] at hresult
  rw [hflag, xor_and_xor_bit_seven]
  unfold signedValue
  split <;> split <;> omega

variable {r value}

/-- The digits and the carry that a decimal sum leaves hold all of it. -/
theorem decimalSum_exact (ha : IsPackedDecimal r.a) (hvalue : IsPackedDecimal value) :
    IsPackedDecimal (r.decimalSum value).1 ∧
      packedValue (r.decimalSum value).1 +
          100 * ((r.decimalSum value).2.flag Status.carry).toNat =
        packedValue r.a + packedValue value + (r.flag Status.carry).toNat := by
  have hin := (r.flag Status.carry).toNat_le
  obtain ⟨hhigh, hlow⟩ := ha
  obtain ⟨hhigh', hlow'⟩ := hvalue
  let digits := r.a.toNat % 16 + value.toNat % 16 + (r.flag Status.carry).toNat
  let low := if digits ≥ 10 then (digits + 6) % 16 + 16 else digits
  let sum := 16 * (r.a.toNat / 16) + 16 * (value.toNat / 16) + low
  let corrected := if sum ≥ 0xA0 then sum + 0x60 else sum
  have hresult : (r.decimalSum value).1.toNat = corrected % 256 := by
    simp only [decimalSum, UInt8.toNat_ofNat', toNat_and_low, toNat_and_high, carryIn_eq]
    rfl
  have hcarry : (r.decimalSum value).2.flag Status.carry = decide (255 < corrected) := by
    simp only [decimalSum, toNat_and_low, toNat_and_high, carryIn_eq]
    exact flag_withFlag _ _ (by decide) (by decide)
  -- The low half is the low digit of the sum, and what is above it is the carry of that digit.
  have hdigits : digits ≤ 19 := by omega
  have hdigit : low = 16 * (digits / 10) + digits % 10 := by
    simp only [low]
    split <;> omega
  have hsum : sum = 16 * (r.a.toNat / 16 + value.toNat / 16 + digits / 10) + digits % 10 := by
    omega
  unfold IsPackedDecimal packedValue
  rw [hresult, hcarry]
  simp only [corrected]
  split
  · rw [decide_eq_true (by omega), Bool.toNat_true]
    omega
  · rw [decide_eq_false (by omega), Bool.toNat_false, Nat.mod_eq_of_lt (by omega)]
    omega

/-- The digits that a decimal difference leaves and the borrow that carry tells of hold all of
it. -/
theorem decimalDifference_exact (ha : IsPackedDecimal r.a) (hvalue : IsPackedDecimal value) :
    IsPackedDecimal (r.decimalDifference value).1 ∧
      (packedValue (r.decimalDifference value).1 : ℤ) =
        packedValue r.a - packedValue value - (1 - (r.flag Status.carry).toNat) +
          100 * (1 - ((r.decimalDifference value).2.flag Status.carry).toNat) := by
  have hin := (r.flag Status.carry).toNat_le
  obtain ⟨hhigh, hlow⟩ := ha
  obtain ⟨hhigh', hlow'⟩ := hvalue
  let difference := (r.a.toNat : ℤ) - value.toNat - (1 - (r.flag Status.carry).toNat)
  let low := (r.a.toNat % 16 : ℤ) - value.toNat % 16 - (1 - (r.flag Status.carry).toNat)
  have hresult : ((r.decimalDifference value).1.toNat : ℤ) =
      (difference - (if difference < 0 then 0x60 else 0) - (if low < 0 then 0x06 else 0)) %
        256 := by
    simp only [decimalDifference, toNat_ofInt, toNat_and_low, borrowIn_eq]
    rfl
  have hcarry : (r.decimalDifference value).2.flag Status.carry = decide (difference ≥ 0) := by
    simp only [decimalDifference, withOverflowOfDifference]
    rw [flag_withFlag_of_disjoint _ _ (by decide) (by decide), borrowIn_eq]
    exact flag_withFlag _ _ (by decide) (by decide)
  unfold IsPackedDecimal packedValue
  rw [hcarry]
  by_cases hpositive : difference ≥ 0
  · rw [if_neg (by omega)] at hresult
    rw [decide_eq_true hpositive, Bool.toNat_true]
    split at hresult <;> omega
  · rw [if_pos (by omega)] at hresult
    rw [decide_eq_false hpositive, Bool.toNat_false]
    split at hresult <;> omega

end Registers

end W65C02
