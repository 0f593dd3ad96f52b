import W65C02.Registers

/-!
# Addition, subtraction and shifts

The accumulator is added to and subtracted from with carry, as a binary number or as two
packed decimal digits. Each function gives the result and the registers with the carry and
overflow flags set by it.
-/

namespace W65C02

/-- A byte as a two's-complement number. -/
def signedValue (b : UInt8) : Int :=
  if b.toNat < 128 then b.toNat else (b.toNat : Int) - 256

namespace Registers

/-- The carry flag as a number. -/
def carryIn (r : Registers) : Nat := if r.flag Status.carry then 1 else 0

/-- What a subtraction takes away beside its operand: one if carry is clear. -/
def borrowIn (r : Registers) : Int := if r.flag Status.carry then 0 else 1

/-- Adds a byte and the carry to the accumulator. -/
def binarySum (r : Registers) (value : UInt8) : UInt8 × Registers :=
  let sum := r.a.toNat + value.toNat + r.carryIn
  let result := UInt8.ofNat sum
  (result, (r.withCarryOfSum sum).withOverflowOfSum r.a value result)

/-- Subtracts a byte and the borrow from the accumulator. -/
def binaryDifference (r : Registers) (value : UInt8) : UInt8 × Registers :=
  let difference := (r.a.toNat : Int) - value.toNat - r.borrowIn
  let result := UInt8.ofInt difference
  (result, (r.withCarryOfDifference difference).withOverflowOfDifference r.a value result)

/-- Adds two packed decimal digits and the carry to the accumulator. The low digit is
corrected first and hands its carry to the high digit; overflow looks at the sum before the
high digit is corrected. -/
def decimalSum (r : Registers) (value : UInt8) : UInt8 × Registers :=
  let digits := (r.a &&& 0x0F).toNat + (value &&& 0x0F).toNat + r.carryIn
  let low := if digits ≥ 0x0A then (digits + 0x06) % 0x10 + 0x10 else digits
  let signed := signedValue (r.a &&& 0xF0) + signedValue (value &&& 0xF0) + low
  let sum := (r.a &&& 0xF0).toNat + (value &&& 0xF0).toNat + low
  let corrected := if sum ≥ 0xA0 then sum + 0x60 else sum
  (UInt8.ofNat corrected,
    (r.withFlag Status.overflow (decide (signed < -128 ∨ 127 < signed))).withCarryOfSum corrected)

/-- Subtracts two packed decimal digits and the borrow from the accumulator. The flags are
those of the binary difference, which is then corrected digit by digit. -/
def decimalDifference (r : Registers) (value : UInt8) : UInt8 × Registers :=
  let difference := (r.a.toNat : Int) - value.toNat - r.borrowIn
  let low := ((r.a &&& 0x0F).toNat : Int) - (value &&& 0x0F).toNat - r.borrowIn
  let corrected := difference - (if difference < 0 then 0x60 else 0)
    - (if low < 0 then 0x06 else 0)
  (UInt8.ofInt corrected,
    (r.withCarryOfDifference difference).withOverflowOfDifference r.a value
      (UInt8.ofInt difference))

/-- Adds in the mode that the decimal flag selects. -/
def add (r : Registers) (value : UInt8) : UInt8 × Registers :=
  if r.flag Status.decimal then r.decimalSum value else r.binarySum value

/-- Subtracts in the mode that the decimal flag selects. -/
def subtract (r : Registers) (value : UInt8) : UInt8 × Registers :=
  if r.flag Status.decimal then r.decimalDifference value else r.binaryDifference value

/-- Compares a register's value with a byte: the difference, and the registers with carry
telling that there was no borrow. -/
def compare (r : Registers) (register value : UInt8) : UInt8 × Registers :=
  let difference := (register.toNat : Int) - value.toNat
  (UInt8.ofInt difference, r.withCarryOfDifference difference)

/-- Shifts left; bit 7 goes to carry. -/
def shiftLeft (r : Registers) (value : UInt8) : UInt8 × Registers :=
  (value <<< 1, r.withFlag Status.carry (value &&& 0x80 != 0))

/-- Shifts right; bit 0 goes to carry. -/
def shiftRight (r : Registers) (value : UInt8) : UInt8 × Registers :=
  (value >>> 1, r.withFlag Status.carry (value &&& 0x01 != 0))

/-- Rotates left through carry. -/
def rotateLeft (r : Registers) (value : UInt8) : UInt8 × Registers :=
  (value <<< 1 ||| (if r.flag Status.carry then 0x01 else 0),
    r.withFlag Status.carry (value &&& 0x80 != 0))

/-- Rotates right through carry. -/
def rotateRight (r : Registers) (value : UInt8) : UInt8 × Registers :=
  (value >>> 1 ||| (if r.flag Status.carry then 0x80 else 0),
    r.withFlag Status.carry (value &&& 0x01 != 0))

/-- Sets the zero flag if a byte has no bit in common with the accumulator. -/
def testBits (r : Registers) (value : UInt8) : Registers :=
  r.withFlag Status.zero (r.a &&& value == 0)

end Registers

end W65C02
