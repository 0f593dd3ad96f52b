import Mathlib.Data.Nat.Digits.Defs
import W65C02.Proofs.Instruction.Traffic

/-!
# Addresses in the arithmetic of integers

Every mode finds its address by displacing a base, and both are plain numbers: the sum wraps around
at the end of the address space, and another page is reached exactly when the low byte of the base
does not take up the displacement. The base of an indirect mode is a pointer. Its two bytes are
read, the low one first, and nothing else is asked of the bus.
-/

namespace W65C02

namespace EffectiveAddress

/-- At the end of the address space the next page is the first one. -/
example : displaced 0xFFF0 0x20 = ⟨0x0010, true⟩ := by decide

end EffectiveAddress

namespace Port

variable {β : Type} [Bus β] (port : Port β)

end Port

/-- The number that the operand bytes make up, the low one being the first. -/
def Operand.number (operand : Operand) : ℕ := 256 * operand.second.toNat + operand.first.toNat

namespace AddressingMode

variable (mode : AddressingMode) (operand : Operand) (regs : Registers)

/-- What a mode displaces, given the bytes of its pointer. -/
def base (mode : AddressingMode) (operand : Operand) (regs : Registers) (pointer : List UInt8) :
    ℕ :=
  match mode with
  | implied | accumulator | immediate => 0
  | zeroPage | zeroPageRelative => operand.first.toNat
  | zeroPageX => (operand.first.toNat + regs.x.toNat) % 256
  | zeroPageY => (operand.first.toNat + regs.y.toNat) % 256
  | relative => regs.pc.toNat
  | absolute | absoluteX | absoluteY => operand.number
  | indirect | absoluteIndexedIndirect | indexedIndirect | indirectIndexed | zeroPageIndirect =>
    Nat.ofDigits 256 (pointer.map UInt8.toNat)

/-- How far a mode displaces its base. -/
def displacement (mode : AddressingMode) (operand : Operand) (regs : Registers) : ℤ :=
  match mode with
  | relative => signedValue operand.first
  | absoluteX => regs.x.toNat
  | absoluteY | indirectIndexed => regs.y.toNat
  | _ => 0

variable {mode}

variable (mode)

end AddressingMode

end W65C02
