import W65C02.Error
import W65C02.Status
import W65C02.Word

/-!
# The register file

Three eight-bit working registers, a stack pointer into page one, the status byte and a
sixteen-bit program counter. The operations on single status flags live here as well.
-/

namespace W65C02

/-- The page that holds the stack. -/
def stackPage : UInt16 := 0x0100

/-- The address in page one that a stack pointer designates. -/
def stackAddress (s : UInt8) : UInt16 := stackPage ||| s.toUInt16

/-- The programmer's registers. A fresh register file has the stack pointer at `$FD` and
the status `$34`. -/
structure Registers where
  /-- Accumulator. -/
  a : UInt8 := 0
  /-- First index register. -/
  x : UInt8 := 0
  /-- Second index register. -/
  y : UInt8 := 0
  /-- Program counter. -/
  pc : UInt16 := 0
  /-- Stack pointer, an offset into page one. -/
  s : UInt8 := 0xFD
  /-- Status byte. -/
  p : UInt8 := 0x34
  deriving DecidableEq, Inhabited

/-- The name of a register. -/
inductive Register where
  | a
  | x
  | y
  | pc
  | s
  | p
  deriving DecidableEq

/-- How a register is written in messages. -/
def Register.label : Register → String
  | .a => "A"
  | .x => "X"
  | .y => "Y"
  | .pc => "PC"
  | .s => "S"
  | .p => "P"

/-- The largest value that fits into a register. -/
def Register.limit : Register → Nat
  | .pc => 0xFFFF
  | _ => 0xFF

namespace Registers

/-- The register file at power-on, for a given stack pointer and status. -/
def powerOn (s p : UInt8) : Registers :=
  { s, p := p ||| Status.unused }

/-- The status byte as software sees it. -/
def status (r : Registers) : UInt8 := r.p ||| Status.unused

/-- Reads a register. -/
def get (r : Registers) : Register → UInt16
  | .a => r.a.toUInt16
  | .x => r.x.toUInt16
  | .y => r.y.toUInt16
  | .pc => r.pc
  | .s => r.s.toUInt16
  | .p => r.status.toUInt16

/-- Writes a register, refusing values that are too wide for it. A written status byte
keeps the bit that is always set. -/
def set (r : Registers) (register : Register) (value : Nat) : Except OutOfRange Registers :=
  if value > register.limit then
    .error ⟨register.label, value, 0, register.limit⟩
  else
    .ok <| match register with
      | .a => { r with a := UInt8.ofNat value }
      | .x => { r with x := UInt8.ofNat value }
      | .y => { r with y := UInt8.ofNat value }
      | .pc => { r with pc := UInt16.ofNat value }
      | .s => { r with s := UInt8.ofNat value }
      | .p => { r with p := UInt8.ofNat value ||| Status.unused }

/-- Takes the next free stack cell: the address to write, and the lowered stack pointer. -/
def pushAddress (r : Registers) : UInt16 × Registers :=
  (stackAddress r.s, { r with s := r.s - 1 })

/-- Gives back the newest stack cell: the address to read, and the raised stack pointer. -/
def pullAddress (r : Registers) : UInt16 × Registers :=
  (stackAddress (r.s + 1), { r with s := r.s + 1 })

/-- Moves the program counter to the next byte. -/
def nextByte (r : Registers) : Registers := { r with pc := r.pc + 1 }

/-- Whether all the bits of a mask are set in the status byte. -/
def flag (r : Registers) (mask : UInt8) : Bool := r.p &&& mask == mask

/-- Sets or clears the bits of a mask in the status byte. -/
def withFlag (r : Registers) (mask : UInt8) (on : Bool) : Registers :=
  { r with p := (if on then r.p ||| mask else r.p &&& ~~~mask) ||| Status.unused }

/-- Lets the negative and zero flags describe a result. -/
def withNZ (r : Registers) (value : UInt8) : Registers :=
  (r.withFlag Status.negative (value &&& 0x80 != 0)).withFlag Status.zero (value == 0)

/-- Sets carry when a sum of bytes needs a ninth bit. -/
def withCarryOfSum (r : Registers) (sum : Nat) : Registers :=
  r.withFlag Status.carry (decide (sum > 0xFF))

/-- Sets carry when a difference of bytes needed no borrow. -/
def withCarryOfDifference (r : Registers) (difference : Int) : Registers :=
  r.withFlag Status.carry (decide (difference ≥ 0))

/-- Sets overflow when two summands of one sign have a sum of the other sign. -/
def withOverflowOfSum (r : Registers) (left right result : UInt8) : Registers :=
  r.withFlag Status.overflow ((left ^^^ result) &&& (right ^^^ result) &&& 0x80 != 0)

/-- Sets overflow when the operands' signs differ and the difference has the sign of the
subtrahend. -/
def withOverflowOfDifference (r : Registers) (left right result : UInt8) : Registers :=
  r.withFlag Status.overflow ((left ^^^ right) &&& (left ^^^ result) &&& 0x80 != 0)

/-- The status byte that goes onto the stack; `software` tells `BRK` and `PHP` from
interrupts. -/
def statusToPush (r : Registers) (software : Bool) : UInt8 :=
  if software then r.status ||| Status.brk else r.status &&& ~~~Status.brk

/-- Takes over a status byte from the stack. Bit 4 keeps its value and bit 5 stays set. -/
def pullStatus (r : Registers) (value : UInt8) : Registers :=
  let kept := Status.brk ||| Status.unused
  { r with p := (value &&& ~~~kept) ||| (r.p &&& kept) ||| Status.unused }

end Registers

end W65C02
