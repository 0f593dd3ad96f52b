import W65C02.Bus

/-!
# Addressing modes

An instruction finds its operand in one of sixteen ways. Resolving a mode turns the operand
bytes, the registers and, for the indirect modes, a pointer in memory into an address.
-/

namespace W65C02

/-- Where an instruction finds its operand. -/
inductive AddressingMode where
  /-- There is no operand, or the instruction names it. -/
  | implied
  /-- The accumulator. -/
  | accumulator
  /-- The byte after the opcode. -/
  | immediate
  /-- A cell of page zero. -/
  | zeroPage
  /-- A cell of page zero, displaced by `X` within the page. -/
  | zeroPageX
  /-- A cell of page zero, displaced by `Y` within the page. -/
  | zeroPageY
  /-- A branch target near the program counter. -/
  | relative
  /-- Any cell. -/
  | absolute
  /-- Any cell, displaced by `X`. -/
  | absoluteX
  /-- Any cell, displaced by `Y`. -/
  | absoluteY
  /-- The cell that a pointer anywhere designates. -/
  | indirect
  /-- The cell that an entry of a table of pointers designates; `X` selects the entry. -/
  | absoluteIndexedIndirect
  /-- The cell that an entry of a table in page zero designates; `X` selects the entry. -/
  | indexedIndirect
  /-- A pointer in page zero, displaced by `Y`. -/
  | indirectIndexed
  /-- The cell that a pointer in page zero designates. -/
  | zeroPageIndirect
  /-- A cell of page zero and a branch target. -/
  | zeroPageRelative
  deriving DecidableEq

namespace AddressingMode

/-- All modes, in the order of their definition. -/
def all : List AddressingMode :=
  [implied, accumulator, immediate, zeroPage, zeroPageX, zeroPageY, relative, absolute,
    absoluteX, absoluteY, indirect, absoluteIndexedIndirect, indexedIndirect, indirectIndexed,
    zeroPageIndirect, zeroPageRelative]

/-- How a mode is written. -/
def label : AddressingMode → String
  | implied => "Implied"
  | accumulator => "Accumulator"
  | immediate => "Immediate"
  | zeroPage => "ZeroPage"
  | zeroPageX => "ZeroPageX"
  | zeroPageY => "ZeroPageY"
  | relative => "Relative"
  | absolute => "Absolute"
  | absoluteX => "AbsoluteX"
  | absoluteY => "AbsoluteY"
  | indirect => "Indirect"
  | absoluteIndexedIndirect => "AbsoluteIndexedIndirect"
  | indexedIndirect => "IndexedIndirect"
  | indirectIndexed => "IndirectIndexed"
  | zeroPageIndirect => "ZeroPageIndirect"
  | zeroPageRelative => "ZeroPageRelative"

/-- How many operand bytes follow the opcode. -/
def operandSize : AddressingMode → Nat
  | implied | accumulator => 0
  | immediate | zeroPage | zeroPageX | zeroPageY | relative | indexedIndirect
  | indirectIndexed | zeroPageIndirect => 1
  | absolute | absoluteX | absoluteY | indirect | absoluteIndexedIndirect
  | zeroPageRelative => 2

/-- No instruction is longer than three bytes. -/
theorem operandSize_le_two (mode : AddressingMode) : mode.operandSize ≤ 2 := by
  cases mode <;> decide

end AddressingMode

/-- Whether two addresses lie in different pages of 256 bytes. -/
def inDifferentPages (a b : UInt16) : Bool := a &&& 0xFF00 != b &&& 0xFF00

/-- An effective address. -/
structure EffectiveAddress where
  /-- The effective address, or zero when the mode has none. -/
  address : UInt16
  /-- Whether the displacement led into another page. -/
  pageCrossed : Bool := false
  deriving DecidableEq

/-- The result of resolving an addressing mode. -/
structure ResolvedOperand extends EffectiveAddress where
  /-- How many operand bytes were fetched after the opcode. -/
  operandBytes : Nat
  deriving DecidableEq

/-- The operand bytes of an instruction; those that an opcode does not have are zero. -/
abbrev Operand : Type := Vector UInt8 2

/-- The byte after the opcode. -/
def Operand.first (operand : Operand) : UInt8 := operand[0]

/-- The byte after the first one. -/
def Operand.second (operand : Operand) : UInt8 := operand[1]

namespace EffectiveAddress

/-- A base displaced by an index register. -/
def displaced (base : UInt16) (index : UInt8) : EffectiveAddress :=
  let address := base + index.toUInt16
  ⟨address, inDifferentPages base address⟩

/-- The target of a branch by a signed displacement. -/
def branchTarget (pc : UInt16) (displacement : UInt8) : EffectiveAddress :=
  let target := pc + signExtend displacement
  ⟨target, inDifferentPages pc target⟩

end EffectiveAddress

/-- Finds the effective address of an instruction. The program counter in `regs` is that
of the next instruction. Only the indirect modes access the bus. -/
def AddressingMode.locate {β : Type} [Bus β] (mode : AddressingMode) (operand : Operand)
    (regs : Registers) (port : Port β) : EffectiveAddress × Port β :=
  let first := operand.first
  let word := wordOfBytes operand.first operand.second
  match mode with
  | implied | accumulator | immediate => (⟨0, false⟩, port)
  | zeroPage | zeroPageRelative => (⟨first.toUInt16, false⟩, port)
  | zeroPageX => (⟨(first + regs.x).toUInt16, false⟩, port)
  | zeroPageY => (⟨(first + regs.y).toUInt16, false⟩, port)
  | relative => (.branchTarget regs.pc first, port)
  | absolute => (⟨word, false⟩, port)
  | absoluteX => (.displaced word regs.x, port)
  | absoluteY => (.displaced word regs.y, port)
  | indirect =>
    let (address, port) := port.readPointer word
    (⟨address, false⟩, port)
  | absoluteIndexedIndirect =>
    let (address, port) := port.readPointer (word + regs.x.toUInt16)
    (⟨address, false⟩, port)
  | indexedIndirect =>
    let (address, port) := port.readZeroPagePointer (first + regs.x)
    (⟨address, false⟩, port)
  | indirectIndexed =>
    let (base, port) := port.readZeroPagePointer first
    (.displaced base regs.y, port)
  | zeroPageIndirect =>
    let (address, port) := port.readZeroPagePointer first
    (⟨address, false⟩, port)

/-- Resolves the operand of an instruction: its effective address and its length. -/
def AddressingMode.resolve {β : Type} [Bus β] (mode : AddressingMode) (operand : Operand)
    (regs : Registers) (port : Port β) : ResolvedOperand × Port β :=
  let (found, port) := mode.locate operand regs port
  ({ found with operandBytes := mode.operandSize }, port)

end W65C02
