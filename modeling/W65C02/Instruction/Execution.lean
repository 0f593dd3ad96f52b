import W65C02.Instruction.InFlight

/-!
# Carrying out an instruction

While an instruction is carried out it sees the registers, how it stands itself, and the world
behind the pins. This module has the steps from which the operations are put together:
reading and replacing the operand, using the stack, and branching.
-/

namespace W65C02

/-- Whether the processor is fetching instructions. -/
inductive RunMode where
  /-- Normal operation. -/
  | running
  /-- Halted until any line becomes active. -/
  | waiting
  /-- Halted until reset. -/
  | stopped
  deriving DecidableEq

/-- How a run mode is written. -/
def RunMode.label : RunMode → String
  | .running => "Running"
  | .waiting => "Waiting"
  | .stopped => "Stopped"

/-- What an instruction in flight works on. -/
structure Execution (β : Type) where
  /-- The registers. -/
  regs : Registers
  /-- Whether the processor is halted. -/
  runMode : RunMode
  /-- How the instruction stands. -/
  inFlight : InFlight
  /-- The bus and the interrupt lines. -/
  port : Port β

namespace Execution

variable {β : Type} [Bus β]

/-- Changes the registers. -/
def mapRegs (e : Execution β) (f : Registers → Registers) : Execution β :=
  { e with regs := f e.regs }

/-- Leaves a result for the negative and zero flags. -/
def deferNZ (e : Execution β) (value : UInt8) : Execution β :=
  { e with inFlight.nzResult := some value }

/-- Reads a byte from the bus. -/
def read (e : Execution β) (address : UInt16) : UInt8 × Execution β :=
  let (value, port) := e.port.read address
  (value, { e with port })

/-- Writes a byte to the bus. -/
def write (e : Execution β) (address : UInt16) (value : UInt8) : Execution β :=
  { e with port := e.port.write address value }

/-- Fetches the operand: the accumulator, the byte after the opcode, or the cell at the
effective address. -/
def operandValue (e : Execution β) : AddressingMode → UInt8 × Execution β
  | .accumulator => (e.regs.a, e)
  | .immediate => (e.inFlight.operand.first, e)
  | _ => e.read e.inFlight.effectiveAddress

/-- Stores a byte at the effective address. -/
def store (e : Execution β) (value : UInt8) : Execution β :=
  e.write e.inFlight.effectiveAddress value

/-- Replaces the operand by a function of it and gives the new value. A cell is read twice
before it is written; only the first reading counts. -/
def replaceOperand (e : Execution β) (mode : AddressingMode)
    (f : Registers → UInt8 → UInt8 × Registers) : UInt8 × Execution β :=
  if mode = .accumulator then
    let (result, regs) := f e.regs e.regs.a
    (result, { e with regs := { regs with a := result } })
  else
    let (value, e) := e.read e.inFlight.effectiveAddress
    let (_, e) := e.read e.inFlight.effectiveAddress
    let (result, regs) := f e.regs value
    (result, { e with regs }.store result)

/-- Replaces the operand and leaves the new value for the negative and zero flags. -/
def replaceOperandNZ (e : Execution β) (mode : AddressingMode)
    (f : Registers → UInt8 → UInt8 × Registers) : Execution β :=
  let (result, e) := e.replaceOperand mode f
  e.deferNZ result

/-- Puts a byte onto the stack. -/
def push (e : Execution β) (value : UInt8) : Execution β :=
  let (address, regs) := e.regs.pushAddress
  { e with regs }.write address value

/-- Takes a byte from the stack. -/
def pull (e : Execution β) : UInt8 × Execution β :=
  let (address, regs) := e.regs.pullAddress
  { e with regs }.read address

/-- Puts a word onto the stack, the high byte first. -/
def pushWord (e : Execution β) (value : UInt16) : Execution β :=
  (e.push (highByte value)).push (lowByte value)

/-- Takes a word from the stack, the low byte first. -/
def pullWord (e : Execution β) : UInt16 × Execution β :=
  let (low, e) := e.pull
  let (high, e) := e.pull
  (wordOfBytes low high, e)

/-- Loads the program counter from a vector. -/
def loadVector (e : Execution β) (address : UInt16) : Execution β :=
  let (target, port) := e.port.readPointer address
  { e with port, regs.pc := target }

/-- Goes on at another address. -/
def jump (e : Execution β) (target : UInt16) : Execution β :=
  { e with regs.pc := target }

/-- Adds a cycle to the instruction. -/
def addCycle (e : Execution β) : Execution β :=
  { e with inFlight.extraCycles := e.inFlight.extraCycles + 1 }

/-- Adds a cycle if the target is in another page than the next instruction. -/
def addCycleAcrossPages (e : Execution β) (target : UInt16) : Execution β :=
  if inDifferentPages e.regs.pc target then e.addCycle else e

/-- Branches if asked to: a taken branch costs one cycle, and one more into another page. -/
def branchIf (e : Execution β) (taken : Bool) (target : UInt16) : Execution β :=
  if taken then ((e.addCycleAcrossPages target).addCycle).jump target else e

end Execution

end W65C02
