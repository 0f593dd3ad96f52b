import W65C02.Instruction.Descriptor
import W65C02.Interrupt.Controller

/-!
# Instructions in flight

An instruction or an interrupt sequence takes several cycles, and the clock may stop after
any of them. What is kept in between is everything that is needed to go on.
-/

namespace W65C02

/-- How far an instruction has come. -/
inductive Phase where
  | fetch
  | decode
  | resolveAddress
  | operate
  | updateFlags
  | retire
  deriving DecidableEq

/-- What is in flight. -/
inductive Activity where
  /-- An instruction. -/
  | instruction
  /-- The sequence that serves an acknowledged interrupt. -/
  | interrupt (vector : InterruptVector)
  deriving DecidableEq

/-- How an instruction or interrupt sequence stands that is under way. -/
structure InFlight where
  /-- What is in flight. -/
  activity : Activity
  /-- The opcode; zero for an interrupt. -/
  opcode : UInt8
  /-- How far it has come. -/
  phase : Phase
  /-- The operand bytes that have been fetched. -/
  operand : Operand := #v[0, 0]
  /-- How many operand bytes have been fetched. -/
  fetched : UInt8 := 0
  /-- The effective address, once it is known. -/
  effectiveAddress : UInt16 := 0
  /-- Whether the effective address lies in another page than its base. -/
  pageCrossed : Bool := false
  /-- The cycles spent so far. -/
  elapsed : UInt8 := 1
  /-- The cycles it takes; zero until they are known. -/
  total : UInt8 := 0
  /-- Cycles that a branch has added. -/
  extraCycles : UInt8 := 0
  /-- The result that the negative and zero flags are to describe. -/
  nzResult : Option UInt8 := none
  deriving DecidableEq

/-- The length of an interrupt sequence. -/
def interruptLength : UInt8 := 7

/-- The cycle of an interrupt sequence in which the status is saved and the vector loaded. -/
def serviceCycle : UInt8 := 2

namespace InFlight

/-- An instruction right after its opcode was fetched. -/
def ofOpcode (opcode : UInt8) : InFlight :=
  { activity := .instruction, opcode, phase := .decode }

/-- An interrupt sequence right after its request was acknowledged. -/
def ofVector (vector : InterruptVector) : InFlight :=
  { activity := .interrupt vector, opcode := 0, phase := .operate, total := interruptLength }

/-- Whether all the work is done and all the cycles are spent. -/
def isDone (flight : InFlight) : Bool :=
  flight.phase = .retire && flight.total ≤ flight.elapsed

/-- One more cycle is spent; the count stays at its largest value when it gets there. -/
def spendCycle (flight : InFlight) : InFlight :=
  { flight with elapsed := if flight.elapsed = 0xFF then 0xFF else flight.elapsed + 1 }

/-- Stores an operand byte at the next free place. -/
def storeOperand (flight : InFlight) (value : UInt8) : InFlight :=
  { flight with
    operand := flight.operand.setIfInBounds flight.fetched.toNat value
    fetched := flight.fetched + 1 }

end InFlight

end W65C02
