import W65C02.Cpu

/-!
# Snapshots of the processor

A snapshot holds the registers, the counters, the interrupt lines and whatever is in flight.
Before a processor takes one over, the snapshot is checked against its settings.
-/

namespace W65C02

/-- What is kept of a processor: everything but its memory, its settings and its log. -/
structure CpuSnapshot where
  /-- The registers. -/
  registers : Registers
  /-- Whether the processor is halted. -/
  runMode : RunMode
  /-- The counters. -/
  counters : Counters
  /-- The interrupt lines. -/
  pending : LinesSnapshot
  /-- What is in flight. -/
  inFlight : Option InFlight
  deriving DecidableEq

/-- Refuses a snapshot because of one field. -/
def SnapshotError.unless (holds : Bool) (flaw : FieldFlaw) : Except SnapshotError Unit :=
  if holds then .ok () else .error (.invalidField flaw)

/-- Checks what is in flight. The cycle counts come first; then, an instruction has no more
operand bytes than its opcode takes, and an interrupt uses the vector of its line. -/
def InFlight.validate (flight : InFlight) (settings : CpuSettings) :
    Except SnapshotError Unit := do
  SnapshotError.unless (flight.elapsed != 0) .nothingElapsed
  SnapshotError.unless (flight.total == 0 || flight.elapsed ≤ flight.total) .elapsedPastTotal
  SnapshotError.unless (flight.phase != .retire || flight.total != 0) .retiringWithoutTotal
  match flight.activity with
  | .instruction =>
    SnapshotError.unless (flight.fetched.toNat ≤ operandSize flight.opcode) .fetchedPastOperand
  | .interrupt vector =>
    SnapshotError.unless (vector.address == settings.vectorOf vector.line) .foreignVector

/-- Checks a snapshot against the settings of the processor that is to take it over. -/
def CpuSnapshot.validate (state : CpuSnapshot) (settings : CpuSettings) :
    Except SnapshotError Unit := do
  SnapshotError.unless (state.registers.p &&& Status.unused != 0) .statusBitClear
  match state.inFlight with
  | some flight => flight.validate settings
  | none => .ok ()

namespace Cpu

variable {β : Type}

/-- The present state of the processor. -/
def snapshot (c : Cpu β) : CpuSnapshot :=
  { registers := c.regs
    runMode := c.runMode
    counters := c.counters
    pending := c.interrupts.lines.toSnapshot
    inFlight := c.inFlight }

/-- Takes over a snapshot without looking at it. The log of acknowledgements is kept. -/
def apply (c : Cpu β) (state : CpuSnapshot) : Cpu β :=
  { c with
    regs := state.registers
    runMode := state.runMode
    inFlight := state.inFlight
    counters := state.counters
    interrupts := c.interrupts.restore state.pending }

/-- Takes over a snapshot, unless it is inconsistent. -/
def restore (c : Cpu β) (state : CpuSnapshot) : Except SnapshotError (Cpu β) :=
  match state.validate c.settings with
  | .ok () => .ok (c.apply state)
  | .error e => .error e

end Cpu

end W65C02
