import W65C02.Bus.Mapped.Snapshot

/-!
# The machine

A processor on an address map, with a clock that drives the processor and the devices in
turn. Budgets of cycles are always used up exactly; while a block transfer is under way the
clock advances by single cycles.
-/

namespace W65C02

/-- The state of a machine. -/
structure MachineSnapshot where
  /-- The processor. -/
  cpu : CpuSnapshot
  /-- The devices in mapping order. -/
  devices : List MappingSnapshot
  /-- The arbitration of the bus. -/
  bus : Arbitration
  deriving DecidableEq

/-- A processor, the devices around it, and their clock. -/
structure Machine where
  /-- The processor, whose bus is the address map. -/
  cpu : Cpu MappedBus
  /-- The largest number of cycles between two visits to the devices. -/
  quantum : Nat
  /-- A quantum has at least one cycle. -/
  quantum_pos : 0 < quantum

namespace Machine

/-- A machine without devices, with customary settings. -/
def create : Machine := ⟨Cpu.create {} {}, 1, Nat.one_pos⟩

/-- A machine without devices, with checked settings; the clock's are checked first. -/
def ofSettings (cpu : CpuSettings) (scheduler : ClockSettings) : Except OutOfRange Machine :=
  match h : scheduler.validate with
  | .error e => .error e
  | .ok () =>
    match Cpu.ofSettings cpu {} with
    | .ok cpu => .ok ⟨cpu, scheduler.quantum.toNat, scheduler.quantum_pos h⟩
    | .error e => .error e

/-- The address map. -/
def bus (s : Machine) : MappedBus := s.cpu.bus

/-- Changes the processor. -/
def mapCpu (s : Machine) (f : Cpu MappedBus → Cpu MappedBus) : Machine :=
  match s with
  | ⟨cpu, quantum, positive⟩ => ⟨f cpu, quantum, positive⟩

/-- Lets something act on the address map and the interrupt lines. -/
def mapPort (s : Machine) (f : Port MappedBus → Port MappedBus) : Machine :=
  s.mapCpu (·.mapPort f)

/-- Does something with the address map and the interrupt lines, and passes on its answer. -/
def withPort {α : Type} (s : Machine) (f : Port MappedBus → α × Port MappedBus) :
    α × Machine :=
  match s with
  | ⟨cpu, quantum, positive⟩ =>
    let (answer, cpu) := cpu.withPort f
    (answer, ⟨cpu, quantum, positive⟩)

/-- Changes the address map. -/
def mapBus (s : Machine) (f : MappedBus → MappedBus) : Machine :=
  s.mapPort fun port => { port with bus := f port.bus }

/-- Places a device on the address map. -/
def place (s : Machine) (start finish : UInt16) (device : Device) (divider : UInt32) :
    Except MappingError Machine :=
  match s.bus.add start finish device divider with
  | .ok bus => .ok (s.mapBus fun _ => bus)
  | .error e => .error e

/-- Changes the interrupt controller. -/
def mapInterrupts (s : Machine) (f : InterruptController → InterruptController) : Machine :=
  s.mapCpu (·.mapInterrupts f)

/-- Asks for the bus. -/
def requestBus (s : Machine) (requestor : String) : Bool × Machine :=
  s.withPort fun port =>
    let (granted, bus) := port.bus.request requestor
    (granted, { port with bus })

/-- Gives the bus back. -/
def releaseBus (s : Machine) (requestor : String) : Machine :=
  s.mapBus (·.release requestor)

/-- Resets the devices, then the processor. -/
def reset (s : Machine) : Machine :=
  (s.mapPort MappedBus.reset).mapCpu (·.reset)

/-- Runs the processor for a number of cycles, then gives the devices as many. -/
def advance (s : Machine) (cycles : Nat) : Machine :=
  (s.mapCpu (·.tick cycles)).mapPort (MappedBus.tick · cycles)

/-- Uses up a budget of cycles: in single cycles as long as a transfer is under way, and the
rest at once. -/
def tick (s : Machine) : Nat → Machine
  | 0 => s
  | budget + 1 =>
    if s.bus.transfer.isSome then (s.advance 1).tick budget else s.advance (budget + 1)

/-- Runs a number of cycles, quantum by quantum. -/
def run (s : Machine) (cycles : Nat) : Machine :=
  (Nat.repeat (·.tick s.quantum) (cycles / s.quantum) s).tick (cycles % s.quantum)

/-- At most the given number of cycles, ended early when an instruction or interrupt sequence
has been completed, or when the processor stands still at an instruction boundary; also tells
how many cycles were run. -/
def stepWithin (s : Machine) : Nat → Nat × Machine
  | 0 => (0, s)
  | limit + 1 =>
    let before := s.cpu.counters
    let s := s.tick 1
    let after := s.cpu.counters
    if after.completed ≠ before.completed then (1, s)
    else if s.cpu.atBoundary ∧
        (s.cpu.runMode ≠ .running ∨ after.stallCycles ≠ before.stallCycles) then (1, s)
    else
      let (spent, s) := s.stepWithin limit
      (spent + 1, s)

/-- The most cycles that are run in search of the end of an instruction: as many as a
thirty-two-bit count can tell. -/
def stepLimit : Nat := 0xFFFFFFFF

/-- Runs to the end of the instruction or interrupt sequence in flight, or through the next
one, transfers and all, and tells how many cycles that took. When the processor is halted or
stalled at an instruction boundary, a single cycle is run. -/
def step (s : Machine) : Nat × Machine := s.stepWithin stepLimit

/-- The present state. -/
def snapshot (s : Machine) : MachineSnapshot :=
  { cpu := s.cpu.snapshot, devices := s.bus.deviceSnapshots, bus := s.bus.arbitration }

/-- Checks whether the machine could be in a state; the processor is checked first. -/
def validate (s : Machine) (state : MachineSnapshot) : Except SnapshotError Unit :=
  match state.cpu.validate s.cpu.settings with
  | .ok () => s.bus.validate state.devices state.bus
  | .error e => .error e

/-- Checks a snapshot, then writes the address map and last the processor, each of which checks
its part again. Tells how that went, and what has become of the machine in either case. -/
def takeOver (s : Machine) (state : MachineSnapshot) : Except SnapshotError Unit × Machine :=
  match s.validate state with
  | .error e => (.error e, s)
  | .ok () =>
    match s.bus.takeOver state.devices state.bus with
    | (.error e, bus) => (.error e, s.mapBus fun _ => bus)
    | (.ok (), bus) =>
      let s := s.mapBus fun _ => bus
      match s.cpu.restore state.cpu with
      | .error e => (.error e, s)
      | .ok cpu => (.ok (), s.mapCpu fun _ => cpu)

/-- Takes over a snapshot, unless it does not fit. -/
def restore (s : Machine) (state : MachineSnapshot) : Except SnapshotError Machine :=
  match s.takeOver state with
  | (.ok (), s) => .ok s
  | (.error e, _) => .error e

end Machine

end W65C02
