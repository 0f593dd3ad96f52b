import W65C02.Emulator

/-!
# Runs that stop at an overflow

All counts are kept in words of a fixed size, and a sum that does not fit wraps around. The runs
of this module do the same, but they look at each sum, and at the first one that does not fit they
stop without a result.
-/

namespace W65C02

/-- Whether the count of an instruction's cycles overflows in a cycle: what branching adds, or the
total when it is fixed. The rest of the total is small, so a sum has wrapped around exactly if it is
less than the part that was there before. -/
def InFlight.overflows (before after : InFlight) : Bool :=
  after.extraCycles < before.extraCycles ||
    (before.activity = .instruction && before.phase ≠ .retire && after.phase = .retire &&
      after.total < after.extraCycles)

/-- The largest count. -/
def fullCount : UInt64 := 0xFFFFFFFFFFFFFFFF

namespace Counters

/-- Whether one more completed instruction or interrupt sequence does not fit. -/
def isFull (n : Counters) : Activity → Bool
  | .instruction => n.instructions = fullCount
  | .interrupt _ => n.interruptsServiced = fullCount

/-- Completed instructions and interrupt sequences, if their number fits. -/
def completed? (n : Counters) : Option UInt64 :=
  if n.instructions.toNat + n.interruptsServiced.toNat < UInt64.size then some n.completed else none

end Counters

/-- Whether one more acknowledgement does not fit. -/
def InterruptController.isFull (c : InterruptController) : Line → Bool
  | .reset => c.counts.reset = fullCount || c.sequence = fullCount
  | .nmi => c.counts.nmi = fullCount || c.sequence = fullCount
  | .irq => c.counts.irq = fullCount || c.sequence = fullCount

namespace Cpu

variable {β : Type}

/-- Lets something act on the world behind the pins, unless there is no result. -/
def mapPort? (c : Cpu β) (f : Port β → Option (Port β)) : Option (Cpu β) :=
  match c with
  | ⟨settings, regs, runMode, inFlight, counters, interrupts, bus⟩ =>
    (f ⟨bus, interrupts.lines⟩).map fun port =>
      ⟨settings, regs, runMode, inFlight, counters, { interrupts with lines := port.lines },
        port.bus⟩

/-- Does a cycle's work on what is in flight. -/
def checkedCarryOut (c : Cpu β) (runMode : RunMode) (inFlight : InFlight)
    (work : Execution β → Execution β) : Option (Cpu β) :=
  match c with
  | { settings, regs, counters, interrupts, bus, .. } =>
    let e := work ⟨regs, runMode, inFlight, ⟨bus, interrupts.lines⟩⟩
    if inFlight.overflows e.inFlight ∨
        e.inFlight.isDone = true ∧ counters.isFull e.inFlight.activity = true then none
    else some (afterWork settings counters interrupts e)

variable [Bus β]

/-- The first cycle at an instruction boundary. -/
def checkedStart (c : Cpu β) (runMode : RunMode) : Option (Cpu β) :=
  match c.interrupts.acknowledge c.settings (c.regs.flag Status.irqDisable) with
  | (some vector, interrupts) =>
    if c.interrupts.isFull vector.line then none
    else some { c with runMode, interrupts, inFlight := some (.ofVector vector) }
  | (none, _) =>
    c.checkedCarryOut runMode (.ofOpcode 0) (·.fetchOpcode c.settings.irqVector)

/-- One clock cycle. -/
def checkedCycle (c : Cpu β) : Option (Bool × Cpu β) :=
  if c.counters.cycles = fullCount then none
  else
    let c := { c with counters.cycles := c.counters.cycles + 1 }
    if Bus.cpuHasBus c.bus then
      match c.inFlight with
      | some inFlight =>
        (c.checkedCarryOut c.runMode inFlight.spendCycle
          (·.resume c.settings.irqVector)).map (true, ·)
      | none =>
        match c.wake? with
        | some runMode => (c.checkedStart runMode).map (true, ·)
        | none => some (false, c)
    else if c.counters.stallCycles = fullCount then none
    else some (false, { c with counters.stallCycles := c.counters.stallCycles + 1 })

/-- A number of clock cycles. -/
def checkedTick (c : Cpu β) : Nat → Option (Cpu β)
  | 0 => some c
  | budget + 1 =>
    match c.checkedCycle with
    | some (_, c) => c.checkedTick budget
    | none => none

/-- At most the given number of cycles, ended early at an instruction boundary or when no progress
is made; also tells how many cycles were run. -/
def checkedStepWithin (c : Cpu β) : Nat → Option (Nat × Cpu β)
  | 0 => some (0, c)
  | limit + 1 =>
    match c.checkedCycle with
    | some (progressed, c) =>
      if progressed && c.inFlight.isSome then
        (c.checkedStepWithin limit).map fun (spent, c) => (spent + 1, c)
      else some (1, c)
    | none => none

/-- Runs to the end of what is in flight, or through the next instruction or interrupt sequence. -/
def checkedStep (c : Cpu β) : Option (Nat × Cpu β) := c.checkedStepWithin stepLimit

end Cpu

/-- Gives a device a number of clocks. -/
def Device.checkedTick (lines : Lines) (clocks : Nat) : Device → Option (Device × Lines)
  | cpu c => (c.checkedTick clocks).map fun c => (cpu c, lines)
  | device => some (device.tick lines clocks)

/-- Lets machine clocks pass. -/
def Mapping.checkedTick (m : Mapping) (lines : Lines) (cycles : Nat) : Option (Mapping × Lines) :=
  let clocks := m.clocks cycles
  let rest := m.total cycles % m.divider
  match m with
  | ⟨start, finish, device, divider, residue⟩ =>
    if residue.toNat + cycles < UInt32.size then
      (if clocks = 0 then some (device, lines) else device.checkedTick lines clocks.toNat).map
        fun (device, lines) => (⟨start, finish, device, divider, rest⟩, lines)
    else none

namespace MappedBus

/-- Lets machine clocks pass for each device in turn. -/
def checkedTickAll (cycles : Nat) : List Mapping → Lines → Option (List Mapping × Lines)
  | [], lines => some ([], lines)
  | m :: rest, lines => do
    let (m, lines) ← m.checkedTick lines cycles
    let (rest, lines) ← checkedTickAll cycles rest lines
    some (m :: rest, lines)

/-- Lets machine clocks pass, for the transfer under way and then for the devices. -/
def checkedTick (port : Port MappedBus) (cycles : Nat) : Option (Port MappedBus) :=
  match runTransfer port cycles with
  | ⟨⟨mappings, holder, transfer⟩, lines⟩ =>
    (checkedTickAll cycles mappings lines).map fun (mappings, lines) =>
      ⟨(MappedBus.mk mappings holder transfer).startTransfer, lines⟩

end MappedBus

namespace Machine

/-- Runs the processor for a number of cycles, then gives the devices as many. -/
def checkedAdvance (s : Machine) (cycles : Nat) : Option Machine :=
  match s with
  | ⟨cpu, quantum, positive⟩ => do
    let cpu ← cpu.checkedTick cycles
    let cpu ← cpu.mapPort? (MappedBus.checkedTick · cycles)
    some ⟨cpu, quantum, positive⟩

/-- Uses up a budget of cycles. -/
def checkedTick (s : Machine) : Nat → Option Machine
  | 0 => some s
  | budget + 1 =>
    if s.bus.transfer.isSome then (s.checkedAdvance 1).bind (·.checkedTick budget)
    else s.checkedAdvance (budget + 1)

/-- Runs a number of cycles, quantum by quantum. -/
def checkedRun (s : Machine) (cycles : Nat) : Option Machine :=
  let quantum := s.quantum
  (Nat.repeat (Option.bind · (·.checkedTick quantum)) (cycles / quantum) (some s)).bind
    (·.checkedTick (cycles % quantum))

/-- At most the given number of cycles, ended early as for a run without checks; also tells how many
cycles were run. That number does not fit if none of the cycles was the last. -/
def checkedStepWithin (s : Machine) : Nat → Option (Nat × Machine)
  | 0 => none
  | limit + 1 => do
    let stalled := s.cpu.counters.stallCycles
    let before ← s.cpu.counters.completed?
    let s ← s.checkedTick 1
    let after ← s.cpu.counters.completed?
    if after ≠ before then some (1, s)
    else if s.cpu.atBoundary ∧
        (s.cpu.runMode ≠ .running ∨ s.cpu.counters.stallCycles ≠ stalled) then some (1, s)
    else
      let (spent, s) ← s.checkedStepWithin limit
      some (spent + 1, s)

/-- Runs to the end of what is in flight, or through the next instruction or interrupt sequence. -/
def checkedStep (s : Machine) : Option (Nat × Machine) := s.checkedStepWithin stepLimit

end Machine

namespace Emulator

/-- Runs one instruction or interrupt sequence. -/
def checkedStep (e : Emulator) : Option (Nat × Emulator) :=
  e.machine.checkedStep.map fun (spent, machine) => (spent, ⟨machine⟩)

/-- Runs a budget of cycles. -/
def checkedTick (e : Emulator) (budget : Nat) : Option Emulator :=
  (e.machine.checkedTick budget).map (⟨·⟩)

/-- Runs a number of cycles, quantum by quantum. -/
def checkedRun (e : Emulator) (cycles : Nat) : Option Emulator :=
  (e.machine.checkedRun cycles).map (⟨·⟩)

end Emulator

end W65C02
