import W65C02.Instruction.Effect

/-!
# The processor

The processor advances by single clock cycles. At an instruction boundary it looks at the
interrupt lines and fetches an opcode; each operand byte takes a further cycle; with the last
of them the instruction takes effect, and what remains of its cycles passes in waiting. An
acknowledged interrupt takes the place of an instruction. While another master holds the bus
nothing happens but the count of stalled cycles.
-/

namespace W65C02

namespace Descriptor

/-- The cycles of an instruction: the constant part, what branching added, one for a crossed
page and one for decimal mode. -/
def cycles (d : Descriptor) (extra : UInt8) (pageCrossed decimalMode : Bool) : UInt8 :=
  d.baseCycles + extra
    + (if d.pageCrossPenalty && pageCrossed && d.mode != .relative then 1 else 0)
    + (if d.decimalPenalty && decimalMode then 1 else 0)

end Descriptor

namespace Execution

variable {β : Type} [Bus β]

/-- Finds the effective address. -/
def locateOperand (e : Execution β) (mode : AddressingMode) : Execution β :=
  let (resolved, port) := mode.resolve e.inFlight.operand e.regs e.port
  { e with
    port
    inFlight.effectiveAddress := resolved.address
    inFlight.pageCrossed := resolved.pageCrossed }

/-- Lets the flags describe the result, and fixes the number of cycles. -/
def conclude (e : Execution β) (d : Descriptor) : Execution β :=
  let regs := match e.inFlight.nzResult with
    | some value => e.regs.withNZ value
    | none => e.regs
  { e with
    regs
    inFlight.phase := .retire
    inFlight.total :=
      d.cycles e.inFlight.extraCycles e.inFlight.pageCrossed (regs.flag Status.decimal) }

/-- Does all the work that is left, from whatever phase the instruction stands in. -/
def finishWork (e : Execution β) (irqVector : UInt16) : Execution β :=
  let d := Descriptor.ofOpcode e.inFlight.opcode
  match e.inFlight.phase with
  | .fetch | .decode | .resolveAddress =>
    (d.operation.perform d.mode irqVector (e.locateOperand d.mode)).conclude d
  | .operate => (d.operation.perform d.mode irqVector e).conclude d
  | .updateFlags => e.conclude d
  | .retire => e

/-- Fetches an opcode. An instruction without operand bytes takes effect at once. -/
def fetchOpcode (e : Execution β) (irqVector : UInt16) : Execution β :=
  let (opcode, port) := e.port.read e.regs.pc
  let e := { e with regs := e.regs.nextByte, inFlight := .ofOpcode opcode, port }
  if operandSize opcode = 0 then e.finishWork irqVector else e

/-- Fetches the next operand byte. -/
def fetchOperand (e : Execution β) : Execution β :=
  let (value, port) := e.port.read e.regs.pc
  { e with regs := e.regs.nextByte, inFlight := e.inFlight.storeOperand value, port }

/-- Serves an acknowledged interrupt. A reset saves nothing and ends every halt. -/
def serve (e : Execution β) (vector : InterruptVector) : Execution β :=
  let e := match vector.line with
    | .reset =>
      { e.mapRegs fun r => (r.withFlag Status.irqDisable true).withFlag Status.decimal false with
        runMode := .running }.loadVector vector.address
    | _ => e.interruptTo false vector.address
  { e with inFlight.phase := .retire }

/-- The work of one cycle after the first. -/
def resume (e : Execution β) (irqVector : UInt16) : Execution β :=
  match e.inFlight.activity with
  | .interrupt vector =>
    if e.inFlight.phase ≠ .retire ∧ serviceCycle ≤ e.inFlight.elapsed then
      e.serve vector
    else e
  | .instruction =>
    match e.inFlight.phase with
    | .fetch | .decode =>
      let needed := operandSize e.inFlight.opcode
      let e := if e.inFlight.fetched.toNat < needed then e.fetchOperand else e
      if needed ≤ e.inFlight.fetched.toNat then e.finishWork irqVector else e
    | .retire => e
    | .resolveAddress | .operate | .updateFlags => e.finishWork irqVector

end Execution

/-- What the processor counts. -/
structure Counters where
  /-- Clock cycles, idle and stalled ones included. -/
  cycles : UInt64 := 0
  /-- Retired instructions. -/
  instructions : UInt64 := 0
  /-- Completed interrupt sequences, resets included. -/
  interruptsServiced : UInt64 := 0
  /-- Cycles lost to another master of the bus. -/
  stallCycles : UInt64 := 0
  deriving DecidableEq

/-- The counters after an instruction or an interrupt sequence has been completed. -/
def Counters.complete (n : Counters) : Activity → Counters
  | .instruction => { n with instructions := n.instructions + 1 }
  | .interrupt _ => { n with interruptsServiced := n.interruptsServiced + 1 }

/-- Completed instructions and interrupt sequences. -/
def Counters.completed (n : Counters) : UInt64 := n.instructions + n.interruptsServiced

/-- A processor attached to a bus. -/
structure Cpu (β : Type) where
  /-- The settings, fixed for the life of the processor. -/
  settings : CpuSettings
  /-- The registers. -/
  regs : Registers
  /-- Whether the processor is halted. -/
  runMode : RunMode := .running
  /-- The instruction or interrupt sequence in flight. -/
  inFlight : Option InFlight := none
  /-- The counters. -/
  counters : Counters := {}
  /-- The interrupt controller, which the devices on the bus share. -/
  interrupts : InterruptController := {}
  /-- The bus. -/
  bus : β

namespace Cpu

variable {β : Type}

/-- The world behind the pins. -/
def port (c : Cpu β) : Port β := ⟨c.bus, c.interrupts.lines⟩

/-- Replaces the world behind the pins. -/
def setPort (c : Cpu β) (port : Port β) : Cpu β :=
  { c with bus := port.bus, interrupts.lines := port.lines }

/-- Does something with the world behind the pins, and passes on its answer. -/
def withPort {α : Type} (c : Cpu β) (f : Port β → α × Port β) : α × Cpu β :=
  match c with
  | ⟨settings, regs, runMode, inFlight, counters, interrupts, bus⟩ =>
    let (answer, port) := f ⟨bus, interrupts.lines⟩
    (answer, ⟨settings, regs, runMode, inFlight, counters,
      { interrupts with lines := port.lines }, port.bus⟩)

/-- Lets something act on the world behind the pins. -/
def mapPort (c : Cpu β) (f : Port β → Port β) : Cpu β :=
  (c.withPort fun port => ((), f port)).2

/-- What acts on the world behind the pins gives back a result and changes the port alone. -/
theorem withPort_eq {α : Type} (c : Cpu β) (f : Port β → α × Port β) :
    c.withPort f = ((f c.port).1, c.setPort (f c.port).2) := rfl

/-- Changes the interrupt controller. -/
def mapInterrupts (c : Cpu β) (f : InterruptController → InterruptController) : Cpu β :=
  { c with interrupts := f c.interrupts }

/-- Whether no instruction or interrupt sequence is in flight. -/
def atBoundary (c : Cpu β) : Bool := c.inFlight.isNone

/-- Writes a register, refusing values that are too wide for it. -/
def set (c : Cpu β) (register : Register) (value : Nat) : Except OutOfRange (Cpu β) :=
  match c.regs.set register value with
  | .ok regs => .ok { c with regs }
  | .error e => .error e

variable [Bus β]

/-- Gives the registers their initial values and loads the program counter from the reset
vector. -/
def powerOn (c : Cpu β) : Cpu β :=
  let settings := c.settings
  let (pc, c) := c.withPort (·.readPointer settings.resetVector)
  { c with regs := { Registers.powerOn settings.initialS settings.initialP with pc } }

/-- A processor at power-on. No cycle has passed. -/
def create (settings : CpuSettings) (bus : β) : Cpu β :=
  { settings, regs := {}, bus : Cpu β }.powerOn

/-- A processor with checked settings. -/
def ofSettings (settings : CpuSettings) (bus : β) : Except OutOfRange (Cpu β) :=
  match settings.validate with
  | .ok () => .ok (create settings bus)
  | .error e => .error e

/-- Returns the processor to power-on: what is in flight is dropped, the counters start
again, and all interrupt lines are put to rest. The log of acknowledgements is kept. -/
def reset (c : Cpu β) : Cpu β :=
  { c.powerOn with runMode := .running, inFlight := none, counters := {} }.mapInterrupts
    (·.releaseAll)

omit [Bus β] in
/-- The processor after a cycle's work. What is complete is counted and dropped, and else it
stays in flight. -/
def afterWork (settings : CpuSettings) (counters : Counters) (interrupts : InterruptController)
    (e : Execution β) : Cpu β :=
  { settings
    regs := e.regs
    runMode := e.runMode
    inFlight := if e.inFlight.isDone then none else some e.inFlight
    counters := if e.inFlight.isDone then counters.complete e.inFlight.activity else counters
    interrupts := { interrupts with lines := e.port.lines }
    bus := e.port.bus }

omit [Bus β] in
/-- Does a cycle's work on what is in flight. -/
def carryOut (c : Cpu β) (runMode : RunMode) (inFlight : InFlight)
    (work : Execution β → Execution β) : Cpu β :=
  match c with
  | { settings, regs, counters, interrupts, bus, .. } =>
    afterWork settings counters interrupts (work ⟨regs, runMode, inFlight, ⟨bus, interrupts.lines⟩⟩)

/-- The run mode in which a processor at an instruction boundary goes on, or nothing if it
stays halted. Any active line ends waiting; a stop ends with a reset, and only when the
reset is served. -/
def wake? (c : Cpu β) : Option RunMode :=
  match c.runMode with
  | .running => some .running
  | .waiting => if c.interrupts.lines.anyActive then some .running else none
  | .stopped => if c.interrupts.lines.reset then some .stopped else none

/-- The first cycle at an instruction boundary: an eligible interrupt is acknowledged, or
else an opcode is fetched. An instruction without operand bytes takes effect at once. -/
def start (c : Cpu β) (runMode : RunMode) : Cpu β :=
  match c.interrupts.acknowledge c.settings (c.regs.flag Status.irqDisable) with
  | (some vector, interrupts) =>
    { c with runMode, interrupts, inFlight := some (.ofVector vector) }
  | (none, _) =>
    c.carryOut runMode (.ofOpcode 0) (·.fetchOpcode c.settings.irqVector)

/-- One clock cycle. The answer tells whether the processor made progress, as opposed to
stalling or staying halted. -/
def cycle (c : Cpu β) : Bool × Cpu β :=
  let c := { c with counters.cycles := c.counters.cycles + 1 }
  if Bus.cpuHasBus c.bus then
    match c.inFlight with
    | some inFlight =>
      (true, c.carryOut c.runMode inFlight.spendCycle (·.resume c.settings.irqVector))
    | none =>
      match c.wake? with
      | some runMode => (true, c.start runMode)
      | none => (false, c)
  else
    (false, { c with counters.stallCycles := c.counters.stallCycles + 1 })

/-- A number of clock cycles. What does not fit into them stays in flight. -/
def tick (c : Cpu β) : Nat → Cpu β
  | 0 => c
  | budget + 1 => c.cycle.2.tick budget

/-- It makes no difference how a number of cycles is split. -/
theorem tick_add (c : Cpu β) (m n : Nat) : c.tick (m + n) = (c.tick m).tick n := by
  induction m generalizing c with
  | zero => rw [Nat.zero_add]; rfl
  | succ m ih => rw [Nat.succ_add]; exact ih c.cycle.2

/-- At most the given number of cycles, ended early when an instruction boundary is reached
or no progress is made; also tells how many cycles were run. -/
def stepWithin (c : Cpu β) : Nat → Nat × Cpu β
  | 0 => (0, c)
  | limit + 1 =>
    let (progressed, c) := c.cycle
    if progressed && c.inFlight.isSome then
      let (spent, c) := c.stepWithin limit
      (spent + 1, c)
    else (1, c)

/-- The most cycles that an instruction can take: its length and the count of elapsed cycles
are bytes. -/
def stepLimit : Nat := 255

/-- Runs to the end of the instruction or interrupt sequence in flight, or through the next
one, and tells how many cycles that took. A processor that is halted or without the bus runs
a single cycle. -/
def step (c : Cpu β) : Nat × Cpu β := c.stepWithin stepLimit

end Cpu

end W65C02
