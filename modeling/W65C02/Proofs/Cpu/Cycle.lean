import W65C02.Cpu

/-!
# The cases of a cycle

A cycle finds the processor without the bus, in the middle of something, halted, or at an
instruction boundary where it acknowledges an interrupt or fetches an opcode. There is one
equation for each of these cases. What the work of a cycle leaves behind is taken over in one
place.
-/

namespace W65C02

variable {β : Type}

namespace Execution

variable [Bus β] {e : Execution β}

/-- While operand bytes are missing the next one is fetched, and with the last one the work is
done. -/
theorem resume_of_decode (irqVector : UInt16) (hactivity : e.inFlight.activity = .instruction)
    (hphase : e.inFlight.phase = .decode)
    (hfetched : e.inFlight.fetched.toNat < operandSize e.inFlight.opcode) :
    e.resume irqVector =
      if operandSize e.inFlight.opcode ≤ e.fetchOperand.inFlight.fetched.toNat then
        e.fetchOperand.finishWork irqVector
      else e.fetchOperand := by
  simp only [resume, hactivity, hphase, if_pos hfetched]

/-- A cycle of an instruction that is being fetched fetches the next operand byte if one is missing.
When they are all there it does the work. -/
theorem resume_of_fetching (irqVector : UInt16) (hactivity : e.inFlight.activity = .instruction)
    (hphase : e.inFlight.phase = .fetch ∨ e.inFlight.phase = .decode) {next : Execution β}
    (hnext : (if e.inFlight.fetched.toNat < operandSize e.inFlight.opcode then e.fetchOperand
      else e) = next) :
    e.resume irqVector =
      if operandSize e.inFlight.opcode ≤ next.inFlight.fetched.toNat then next.finishWork irqVector
      else next := by
  subst hnext
  rcases hphase with hfetch | hdecode
  · simp only [resume, hactivity, hfetch]
  · simp only [resume, hactivity, hdecode]

/-- One more operand byte has been fetched. -/
theorem toNat_fetched_fetchOperand
    (hmissing : e.inFlight.fetched.toNat < operandSize e.inFlight.opcode) :
    e.fetchOperand.inFlight.fetched.toNat = e.inFlight.fetched.toNat + 1 := by
  have hsize : operandSize e.inFlight.opcode ≤ 2 :=
    (Descriptor.ofOpcode e.inFlight.opcode).mode.operandSize_le_two
  change (e.inFlight.fetched + 1).toNat = _
  rw [UInt8.toNat_add, show (1 : UInt8).toNat = 1 from rfl]
  omega

/-- When the work is done nothing is left but waiting. -/
theorem resume_of_retire (irqVector : UInt16) (hphase : e.inFlight.phase = .retire) :
    e.resume irqVector = e := by
  unfold resume
  cases e.inFlight.activity with
  | interrupt vector => simp only [hphase, ne_eq, not_true_eq_false, false_and, if_false]
  | instruction => simp only [hphase]

/-- In its second cycle an interrupt sequence is served. -/
theorem resume_of_acknowledged (irqVector : UInt16) {vector : InterruptVector}
    (hactivity : e.inFlight.activity = .interrupt vector) (hphase : e.inFlight.phase = .operate)
    (helapsed : serviceCycle ≤ e.inFlight.elapsed) : e.resume irqVector = e.serve vector := by
  have hserves : e.inFlight.phase ≠ .retire ∧ serviceCycle ≤ e.inFlight.elapsed := by
    rw [hphase]
    exact ⟨nofun, helapsed⟩
  simp only [resume, hactivity, if_pos hserves]

/-- Of what is in flight, serving an interrupt changes the phase only. -/
theorem serve_inFlight (vector : InterruptVector) :
    (e.serve vector).inFlight = { e.inFlight with phase := .retire } := by
  unfold serve
  cases vector.line <;> rfl

end Execution

namespace Cpu

/-- The processor after one more tick of its clock. -/
def clocked (c : Cpu β) : Cpu β := { c with counters.cycles := c.counters.cycles + 1 }

/-- The processor after a number of cycles without the bus. -/
def waited (c : Cpu β) (cycles : Nat) : Cpu β :=
  { c with
    counters.cycles := c.counters.cycles + UInt64.ofNat cycles
    counters.stallCycles := c.counters.stallCycles + UInt64.ofNat cycles }

/-- Takes over what the work of a cycle has come to. What is complete is counted and dropped. -/
def settle (c : Cpu β) (e : Execution β) : Cpu β :=
  { c with
    regs := e.regs
    runMode := e.runMode
    inFlight := if e.inFlight.isDone then none else some e.inFlight
    counters := if e.inFlight.isDone then c.counters.complete e.inFlight.activity else c.counters
    interrupts.lines := e.port.lines
    bus := e.port.bus }

/-- What is done is counted, and nothing is in flight any more. -/
theorem settle_of_isDone (c : Cpu β) {e : Execution β} (hdone : e.inFlight.isDone = true) :
    c.settle e =
      { c with
        regs := e.regs
        runMode := e.runMode
        inFlight := none
        counters := c.counters.complete e.inFlight.activity
        interrupts.lines := e.port.lines
        bus := e.port.bus } := by
  simp only [settle, hdone, if_true]

/-- What is not done stays in flight. -/
theorem settle_of_not_isDone (c : Cpu β) {e : Execution β} (hdone : e.inFlight.isDone = false) :
    c.settle e =
      { c with
        regs := e.regs
        runMode := e.runMode
        inFlight := some e.inFlight
        interrupts.lines := e.port.lines
        bus := e.port.bus } := by
  simp only [settle, hdone, Bool.false_eq_true, if_false]

/-- What is taken over from the work of a cycle leaves the count of the cycles alone. -/
theorem settle_cycles (c : Cpu β) (e : Execution β) :
    (c.settle e).counters.cycles = c.counters.cycles := by
  simp only [settle]
  split
  · cases e.inFlight.activity <;> rfl
  · rfl

variable [Bus β]

/-- The first cycle at a boundary, apart from the tick of the clock. -/
theorem clocked_start (c : Cpu β) (runMode : RunMode) :
    c.clocked.start runMode =
      match c.interrupts.acknowledge c.settings (c.regs.flag Status.irqDisable) with
      | (some vector, interrupts) =>
        { c.clocked with runMode, interrupts, inFlight := some (.ofVector vector) }
      | (none, _) =>
        c.clocked.settle
          ((⟨c.regs, runMode, .ofOpcode 0, c.port⟩ : Execution β).fetchOpcode
            c.settings.irqVector) :=
  rfl

/-- A cycle by cases: with the bus or without it, with something in flight or at a boundary. -/
theorem cycle_eq (c : Cpu β) :
    c.cycle =
      if Bus.cpuHasBus c.bus then
        match c.inFlight with
        | some flight =>
          (true, c.clocked.settle
            ((⟨c.regs, c.runMode, flight.spendCycle, c.port⟩ : Execution β).resume
              c.settings.irqVector))
        | none =>
          match c.wake? with
          | some runMode => (true, c.clocked.start runMode)
          | none => (false, c.clocked)
      else (false, { c.clocked with counters.stallCycles := c.counters.stallCycles + 1 }) :=
  rfl

variable {c : Cpu β}

/-- Without the bus the processor only counts the cycle. -/
theorem cycle_of_stalled (hbus : Bus.cpuHasBus c.bus = false) :
    c.cycle =
      (false, { c.clocked with counters.stallCycles := c.counters.stallCycles + 1 }) := by
  simp only [cycle_eq, hbus, Bool.false_eq_true, if_false]

/-- What is in flight is resumed. -/
theorem cycle_of_inFlight (hbus : Bus.cpuHasBus c.bus = true) {flight : InFlight}
    (hflight : c.inFlight = some flight) :
    c.cycle =
      (true, c.clocked.settle
        ((⟨c.regs, c.runMode, flight.spendCycle, c.port⟩ : Execution β).resume
          c.settings.irqVector)) := by
  simp only [cycle_eq, hbus, if_true, hflight]

/-- A halted processor only counts the cycle. -/
theorem cycle_of_halted (hbus : Bus.cpuHasBus c.bus = true) (hflight : c.inFlight = none)
    (hwake : c.wake? = none) : c.cycle = (false, c.clocked) := by
  simp only [cycle_eq, hbus, if_true, hflight, hwake]

/-- A processor at a boundary that is not halted starts the next thing. -/
theorem cycle_of_wake (hbus : Bus.cpuHasBus c.bus = true) (hflight : c.inFlight = none)
    {runMode : RunMode} (hwake : c.wake? = some runMode) :
    c.cycle = (true, c.clocked.start runMode) := by
  simp only [cycle_eq, hbus, if_true, hflight, hwake]

/-- At a boundary without an eligible interrupt an opcode is fetched. -/
theorem cycle_of_fetch (hbus : Bus.cpuHasBus c.bus = true) (hflight : c.inFlight = none)
    {runMode : RunMode} (hwake : c.wake? = some runMode)
    (hlines : c.interrupts.lines.pending (c.regs.flag Status.irqDisable) = false) :
    c.cycle =
      (true, c.clocked.settle
        ((⟨c.regs, runMode, .ofOpcode 0, c.port⟩ : Execution β).fetchOpcode
          c.settings.irqVector)) := by
  have hnext : c.interrupts.lines.next (c.regs.flag Status.irqDisable) = none := by
    rw [← Option.not_isSome_iff_eq_none, Lines.next_isSome, hlines]
    exact Bool.false_ne_true
  simp only [cycle_of_wake hbus hflight hwake, clocked_start, InterruptController.acknowledge,
    hnext]

/-- Whatever happens in a cycle, it is counted. -/
theorem cycle_cycles (c : Cpu β) : c.cycle.2.counters.cycles = c.counters.cycles + 1 := by
  rw [cycle_eq]
  split
  · split
    · exact settle_cycles _ _
    · split
      · rw [clocked_start]
        split
        · rfl
        · exact settle_cycles _ _
      · rfl
  · rfl

omit [Bus β] in
/-- To wait for no cycles is to do nothing. -/
theorem waited_zero (c : Cpu β) : c.waited 0 = c := by
  simp only [waited, show UInt64.ofNat 0 = 0 from rfl, UInt64.add_zero]

omit [Bus β] in
/-- One wait after another. -/
theorem waited_waited (c : Cpu β) (m n : Nat) : (c.waited m).waited n = c.waited (m + n) := by
  simp only [waited, UInt64.ofNat_add, UInt64.add_assoc]

/-- As long as the bus is lost the processor waits. -/
theorem tick_of_stalled (hbus : Bus.cpuHasBus c.bus = false) (budget : Nat) :
    c.tick budget = c.waited budget := by
  induction budget generalizing c with
  | zero => exact c.waited_zero.symm
  | succ budget ih =>
    have hcycle : c.cycle.2 = c.waited 1 := by
      rw [cycle_of_stalled hbus]
      rfl
    have hrest : (c.waited 1).tick budget = (c.waited 1).waited budget := ih hbus
    rw [tick, hcycle, hrest, waited_waited, Nat.add_comm]

/-- As long as the bus is lost nothing happens on it. -/
theorem port_tick_of_stalled (hbus : Bus.cpuHasBus c.bus = false) (budget : Nat) :
    (c.tick budget).port = c.port := by
  rw [tick_of_stalled hbus]
  rfl

end Cpu

end W65C02
