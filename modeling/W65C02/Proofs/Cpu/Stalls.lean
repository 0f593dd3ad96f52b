import W65C02.Proofs.Cpu.Deeds
import W65C02.Proofs.Cpu.Simulation

/-!
# Processors that have come equally far

A processor without the bus counts the cycle and does nothing else. What it does in the cycles in
which it has the bus does not depend on the time that has passed. So two processors that were
stalled at different times go through the same program, and differ in nothing but the counts of
cycles and stalls.
-/

namespace W65C02

variable {β γ : Type} {S : Port β → Port γ → Prop}

/-- Two processors that have come equally far, whatever time it took them. The worlds behind their
pins are related. -/
structure Cpu.InStep (S : Port β → Port γ → Prop) (c : Cpu β) (d : Cpu γ) : Prop where
  /-- The settings are the same. -/
  settings : c.settings = d.settings
  /-- The registers are the same. -/
  regs : c.regs = d.regs
  /-- The run modes are the same. -/
  runMode : c.runMode = d.runMode
  /-- The same is in flight. -/
  inFlight : c.inFlight = d.inFlight
  /-- As many instructions have been completed. -/
  instructions : c.counters.instructions = d.counters.instructions
  /-- As many interrupt sequences have been completed. -/
  interruptsServiced : c.counters.interruptsServiced = d.counters.interruptsServiced
  /-- The lines are the same, and the logs of acknowledgements are. -/
  interrupts : c.interrupts = d.interrupts
  /-- The worlds are related. -/
  port : S c.port d.port

/-- From one state of a processor to a later one a number of cycles have passed, and some of them
were stalls. -/
structure Cpu.Spends (c d : Cpu β) (cycles stalls : ℕ) : Prop where
  /-- The cycles are counted. -/
  cycles : d.counters.cycles = c.counters.cycles + UInt64.ofNat cycles
  /-- The stalls are counted. -/
  stallCycles : d.counters.stallCycles = c.counters.stallCycles + UInt64.ofNat stalls

namespace Cpu

/-- The processor with other counts of cycles and stalls. -/
def withTimes (c : Cpu β) (cycles stallCycles : UInt64) : Cpu β :=
  { c with counters.cycles := cycles, counters.stallCycles := stallCycles }

/-- The counts of time make no difference to what becomes of what is in flight. -/
theorem settle_withTimes (c : Cpu β) (cycles stallCycles : UInt64) (e : Execution β) :
    (c.withTimes cycles stallCycles).clocked.settle e =
      (c.clocked.settle e).withTimes (cycles + 1) stallCycles := by
  cases hdone : e.inFlight.isDone with
  | false =>
    rw [settle_of_not_isDone _ hdone, settle_of_not_isDone _ hdone]
    rfl
  | true =>
    rw [settle_of_isDone _ hdone, settle_of_isDone _ hdone]
    cases e.inFlight.activity <;> rfl

variable [Bus β] [Bus γ]

/-- What a cycle does does not depend on the time that has passed. It counts, as a stall too if the
processor does not have the bus. -/
theorem cycle_withTimes (c : Cpu β) (cycles stallCycles : UInt64) :
    (c.withTimes cycles stallCycles).cycle.2 =
      c.cycle.2.withTimes (cycles + 1)
        (if Bus.cpuHasBus c.bus then stallCycles else stallCycles + 1) := by
  let timed := c.withTimes cycles stallCycles
  cases hbus : Bus.cpuHasBus c.bus with
  | false =>
    rw [cycle_of_stalled hbus, cycle_of_stalled (c := timed) hbus]
    rfl
  | true =>
    rw [if_pos rfl]
    cases hflight : c.inFlight with
    | some flight =>
      rw [cycle_of_inFlight hbus hflight, cycle_of_inFlight (c := timed) hbus hflight]
      exact settle_withTimes c cycles stallCycles _
    | none =>
      cases hwake : c.wake? with
      | none =>
        rw [cycle_of_halted hbus hflight hwake, cycle_of_halted (c := timed) hbus hflight hwake]
        rfl
      | some runMode =>
        rw [cycle_of_wake hbus hflight hwake, cycle_of_wake (c := timed) hbus hflight hwake,
          clocked_start, clocked_start]
        simp only [timed, withTimes, InterruptController.acknowledge]
        cases c.interrupts.lines.next (c.regs.flag Status.irqDisable) with
        | some line => rfl
        | none => exact settle_withTimes c cycles stallCycles _

/-- Only a cycle without the bus counts as a stall. -/
theorem stallCycles_cycle (c : Cpu β) :
    c.cycle.2.counters.stallCycles =
      if Bus.cpuHasBus c.bus then c.counters.stallCycles else c.counters.stallCycles + 1 :=
  congrArg (·.counters.stallCycles) (c.cycle_withTimes c.counters.cycles c.counters.stallCycles)

namespace Spends

omit [Bus β]

/-- What is no cycle takes no time. -/
theorem of_counters_eq {c d : Cpu β} (h : d.counters = c.counters) : c.Spends d 0 0 := by
  constructor
  · rw [h]
    exact (UInt64.add_zero _).symm
  · rw [h]
    exact (UInt64.add_zero _).symm

/-- Some time after some other time. -/
theorem trans {c d e : Cpu β} {cycles stalls cycles' stalls' : ℕ} (h : c.Spends d cycles stalls)
    (h' : d.Spends e cycles' stalls') : c.Spends e (cycles + cycles') (stalls + stalls') := by
  constructor
  · rw [h'.cycles, h.cycles, UInt64.ofNat_add, UInt64.add_assoc]
  · rw [h'.stallCycles, h.stallCycles, UInt64.ofNat_add, UInt64.add_assoc]

end Spends

/-- A cycle is counted, and it is a stall without the bus. -/
theorem spends_cycle (c : Cpu β) :
    c.Spends c.cycle.2 1 (if Bus.cpuHasBus c.bus then 0 else 1) := by
  refine ⟨c.cycle_cycles, ?_⟩
  rw [stallCycles_cycle]
  split
  · exact (UInt64.add_zero _).symm
  · rfl

/-- The same is done in the next cycle of two processors that match. -/
theorem Matches.deed?_eq {c : Cpu β} {d : Cpu γ} (hS : Bus.Simulation S) (h : c.Matches S d) :
    c.deed? = d.deed? := by
  have hbus : Bus.cpuHasBus c.bus = Bus.cpuHasBus d.bus := hS.cpuHasBus_eq h.port
  have hopcode : (c.port.read d.regs.pc).1 = (d.port.read d.regs.pc).1 := hS.read_fst h.port
  unfold deed? wake? InterruptController.acknowledge
  simp only [hbus, h.inFlight, h.runMode, h.lines_eq hS, h.regs, h.settings, hopcode]
  cases d.interrupts.lines.next (d.regs.flag Status.irqDisable) <;> rfl

namespace InStep

variable {c : Cpu β} {d : Cpu γ}

omit [Bus β] [Bus γ] in
/-- With the time that has passed put aside they match. -/
theorem matches_withTimes (h : c.InStep S d) :
    c.Matches S (d.withTimes c.counters.cycles c.counters.stallCycles) := by
  refine ⟨h.settings, h.regs, h.runMode, h.inFlight, ?_, h.port⟩
  change c.counters = ⟨c.counters.cycles, d.counters.instructions, d.counters.interruptsServiced,
    c.counters.stallCycles⟩
  rw [← h.instructions, ← h.interruptsServiced]

/-- In a cycle of both they come equally far. -/
theorem cycle (hS : Bus.Simulation S) (h : c.InStep S d) : c.cycle.2.InStep S d.cycle.2 := by
  have hmatch := h.matches_withTimes
  obtain ⟨-, hcycle⟩ := hmatch.cycle hS
  have hdeed : c.deed? = d.deed? := (hmatch.deed?_eq hS).trans rfl
  rw [cycle_withTimes] at hcycle
  have hinstructions := congrArg Counters.instructions hcycle.counters
  have hinterrupts := congrArg Counters.interruptsServiced hcycle.counters
  have hlines : c.cycle.2.interrupts.lines = d.cycle.2.interrupts.lines :=
    (hcycle.lines_eq hS).trans rfl
  refine ⟨hcycle.settings, hcycle.regs, hcycle.runMode, hcycle.inFlight, hinstructions,
    hinterrupts, ?_, hcycle.port⟩
  rw [c.interrupts_cycle, d.interrupts_cycle, hdeed, h.interrupts, hlines]

omit [Bus γ] in
/-- A stalled processor waits while the other one does nothing. -/
theorem stall (hbus : Bus.cpuHasBus c.bus = false) (h : c.InStep S d) :
    c.cycle.2.InStep S d := by
  rw [cycle_of_stalled hbus]
  exact ⟨h.settings, h.regs, h.runMode, h.inFlight, h.instructions, h.interruptsServiced,
    h.interrupts, h.port⟩

/-- Any number of cycles keeps two processors in step. -/
theorem tick (hS : Bus.Simulation S) (h : c.InStep S d) (budget : ℕ) :
    (c.tick budget).InStep S (d.tick budget) := by
  induction budget generalizing c d with
  | zero => exact h
  | succ budget ih => exact ih (h.cycle hS)

omit [Bus β] [Bus γ] in
/-- Something acts on the world of one of them, and leaves the lines and the relation alone. -/
theorem mapPort_left (h : c.InStep S d) {f : Port β → Port β}
    (hlines : (f c.port).lines = c.port.lines) (hport : S (f c.port) d.port) :
    (c.mapPort f).InStep S d := by
  refine ⟨h.settings, h.regs, h.runMode, h.inFlight, h.instructions, h.interruptsServiced, ?_,
    hport⟩
  rw [← h.interrupts]
  change { c.interrupts with lines := (f c.port).lines } = c.interrupts
  rw [hlines]
  rfl

omit [Bus β] [Bus γ] in
/-- Two processors that have come as far as a third one have come equally far. -/
theorem of_common {δ : Type} {e : Cpu δ} {T : Port β → Port δ → Prop} {U : Port γ → Port δ → Prop}
    (h : c.InStep T e) (h' : d.InStep U e) (hport : S c.port d.port) : c.InStep S d where
  settings := h.settings.trans h'.settings.symm
  regs := h.regs.trans h'.regs.symm
  runMode := h.runMode.trans h'.runMode.symm
  inFlight := h.inFlight.trans h'.inFlight.symm
  instructions := h.instructions.trans h'.instructions.symm
  interruptsServiced := h.interruptsServiced.trans h'.interruptsServiced.symm
  interrupts := h.interrupts.trans h'.interrupts.symm
  port := hport

omit [Bus β] [Bus γ] in
/-- The worlds are related in another way. -/
theorem of_port {T : Port β → Port γ → Prop} (h : c.InStep S d) (hport : T c.port d.port) :
    c.InStep T d :=
  ⟨h.settings, h.regs, h.runMode, h.inFlight, h.instructions, h.interruptsServiced, h.interrupts,
    hport⟩

end InStep

end Cpu

end W65C02
