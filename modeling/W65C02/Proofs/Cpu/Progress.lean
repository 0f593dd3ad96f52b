import W65C02.Proofs.Cpu.Acceptance
import W65C02.Proofs.Cpu.Reachable

/-!
# What a cycle of work brings

A cycle in which the processor works completes what is in flight and is counted as such, or it
leaves something in flight that has spent one cycle more. Of what a processor can come to by itself
nothing spends more than eight cycles.
-/

namespace W65C02

/-- What is completed is counted once. -/
theorem Counters.completed_complete (n : Counters) (activity : Activity) :
    (n.complete activity).completed = n.completed + 1 := by
  cases activity with
  | instruction =>
    simp only [complete, completed]
    rw [UInt64.add_assoc, UInt64.add_comm 1, ← UInt64.add_assoc]
  | interrupt vector =>
    simp only [complete, completed]
    rw [UInt64.add_assoc]

/-- Nothing that can be in flight has spent more than seven cycles. -/
theorem InFlight.Consistent.elapsed_lt {settings : CpuSettings} {flight : InFlight}
    (h : flight.Consistent settings) : flight.elapsed.toNat < 8 := by
  cases h with
  | fetching h =>
    have hsize : operandSize flight.opcode ≤ 2 :=
      (Descriptor.ofOpcode flight.opcode).mode.operandSize_le_two
    have helapsed := h.elapsed
    have hmissing := h.missing
    omega
  | waiting h => exact Nat.lt_of_lt_of_le h.unfinished h.total_le_eight
  | acknowledged h =>
    have helapsed := h.elapsed
    omega
  | served h =>
    have hunfinished := h.unfinished
    omega

/-- Work spends no cycles. -/
theorem Execution.elapsed_resume {β : Type} [Bus β] {settings : CpuSettings} {e : Execution β}
    (irqVector : UInt16) (h : e.inFlight.Fits settings)
    (hstarted : serviceCycle ≤ e.inFlight.elapsed) :
    (e.resume irqVector).inFlight.elapsed = e.inFlight.elapsed := by
  by_cases hlacks : e.inFlight.LacksTwo
  · rw [resume_eq_of_lacksTwo irqVector hlacks]
    rfl
  · exact (workDone_resume irqVector h hstarted hlacks).elapsed

namespace Cpu

variable {β : Type}

/-- In a cycle something is completed. -/
structure Finishes (c d : Cpu β) : Prop where
  /-- It leads to an instruction boundary. -/
  boundary : d.inFlight = none
  /-- Besides the cycle one instruction or interrupt sequence is counted. -/
  counters : ∃ activity, d.counters = c.clocked.counters.complete activity

/-- A cycle leaves something in flight. -/
structure Continues (c d : Cpu β) (next : InFlight) : Prop where
  /-- It is in flight. -/
  inFlight : d.inFlight = some next
  /-- Only the cycle is counted. -/
  counters : d.counters = c.clocked.counters

variable [Bus β] {c : Cpu β}

omit [Bus β] in
/-- After its work a cycle completes what is in flight, or leaves it there. -/
theorem settle_cases (c : Cpu β) (e : Execution β) :
    c.Finishes (c.clocked.settle e) ∨ c.Continues (c.clocked.settle e) e.inFlight := by
  cases hdone : e.inFlight.isDone with
  | true =>
    rw [settle_of_isDone _ hdone]
    exact .inl ⟨rfl, _, rfl⟩
  | false =>
    rw [settle_of_not_isDone _ hdone]
    exact .inr ⟨rfl, rfl⟩

/-- A cycle with the bus completes what is in flight, or it leaves it in flight with one cycle more
spent on it. -/
theorem cycle_cases_of_inFlight (hbus : Bus.cpuHasBus c.bus = true) {flight : InFlight}
    (hflight : c.inFlight = some flight) (h : flight.Consistent c.settings) :
    c.Finishes c.cycle.2 ∨
      ∃ next, c.Continues c.cycle.2 next ∧ next.elapsed.toNat = flight.elapsed.toNat + 1 := by
  have helapsed := h.elapsed_lt
  have hresumable := InFlight.resumable_of_validate h.validate
  have hspent := Execution.elapsed_resume
    (e := ⟨c.regs, c.runMode, flight.spendCycle, c.port⟩) c.settings.irqVector hresumable.fits
    (InFlight.serviceCycle_le_spendCycle hresumable.started)
  rw [cycle_of_inFlight hbus hflight]
  refine (c.settle_cases _).imp_right fun hnext => ⟨_, hnext, ?_⟩
  rw [hspent]
  exact InFlight.toNat_spendCycle (by omega)

/-- The first cycle at an instruction boundary completes what it starts or leaves it in flight. -/
theorem cycle_cases_of_wake (hbus : Bus.cpuHasBus c.bus = true) (hboundary : c.inFlight = none)
    {runMode : RunMode} (hwake : c.wake? = some runMode) :
    c.Finishes c.cycle.2 ∨ ∃ next, c.Continues c.cycle.2 next := by
  rw [cycle_of_wake hbus hboundary hwake, clocked_start]
  split
  · exact .inr ⟨_, rfl, rfl⟩
  · exact (c.settle_cases _).imp_right fun hnext => ⟨_, hnext⟩

/-- A cycle with the bus completes something or leaves something in flight, unless the processor is
halted. -/
theorem cycle_cases (hbus : Bus.cpuHasBus c.bus = true)
    (hgoes : c.inFlight.isSome = true ∨ c.runMode = .running) :
    c.Finishes c.cycle.2 ∨ ∃ next, c.Continues c.cycle.2 next := by
  cases hflight : c.inFlight with
  | some flight =>
    rw [cycle_of_inFlight hbus hflight]
    exact (c.settle_cases _).imp_right fun hcontinues => ⟨_, hcontinues⟩
  | none =>
    have hrunning : c.runMode = .running := hgoes.resolve_left (by simp [hflight])
    have hwake : c.wake? = some .running := by
      rw [wake?, hrunning]
    exact cycle_cases_of_wake hbus hflight hwake

end Cpu

end W65C02
