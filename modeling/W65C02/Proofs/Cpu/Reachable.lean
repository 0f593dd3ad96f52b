import W65C02.Bus.Mapped.Arbitration
import W65C02.Proofs.Cpu.Consistency

/-!
# The stages of what is in flight

A processor is used from power-on: cycles pass, the lines and the bus change between them, registers
are written, and it takes over snapshots of other processors that are used in the same way. Whatever
is in flight then is at exactly one of four stages, each with its own counts of bytes and cycles.
The bus does not matter, and neither do the cycles that are lost to another master of it.
-/

namespace W65C02

namespace InFlight

/-- How far something in flight has come. -/
inductive Stage where
  /-- Operand bytes are missing. -/
  | fetching
  /-- The work is done, and cycles are left. -/
  | waiting
  /-- An interrupt is acknowledged. -/
  | acknowledged
  /-- An interrupt is served, and cycles are left. -/
  | served
  deriving DecidableEq

/-- What holds at a stage. At most two of the cycles of an instruction are those of a branch, and
there are no more than eight of them. -/
def IsAt (settings : CpuSettings) (flight : InFlight) : Stage → Prop
  | .fetching => flight.IsFetching
  | .waiting => flight.IsWaiting ∧ flight.extraCycles.toNat ≤ 2 ∧ flight.total.toNat ≤ 8
  | .acknowledged => flight.IsAcknowledged settings
  | .served => flight.IsServed settings

/-- The only stage that the activity and the phase leave open. -/
def stage (flight : InFlight) : Stage :=
  match flight.activity, flight.phase with
  | .instruction, .retire => .waiting
  | .instruction, _ => .fetching
  | .interrupt _, .retire => .served
  | .interrupt _, _ => .acknowledged

variable {settings : CpuSettings} {flight : InFlight}

/-- What satisfies the conditions of a stage is at that stage. -/
theorem IsAt.stage_eq {stage : Stage} (h : flight.IsAt settings stage) : flight.stage = stage := by
  unfold InFlight.stage
  cases stage with
  | fetching => rw [h.activity, h.phase]
  | waiting => rw [h.1.activity, h.1.phase]
  | acknowledged =>
    obtain ⟨line, hactivity⟩ := h.activity
    rw [hactivity, h.phase]
  | served =>
    obtain ⟨line, hactivity⟩ := h.activity
    rw [hactivity, h.phase]

/-- An instruction that waits has no more cycles than the table allows. -/
theorem IsWaiting.total_le_eight (h : flight.IsWaiting) : flight.total.toNat ≤ 8 := by
  obtain ⟨decimalMode, htotal⟩ := h.total
  rw [htotal]
  exact Descriptor.exactCycles_le_eight flight.opcode h.extraCycles _ _

/-- What can be in flight is at one stage. -/
theorem Consistent.existsUnique_stage (h : flight.Consistent settings) :
    ∃! stage, flight.IsAt settings stage := by
  have hstage : flight.IsAt settings flight.stage := by
    cases h with
    | fetching h =>
      have hat : flight.IsAt settings .fetching := h
      rwa [hat.stage_eq]
    | waiting h =>
      have hbranch := (Descriptor.ofOpcode flight.opcode).operation.branchCycles_le_two
      have hat : flight.IsAt settings .waiting :=
        ⟨h, Nat.le_trans h.extraCycles hbranch, h.total_le_eight⟩
      rwa [hat.stage_eq]
    | acknowledged h =>
      have hat : flight.IsAt settings .acknowledged := h
      rwa [hat.stage_eq]
    | served h =>
      have hat : flight.IsAt settings .served := h
      rwa [hat.stage_eq]
  exact ⟨flight.stage, hstage, fun _ hother => hother.stage_eq.symm⟩

end InFlight

namespace Cpu

/-- The processors with given settings that are used from power-on. They may sit on buses of
different kinds and take over each other's snapshots. -/
inductive Reachable (settings : CpuSettings) : {β : Type} → [Bus β] → Cpu β → Prop where
  /-- Power-on. -/
  | start {β : Type} [Bus β] (bus : β) : Reachable settings (create settings bus)
  /-- A cycle, be it lost or not. -/
  | cycle {β : Type} [Bus β] {c : Cpu β} (h : Reachable settings c) : Reachable settings c.cycle.2
  /-- Something that happens to the bus and the lines between two cycles. -/
  | setPort {β : Type} [Bus β] {c : Cpu β} (port : Port β) (h : Reachable settings c) :
    Reachable settings (c.setPort port)
  /-- Something that happens to the interrupt controller. -/
  | mapInterrupts {β : Type} [Bus β] {c : Cpu β} (f : InterruptController → InterruptController)
    (h : Reachable settings c) : Reachable settings (c.mapInterrupts f)
  /-- A register is written. -/
  | set {β : Type} [Bus β] {c d : Cpu β} {register : Register} {value : ℕ}
    (h : Reachable settings c) (hset : c.set register value = .ok d) : Reachable settings d
  /-- A return to power-on. -/
  | reset {β : Type} [Bus β] {c : Cpu β} (h : Reachable settings c) : Reachable settings c.reset
  /-- The snapshot of a processor is taken over. -/
  | restore {β γ : Type} [Bus β] [Bus γ] {c d : Cpu β} {saved : Cpu γ}
    (h : Reachable settings c) (hsaved : Reachable settings saved)
    (hrestore : c.restore saved.snapshot = .ok d) : Reachable settings d

variable {β : Type} [Bus β] {settings : CpuSettings} {c : Cpu β}

/-- Cycles lead from one reachable state to another. -/
theorem Reachable.tick (h : c.Reachable settings) (budget : ℕ) :
    (c.tick budget).Reachable settings := by
  induction budget generalizing c with
  | zero => exact h
  | succ budget ih => exact ih h.cycle

/-- A processor that is used keeps its settings and stays consistent. -/
theorem Reachable.consistent (h : c.Reachable settings) : c.settings = settings ∧ c.Consistent := by
  induction h with
  | start bus => exact ⟨rfl, .create settings bus⟩
  | cycle _ ih => exact ⟨(settings_cycle _).trans ih.1, ih.2.cycle⟩
  | setPort port _ ih => exact ⟨ih.1, ih.2.setPort port⟩
  | mapInterrupts f _ ih => exact ⟨ih.1, ih.2.mapInterrupts f⟩
  | set _ hset ih =>
    obtain ⟨regs, -, rfl⟩ := set_eq hset
    exact ⟨ih.1, ih.2.set hset⟩
  | reset _ ih => exact ⟨ih.1, .reset _⟩
  | restore _ _ hrestore ih ihsaved =>
    obtain ⟨hvalid, rfl⟩ := restore_eq_ok.mp hrestore
    exact ⟨ih.1, ihsaved.2.apply hvalid⟩

/-- Whatever is in flight in a processor that is used, it is at exactly one stage. -/
theorem Reachable.existsUnique_inFlight_stage (h : c.Reachable settings) {flight : InFlight}
    (hflight : c.inFlight = some flight) : ∃! stage, flight.IsAt settings stage := by
  obtain ⟨rfl, hconsistent⟩ := h.consistent
  exact (hconsistent.inFlight flight hflight).existsUnique_stage

/-- Where no device answers a branch is fetched and taken. In its third cycle it waits for three
more, one of them its own. -/
theorem existsUnique_stage_of_taken_branch :
    ∃ flight, ((create {} ({} : MappedBus)).tick 3).inFlight = some flight ∧
      flight.stage = .waiting ∧ flight.extraCycles = 1 ∧ flight.elapsed = 3 ∧ flight.total = 6 ∧
      ∃! stage, flight.IsAt {} stage := by
  have hreachable : ((create {} ({} : MappedBus)).tick 3).Reachable {} := (Reachable.start _).tick 3
  refine ⟨_, rfl, by decide, by decide, by decide, by decide, ?_⟩
  exact hreachable.existsUnique_inFlight_stage rfl

end Cpu

end W65C02
