import W65C02.Proofs.Bus.SingleController
import W65C02.Proofs.Cpu.Halting
import W65C02.Proofs.Cpu.Progress
import W65C02.Proofs.Machine.DeviceClocks

/-!
# A step of the machine comes to an end

In a step of the machine the processor may lose the bus to a transfer at any moment, and it may
start the transfer itself. With a single DMA controller and no other master the step ends all the same: a
cycle with the bus brings what is in flight closer to its end, and a cycle without it brings the
transfer closer to its end. A step completes one instruction or interrupt sequence, unless the
processor stands still at an instruction boundary.
-/

namespace W65C02

namespace Machine

/-- At an instruction boundary the processor is stalled, or it is halted and nothing wakes it. -/
def Rests (s : Machine) : Prop :=
  s.cpu.inFlight = none ∧ ¬ Cpu.Wakes s.cpu.runMode s.cpu.port

/-- A step takes a number of cycles, whatever limit it is given, and in these a number of
instructions and interrupt sequences is completed. -/
structure StepTakes (s : Machine) (n : ℕ) (completed : UInt64) : Prop where
  /-- There is a cycle in it. -/
  pos : 0 < n
  /-- The step ends by itself. -/
  returns : ∀ limit, n ≤ limit → s.stepWithin limit = (n, s.ticks (List.replicate n 1))
  /-- It ends at an instruction boundary. -/
  boundary : (s.ticks (List.replicate n 1)).cpu.inFlight = none
  /-- The cycles are counted. -/
  cycles : (s.ticks (List.replicate n 1)).cpu.counters.cycles =
    s.cpu.counters.cycles + UInt64.ofNat n
  /-- What is completed is counted. -/
  completed : (s.ticks (List.replicate n 1)).cpu.counters.completed =
    s.cpu.counters.completed + completed

/-- The processor is consistent, and nobody but the owner of a transfer keeps it from the bus. -/
structure Steady (s : Machine) : Prop where
  /-- The processor is consistent. -/
  cpu : s.cpu.Consistent
  /-- Nobody but the owner of a transfer keeps it from the bus. -/
  bus : s.bus.SoleMaster

variable {s : Machine}

/-- One cycle is one slice. -/
theorem tick_one (s : Machine) : s.tick 1 = s.advance 1 := by
  unfold tick
  split <;> rfl

/-- What is in flight afterwards is what the processor leaves there, -/
theorem inFlight_tick_one (s : Machine) : (s.tick 1).cpu.inFlight = s.cpu.cycle.2.inFlight := by
  rw [tick_one]
  rfl

/-- its counters are, -/
theorem counters_tick_one (s : Machine) : (s.tick 1).cpu.counters = s.cpu.cycle.2.counters := by
  rw [tick_one]
  rfl

/-- its run mode is, -/
theorem runMode_tick_one (s : Machine) : (s.tick 1).cpu.runMode = s.cpu.cycle.2.runMode := by
  rw [tick_one]
  rfl

/-- and so are its registers. -/
theorem regs_tick_one (s : Machine) : (s.tick 1).cpu.regs = s.cpu.cycle.2.regs := by
  rw [tick_one]
  rfl

/-- A cycle that completes something is counted as such. -/
theorem completed_tick_one (h : s.cpu.Finishes s.cpu.cycle.2) :
    (s.tick 1).cpu.counters.completed = s.cpu.counters.completed + 1 := by
  obtain ⟨activity, hcounters⟩ := h.counters
  rw [counters_tick_one, hcounters, Counters.completed_complete]
  rfl

/-- Single cycles are counted one by one. -/
theorem cycles_ticks_replicate (s : Machine) (n : ℕ) :
    (s.ticks (List.replicate n 1)).cpu.counters.cycles =
      s.cpu.counters.cycles + UInt64.ofNat n := by
  rw [cycles_ticks, List.sum_replicate_nat, Nat.mul_one]

/-- A processor that stands still is still halted after the cycle, or the cycle is counted as a
stall. -/
theorem Rests.halted_or_stalled (h : s.Rests) :
    (s.tick 1).cpu.runMode ≠ .running ∨
      (s.tick 1).cpu.counters.stallCycles ≠ s.cpu.counters.stallCycles := by
  obtain ⟨hboundary, hrests⟩ := h
  rw [runMode_tick_one, counters_tick_one, (Cpu.idles_cycle hboundary hrests).runMode]
  cases hbus : Bus.cpuHasBus s.cpu.bus with
  | false =>
    right
    rw [Cpu.cycle_of_stalled hbus]
    simp
  | true =>
    left
    intro hrunning
    have hwake : s.cpu.wake? = some .running := by
      rw [Cpu.wake?, hrunning]
    exact hrests (Cpu.wakes_iff.mpr ⟨hbus, Option.isSome_of_eq_some hwake⟩)

/-- A steady machine stays steady. -/
theorem Steady.tick_one (h : s.Steady) : (s.tick 1).Steady := by
  refine ⟨(LeadsTo.tick s 1).cpu h.cpu, ?_⟩
  rw [Machine.tick_one]
  exact MappedBus.SoleMaster.tick (s.cpu.tick 1).port
    (h.bus.of_sameArbitration (s.sameArbitration_tickCpu 1)) 1

namespace StepTakes

/-- A cycle that completes something is the last one. -/
theorem of_finishes (h : s.cpu.Finishes s.cpu.cycle.2) : s.StepTakes 1 1 := by
  have hcompleted := completed_tick_one h
  constructor
  case pos => exact Nat.one_pos
  case returns =>
    intro limit hlimit
    obtain ⟨limit, rfl⟩ := Nat.exists_eq_add_of_le' hlimit
    have hgrown : (s.tick 1).cpu.counters.completed ≠ s.cpu.counters.completed := by
      rw [hcompleted]
      simp
    simp only [stepWithin, if_pos hgrown]
    rfl
  case boundary => exact (inFlight_tick_one s).trans h.boundary
  case cycles => exact s.cycles_ticks_replicate 1
  case completed => exact hcompleted

/-- Where the processor stands still a step is a single cycle. -/
theorem of_rests (h : s.Rests) : s.StepTakes 1 0 := by
  have hidles := Cpu.idles_cycle h.1 h.2
  have hcompleted : (s.tick 1).cpu.counters.completed = s.cpu.counters.completed := by
    rw [counters_tick_one, Counters.completed, hidles.instructions, hidles.interruptsServiced]
    rfl
  have hflight : (s.tick 1).cpu.inFlight = none :=
    (inFlight_tick_one s).trans (hidles.inFlight.trans h.1)
  constructor
  case pos => exact Nat.one_pos
  case returns =>
    intro limit hlimit
    obtain ⟨limit, rfl⟩ := Nat.exists_eq_add_of_le' hlimit
    have hatBoundary : (s.tick 1).cpu.atBoundary = true := by
      rw [Cpu.atBoundary, hflight]
      rfl
    simp only [stepWithin, hcompleted, ne_eq, not_true_eq_false, if_false]
    rw [if_pos ⟨hatBoundary, h.halted_or_stalled⟩]
    rfl
  case boundary => exact hflight
  case cycles => exact s.cycles_ticks_replicate 1
  case completed => exact hcompleted.trans (UInt64.add_zero _).symm

/-- A cycle after which something is in flight, with nothing completed, comes before the rest of the
step. -/
theorem tick_one {n : ℕ} {completed : UInt64} (h : (s.tick 1).StepTakes n completed)
    {flight : InFlight} (hflight : (s.tick 1).cpu.inFlight = some flight)
    (hcompleted : (s.tick 1).cpu.counters.completed = s.cpu.counters.completed) :
    s.StepTakes (n + 1) completed := by
  constructor
  case pos => exact Nat.succ_pos n
  case returns =>
    intro limit hlimit
    obtain ⟨limit, rfl⟩ := Nat.exists_eq_add_of_le' (Nat.lt_of_lt_of_le n.succ_pos hlimit)
    have hgoes : ¬ ((s.tick 1).cpu.atBoundary = true ∧
        ((s.tick 1).cpu.runMode ≠ .running ∨
          (s.tick 1).cpu.counters.stallCycles ≠ s.cpu.counters.stallCycles)) := by
      rw [Cpu.atBoundary, hflight]
      rintro ⟨hfalse, -⟩
      cases hfalse
    simp only [stepWithin, hcompleted, ne_eq, not_true_eq_false, if_false]
    rw [if_neg hgoes, h.returns limit (Nat.le_of_succ_le_succ hlimit)]
    rfl
  case boundary => exact h.boundary
  case cycles => exact s.cycles_ticks_replicate (n + 1)
  case completed =>
    rw [← hcompleted]
    exact h.completed

/-- In particular a cycle with the bus that leaves something in flight. -/
theorem tick_one_of_continues {n : ℕ} {completed : UInt64} (h : (s.tick 1).StepTakes n completed)
    {next : InFlight} (hcontinues : s.cpu.Continues s.cpu.cycle.2 next) :
    s.StepTakes (n + 1) completed := by
  refine h.tick_one ((inFlight_tick_one s).trans hcontinues.inFlight) ?_
  rw [counters_tick_one, hcontinues.counters]
  rfl

end StepTakes

/-- How many more cycles a step takes at most that has something in flight. There are eight cycles
for it at most, and in each of them a transfer may start that takes up to 131072 more. -/
def stepBound (s : Machine) (flight : InFlight) : ℕ :=
  (8 - flight.elapsed.toNat) * 131073 + s.bus.cyclesLeft

/-- A transfer that has come closer to its end makes the step shorter, -/
theorem stepBound_lt_of_cyclesLeft {t : Machine} (flight : InFlight)
    (h : t.bus.cyclesLeft < s.bus.cyclesLeft) : t.stepBound flight < s.stepBound flight :=
  Nat.add_lt_add_left h _

/-- and so does a cycle that has been spent on what is in flight, whatever transfer starts in it. -/
theorem stepBound_lt_of_elapsed (s t : Machine) {flight next : InFlight}
    (helapsed : flight.elapsed.toNat < 8)
    (hspent : next.elapsed.toNat = flight.elapsed.toNat + 1) :
    t.stepBound next < s.stepBound flight := by
  have hwaits := t.bus.cyclesLeft_le
  unfold stepBound
  omega

/-- The bound is less than the limit of a step. -/
theorem stepBound_lt_stepLimit (s : Machine) (flight : InFlight) :
    s.stepBound flight < stepLimit := by
  have hwaits := s.bus.cyclesLeft_le
  unfold stepBound stepLimit
  omega

/-- In a cycle that the processor loses the transfer comes closer to its end. -/
theorem Steady.cyclesLeft_tick_one (h : s.Steady) (hbus : Bus.cpuHasBus s.cpu.bus = false) :
    (s.tick 1).bus.cyclesLeft < s.bus.cyclesLeft := by
  have hport : (s.cpu.tick 1).port = s.cpu.port := Cpu.port_tick_of_stalled hbus 1
  have hafter : (s.tick 1).bus = (MappedBus.tick s.cpu.port 1).bus := by
    rw [Machine.tick_one, ← hport]
    rfl
  rw [hafter]
  exact MappedBus.SoleMaster.cyclesLeft_tick s.cpu.port h.bus hbus

/-- As long as something is in flight each cycle brings the end of the step closer. -/
theorem Steady.stepTakes_of_inFlight (h : s.Steady) {flight : InFlight}
    (hflight : s.cpu.inFlight = some flight) : ∃ n ≤ s.stepBound flight, s.StepTakes n 1 := by
  induction hbound : s.stepBound flight using Nat.strong_induction_on generalizing s flight with
  | _ bound ih =>
    subst hbound
    have hconsistent := h.cpu.inFlight flight hflight
    cases hbus : Bus.cpuHasBus s.cpu.bus with
    | false =>
      -- What is in flight waits, and the bound falls with what is left of the transfer.
      have hcycle := Cpu.cycle_of_stalled hbus
      have hnext : (s.tick 1).cpu.inFlight = some flight := by
        rw [inFlight_tick_one, hcycle]
        exact hflight
      have hless := stepBound_lt_of_cyclesLeft flight (h.cyclesLeft_tick_one hbus)
      obtain ⟨n, hn, hrest⟩ := ih _ hless h.tick_one hnext rfl
      refine ⟨n + 1, Nat.lt_of_le_of_lt hn hless, hrest.tick_one hnext ?_⟩
      rw [counters_tick_one, hcycle]
      rfl
    | true =>
      -- A transfer may start in this cycle, but the cycle counts for more than any transfer.
      rcases Cpu.cycle_cases_of_inFlight hbus hflight hconsistent with
        hdone | ⟨next, hcontinues, hspent⟩
      · have helapsed := hconsistent.elapsed_lt
        exact ⟨1, by unfold stepBound; omega, .of_finishes hdone⟩
      · have hless := stepBound_lt_of_elapsed s (s.tick 1) hconsistent.elapsed_lt hspent
        have hnext := (inFlight_tick_one s).trans hcontinues.inFlight
        obtain ⟨n, hn, hrest⟩ := ih _ hless h.tick_one hnext rfl
        exact ⟨n + 1, Nat.lt_of_le_of_lt hn hless, hrest.tick_one_of_continues hcontinues⟩

/-- A step comes to an end: where the processor stands still after a single cycle, and otherwise
when an instruction or an interrupt sequence is complete. -/
structure EndsStep (s : Machine) : Prop where
  /-- Where the processor stands still a step takes a single cycle and completes nothing. -/
  rests : s.Rests → s.StepTakes 1 0
  /-- Otherwise it completes one thing. -/
  goes : ¬ s.Rests → ∃ n ≤ stepLimit, s.StepTakes n 1

/-- In a steady machine every step ends. -/
theorem Steady.endsStep (h : s.Steady) : s.EndsStep := by
  refine ⟨.of_rests, fun hgoes => ?_⟩
  cases hflight : s.cpu.inFlight with
  | some flight =>
    obtain ⟨n, hn, hends⟩ := h.stepTakes_of_inFlight hflight
    exact ⟨n, Nat.le_of_lt (Nat.lt_of_le_of_lt hn (s.stepBound_lt_stepLimit flight)), hends⟩
  | none =>
    have hwakes : Cpu.Wakes s.cpu.runMode s.cpu.port :=
      not_not.mp fun hrests => hgoes ⟨hflight, hrests⟩
    obtain ⟨hbus, hwake⟩ := Cpu.wakes_iff.mp hwakes
    obtain ⟨runMode, hwake⟩ := Option.isSome_iff_exists.mp hwake
    rcases Cpu.cycle_cases_of_wake hbus hflight hwake with hdone | ⟨next, hcontinues⟩
    · exact ⟨1, by decide, .of_finishes hdone⟩
    · have hnext := (inFlight_tick_one s).trans hcontinues.inFlight
      obtain ⟨n, hn, hrest⟩ := h.tick_one.stepTakes_of_inFlight hnext
      have hlimit := (s.tick 1).stepBound_lt_stepLimit next
      exact ⟨n + 1, Nat.lt_of_le_of_lt hn hlimit, hrest.tick_one_of_continues hcontinues⟩

/-- Whatever happens on the bus, a transfer under way belongs to a DMA controller. -/
theorem owned_invariant : MappedBus.Invariant MappedBus.Owned where
  devices h hsame := h.of_transfer_eq hsame.layout hsame.transfer
  tick _ cycles h := MappedBus.owned_tick h cycles
  reset port h := h.of_idle (MappedBus.leadsTo_reset port).layout rfl
  request requestor h := h.of_transfer_eq (MappedBus.leadsTo_request _ requestor).layout
    (MappedBus.transfer_request _ requestor)
  release requestor h := h.of_transfer_eq (MappedBus.leadsTo_release _ requestor).layout
    (MappedBus.transfer_release _ requestor)

/-- Whatever is done, the transfer under way is owned. -/
theorem owned_acts (h : s.bus.Owned) (actions : List Action) : (s.acts actions).bus.Owned := by
  refine acts_induction (fun s => s.bus.Owned) (fun s command h => ?_)
    (fun s m h horder hfree => ?_) h actions
  · exact invariant_execute owned_invariant h command
  · exact h.append horder hfree

/-- Whatever a host does, the processor stays consistent. -/
theorem consistent_acts (h : s.cpu.Consistent) (actions : List Action) :
    (s.acts actions).cpu.Consistent := by
  refine acts_induction (fun s => s.cpu.Consistent) (fun s command h => ?_)
    (fun s m h _ _ => ?_) h actions
  · exact (LeadsTo.execute s command).cpu h
  · exact h.setPort _

/-- Whatever a host has done with a machine, if there is no more than one DMA controller and the bus
is not held by anybody but the owner of a transfer under way, a step comes to an end. -/
theorem endsStep_of_acts {cpu : CpuSettings} {clock : ClockSettings}
    (h : ofSettings cpu clock = .ok s) {actions : List Action}
    (hone : OneController (s.acts actions).layout)
    (hheld : (s.acts actions).bus.HeldForTransfer) : (s.acts actions).EndsStep := by
  obtain ⟨hcpu, hbus⟩ := ofSettings_eq h
  have hconsistent : s.cpu.Consistent := by
    rw [hcpu]
    exact .create cpu _
  have howned : s.bus.Owned := by
    rw [hbus]
    exact ⟨.nil, nofun⟩
  have hsteady : (s.acts actions).Steady :=
    ⟨consistent_acts hconsistent actions, owned_acts howned actions, hone, hheld⟩
  exact hsteady.endsStep

/-- A host lets a program start a transfer and stops in the middle of both: a cycle of the
instruction that stored to the control register is left, and the byte has been read. -/
def copyMidway : List Action :=
  [.place 0x0000 0x0002 (.ram #[0x8D, 0x05, 0xD0]) 1,
    .place 0xD000 0xD005 (.dma (.create "dma")) 1, .command (.write 0xD004 1),
    .command (.set .a 1), .command (.set .pc 0), .command (.tick 3), .command (.tick 1)]

/-- The step writes the byte in one cycle and completes the instruction in another. -/
theorem endsStep_copyMidway :
    (create.acts copyMidway).cpu.inFlight.isSome = true ∧
      (create.acts copyMidway).bus.holder = some "dma" ∧
      (create.acts copyMidway).step.1 = 2 ∧ (create.acts copyMidway).EndsStep := by
  have hcreate : ofSettings {} {} = .ok create := rfl
  have hone : OneController (create.acts copyMidway).layout := by decide
  have hheld : (create.acts copyMidway).bus.HeldForTransfer := by
    intro name hname
    obtain rfl : "dma" = name := Option.some.inj hname
    exact ⟨_, rfl, rfl⟩
  exact ⟨rfl, rfl, by decide, endsStep_of_acts hcreate hone hheld⟩

end Machine

end W65C02
