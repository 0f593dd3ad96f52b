import W65C02.Proofs.Bus.Transfer
import W65C02.Proofs.Machine.Mastership

/-!
# A machine during a block transfer

While a transfer is under way the clock of a machine goes on by single cycles, however large the
budgets are, and the processor only waits. So the transfer takes its duration exactly, and when it
is over memory is what the copy makes of it.
-/

namespace W65C02.Machine

/-- For a number of cycles the processor has done nothing but count them, as cycles and as lost
ones. Only the world behind its pins may have changed. -/
structure Waited (s t : Machine) (cycles : ℕ) : Prop where
  /-- The processor has waited. -/
  cpu : t.cpu = (s.cpu.waited cycles).setPort t.cpu.port
  /-- The quantum stays. -/
  quantum : t.quantum = s.quantum

variable {s t u : Machine} {m n : ℕ}

/-- In no cycles the processor has waited. -/
theorem Waited.refl (s : Machine) : s.Waited s 0 := by
  constructor
  · rw [Cpu.waited_zero]
    rfl
  · rfl

/-- It waits for some cycles, and then for others. -/
theorem Waited.trans (h : s.Waited t m) (h' : t.Waited u n) : s.Waited u (m + n) := by
  constructor
  · rw [h'.cpu, h.cpu, ← Cpu.waited_waited]
    rfl
  · exact h'.quantum.trans h.quantum

variable {transfer next : TransferProgress} {controller : DmaController}

/-- For a number of cycles, no more than it takes, a transfer was carried out. -/
structure Transferred (s t : Machine) (transfer : TransferProgress) (controller : DmaController)
    (cycles : ℕ) : Prop where
  /-- The processor has waited. -/
  waited : s.Waited t cycles
  /-- If it takes more cycles it is still under way. -/
  unfinished : cycles < transfer.duration →
    ∃ next, s.bus.Continues t.bus transfer next controller cycles
  /-- If these were its cycles it is over. -/
  finished : cycles = transfer.duration → s.bus.Completed t.cpu.port transfer controller

/-- No cycle has passed. -/
theorem Transferred.refl (h : s.bus.Copies transfer controller) :
    s.Transferred s transfer controller 0 where
  waited := .refl s
  unfinished _ := ⟨transfer, h.continues⟩
  finished hzero := absurd hzero (TransferProgress.duration_pos h.unfinished).ne

/-- A transfer goes on for some cycles, and then for others. -/
theorem Transferred.trans (hwaited : s.Waited t m)
    (h : s.bus.Continues t.bus transfer next controller m)
    (h' : t.Transferred u next controller n) : s.Transferred u transfer controller (m + n) := by
  have hduration := h.duration
  refine ⟨hwaited.trans h'.waited, fun hmore => ?_, fun hlast => ?_⟩
  · obtain ⟨next', hnext⟩ := h'.unfinished (by omega)
    exact ⟨next', h.trans hnext⟩
  · exact h.completed (h'.finished (by omega))

/-- The processor loses a cycle and the transfer takes it. -/
theorem transferred_advance (h : s.bus.Copies transfer controller) :
    s.Transferred (s.advance 1) transfer controller 1 := by
  have hadvance : (s.advance 1).cpu = (s.cpu.tick 1).mapPort (MappedBus.tick · 1) := rfl
  have hwaits : s.cpu.tick 1 = s.cpu.waited 1 :=
    Cpu.tick_of_stalled (refusesOthers_of_holder h.holder).stalled 1
  rw [hwaits] at hadvance
  have hwaited : s.Waited (s.advance 1) 1 := by
    constructor
    · rw [hadvance]
      rfl
    · rfl
  have hafter : (s.advance 1).cpu.port = MappedBus.tick s.cpu.port 1 := by
    rw [hadvance]
    rfl
  have hbus : s.cpu.port.bus.Copies transfer controller := h
  have htick := hbus.tick
  rw [← hafter] at htick
  refine ⟨hwaited, fun hmore => ?_, fun hlast => ?_⟩
  · rcases htick with hnext | ⟨hlast, -⟩
    · exact hnext
    · omega
  · rcases htick with ⟨next, hnext⟩ | ⟨-, hdone⟩
    · have hduration := hnext.duration
      have hpositive := TransferProgress.duration_pos hnext.copies.unfinished
      omega
    · exact hdone

/-- In a budget that it does not exceed a transfer is carried out for as many cycles. -/
theorem transferred_tick (h : s.bus.Copies transfer controller) {budget : ℕ}
    (hbudget : budget ≤ transfer.duration) :
    s.Transferred (s.tick budget) transfer controller budget := by
  induction budget generalizing s transfer with
  | zero => exact .refl h
  | succ budget ih =>
    have hfirst := transferred_advance h
    have hbusy : s.bus.transfer.isSome = true := Option.isSome_of_eq_some h.underWay
    unfold tick
    rw [if_pos hbusy]
    by_cases hmore : 1 < transfer.duration
    · obtain ⟨next, hnext⟩ := hfirst.unfinished hmore
      have hduration := hnext.duration
      rw [Nat.add_comm]
      exact .trans hfirst.waited hnext (ih hnext.copies (by omega))
    · obtain rfl : budget = 0 := by omega
      exact hfirst

/-- Empty budgets do nothing. -/
theorem ticks_of_sum_eq_zero (s : Machine) {budgets : List ℕ} (h : budgets.sum = 0) :
    s.ticks budgets = s := by
  induction budgets with
  | nil => rfl
  | cons first rest ih =>
    rw [List.sum_cons] at h
    obtain rfl : first = 0 := by omega
    exact ih (by omega)

/-- However many cycles a transfer has left, and into whatever budgets a host divides its cycles,
the transfer is under way for as many cycles as it takes, and then it is over. -/
theorem transferred_ticks (h : s.bus.Copies transfer controller) {budgets : List ℕ}
    (hbudgets : budgets.sum ≤ transfer.duration) :
    s.Transferred (s.ticks budgets) transfer controller budgets.sum := by
  induction budgets generalizing s transfer with
  | nil => exact .refl h
  | cons first rest ih =>
    rw [List.sum_cons] at hbudgets ⊢
    have hfirst := transferred_tick h (Nat.le_of_add_right_le hbudgets)
    by_cases hmore : first < transfer.duration
    · obtain ⟨next, hnext⟩ := hfirst.unfinished hmore
      have hduration := hnext.duration
      exact .trans hfirst.waited hnext (ih hnext.copies (by omega))
    · have hzero : rest.sum = 0 := by omega
      rw [ticks, ticks_of_sum_eq_zero _ hzero, hzero]
      exact hfirst

/-- A host has three bytes copied one address up, over themselves and into a ROM, and tells the
controller to request an interrupt when it is done. -/
def startOverlappingCopy : List Action :=
  [.place 0x0000 0x0002 (.ram #[1, 2, 3]) 1, .place 0x0003 0x0003 (.rom #[9]) 1,
    .place 0xD000 0xD005 (.dma (.create "dma")) 1,
    .place 0xD010 0xD013 (.timer (.create "timer")) 1,
    .command (.write 0xD002 1), .command (.write 0xD004 3),
    .command (.write 0xD005 (Dma.start ||| Dma.irqOnDone)), .command (.tick 1),
    .command (.tick 1)]

/-- The first byte has been read, and after five cycles more it stands in the two others. -/
theorem transferred_overlapping_copy :
    let s := create.acts startOverlappingCopy
    let t := s.ticks [2, 0, 3]
    s.Waited t 5 ∧ t.bus.transfer = none ∧ t.bus.holder = none ∧
      t.cpu.interrupts.lines.holdsIrq "dma" = true ∧
      (t.bus.cells 1).value = 1 ∧ (t.bus.cells 2).value = 1 ∧ (t.bus.cells 3).value = 9 := by
  intro s t
  let controller : DmaController :=
    { name := "dma", destination := 1, length := 3, irqOnDone := true, busy := true }
  let transfer : TransferProgress := ⟨2, ⟨0, 1, 3⟩, 0, some 1⟩
  have hcopies : s.bus.Copies transfer controller :=
    ⟨by decide, by decide, ⟨_, rfl, rfl⟩, by decide, by decide, by decide⟩
  have hbudgets : [2, 0, 3].sum ≤ transfer.duration := by decide
  have hticks := transferred_ticks hcopies hbudgets
  have hdone := hticks.finished (by decide)
  have hcells : t.bus.cells = transfer.copied s.bus.cells := hdone.cells
  refine ⟨hticks.waited, hdone.ended, hdone.free, hdone.irq rfl, ?_⟩
  rw [hcells]
  decide

end W65C02.Machine
