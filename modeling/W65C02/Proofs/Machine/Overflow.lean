import W65C02.Proofs.Cpu.Overflow
import W65C02.Proofs.Machine.DeviceClocks

/-!
# Where a machine stops at an overflow

A machine that looks at each sum comes to the same as one that does not, as long as it comes to
anything. If it does, then at no time have more machine clocks come together for a device than can
be counted, so all devices are in time with the processor.
-/

namespace W65C02

/-- A device that is given clocks comes to the same if it comes to anything. -/
theorem Device.checkedTick_eq_some {device : Device} {lines : Lines} {clocks : ℕ}
    {result : Device × Lines} (h : device.checkedTick lines clocks = some result) :
    result = device.tick lines clocks := by
  cases device with
  | cpu c =>
    obtain ⟨c', hc, rfl⟩ := Option.map_eq_some_iff.mp h
    rw [Cpu.checkedTick_eq_some hc]
    rfl
  | ram | rom | timer | dma => exact (Option.some.inj h).symm

/-- So does a mapping, and then the machine clocks that have come together can be counted. -/
theorem Mapping.checkedTick_eq_some {m : Mapping} {lines : Lines} {cycles : ℕ}
    {result : Mapping × Lines} (h : m.checkedTick lines cycles = some result) :
    result = m.tick lines cycles ∧ m.TotalFits cycles := by
  obtain ⟨hfits, hsome⟩ := Option.ite_none_right_eq_some.mp h
  refine ⟨?_, hfits⟩
  obtain ⟨⟨device, lines'⟩, hdevice, rfl⟩ := Option.map_eq_some_iff.mp hsome
  unfold tick
  by_cases hnone : m.clocks cycles = 0
  · rw [if_pos hnone] at hdevice
    obtain ⟨rfl, rfl⟩ := Prod.mk.inj (Option.some.inj hdevice)
    simp only [hnone, if_true]
  · rw [if_neg hnone] at hdevice
    simp only [if_neg hnone, ← Device.checkedTick_eq_some hdevice]

namespace MappedBus

/-- So do all mappings in turn. -/
theorem checkedTickAll_eq_some {cycles : ℕ} {mappings : List Mapping} {lines : Lines}
    {result : List Mapping × Lines} (h : checkedTickAll cycles mappings lines = some result) :
    result = tickAll cycles mappings lines ∧ ∀ m ∈ mappings, m.TotalFits cycles := by
  induction mappings generalizing lines result with
  | nil => exact ⟨(Option.some.inj h).symm, List.forall_mem_nil _⟩
  | cons m rest ih =>
    obtain ⟨first, hfirst, hthen⟩ := Option.bind_eq_some_iff.mp h
    obtain ⟨others, hothers, hresult⟩ := Option.bind_eq_some_iff.mp hthen
    obtain ⟨rfl, hfits⟩ := Mapping.checkedTick_eq_some hfirst
    obtain ⟨rfl, hrest⟩ := ih hothers
    exact ⟨(Option.some.inj hresult).symm, List.forall_mem_cons.mpr ⟨hfits, hrest⟩⟩

/-- So does the map with its transfer under way. -/
theorem checkedTick_eq_some {port port' : Port MappedBus} {cycles : ℕ}
    (h : checkedTick port cycles = some port') :
    port' = tick port cycles ∧
      ∀ place m, due? port cycles place = some m → m.TotalFits cycles := by
  obtain ⟨result, hresult, rfl⟩ := Option.map_eq_some_iff.mp h
  obtain ⟨rfl, hfits⟩ := checkedTickAll_eq_some hresult
  exact ⟨rfl, fun place m hm => hfits m (List.mem_of_getElem? hm)⟩

end MappedBus

namespace Machine

variable {s t : Machine}

/-- A slice of time comes to the same if it comes to anything, and then all that has come together
can be counted. -/
theorem checkedAdvance_eq_some {slice : ℕ} (h : s.checkedAdvance slice = some t) :
    t = s.advance slice ∧ ∀ place, Moment.Fits ⟨s, slice⟩ place := by
  obtain ⟨c, hc, hthen⟩ := Option.bind_eq_some_iff.mp h
  obtain ⟨c', hc', hresult⟩ := Option.bind_eq_some_iff.mp hthen
  obtain rfl := Cpu.checkedTick_eq_some hc
  obtain ⟨port, hport, rfl⟩ := Option.map_eq_some_iff.mp hc'
  obtain ⟨rfl, hfits⟩ := MappedBus.checkedTick_eq_some hport
  exact ⟨(Option.some.inj hresult).symm, hfits⟩

/-- So does a budget of cycles. -/
theorem checkedTick_eq_some {budget : ℕ} (h : s.checkedTick budget = some t) :
    t = s.tick budget ∧ ∀ u ∈ s.momentsIn (s.budgetSlices budget), ∀ place, u.Fits place := by
  induction budget generalizing s with
  | zero => exact ⟨(Option.some.inj h).symm, List.forall_mem_nil _⟩
  | succ budget ih =>
    unfold checkedTick at h
    unfold tick budgetSlices
    split at h
    · next htransfer =>
      obtain ⟨next, hnext, hrest⟩ := Option.bind_eq_some_iff.mp h
      obtain ⟨rfl, hfits⟩ := checkedAdvance_eq_some hnext
      obtain ⟨rfl, hlater⟩ := ih hrest
      rw [if_pos htransfer, if_pos htransfer]
      exact ⟨rfl, List.forall_mem_cons.mpr ⟨hfits, hlater⟩⟩
    · next htransfer =>
      obtain ⟨rfl, hfits⟩ := checkedAdvance_eq_some h
      rw [if_neg htransfer, if_neg htransfer]
      exact ⟨rfl, List.forall_mem_singleton.mpr hfits⟩

/-- Uses up several budgets. -/
def checkedTicks (s : Machine) : List ℕ → Option Machine
  | [] => some s
  | first :: rest => (s.checkedTick first).bind (·.checkedTicks rest)

/-- Some budgets after others. -/
theorem checkedTicks_append (s : Machine) (first rest : List ℕ) :
    s.checkedTicks (first ++ rest) = (s.checkedTicks first).bind (·.checkedTicks rest) := by
  induction first generalizing s with
  | nil => rfl
  | cons budget first ih =>
    simp only [List.cons_append, checkedTicks, Option.bind_assoc, ih]

/-- The moments of some slices and of others after them. -/
theorem momentsIn_append (s : Machine) (first rest : List ℕ) :
    s.momentsIn (first ++ rest) = s.momentsIn first ++ (s.advances first).momentsIn rest := by
  induction first generalizing s with
  | nil => rfl
  | cons slice first ih => exact congrArg (⟨s, slice⟩ :: ·) (ih _)

/-- Several budgets come to the same if they come to anything. -/
theorem checkedTicks_eq_some {budgets : List ℕ} (h : s.checkedTicks budgets = some t) :
    t = s.ticks budgets ∧
      ∀ u ∈ s.momentsIn (s.budgetsSlices budgets), ∀ place, u.Fits place := by
  induction budgets generalizing s with
  | nil => exact ⟨(Option.some.inj h).symm, List.forall_mem_nil _⟩
  | cons first rest ih =>
    obtain ⟨next, hnext, hrest⟩ := Option.bind_eq_some_iff.mp h
    obtain ⟨rfl, hfits⟩ := checkedTick_eq_some hnext
    obtain ⟨rfl, hlater⟩ := ih hrest
    refine ⟨rfl, ?_⟩
    rw [budgetsSlices, momentsIn_append, ← tick_eq_advances]
    exact List.forall_mem_append.mpr ⟨hfits, hlater⟩

/-- A single budget. -/
theorem checkedTicks_singleton (s : Machine) (budget : ℕ) :
    s.checkedTicks [budget] = s.checkedTick budget :=
  Option.bind_fun_some _

/-- A run is a number of budgets, -/
theorem checkedRun_eq_checkedTicks (s : Machine) (cycles : ℕ) :
    s.checkedRun cycles = s.checkedTicks (s.runBudgets cycles) := by
  let quantum := s.quantum
  have hrepeat (n : ℕ) : Nat.repeat (Option.bind · (·.checkedTick quantum)) n (some s) =
      s.checkedTicks (List.replicate n quantum) := by
    induction n with
    | zero => rfl
    | succ n ih =>
      rw [List.replicate_succ', checkedTicks_append, ← ih]
      simp only [Nat.repeat, checkedTicks_singleton]
  change (Nat.repeat (Option.bind · (·.checkedTick quantum)) (cycles / quantum) (some s)).bind
    (·.checkedTick (cycles % quantum)) =
      s.checkedTicks (List.replicate (cycles / quantum) quantum ++ [cycles % quantum])
  rw [hrepeat, checkedTicks_append]
  simp only [checkedTicks_singleton]

/-- so it comes to the same if it comes to anything. -/
theorem checkedRun_eq_some {cycles : ℕ} (h : s.checkedRun cycles = some t) :
    t = s.run cycles ∧
      ∀ u ∈ s.momentsIn (s.slices (.command (.run cycles))), ∀ place, u.Fits place := by
  rw [checkedRun_eq_checkedTicks] at h
  rw [run_eq_ticks]
  exact checkedTicks_eq_some h

/-- A step is a number of single cycles. It comes to the same if it comes to anything. -/
theorem checkedStepWithin_eq_some {limit spent : ℕ}
    (h : s.checkedStepWithin limit = some (spent, t)) :
    (spent, t) = s.stepWithin limit ∧ s.checkedTicks (List.replicate spent 1) = some t := by
  induction limit generalizing s spent with
  | zero => cases h
  | succ limit ih =>
    obtain ⟨before, hbefore, hthen⟩ := Option.bind_eq_some_iff.mp h
    obtain ⟨next, hnext, hthen⟩ := Option.bind_eq_some_iff.mp hthen
    obtain ⟨after, hafter, hresult⟩ := Option.bind_eq_some_iff.mp hthen
    have hcompleted {n : Counters} {total : UInt64} (hn : n.completed? = some total) :
        total = n.completed :=
      (Option.some.inj (Option.ite_none_right_eq_some.mp hn).2).symm
    obtain rfl := hcompleted hbefore
    obtain rfl := hcompleted hafter
    obtain ⟨rfl, -⟩ := checkedTick_eq_some hnext
    unfold stepWithin
    simp only
    split at hresult
    · next hdone =>
      obtain ⟨rfl, rfl⟩ := Prod.mk.inj (Option.some.inj hresult)
      rw [if_pos hdone]
      exact ⟨rfl, Option.bind_eq_some_iff.mpr ⟨_, hnext, rfl⟩⟩
    · next hmore =>
      rw [if_neg hmore]
      split at hresult
      · next hstill =>
        obtain ⟨rfl, rfl⟩ := Prod.mk.inj (Option.some.inj hresult)
        rw [if_pos hstill]
        exact ⟨rfl, Option.bind_eq_some_iff.mpr ⟨_, hnext, rfl⟩⟩
      · next hrunning =>
        obtain ⟨⟨rest, last⟩, hrest, hresult⟩ := Option.bind_eq_some_iff.mp hresult
        obtain ⟨rfl, rfl⟩ := Prod.mk.inj (Option.some.inj hresult)
        obtain ⟨hsame, hticks⟩ := ih hrest
        rw [if_neg hrunning, ← hsame]
        exact ⟨rfl, Option.bind_eq_some_iff.mpr ⟨_, hnext, hticks⟩⟩

/-- A machine that steps keeps its devices in time, if it comes to anything. -/
theorem checkedStep_eq_some {result : ℕ × Machine} (h : s.checkedStep = some result) :
    result = s.step ∧
      ∀ u ∈ s.momentsIn (s.slices (.command .step)), ∀ place, u.Fits place := by
  obtain ⟨spent, t⟩ := result
  obtain ⟨hsame, hticks⟩ := checkedStepWithin_eq_some h
  have hspent : spent = s.step.1 := congrArg Prod.fst hsame
  rw [hspent] at hticks
  exact ⟨hsame, (checkedTicks_eq_some hticks).2⟩

end Machine

namespace Emulator

variable {e e' : Emulator}

/-- A ready-made machine comes to the same in a step, -/
theorem checkedStep_eq_some {result : ℕ × Emulator} (h : e.checkedStep = some result) :
    result = e.step := by
  obtain ⟨⟨spent, machine⟩, hstep, rfl⟩ := Option.map_eq_some_iff.mp h
  unfold step
  rw [← (Machine.checkedStep_eq_some hstep).1]

/-- in a budget of cycles, -/
theorem checkedTick_eq_some {budget : ℕ} (h : e.checkedTick budget = some e') :
    e' = e.tick budget := by
  obtain ⟨machine, htick, rfl⟩ := Option.map_eq_some_iff.mp h
  rw [(Machine.checkedTick_eq_some htick).1]
  rfl

/-- and in a run, if it comes to anything. -/
theorem checkedRun_eq_some {cycles : ℕ} (h : e.checkedRun cycles = some e') :
    e' = e.run cycles := by
  obtain ⟨machine, hrun, rfl⟩ := Option.map_eq_some_iff.mp h
  rw [(Machine.checkedRun_eq_some hrun).1]
  rfl

end Emulator

end W65C02
