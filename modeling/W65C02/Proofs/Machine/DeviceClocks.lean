import W65C02.Proofs.Bus.DeviceClocks
import W65C02.Proofs.Cpu.Cycle
import W65C02.Proofs.Machine.Mastership

/-!
# Devices keep time with the processor

The clock of a machine advances by slices. How long a slice is depends on budgets, on the quantum
and on the transfers that are under way, and after each slice every device rescales the time by its
divider. The slices of a budget add up to the budget, and no machine clock is lost between two of
them. So the clocks that a device has been given since it was placed are the time of the processor
since then, divided by the divider of the device.
-/

namespace W65C02

/-- Each cycle of a budget is counted. -/
theorem Cpu.cycles_tick {β : Type} [Bus β] (c : Cpu β) (budget : ℕ) :
    (c.tick budget).counters.cycles = c.counters.cycles + UInt64.ofNat budget := by
  induction budget generalizing c with
  | zero => exact (UInt64.add_zero _).symm
  | succ budget ih =>
    have hrest := ih c.cycle.2
    rw [cycle_cycles, UInt64.add_assoc, UInt64.add_comm 1] at hrest
    rw [UInt64.ofNat_add]
    exact hrest

/-- A moment at which devices get their clocks. -/
structure Moment where
  /-- The machine at the beginning of a slice of time. -/
  machine : Machine
  /-- How many cycles the slice has. -/
  slice : ℕ

namespace Moment

/-- The machine when the slice is over and the devices have got their clocks. -/
def after (u : Moment) : Machine := u.machine.advance u.slice

/-- The mapping at a place as it is when its device gets its clocks: the processor and the transfer
under way have had their cycles by then. -/
def due? (u : Moment) (place : ℕ) : Option Mapping :=
  MappedBus.due? (u.machine.cpu.tick u.slice).port u.slice place

/-- How many clocks the device at a place is given. -/
def clocks (u : Moment) (place : ℕ) : ℕ :=
  (u.due? place).elim 0 fun m => (m.clocks u.slice).toNat

/-- How many times the count of machine clocks at a place starts again from zero. -/
def overruns (u : Moment) (place : ℕ) : ℕ := (u.due? place).elim 0 (·.overruns u.slice)

/-- The machine clocks that have come together at a place can be counted in thirty-two bits. -/
def Fits (u : Moment) (place : ℕ) : Prop := ∀ m, u.due? place = some m → m.TotalFits u.slice

/-- It is the mapping there that matters. -/
theorem fits_iff {u : Moment} {place : ℕ} {due : Mapping} (hdue : u.due? place = some due) :
    u.Fits place ↔ due.TotalFits u.slice := by
  constructor
  · exact fun hfits => hfits due hdue
  · intro hfits m hm
    rwa [← Option.some.inj (hdue.symm.trans hm)]

/-- The count starts again from zero only if it does not fit. -/
theorem overruns_eq_zero {u : Moment} {place : ℕ} : u.overruns place = 0 ↔ u.Fits place := by
  cases hdue : u.due? place with
  | none =>
    rw [overruns, hdue]
    refine iff_of_true rfl fun m hm => ?_
    cases hdue.symm.trans hm
  | some due => rw [fits_iff hdue, overruns, hdue, Option.elim_some, Mapping.overruns_eq_zero]

instance (u : Moment) (place : ℕ) : Decidable (u.Fits place) :=
  decidable_of_iff (u.overruns place = 0) overruns_eq_zero

/-- How many cycles several moments take. -/
def time (moments : List Moment) : ℕ := (moments.map (·.slice)).sum

/-- How many clocks the device at a place is given at several moments. -/
def clocksIn (moments : List Moment) (place : ℕ) : ℕ := (moments.map (·.clocks place)).sum

/-- How many times the count of machine clocks at a place starts again at several moments. -/
def overrunsIn (moments : List Moment) (place : ℕ) : ℕ := (moments.map (·.overruns place)).sum

/-- Moments one after another. -/
theorem time_append (first rest : List Moment) : time (first ++ rest) = time first + time rest := by
  rw [time, List.map_append, List.sum_append]
  rfl

/-- No count starts again exactly if all counts fit. -/
theorem overrunsIn_eq_zero {moments : List Moment} {place : ℕ} :
    overrunsIn moments place = 0 ↔ ∀ u ∈ moments, u.Fits place := by
  rw [overrunsIn, List.sum_eq_zero_iff_forall_eq_nat, List.forall_mem_map]
  exact forall₂_congr fun u _ => overruns_eq_zero

end Moment

/-- What becomes of the mapping at a place over several moments. At each moment its device is given
the clocks that are due then, all at once; before, in between and afterwards it is accessed only. -/
inductive Mapping.Passes (place : ℕ) : Mapping → List Moment → Mapping → Prop where
  | rest {m m' : Mapping} : m.Rests m' → Passes place m [] m'
  | moment {m due given m' : Mapping} {u : Moment} {moments : List Moment} :
    m.Rests due → u.due? place = some due → due.Gives u.slice (u.clocks place) given →
      u.after.bus.mappings[place]? = some given → Passes place given moments m' →
        Passes place m (u :: moments) m'

namespace Mapping.Passes

variable {place : ℕ} {m m' m'' : Mapping} {moments moments' : List Moment}

/-- Accesses before the first moment. -/
theorem after_rests (h : m.Rests m') (h' : m'.Passes place moments m'') :
    m.Passes place moments m'' := by
  cases h' with
  | rest hrests => exact .rest (h.trans hrests)
  | moment hrests hdue hgives hgiven hrest =>
    exact .moment (h.trans hrests) hdue hgives hgiven hrest

/-- Some moments after others. -/
theorem append (h : m.Passes place moments m') (h' : m'.Passes place moments' m'') :
    m.Passes place (moments ++ moments') m'' := by
  induction h with
  | rest hrests => exact h'.after_rests hrests
  | moment hrests hdue hgives hgiven _ ih => exact .moment hrests hdue hgives hgiven (ih h')

/-- All machine clocks of the moments are accounted for. -/
theorem accounts (h : m.Passes place moments m') :
    m.Accounts (Moment.time moments) (Moment.overrunsIn moments place)
      (Moment.clocksIn moments place) m' := by
  induction h with
  | rest hrests => exact hrests.accounts
  | @moment m due given m' u moments hrests hdue hgives _ _ ih =>
    have hoverruns : u.overruns place = due.overruns u.slice := by
      rw [Moment.overruns, hdue, Option.elim_some]
    have hmoment := hrests.accounts.trans hgives.accounts
    rw [Nat.zero_add, Nat.zero_add, Nat.zero_add, ← hoverruns] at hmoment
    exact hmoment.trans ih

/-- In less than 2 ^ 32 cycles, those that were left over included, all counts fit. -/
theorem fits_of_time (h : m.Passes place moments m')
    (htime : m.residue.toNat + Moment.time moments < 2 ^ 32) : ∀ u ∈ moments, u.Fits place := by
  induction h with
  | rest => exact List.forall_mem_nil _
  | @moment m due given m' u moments hrests hdue hgives _ _ ih =>
    have hgiven := hgives.accounts.residue
    rw [← hrests.residue] at htime
    rw [Moment.time, List.map_cons, List.sum_cons, ← Moment.time] at htime
    refine List.forall_mem_cons.mpr ⟨(Moment.fits_iff hdue).mpr ?_, ih ?_⟩
    · exact Nat.lt_of_le_of_lt (Nat.add_le_add_left (Nat.le_add_right _ _) _) htime
    · omega

/-- In slices that are shorter than 2 ^ 32 cycles at least by the divider all counts fit, for what
is left over is less than the divider. -/
theorem fits_of_slices (h : m.Passes place moments m') (hnext : m.residue < m.divider)
    (hslices : ∀ u ∈ moments, u.slice + m.divider.toNat ≤ 2 ^ 32) :
    ∀ u ∈ moments, u.Fits place := by
  induction h with
  | rest => exact List.forall_mem_nil _
  | @moment m due given m' u moments hrests hdue hgives _ _ ih =>
    obtain ⟨hfirst, hrest⟩ := List.forall_mem_cons.mp hslices
    have hgiven := hgives.accounts
    rw [← hrests.residue, ← hrests.divider] at hnext
    rw [← hrests.divider] at hfirst hrest
    refine List.forall_mem_cons.mpr ⟨(Moment.fits_iff hdue).mpr ?_, ih (hgiven.due hnext) ?_⟩
    · have hresidue := UInt32.lt_iff_toNat_lt.mp hnext
      change due.residue.toNat + u.slice < 2 ^ 32
      omega
    · rwa [hgiven.divider]

end Mapping.Passes

namespace Machine

/-- Lets the clock advance by several slices. -/
def advances (s : Machine) : List ℕ → Machine
  | [] => s
  | first :: rest => (s.advance first).advances rest

/-- The slices by which the clock advances within a budget of cycles. -/
def budgetSlices (s : Machine) : ℕ → List ℕ
  | 0 => []
  | budget + 1 =>
    if s.bus.transfer.isSome then 1 :: (s.advance 1).budgetSlices budget else [budget + 1]

/-- The slices by which the clock advances within several budgets of cycles. -/
def budgetsSlices (s : Machine) : List ℕ → List ℕ
  | [] => []
  | first :: rest => s.budgetSlices first ++ (s.tick first).budgetsSlices rest

/-- The slices by which an action lets the clock advance. -/
def slices (s : Machine) : Action → List ℕ
  | .command (.tick budget) => s.budgetSlices budget
  | .command (.run cycles) => s.budgetsSlices (s.runBudgets cycles)
  | .command .step => s.budgetsSlices (List.replicate s.step.1 1)
  | _ => []

/-- The moments of several slices. -/
def momentsIn (s : Machine) : List ℕ → List Moment
  | [] => []
  | first :: rest => ⟨s, first⟩ :: (s.advance first).momentsIn rest

/-- The moments at which devices get their clocks in a number of actions. -/
def momentsOver (s : Machine) : List Action → List Moment
  | [] => []
  | first :: rest => s.momentsIn (s.slices first) ++ (s.act first).momentsOver rest

/-- Whether an action lets the processor and the devices run together only, and resets neither. -/
def Action.keepsTime : Action → Bool
  | .command .reset | .command (.tickCpu _) | .command .stepCpu | .command .resetCpu
  | .command (.tickBus _) | .command .resetBus => false
  | _ => true

/-- What becomes of a machine over several moments. -/
structure Runs (s : Machine) (moments : List Moment) (t : Machine) : Prop where
  /-- The time is counted. -/
  cycles : t.cpu.counters.cycles = s.cpu.counters.cycles + UInt64.ofNat (Moment.time moments)
  /-- The devices get their clocks. -/
  mappings : ∀ (place : ℕ) (m : Mapping), s.bus.mappings[place]? = some m →
    ∃ m', t.bus.mappings[place]? = some m' ∧ m.Passes place moments m'

variable {s t u : Machine}

namespace Runs

variable {moments moments' : List Moment}

/-- What does not touch the clock takes no time. -/
theorem rest (hcounters : t.cpu.counters = s.cpu.counters)
    (hmappings : MappingsRest s.bus.mappings t.bus.mappings) : s.Runs [] t := by
  constructor
  · rw [hcounters]
    exact (UInt64.add_zero _).symm
  · intro place m hm
    obtain ⟨m', hm', hrests⟩ := hmappings place m hm
    exact ⟨m', hm', .rest hrests⟩

/-- Nothing takes no time. -/
theorem refl (s : Machine) : s.Runs [] s := .rest rfl (.refl _)

/-- Some moments after others. -/
theorem trans (h : s.Runs moments t) (h' : t.Runs moments' u) : s.Runs (moments ++ moments') u := by
  constructor
  · rw [h'.cycles, h.cycles, Moment.time_append, UInt64.ofNat_add, UInt64.add_assoc]
  · intro place m hm
    obtain ⟨m', hm', hpasses⟩ := h.mappings place m hm
    obtain ⟨m'', hm'', hpasses'⟩ := h'.mappings place m' hm'
    exact ⟨m'', hm'', hpasses.append hpasses'⟩

end Runs

/-- Some slices after others. -/
theorem advances_append (s : Machine) (first rest : List ℕ) :
    s.advances (first ++ rest) = (s.advances first).advances rest := by
  induction first generalizing s with
  | nil => rfl
  | cons slice first ih => exact ih _

/-- Within a budget the clock advances by its slices, -/
theorem tick_eq_advances (s : Machine) (budget : ℕ) :
    s.tick budget = s.advances (s.budgetSlices budget) := by
  induction budget generalizing s with
  | zero => rfl
  | succ budget ih =>
    unfold tick budgetSlices
    split
    · exact ih _
    · rfl

/-- and these add up to the budget. -/
theorem sum_budgetSlices (s : Machine) (budget : ℕ) : (s.budgetSlices budget).sum = budget := by
  induction budget generalizing s with
  | zero => rfl
  | succ budget ih =>
    unfold budgetSlices
    split
    · rw [List.sum_cons, ih, Nat.add_comm]
    · rfl

/-- Within several budgets the clock advances by their slices, -/
theorem ticks_eq_advances (s : Machine) (budgets : List ℕ) :
    s.ticks budgets = s.advances (s.budgetsSlices budgets) := by
  induction budgets generalizing s with
  | nil => rfl
  | cons first rest ih =>
    rw [ticks, budgetsSlices, advances_append, ← tick_eq_advances, ih]

/-- and these add up to the budgets. -/
theorem sum_budgetsSlices (s : Machine) (budgets : List ℕ) :
    (s.budgetsSlices budgets).sum = budgets.sum := by
  induction budgets generalizing s with
  | nil => rfl
  | cons first rest ih =>
    rw [budgetsSlices, List.sum_append, sum_budgetSlices, ih, List.sum_cons]

/-- The slices are those of the moments. -/
theorem time_momentsIn (s : Machine) (slices : List ℕ) :
    Moment.time (s.momentsIn slices) = slices.sum := by
  induction slices generalizing s with
  | nil => rfl
  | cons first rest ih =>
    have hrest := ih (s.advance first)
    rw [Moment.time] at hrest
    rw [Moment.time, momentsIn, List.map_cons, List.sum_cons, List.sum_cons, hrest]

/-- In a slice the processor runs first. That takes the time of the slice and gives no clocks, and
neither does the transfer under way. Then the devices get the clocks that they are due for that
time. -/
theorem runs_advance (s : Machine) (slice : ℕ) : s.Runs [⟨s, slice⟩] (s.advance slice) := by
  constructor
  · exact s.cpu.cycles_tick slice
  · intro place m hm
    have hcpu := (MappedBus.restInvariant s.bus.mappings).tick (c := s.cpu) (.refl _) slice
    have hbefore := hcpu.trans (MappedBus.rest_runTransfer (s.cpu.tick slice).port slice)
    obtain ⟨due, hdue, hrests⟩ := hbefore place m hm
    have hmoment : MappedBus.due? (s.cpu.tick slice).port slice place = some due := hdue
    obtain ⟨m', hm', hgives⟩ := MappedBus.gives_tick hmoment
    refine ⟨m', hm', .moment hrests hmoment ?_ hm' (.rest (.refl m'))⟩
    change Moment.due? ⟨s, slice⟩ place = some due at hmoment
    rwa [Moment.clocks, hmoment]

/-- Several slices are that many moments. -/
theorem runs_advances (s : Machine) (slices : List ℕ) :
    s.Runs (s.momentsIn slices) (s.advances slices) := by
  induction slices generalizing s with
  | nil => exact .refl s
  | cons first rest ih => exact (s.runs_advance first).trans (ih _)

/-- Several budgets take as many cycles as they add up to. -/
theorem cycles_ticks (s : Machine) (budgets : List ℕ) :
    (s.ticks budgets).cpu.counters.cycles = s.cpu.counters.cycles + UInt64.ofNat budgets.sum := by
  rw [ticks_eq_advances, (s.runs_advances _).cycles, time_momentsIn, sum_budgetsSlices]

/-- Something that acts on the port and gives no clocks takes no time. -/
theorem Runs.mapPort (s : Machine) {f : Port MappedBus → Port MappedBus}
    (hf : MappingsRest s.bus.mappings (f s.cpu.port).bus.mappings) : s.Runs [] (s.mapPort f) :=
  .rest rfl hf

/-- An action takes the time of its slices, and the devices get the clocks that they are due. -/
theorem runs_act (s : Machine) {action : Action} (h : action.keepsTime = true) :
    s.Runs (s.momentsIn (s.slices action)) (s.act action) := by
  have hstill := MappingsRest.refl s.bus.mappings
  have haccess := MappedBus.restInvariant s.bus.mappings
  cases action with
  | place start finish device divider =>
    rcases s.act_place_cases start finish device divider with hsame | ⟨-, -, hplaced⟩
    · rw [hsame]
      exact .refl s
    · rw [hplaced]
      refine .rest rfl fun place m hm => ⟨m, ?_, .refl m⟩
      rw [mappings_append]
      exact List.getElem?_append_left (List.getElem?_eq_some_iff.mp hm).1 ▸ hm
  | command command =>
    cases command with
    | tick budget =>
      change s.Runs _ (s.tick budget)
      rw [tick_eq_advances]
      exact s.runs_advances _
    | run cycles =>
      change s.Runs _ (s.run cycles)
      rw [run_eq_ticks, ticks_eq_advances]
      exact s.runs_advances _
    | step =>
      change s.Runs _ s.step.2
      rw [step, stepWithin_eq_ticks, ticks_eq_advances]
      exact s.runs_advances _
    | reset | tickCpu | stepCpu | resetCpu | tickBus | resetBus => cases h
    | read address =>
      exact .mapPort s (f := fun port => (port.read address).2) (haccess.read hstill)
    | write address value => exact .mapPort s (haccess.write hstill)
    | set register value =>
      simp only [act, execute]
      split
      · next cpu hset =>
        obtain ⟨regs, -, rfl⟩ := Cpu.set_eq hset
        exact .rest rfl hstill
      · exact .refl s
    | request | release | pulseNmi | releaseAll | acknowledge | restoreLines =>
      exact .rest rfl hstill
    | requestBus requestor =>
      refine .mapPort s (f := fun port => { port with bus := (port.bus.request requestor).2 }) ?_
      rw [MappedBus.mappings_request]
      exact hstill
    | releaseBus requestor =>
      refine .mapPort s ?_
      rw [MappedBus.mappings_release]
      exact hstill

/-- Actions take the time of their slices, one after another. -/
theorem runs_acts (s : Machine) {actions : List Action}
    (h : ∀ action ∈ actions, action.keepsTime = true) :
    s.Runs (s.momentsOver actions) (s.acts actions) := by
  induction actions generalizing s with
  | nil => exact .refl s
  | cons first rest ih =>
    obtain ⟨hfirst, hrest⟩ := List.forall_mem_cons.mp h
    exact (s.runs_act hfirst).trans (ih _ hrest)

/-- An action consumes a number of cycles: it lets the clock advance by slices that add up to them,
and the processor counts them. -/
structure Consumes (s : Machine) (action : Action) (cycles : ℕ) : Prop where
  /-- The clock advances by the slices and does nothing else. -/
  advances : s.act action = s.advances (s.slices action)
  /-- The slices add up. -/
  slices : (s.slices action).sum = cycles
  /-- The cycles are counted. -/
  counted : (s.act action).cpu.counters.cycles = s.cpu.counters.cycles + UInt64.ofNat cycles

/-- What lets the clock advance by its slices consumes their sum. -/
theorem Consumes.of_slices {action : Action} {cycles : ℕ}
    (hadvances : s.act action = s.advances (s.slices action))
    (hslices : (s.slices action).sum = cycles) : s.Consumes action cycles := by
  refine ⟨hadvances, hslices, ?_⟩
  rw [hadvances, (s.runs_advances _).cycles, time_momentsIn, hslices]

/-- A budget is used up exactly. -/
theorem consumes_tick (s : Machine) (budget : ℕ) : s.Consumes (.command (.tick budget)) budget :=
  .of_slices (s.tick_eq_advances budget) (s.sum_budgetSlices budget)

/-- A run takes exactly the cycles that it is asked for. -/
theorem consumes_run (s : Machine) (cycles : ℕ) : s.Consumes (.command (.run cycles)) cycles := by
  refine .of_slices ?_ ?_
  · change s.run cycles = _
    rw [run_eq_ticks, ticks_eq_advances]
    rfl
  · exact (s.sum_budgetsSlices _).trans (s.sum_runBudgets cycles)

/-- A step takes the cycles that it tells of. -/
theorem consumes_step (s : Machine) : s.Consumes (.command .step) s.step.1 := by
  refine .of_slices ?_ ?_
  · change s.step.2 = _
    rw [step, stepWithin_eq_ticks, ticks_eq_advances]
    rfl
  · refine (s.sum_budgetsSlices _).trans ?_
    rw [List.sum_replicate_nat, Nat.mul_one]

end Machine

/-- A device keeps time from the moment at which it was placed. -/
structure Mapping.InTime (placed : Mapping) (place : ℕ) (moments : List Moment) (elapsed : ℕ)
    (m : Mapping) : Prop where
  /-- At each moment the device was given its clocks, and else it was accessed only. -/
  passes : placed.Passes place moments m
  /-- The divider stays. -/
  divider : m.divider = placed.divider
  /-- The next clock is not overdue. -/
  due : m.residue < m.divider
  /-- The clocks are the time that has elapsed, divided by the divider and rounded down, and what is
  left over is the remainder. This is so exactly as long as what comes together can be counted, -/
  clocks : Moment.clocksIn moments place = elapsed / m.divider.toNat ∧
      m.residue.toNat = elapsed % m.divider.toNat ↔
    ∀ u ∈ moments, u.Fits place
  /-- as it always can be in less than 2 ^ 32 cycles, -/
  fits_of_elapsed : elapsed < 2 ^ 32 → ∀ u ∈ moments, u.Fits place
  /-- and later on too, if each slice is shorter than that at least by the divider. -/
  fits_of_slices : (∀ u ∈ moments, u.slice + m.divider.toNat ≤ 2 ^ 32) →
    ∀ u ∈ moments, u.Fits place

namespace Machine

variable {s t : Machine}

/-- A device never drifts from the processor: as long as the two run together, whatever the host
does meanwhile, the clocks that it has been given since it was placed are the time of the processor
since then, divided by its divider, if no count overflows. Budgets and runs take exactly the cycles
that they are given, and steps those that they tell of. -/
theorem inTime_of_keepsTime {start finish : UInt16} {device : Device} {divider : UInt32}
    (hplace : s.place start finish device divider = .ok t) {actions : List Action}
    (hkeeps : ∀ action ∈ actions, action.keepsTime = true)
    (hlimit : s.cpu.counters.cycles.toNat + Moment.time (t.momentsOver actions) < 2 ^ 64) :
    (∃ m, (t.acts actions).bus.mappings[s.bus.mappings.length]? = some m ∧
      Mapping.InTime { start, finish, device, divider := max divider 1 } s.bus.mappings.length
        (t.momentsOver actions)
        ((t.acts actions).cpu.counters.cycles.toNat - s.cpu.counters.cycles.toNat) m) ∧
      (∀ budget, (t.acts actions).Consumes (.command (.tick budget)) budget) ∧
      (∀ cycles, (t.acts actions).Consumes (.command (.run cycles)) cycles) ∧
      (t.acts actions).Consumes (.command .step) (t.acts actions).step.1 := by
  refine ⟨?_, consumes_tick _, consumes_run _, consumes_step _⟩
  obtain ⟨-, -, -, rfl⟩ := place_eq_ok.mp hplace
  let placed : Mapping := { start, finish, device, divider := max divider 1 }
  have hruns := (s.append placed).runs_acts hkeeps
  have hplaced : (s.append placed).bus.mappings[s.bus.mappings.length]? = some placed := by
    rw [mappings_append, List.getElem?_concat_length]
  obtain ⟨m, hm, hpasses⟩ := hruns.mappings _ _ hplaced
  have htime : ((s.append placed).acts actions).cpu.counters.cycles.toNat =
      s.cpu.counters.cycles.toNat + Moment.time ((s.append placed).momentsOver actions) := by
    rw [hruns.cycles, UInt64.toNat_add, UInt64.toNat_ofNat', Nat.add_mod_mod]
    exact Nat.mod_eq_of_lt hlimit
  have hpos : 0 < placed.divider := Mapping.max_one_pos divider
  have haccounts := hpasses.accounts
  rw [htime, Nat.add_sub_cancel_left]
  refine ⟨m, hm, hpasses, haccounts.divider, haccounts.due hpos, ?_, ?_, ?_⟩
  · rw [haccounts.divider, haccounts.eq_div_mod_iff rfl hpos]
    exact Moment.overrunsIn_eq_zero
  · intro helapsed
    exact hpasses.fits_of_time ((Nat.zero_add _).symm ▸ helapsed)
  · rw [haccounts.divider]
    exact hpasses.fits_of_slices hpos

/-- A machine with a DMA controller. -/
def withController : Machine :=
  create.append { start := 0xD000, finish := 0xD005, device := .dma (.create "dma") }

/-- A host starts a timer and a transfer of three bytes, and then lets the machine run in pieces of
several kinds. -/
def pieces : List Action :=
  [.command (.write 0xD102 Timer.run), .command (.write 0xD004 3),
    .command (.write 0xD005 Dma.start), .command (.tick 2), .command (.tick 5),
    .command (.run 2), .command .step]

/-- The pieces make twelve cycles, with the transfer in some of them. In that time a timer with a
divider of five gets two clocks, and two cycles are left over. -/
theorem inTime_pieces :
    ∃ t m, withController.place 0xD100 0xD103 (.timer (.create "timer")) 5 = .ok t ∧
      (t.acts pieces).cpu.counters.cycles = 12 ∧ (t.acts pieces).bus.mappings[1]? = some m ∧
        Moment.clocksIn (t.momentsOver pieces) 1 = 12 / 5 ∧ m.residue.toNat = 12 % 5 := by
  let t := withController.append
    { start := 0xD100, finish := 0xD103, device := .timer (.create "timer"), divider := 5 }
  have hplace : withController.place 0xD100 0xD103 (.timer (.create "timer")) 5 = .ok t := rfl
  have hkeeps : ∀ action ∈ pieces, action.keepsTime = true := by decide
  have hlimit : withController.cpu.counters.cycles.toNat +
      Moment.time (t.momentsOver pieces) < 2 ^ 64 := by decide
  have hcycles : (t.acts pieces).cpu.counters.cycles = 12 := by decide
  obtain ⟨⟨m, hm, htime⟩, -⟩ := inTime_of_keepsTime hplace hkeeps hlimit
  have hclocks := htime.clocks.mpr (htime.fits_of_elapsed (by rw [hcycles]; decide))
  rw [hcycles, htime.divider] at hclocks
  exact ⟨t, m, hplace, hcycles, hm, hclocks⟩

end Machine

end W65C02
