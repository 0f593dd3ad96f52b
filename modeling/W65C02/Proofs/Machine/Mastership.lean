import W65C02.Proofs.Bus.Mastership
import W65C02.Proofs.Machine.Commands

/-!
# Sharing the bus of a machine

A host may place devices at any moment and give any commands, as long as no device has the name of
the processor and the host does not give back the bus in the name of a device. The processor and the
other masters then never use the bus together. A transfer stalls the processor, and whoever is
granted the bus keeps everybody else from it until it is given back, its transfer is complete, or
the bus is reset.
-/

namespace W65C02

/-- No access of the processor does anything but to the devices. -/
theorem MappedBus.sameArbitrationInvariant (bus : MappedBus) :
    Bus.Invariant fun port : Port MappedBus => bus.SameArbitration port.bus where
  read h := h.trans (sameArbitration_read _ _)
  write h := h.trans (sameArbitration_write _ _ _)
  setLines _ h := h

/-- A property of address maps that the devices have no part in, and that stays while machine clocks
pass, at a reset, and while the bus changes hands. -/
structure MappedBus.Invariant (P : MappedBus → Prop) : Prop where
  /-- The devices have no part in it. -/
  devices : ∀ {bus bus' : MappedBus}, P bus → bus.SameArbitration bus' → P bus'
  /-- It stays while machine clocks pass. -/
  tick : ∀ (port : Port MappedBus) (cycles : ℕ), P port.bus → P (MappedBus.tick port cycles).bus
  /-- It stays at a reset. -/
  reset : ∀ port : Port MappedBus, P port.bus → P (MappedBus.reset port).bus
  /-- It stays when the bus is asked for. -/
  request : ∀ {bus : MappedBus} (requestor : String), P bus → P (bus.request requestor).2
  /-- It stays when the bus is given back. -/
  release : ∀ {bus : MappedBus} (requestor : String), P bus → P (bus.release requestor)

namespace Machine

/-- What a host does with a machine. -/
inductive Action where
  /-- It places a device. -/
  | place (start finish : UInt16) (device : Device) (divider : UInt32)
  /-- It gives a command. -/
  | command (command : Command)

/-- The machine after an action. A device that does not find its place leaves it as it is. -/
def act (s : Machine) : Action → Machine
  | .place start finish device divider =>
    match s.place start finish device divider with
    | .ok s => s
    | .error _ => s
  | .command command => (s.execute command).2

/-- The machine after a number of actions. -/
def acts (s : Machine) : List Action → Machine
  | [] => s
  | first :: rest => (s.act first).acts rest

/-- No device with the name of the processor is placed, and the bus is not given back in the name
of a mapped device. -/
def Permits (s : Machine) : Action → Prop
  | .place _ _ device _ => device.name ≠ cpuName
  | .command (.releaseBus requestor) => ∀ slot ∈ s.layout, slot.name ≠ requestor
  | .command _ => True

/-- Each action is permitted when its turn comes. -/
def PermitsAll (s : Machine) : List Action → Prop
  | [] => True
  | first :: rest => s.Permits first ∧ (s.act first).PermitsAll rest

/-- Within a budget of cycles a transfer of a device with the given name is completed. -/
def CompletesWithin (s : Machine) (name : String) : ℕ → Prop
  | 0 => False
  | budget + 1 =>
    s.bus.transfer.isSome ∧
      (MappedBus.Completes (s.cpu.tick 1).port 1 name ∨ (s.advance 1).CompletesWithin name budget)

/-- Uses up several budgets of cycles. -/
def ticks (s : Machine) : List ℕ → Machine
  | [] => s
  | first :: rest => (s.tick first).ticks rest

/-- Within several budgets of cycles a transfer of a device with the given name is completed. -/
def CompletesAmong (s : Machine) (name : String) : List ℕ → Prop
  | [] => False
  | first :: rest => s.CompletesWithin name first ∨ (s.tick first).CompletesAmong name rest

/-- The budgets into which a run is divided. -/
def runBudgets (s : Machine) (cycles : ℕ) : List ℕ :=
  List.replicate (cycles / s.quantum) s.quantum ++ [cycles % s.quantum]

/-- An action ends the hold that a master has of the bus: the bus is given back in its name, a
transfer of that name is completed, or the bus is reset. -/
def EndsHold (s : Machine) (name : String) : Action → Prop
  | .command (.releaseBus requestor) => requestor = name
  | .command .reset | .command .resetBus => True
  | .command (.tickBus cycles) => MappedBus.Completes s.cpu.port cycles name
  | .command (.tick budget) => s.CompletesWithin name budget
  | .command (.run cycles) => s.CompletesAmong name (s.runBudgets cycles)
  | .command .step => s.CompletesAmong name (List.replicate s.step.1 1)
  | _ => False

/-- None of a number of actions ends the hold of a master. -/
def LeavesHold (s : Machine) (name : String) : List Action → Prop
  | [] => True
  | first :: rest => ¬ s.EndsHold name first ∧ (s.act first).LeavesHold name rest

variable {s : Machine}

/-- Some budgets after others. -/
theorem ticks_append (s : Machine) (first rest : List ℕ) :
    s.ticks (first ++ rest) = (s.ticks first).ticks rest := by
  induction first generalizing s with
  | nil => rfl
  | cons budget first ih => exact ih _

/-- A run is a number of ticks. -/
theorem run_eq_ticks (s : Machine) (cycles : ℕ) : s.run cycles = s.ticks (s.runBudgets cycles) := by
  have hrepeat (n : ℕ) :
      Nat.repeat (·.tick s.quantum) n s = s.ticks (List.replicate n s.quantum) := by
    induction n with
    | zero => rfl
    | succ n ih =>
      rw [List.replicate_succ', ticks_append, ← ih]
      rfl
  unfold run runBudgets
  rw [hrepeat, ticks_append]
  rfl

/-- The budgets of a run add up to its cycles. -/
theorem sum_runBudgets (s : Machine) (cycles : ℕ) : (s.runBudgets cycles).sum = cycles := by
  rw [runBudgets, List.sum_append, List.sum_replicate_nat, List.sum_singleton, Nat.mul_comm,
    Nat.div_add_mod]

/-- A step is a number of ticks by single cycles. -/
theorem stepWithin_eq_ticks (s : Machine) (limit : ℕ) :
    (s.stepWithin limit).2 = s.ticks (List.replicate (s.stepWithin limit).1 1) := by
  induction limit generalizing s with
  | zero => rfl
  | succ limit ih =>
    unfold stepWithin
    simp only
    split
    · rfl
    · split
      · rfl
      · rw [ih]
        rfl

section

variable (s : Machine)

/-- The cycles of the processor leave the arbitration alone. -/
theorem sameArbitration_tickCpu (budget : ℕ) :
    s.bus.SameArbitration (s.mapCpu (·.tick budget)).bus :=
  (MappedBus.sameArbitrationInvariant s.bus).tick (c := s.cpu) (.refl s.bus) budget

/-- A step of the processor alone leaves the arbitration as it is, -/
theorem sameArbitration_stepCpu : s.bus.SameArbitration (s.mapCpu (·.step.2)).bus :=
  (MappedBus.sameArbitrationInvariant s.bus).stepWithin (c := s.cpu) (.refl s.bus) Cpu.stepLimit

/-- and so does its reset. -/
theorem sameArbitration_resetCpu : s.bus.SameArbitration (s.mapCpu (·.reset)).bus := by
  have hreset := (MappedBus.sameArbitrationInvariant s.bus).reset (c := s.cpu) (.refl s.bus)
  exact hreset

end

/-- As the clock advances the bus is handed on only by the end of a transfer, -/
theorem handsOn_advance (s : Machine) (cycles : ℕ) :
    s.bus.HandsOn (s.advance cycles).bus
      (MappedBus.Completes (s.cpu.tick cycles).port cycles) := by
  have hcpu : s.bus.HandsOn _ fun _ => False :=
    .of_sameArbitration (s.sameArbitration_tickCpu cycles)
  refine (hcpu.trans (MappedBus.handsOn_tick (s.cpu.tick cycles).port cycles)).mono ?_
  rintro name (hnever | hdone)
  · exact hnever.elim
  · exact hdone

/-- Of the holds of the bus a budget of cycles ends those whose transfers it completes. -/
theorem handsOn_tick (s : Machine) (budget : ℕ) :
    s.bus.HandsOn (s.tick budget).bus (s.CompletesWithin · budget) := by
  induction budget generalizing s with
  | zero => exact .refl _
  | succ budget ih =>
    unfold tick
    split
    · next hbusy =>
      refine ((s.handsOn_advance 1).trans (ih _)).mono ?_
      exact fun name hdone => ⟨hbusy, hdone⟩
    · next hidle =>
      -- The processor starts no transfer, so none is under way when the devices get their clocks.
      refine (s.handsOn_advance (budget + 1)).mono ?_
      rintro name ⟨⟨transfer, hsome, -⟩, -⟩
      have hsame : (s.cpu.tick (budget + 1)).bus.transfer = s.bus.transfer :=
        (s.sameArbitration_tickCpu (budget + 1)).transfer
      have hbusy : s.bus.transfer = some transfer := hsame.symm.trans hsome
      rw [hbusy] at hidle
      exact absurd rfl hidle

/-- and so it is over several budgets. -/
theorem handsOn_ticks (s : Machine) (budgets : List ℕ) :
    s.bus.HandsOn (s.ticks budgets).bus (s.CompletesAmong · budgets) := by
  induction budgets generalizing s with
  | nil => exact .refl _
  | cons first rest ih => exact (s.handsOn_tick first).trans (ih _)

/-- A permitted command ends no hold but those that it is said to end. -/
theorem handsOn_execute (command : Command) (hpermitted : s.Permits (.command command)) :
    s.bus.HandsOn (s.execute command).2.bus (s.EndsHold · (.command command)) := by
  cases command with
  | tick budget => exact s.handsOn_tick budget
  | run cycles =>
    rw [show (s.execute (.run cycles)).2 = s.run cycles from rfl, run_eq_ticks]
    exact s.handsOn_ticks _
  | step =>
    rw [show (s.execute .step).2 = s.step.2 from rfl, step, stepWithin_eq_ticks]
    exact s.handsOn_ticks _
  | reset =>
    have hcpu := sameArbitration_resetCpu (s.mapPort MappedBus.reset)
    have hthen : (s.mapPort MappedBus.reset).bus.HandsOn _ fun _ => False :=
      .of_sameArbitration hcpu
    exact ((MappedBus.handsOn_reset s.cpu.port).trans hthen).mono fun _ _ => trivial
  | tickCpu budget => exact .of_sameArbitration (s.sameArbitration_tickCpu budget)
  | stepCpu => exact .of_sameArbitration s.sameArbitration_stepCpu
  | resetCpu => exact .of_sameArbitration s.sameArbitration_resetCpu
  | tickBus cycles => exact MappedBus.handsOn_tick s.cpu.port cycles
  | resetBus => exact MappedBus.handsOn_reset s.cpu.port
  | read address =>
    exact .of_sameArbitration (MappedBus.sameArbitration_read address s.cpu.port)
  | write address value =>
    exact .of_sameArbitration (MappedBus.sameArbitration_write address value s.cpu.port)
  | set register value =>
    simp only [execute]
    split
    · next cpu hset =>
      obtain ⟨regs, -, rfl⟩ := Cpu.set_eq hset
      exact .refl _
    · exact .refl _
  | requestBus requestor => exact s.bus.handsOn_request requestor
  | releaseBus requestor => exact s.bus.handsOn_release hpermitted
  | _ => exact .refl _

section

variable {P : MappedBus → Prop} (hP : MappedBus.Invariant P)

include hP

/-- What nothing on the bus can break still holds when the clock advances, -/
theorem invariant_advance (h : P s.bus) (cycles : ℕ) : P (s.advance cycles).bus :=
  hP.tick (s.cpu.tick cycles).port cycles
    (hP.devices h (s.sameArbitration_tickCpu cycles))

/-- when a budget is used up, -/
theorem invariant_tick (h : P s.bus) (budget : ℕ) : P (s.tick budget).bus := by
  induction budget generalizing s with
  | zero => exact h
  | succ budget ih =>
    unfold tick
    split
    · exact ih (invariant_advance hP h 1)
    · exact invariant_advance hP h (budget + 1)

/-- or several of them. -/
theorem invariant_ticks (h : P s.bus) (budgets : List ℕ) : P (s.ticks budgets).bus := by
  induction budgets generalizing s with
  | nil => exact h
  | cons first rest ih => exact ih (invariant_tick hP h first)

/-- No command breaks an invariant of the address map. -/
theorem invariant_execute (h : P s.bus) (command : Command) : P (s.execute command).2.bus := by
  cases command with
  | tick budget => exact invariant_tick hP h budget
  | run cycles =>
    rw [show (s.execute (.run cycles)).2 = s.run cycles from rfl, run_eq_ticks]
    exact invariant_ticks hP h _
  | step =>
    rw [show (s.execute .step).2 = s.step.2 from rfl, step, stepWithin_eq_ticks]
    exact invariant_ticks hP h _
  | reset =>
    have hdevices : P (s.mapPort MappedBus.reset).bus := hP.reset s.cpu.port h
    exact hP.devices hdevices (sameArbitration_resetCpu _)
  | tickCpu budget => exact hP.devices h (s.sameArbitration_tickCpu budget)
  | stepCpu => exact hP.devices h s.sameArbitration_stepCpu
  | resetCpu => exact hP.devices h s.sameArbitration_resetCpu
  | tickBus cycles => exact hP.tick s.cpu.port cycles h
  | resetBus => exact hP.reset s.cpu.port h
  | read address => exact hP.devices h (MappedBus.sameArbitration_read address s.cpu.port)
  | write address value =>
    exact hP.devices h (MappedBus.sameArbitration_write address value s.cpu.port)
  | set register value =>
    simp only [execute]
    split
    · next cpu hset =>
      obtain ⟨regs, -, rfl⟩ := Cpu.set_eq hset
      exact h
    · exact h
  | requestBus requestor => exact hP.request requestor h
  | releaseBus requestor => exact hP.release requestor h
  | request | release | pulseNmi | releaseAll | acknowledge | restoreLines => exact h

end

/-- A device finds its place on a range that is in order and free, or nothing changes. -/
theorem act_place_cases (s : Machine) (start finish : UInt16) (device : Device) (divider : UInt32) :
    s.act (.place start finish device divider) = s ∨
      start ≤ finish ∧ (∀ slot ∈ s.layout, slot.meets start finish = false) ∧
        s.act (.place start finish device divider) =
          s.append { start, finish, device, divider := max divider 1 } := by
  simp only [act]
  cases hplaced : s.place start finish device divider with
  | error e => exact .inl rfl
  | ok t =>
    obtain ⟨horder, -, hfree, rfl⟩ := place_eq_ok.mp hplaced
    exact .inr ⟨UInt16.not_lt.mp horder, hfree, rfl⟩

/-- What every command keeps, and every device that finds its place, is kept by any actions. -/
theorem acts_induction (P : Machine → Prop)
    (hcommand : ∀ (s : Machine) (command : Command), P s → P (s.execute command).2)
    (hplace : ∀ (s : Machine) (m : Mapping), P s → m.start ≤ m.finish →
      (∀ slot ∈ s.layout, slot.meets m.start m.finish = false) → P (s.append m))
    (h : P s) (actions : List Action) : P (s.acts actions) := by
  induction actions generalizing s with
  | nil => exact h
  | cons first rest ih =>
    refine ih ?_
    cases first with
    | command command => exact hcommand s command h
    | place start finish device divider =>
      rcases s.act_place_cases start finish device divider with hsame | ⟨horder, hfree, hplaced⟩
      · rwa [hsame]
      · rw [hplaced]
        exact hplace s _ h horder hfree

/-- After a permitted action the map is still orderly. -/
theorem orderly_act {action : Action} (h : s.bus.Orderly) (hpermitted : s.Permits action) :
    (s.act action).bus.Orderly := by
  cases action with
  | command command => exact (handsOn_execute command hpermitted).orderly h
  | place start finish device divider =>
    rcases s.act_place_cases start finish device divider with hsame | ⟨horder, hfree, hplaced⟩
    · rw [hsame]
      exact h
    · rw [hplaced]
      exact h.append hpermitted horder hfree

/-- A holder keeps the bus as long as no action ends its hold. -/
theorem holder_act {action : Action} (h : s.bus.Orderly) (hpermitted : s.Permits action)
    {name : String} (hholder : s.bus.holder = some name) (hkeeps : ¬ s.EndsHold name action) :
    (s.act action).bus.holder = some name := by
  cases action with
  | command command => exact (handsOn_execute command hpermitted).holder h name hholder hkeeps
  | place start finish device divider =>
    rcases s.act_place_cases start finish device divider with hsame | ⟨-, -, hplaced⟩
    · rw [hsame]
      exact hholder
    · rw [hplaced]
      exact hholder

/-- Permitted actions leave the map orderly. -/
theorem orderly_acts {actions : List Action} (h : s.bus.Orderly)
    (hpermitted : s.PermitsAll actions) : (s.acts actions).bus.Orderly := by
  induction actions generalizing s with
  | nil => exact h
  | cons first rest ih => exact ih (orderly_act h hpermitted.1) hpermitted.2

/-- Over permitted actions the holder stays unless one of them ends its hold. -/
theorem holder_acts {actions : List Action} (h : s.bus.Orderly) (hpermitted : s.PermitsAll actions)
    {name : String} (hholder : s.bus.holder = some name) (hkeeps : s.LeavesHold name actions) :
    (s.acts actions).bus.holder = some name := by
  induction actions generalizing s with
  | nil => exact hholder
  | cons first rest ih =>
    exact ih (orderly_act h hpermitted.1) hpermitted.2
      (holder_act h hpermitted.1 hholder hkeeps.1) hkeeps.2

/-- Neither the processor nor any other requestor is given the bus. -/
structure RefusesOthers (s : Machine) (name : String) : Prop where
  /-- The processor does not have the bus. -/
  stalled : Bus.cpuHasBus s.bus = false
  /-- Everybody else is refused. -/
  refused : ∀ requestor, requestor ≠ name → (s.requestBus requestor).1 = false

/-- While one master holds the bus all others are refused. -/
theorem refusesOthers_of_holder {name : String} (h : s.bus.holder = some name) :
    s.RefusesOthers name := by
  constructor
  · change s.bus.holder.isNone = false
    rw [h]
    rfl
  · intro requestor hother
    refine Bool.eq_false_iff.mpr fun hgranted => ?_
    have hsame := (s.bus.request_fst requestor).mp hgranted name h
    exact hother hsame.symm

/-- A transfer is carried out: its owner is mapped and holds the bus, it has bytes left, and all
that the processor does in a cycle is to count it as a lost one. -/
structure CarriesOut (s : Machine) (transfer : TransferProgress) : Prop where
  /-- The owner is mapped and holds the bus. -/
  owner : ∃ name, s.bus.nameAt? transfer.owner.toNat = some name ∧ s.bus.holder = some name
  /-- Bytes are left. -/
  unfinished : transfer.index < transfer.block.length
  /-- The processor is stalled. -/
  stalled : s.cpu.cycle =
    (false, { s.cpu with
      counters.cycles := s.cpu.counters.cycles + 1
      counters.stallCycles := s.cpu.counters.stallCycles + 1 })

/-- The processor, the devices and the host share the bus without getting into each other's way. -/
structure SharesBus (s : Machine) : Prop where
  /-- The processor is never the holder. -/
  holder : s.bus.holder ≠ some cpuName
  /-- The processor has the bus exactly if it is the master. -/
  master : Bus.cpuHasBus s.bus = true ↔ s.bus.master = cpuName
  /-- A transfer under way is carried out. -/
  transfer : ∀ transfer, s.bus.transfer = some transfer → s.CarriesOut transfer
  /-- A request is granted exactly if nobody else holds the bus. -/
  granted : ∀ requestor, (s.requestBus requestor).1 = true ↔
    ∀ holder, s.bus.holder = some holder → holder = requestor
  /-- From a grant to anyone but the processor on all others are refused until the hold ends. -/
  exclusive : ∀ requestor, requestor ≠ cpuName → (s.requestBus requestor).1 = true →
    ∀ later, (s.requestBus requestor).2.PermitsAll later →
      (s.requestBus requestor).2.LeavesHold requestor later →
      ((s.requestBus requestor).2.acts later).RefusesOthers requestor
  /-- The same goes for a holder that has been granted the bus before, be it a device. -/
  held : ∀ name, s.bus.holder = some name → ∀ later, s.PermitsAll later → s.LeavesHold name later →
    (s.acts later).RefusesOthers name

/-- On an orderly map the bus is shared. -/
theorem sharesBus_of_orderly (h : s.bus.Orderly) : s.SharesBus where
  holder := h.holder
  master := by
    change s.bus.holder.isNone = true ↔ s.bus.holder.getD cpuName = cpuName
    cases hholder : s.bus.holder with
    | none => exact iff_of_true rfl rfl
    | some name =>
      refine iff_of_false nofun fun hcpu => h.holder ?_
      rw [hholder]
      exact congrArg some hcpu
  transfer := by
    intro transfer htransfer
    obtain ⟨name, hname, hholder⟩ := h.owner transfer htransfer
    have hstalled := (refusesOthers_of_holder hholder).stalled
    exact ⟨⟨name, hname, hholder⟩, h.unfinished transfer htransfer, Cpu.cycle_of_stalled hstalled⟩
  granted := s.bus.request_fst
  exclusive := by
    intro requestor hother hgranted later hpermitted hkeeps
    have hheld := s.bus.holder_request hother hgranted
    have hrequest : s.Permits (.command (.requestBus requestor)) := trivial
    exact refusesOthers_of_holder (holder_acts (orderly_act h hrequest) hpermitted hheld hkeeps)
  held := by
    intro name hholder later hpermitted hkeeps
    exact refusesOthers_of_holder (holder_acts h hpermitted hholder hkeeps)

/-- Whatever a host does with a machine from the start, if only it places no device with the name of
the processor and does not give back the bus in the name of a device, the bus is shared. -/
theorem sharesBus_of_permitted {cpu : CpuSettings} {clock : ClockSettings}
    (h : ofSettings cpu clock = .ok s) {actions : List Action} (hpermitted : s.PermitsAll actions) :
    (s.acts actions).SharesBus := by
  have hempty : s.bus.Orderly := by
    rw [(ofSettings_eq h).2]
    exact .of_idle .nil nofun rfl
  exact sharesBus_of_orderly (orderly_acts hempty hpermitted)

/-- A host maps a DMA controller and asks it for the transfer of a byte. -/
def startCopy : List Action :=
  [.place 0xD000 0xD005 (.dma (.create "dma")) 1, .command (.write 0xD004 1),
    .command (.write 0xD005 Dma.start), .command (.tick 1)]

/-- The bus is shared with a transfer under way. -/
theorem sharesBus_with_transfer :
    (create.acts startCopy).bus.transfer = some ⟨0, ⟨0, 0, 1⟩, 0, none⟩ ∧
      (create.acts startCopy).SharesBus := by
  have hcreate : ofSettings {} {} = .ok create := rfl
  have hname : (Device.dma (.create "dma")).name ≠ cpuName := by decide
  have hpermitted : create.PermitsAll startCopy := ⟨hname, trivial, trivial, trivial, trivial⟩
  exact ⟨by decide, sharesBus_of_permitted hcreate hpermitted⟩

end Machine

end W65C02
