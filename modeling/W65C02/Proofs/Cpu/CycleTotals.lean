import W65C02.Proofs.Cpu.Acceptance
import W65C02.Proofs.Instruction.Totals

/-!
# Cycle totals after taking over a snapshot

Instructions that a processor has fetched itself never have a total beyond a byte. A snapshot may
bring an instruction whose work is not done yet, and the check does not look at the cycles recorded
as added to it. Together with what the work adds they may be more than a byte holds. That
instruction is the only one: if its exact total fits into a byte, then so do all totals from then
on.
-/

namespace W65C02

variable {β : Type} [Bus β]

/-- The bytes of an instruction are being fetched. -/
def Phase.IsFetching (phase : Phase) : Prop := phase = .fetch ∨ phase = .decode

/-- The bytes of an instruction are there and its work is not done. -/
def Phase.IsWorking (phase : Phase) : Prop :=
  phase = .resolveAddress ∨ phase = .operate ∨ phase = .updateFlags

/-- An instruction is being fetched, or at work, or done with its work. -/
theorem Phase.trichotomy (phase : Phase) :
    phase.IsFetching ∨ phase.IsWorking ∨ phase = .retire := by
  cases phase <;> simp [IsFetching, IsWorking]

/-- While it is fetched its work is not done. -/
theorem Phase.IsFetching.ne_retire {phase : Phase} (h : phase.IsFetching) : phase ≠ .retire := by
  rintro rfl
  rcases h with h | h <;> cases h

/-- While it is at work that is not done. -/
theorem Phase.IsWorking.ne_retire {phase : Phase} (h : phase.IsWorking) : phase ≠ .retire := by
  rintro rfl
  rcases h with h | h | h <;> cases h

namespace Execution

/-- What the work of an instruction is done on in a cycle after the first, if this is the cycle in
which it is done: the instruction with all its bytes. -/
def settling? (e : Execution β) : Option (Execution β) :=
  match e.inFlight.activity, e.inFlight.phase with
  | .instruction, .fetch | .instruction, .decode =>
    let needed := operandSize e.inFlight.opcode
    let next := if e.inFlight.fetched.toNat < needed then e.fetchOperand else e
    if needed ≤ next.inFlight.fetched.toNat then some next else none
  | .instruction, .resolveAddress | .instruction, .operate | .instruction, .updateFlags => some e
  | _, _ => none

/-- An instruction whose work is not done, with its missing bytes fetched. -/
def unsettled? (e : Execution β) : Option (Execution β) :=
  match e.inFlight.activity, e.inFlight.phase with
  | .instruction, .fetch | .instruction, .decode =>
    some (fetchOperand^[operandSize e.inFlight.opcode - e.inFlight.fetched.toNat] e)
  | .instruction, .resolveAddress | .instruction, .operate | .instruction, .updateFlags => some e
  | _, _ => none

/-- The counts of an instruction come out exact when its work is done. -/
structure SettlesExactly (e : Execution β) (irqVector : UInt16) : Prop where
  /-- The exact total fits into a byte. -/
  fits : e.exactTotal ≤ 255
  /-- What branching adds is added without a carry. -/
  extraCycles : (e.finishWork irqVector).inFlight.extraCycles.toNat =
    e.inFlight.extraCycles.toNat + e.addedCycles
  /-- The total is the exact one. -/
  total : (e.finishWork irqVector).inFlight.total.toNat = e.exactTotal
  /-- It is no less than the constant part. -/
  base : (Descriptor.ofOpcode e.inFlight.opcode).baseCycles ≤
    (e.finishWork irqVector).inFlight.total

variable {e f : Execution β} {settings : CpuSettings} (irqVector : UInt16)

/-- All that matters is whether the exact total fits into a byte. -/
theorem settlesExactly_iff (hphase : e.inFlight.phase ≠ .retire) :
    e.SettlesExactly irqVector ↔ e.exactTotal ≤ 255 := by
  refine ⟨SettlesExactly.fits, fun hfits => ?_⟩
  obtain ⟨hextra, htotal⟩ := finishWork_cycles irqVector hphase
  have hexact : e.exactTotal = (Descriptor.ofOpcode e.inFlight.opcode).exactCycles
    (e.inFlight.extraCycles.toNat + e.addedCycles) e.located.inFlight.pageCrossed
    (e.regs.flag Status.decimal) := rfl
  unfold Descriptor.exactCycles at hexact
  have htoNat : (e.finishWork irqVector).inFlight.total.toNat = e.exactTotal := by
    rw [htotal]
    exact UInt8.toNat_ofNat_of_lt' (Nat.lt_succ_of_le hfits)
  refine ⟨hfits, ?_, htoNat, ?_⟩
  · rw [hextra]
    exact UInt8.toNat_ofNat_of_lt' (show _ < 256 by omega)
  · rw [UInt8.le_iff_toNat_le, htoNat]
    omega

section

variable (hactivity : e.inFlight.activity = .instruction)

include hactivity

/-- While an instruction is fetched its work is done in the next cycle if that brings the last
byte. -/
theorem settling?_of_fetching (hphase : e.inFlight.phase.IsFetching) {next : Execution β}
    (hnext : (if e.inFlight.fetched.toNat < operandSize e.inFlight.opcode then e.fetchOperand
      else e) = next) :
    e.settling? =
      if operandSize e.inFlight.opcode ≤ next.inFlight.fetched.toNat then some next else none := by
  subst hnext
  rcases hphase with hphase | hphase <;> simp only [settling?, hactivity, hphase]

/-- Once an instruction is at work, the work is done in the next cycle. -/
theorem settling?_of_working (hphase : e.inFlight.phase.IsWorking) : e.settling? = some e := by
  rcases hphase with hphase | hphase | hphase <;> simp only [settling?, hactivity, hphase]

/-- While an instruction is fetched its work is done when the missing bytes are there. -/
theorem unsettled?_of_fetching (hphase : e.inFlight.phase.IsFetching) :
    e.unsettled? =
      some (fetchOperand^[operandSize e.inFlight.opcode - e.inFlight.fetched.toNat] e) := by
  rcases hphase with hphase | hphase <;> simp only [unsettled?, hactivity, hphase]

/-- Once it is at work no bytes are missing. -/
theorem unsettled?_of_working (hphase : e.inFlight.phase.IsWorking) : e.unsettled? = some e := by
  rcases hphase with hphase | hphase | hphase <;> simp only [unsettled?, hactivity, hphase]

/-- The next cycle does the work. -/
theorem resume_of_working (hphase : e.inFlight.phase.IsWorking) :
    e.resume irqVector = e.finishWork irqVector := by
  rcases hphase with hphase | hphase | hphase <;> simp only [resume, hactivity, hphase]

end

/-- When the work is done there is no more of it in the next cycle, -/
theorem settling?_of_retire (hphase : e.inFlight.phase = .retire) : e.settling? = none := by
  unfold settling?
  rw [hphase]
  cases e.inFlight.activity <;> rfl

/-- nor later. -/
theorem unsettled?_of_retire (hphase : e.inFlight.phase = .retire) : e.unsettled? = none := by
  unfold unsettled?
  rw [hphase]
  cases e.inFlight.activity <;> rfl

/-- An interrupt sequence has no total to be fixed. -/
theorem unsettled?_of_interrupt {vector : InterruptVector}
    (hactivity : e.inFlight.activity = .interrupt vector) : e.unsettled? = none := by
  simp only [unsettled?, hactivity]

/-- Fetching bytes changes neither the opcode nor what has been added. -/
theorem iterate_fetchOperand (e : Execution β) (count : ℕ) :
    (fetchOperand^[count] e).inFlight.opcode = e.inFlight.opcode ∧
      (fetchOperand^[count] e).inFlight.extraCycles = e.inFlight.extraCycles := by
  induction count with
  | zero => exact ⟨rfl, rfl⟩
  | succ count ih =>
    rw [Function.iterate_succ_apply']
    exact ih

/-- It is an instruction whose work is done. -/
theorem activity_of_settling (h : e.settling? = some f) : e.inFlight.activity = .instruction := by
  cases hactivity : e.inFlight.activity with
  | instruction => rfl
  | interrupt vector => simp only [settling?, hactivity, reduceCtorEq] at h

/-- A cycle that fetches at most a byte leaves all counts of cycles alone. -/
theorem inFlight_of_fetching {next : Execution β}
    (hnext : (if e.inFlight.fetched.toNat < operandSize e.inFlight.opcode then e.fetchOperand
      else e) = next) :
    ∃ operand fetched, next.inFlight = { e.inFlight with operand, fetched } := by
  subst hnext
  split <;> exact ⟨_, _, rfl⟩

/-- The work is done in a cycle that finds an instruction with work left and all its bytes but at
most one. In that cycle nothing else happens to it. -/
theorem resume_of_settling (h : e.settling? = some f) :
    e.resume irqVector = f.finishWork irqVector ∧ e.inFlight.phase ≠ .retire ∧
      f.inFlight.phase = e.inFlight.phase ∧ f.inFlight.extraCycles = e.inFlight.extraCycles := by
  have hactivity := activity_of_settling h
  rcases e.inFlight.phase.trichotomy with hphase | hphase | hphase
  · rw [settling?_of_fetching hactivity hphase rfl] at h
    obtain ⟨hall, hsome⟩ := Option.ite_none_right_eq_some.mp h
    obtain rfl := Option.some.inj hsome
    obtain ⟨operand, fetched, hflight⟩ := inFlight_of_fetching (e := e) rfl
    rw [resume_of_fetching irqVector hactivity hphase rfl, if_pos hall, hflight]
    exact ⟨rfl, hphase.ne_retire, rfl, rfl⟩
  · rw [settling?_of_working hactivity hphase] at h
    obtain rfl := Option.some.inj h
    exact ⟨resume_of_working irqVector hactivity hphase, hphase.ne_retire, rfl, rfl⟩
  · rw [settling?_of_retire hphase] at h
    cases h

/-- The instruction with one more cycle spent on it. -/
def spendCycle (e : Execution β) : Execution β := { e with inFlight := e.inFlight.spendCycle }

/-- The exact total does not depend on the cycles spent. -/
theorem exactTotal_spendCycle (e : Execution β) : e.spendCycle.exactTotal = e.exactTotal :=
  e.exactTotal_of_elapsed _

/-- Unless two bytes are missing the work is done in the next cycle. -/
theorem settling?_spendCycle (hfits : e.inFlight.Fits settings)
    (hlacks : ¬ e.inFlight.LacksTwo) :
    e.spendCycle.settling? = e.unsettled?.map spendCycle := by
  cases hactivity : e.inFlight.activity with
  | interrupt vector =>
    rw [unsettled?_of_interrupt hactivity, Option.map_none, Option.eq_none_iff_forall_ne_some]
    intro f hf
    have hinstruction : e.spendCycle.inFlight.activity = .instruction := activity_of_settling hf
    exact nomatch hactivity.symm.trans hinstruction
  | instruction =>
    have hspent : e.spendCycle.inFlight.activity = .instruction := hactivity
    rcases e.inFlight.phase.trichotomy with hphase | hphase | hphase
    · have hbytes : e.inFlight.fetched.toNat ≤ operandSize e.inFlight.opcode := by
        unfold InFlight.Fits at hfits
        rwa [hactivity] at hfits
      have hsize : operandSize e.inFlight.opcode ≤ 2 :=
        (Descriptor.ofOpcode e.inFlight.opcode).mode.operandSize_le_two
      rw [unsettled?_of_fetching hactivity hphase]
      by_cases hmissing : e.inFlight.fetched.toNat < operandSize e.inFlight.opcode
      · have hone : operandSize e.inFlight.opcode - e.inFlight.fetched.toNat = 1 := by
          by_contra hmore
          have hzero : e.inFlight.fetched.toNat = 0 := by omega
          exact hlacks ⟨hactivity, hphase, UInt8.toNat_inj.mp hzero, by omega⟩
        have hall : operandSize e.spendCycle.inFlight.opcode ≤
            e.spendCycle.fetchOperand.inFlight.fetched.toNat := by
          rw [toNat_fetched_fetchOperand (e := e.spendCycle) hmissing]
          change operandSize e.inFlight.opcode ≤ e.inFlight.fetched.toNat + 1
          omega
        rw [settling?_of_fetching hspent hphase (if_pos hmissing), hone, if_pos hall]
        rfl
      · have hnone : operandSize e.inFlight.opcode - e.inFlight.fetched.toNat = 0 := by omega
        have hall : operandSize e.spendCycle.inFlight.opcode ≤
          e.spendCycle.inFlight.fetched.toNat := Nat.not_lt.mp hmissing
        rw [settling?_of_fetching hspent hphase (if_neg hmissing), hnone, if_pos hall]
        rfl
    · rw [settling?_of_working hspent hphase, unsettled?_of_working hactivity hphase]
      rfl
    · rw [settling?_of_retire (e := e.spendCycle) hphase, unsettled?_of_retire hphase]
      rfl

/-- If two bytes are missing it is not. -/
theorem settling?_of_lacksTwo (h : e.inFlight.LacksTwo) : e.settling? = none := by
  have hmissing : e.inFlight.fetched.toNat < operandSize e.inFlight.opcode := by
    rw [h.fetched, h.operand]
    decide
  have hmore : ¬ operandSize e.inFlight.opcode ≤ e.fetchOperand.inFlight.fetched.toNat := by
    rw [toNat_fetched_fetchOperand hmissing, h.fetched, h.operand]
    decide
  rw [settling?_of_fetching h.activity h.phase (if_pos hmissing), if_neg hmore]

/-- The first of two bytes makes no difference to the instruction with all of them. -/
theorem unsettled?_fetchOperand (h : e.inFlight.LacksTwo) :
    ∃ f, e.unsettled? = some f ∧ e.spendCycle.fetchOperand.unsettled? = some f.spendCycle := by
  have hphase : e.spendCycle.fetchOperand.inFlight.phase.IsFetching := h.phase
  have hactivity : e.spendCycle.fetchOperand.inFlight.activity = .instruction := h.activity
  have hone : e.spendCycle.fetchOperand.inFlight.fetched = 0 + 1 :=
    congrArg (· + 1) h.fetched
  have htwo : operandSize e.spendCycle.fetchOperand.inFlight.opcode = 2 := h.operand
  refine ⟨fetchOperand^[2] e, ?_, ?_⟩
  · rw [unsettled?_of_fetching h.activity h.phase, h.operand, h.fetched]
    rfl
  · rw [unsettled?_of_fetching hactivity hphase, htwo, hone]
    rfl

/-- When the work is done nothing is left but waiting. -/
theorem phase_finishWork (e : Execution β) : (e.finishWork irqVector).inFlight.phase = .retire := by
  unfold finishWork
  cases hphase : e.inFlight.phase with
  | retire => exact hphase
  | fetch | decode | resolveAddress | operate | updateFlags => rfl

/-- In any other cycle no cycles are added to an instruction and no total is fixed. -/
theorem resume_of_not_settling (hactivity : e.inFlight.activity = .instruction)
    (h : e.settling? = none) :
    ∃ operand fetched, (e.resume irqVector).inFlight = { e.inFlight with operand, fetched } := by
  rcases e.inFlight.phase.trichotomy with hphase | hphase | hphase
  · rw [settling?_of_fetching hactivity hphase rfl, ite_eq_right_iff] at h
    rw [resume_of_fetching irqVector hactivity hphase rfl, if_neg fun hall => nomatch h hall]
    exact inFlight_of_fetching rfl
  · rw [settling?_of_working hactivity hphase] at h
    cases h
  · rw [resume_of_retire irqVector hphase]
    exact ⟨_, _, rfl⟩

end Execution

/-- No more than a number of cycles has been added to an instruction whose work is not done. -/
def InFlight.AddsAtMost (count : ℕ) (flight : InFlight) : Prop :=
  flight.activity = .instruction → flight.phase ≠ .retire → flight.extraCycles.toNat ≤ count

/-- What a processor has in flight by itself has nothing added to it before its work is done. -/
theorem InFlight.Consistent.addsAtMost {settings : CpuSettings} {flight : InFlight}
    (h : flight.Consistent settings) : flight.AddsAtMost 0 := by
  intro hactivity hphase
  cases h with
  | fetching h => rw [h.extraCycles]; rfl
  | waiting h => exact absurd h.phase hphase
  | acknowledged h =>
    obtain ⟨line, hline⟩ := h.activity
    rw [hline] at hactivity
    cases hactivity
  | served h => exact absurd h.phase hphase

namespace Cpu

/-- What the work of an instruction is done on in the next cycle, if it is done in that cycle. An
instruction without operand bytes is fetched in the same cycle. -/
def settling? (c : Cpu β) : Option (Execution β) :=
  if Bus.cpuHasBus c.bus then
    match c.inFlight with
    | some flight => (⟨c.regs, c.runMode, flight.spendCycle, c.port⟩ : Execution β).settling?
    | none =>
      match c.wake? with
      | some runMode =>
        let (opcode, port) := c.port.read c.regs.pc
        if c.interrupts.lines.pending (c.regs.flag Status.irqDisable) = false ∧
          operandSize opcode = 0 then some ⟨c.regs.nextByte, runMode, .ofOpcode opcode, port⟩
        else none
      | none => none
  else none

/-- If the work of an instruction is done in the next cycle, then its counts come out exact. -/
def SettlesExactly (c : Cpu β) : Prop :=
  ∀ e, c.settling? = some e → e.SettlesExactly c.settings.irqVector

/-- No more than a number of cycles has been added to an instruction whose work is not done. -/
def AddsAtMost (count : ℕ) (c : Cpu β) : Prop :=
  ∀ flight, c.inFlight = some flight → flight.AddsAtMost count

variable {c : Cpu β} {e : Execution β}

/-- If the work of an instruction is done in the next cycle, then that is all the cycle does. -/
theorem cycle_of_settling (h : c.settling? = some e) :
    c.cycle = (true, c.clocked.settle (e.finishWork c.settings.irqVector)) ∧
      e.inFlight.phase ≠ .retire ∧
      ∀ count, c.AddsAtMost count → e.inFlight.extraCycles.toNat ≤ count := by
  unfold settling? at h
  cases hbus : Bus.cpuHasBus c.bus with
  | false =>
    rw [hbus, if_neg Bool.false_ne_true] at h
    cases h
  | true =>
    rw [hbus, if_pos rfl] at h
    cases hflight : c.inFlight with
    | some flight =>
      simp only [hflight] at h
      obtain ⟨hresume, hphase, hsame, hextra⟩ :=
        Execution.resume_of_settling c.settings.irqVector h
      refine ⟨?_, hsame.trans_ne hphase, fun count hcount => ?_⟩
      · rw [cycle_of_inFlight hbus hflight, hresume]
      · rw [hextra]
        exact hcount flight hflight (Execution.activity_of_settling h) hphase
    | none =>
      simp only [hflight] at h
      cases hwake : c.wake? with
      | none =>
        simp only [hwake, reduceCtorEq] at h
      | some runMode =>
        simp only [hwake] at h
        obtain ⟨⟨hlines, hsize⟩, hsome⟩ := Option.ite_none_right_eq_some.mp h
        obtain rfl := Option.some.inj hsome
        refine ⟨?_, nofun, fun count _ => Nat.zero_le count⟩
        rw [cycle_of_fetch hbus hflight hwake hlines]
        simp only [Execution.fetchOpcode, if_pos hsize]

/-- A cycle adds to an instruction only when it does its work. -/
theorem AddsAtMost.cycle {count : ℕ} (h : c.AddsAtMost count) : c.cycle.2.AddsAtMost count := by
  intro next hnext
  cases hbus : Bus.cpuHasBus c.bus with
  | false =>
    rw [cycle_of_stalled hbus] at hnext
    exact h next hnext
  | true =>
    cases hflight : c.inFlight with
    | some flight =>
      rw [cycle_of_inFlight hbus hflight] at hnext
      obtain ⟨-, rfl⟩ := settle_inFlight_eq_some.mp hnext
      intro hactivity hphase
      rw [Execution.activity_resume] at hactivity
      cases hsettles :
        (⟨c.regs, c.runMode, flight.spendCycle, c.port⟩ : Execution β).settling? with
      | some f =>
        obtain ⟨hresume, hbefore, hsame, -⟩ :=
          Execution.resume_of_settling c.settings.irqVector hsettles
        rw [hresume] at hphase
        exact absurd (Execution.phase_finishWork _ f) hphase
      | none =>
        obtain ⟨_, _, hsame⟩ :=
          Execution.resume_of_not_settling c.settings.irqVector hactivity hsettles
        rw [hsame] at hphase ⊢
        exact h flight hflight hactivity hphase
    | none =>
      cases hwake : c.wake? with
      | none =>
        rw [cycle_of_halted hbus hflight hwake] at hnext
        exact h next hnext
      | some runMode =>
        rw [cycle_of_wake hbus hflight hwake] at hnext
        intro hactivity hphase
        exact Nat.le_trans ((consistent_start hnext).addsAtMost hactivity hphase) (Nat.zero_le _)

/-- In later cycles no more is added. -/
theorem AddsAtMost.tick {count : ℕ} (h : c.AddsAtMost count) (budget : ℕ) :
    (c.tick budget).AddsAtMost count := by
  induction budget generalizing c with
  | zero => exact h
  | succ budget ih => exact ih h.cycle

/-- Where no more than 247 cycles have been added no total is beyond a byte. -/
theorem AddsAtMost.settlesExactly {count : ℕ} (h : c.AddsAtMost count) (hcount : count ≤ 247) :
    c.SettlesExactly := by
  intro e hsettles
  obtain ⟨-, hphase, hextra⟩ := cycle_of_settling hsettles
  have hmax := e.exactTotal_le
  have hadded := hextra count h
  exact (Execution.settlesExactly_iff _ hphase).mpr (by omega)

/-- What an accepted snapshot has in flight, with its missing bytes fetched, if its work is not
done. -/
def unsettled? (c : Cpu β) : Option (Execution β) :=
  c.inFlight.bind fun flight => (⟨c.regs, c.runMode, flight, c.port⟩ : Execution β).unsettled?

section

variable (hsole : ∀ bus : β, Bus.cpuHasBus bus = true) {flight : InFlight}

include hsole

/-- Without two missing bytes the work of an instruction is done in the next cycle, and all that
matters there is its exact total. -/
theorem settlesExactly_iff_of_not_lacksTwo (hflight : c.inFlight = some flight)
    (hfits : flight.Fits c.settings) (hlacks : ¬ flight.LacksTwo) :
    c.SettlesExactly ↔ ∀ e, c.unsettled? = some e → e.exactTotal ≤ 255 := by
  have hsettling : c.settling? = c.unsettled?.map Execution.spendCycle := by
    simp only [settling?, unsettled?, hsole, if_true, hflight, Option.bind_some]
    exact Execution.settling?_spendCycle (e := ⟨c.regs, c.runMode, flight, c.port⟩) hfits hlacks
  constructor
  · intro hexact e he
    have hspent := (hexact e.spendCycle (hsettling.trans (congrArg _ he))).fits
    rwa [e.exactTotal_spendCycle] at hspent
  · intro htotal e he
    obtain ⟨-, hphase, -⟩ := cycle_of_settling he
    obtain ⟨f, hf, rfl⟩ := Option.map_eq_some_iff.mp (hsettling.symm.trans he)
    refine (Execution.settlesExactly_iff _ hphase).mpr ?_
    rw [f.exactTotal_spendCycle]
    exact htotal f hf

/-- Afterwards all totals come out exact. -/
theorem settlesExactly_tick_iff_of_not_lacksTwo (hflight : c.inFlight = some flight)
    (h : flight.Resumable c.settings) (hlacks : ¬ flight.LacksTwo) :
    (∀ n, (c.tick n).SettlesExactly) ↔ ∀ e, c.unsettled? = some e → e.exactTotal ≤ 255 := by
  have hfirst := settlesExactly_iff_of_not_lacksTwo hsole hflight h.fits hlacks
  have hlater : c.cycle.2.AddsAtMost 0 := by
    intro next hnext _ hphase
    rw [cycle_of_inFlight (hsole c.bus) hflight] at hnext
    obtain ⟨-, rfl⟩ := settle_inFlight_eq_some.mp hnext
    have hwork := Execution.workDone_resume
      (e := ⟨c.regs, c.runMode, flight.spendCycle, c.port⟩) c.settings.irqVector h.fits
      (InFlight.serviceCycle_le_spendCycle h.started) fun hspent => hlacks hspent.of_spendCycle
    exact absurd hwork.phase hphase
  rw [← hfirst]
  refine ⟨fun hexact => hexact 0, fun hexact n => ?_⟩
  cases n with
  | zero => exact hexact
  | succ n => exact (hlater.tick n).settlesExactly (Nat.zero_le _)

/-- With two missing bytes the next cycle fetches one of them, and no work is done in it. -/
theorem fetches_of_lacksTwo (hflight : c.inFlight = some flight) (hlacks : flight.LacksTwo) :
    c.SettlesExactly ∧
      (∃ value, c.cycle.2.inFlight = some (flight.spendCycle.storeOperand value)) ∧
      ∃ f, c.unsettled? = some f ∧ c.cycle.2.unsettled? = some f.spendCycle := by
  let e : Execution β := ⟨c.regs, c.runMode, flight, c.port⟩
  have hcycle := cycle_of_lacksTwo (hsole c.bus) hflight hlacks
  rw [settle_of_not_isDone _ (hlacks.isDone_storeOperand _)] at hcycle
  refine ⟨fun f hf => ?_, ⟨_, congrArg (·.2.inFlight) hcycle⟩, ?_⟩
  · simp only [settling?, hsole, if_true, hflight] at hf
    have hnone := e.spendCycle.settling?_of_lacksTwo hlacks.spendCycle
    change e.spendCycle.settling? = some f at hf
    rw [hnone] at hf
    cases hf
  · obtain ⟨f, hf, hnext⟩ := Execution.unsettled?_fetchOperand (e := e) hlacks
    refine ⟨f, ?_, ?_⟩
    · rw [unsettled?, hflight]
      exact hf
    · rw [hcycle]
      exact hnext

/-- On a bus without another master only the instruction in flight matters. -/
theorem settlesExactly_tick_iff (h : c.Resumable) :
    (∀ n, (c.tick n).SettlesExactly) ↔ ∀ e, c.unsettled? = some e → e.exactTotal ≤ 255 := by
  cases hflight : c.inFlight with
  | none =>
    have hnothing : c.AddsAtMost 0 := by
      intro flight hsome
      rw [hflight] at hsome
      cases hsome
    have hunsettled : ∀ e, c.unsettled? = some e → e.exactTotal ≤ 255 := by
      intro e he
      rw [unsettled?, hflight] at he
      cases he
    exact iff_of_true (fun n => (hnothing.tick n).settlesExactly (Nat.zero_le _)) hunsettled
  | some flight =>
    have hresumable := h.inFlight flight hflight
    by_cases hlacks : flight.LacksTwo
    · -- The first cycle fetches a byte, and from there on only one is missing.
      obtain ⟨hfirst, ⟨value, hnext⟩, f, hbefore, hafter⟩ :=
        fetches_of_lacksTwo hsole hflight hlacks
      have hresumes : (flight.spendCycle.storeOperand value).Resumable c.cycle.2.settings := by
        rw [settings_cycle]
        exact hlacks.resumable_storeOperand hresumable.started value
      have hrest := settlesExactly_tick_iff_of_not_lacksTwo hsole (c := c.cycle.2) hnext hresumes
        (hlacks.not_lacksTwo_storeOperand value)
      have hsame : (∀ e, c.cycle.2.unsettled? = some e → e.exactTotal ≤ 255) ↔
          ∀ e, c.unsettled? = some e → e.exactTotal ≤ 255 := by
        simp only [hbefore, hafter, Option.some.injEq, forall_eq', f.exactTotal_spendCycle]
      rw [← hsame, ← hrest]
      refine ⟨fun hexact n => hexact (n + 1), fun hexact n => ?_⟩
      cases n with
      | zero => exact hfirst
      | succ n => exact hexact n
    · exact settlesExactly_tick_iff_of_not_lacksTwo hsole hflight hresumable hlacks

end

end Cpu

end W65C02
