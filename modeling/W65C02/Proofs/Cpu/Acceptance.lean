import W65C02.Bus.Memory
import W65C02.Proofs.Cpu.Consistency

/-!
# Acceptance under execution

A processor accepts more snapshots than it can produce. Over plain memory it goes on to accept its
own snapshot after any number of cycles, with one exception. An instruction without its two operand
bytes may be recorded with a number of cycles that its next cycle exceeds. That is accepted, but one
cycle later the processor refuses its own snapshot. From the second cycle on all is well again.
-/

namespace W65C02

namespace InFlight

/-- The part of the check that does not count cycles: an instruction has no more operand bytes than
its opcode takes, and an interrupt uses the vector of its line. -/
def Fits (settings : CpuSettings) (flight : InFlight) : Prop :=
  match flight.activity with
  | .instruction => flight.fetched.toNat ≤ operandSize flight.opcode
  | .interrupt vector => vector.address = settings.vectorOf vector.line

/-- What the processor can go on with: a cycle has been spent, and the bytes or the vector are
right. -/
structure Resumable (settings : CpuSettings) (flight : InFlight) : Prop where
  /-- A cycle has been spent. -/
  started : flight.elapsed ≠ 0
  /-- The operand bytes or the vector are right. -/
  fits : flight.Fits settings

/-- An instruction takes two operand bytes, and none of them has been fetched. -/
structure LacksTwo (flight : InFlight) : Prop where
  /-- An instruction is in flight. -/
  activity : flight.activity = .instruction
  /-- It is being fetched. -/
  phase : flight.phase = .fetch ∨ flight.phase = .decode
  /-- No operand byte has been fetched. -/
  fetched : flight.fetched = 0
  /-- There are two of them. -/
  operand : operandSize flight.opcode = 2

/-- An instruction lacks two operand bytes although its cycles are known, and the next cycle is
beyond them. -/
structure RunsOver (flight : InFlight) : Prop extends LacksTwo flight where
  /-- The number of cycles is known. -/
  known : flight.total ≠ 0
  /-- The next cycle is beyond it. -/
  beyond : flight.total < flight.spendCycle.elapsed

/-- The work is done, and a number of cycles have been spent. -/
structure WorkDone (settings : CpuSettings) (elapsed : UInt8) (flight : InFlight) : Prop where
  /-- Nothing is left but waiting. -/
  phase : flight.phase = .retire
  /-- The cycles spent. -/
  elapsed : flight.elapsed = elapsed
  /-- The operand bytes or the vector are right. -/
  fits : flight.Fits settings

variable {settings : CpuSettings} {flight : InFlight}

/-- What the check asks, with the counts of cycles apart from the rest. -/
theorem validate_eq_ok_iff_fits :
    flight.validate settings = .ok () ↔
      flight.elapsed ≠ 0 ∧ (flight.total = 0 ∨ flight.elapsed ≤ flight.total) ∧
        (flight.phase = .retire → flight.total ≠ 0) ∧ flight.Fits settings :=
  validate_eq_ok

/-- The processor can go on with what passes the check. -/
theorem resumable_of_validate (h : flight.validate settings = .ok ()) :
    flight.Resumable settings := by
  obtain ⟨hstarted, -, -, hfits⟩ := validate_eq_ok_iff_fits.mp h
  exact ⟨hstarted, hfits⟩

/-- An instruction fits the settings if it has no more bytes than its opcode takes. -/
theorem fits_of_instruction (hactivity : flight.activity = .instruction)
    (hbytes : flight.fetched.toNat ≤ operandSize flight.opcode) : flight.Fits settings := by
  unfold Fits
  rw [hactivity]
  exact hbytes

namespace LacksTwo

/-- A cycle fetches nothing by itself, -/
theorem spendCycle (h : flight.LacksTwo) : flight.spendCycle.LacksTwo :=
  ⟨h.activity, h.phase, h.fetched, h.operand⟩

/-- so before it as many bytes were missing. -/
theorem of_spendCycle (h : flight.spendCycle.LacksTwo) : flight.LacksTwo :=
  ⟨h.activity, h.phase, h.fetched, h.operand⟩

/-- With both bytes missing the work has not been done. -/
theorem phase_ne_retire (h : flight.LacksTwo) : flight.phase ≠ .retire := by
  rcases h.phase with hfetch | hdecode
  · rw [hfetch]
    decide
  · rw [hdecode]
    decide

/-- After the first of two operand bytes only one is missing. -/
theorem not_lacksTwo_storeOperand (h : flight.LacksTwo) (value : UInt8) :
    ¬ (flight.spendCycle.storeOperand value).LacksTwo := by
  intro hlacks
  have hfetched : flight.fetched + 1 = 0 := hlacks.fetched
  rw [h.fetched] at hfetched
  exact absurd hfetched (by decide)

/-- So an instruction does not run over then. -/
theorem not_runsOver_storeOperand (h : flight.LacksTwo) (value : UInt8) :
    ¬ (flight.spendCycle.storeOperand value).RunsOver :=
  fun hover => h.not_lacksTwo_storeOperand value hover.toLacksTwo

/-- It is not complete either. -/
theorem isDone_storeOperand (h : flight.LacksTwo) (value : UInt8) :
    (flight.spendCycle.storeOperand value).isDone = false := by
  have hphase : (flight.spendCycle.storeOperand value).phase ≠ .retire := h.phase_ne_retire
  simp only [isDone, hphase, decide_false, Bool.false_and]

end LacksTwo

/-- The count of cycles does not go back to zero. -/
theorem spendCycle_elapsed_ne_zero (h : flight.elapsed ≠ 0) : flight.spendCycle.elapsed ≠ 0 := by
  intro hzero
  have hstarted := serviceCycle_le_spendCycle h
  rw [hzero] at hstarted
  exact absurd hstarted (by decide)

/-- What waits for its last cycle passes the check. -/
theorem WorkDone.validate {elapsed : UInt8} (h : flight.WorkDone settings elapsed)
    (hstarted : serviceCycle ≤ elapsed) (hdone : flight.isDone = false) :
    flight.validate settings = .ok () := by
  rw [isDone_eq_false h.phase] at hdone
  have hpos : 2 ≤ flight.elapsed.toNat := by
    rw [h.elapsed]
    exact UInt8.le_iff_toNat_le.mp hstarted
  have hne {x : UInt8} (hx : 0 < x.toNat) : x ≠ 0 := by
    rintro rfl
    exact Nat.lt_irrefl 0 hx
  exact validate_eq_ok_iff_fits.mpr ⟨hne (by omega), .inr (UInt8.le_iff_toNat_le.mpr (by omega)),
    fun _ => hne (by omega), h.fits⟩

/-- Nothing that a processor comes to from power-on runs over. -/
theorem Consistent.not_runsOver (h : flight.Consistent settings) : ¬ flight.RunsOver := by
  intro hover
  have hactivity := hover.activity
  cases h with
  | fetching h => exact hover.known h.total
  | waiting h => exact hover.phase_ne_retire h.phase
  | acknowledged h =>
    obtain ⟨line, hline⟩ := h.activity
    rw [hline] at hactivity
    cases hactivity
  | served h => exact hover.phase_ne_retire h.phase

namespace LacksTwo

/-- With the first of two operand bytes the processor can go on. -/
theorem resumable_storeOperand (h : flight.LacksTwo) (helapsed : flight.elapsed ≠ 0)
    (value : UInt8) : (flight.spendCycle.storeOperand value).Resumable settings := by
  refine ⟨spendCycle_elapsed_ne_zero helapsed, fits_of_instruction h.activity ?_⟩
  change (flight.fetched + 1).toNat ≤ operandSize flight.opcode
  rw [h.fetched, h.operand]
  decide

/-- It also passes the check then, unless it has run over. -/
theorem validate_storeOperand_iff (h : flight.LacksTwo) (helapsed : flight.elapsed ≠ 0)
    (value : UInt8) :
    (flight.spendCycle.storeOperand value).validate settings = .ok () ↔ ¬ flight.RunsOver := by
  have hresumable : (flight.spendCycle.storeOperand value).Resumable settings :=
    h.resumable_storeOperand helapsed value
  rw [validate_eq_ok_iff_fits]
  constructor
  · rintro ⟨-, hcount, -⟩ hover
    rcases hcount with hzero | hle
    · exact hover.known hzero
    · exact UInt8.not_le.mpr hover.beyond hle
  · intro hover
    refine ⟨hresumable.started, ?_, fun hretire => absurd hretire h.phase_ne_retire,
      hresumable.fits⟩
    by_cases hzero : flight.total = 0
    · exact .inl hzero
    · refine .inr (UInt8.not_lt.mp fun hbeyond => ?_)
      exact hover { toLacksTwo := h, known := hzero, beyond := hbeyond }

end LacksTwo

end InFlight

namespace Execution

variable {β : Type} [Bus β] {settings : CpuSettings} {e : Execution β}

/-- Doing the work leaves the bytes and the cycles spent alone. -/
theorem workDone_finishWork (irqVector : UInt16) (h : e.inFlight.Fits settings) :
    (e.finishWork irqVector).inFlight.WorkDone settings e.inFlight.elapsed := by
  have hconclude (d : Descriptor) {f : Execution β} (hfits : f.inFlight.Fits settings)
      (helapsed : f.inFlight.elapsed = e.inFlight.elapsed) :
      (f.conclude d).inFlight.WorkDone settings e.inFlight.elapsed :=
    ⟨rfl, helapsed, hfits⟩
  have hperform (d : Descriptor) {f : Execution β} (hfits : f.inFlight.Fits settings)
      (helapsed : f.inFlight.elapsed = e.inFlight.elapsed) :
      ((d.operation.perform d.mode irqVector f).conclude d).inFlight.WorkDone settings
        e.inFlight.elapsed := by
    obtain ⟨_, _, _, hflight⟩ := d.operation.perform_inFlight d.mode irqVector f
    refine hconclude d ?_ ?_
    · rw [hflight]
      exact hfits
    · rw [hflight]
      exact helapsed
  unfold finishWork
  cases hphase : e.inFlight.phase with
  | fetch | decode | resolveAddress => exact hperform _ (f := e.locateOperand _) h rfl
  | operate => exact hperform _ h rfl
  | updateFlags => exact hconclude _ h rfl
  | retire => exact ⟨hphase, rfl, h⟩

/-- If two operand bytes are missing a cycle fetches one of them and nothing else happens. -/
theorem resume_eq_of_lacksTwo (irqVector : UInt16) (h : e.inFlight.LacksTwo) :
    e.resume irqVector = e.fetchOperand := by
  have hmissing : e.inFlight.fetched.toNat < operandSize e.inFlight.opcode := by
    rw [h.fetched, h.operand]
    decide
  have hmore : ¬ operandSize e.inFlight.opcode ≤ e.fetchOperand.inFlight.fetched.toNat := by
    rw [toNat_fetched_fetchOperand hmissing, h.fetched, h.operand]
    decide
  rw [resume_of_fetching irqVector h.activity h.phase (if_pos hmissing), if_neg hmore]

/-- If fewer than two operand bytes are missing a cycle does the work. -/
theorem workDone_of_fetching (irqVector : UInt16) (h : e.inFlight.Fits settings)
    (hactivity : e.inFlight.activity = .instruction)
    (hphase : e.inFlight.phase = .fetch ∨ e.inFlight.phase = .decode)
    (hlacks : ¬ e.inFlight.LacksTwo) :
    (e.resume irqVector).inFlight.WorkDone settings e.inFlight.elapsed := by
  by_cases hmissing : e.inFlight.fetched.toNat < operandSize e.inFlight.opcode
  · have hnext := toNat_fetched_fetchOperand hmissing
    have hall : operandSize e.inFlight.opcode ≤ e.fetchOperand.inFlight.fetched.toNat := by
      by_contra hmore
      have hsize : operandSize e.inFlight.opcode ≤ 2 :=
        (Descriptor.ofOpcode e.inFlight.opcode).mode.operandSize_le_two
      have hzero : e.inFlight.fetched.toNat = 0 := by omega
      exact hlacks ⟨hactivity, hphase, UInt8.toNat_inj.mp hzero, by omega⟩
    have hfits : e.fetchOperand.inFlight.Fits settings := by
      refine InFlight.fits_of_instruction hactivity ?_
      rw [hnext]
      exact hmissing
    have helapsed : e.fetchOperand.inFlight.elapsed = e.inFlight.elapsed := rfl
    rw [resume_of_fetching irqVector hactivity hphase (if_pos hmissing), if_pos hall, ← helapsed]
    exact workDone_finishWork irqVector hfits
  · rw [resume_of_fetching irqVector hactivity hphase (if_neg hmissing),
      if_pos (Nat.not_lt.mp hmissing)]
    exact workDone_finishWork irqVector h

/-- A cycle does the work of whatever is in flight, unless two operand bytes are missing. -/
theorem workDone_resume (irqVector : UInt16) (h : e.inFlight.Fits settings)
    (hstarted : serviceCycle ≤ e.inFlight.elapsed) (hlacks : ¬ e.inFlight.LacksTwo) :
    (e.resume irqVector).inFlight.WorkDone settings e.inFlight.elapsed := by
  have hretire (hphase : e.inFlight.phase = .retire) :
      (e.resume irqVector).inFlight.WorkDone settings e.inFlight.elapsed := by
    rw [resume_of_retire irqVector hphase]
    exact ⟨hphase, rfl, h⟩
  cases hactivity : e.inFlight.activity with
  | interrupt vector =>
    by_cases hphase : e.inFlight.phase = .retire
    · exact hretire hphase
    · have hserve : e.resume irqVector = e.serve vector := by
        simp only [resume, hactivity, if_pos (And.intro hphase hstarted)]
      rw [hserve, serve_inFlight]
      exact ⟨rfl, rfl, h⟩
  | instruction =>
    cases hphase : e.inFlight.phase with
    | fetch => exact workDone_of_fetching irqVector h hactivity (.inl hphase) hlacks
    | decode => exact workDone_of_fetching irqVector h hactivity (.inr hphase) hlacks
    | retire => exact hretire hphase
    | resolveAddress | operate | updateFlags =>
      simp only [resume, hactivity, hphase]
      exact workDone_finishWork irqVector h

end Execution

namespace Cpu

variable {β : Type}

/-- The processor accepts its own snapshot. -/
def AcceptsItself (c : Cpu β) : Prop :=
  ∃ d, c.restore c.snapshot = .ok d

/-- It does so if bit 5 of the status byte is set and what is in flight passes the check. -/
theorem acceptsItself_iff {c : Cpu β} :
    c.AcceptsItself ↔
      c.regs.flag Status.unused = true ∧
        ∀ flight, c.inFlight = some flight → flight.validate c.settings = .ok () := by
  unfold AcceptsItself
  simp only [restore_eq_ok, exists_and_left, exists_eq, and_true]
  exact CpuSnapshot.validate_eq_ok

/-- Bit 5 of the status byte is set, and the processor can go on with what is in flight. -/
structure Resumable (c : Cpu β) : Prop where
  /-- Bit 5 of the status byte is set. -/
  unusedSet : c.regs.flag Status.unused = true
  /-- The processor can go on with what is in flight. -/
  inFlight : ∀ flight, c.inFlight = some flight → flight.Resumable c.settings

/-- An instruction is in flight whose next cycle is beyond the cycles recorded for it. -/
def RunsOver (c : Cpu β) : Prop :=
  ∃ flight, c.inFlight = some flight ∧ flight.RunsOver

/-- A processor that has taken over a snapshot can go on from there. -/
theorem Resumable.of_restore {c d : Cpu β} {state : CpuSnapshot} (h : c.restore state = .ok d) :
    d.Resumable ∧ d.AcceptsItself := by
  obtain ⟨hvalid, rfl⟩ := restore_eq_ok.mp h
  obtain ⟨hunused, hflights⟩ := CpuSnapshot.validate_eq_ok.mp hvalid
  refine ⟨⟨hunused, fun flight hflight => ?_⟩, acceptsItself_iff.mpr ⟨hunused, hflights⟩⟩
  exact InFlight.resumable_of_validate (hflights flight hflight)

variable [Bus β] {c : Cpu β}

/-- If two operand bytes are missing a cycle fetches the first of them. -/
theorem cycle_of_lacksTwo (hbus : Bus.cpuHasBus c.bus = true) {flight : InFlight}
    (hflight : c.inFlight = some flight) (h : flight.LacksTwo) :
    c.cycle = (true, c.clocked.settle
      (⟨c.regs, c.runMode, flight.spendCycle, c.port⟩ : Execution β).fetchOperand) := by
  rw [cycle_of_inFlight hbus hflight, Execution.resume_eq_of_lacksTwo _ h.spendCycle]

/-- In its next cycle the instruction fetches the first of its two bytes. -/
theorem inFlight_cycle_of_lacksTwo (hbus : Bus.cpuHasBus c.bus = true) {flight : InFlight}
    (hflight : c.inFlight = some flight) (h : flight.LacksTwo) :
    ∃ value, c.cycle.2.inFlight = some (flight.spendCycle.storeOperand value) := by
  rw [cycle_of_lacksTwo hbus hflight h]
  exact ⟨_, settle_inFlight_eq_some.mpr ⟨h.isDone_storeOperand _, rfl⟩⟩

/-- The processor can go on with what is in flight after a cycle, and that does not run over. It
passes the check unless something has run over just now. -/
theorem Resumable.inFlight_cycle (h : c.Resumable) (hbus : Bus.cpuHasBus c.bus = true)
    {next : InFlight} (hnext : c.cycle.2.inFlight = some next) :
    next.Resumable c.settings ∧ ¬ next.RunsOver ∧
      (¬ c.RunsOver → next.validate c.settings = .ok ()) := by
  cases hflight : c.inFlight with
  | some flight =>
    -- Unless two operand bytes are missing, all the work that is left is done in this cycle.
    have helapsed := (h.inFlight flight hflight).started
    by_cases htwo : flight.LacksTwo
    · obtain ⟨value, hvalue⟩ := inFlight_cycle_of_lacksTwo hbus hflight htwo
      rw [hvalue] at hnext
      cases hnext
      refine ⟨htwo.resumable_storeOperand helapsed value, htwo.not_runsOver_storeOperand value, ?_⟩
      intro hover
      exact (htwo.validate_storeOperand_iff helapsed value).mpr
        fun hflies => hover ⟨flight, hflight, hflies⟩
    · rw [cycle_of_inFlight hbus hflight] at hnext
      obtain ⟨hdone, rfl⟩ := settle_inFlight_eq_some.mp hnext
      have hstarted := InFlight.serviceCycle_le_spendCycle helapsed
      have hwork := Execution.workDone_resume
        (e := ⟨c.regs, c.runMode, flight.spendCycle, c.port⟩) c.settings.irqVector
        (h.inFlight flight hflight).fits hstarted fun hspent => htwo hspent.of_spendCycle
      have hvalid := hwork.validate hstarted hdone
      exact ⟨InFlight.resumable_of_validate hvalid,
        fun hover => hover.phase_ne_retire hwork.phase, fun _ => hvalid⟩
  | none =>
    cases hwake : c.wake? with
    | none =>
      rw [cycle_of_halted hbus hflight hwake] at hnext
      change c.inFlight = some next at hnext
      rw [hflight] at hnext
      cases hnext
    | some runMode =>
      rw [cycle_of_wake hbus hflight hwake] at hnext
      have hconsistent := consistent_start hnext
      have hvalid := hconsistent.validate
      exact ⟨InFlight.resumable_of_validate hvalid, hconsistent.not_runsOver, fun _ => hvalid⟩

/-- A cycle leads to a state from which the processor can go on and where nothing runs over. -/
theorem Resumable.cycle (h : c.Resumable) (hbus : Bus.cpuHasBus c.bus = true) :
    c.cycle.2.Resumable ∧ ¬ c.cycle.2.RunsOver := by
  refine ⟨⟨flag_unused_cycle h.unusedSet, fun next hnext => ?_⟩, ?_⟩
  · rw [settings_cycle]
    exact (h.inFlight_cycle hbus hnext).1
  · rintro ⟨next, hnext, hover⟩
    exact (h.inFlight_cycle hbus hnext).2.1 hover

/-- After a cycle the processor accepts its own snapshot unless what was in flight has run over. -/
theorem Resumable.acceptsItself_cycle_iff (h : c.Resumable) (hbus : Bus.cpuHasBus c.bus = true) :
    c.cycle.2.AcceptsItself ↔ ¬ c.RunsOver := by
  rw [acceptsItself_iff, settings_cycle]
  constructor
  · rintro ⟨-, hvalid⟩ ⟨flight, hflight, hover⟩
    obtain ⟨value, hnext⟩ := inFlight_cycle_of_lacksTwo hbus hflight hover.toLacksTwo
    have hspent := (h.inFlight flight hflight).started
    exact (hover.toLacksTwo.validate_storeOperand_iff hspent value).mp (hvalid _ hnext) hover
  · intro hover
    exact ⟨flag_unused_cycle h.unusedSet, fun next hnext =>
      (h.inFlight_cycle hbus hnext).2.2 hover⟩

section

variable {c d : Cpu Memory} {state : CpuSnapshot}

/-- Over plain memory a processor can go on after any number of cycles, and from the first cycle on
nothing runs over. -/
theorem Resumable.tick_succ (h : d.Resumable) (budget : ℕ) :
    (d.tick (budget + 1)).Resumable ∧ ¬ (d.tick (budget + 1)).RunsOver := by
  induction budget with
  | zero => exact h.cycle rfl
  | succ budget ih =>
    rw [Cpu.tick_succ]
    exact ih.1.cycle rfl

/-- Over plain memory a processor that has taken over a snapshot accepts its own snapshot after any
number of cycles, except after a single cycle if what it has taken over runs over. -/
theorem acceptsItself_tick_iff (h : c.restore state = .ok d) (budget : ℕ) :
    (d.tick budget).AcceptsItself ↔ ¬ (budget = 1 ∧ d.RunsOver) := by
  obtain ⟨hresumable, haccepts⟩ := Resumable.of_restore h
  match budget with
  | 0 => exact iff_of_true haccepts fun hone => absurd hone.1 (by decide)
  | 1 =>
    rw [eq_self_iff_true, true_and]
    exact hresumable.acceptsItself_cycle_iff rfl
  | budget + 2 =>
    obtain ⟨hbefore, hnever⟩ := hresumable.tick_succ budget
    rw [Cpu.tick_succ, hbefore.acceptsItself_cycle_iff rfl]
    exact iff_of_true hnever fun hone => absurd hone.1 (by omega)

end

/-- An instruction of three bytes, recorded after its first cycle as if that were its last. -/
def cutShort : CpuSnapshot :=
  { registers := { p := Status.unused }
    runMode := .running
    counters := {}
    pending := {}
    inFlight := some { InFlight.ofOpcode 0xAD with total := 1 } }

/-- A processor that is at rest in empty memory. -/
def atRest : Cpu Memory := { settings := {}, regs := {}, bus := .zeros }

/-- The check lets the snapshot pass. -/
theorem restore_cutShort : atRest.restore cutShort = .ok (atRest.apply cutShort) := by
  rfl

/-- In the next cycle the instruction runs over its recorded end. -/
theorem runsOver_cutShort : (atRest.apply cutShort).RunsOver :=
  ⟨_, rfl,
    { activity := rfl
      phase := .inr rfl
      fetched := rfl
      operand := by decide
      known := by decide
      beyond := by decide }⟩

/-- The instruction that was cut short is refused after one cycle and accepted after two. -/
theorem acceptsItself_tick_cutShort :
    ¬ ((atRest.apply cutShort).tick 1).AcceptsItself ∧
      ((atRest.apply cutShort).tick 2).AcceptsItself := by
  constructor
  · rw [acceptsItself_tick_iff restore_cutShort, not_not]
    exact ⟨rfl, runsOver_cutShort⟩
  · rw [acceptsItself_tick_iff restore_cutShort]
    exact fun hone => absurd hone.1 (by decide)

/-- So acceptance is not closed under execution. -/
theorem not_acceptsItself_tick :
    ¬ ∀ (c d : Cpu Memory) (state : CpuSnapshot) (budget : ℕ), c.settings.validate = .ok () →
      c.restore state = .ok d → (d.tick budget).AcceptsItself := by
  intro hclosed
  have haccepts := hclosed atRest _ cutShort 1 rfl restore_cutShort
  have hresumable := (Resumable.of_restore restore_cutShort).1
  exact (hresumable.acceptsItself_cycle_iff rfl).mp haccepts runsOver_cutShort

end Cpu

end W65C02
