import W65C02.Proofs.Cpu.Calls
import W65C02.Proofs.Cpu.Cycle
import W65C02.Proofs.Instruction.InFlight
import W65C02.Proofs.Instruction.Lockstep
import W65C02.Proofs.Interrupt.SourceSet

/-!
# Consistency of the processor

A cycle leads from one thing that can be in flight to the next or to an instruction boundary, and
it keeps bit 5 of the status byte. So whatever a processor comes to, it accepts its own snapshot.
-/

namespace W65C02

namespace Execution

variable {β : Type} [Bus β]

/-- The work of an instruction changes what is in flight in a few places: the effective address
becomes known, branching may add cycles, and the number of cycles is fixed. -/
theorem finishWork_inFlight (irqVector : UInt16) {e : Execution β}
    (hphase : e.inFlight.phase = .decode) (hextra : e.inFlight.extraCycles = 0) :
    ∃ added ≤ (Descriptor.ofOpcode e.inFlight.opcode).operation.branchCycles,
      ∃ address crossed decimalMode result,
        (e.finishWork irqVector).inFlight =
          { e.inFlight with
            phase := .retire
            effectiveAddress := address
            pageCrossed := crossed
            total := (Descriptor.ofOpcode e.inFlight.opcode).cycles (UInt8.ofNat added) crossed
              decimalMode
            extraCycles := UInt8.ofNat added
            nzResult := result } := by
  let d := Descriptor.ofOpcode e.inFlight.opcode
  let located := e.locateOperand d.mode
  obtain ⟨added, hadded, result, hflight⟩ :=
    d.operation.perform_inFlight d.mode irqVector located
  have hzero : located.inFlight.extraCycles = 0 := hextra
  rw [hzero, UInt8.zero_add] at hflight
  have hfinish : e.finishWork irqVector =
      (d.operation.perform d.mode irqVector located).conclude d := by
    simp only [finishWork, hphase]
    rfl
  refine ⟨added, hadded, located.inFlight.effectiveAddress, located.inFlight.pageCrossed, ?_⟩
  rw [hfinish]
  refine ⟨((d.operation.perform d.mode irqVector located).conclude d).regs.flag Status.decimal,
    result, ?_⟩
  simp only [conclude, hflight]
  rfl

/-- When all operand bytes are there the work is done, and the instruction waits if that was not
its last cycle. -/
theorem consistent_of_hasFetched {settings : CpuSettings} (irqVector : UInt16) {e : Execution β}
    (h : e.inFlight.HasFetched) {f : Execution β}
    (hf : f = if operandSize e.inFlight.opcode ≤ e.inFlight.fetched.toNat then
      e.finishWork irqVector else e) (hdone : f.inFlight.isDone = false) :
    f.inFlight.Consistent settings := by
  by_cases hall : operandSize e.inFlight.opcode ≤ e.inFlight.fetched.toNat
  · rw [if_pos hall] at hf
    obtain ⟨added, hadded, address, crossed, decimalMode, result, hflight⟩ :=
      finishWork_inFlight irqVector h.phase h.extraCycles
    rw [← hf] at hflight
    have hbytes := Descriptor.operandSize_lt_baseCycles e.inFlight.opcode
    have hextra : (UInt8.ofNat added).toNat ≤
        (Descriptor.ofOpcode e.inFlight.opcode).operation.branchCycles :=
      Nat.le_trans (Nat.mod_le added _) hadded
    have htotal := Descriptor.cycles_toNat e.inFlight.opcode hextra crossed decimalMode
    have hpast := Descriptor.operandSize_lt_exactCycles e.inFlight.opcode
      (UInt8.ofNat added).toNat crossed decimalMode
    have helapsed := h.elapsed
    have hfetched := h.fetched
    rw [hflight] at hdone ⊢
    rw [InFlight.isDone_eq_false rfl] at hdone
    exact .waiting
      { activity := h.activity
        phase := rfl
        fetched := by simp only; omega
        elapsed := Nat.le_of_eq helapsed.symm
        unfinished := hdone
        extraCycles := hextra
        total := ⟨decimalMode, htotal⟩ }
  · rw [if_neg hall] at hf
    rw [hf]
    exact .fetching { h with missing := by omega }

/-- Work on an instruction or an interrupt sequence leaves it that. -/
theorem activity_finishWork (e : Execution β) (irqVector : UInt16) :
    (e.finishWork irqVector).inFlight.activity = e.inFlight.activity := by
  have hperform (d : Descriptor) (f : Execution β) :
      ((d.operation.perform d.mode irqVector f).conclude d).inFlight.activity =
        f.inFlight.activity := by
    obtain ⟨_, _, _, hflight⟩ := d.operation.perform_inFlight d.mode irqVector f
    exact (congrArg InFlight.activity hflight :)
  unfold finishWork
  cases e.inFlight.phase with
  | fetch | decode | resolveAddress => exact hperform _ (e.locateOperand _)
  | operate => exact hperform _ e
  | updateFlags | retire => rfl

/-- In a cycle the activity in flight stays the same. -/
theorem activity_resume (e : Execution β) (irqVector : UInt16) :
    (e.resume irqVector).inFlight.activity = e.inFlight.activity := by
  have hfetching (hactivity : e.inFlight.activity = .instruction)
      (hphase : e.inFlight.phase = .fetch ∨ e.inFlight.phase = .decode) :
      (e.resume irqVector).inFlight.activity = e.inFlight.activity := by
    have hnext : (if e.inFlight.fetched.toNat < operandSize e.inFlight.opcode then e.fetchOperand
        else e).inFlight.activity = e.inFlight.activity := by
      split <;> rfl
    rw [resume_of_fetching irqVector hactivity hphase rfl]
    generalize (if e.inFlight.fetched.toNat < operandSize e.inFlight.opcode then e.fetchOperand
      else e) = next at hnext ⊢
    split
    · exact (activity_finishWork next irqVector).trans hnext
    · exact hnext
  cases hactivity : e.inFlight.activity with
  | interrupt vector =>
    simp only [resume, hactivity]
    split
    · rw [serve_inFlight]
      exact hactivity
    · exact hactivity
  | instruction =>
    rw [← hactivity]
    cases hphase : e.inFlight.phase with
    | fetch => exact hfetching hactivity (.inl hphase)
    | decode => exact hfetching hactivity (.inr hphase)
    | resolveAddress | operate | updateFlags =>
      simp only [resume, hactivity, hphase]
      exact activity_finishWork e irqVector ▸ hactivity
    | retire => rw [resume_of_retire irqVector hphase]

/-- With its opcode an instruction begins. -/
theorem activity_fetchOpcode (e : Execution β) (irqVector : UInt16) :
    (e.fetchOpcode irqVector).inFlight.activity = .instruction := by
  simp only [fetchOpcode]
  split
  · rw [activity_finishWork]
    rfl
  · rfl

variable {e : Execution β}

omit [Bus β] in
/-- The end of the work keeps the fixed bits of the status byte, -/
theorem conclude_keepsFixedBits (d : Descriptor) : e.regs.KeepsFixedBits (e.conclude d).regs := by
  unfold conclude
  cases e.inFlight.nzResult with
  | none => exact .of_p_eq rfl
  | some value => exact (Registers.KeepsControlBits.withNZ value).toKeepsFixedBits

/-- Keeping the fixed bits of a status byte is an invariant of the elementary steps. -/
theorem invariant_keepsFixedBits (r : Registers) :
    Invariant fun _ (e : Execution β) => r.KeepsFixedBits e.regs where
  setRegs := fun h hr => h.trans hr
  setRunMode := id
  deferNZ := id
  addCycle := id
  read := id
  write := id

/-- the work itself does, -/
theorem finishWork_keepsFixedBits (irqVector : UInt16) :
    e.regs.KeepsFixedBits (e.finishWork irqVector).regs := by
  have hperform (d : Descriptor) {f : Execution β} (hf : e.regs.KeepsFixedBits f.regs) :
      e.regs.KeepsFixedBits (d.operation.perform d.mode irqVector f).regs := by
    obtain ⟨_, _, hkeeps⟩ :=
      (invariant_keepsFixedBits e.regs).perform (k := 0) d.operation d.mode irqVector hf
    exact hkeeps
  have hconclude (d : Descriptor) {f : Execution β} (hf : e.regs.KeepsFixedBits f.regs) :
      e.regs.KeepsFixedBits (f.conclude d).regs :=
    hf.trans (conclude_keepsFixedBits d)
  have hself : e.regs.KeepsFixedBits e.regs := .of_p_eq rfl
  unfold finishWork
  cases e.inFlight.phase with
  | fetch | decode | resolveAddress =>
    exact hconclude _ (hperform _ (f := e.locateOperand _) hself)
  | operate => exact hconclude _ (hperform _ hself)
  | updateFlags => exact conclude_keepsFixedBits _
  | retire => exact hself

/-- so does the first cycle of an instruction, -/
theorem fetchOpcode_keepsFixedBits (irqVector : UInt16) :
    e.regs.KeepsFixedBits (e.fetchOpcode irqVector).regs := by
  let opcode := (e.port.read e.regs.pc).1
  let fetched : Execution β :=
    { e with
      regs := e.regs.nextByte, inFlight := .ofOpcode opcode, port := (e.port.read e.regs.pc).2 }
  have hnext : e.regs.KeepsFixedBits fetched.regs := .of_p_eq rfl
  change e.regs.KeepsFixedBits
    (if operandSize opcode = 0 then fetched.finishWork irqVector else fetched).regs
  split
  · exact hnext.trans (finishWork_keepsFixedBits irqVector)
  · exact hnext

/-- the way into the routine of an interrupt, -/
theorem serve_keepsFixedBits (vector : InterruptVector) :
    e.regs.KeepsFixedBits (e.serve vector).regs := by
  have hinvariant := invariant_keepsFixedBits (β := β) e.regs
  have hself : e = e ∧ e.regs.KeepsFixedBits e.regs := ⟨rfl, .of_p_eq rfl⟩
  unfold serve
  cases vector.line with
  | reset =>
    have hmask := hinvariant.lockstep.mapRegs (k := 0) Lockstep.keepsFixedBits_enterRoutine hself
    exact hmask.2.trans (.of_p_eq rfl)
  | nmi | irq => exact (hinvariant.lockstep.interruptTo (k := 0) false vector.address hself).2

/-- and each later cycle. -/
theorem resume_keepsFixedBits (irqVector : UInt16) :
    e.regs.KeepsFixedBits (e.resume irqVector).regs := by
  have hself : e.regs.KeepsFixedBits e.regs := .of_p_eq rfl
  have hfetch : e.regs.KeepsFixedBits e.fetchOperand.regs := .of_p_eq rfl
  unfold resume
  cases e.inFlight.activity with
  | interrupt vector =>
    simp only
    split
    · exact serve_keepsFixedBits vector
    · exact hself
  | instruction =>
    cases e.inFlight.phase with
    | fetch | decode =>
      simp only
      by_cases hmore : e.inFlight.fetched.toNat < operandSize e.inFlight.opcode
      · simp only [if_pos hmore]
        split
        · exact hfetch.trans (finishWork_keepsFixedBits irqVector)
        · exact hfetch
      · simp only [if_neg hmore]
        split
        · exact finishWork_keepsFixedBits irqVector
        · exact hself
    | retire => exact hself
    | resolveAddress | operate | updateFlags => exact finishWork_keepsFixedBits irqVector

end Execution

/-- What the check of a snapshot asks. -/
theorem CpuSnapshot.validate_eq_ok {state : CpuSnapshot} {settings : CpuSettings} :
    state.validate settings = .ok () ↔
      state.registers.flag Status.unused = true ∧
        ∀ flight, state.inFlight = some flight → flight.validate settings = .ok () := by
  unfold validate
  rw [SnapshotError.unless_bind_eq_ok, bne_iff_ne, Registers.flag_unused_iff]
  cases state.inFlight with
  | none => simp
  | some flight => simp

namespace Cpu

variable {β : Type}

/-- A snapshot is taken over if it passes the check. -/
theorem restore_eq_ok {c d : Cpu β} {state : CpuSnapshot} :
    c.restore state = .ok d ↔ state.validate c.settings = .ok () ∧ d = c.apply state := by
  unfold restore
  cases state.validate c.settings with
  | ok => simp [eq_comm]
  | error e => simp

/-- A processor that takes over its own snapshot stays as it is. -/
@[simp] theorem apply_snapshot (c : Cpu β) : c.apply c.snapshot = c := by
  simp only [apply, snapshot, InterruptController.restore, Lines.ofSnapshot_toSnapshot]

/-- Bit 5 of the status byte is set, and what is in flight is one of the things that can be. -/
structure Consistent (c : Cpu β) : Prop where
  /-- Bit 5 of the status byte is set. -/
  unusedSet : c.regs.flag Status.unused = true
  /-- What is in flight can be. -/
  inFlight : ∀ flight, c.inFlight = some flight → flight.Consistent c.settings

/-- What stays in flight is what the work of the cycle has not completed. -/
theorem settle_inFlight_eq_some {c : Cpu β} {e : Execution β} {flight : InFlight} :
    (c.settle e).inFlight = some flight ↔ e.inFlight.isDone = false ∧ e.inFlight = flight := by
  cases hdone : e.inFlight.isDone with
  | true => simp [settle_of_isDone _ hdone]
  | false => simp [settle_of_not_isDone _ hdone]

variable [Bus β] {c : Cpu β}

section

variable {flight : InFlight} {e : Execution β}

/-- With its next operand byte an instruction is still fetching, or its work is done. -/
theorem consistent_resume_of_fetching (settings : CpuSettings) (h : flight.IsFetching)
    (he : e.inFlight = flight.spendCycle)
    (hdone : (e.resume settings.irqVector).inFlight.isDone = false) :
    (e.resume settings.irqVector).inFlight.Consistent settings := by
  have hactivity : e.inFlight.activity = .instruction := by
    rw [he]
    exact h.activity
  have hphase : e.inFlight.phase = .decode := by
    rw [he]
    exact h.phase
  have hmissing : e.inFlight.fetched.toNat < operandSize e.inFlight.opcode := by
    rw [he]
    exact h.missing
  have hfetched : e.fetchOperand.inFlight.HasFetched := by
    have hnext := h.hasFetched_storeOperand (e.port.read e.regs.pc).1
    rw [← he] at hnext
    exact hnext
  have hresume := Execution.resume_of_decode settings.irqVector hactivity hphase hmissing
  exact Execution.consistent_of_hasFetched settings.irqVector hfetched hresume hdone

/-- An instruction that waits is waiting after one more cycle, unless that was its last one. -/
theorem consistent_resume_of_waiting (settings : CpuSettings) (h : flight.IsWaiting)
    (he : e.inFlight = flight.spendCycle)
    (hdone : (e.resume settings.irqVector).inFlight.isDone = false) :
    (e.resume settings.irqVector).inFlight.Consistent settings := by
  have hphase : flight.spendCycle.phase = .retire := h.phase
  have hresume : e.resume settings.irqVector = e :=
    Execution.resume_of_retire settings.irqVector (he ▸ hphase)
  have helapsed := h.elapsed
  have hunfinished := h.unfinished
  have htotal := flight.total.toNat_lt
  have hspend := InFlight.toNat_spendCycle (show flight.elapsed.toNat < 255 by omega)
  rw [hresume, he] at hdone ⊢
  rw [InFlight.isDone_eq_false hphase] at hdone
  exact .waiting
    { activity := h.activity
      phase := h.phase
      fetched := h.fetched
      elapsed := by
        change 1 + flight.fetched.toNat ≤ _
        omega
      unfinished := hdone
      extraCycles := h.extraCycles
      total := h.total }

/-- In its second cycle an interrupt sequence is served. -/
theorem consistent_resume_of_acknowledged (settings : CpuSettings)
    (h : flight.IsAcknowledged settings) (he : e.inFlight = flight.spendCycle) :
    (e.resume settings.irqVector).inFlight.Consistent settings := by
  obtain ⟨line, hvector⟩ := h.activity
  have helapsed := h.elapsed
  have hspend := InFlight.toNat_spendCycle (show flight.elapsed.toNat < 255 by omega)
  have hactivity : e.inFlight.activity = .interrupt ⟨settings.vectorOf line, line⟩ := by
    rw [he]
    exact hvector
  have hphase : e.inFlight.phase = .operate := by
    rw [he]
    exact h.phase
  have hsecond : serviceCycle ≤ e.inFlight.elapsed := by
    rw [he, UInt8.le_iff_toNat_le, hspend, helapsed]
    exact Nat.le_refl 2
  rw [Execution.resume_of_acknowledged settings.irqVector hactivity hphase hsecond,
    Execution.serve_inFlight, he]
  exact .served
    { activity := ⟨line, hvector⟩
      phase := rfl
      started := by
        change 2 ≤ flight.spendCycle.elapsed.toNat
        omega
      unfinished := by
        change flight.spendCycle.elapsed.toNat < 7
        omega
      total := h.total }

/-- A served sequence waits for its last cycle. -/
theorem consistent_resume_of_served (settings : CpuSettings) (h : flight.IsServed settings)
    (he : e.inFlight = flight.spendCycle)
    (hdone : (e.resume settings.irqVector).inFlight.isDone = false) :
    (e.resume settings.irqVector).inFlight.Consistent settings := by
  have hphase : flight.spendCycle.phase = .retire := h.phase
  have hresume : e.resume settings.irqVector = e :=
    Execution.resume_of_retire settings.irqVector (he ▸ hphase)
  have hstarted := h.started
  have hunfinished := h.unfinished
  have hspend := InFlight.toNat_spendCycle (show flight.elapsed.toNat < 255 by omega)
  rw [hresume, he] at hdone ⊢
  rw [InFlight.isDone_eq_false hphase] at hdone
  exact .served
    { activity := h.activity
      phase := h.phase
      started := by omega
      unfinished := Nat.lt_of_lt_of_eq hdone h.total
      total := h.total }

/-- What is in flight is still one of the things that can be after a cycle of work, or it is
complete. -/
theorem consistent_resume {settings : CpuSettings} (h : flight.Consistent settings)
    (he : e.inFlight = flight.spendCycle)
    (hdone : (e.resume settings.irqVector).inFlight.isDone = false) :
    (e.resume settings.irqVector).inFlight.Consistent settings := by
  cases h with
  | fetching h => exact consistent_resume_of_fetching settings h he hdone
  | waiting h => exact consistent_resume_of_waiting settings h he hdone
  | acknowledged h => exact consistent_resume_of_acknowledged settings h he
  | served h => exact consistent_resume_of_served settings h he hdone

end

/-- An instruction can be in flight after its opcode has been fetched, or it is complete. -/
theorem consistent_fetchOpcode {e : Execution β}
    (hdone : (e.fetchOpcode c.settings.irqVector).inFlight.isDone = false) :
    (e.fetchOpcode c.settings.irqVector).inFlight.Consistent c.settings := by
  let opcode := (e.port.read e.regs.pc).1
  let fetched : Execution β :=
    { e with
      regs := e.regs.nextByte, inFlight := .ofOpcode opcode, port := (e.port.read e.regs.pc).2 }
  have hfetched : fetched.inFlight.HasFetched :=
    { activity := rfl
      phase := rfl
      fetched := Nat.zero_le _
      elapsed := rfl
      total := rfl
      extraCycles := rfl
      nzResult := rfl
      operand := by
        intro i hi _
        have hcases : i = 0 ∨ i = 1 := by omega
        rcases hcases with rfl | rfl
        · rfl
        · rfl }
  refine Execution.consistent_of_hasFetched c.settings.irqVector hfetched ?_ hdone
  have hzero : operandSize opcode ≤ fetched.inFlight.fetched.toNat ↔ operandSize opcode = 0 :=
    Nat.le_zero
  change (if operandSize opcode = 0 then fetched.finishWork _ else fetched) =
    if operandSize opcode ≤ fetched.inFlight.fetched.toNat then fetched.finishWork _ else fetched
  simp only [hzero]

/-- An acknowledged interrupt can be in flight. -/
theorem consistent_ofVector (settings : CpuSettings) (line : Line) :
    (InFlight.ofVector ⟨settings.vectorOf line, line⟩).Consistent settings :=
  .acknowledged ⟨⟨line, rfl⟩, rfl, rfl, rfl⟩

/-- The settings are fixed. -/
@[simp] theorem settings_cycle (c : Cpu β) : c.cycle.2.settings = c.settings := by
  have hstart (runMode : RunMode) : (c.clocked.start runMode).settings = c.settings := by
    rw [clocked_start]
    split <;> rfl
  rw [cycle_eq]
  split
  · split
    · rfl
    · split
      · exact hstart _
      · rfl
  · rfl

/-- No number of cycles changes the settings, -/
@[simp] theorem settings_tick (c : Cpu β) (budget : Nat) :
    (c.tick budget).settings = c.settings := by
  induction budget generalizing c with
  | zero => rfl
  | succ budget ih => exact (ih _).trans c.settings_cycle

/-- nor does a step. -/
@[simp] theorem settings_stepWithin (c : Cpu β) (limit : Nat) :
    (c.stepWithin limit).2.settings = c.settings := by
  rw [stepWithin_eq_tick]
  exact c.settings_tick _

/-- Writing a register changes that register and nothing else. -/
theorem set_eq {γ : Type} {c d : Cpu γ} {register : Register} {value : Nat}
    (h : c.set register value = .ok d) :
    ∃ regs, c.regs.set register value = .ok regs ∧ d = { c with regs } := by
  unfold set at h
  cases hregs : c.regs.set register value with
  | error e =>
    rw [hregs] at h
    cases h
  | ok regs =>
    rw [hregs] at h
    cases h
    exact ⟨regs, rfl, rfl⟩

/-- What an instruction boundary leads to can be in flight. -/
theorem consistent_start {runMode : RunMode} {flight : InFlight}
    (h : (c.clocked.start runMode).inFlight = some flight) : flight.Consistent c.settings := by
  rw [clocked_start] at h
  simp only [InterruptController.acknowledge] at h
  cases hline : c.interrupts.lines.next (c.regs.flag Status.irqDisable) with
  | some line =>
    rw [hline] at h
    cases h
    exact consistent_ofVector c.settings line
  | none =>
    rw [hline] at h
    obtain ⟨hdone, rfl⟩ := settle_inFlight_eq_some.mp h
    exact consistent_fetchOpcode hdone

/-- A cycle keeps the fixed bits of the status byte. -/
theorem keepsFixedBits_cycle (c : Cpu β) : c.regs.KeepsFixedBits c.cycle.2.regs := by
  have hself : c.regs.KeepsFixedBits c.regs := .of_p_eq rfl
  rw [cycle_eq]
  split
  · split
    · next flight _ =>
      exact Execution.resume_keepsFixedBits (e := ⟨c.regs, c.runMode, flight.spendCycle, c.port⟩) _
    · split
      · next runMode _ =>
        rw [clocked_start]
        split
        · exact hself
        · exact Execution.fetchOpcode_keepsFixedBits (e := ⟨c.regs, runMode, .ofOpcode 0, c.port⟩) _
      · exact hself
  · exact hself

/-- A cycle leaves bit 5 of the status byte set. -/
theorem flag_unused_cycle (h : c.regs.flag Status.unused = true) :
    c.cycle.2.regs.flag Status.unused = true :=
  c.keepsFixedBits_cycle.unused h

namespace Consistent

/-- A cycle leads from one thing that can be in flight to the next or to a boundary. -/
theorem cycle (h : c.Consistent) : c.cycle.2.Consistent := by
  refine ⟨flag_unused_cycle h.unusedSet, fun next hnext => ?_⟩
  rw [settings_cycle]
  cases hbus : Bus.cpuHasBus c.bus with
  | false =>
    rw [cycle_of_stalled hbus] at hnext
    exact h.inFlight next hnext
  | true =>
    cases hflight : c.inFlight with
    | some flight =>
      rw [cycle_of_inFlight hbus hflight] at hnext
      obtain ⟨hdone, rfl⟩ := settle_inFlight_eq_some.mp hnext
      exact consistent_resume (h.inFlight flight hflight) rfl hdone
    | none =>
      cases hwake : c.wake? with
      | none =>
        rw [cycle_of_halted hbus hflight hwake] at hnext
        exact h.inFlight next hnext
      | some runMode =>
        rw [cycle_of_wake hbus hflight hwake] at hnext
        exact consistent_start hnext

/-- Cycles keep the state consistent. -/
theorem tick (h : c.Consistent) (budget : Nat) : (c.tick budget).Consistent := by
  induction budget generalizing c with
  | zero => exact h
  | succ budget ih => exact ih h.cycle

/-- A step keeps the state consistent. -/
theorem stepWithin (h : c.Consistent) (limit : Nat) : (c.stepWithin limit).2.Consistent := by
  rw [stepWithin_eq_tick]
  exact h.tick _

/-- A processor at power-on is consistent. -/
theorem create (settings : CpuSettings) (bus : β) : (Cpu.create settings bus).Consistent := by
  constructor
  · exact Registers.flag_powerOn_unused settings.initialS settings.initialP
  · intro flight hnone
    cases hnone

/-- A reset leads to a consistent state from any state. -/
theorem reset (c : Cpu β) : c.reset.Consistent := by
  constructor
  · exact Registers.flag_powerOn_unused c.settings.initialS c.settings.initialP
  · intro flight hnone
    cases hnone

omit [Bus β]

/-- Setting a register keeps the state consistent. -/
theorem set (h : c.Consistent) {register : Register} {value : Nat} {d : Cpu β}
    (hset : c.set register value = .ok d) : d.Consistent := by
  obtain ⟨regs, hregs, rfl⟩ := set_eq hset
  exact ⟨Registers.flag_unused_of_set h.unusedSet hregs, h.inFlight⟩

/-- What happens behind the pins keeps the state consistent. -/
theorem setPort (h : c.Consistent) (port : Port β) : (c.setPort port).Consistent :=
  ⟨h.unusedSet, h.inFlight⟩

/-- What happens to the interrupt controller keeps the state consistent. -/
theorem mapInterrupts (h : c.Consistent) (f : InterruptController → InterruptController) :
    (c.mapInterrupts f).Consistent :=
  ⟨h.unusedSet, h.inFlight⟩

/-- Whatever a processor comes to, it accepts its own snapshot. -/
theorem validate (h : c.Consistent) : c.snapshot.validate c.settings = .ok () :=
  CpuSnapshot.validate_eq_ok.mpr
    ⟨h.unusedSet, fun flight hflight => (h.inFlight flight hflight).validate⟩

/-- A processor that accepts the snapshot of a consistent one is consistent with it. -/
theorem apply {γ : Type} {d : Cpu γ} (h : d.Consistent)
    (hvalid : d.snapshot.validate c.settings = .ok ()) : (c.apply d.snapshot).Consistent := by
  obtain ⟨hunused, hflights⟩ := CpuSnapshot.validate_eq_ok.mp hvalid
  constructor
  · exact hunused
  · intro flight hflight
    exact (h.inFlight flight hflight).of_validate (hflights flight hflight)

end Consistent

end Cpu

end W65C02
