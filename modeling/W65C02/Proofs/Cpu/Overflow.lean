import W65C02.Overflow
import W65C02.Proofs.Cpu.CycleTotals

/-!
# Where a processor stops at an overflow

A run that looks at each sum comes to the same as one that does not, as long as it comes to
anything. As far as there is room in the counters, it stops in the cycle in which the counts of an
instruction do not come out exact, and nowhere else. A processor stops in this way only on a
snapshot that it has taken over.
-/

namespace W65C02

variable {β : Type} [Bus β]

namespace Execution

variable {e f : Execution β} (irqVector : UInt16)

/-- When the work of an instruction is done a count overflows exactly if the exact total does not
fit into a byte: the constant part and the penalties are too small to make up for a count that has
started again from zero. -/
theorem overflows_finishWork (hactivity : e.inFlight.activity = .instruction)
    (hphase : e.inFlight.phase ≠ .retire) :
    e.inFlight.overflows (e.finishWork irqVector).inFlight = true ↔ 255 < e.exactTotal := by
  obtain ⟨hextra, htotal⟩ := finishWork_cycles irqVector hphase
  have hretired := phase_finishWork irqVector e
  have hadded := Nat.le_trans e.addedCycles_le_branchCycles (Operation.branchCycles_le_two _)
  have hbase := Descriptor.operandSize_lt_baseCycles e.inFlight.opcode
  have hmax := e.exactTotal_le
  have hmin : e.inFlight.extraCycles.toNat + e.addedCycles < e.exactTotal := by
    unfold exactTotal Descriptor.exactCycles
    omega
  have hbyte := e.inFlight.extraCycles.toNat_lt
  have hoverflows : e.inFlight.overflows (e.finishWork irqVector).inFlight = true ↔
      (e.inFlight.extraCycles.toNat + e.addedCycles) % 256 < e.inFlight.extraCycles.toNat ∨
        e.exactTotal % 256 < (e.inFlight.extraCycles.toNat + e.addedCycles) % 256 := by
    simp only [InFlight.overflows, hactivity, hretired, hextra, htotal, ne_eq, hphase,
      not_false_eq_true, decide_true, Bool.true_and, Bool.or_eq_true, decide_eq_true_eq,
      UInt8.lt_iff_toNat_lt, UInt8.toNat_ofNat', Nat.reducePow]
  rw [hoverflows]
  omega

/-- What the work of an instruction is done on is an instruction. -/
theorem activity_of_settled (h : e.settling? = some f) : f.inFlight.activity = .instruction := by
  have hactivity := activity_of_settling h
  rcases e.inFlight.phase.trichotomy with hphase | hphase | hphase
  · rw [settling?_of_fetching hactivity hphase rfl] at h
    obtain rfl := Option.some.inj (Option.ite_none_right_eq_some.mp h).2
    obtain ⟨_, _, hflight⟩ := inFlight_of_fetching (e := e) rfl
    rwa [hflight]
  · rw [settling?_of_working hactivity hphase] at h
    rwa [← Option.some.inj h]
  · rw [settling?_of_retire hphase] at h
    cases h

/-- Serving an interrupt adds no cycles. -/
theorem extraCycles_serve (e : Execution β) (vector : InterruptVector) :
    (e.serve vector).inFlight.extraCycles = e.inFlight.extraCycles := by
  unfold serve
  cases vector.line <;> rfl

/-- In a cycle after the first a count overflows exactly if the work of an instruction is done and
its exact total does not fit into a byte. -/
theorem overflows_resume :
    e.inFlight.overflows (e.resume irqVector).inFlight = true ↔
      ∃ f, e.settling? = some f ∧ 255 < f.exactTotal := by
  cases hsettles : e.settling? with
  | some f =>
    obtain ⟨hresume, hphase, hsame, hextra⟩ := resume_of_settling irqVector hsettles
    have hactivity := activity_of_settled hsettles
    have hbefore (after : InFlight) : e.inFlight.overflows after = f.inFlight.overflows after := by
      simp only [InFlight.overflows, hsame, hextra, hactivity, activity_of_settling hsettles]
    rw [hresume, hbefore, overflows_finishWork irqVector hactivity (hsame.trans_ne hphase)]
    simp only [Option.some.injEq, exists_eq_left']
  | none =>
    refine iff_of_false ?_ (by simp)
    cases hactivity : e.inFlight.activity with
    | instruction =>
      obtain ⟨_, _, hflight⟩ := resume_of_not_settling irqVector hactivity hsettles
      simp [InFlight.overflows, hflight]
    | interrupt vector =>
      have hextra : (e.resume irqVector).inFlight.extraCycles = e.inFlight.extraCycles := by
        simp only [resume, hactivity]
        split
        · exact e.extraCycles_serve vector
        · rfl
      simp [InFlight.overflows, hactivity, hextra]

/-- No count overflows when an opcode is fetched. -/
theorem overflows_fetchOpcode (e : Execution β) :
    (InFlight.ofOpcode 0).overflows (e.fetchOpcode irqVector).inFlight = false := by
  let f : Execution β :=
    { e with
      regs := e.regs.nextByte
      inFlight := .ofOpcode (e.port.read e.regs.pc).1
      port := (e.port.read e.regs.pc).2 }
  have hextra : f.inFlight.extraCycles.toNat = 0 := rfl
  have hmax := f.exactTotal_le
  by_cases hsize : operandSize (e.port.read e.regs.pc).1 = 0
  · have hfetch : e.fetchOpcode irqVector = f.finishWork irqVector := if_pos hsize
    have hfinish := overflows_finishWork (e := f) irqVector rfl nofun
    rw [hfetch, ← Bool.not_eq_true]
    change ¬ f.inFlight.overflows (f.finishWork irqVector).inFlight = true
    rw [hfinish]
    omega
  · have hfetch : e.fetchOpcode irqVector = f := if_neg hsize
    rw [hfetch]
    rfl

end Execution

namespace Cpu

/-- There is room for one more in every counter. -/
structure HasRoom (c : Cpu β) : Prop where
  /-- One more cycle can be counted, -/
  cycles : c.counters.cycles ≠ fullCount
  /-- and one more stall, -/
  stallCycles : c.counters.stallCycles ≠ fullCount
  /-- and one more instruction or interrupt sequence, -/
  completed : ∀ activity, c.counters.isFull activity = false
  /-- and one more acknowledgement on each line. -/
  acknowledged : ∀ line, c.interrupts.isFull line = false

variable {c d : Cpu β}

omit [Bus β] in
/-- A cycle's work comes to the same if it comes to anything. -/
theorem checkedCarryOut_eq_some {runMode : RunMode} {flight : InFlight}
    {work : Execution β → Execution β} (h : c.checkedCarryOut runMode flight work = some d) :
    d = c.carryOut runMode flight work :=
  (Option.some.inj (Option.ite_none_left_eq_some.mp h).2).symm

omit [Bus β] in
/-- Then no count of the instruction overflows, -/
theorem overflows_of_checkedCarryOut {runMode : RunMode} {flight : InFlight}
    {work : Execution β → Execution β} (h : c.checkedCarryOut runMode flight work = some d) :
    flight.overflows (work ⟨c.regs, runMode, flight, c.port⟩).inFlight = false := by
  obtain ⟨hnone, -⟩ := not_or.mp (Option.ite_none_left_eq_some.mp h).1
  exact Bool.not_eq_true _ ▸ hnone

omit [Bus β] in
/-- and that is enough where there is room. -/
theorem isSome_checkedCarryOut (hroom : c.HasRoom) {runMode : RunMode} {flight : InFlight}
    {work : Execution β → Execution β}
    (h : flight.overflows (work ⟨c.regs, runMode, flight, c.port⟩).inFlight = false) :
    (c.clocked.checkedCarryOut runMode flight work).isSome = true := by
  let after := (work ⟨c.regs, runMode, flight, c.port⟩).inFlight
  have hfull : c.clocked.counters.isFull after.activity = false := hroom.completed _
  change (if flight.overflows after = true ∨
    after.isDone = true ∧ c.clocked.counters.isFull after.activity = true then none
      else some _).isSome = true
  rw [hfull, h]
  simp

/-- The first cycle of an instruction or interrupt sequence comes to the same if it comes to
anything, -/
theorem checkedStart_eq_some {runMode : RunMode} (h : c.checkedStart runMode = some d) :
    d = c.start runMode := by
  unfold checkedStart at h
  split at h
  · next vector interrupts hacknowledge =>
    unfold start
    rw [hacknowledge]
    exact (Option.some.inj (Option.ite_none_left_eq_some.mp h).2).symm
  · next interrupts hacknowledge =>
    unfold start
    rw [hacknowledge]
    exact checkedCarryOut_eq_some h

/-- and it does so as long as there is room. -/
theorem isSome_checkedStart (hroom : c.HasRoom) (runMode : RunMode) :
    (c.clocked.checkedStart runMode).isSome = true := by
  unfold checkedStart
  split
  · next vector interrupts _ =>
    have hfull : c.clocked.interrupts.isFull vector.line = false := hroom.acknowledged vector.line
    rw [hfull]
    rfl
  · exact isSome_checkedCarryOut hroom (Execution.overflows_fetchOpcode c.settings.irqVector _)

/-- A checked cycle by cases, as for one without checks. -/
theorem checkedCycle_eq (c : Cpu β) :
    c.checkedCycle =
      if c.counters.cycles = fullCount then none
      else if Bus.cpuHasBus c.bus then
        match c.inFlight with
        | some flight =>
          (c.clocked.checkedCarryOut c.runMode flight.spendCycle
            (·.resume c.settings.irqVector)).map (true, ·)
        | none =>
          match c.wake? with
          | some runMode => (c.clocked.checkedStart runMode).map (true, ·)
          | none => some (false, c.clocked)
      else if c.counters.stallCycles = fullCount then none
      else some (false, { c.clocked with counters.stallCycles := c.counters.stallCycles + 1 }) :=
  rfl

/-- A cycle comes to the same if it comes to anything. -/
theorem checkedCycle_eq_some {result : Bool × Cpu β} (h : c.checkedCycle = some result) :
    result = c.cycle := by
  rw [checkedCycle_eq] at h
  replace h := (Option.ite_none_left_eq_some.mp h).2
  cases hbus : Bus.cpuHasBus c.bus with
  | false =>
    rw [hbus, if_neg Bool.false_ne_true] at h
    rw [cycle_of_stalled hbus]
    exact (Option.some.inj (Option.ite_none_left_eq_some.mp h).2).symm
  | true =>
    rw [hbus, if_pos rfl] at h
    cases hflight : c.inFlight with
    | some flight =>
      simp only [hflight] at h
      obtain ⟨d, hd, rfl⟩ := Option.map_eq_some_iff.mp h
      rw [cycle_of_inFlight hbus hflight]
      exact congrArg (true, ·) (checkedCarryOut_eq_some hd)
    | none =>
      cases hwake : c.wake? with
      | some runMode =>
        simp only [hflight, hwake] at h
        obtain ⟨d, hd, rfl⟩ := Option.map_eq_some_iff.mp h
        rw [cycle_of_wake hbus hflight hwake]
        exact congrArg (true, ·) (checkedStart_eq_some hd)
      | none =>
        simp only [hflight, hwake] at h
        rw [cycle_of_halted hbus hflight hwake]
        exact (Option.some.inj h).symm

/-- The counts of an instruction come out exact in a cycle in which none of them overflows. -/
theorem settlesExactly_iff_overflows (hbus : Bus.cpuHasBus c.bus = true) {flight : InFlight}
    (hflight : c.inFlight = some flight) :
    c.SettlesExactly ↔
      flight.spendCycle.overflows ((⟨c.regs, c.runMode, flight.spendCycle, c.port⟩ :
        Execution β).resume c.settings.irqVector).inFlight = false := by
  let e : Execution β := ⟨c.regs, c.runMode, flight.spendCycle, c.port⟩
  have hsettling : c.settling? = e.settling? := by
    simp only [settling?, hbus, if_true, hflight, e]
  have hover := e.overflows_resume c.settings.irqVector
  rw [← Bool.not_eq_true, hover, not_exists]
  refine forall_congr' fun f => ?_
  rw [hsettling, not_and, Nat.not_lt]
  refine imp_congr_right fun hf => ?_
  obtain ⟨-, hphase, hsame, -⟩ := Execution.resume_of_settling c.settings.irqVector hf
  exact Execution.settlesExactly_iff _ (hsame.trans_ne hphase)

/-- At a boundary they always do, -/
theorem settlesExactly_of_boundary (hflight : c.inFlight = none) : c.SettlesExactly := by
  have hnothing : c.AddsAtMost 0 := by
    intro flight hsome
    rw [hflight] at hsome
    cases hsome
  exact hnothing.settlesExactly (Nat.zero_le _)

/-- and so they do in a stalled cycle. -/
theorem settlesExactly_of_stalled (hbus : Bus.cpuHasBus c.bus = false) : c.SettlesExactly := by
  intro e he
  rw [settling?, hbus, if_neg Bool.false_ne_true] at he
  cases he

/-- A cycle that comes to something does not lose count of an instruction. -/
theorem settlesExactly_of_checkedCycle {result : Bool × Cpu β} (h : c.checkedCycle = some result) :
    c.SettlesExactly := by
  cases hbus : Bus.cpuHasBus c.bus with
  | false => exact settlesExactly_of_stalled hbus
  | true =>
    cases hflight : c.inFlight with
    | none => exact settlesExactly_of_boundary hflight
    | some flight =>
      rw [checkedCycle_eq, hbus, if_pos rfl] at h
      simp only [hflight] at h
      obtain ⟨d, hd, -⟩ := Option.map_eq_some_iff.mp (Option.ite_none_left_eq_some.mp h).2
      exact (settlesExactly_iff_overflows hbus hflight).mpr (overflows_of_checkedCarryOut hd)

/-- As far as there is room in the counters, a cycle comes to something exactly if the counts of the
instruction whose work is done in it come out exact. -/
theorem isSome_checkedCycle_iff (hroom : c.HasRoom) :
    c.checkedCycle.isSome = true ↔ c.SettlesExactly := by
  constructor
  · intro hsome
    obtain ⟨result, hresult⟩ := Option.isSome_iff_exists.mp hsome
    exact settlesExactly_of_checkedCycle hresult
  · intro hexact
    rw [checkedCycle_eq, if_neg hroom.cycles]
    cases hbus : Bus.cpuHasBus c.bus with
    | false =>
      rw [if_neg Bool.false_ne_true, if_neg hroom.stallCycles]
      rfl
    | true =>
      rw [if_pos rfl]
      cases hflight : c.inFlight with
      | some flight =>
        simp only [Option.isSome_map]
        exact isSome_checkedCarryOut hroom ((settlesExactly_iff_overflows hbus hflight).mp hexact)
      | none =>
        cases c.wake? with
        | some runMode =>
          simp only [Option.isSome_map]
          exact isSome_checkedStart hroom runMode
        | none => rfl

/-- A number of cycles come to the same if they come to anything. -/
theorem checkedTick_eq_some {budget : ℕ} (h : c.checkedTick budget = some d) :
    d = c.tick budget := by
  induction budget generalizing c with
  | zero => exact (Option.some.inj h).symm
  | succ budget ih =>
    unfold checkedTick at h
    split at h
    · next next hcycle =>
      have hnext : next = c.cycle.2 := congrArg Prod.snd (checkedCycle_eq_some hcycle)
      rw [tick, ← hnext]
      exact ih h
    · cases h

/-- A step comes to the same if it comes to anything. -/
theorem checkedStepWithin_eq_some {limit : ℕ} {result : ℕ × Cpu β}
    (h : c.checkedStepWithin limit = some result) : result = c.stepWithin limit := by
  induction limit generalizing c result with
  | zero => exact (Option.some.inj h).symm
  | succ limit ih =>
    unfold checkedStepWithin at h
    split at h
    · next progressed next hcycle =>
      unfold stepWithin
      rw [← checkedCycle_eq_some hcycle]
      simp only
      split at h
      · next hmore =>
        obtain ⟨rest, hrest, rfl⟩ := Option.map_eq_some_iff.mp h
        rw [if_pos hmore, ← ih hrest]
      · next hlast =>
        rw [if_neg hlast]
        exact (Option.some.inj h).symm
    · cases h

/-- A run that gets through does not lose count of any instruction. -/
theorem settlesExactly_of_checkedTick {budget : ℕ} (h : c.checkedTick budget = some d) :
    ∀ n < budget, (c.tick n).SettlesExactly := by
  induction budget generalizing c with
  | zero => exact fun n hn => absurd hn (Nat.not_lt_zero n)
  | succ budget ih =>
    unfold checkedTick at h
    split at h
    · next next hcycle =>
      have hnext : next = c.cycle.2 := congrArg Prod.snd (checkedCycle_eq_some hcycle)
      refine Nat.forall_lt_succ_left.mpr ⟨settlesExactly_of_checkedCycle hcycle, ?_⟩
      rw [hnext] at h
      exact ih h
    · cases h

/-- As far as there is room in the counters, a run gets through exactly if it does not lose count of
any instruction. -/
theorem checkedTick_eq_some_iff {budget : ℕ} (hroom : ∀ n < budget, (c.tick n).HasRoom) :
    c.checkedTick budget = some (c.tick budget) ↔ ∀ n < budget, (c.tick n).SettlesExactly := by
  refine ⟨settlesExactly_of_checkedTick, fun hexact => ?_⟩
  induction budget generalizing c with
  | zero => rfl
  | succ budget ih =>
    have hfirst : c.checkedCycle.isSome = true :=
      (isSome_checkedCycle_iff (hroom 0 (Nat.succ_pos budget))).mpr (hexact 0 (Nat.succ_pos budget))
    obtain ⟨result, hresult⟩ := Option.isSome_iff_exists.mp hfirst
    obtain rfl := checkedCycle_eq_some hresult
    unfold checkedTick
    rw [hresult]
    exact ih (fun n hn => hroom (n + 1) (Nat.succ_lt_succ hn))
      fun n hn => hexact (n + 1) (Nat.succ_lt_succ hn)

/-- After taking over a snapshot all totals come out exact, now and at any later time, if no more
than 247 cycles are recorded as added to an instruction whose work is not done. On a bus without
another master they do so exactly if the total of that one instruction fits into a byte. A run that
stops at the first overflow gets through exactly if all totals come out exact, as far as there is
room in the counters. -/
theorem settlesExactly_of_restore {c d : Cpu β} {state : CpuSnapshot}
    (h : c.restore state = .ok d) :
    (d.AddsAtMost 247 → ∀ n, (d.tick n).SettlesExactly) ∧
      ((∀ bus : β, Bus.cpuHasBus bus = true) →
        ((∀ n, (d.tick n).SettlesExactly) ↔
          ∀ e, d.unsettled? = some e → e.exactTotal ≤ 255)) ∧
      ∀ budget, (∀ n < budget, (d.tick n).HasRoom) →
        (d.checkedTick budget = some (d.tick budget) ↔
          ∀ n < budget, (d.tick n).SettlesExactly) := by
  obtain ⟨hresumable, -⟩ := Resumable.of_restore h
  exact ⟨fun hadds n => (hadds.tick n).settlesExactly (Nat.le_refl _),
    fun hsole => settlesExactly_tick_iff hsole hresumable, fun _ => checkedTick_eq_some_iff⟩

/-- An instruction of three bytes after its first cycle, recorded with a number of added cycles. -/
def withAdded (extraCycles : UInt8) : CpuSnapshot :=
  { cutShort with inFlight := some { InFlight.ofOpcode 0xAD with extraCycles } }

/-- The check lets the snapshot pass, whatever that number is. -/
theorem restore_withAdded (extraCycles : UInt8) :
    atRest.restore (withAdded extraCycles) = .ok (atRest.apply (withAdded extraCycles)) := by
  have hunused : cutShort.registers.flag Status.unused = true := by decide
  refine restore_eq_ok.mpr ⟨CpuSnapshot.validate_eq_ok.mpr ⟨hunused, ?_⟩, rfl⟩
  intro flight hflight
  obtain rfl := Option.some.inj hflight
  exact InFlight.validate_eq_ok_iff_fits.mpr ⟨nofun, .inl rfl, nofun, Nat.zero_le _⟩

/-- With its operand bytes fetched it is the same instruction, and it takes four cycles beside those
that are recorded. -/
theorem exactTotal_withAdded (extraCycles : UInt8) :
    ∃ e, (atRest.apply (withAdded extraCycles)).unsettled? = some e ∧
      e.exactTotal = 4 + extraCycles.toNat := by
  let d := atRest.apply (withAdded extraCycles)
  let e : Execution Memory :=
    ⟨d.regs, d.runMode, { InFlight.ofOpcode 0xAD with extraCycles }, d.port⟩
  refine ⟨_, Execution.unsettled?_of_fetching (e := e) rfl (.inr rfl), ?_⟩
  generalize operandSize e.inFlight.opcode - e.inFlight.fetched.toNat = count
  obtain ⟨hopcode, hextra⟩ := e.iterate_fetchOperand count
  have hd : Descriptor.ofOpcode (Execution.fetchOperand^[count] e).inFlight.opcode =
      .plain .lda .absolute 4 := by
    rw [hopcode]
    rfl
  rw [Execution.exactTotal_of_plain hd rfl, hextra]
  rfl

/-- With 251 cycles that is a whole byte, and at first there is room in all counters. -/
theorem settlesExactly_withAdded :
    atRest.restore (withAdded 251) = .ok (atRest.apply (withAdded 251)) ∧
      (∀ n, ((atRest.apply (withAdded 251)).tick n).SettlesExactly) ∧
      (atRest.apply (withAdded 251)).checkedTick 1 =
        some ((atRest.apply (withAdded 251)).tick 1) := by
  obtain ⟨-, hiff, hchecked⟩ := settlesExactly_of_restore (restore_withAdded 251)
  obtain ⟨e, he, htotal⟩ := exactTotal_withAdded 251
  have hexact : ∀ n, ((atRest.apply (withAdded 251)).tick n).SettlesExactly := by
    refine (hiff fun _ => rfl).mpr fun f hf => ?_
    obtain rfl := Option.some.inj (he.symm.trans hf)
    rw [htotal]
    decide
  have hroom : ∀ n < 1, ((atRest.apply (withAdded 251)).tick n).HasRoom := by
    intro n hn
    obtain rfl := Nat.lt_one_iff.mp hn
    refine ⟨by decide, by decide, ?_, ?_⟩
    · rintro (_ | vector) <;> rfl
    · rintro (_ | _ | _) <;> rfl
  exact ⟨restore_withAdded 251, hexact, (hchecked 1 hroom).mpr fun n _ => hexact n⟩

/-- With more it is accepted all the same, but the total, which is fixed in the second cycle, does
not come out exact. A run that stops at overflows stops there. -/
theorem not_settlesExactly_of_restore :
    ∃ d, atRest.settings.validate = .ok () ∧ atRest.restore (withAdded 255) = .ok d ∧
      ¬ (d.tick 1).SettlesExactly ∧ d.checkedTick 2 = none := by
  let d := atRest.apply (withAdded 255)
  let flight : InFlight := { InFlight.ofOpcode 0xAD with extraCycles := 255 }
  have hlacks : flight.LacksTwo := ⟨rfl, .inr rfl, rfl, by decide⟩
  have hstarted := ((Resumable.of_restore (restore_withAdded 255)).1.inFlight flight rfl).started
  obtain ⟨-, ⟨value, hnext⟩, f, hbefore, hafter⟩ :=
    fetches_of_lacksTwo (c := d) (fun _ => rfl) rfl hlacks
  have hresumes : (flight.spendCycle.storeOperand value).Resumable d.cycle.2.settings := by
    rw [settings_cycle]
    exact hlacks.resumable_storeOperand hstarted value
  have hiff := settlesExactly_iff_of_not_lacksTwo (fun _ => rfl) hnext hresumes.fits
    (hlacks.not_lacksTwo_storeOperand value)
  obtain ⟨e, he, htotal⟩ := exactTotal_withAdded 255
  obtain rfl := Option.some.inj (hbefore.symm.trans he)
  have hwrong : ¬ (d.tick 1).SettlesExactly := by
    intro hexact
    have hfits := hiff.mp hexact _ hafter
    rw [f.exactTotal_spendCycle, htotal] at hfits
    exact absurd hfits (by decide)
  refine ⟨d, rfl, restore_withAdded 255, hwrong, Option.eq_none_iff_forall_ne_some.mpr ?_⟩
  intro last hlast
  exact hwrong (settlesExactly_of_checkedTick hlast 1 (Nat.lt_succ_self 1))

end Cpu

end W65C02
