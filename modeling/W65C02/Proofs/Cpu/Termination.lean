import W65C02.Proofs.Cpu.Acceptance
import W65C02.Proofs.Cpu.Halting
import W65C02.Proofs.Cpu.Sequence

/-!
# A step comes to an end

A processor may take over a snapshot that it could not have come to by itself. Even so a step from
there ends by itself, at an instruction boundary, with one thing completed. What bounds it is the
count of elapsed cycles: the work is done in the first or in the second cycle, and from then on that
count rises towards a total that is a byte as well. On the way no operand byte is stored outside its
two places.
-/

namespace W65C02

/-- Stores an operand byte at the next free place. There has to be one. -/
def InFlight.storeOperand? (flight : InFlight) (value : UInt8) : Option InFlight :=
  if h : flight.fetched.toNat < 2 then
    some { flight with
      operand := flight.operand.set flight.fetched.toNat value h
      fetched := flight.fetched + 1 }
  else none

/-- While fewer than two bytes have been fetched there is a place for the next. -/
theorem InFlight.storeOperand?_eq_some {flight : InFlight} (h : flight.fetched.toNat < 2)
    (value : UInt8) : flight.storeOperand? value = some (flight.storeOperand value) := by
  have hplace : flight.operand.set flight.fetched.toNat value h =
      flight.operand.setIfInBounds flight.fetched.toNat value := by
    simp only [Vector.setIfInBounds, Vector.set, Array.setIfInBounds, Vector.size_toArray, h,
      dif_pos]
  rw [storeOperand?, dif_pos h, hplace]
  rfl

/-- The count of elapsed cycles rises by one until it is at its largest value. -/
theorem InFlight.toNat_spendCycle_eq_min (flight : InFlight) :
    flight.spendCycle.elapsed.toNat = min 255 (flight.elapsed.toNat + 1) := by
  have hbyte := flight.elapsed.toNat_lt
  by_cases hmax : flight.elapsed = 0xFF
  · simp only [spendCycle, hmax, if_true, UInt8.reduceToNat]
    rfl
  · have hless : flight.elapsed.toNat ≠ 255 := fun heq => hmax (UInt8.toNat_inj.mp heq)
    rw [toNat_spendCycle (by omega)]
    omega

namespace Execution

variable {β : Type} [Bus β]

/-- Fetches the next operand byte. There has to be a place for it. -/
def fetchOperand? (e : Execution β) : Option (Execution β) :=
  (e.inFlight.storeOperand? (e.port.read e.regs.pc).1).map fun inFlight =>
    { e with regs := e.regs.nextByte, inFlight, port := (e.port.read e.regs.pc).2 }

/-- The work of one cycle after the first, if every operand byte finds a place. -/
def resume? (e : Execution β) (irqVector : UInt16) : Option (Execution β) :=
  match e.inFlight.activity, e.inFlight.phase with
  | .instruction, .fetch | .instruction, .decode =>
    let needed := operandSize e.inFlight.opcode
    (if e.inFlight.fetched.toNat < needed then e.fetchOperand? else some e).map fun e =>
      if needed ≤ e.inFlight.fetched.toNat then e.finishWork irqVector else e
  | _, _ => some (e.resume irqVector)

/-- An operand byte is fetched only if the opcode has one, and then there is a place for it. -/
theorem resume?_eq_some (e : Execution β) (irqVector : UInt16) :
    e.resume? irqVector = some (e.resume irqVector) := by
  have hfetches : (if e.inFlight.fetched.toNat < operandSize e.inFlight.opcode then e.fetchOperand?
      else some e) =
      some (if e.inFlight.fetched.toNat < operandSize e.inFlight.opcode then e.fetchOperand
        else e) := by
    by_cases hmissing : e.inFlight.fetched.toNat < operandSize e.inFlight.opcode
    · have hsize : operandSize e.inFlight.opcode ≤ 2 :=
        (Descriptor.ofOpcode e.inFlight.opcode).mode.operandSize_le_two
      rw [if_pos hmissing, if_pos hmissing, fetchOperand?,
        InFlight.storeOperand?_eq_some (Nat.lt_of_lt_of_le hmissing hsize)]
      rfl
    · rw [if_neg hmissing, if_neg hmissing]
  unfold resume?
  cases hactivity : e.inFlight.activity with
  | interrupt vector => rfl
  | instruction =>
    cases hphase : e.inFlight.phase with
    | fetch =>
      rw [resume_of_fetching irqVector hactivity (.inl hphase) rfl]
      simp only [hfetches, Option.map_some]
    | decode =>
      rw [resume_of_fetching irqVector hactivity (.inr hphase) rfl]
      simp only [hfetches, Option.map_some]
    | resolveAddress | operate | updateFlags | retire => rfl

end Execution

namespace Cpu

variable {β : Type} [Bus β]

/-- One clock cycle, if every operand byte finds a place. -/
def cycle? (c : Cpu β) : Option (Bool × Cpu β) :=
  match Bus.cpuHasBus c.bus, c.inFlight with
  | true, some flight =>
    ((⟨c.regs, c.runMode, flight.spendCycle, c.port⟩ : Execution β).resume?
      c.settings.irqVector).map fun e => (true, c.clocked.settle e)
  | _, _ => some c.cycle

/-- At most the given number of cycles, as in a step, if every operand byte finds a place. -/
def stepWithin? (c : Cpu β) : ℕ → Option (ℕ × Cpu β)
  | 0 => some (0, c)
  | limit + 1 =>
    c.cycle?.bind fun (progressed, c) =>
      if progressed && c.inFlight.isSome then
        (c.stepWithin? limit).map fun (spent, c) => (spent + 1, c)
      else some (1, c)

/-- In a cycle every operand byte finds a place. -/
theorem cycle?_eq_some (c : Cpu β) : c.cycle? = some c.cycle := by
  unfold cycle?
  cases hbus : Bus.cpuHasBus c.bus with
  | false => rfl
  | true =>
    cases hflight : c.inFlight with
    | none => rfl
    | some flight =>
      rw [cycle_of_inFlight hbus hflight]
      simp only [Execution.resume?_eq_some, Option.map_some]

/-- In a step every operand byte finds a place. -/
theorem stepWithin?_eq_some (c : Cpu β) (limit : ℕ) :
    c.stepWithin? limit = some (c.stepWithin limit) := by
  induction limit generalizing c with
  | zero => rfl
  | succ limit ih =>
    unfold stepWithin stepWithin?
    by_cases hgo : (c.cycle.1 && c.cycle.2.inFlight.isSome) = true
    · simp only [cycle?_eq_some, Option.bind_some, if_pos hgo, ih, Option.map_some]
    · simp only [cycle?_eq_some, Option.bind_some, if_neg hgo]

/-- A step takes a number of cycles, whatever limit it is given, and completes one activity. -/
structure Completes (c : Cpu β) (n : ℕ) (activity : Activity) : Prop where
  /-- There is a cycle in it. -/
  pos : 0 < n
  /-- The step ends by itself. -/
  returns : ∀ limit, n ≤ limit → c.stepWithin limit = (n, c.tick n)
  /-- It ends at an instruction boundary. -/
  boundary : (c.tick n).inFlight = none
  /-- The cycles are counted, and one thing is completed. -/
  counters : (c.tick n).counters =
    { c.counters with cycles := c.counters.cycles + UInt64.ofNat n }.complete activity

namespace Completes

variable {c d : Cpu β} {activity : Activity}

/-- A single cycle completes what it leaves nothing of. -/
theorem of_cycle (hboundary : c.cycle.2.inFlight = none)
    (hcounters : c.cycle.2.counters = c.clocked.counters.complete activity) :
    c.Completes 1 activity where
  pos := Nat.one_pos
  returns limit hlimit := by
    obtain ⟨limit, rfl⟩ := Nat.exists_eq_add_of_le' hlimit
    simp only [stepWithin, hboundary, Option.isSome_none, Bool.and_false, Bool.false_eq_true,
      if_false]
    rfl
  boundary := hboundary
  counters := hcounters

/-- A cycle that leaves something in flight comes before the rest of the step. -/
theorem cycle {n : ℕ} (h : d.Completes n activity) (hcycle : c.cycle = (true, d))
    (hflight : d.inFlight.isSome = true) (hcounters : d.counters = c.clocked.counters) :
    c.Completes (n + 1) activity := by
  have htick : c.tick (n + 1) = d.tick n := by
    rw [tick, hcycle]
  constructor
  case pos => exact Nat.succ_pos n
  case returns =>
    intro limit hlimit
    obtain ⟨limit, rfl⟩ := Nat.exists_eq_add_of_le' (Nat.lt_of_lt_of_le n.succ_pos hlimit)
    rw [stepWithin_succ hcycle hflight, h.returns limit (Nat.le_of_succ_le_succ hlimit), htick]
  case boundary => rw [htick, h.boundary]
  case counters =>
    have hcount : c.counters.cycles + 1 + UInt64.ofNat n =
        c.counters.cycles + UInt64.ofNat (n + 1) := by
      rw [UInt64.add_assoc, UInt64.add_comm 1, UInt64.ofNat_add]
      rfl
    rw [htick, h.counters, hcounters]
    simp only [clocked, hcount]

end Completes

variable {c : Cpu β} {flight : InFlight}

/-- Where the work is done the count of elapsed cycles goes on up to the total. -/
theorem completes_of_retire (hbus : Bus.cpuHasBus c.bus = true) (hflight : c.inFlight = some flight)
    (hphase : flight.phase = .retire) :
    ∃ n ≤ max 1 (255 - flight.elapsed.toNat), c.Completes n flight.activity := by
  have htotal := flight.total.toNat_lt
  by_cases hleft : flight.elapsed.toNat < flight.total.toNat
  · obtain ⟨n, hn⟩ := Nat.exists_eq_add_of_lt hleft
    have hwaits (limit : ℕ) (hlimit : n < limit) :=
      stepWithin_of_retire hbus hflight hphase (Nat.add_assoc _ n 1 ▸ hn.symm) hlimit
    have hend := c.stepWithin_eq_tick (n + 1)
    rw [hwaits (n + 1) n.lt_succ_self] at hend
    refine ⟨n + 1, by omega, ⟨n.succ_pos, fun limit hlimit => ?_, ?_, ?_⟩⟩
    · rw [hwaits limit hlimit]
      exact hend
    · exact congrArg (·.2.inFlight) hend.symm
    · exact congrArg (·.2.counters) hend.symm
  · have hspent : flight.total ≤ flight.spendCycle.elapsed := by
      rw [UInt8.le_iff_toNat_le, InFlight.toNat_spendCycle_eq_min]
      omega
    have hdone : flight.spendCycle.isDone = true := by
      simp only [InFlight.isDone, InFlight.spendCycle, hphase, decide_true, Bool.true_and]
      exact decide_eq_true hspent
    have hcycle := cycle_of_retire hbus hflight hphase
    rw [settle_of_isDone _ hdone] at hcycle
    refine ⟨1, Nat.le_max_left _ _, .of_cycle ?_ ?_⟩ <;> rw [hcycle]
    rfl

section

variable (hsole : ∀ bus : β, Bus.cpuHasBus bus = true)

include hsole

/-- What does not lack two operand bytes has its work done in one cycle. -/
theorem completes_of_not_lacksTwo (hflight : c.inFlight = some flight)
    (h : flight.Resumable c.settings) (hlacks : ¬ flight.LacksTwo) :
    ∃ n ≤ max 1 (255 - flight.elapsed.toNat), c.Completes n flight.activity := by
  have hcycle := cycle_of_inFlight (hsole c.bus) hflight
  have hwork := Execution.workDone_resume
    (e := ⟨c.regs, c.runMode, flight.spendCycle, c.port⟩) c.settings.irqVector h.fits
    (InFlight.serviceCycle_le_spendCycle h.started) fun hspent => hlacks hspent.of_spendCycle
  have hactivity := Execution.activity_resume
    ⟨c.regs, c.runMode, flight.spendCycle, c.port⟩ c.settings.irqVector
  revert hcycle hwork hactivity
  generalize (⟨c.regs, c.runMode, flight.spendCycle, c.port⟩ : Execution β).resume
    c.settings.irqVector = e
  intro hcycle hwork hactivity
  change e.inFlight.activity = flight.activity at hactivity
  cases hdone : e.inFlight.isDone with
  | true =>
    rw [settle_of_isDone _ hdone] at hcycle
    refine ⟨1, Nat.le_max_left _ _, .of_cycle ?_ ?_⟩ <;> rw [hcycle]
    rw [hactivity]
  | false =>
    rw [settle_of_not_isDone _ hdone] at hcycle
    have hspent := congrArg UInt8.toNat hwork.elapsed
    rw [InFlight.toNat_spendCycle_eq_min] at hspent
    rw [InFlight.isDone_eq_false hwork.phase] at hdone
    have htotal := e.inFlight.total.toNat_lt
    obtain ⟨n, hn, hrest⟩ := completes_of_retire (c := c.cycle.2) (hsole _)
      (congrArg (·.2.inFlight) hcycle) hwork.phase
    rw [hcycle] at hrest
    refine ⟨n + 1, by omega, hactivity ▸ hrest.cycle hcycle rfl rfl⟩

/-- Whatever a processor can go on with it completes. -/
theorem completes_of_resumable (hflight : c.inFlight = some flight)
    (h : flight.Resumable c.settings) :
    ∃ n ≤ max 2 (255 - flight.elapsed.toNat), c.Completes n flight.activity := by
  by_cases hlacks : flight.LacksTwo
  · -- The first cycle fetches one of the two bytes, and the second one does the work.
    have hcycle := cycle_of_lacksTwo (hsole c.bus) hflight hlacks
    rw [settle_of_not_isDone _ (hlacks.isDone_storeOperand _)] at hcycle
    have hspent (value : UInt8) : (flight.spendCycle.storeOperand value).elapsed.toNat =
        min 255 (flight.elapsed.toNat + 1) := flight.toNat_spendCycle_eq_min
    obtain ⟨n, hn, hrest⟩ := completes_of_not_lacksTwo (c := c.cycle.2) hsole
      (congrArg (·.2.inFlight) hcycle)
      (settings_cycle c ▸ hlacks.resumable_storeOperand h.started _)
      (hlacks.not_lacksTwo_storeOperand _)
    rw [hspent] at hn
    rw [hcycle] at hrest
    exact ⟨n + 1, by omega, hrest.cycle hcycle rfl rfl⟩
  · obtain ⟨n, hn, hcompletes⟩ := completes_of_not_lacksTwo hsole hflight h hlacks
    exact ⟨n, by omega, hcompletes⟩

/-- At a boundary a processor that is not halted completes an instruction or an interrupt
sequence. -/
theorem completes_of_wake (hboundary : c.inFlight = none) {runMode : RunMode}
    (hwake : c.wake? = some runMode) : ∃ n ≤ 255, ∃ activity, c.Completes n activity := by
  have hcycle := cycle_of_wake (hsole c.bus) hboundary hwake
  have hresumable {flight : InFlight} (hnext : c.cycle.2.inFlight = some flight) :
      flight.Resumable c.cycle.2.settings ∧ flight.elapsed.toNat ≠ 0 := by
    rw [settings_cycle]
    rw [hcycle] at hnext
    have hresumable := InFlight.resumable_of_validate (consistent_start hnext).validate
    exact ⟨hresumable, fun hzero => hresumable.started (UInt8.toNat_inj.mp hzero)⟩
  -- What is started has at most 254 more cycles, as one has been spent.
  have hgoes {flight : InFlight} (hnext : c.cycle.2.inFlight = some flight)
      (hcounters : c.cycle.2.counters = c.clocked.counters) :
      ∃ n ≤ 255, ∃ activity, c.Completes n activity := by
    obtain ⟨hresumes, hspent⟩ := hresumable hnext
    obtain ⟨n, hn, hrest⟩ := completes_of_resumable hsole hnext hresumes
    have hprogress : c.cycle.1 = true := by rw [hcycle]
    exact ⟨n + 1, by omega, flight.activity,
      hrest.cycle (Prod.ext hprogress rfl) (Option.isSome_of_eq_some hnext) hcounters⟩
  rw [clocked_start] at hcycle
  split at hcycle
  · exact hgoes (congrArg (·.2.inFlight) hcycle) (congrArg (·.2.counters) hcycle)
  · have hactivity := Execution.activity_fetchOpcode
      (⟨c.regs, runMode, .ofOpcode 0, c.port⟩ : Execution β) c.settings.irqVector
    generalize (⟨c.regs, runMode, .ofOpcode 0, c.port⟩ : Execution β).fetchOpcode
      c.settings.irqVector = e at hcycle hactivity
    cases hdone : e.inFlight.isDone with
    | true =>
      rw [settle_of_isDone _ hdone, hactivity] at hcycle
      refine ⟨1, by decide, .instruction, .of_cycle ?_ ?_⟩ <;> rw [hcycle]
    | false =>
      rw [settle_of_not_isDone _ hdone] at hcycle
      exact hgoes (congrArg (·.2.inFlight) hcycle) (congrArg (·.2.counters) hcycle)

end

/-- A processor that nothing wakes spends one cycle in a step and does nothing else. -/
theorem stepWithin_of_not_wakes (hbus : Bus.cpuHasBus c.bus = true) (hboundary : c.inFlight = none)
    (hrests : ¬ Wakes c.runMode c.port) (limit : ℕ) :
    c.stepWithin (limit + 1) = (1, c.clocked) := by
  have hwake : c.wake? = none := by
    rw [wakes_iff, not_and, Option.not_isSome_iff_eq_none] at hrests
    exact hrests hbus
  simp only [stepWithin, cycle_of_halted hbus hboundary hwake, Bool.false_and, Bool.false_eq_true,
    if_false]

/-- After taking over a snapshot, whatever it holds, a step ends within 255 cycles at an instruction
boundary and completes one instruction or interrupt sequence, unless the processor is halted at a
boundary and nothing wakes it. Then the step takes one cycle and does nothing but count it. In
either case every operand byte finds a place. -/
theorem step_ends_of_restore {c d : Cpu Memory} {state : CpuSnapshot}
    (h : c.restore state = .ok d) :
    (∀ limit, d.stepWithin? limit = some (d.stepWithin limit)) ∧
      (d.inFlight = none ∧ ¬ Wakes d.runMode d.port →
        ∀ limit, d.stepWithin (limit + 1) = (1, d.clocked)) ∧
      (¬ (d.inFlight = none ∧ ¬ Wakes d.runMode d.port) →
        ∃ n ≤ 255, ∃ activity, d.Completes n activity) := by
  obtain ⟨hresumable, -⟩ := Resumable.of_restore h
  have hsole (bus : Memory) : Bus.cpuHasBus bus = true := rfl
  refine ⟨d.stepWithin?_eq_some, fun hrests => stepWithin_of_not_wakes rfl hrests.1 hrests.2,
    fun hgoes => ?_⟩
  cases hflight : d.inFlight with
  | some flight =>
    obtain ⟨n, hn, hcompletes⟩ := completes_of_resumable hsole hflight
      (hresumable.inFlight flight hflight)
    exact ⟨n, by omega, flight.activity, hcompletes⟩
  | none =>
    have hwakes := not_not.mp fun hrests => hgoes ⟨hflight, hrests⟩
    obtain ⟨runMode, hwake⟩ := Option.isSome_iff_exists.mp (wakes_iff.mp hwakes).2
    exact completes_of_wake hsole hflight hwake

/-- An instruction without its operand bytes, recorded as done but for a wait of 254 cycles. -/
def overlong : CpuSnapshot :=
  { cutShort with
    inFlight := some { InFlight.ofOpcode 0xAD with phase := .retire, total := 0xFF } }

/-- It is accepted, and a step from there takes those 254 cycles. -/
theorem step_ends_overlong :
    atRest.restore overlong = .ok (atRest.apply overlong) ∧
      ¬ ((atRest.apply overlong).inFlight = none ∧
        ¬ Wakes (atRest.apply overlong).runMode (atRest.apply overlong).port) ∧
      (∃ n ≤ 255, ∃ activity, (atRest.apply overlong).Completes n activity) ∧
      (atRest.apply overlong).step.1 = 254 := by
  have hrestore : atRest.restore overlong = .ok (atRest.apply overlong) := rfl
  have hgoes : ¬ ((atRest.apply overlong).inFlight = none ∧
      ¬ Wakes (atRest.apply overlong).runMode (atRest.apply overlong).port) := nofun
  have hwaits := stepWithin_of_retire (c := atRest.apply overlong) (n := 253) rfl rfl rfl rfl
    (show 253 < stepLimit by decide)
  exact ⟨hrestore, hgoes, (step_ends_of_restore hrestore).2.2 hgoes, congrArg Prod.fst hwaits⟩

end Cpu

end W65C02
