import W65C02.Proofs.Cpu.Calls
import W65C02.Proofs.Cpu.Service

/-!
# Interrupt sequences in a single stroke

A request is acknowledged in the first cycle of its sequence and served in the second; the other
five pass in waiting. On a bus without another master a step goes through all seven, and what it
comes to is the service of the request and nothing else.
-/

namespace W65C02

/-- What is retiring is complete when its last cycle is spent. -/
theorem InFlight.isDone_spendCycle {flight : InFlight} (hphase : flight.phase = .retire)
    (helapsed : flight.elapsed.toNat < flight.total.toNat) :
    flight.spendCycle.isDone = decide (flight.total.toNat = flight.elapsed.toNat + 1) := by
  have htotal := flight.total.toNat_lt
  have hspend := toNat_spendCycle (show flight.elapsed.toNat < 255 by omega)
  have hle : flight.total ≤ flight.spendCycle.elapsed ↔
      flight.total.toNat = flight.elapsed.toNat + 1 := by
    rw [UInt8.le_iff_toNat_le, hspend]
    omega
  have hretires : flight.spendCycle.phase = .retire := hphase
  simp only [isDone, hretires, decide_true, Bool.true_and]
  exact decide_eq_decide.mpr hle

/-- A sequence is served in its second cycle. -/
theorem InFlight.elapsed_spendCycle_ofVector (vector : InterruptVector) :
    (InFlight.ofVector vector).spendCycle.elapsed = serviceCycle :=
  rfl

namespace Cpu

variable {β : Type} [Bus β] {c d : Cpu β}

/-- Where the work is done nothing is left but to count the cycle. -/
theorem cycle_of_retire (hbus : Bus.cpuHasBus c.bus = true) {flight : InFlight}
    (hflight : c.inFlight = some flight) (hphase : flight.phase = .retire) :
    c.cycle = (true, c.clocked.settle ⟨c.regs, c.runMode, flight.spendCycle, c.port⟩) := by
  rw [cycle_of_inFlight hbus hflight, Execution.resume_of_retire _ hphase]

/-- A step goes on after a cycle that leaves something in flight. -/
theorem stepWithin_succ (hcycle : c.cycle = (true, d)) (hflight : d.inFlight.isSome = true)
    (limit : ℕ) :
    c.stepWithin (limit + 1) = ((d.stepWithin limit).1 + 1, (d.stepWithin limit).2) := by
  simp only [stepWithin, hcycle, hflight, Bool.and_true, if_true]

/-- Where the work is done, a step waits for the cycles that are left and completes what is in
flight with the last one. -/
theorem stepWithin_of_retire {flight : InFlight} (hbus : Bus.cpuHasBus c.bus = true)
    (hflight : c.inFlight = some flight) (hphase : flight.phase = .retire) {n : ℕ}
    (hleft : flight.elapsed.toNat + (n + 1) = flight.total.toNat) {limit : ℕ} (hlimit : n < limit) :
    c.stepWithin limit = (n + 1,
      { c with
        inFlight := none
        counters := { c.counters with
          cycles := c.counters.cycles + UInt64.ofNat (n + 1) }.complete flight.activity }) := by
  induction n generalizing c flight limit with
  | zero =>
    obtain ⟨limit, rfl⟩ := Nat.exists_eq_succ_of_ne_zero (by omega : limit ≠ 0)
    have hdone : flight.spendCycle.isDone = true :=
      (InFlight.isDone_spendCycle hphase (by omega)).trans (decide_eq_true (by omega))
    have hcycle := cycle_of_retire hbus hflight hphase
    rw [settle_of_isDone _ hdone] at hcycle
    simp only [stepWithin, hcycle, Option.isSome_none, Bool.and_false, Bool.false_eq_true, if_false]
    rfl
  | succ n ih =>
    obtain ⟨limit, rfl⟩ := Nat.exists_eq_succ_of_ne_zero (by omega : limit ≠ 0)
    have hgoes : flight.spendCycle.isDone = false :=
      (InFlight.isDone_spendCycle hphase (by omega)).trans (decide_eq_false (by omega))
    have hcycle := cycle_of_retire hbus hflight hphase
    rw [settle_of_not_isDone _ hgoes] at hcycle
    have htotal := flight.total.toNat_lt
    have hspend := InFlight.toNat_spendCycle (show flight.elapsed.toNat < 255 by omega)
    have hleft' : flight.spendCycle.elapsed.toNat + (n + 1) = flight.spendCycle.total.toNat := by
      rw [hspend]
      exact Nat.add_right_comm _ _ _ |>.trans hleft
    have hcount : c.counters.cycles + 1 + UInt64.ofNat (n + 1) =
        c.counters.cycles + UInt64.ofNat (n + 1 + 1) := by
      rw [UInt64.ofNat_add (n + 1), UInt64.add_comm (UInt64.ofNat (n + 1)), UInt64.add_assoc]
      rfl
    have hbus' : Bus.cpuHasBus c.cycle.2.bus = true := by
      rw [hcycle]
      exact hbus
    have hflight' : c.cycle.2.inFlight = some flight.spendCycle := by
      rw [hcycle]
    have hrest := ih hbus' hflight' hphase hleft' (Nat.lt_of_succ_lt_succ hlimit)
    rw [hcycle] at hrest
    rw [stepWithin_succ hcycle rfl, hrest]
    simp only [clocked, hcount]
    rfl

/-- The service of a request on a line, all at once. -/
def service (c : Cpu β) (runMode : RunMode) (line : Line) : Execution β :=
  (⟨c.regs, runMode, .ofVector ⟨c.settings.vectorOf line, line⟩,
    ⟨c.bus, c.interrupts.lines.serve line⟩⟩ : Execution β).serve ⟨c.settings.vectorOf line, line⟩

/-- The processor after the sequence that serves a request: the acknowledgement is in the log, the
request has been served, and the sequence has been counted. -/
def afterSequence (c : Cpu β) (runMode : RunMode) (line : Line) : Cpu β :=
  { c with
    regs := (c.service runMode line).regs
    runMode := (c.service runMode line).runMode
    inFlight := none
    bus := (c.service runMode line).port.bus
    interrupts :=
      { c.interrupts.enter ⟨c.settings.vectorOf line, line⟩ with
        lines := (c.service runMode line).port.lines }
    counters := { c.counters with
      cycles := c.counters.cycles + 7
      interruptsServiced := c.counters.interruptsServiced + 1 } }

/-- At a boundary an eligible request takes a step of seven cycles, and all of its effect is the
service of the request. -/
theorem step_of_asked (hsole : ∀ bus : β, Bus.cpuHasBus bus = true) (hboundary : c.inFlight = none)
    {runMode : RunMode} (hwake : c.wake? = some runMode) {line : Line}
    (hnext : c.interrupts.lines.next (c.regs.flag Status.irqDisable) = some line) :
    c.step = (7, c.afterSequence runMode line) := by
  let vector : InterruptVector := ⟨c.settings.vectorOf line, line⟩
  let acknowledged : Cpu β :=
    { c.clocked with
      runMode
      interrupts := { c.interrupts with lines := c.interrupts.lines.serve line }.enter vector
      inFlight := some (.ofVector vector) }
  let work : Execution β :=
    ⟨c.regs, runMode, (InFlight.ofVector vector).spendCycle,
      ⟨c.bus, c.interrupts.lines.serve line⟩⟩
  have hfirst : c.cycle = (true, acknowledged) := by
    rw [cycle_of_wake (hsole _) hboundary hwake, clocked_start]
    simp only [InterruptController.acknowledge, hnext]
    rfl
  have hsecond : acknowledged.cycle = (true, acknowledged.clocked.settle (work.serve vector)) := by
    have hserves : serviceCycle ≤ work.inFlight.elapsed := by
      rw [InFlight.elapsed_spendCycle_ofVector]
      exact UInt8.le_refl _
    have hresume := Execution.resume_of_acknowledged acknowledged.settings.irqVector
      (e := work) rfl rfl hserves
    rw [cycle_of_inFlight (hsole _) rfl, ← hresume]
    rfl
  have hflight : (work.serve vector).inFlight =
      { (InFlight.ofVector vector).spendCycle with phase := .retire } :=
    Execution.serve_inFlight vector
  have hgoes : (work.serve vector).inFlight.isDone = false := by
    rw [hflight]
    rfl
  rw [settle_of_not_isDone _ hgoes, hflight] at hsecond
  have hwaits : acknowledged.cycle.2.inFlight =
      some { (InFlight.ofVector vector).spendCycle with phase := .retire } := by
    rw [hsecond]
  have hrest := stepWithin_of_retire (n := 4) (hsole _) hwaits rfl rfl (show 4 < 253 by omega)
  rw [hsecond] at hrest
  change c.stepWithin (253 + 1 + 1) = _
  rw [stepWithin_succ hfirst rfl, stepWithin_succ hsecond rfl, hrest]
  have hcount : c.counters.cycles + 1 + 1 + UInt64.ofNat 5 = c.counters.cycles + 7 := by
    rw [UInt64.add_assoc, UInt64.add_assoc]
    rfl
  have hserve : work.serve vector =
      { c.service runMode line with
        inFlight := { (InFlight.ofVector vector).spendCycle with phase := .retire } } := by
    cases line <;> rfl
  simp only [hserve, acknowledged, clocked, hcount]
  cases line <;> rfl

end Cpu

end W65C02
