import W65C02.Proofs.Cpu.Deeds

/-!
# Each interrupt is served once

Three parts of a processor keep books on interrupts: the controller counts what is acknowledged and
keeps a record of it, the counters have what was completed, and what is in flight lies between the
two. They agree at all times, however cycles, moves of the lines, stalls and register writes are
interleaved. Whatever is acknowledged is served before anything else is acknowledged, and only once.
-/

namespace W65C02

/-- All acknowledgements. -/
def LineCounts.total (counts : LineCounts) : UInt64 := counts.reset + counts.nmi + counts.irq

/-- One more acknowledgement is counted in total. -/
theorem LineCounts.total_count (counts : LineCounts) (line : Line) :
    (counts.count line).total = counts.total + 1 := by
  unfold total
  cases line with
  | reset | nmi | irq =>
    simp only [count]
    ac_rfl

namespace InFlight

/-- The interrupt that is in flight. -/
def interrupt? (flight : InFlight) : Option InterruptVector :=
  match flight.activity with
  | .interrupt vector => some vector
  | .instruction => none

/-- The interrupt that is in flight and has not been served. -/
def unserved? (flight : InFlight) : Option InterruptVector :=
  if flight.phase = .retire then none else flight.interrupt?

end InFlight

/-- The world after the program counter and the status were pushed. -/
def Port.saveFrame {β : Type} [Bus β] (port : Port β) (regs : Registers) (software : Bool) :
    Port β :=
  ((port.write (stackAddress regs.s) (highByte regs.pc)).write
    (stackAddress (regs.s - 1)) (lowByte regs.pc)).write
    (stackAddress (regs.s - 2)) (regs.statusToPush software)

namespace Execution

variable {β : Type} [Bus β] {e : Execution β}

/-- The way into the routine of an interrupt or of `BRK`. -/
theorem interruptTo_eq (e : Execution β) (software : Bool) (vector : UInt16) :
    e.interruptTo software vector =
      { e with
        port := ((e.port.saveFrame e.regs software).readPointer vector).2
        regs := { (e.regs.withFlag Status.irqDisable true).withFlag Status.decimal false with
          s := e.regs.s - 3
          pc := ((e.port.saveFrame e.regs software).readPointer vector).1 } } := by
  have htwo : e.regs.s - 2 = e.regs.s - 1 - 1 := by grind
  have hthree : e.regs.s - 3 = e.regs.s - 1 - 1 - 1 := by grind
  simp only [Port.saveFrame, htwo, hthree]
  rfl

/-- Serving an interrupt other than RESET is the way into its routine. -/
theorem serve_of_ne_reset (e : Execution β) (address : UInt16) {line : Line}
    (h : line ≠ .reset) :
    e.serve ⟨address, line⟩ =
      { e.interruptTo false address with inFlight.phase := .retire } := by
  cases line with
  | reset => exact absurd rfl h
  | nmi | irq => rfl

/-- No operation changes what is in flight. -/
theorem activity_perform (operation : Operation) (mode : AddressingMode) (irqVector : UInt16)
    (e : Execution β) :
    (operation.perform mode irqVector e).inFlight.activity = e.inFlight.activity := by
  obtain ⟨_, _, _, hflight⟩ := operation.perform_inFlight mode irqVector e
  rw [hflight]

/-- What is in flight stays what it is. -/
theorem Works.activity_eq {irqVector : UInt16} {deed? : Option Deed} {f : Execution β}
    (h : e.Works irqVector deed? f) : f.inFlight.activity = e.inFlight.activity := by
  cases h with
  | serves vector activity phase => rw [serve_inFlight]
  | performs activity =>
    exact (activity_perform _ _ irqVector e.prepared).trans e.prepared_keeps.2
  | fetches activity | concludes activity => rfl
  | waits => rfl

/-- An interrupt stays what it is. -/
theorem Works.interrupt?_eq {irqVector : UInt16} {deed? : Option Deed} {f : Execution β}
    (h : e.Works irqVector deed? f) : f.inFlight.interrupt? = e.inFlight.interrupt? := by
  simp only [InFlight.interrupt?, h.activity_eq]

end Execution

namespace Cpu

variable {β : Type}

/-- The interrupt that is in flight. -/
def interrupt? (c : Cpu β) : Option InterruptVector := c.inFlight.bind (·.interrupt?)

/-- The interrupt that has been acknowledged and is still to be served. -/
def unserved? (c : Cpu β) : Option InterruptVector := c.inFlight.bind (·.unserved?)

/-- One if an interrupt is in flight, and else zero. -/
def interruptsInFlight (c : Cpu β) : UInt64 := if c.interrupt?.isSome then 1 else 0

/-- The books on interrupts agree. -/
structure Accounts (c : Cpu β) : Prop where
  /-- What was acknowledged was completed or is in flight. -/
  counts : c.interrupts.counts.total = c.counters.interruptsServiced + c.interruptsInFlight
  /-- What is in flight is what was acknowledged last. -/
  newest : ∀ vector, c.interrupt? = some vector →
    c.interrupts.log.getLast?.map (·.vector) = some vector

/-- An interrupt stays in flight until it is done. -/
theorem interrupt?_settle (c : Cpu β) (e : Execution β) :
    (c.settle e).interrupt? = if e.inFlight.isDone then none else e.inFlight.interrupt? := by
  unfold interrupt? settle
  simp only
  split <;> rfl

/-- What is complete was served. -/
theorem unserved?_settle (c : Cpu β) (e : Execution β) :
    (c.settle e).unserved? = e.inFlight.unserved? := by
  cases hdone : e.inFlight.isDone with
  | false =>
    rw [settle_of_not_isDone c hdone]
    rfl
  | true =>
    have hphase : e.inFlight.phase = .retire := by
      have hboth := Bool.and_eq_true_iff.mp hdone
      exact of_decide_eq_true hboth.1
    rw [settle_of_isDone c hdone, InFlight.unserved?, if_pos hphase]
    rfl

/-- The work of a cycle completes an interrupt or leaves it in flight. -/
theorem Accounts.settle {c : Cpu β} (h : c.Accounts) {e : Execution β}
    (hsame : e.inFlight.interrupt? = c.interrupt?) : (c.clocked.settle e).Accounts := by
  have hinterrupt := c.clocked.interrupt?_settle e
  cases hdone : e.inFlight.isDone with
  | false =>
    rw [hdone, if_neg Bool.false_ne_true, hsame] at hinterrupt
    have hcounts := h.counts
    unfold interruptsInFlight at hcounts
    constructor
    · rw [interruptsInFlight, hinterrupt, settle_of_not_isDone _ hdone]
      exact hcounts
    · rw [hinterrupt]
      exact h.newest
  | true =>
    rw [hdone, if_pos rfl] at hinterrupt
    have hcounts := h.counts
    unfold interruptsInFlight at hcounts
    rw [← hsame, InFlight.interrupt?] at hcounts
    constructor
    · rw [interruptsInFlight, hinterrupt, settle_of_isDone _ hdone]
      cases hactivity : e.inFlight.activity with
      | instruction =>
        rw [hactivity] at hcounts
        exact hcounts
      | interrupt vector =>
        rw [hactivity] at hcounts
        exact hcounts.trans (UInt64.add_zero _).symm
    · intro vector hnone
      rw [hinterrupt] at hnone
      cases hnone

/-- With an acknowledgement one more interrupt is counted and in flight. -/
theorem Accounts.acknowledge {c : Cpu β} (h : c.Accounts) (hboundary : c.inFlight = none)
    (runMode : RunMode) (lines : Lines) (vector : InterruptVector) :
    ({ c.clocked with
        runMode
        interrupts := { c.interrupts with lines }.enter vector
        inFlight := some (.ofVector vector) } : Cpu β).Accounts := by
  have hnone : c.interruptsInFlight = 0 := by
    unfold interruptsInFlight interrupt?
    rw [hboundary]
    rfl
  have hcounts := h.counts
  rw [hnone, UInt64.add_zero] at hcounts
  constructor
  · change (c.interrupts.counts.count vector.line).total = c.counters.interruptsServiced + 1
    rw [LineCounts.total_count, hcounts]
  · rintro _ ⟨⟩
    simp only [InterruptController.log, List.getLast?_reverse, InterruptController.enter]
    rfl

section

variable [Bus β] {c : Cpu β}

/-- After a cycle the books agree, -/
theorem Accounts.cycle (h : c.Accounts) : c.cycle.2.Accounts := by
  have hdoes := c.does_cycle
  generalize c.deed? = deed at hdoes
  generalize c.cycle.2 = d at hdoes ⊢
  cases hdoes with
  | acknowledges runMode line boundary next => exact h.acknowledge boundary runMode _ _
  | fetches runMode boundary work =>
    refine h.settle ?_
    rw [work.interrupt?_eq, interrupt?, boundary]
    rfl
  | resumes flight inFlight work =>
    refine h.settle ?_
    rw [work.interrupt?_eq, interrupt?, inFlight]
    rfl
  | idles counters instructions interrupts =>
    refine ⟨?_, h.newest⟩
    simp only [interrupts]
    exact h.counts

/-- after each event, -/
theorem Accounts.after (h : c.Accounts) (event : Event β) : (c.after event).Accounts := by
  cases event with
  | cycle => exact h.cycle
  | world change => exact ⟨h.counts, h.newest⟩
  | set register value =>
    obtain ⟨regs, -, hafter⟩ := c.after_set register value
    rw [hafter]
    exact ⟨h.counts, h.newest⟩

/-- and after all of them. -/
theorem Accounts.afterAll (h : c.Accounts) (events : List (Event β)) :
    (c.afterAll events).Accounts := by
  induction events generalizing c with
  | nil => exact h
  | cons first rest ih => exact ih (h.after first)

/-- At power-on nothing has been acknowledged. -/
theorem accounts_create (settings : CpuSettings) (bus : β) : (create settings bus).Accounts := by
  constructor
  · rfl
  · rintro vector ⟨⟩

end

end Cpu

namespace Deed

/-- Whether a deed is done for an interrupt. -/
def concernsInterrupt : Deed → Bool
  | acknowledge _ | serve _ => true
  | perform _ => false

/-- The interrupt that is served. -/
def served? : Deed → Option InterruptVector
  | serve vector => some vector
  | acknowledge _ | perform _ => none

/-- What is done for an interrupt: it is acknowledged and then served. -/
def service (vector : InterruptVector) : List Deed := [acknowledge vector, serve vector]

end Deed

/-- While an instruction is in flight no interrupt is to be served. -/
theorem InFlight.unserved?_of_instruction {flight : InFlight}
    (h : flight.activity = .instruction) : flight.unserved? = none := by
  simp only [unserved?, interrupt?, h, ite_self]

/-- Work serves an interrupt that was not served before, or it does not concern interrupts. -/
theorem Execution.Works.owed_eq {β : Type} [Bus β] {e f : Execution β} {irqVector : UInt16}
    {deed? : Option Deed} (h : e.Works irqVector deed? f) :
    e.inFlight.unserved?.toList.map .acknowledge ++ deed?.toList.filter Deed.concernsInterrupt =
      (deed?.toList.filterMap Deed.served?).flatMap Deed.service ++
        f.inFlight.unserved?.toList.map .acknowledge := by
  have hstays := h.activity_eq
  cases h with
  | serves vector activity phase =>
    have hunserved : e.inFlight.unserved? = some vector := by
      simp only [InFlight.unserved?, if_neg phase, InFlight.interrupt?, activity]
    rw [hunserved, serve_inFlight]
    rfl
  | performs activity | fetches activity | concludes activity =>
    rw [InFlight.unserved?_of_instruction (hstays.trans activity),
      InFlight.unserved?_of_instruction activity]
    rfl
  | waits => exact List.append_nil _

namespace Cpu

variable {β : Type} [Bus β] {c : Cpu β}

/-- The acknowledgement that has not led to service yet. -/
def owed (c : Cpu β) : List Deed := c.unserved?.toList.map .acknowledge

/-- In a cycle what is owed is served, or it stays owed and nothing else is acknowledged. Only if
nothing is owed an interrupt is acknowledged, and then it is owed. -/
theorem owed_cycle (c : Cpu β) :
    c.owed ++ c.deed?.toList.filter Deed.concernsInterrupt =
      (c.deed?.toList.filterMap Deed.served?).flatMap Deed.service ++ c.cycle.2.owed := by
  have hdoes := c.does_cycle
  generalize c.deed? = deed? at hdoes ⊢
  generalize c.cycle.2 = d at hdoes ⊢
  cases hdoes with
  | acknowledges runMode line boundary next =>
    rw [owed, unserved?, boundary]
    rfl
  | fetches runMode boundary work =>
    rw [owed, owed, unserved?_settle, unserved?, boundary]
    exact work.owed_eq
  | resumes flight inFlight work =>
    rw [owed, owed, unserved?_settle, unserved?, inFlight]
    exact work.owed_eq
  | idles counters instructions interrupts => exact List.append_nil _

/-- An event that is no cycle leaves owed what is owed. -/
theorem owed_after (c : Cpu β) (event : Event β) :
    c.owed ++ (c.deedIn? event).toList.filter Deed.concernsInterrupt =
      ((c.deedIn? event).toList.filterMap Deed.served?).flatMap Deed.service ++
        (c.after event).owed := by
  cases event with
  | cycle => exact c.owed_cycle
  | world change => exact List.append_nil _
  | set register value =>
    obtain ⟨regs, -, hafter⟩ := c.after_set register value
    rw [hafter]
    exact List.append_nil _

/-- Whatever is acknowledged is served before anything else is acknowledged. -/
theorem owed_afterAll (c : Cpu β) (events : List (Event β)) :
    c.owed ++ (c.deeds events).filter Deed.concernsInterrupt =
      ((c.deeds events).filterMap Deed.served?).flatMap Deed.service ++
        (c.afterAll events).owed := by
  induction events generalizing c with
  | nil => exact List.append_nil _
  | cons first rest ih =>
    simp only [deeds, afterAll, List.filter_append, List.filterMap_append, List.flatMap_append]
    rw [← List.append_assoc, owed_after, List.append_assoc, ih, List.append_assoc]

/-- The world after an interrupt has saved what it is to return to. A reset saves nothing. -/
def savedFor (c : Cpu β) (vector : InterruptVector) : Port β :=
  if vector.line = .reset then c.port else c.port.saveFrame c.regs false

/-- In a cycle an interrupt is served: it saves what it is to return to, masks interrupts, leaves
decimal mode, and goes where its vector points. A reset also ends every halt. -/
structure Serves (c d : Cpu β) (vector : InterruptVector) : Prop where
  /-- The return address and the status are saved, and then the vector is read. -/
  port : d.port = ((c.savedFor vector).readPointer vector.address).2
  /-- The program goes on where the vector points. -/
  pc : d.regs.pc = ((c.savedFor vector).readPointer vector.address).1
  /-- Three bytes were pushed, but none by a reset. -/
  s : d.regs.s = if vector.line = .reset then c.regs.s else c.regs.s - 3
  /-- Interrupts are masked, and decimal mode is off. -/
  p : d.regs.p = ((c.regs.withFlag Status.irqDisable true).withFlag Status.decimal false).p
  /-- The other registers stay. -/
  axy : d.regs.a = c.regs.a ∧ d.regs.x = c.regs.x ∧ d.regs.y = c.regs.y
  /-- A reset ends every halt. -/
  runMode : d.runMode = if vector.line = .reset then .running else c.runMode

/-- The cycle in which an interrupt is served serves it in full. -/
theorem serves_settle (c : Cpu β) (flight : InFlight) (vector : InterruptVector) :
    c.Serves (c.clocked.settle
      ((⟨c.regs, c.runMode, flight, c.port⟩ : Execution β).serve vector)) vector := by
  obtain ⟨address, line⟩ := vector
  by_cases hreset : line = .reset
  · subst hreset
    exact ⟨rfl, rfl, rfl, rfl, ⟨rfl, rfl, rfl⟩, rfl⟩
  · have hsaved : c.savedFor ⟨address, line⟩ = c.port.saveFrame c.regs false := if_neg hreset
    rw [Execution.serve_of_ne_reset _ address hreset, Execution.interruptTo_eq]
    refine ⟨?_, ?_, (if_neg hreset).symm, rfl, ⟨rfl, rfl, rfl⟩, (if_neg hreset).symm⟩
    · rw [hsaved]
      rfl
    · rw [hsaved]
      rfl

/-- What it means that an interrupt is served. -/
theorem serves_of_deed {vector : InterruptVector} (h : c.deed? = some (.serve vector)) :
    c.Serves c.cycle.2 vector := by
  have hdoes := c.does_cycle
  generalize c.deed? = deed? at hdoes h
  generalize c.cycle.2 = d at hdoes ⊢
  subst h
  cases hdoes with
  | fetches runMode boundary work =>
    -- What was just fetched is no interrupt.
    cases work with
    | serves vector activity phase => cases activity
  | resumes flight inFlight work =>
    cases work with
    | serves vector activity phase => exact c.serves_settle flight.spendCycle vector

/-- In the cycles of an interrupt in which it is not served nothing happens to the registers and the
bus. -/
theorem untouched_of_not_serve
    (hinterrupt : c.interrupt?.isSome = true ∨ c.cycle.2.interrupt?.isSome = true)
    (hdeed : ∀ vector, c.deed? ≠ some (.serve vector)) :
    c.cycle.2.regs = c.regs ∧ c.cycle.2.bus = c.bus := by
  have hdoes := c.does_cycle
  generalize c.deed? = deed? at hdoes hdeed
  generalize c.cycle.2 = d at hdoes hinterrupt ⊢
  cases hdoes with
  | acknowledges runMode line boundary next => exact ⟨rfl, rfl⟩
  | fetches runMode boundary work =>
    rw [interrupt?, boundary, interrupt?_settle, work.interrupt?_eq] at hinterrupt
    rcases hinterrupt with hbefore | hafter
    · cases hbefore
    · split at hafter <;> cases hafter
  | resumes flight inFlight work =>
    have hflight : flight.interrupt?.isSome = true := by
      rw [interrupt?, inFlight, interrupt?_settle, work.interrupt?_eq] at hinterrupt
      rcases hinterrupt with hbefore | hafter
      · exact hbefore
      · split at hafter
        · cases hafter
        · exact hafter
    cases work with
    | serves vector activity phase => exact absurd rfl (hdeed vector)
    | performs activity | fetches activity | concludes activity =>
      have hinstruction : flight.activity = .instruction := activity
      rw [InFlight.interrupt?, hinstruction] at hflight
      cases hflight
    | waits => exact ⟨rfl, rfl⟩
  | idles counters instructions interrupts => exact ⟨rfl, rfl⟩

/-- An unserved interrupt is served in the next cycle that the processor has the bus. -/
theorem Consistent.serves_next (h : c.Consistent) {vector : InterruptVector}
    (hunserved : c.unserved? = some vector) (hbus : Bus.cpuHasBus c.bus = true) :
    c.deed? = some (.serve vector) := by
  obtain ⟨flight, hflight, hwaits⟩ := Option.bind_eq_some_iff.mp hunserved
  have hdeed : c.deed? = flight.spendCycle.deed? := by
    simp only [deed?, hbus, if_true, hflight]
  rw [hdeed]
  cases h.inFlight flight hflight with
  | fetching hfetching =>
    cases (InFlight.unserved?_of_instruction hfetching.activity).symm.trans hwaits
  | waiting hwaiting =>
    cases (InFlight.unserved?_of_instruction hwaiting.activity).symm.trans hwaits
  | served hserved =>
    rw [InFlight.unserved?, if_pos hserved.phase] at hwaits
    cases hwaits
  | acknowledged hacknowledged =>
    obtain ⟨line, hvector⟩ := hacknowledged.activity
    have hphase : flight.spendCycle.phase ≠ .retire := by
      have hoperate : flight.spendCycle.phase = .operate := hacknowledged.phase
      rw [hoperate]
      exact nofun
    have helapsed : flight.elapsed ≠ 0 := by
      rintro hzero
      have hone := hacknowledged.elapsed
      rw [hzero] at hone
      cases hone
    have hactivity : flight.spendCycle.activity = _ := hvector
    simp only [InFlight.unserved?, InFlight.interrupt?, hvector,
      if_neg (show flight.phase ≠ .retire from hphase)] at hwaits
    cases hwaits
    simp only [InFlight.deed?, hactivity]
    exact if_pos ⟨hphase, InFlight.serviceCycle_le_spendCycle helapsed⟩

/-- Interrupts are accounted for, and each is served once. -/
structure ServesEachOnce (c : Cpu β) (done : List Deed) : Prop where
  /-- The books on interrupts agree. -/
  accounts : c.Accounts
  /-- What was acknowledged was served before anything else was acknowledged, and only once. The
  last acknowledgement may still wait for service. -/
  once : done.filter Deed.concernsInterrupt =
    (done.filterMap Deed.served?).flatMap Deed.service ++ c.owed
  /-- It is served in the next cycle that the processor has the bus. -/
  prompt : ∀ vector, c.unserved? = some vector → Bus.cpuHasBus c.bus = true →
    c.deed? = some (.serve vector)
  /-- The cycle in which it is served does all that service is. -/
  body : ∀ vector, c.deed? = some (.serve vector) → c.Serves c.cycle.2 vector
  /-- The other cycles of an interrupt, from its acknowledgement on, do nothing to the registers and
  the bus. -/
  untouched : (c.interrupt?.isSome = true ∨ c.cycle.2.interrupt?.isSome = true) →
    (∀ vector, c.deed? ≠ some (.serve vector)) → c.cycle.2.regs = c.regs ∧ c.cycle.2.bus = c.bus

/-- Events keep the state consistent. -/
theorem Consistent.afterAll (h : c.Consistent) (events : List (Event β)) :
    (c.afterAll events).Consistent := by
  induction events generalizing c with
  | nil => exact h
  | cons first rest ih =>
    refine ih ?_
    cases first with
    | cycle => exact h.cycle
    | world change => exact h.setPort _
    | set register value =>
      simp only [after]
      split
      · next hset => exact h.set hset
      · exact h

/-- No interrupt is lost and none is served twice, whatever happens to a processor from power-on. -/
theorem servesEachOnce_afterAll (settings : CpuSettings) (bus : β) (events : List (Event β)) :
    ((create settings bus).afterAll events).ServesEachOnce
      ((create settings bus).deeds events) where
  accounts := (accounts_create settings bus).afterAll events
  once := (create settings bus).owed_afterAll events
  prompt _ := ((Consistent.create settings bus).afterAll events).serves_next
  body _ := serves_of_deed
  untouched := untouched_of_not_serve

end Cpu

end W65C02
