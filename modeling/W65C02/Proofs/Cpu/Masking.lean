import W65C02.Bus.Memory
import W65C02.Proofs.Cpu.Service
import W65C02.Proofs.Instruction.Masking

/-!
# No request interrupts its own service

Serving an interrupt masks further requests on the IRQ line, and only `CLI`, `PLP` and `RTI` let
them through again. Between an acknowledgement and its service nothing else is acknowledged, so the
line is not taken up again before one of the three has taken effect. NMI and RESET are not masked,
but serving them masks the line as well.
-/

namespace W65C02

/-- Whether a deed may unmask interrupts: one of the three instructions takes effect. -/
def Deed.mayUnmask : Deed → Bool
  | perform opcode => decide (opcode ∈ unmaskingOpcodes)
  | acknowledge _ | serve _ => false

/-- The counts after a deed. Only what is acknowledged is counted. -/
def LineCounts.enter (counts : LineCounts) : Deed → LineCounts
  | .acknowledge vector => counts.count vector.line
  | .serve _ | .perform _ => counts

namespace Execution

variable {β : Type} [Bus β] {e f : Execution β} {irqVector : UInt16} {deed? : Option Deed}

omit [Bus β] in
/-- The end of the work leaves interrupt masking and decimal mode alone. -/
theorem keepsControlBits_conclude (e : Execution β) (d : Descriptor) :
    e.regs.KeepsControlBits (e.conclude d).regs := by
  unfold conclude
  simp only
  split
  · exact .withNZ _
  · exact .of_p_eq rfl

/-- Whatever interrupt is served, all further ones are masked. -/
theorem flag_irqDisable_serve (e : Execution β) (vector : InterruptVector) :
    (e.serve vector).regs.flag Status.irqDisable = true := by
  obtain ⟨address, line⟩ := vector
  by_cases hreset : line = .reset
  · subst hreset
    exact e.regs.flag_irqDisable_enterRoutine
  · rw [serve_of_ne_reset e address hreset, interruptTo_eq]
    exact e.regs.flag_irqDisable_enterRoutine

/-- The work of a cycle leaves interrupts masked, unless one of the three instructions takes
effect. -/
theorem Works.masked (h : e.Works irqVector deed? f)
    (hdeed : ∀ deed, deed? = some deed → deed.mayUnmask = false)
    (hmasked : e.regs.flag Status.irqDisable = true) : f.regs.flag Status.irqDisable = true := by
  cases h with
  | serves vector activity phase => exact e.flag_irqDisable_serve vector
  | performs activity =>
    have hother : (Descriptor.ofOpcode e.inFlight.opcode).operation.mayUnmask = false := by
      rw [mayUnmask_ofOpcode]
      exact hdeed _ rfl
    have hprepared : e.prepared.regs.flag Status.irqDisable = true := by
      rw [← hmasked, Registers.flag, Registers.flag, e.prepared_keeps.1]
    have hperform := Operation.flag_irqDisable_perform hother
      (Descriptor.ofOpcode e.inFlight.opcode).mode irqVector hprepared
    exact (keepsControlBits_conclude _ _).irqDisable.trans hperform
  | fetches activity => exact hmasked
  | concludes activity => exact (e.keepsControlBits_conclude _).irqDisable.trans hmasked
  | waits => exact hmasked

/-- An interrupt that waits for service goes on waiting, or the work of the cycle serves it. -/
theorem Works.masked_or_unserved (h : e.Works irqVector deed? f)
    (hunserved : e.inFlight.unserved?.isSome = true) :
    f.regs.flag Status.irqDisable = true ∨ f.inFlight.unserved?.isSome = true := by
  cases h with
  | serves vector activity phase => exact .inl (e.flag_irqDisable_serve vector)
  | performs activity | fetches activity | concludes activity =>
    rw [InFlight.unserved?_of_instruction activity] at hunserved
    cases hunserved
  | waits => exact .inr hunserved

end Execution

namespace Cpu

variable {β : Type}

/-- Whether requests on the IRQ line are masked. -/
def masked (c : Cpu β) : Bool := c.regs.flag Status.irqDisable

/-- Whether requests on the IRQ line are kept out for now: they are masked, or an acknowledged
interrupt is still to be served, which will mask them. -/
def Guarded (c : Cpu β) : Prop := c.masked = true ∨ c.unserved?.isSome = true

variable [Bus β] {c : Cpu β}

/-- A cycle leaves interrupts masked, unless one of the three instructions takes effect in it. -/
theorem masked_cycle (hdeed : ∀ deed, c.deed? = some deed → deed.mayUnmask = false)
    (hmasked : c.masked = true) : c.cycle.2.masked = true := by
  have hdoes := c.does_cycle
  generalize c.deed? = deed? at hdoes hdeed
  generalize c.cycle.2 = d at hdoes ⊢
  cases hdoes with
  | acknowledges runMode line boundary next => exact hmasked
  | fetches runMode boundary work => exact work.masked hdeed hmasked
  | resumes flight inFlight work => exact work.masked hdeed hmasked
  | idles counters instructions interrupts => exact hmasked

/-- The cycle in which an interrupt is served masks further ones. -/
theorem masked_of_serve {vector : InterruptVector} (h : c.deed? = some (.serve vector)) :
    c.cycle.2.masked = true := by
  have hserves := serves_of_deed h
  rw [masked, Registers.flag, hserves.p]
  exact c.regs.flag_irqDisable_enterRoutine

/-- An interrupt that waits for service goes on waiting, or it is served and further ones are
masked. -/
theorem guarded_cycle_of_unserved (hunserved : c.unserved?.isSome = true) :
    c.cycle.2.Guarded := by
  have hbusy : c.inFlight ≠ none := by
    intro hboundary
    rw [unserved?, hboundary] at hunserved
    cases hunserved
  have hdoes := c.does_cycle
  generalize c.deed? = deed? at hdoes
  generalize c.cycle.2 = d at hdoes ⊢
  cases hdoes with
  | acknowledges runMode line boundary next => exact absurd boundary hbusy
  | fetches runMode boundary work => exact absurd boundary hbusy
  | resumes flight inFlight work =>
    rw [unserved?, inFlight] at hunserved
    rw [Guarded, unserved?_settle]
    exact work.masked_or_unserved hunserved
  | idles counters instructions interrupts => exact .inr hunserved

/-- The line is kept out until one of the three instructions takes effect. -/
theorem Guarded.cycle (h : c.Guarded)
    (hdeed : ∀ deed, c.deed? = some deed → deed.mayUnmask = false) : c.cycle.2.Guarded := by
  rcases h with hmasked | hunserved
  · exact .inl (masked_cycle hdeed hmasked)
  · exact guarded_cycle_of_unserved hunserved

/-- Acknowledgement takes place at a boundary, of the most urgent request that is not masked. It
keeps the line out. -/
theorem of_acknowledge {vector : InterruptVector} (h : c.deed? = some (.acknowledge vector)) :
    c.inFlight = none ∧ c.interrupts.lines.next c.masked = some vector.line ∧
      c.cycle.2.Guarded := by
  have hdoes := c.does_cycle
  rw [h] at hdoes
  generalize c.cycle.2 = d at hdoes ⊢
  cases hdoes with
  | acknowledges runMode line boundary next => exact ⟨boundary, next, .inr rfl⟩
  | fetches runMode boundary work => cases work
  | resumes flight inFlight work => cases work

/-- A request on the IRQ line is acknowledged only if nothing keeps it out. -/
theorem not_guarded_of_acknowledge {vector : InterruptVector}
    (h : c.deed? = some (.acknowledge vector)) (hirq : vector.line = .irq) : ¬ c.Guarded := by
  obtain ⟨hboundary, hnext, -⟩ := of_acknowledge h
  rw [hirq] at hnext
  rintro (hmasked | hunserved)
  · rw [hmasked, Lines.next] at hnext
    grind
  · rw [unserved?, hboundary] at hunserved
    cases hunserved

/-- Whether an event leaves the status byte to the program. -/
def Event.leavesStatus : Event β → Bool
  | .set .p _ => false
  | .set _ _ | .cycle | .world _ => true

/-- The controller counts what is acknowledged. -/
theorem counts_afterAll (c : Cpu β) (events : List (Event β)) :
    (c.afterAll events).interrupts.counts =
      (c.deeds events).foldl LineCounts.enter c.interrupts.counts := by
  induction events generalizing c with
  | nil => rfl
  | cons first rest ih =>
    have hfirst : (c.after first).interrupts.counts =
        (c.deedIn? first).toList.foldl LineCounts.enter c.interrupts.counts := by
      cases first with
      | cycle =>
        refine (congrArg InterruptController.counts c.interrupts_cycle).trans ?_
        simp only [deedIn?]
        cases c.deed? with
        | none => rfl
        | some deed => cases deed <;> rfl
      | world change => rfl
      | set register value =>
        obtain ⟨regs, -, hafter⟩ := c.after_set register value
        rw [hafter]
        rfl
    rw [afterAll, ih, hfirst, deeds, List.foldl_append]

/-- What depends on the status byte and on what is in flight, and what every cycle preserves in
which none of the three instructions takes effect, holds until one of them does. -/
theorem afterAll_induction (holds : Cpu β → Prop)
    (hcycle : ∀ c : Cpu β, (∀ deed, c.deed? = some deed → deed.mayUnmask = false) →
      holds c → holds c.cycle.2)
    (hsame : ∀ c d : Cpu β, d.regs.p = c.regs.p → d.inFlight = c.inFlight → holds c → holds d)
    {events : List (Event β)} (hstatus : ∀ event ∈ events, event.leavesStatus = true)
    (hdeeds : ∀ deed ∈ c.deeds events, deed.mayUnmask = false) (h : holds c) :
    holds (c.afterAll events) := by
  induction events generalizing c with
  | nil => exact h
  | cons first rest ih =>
    obtain ⟨hfirst, hrest⟩ := List.forall_mem_cons.mp hstatus
    obtain ⟨hdeed, hlater⟩ := List.forall_mem_append.mp hdeeds
    refine ih hrest hlater ?_
    cases first with
    | cycle => exact hcycle c (fun deed hdone => hdeed deed (Option.mem_toList.mpr hdone)) h
    | world change => exact hsame c _ rfl rfl h
    | set register value =>
      obtain ⟨regs, hp, hafter⟩ := c.after_set register value
      have hother : register ≠ .p := by
        rintro rfl
        cases hfirst
      rw [hafter]
      exact hsame c _ (hp hother) rfl h

/-- The line stays masked until one of the three instructions takes effect. -/
theorem masked_afterAll {events : List (Event β)}
    (hstatus : ∀ event ∈ events, event.leavesStatus = true)
    (hdeeds : ∀ deed ∈ c.deeds events, deed.mayUnmask = false) (h : c.masked = true) :
    (c.afterAll events).masked = true := by
  refine afterAll_induction (fun c => c.masked = true) (fun _ => masked_cycle) ?_ hstatus hdeeds h
  intro c d hp _ hmasked
  rwa [masked, Registers.flag, hp]

/-- The line is kept out until one of the three instructions takes effect. -/
theorem Guarded.afterAll (h : c.Guarded) {events : List (Event β)}
    (hstatus : ∀ event ∈ events, event.leavesStatus = true)
    (hdeeds : ∀ deed ∈ c.deeds events, deed.mayUnmask = false) : (c.afterAll events).Guarded := by
  refine afterAll_induction Guarded (fun _ hdeed hguarded => hguarded.cycle hdeed) ?_ hstatus
    hdeeds h
  intro c d hp hinFlight hguarded
  rwa [Guarded, masked, Registers.flag, hp, unserved?, hinFlight]

/-- If a list of deeds may unmask the line, one of the three instructions is in it. -/
theorem exists_of_mayUnmask {deeds : List Deed}
    (h : ¬ ∀ deed ∈ deeds, deed.mayUnmask = false) :
    ∃ opcode ∈ unmaskingOpcodes, .perform opcode ∈ deeds := by
  push Not at h
  obtain ⟨deed, hmem, hunmasks⟩ := h
  cases deed with
  | perform opcode =>
    have hopcode := of_decide_eq_true (Bool.eq_true_of_not_eq_false hunmasks)
    exact ⟨opcode, hopcode, hmem⟩
  | acknowledge vector | serve vector => exact absurd rfl hunmasks

/-- During a run the IRQ line does not interrupt its own service. -/
structure MasksIrq (c : Cpu β) (events : List (Event β)) : Prop where
  /-- What is acknowledged in the run is what the controller counts. -/
  counted : (c.afterAll events).interrupts.counts =
    (c.deeds events).foldl LineCounts.enter c.interrupts.counts
  /-- From the cycle in which an interrupt is served the line is masked, until one of the three
  instructions takes effect. -/
  served : ∀ before later vector, events = before ++ .cycle :: later →
    (c.afterAll before).deed? = some (.serve vector) →
    (∀ deed ∈ (c.afterAll before).cycle.2.deeds later, deed.mayUnmask = false) →
    (c.afterAll events).masked = true
  /-- What unmasks the line is a cycle in which one of the three instructions takes effect. -/
  unmasked : ∀ before event later, events = before ++ event :: later →
    (c.afterAll before).masked = true → ((c.afterAll before).after event).masked = false →
    ∃ opcode ∈ unmaskingOpcodes, (c.afterAll before).deedIn? event = some (.perform opcode)
  /-- Between two acknowledgements of the line one of the three instructions takes effect. -/
  between : ∀ before betweens later first second,
    events = before ++ .cycle :: (betweens ++ .cycle :: later) →
    (c.afterAll before).deed? = some (.acknowledge first) → first.line = .irq →
    ((c.afterAll before).cycle.2.afterAll betweens).deed? = some (.acknowledge second) →
    second.line = .irq →
    ∃ opcode ∈ unmaskingOpcodes, .perform opcode ∈ (c.afterAll before).cycle.2.deeds betweens
  /-- The line is acknowledged at boundaries only, and while it is not masked. -/
  boundary : ∀ before later vector, events = before ++ .cycle :: later →
    (c.afterAll before).deed? = some (.acknowledge vector) → vector.line = .irq →
    (c.afterAll before).atBoundary = true ∧ (c.afterAll before).masked = false

/-- Whatever the program, the bus and the lines do, the IRQ line does not interrupt its own service
as long as nothing but the program writes the status byte. -/
theorem masksIrq_of_leavesStatus (c : Cpu β) (events : List (Event β))
    (hstatus : ∀ event ∈ events, event.leavesStatus = true) : c.MasksIrq events where
  counted := c.counts_afterAll events
  served before later vector hevents hserve hdeeds := by
    have hlater : ∀ event ∈ later, event.leavesStatus = true := fun event hmem =>
      hstatus event (by simp [hevents, hmem])
    have hmasked := masked_afterAll hlater hdeeds (masked_of_serve hserve)
    rw [hevents, afterAll_append]
    exact hmasked
  unmasked before event later hevents hmasked hunmasked := by
    have hevent : ∀ e ∈ [event], e.leavesStatus = true := fun e hmem =>
      hstatus e (by simp [hevents, List.mem_singleton.mp hmem])
    have hunmasks : ¬ ∀ deed ∈ (c.afterAll before).deeds [event], deed.mayUnmask = false := by
      intro hdeeds
      have hstays := masked_afterAll hevent hdeeds hmasked
      exact Bool.false_ne_true (hunmasked.symm.trans hstays)
    simpa [deeds] using exists_of_mayUnmask hunmasks
  between before betweens later first second hevents hfirst hirq hsecond hirq' := by
    have hbetweens : ∀ event ∈ betweens, event.leavesStatus = true := fun event hmem =>
      hstatus event (by simp [hevents, hmem])
    obtain ⟨-, -, hguarded⟩ := of_acknowledge hfirst
    refine exists_of_mayUnmask fun hdeeds => ?_
    exact not_guarded_of_acknowledge hsecond hirq' (hguarded.afterAll hbetweens hdeeds)
  boundary before later vector hevents hack hirq := by
    obtain ⟨hboundary, -, -⟩ := of_acknowledge hack
    have hopen : ¬ (c.afterAll before).Guarded := not_guarded_of_acknowledge hack hirq
    refine ⟨?_, Bool.eq_false_of_not_eq_true fun hmasked => hopen (.inl hmasked)⟩
    rw [atBoundary, hboundary]
    rfl

/-- A processor whose program and interrupt routine are a single `RTI`. -/
def returning : Cpu Memory :=
  { settings := { irqVector := 0x0010 }
    regs := { p := Status.unused }
    bus := .load .zeros 0 [0x40] }

/-- A source asks for attention and does not give up its request, and cycles pass. -/
def requestAndRun (cycles : ℕ) : List (Event Memory) :=
  .world (fun port => { port with lines := port.lines.request "timer" .irq }) ::
    List.replicate cycles .cycle

/-- The line is taken up again as soon as `RTI` has unmasked it. -/
theorem masksIrq_while_requested :
    (∀ event ∈ requestAndRun 14, event.leavesStatus = true) ∧
      returning.deeds (requestAndRun 14) =
        [.acknowledge ⟨0x0010, .irq⟩, .serve ⟨0x0010, .irq⟩, .perform 0x40,
          .acknowledge ⟨0x0010, .irq⟩] ∧
      returning.MasksIrq (requestAndRun 14) := by
  have hstatus : ∀ event ∈ requestAndRun 14, event.leavesStatus = true := by decide
  exact ⟨hstatus, by decide +kernel, masksIrq_of_leavesStatus returning _ hstatus⟩

end Cpu

end W65C02
