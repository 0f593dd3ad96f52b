import W65C02.Proofs.Interrupt.Lines

/-!
# Interrupt lines and the history of their requests

The state of the lines is settled by what has been asked of the controller so far. A source holds
IRQ if its latest move was a request. A RESET is pending if one was requested and neither
acknowledged nor withdrawn since. An NMI is latched if the level has risen and nothing was taken up
for it since. Where sources act independently of each other, only the order in which each of them
acts makes a difference.
-/

namespace W65C02.InterruptController

/-- What is asked of a controller. NMI and RESET do not look at the source. -/
inductive Call where
  /-- A source asks for attention on a line. -/
  | request (source : String) (line : Line)
  /-- A source gives up its request on a line. -/
  | release (source : String) (line : Line)
  /-- The NMI level is raised and lowered again. -/
  | nmiPulse (source : String)
  /-- All lines are put to rest. -/
  | releaseAll
  /-- The most urgent request is to be taken up. -/
  | acknowledge (irqDisabled : Bool)
  deriving DecidableEq

/-- A call, and what was acknowledged in it. -/
structure Exchange where
  /-- What was asked. -/
  call : Call
  /-- What was acknowledged, if anything was. -/
  acknowledged : Option InterruptVector
  deriving DecidableEq

/-- Carries out a call, and tells what was acknowledged in it. -/
def call (c : InterruptController) (settings : CpuSettings) :
    Call → Option InterruptVector × InterruptController
  | .request source line => (none, c.request source line)
  | .release source line => (none, c.release source line)
  | .nmiPulse source => (none, c.nmiPulse source)
  | .releaseAll => (none, c.releaseAll)
  | .acknowledge irqDisabled => c.acknowledge settings irqDisabled

/-- The controller after a number of calls. -/
def afterAll (c : InterruptController) (settings : CpuSettings) : List Call → InterruptController
  | [] => c
  | first :: rest => (c.call settings first).2.afterAll settings rest

/-- What was asked and acknowledged during a number of calls, in order. -/
def transcript (c : InterruptController) (settings : CpuSettings) : List Call → List Exchange
  | [] => []
  | first :: rest =>
    ⟨first, (c.call settings first).1⟩ :: (c.call settings first).2.transcript settings rest

namespace Call

/-- Whether the call asks for attention and keeps asking. -/
def isRequest : Call → Bool
  | request _ _ => true
  | release _ _ | nmiPulse _ | releaseAll | acknowledge _ => false

/-- Whether the call says anything about the hold that a source has of IRQ. -/
def movesIrq (source : String) : Call → Bool
  | request other .irq | release other .irq => decide (other = source)
  | releaseAll => true
  | _ => false

/-- Whether the call says anything about the level of NMI. -/
def movesNmi : Call → Bool
  | request _ .nmi | release _ .nmi | nmiPulse _ | releaseAll => true
  | _ => false

/-- Whether the call raises the level of NMI, be it for a moment. -/
def raisesNmi : Call → Bool
  | request _ .nmi | nmiPulse _ => true
  | _ => false

/-- Whether the call requests a RESET or withdraws it. -/
def movesReset : Call → Bool
  | request _ .reset | release _ .reset | releaseAll => true
  | _ => false

/-- Whether the call is anything but a move of another source on the IRQ line. -/
def concerns (source : String) : Call → Bool
  | request other .irq | release other .irq => decide (other = source)
  | _ => true

end Call

namespace Exchange

/-- Whether a request on a line was taken up. -/
def takesUp (e : Exchange) (line : Line) : Bool := e.acknowledged.any (·.line = line)

/-- Whether a RESET was requested, withdrawn or taken up. -/
def movesReset (e : Exchange) : Bool := e.call.movesReset || e.takesUp .reset

/-- Whether an NMI that was latched before is no longer. -/
def dropsNmi (e : Exchange) : Bool := e.takesUp .nmi || decide (e.call = .releaseAll)

end Exchange

/-- Whether the latest of the exchanges of a kind was a request. -/
def requested (kind : Exchange → Bool) (transcript : List Exchange) : Bool :=
  (transcript.filter kind).getLast?.any (·.call.isRequest)

/-- Whether the level of NMI is high. -/
def nmiHigh (transcript : List Exchange) : Bool := requested (·.call.movesNmi) transcript

/-- Whether the level of NMI rises in an exchange, given those before it. -/
def isNmiEdge (past : List Exchange) (e : Exchange) : Bool := e.call.raisesNmi && !nmiHigh past

/-- How often the level of NMI rises in a number of exchanges, given those before them. -/
def nmiEdges (past : List Exchange) : List Exchange → Nat
  | [] => 0
  | first :: rest => (isNmiEdge past first).toNat + nmiEdges (past ++ [first]) rest

/-- The level of NMI has risen, and since then no NMI was taken up and the lines were not put to
rest. -/
def NmiLatched (transcript : List Exchange) : Prop :=
  ∃ before edge later, transcript = before ++ edge :: later ∧ isNmiEdge before edge = true ∧
    ∀ e ∈ later, e.dropsNmi = false

/-- Whether a line wants attention, as the exchanges so far tell. -/
def Wants (transcript : List Exchange) (irqDisabled : Bool) : Line → Prop
  | .reset => requested (·.movesReset) transcript = true
  | .nmi => NmiLatched transcript
  | .irq => irqDisabled = false ∧ ∃ source, requested (·.call.movesIrq source) transcript = true

/-- For each source the same has happened in the same order: its own moves on the IRQ line, and all
that is not a move on that line. -/
def SameForEachSource (calls others : List Call) : Prop :=
  ∀ source, calls.filter (·.concerns source) = others.filter (·.concerns source)

/-- One more exchange of the kind is the latest. -/
theorem requested_append (kind : Exchange → Bool) (transcript : List Exchange) (e : Exchange) :
    requested kind (transcript ++ [e]) =
      if kind e then e.call.isRequest else requested kind transcript := by
  unfold requested
  cases hkind : kind e with
  | true => simp [List.filter_append, hkind]
  | false => simp [List.filter_append, hkind]

/-- One more exchange adds an edge if it is one. -/
theorem nmiEdges_append (past transcript : List Exchange) (e : Exchange) :
    nmiEdges past (transcript ++ [e]) =
      nmiEdges past transcript + (isNmiEdge (past ++ transcript) e).toNat := by
  induction transcript generalizing past with
  | nil => simp [nmiEdges]
  | cons first rest ih =>
    have hrest := ih (past ++ [first])
    rw [List.append_assoc, List.singleton_append] at hrest
    simp only [List.cons_append, nmiEdges, hrest]
    omega

/-- After one more exchange NMI is latched if that was an edge, or if it was latched before and is
not dropped. -/
theorem nmiLatched_append (transcript : List Exchange) (e : Exchange) :
    NmiLatched (transcript ++ [e]) ↔
      isNmiEdge transcript e = true ∨ e.dropsNmi = false ∧ NmiLatched transcript := by
  constructor
  · rintro ⟨before, edge, later, hsplit, hedge, hlater⟩
    -- The edge is the last exchange, or the last one is among those that keep the latch.
    rcases List.eq_nil_or_concat later with rfl | ⟨earlier, last, rfl⟩
    · obtain ⟨rfl, hlast⟩ := List.append_inj' hsplit rfl
      obtain rfl := List.singleton_inj.mp hlast
      exact .inl hedge
    · rw [List.concat_eq_append] at hsplit hlater
      rw [← List.cons_append, ← List.append_assoc] at hsplit
      obtain ⟨rfl, hlast⟩ := List.append_inj' hsplit rfl
      obtain rfl := List.singleton_inj.mp hlast
      refine .inr ⟨hlater e (by simp), before, edge, earlier, rfl, hedge, ?_⟩
      exact fun other hother => hlater other (List.mem_append_left _ hother)
  · rintro (hedge | ⟨hkeeps, before, edge, later, rfl, hedge, hlater⟩)
    · exact ⟨transcript, e, [], rfl, hedge, nofun⟩
    · refine ⟨before, edge, later ++ [e], by simp, hedge, fun other hother => ?_⟩
      rcases List.mem_append.mp hother with hold | hnew
      · exact hlater other hold
      · obtain rfl := List.mem_singleton.mp hnew
        exact hkeeps

/-- What is latched after an exchange is the edge in it, or what was latched before. -/
theorem toNat_or_and_le (edge keeps latched : Bool) :
    (edge || keeps && latched).toNat ≤ edge.toNat + latched.toNat := by
  cases edge <;> cases keeps <;> cases latched <;> decide

/-- What an exchange does to the lines. -/
structure Exchange.Moves (e : Exchange) (before after : Lines) : Prop where
  /-- A source holds IRQ after a request of its own, and until the next of its moves. -/
  irq : ∀ source, after.holdsIrq source =
    if e.call.movesIrq source then e.call.isRequest else before.holdsIrq source
  /-- Only a request leaves the level of NMI high. -/
  nmiLevel : after.nmiLevel = if e.call.movesNmi then e.call.isRequest else before.nmiLevel
  /-- An NMI is latched with a rising level, and stays so. -/
  nmi : after.nmi = (e.call.raisesNmi && !before.nmiLevel || !e.dropsNmi && before.nmi)
  /-- A RESET is pending after a request, and until the next move. -/
  reset : after.reset = if e.movesReset then e.call.isRequest else before.reset
  /-- Only an NMI that was latched is taken up, and the level does not rise meanwhile. -/
  takesUp : e.takesUp .nmi = true → before.nmi = true ∧ e.call.raisesNmi = false

/-- What is taken up is the most urgent eligible request, and nothing else changes. -/
theorem moves_acknowledge (c : InterruptController) (settings : CpuSettings) (irqDisabled : Bool) :
    Exchange.Moves ⟨.acknowledge irqDisabled, (c.acknowledge settings irqDisabled).1⟩ c.lines
      (c.acknowledge settings irqDisabled).2.lines := by
  unfold acknowledge
  cases hnext : c.lines.next irqDisabled with
  | none => exact ⟨fun _ => rfl, rfl, rfl, rfl, nofun⟩
  | some line =>
    cases line with
    | reset => exact ⟨fun _ => rfl, rfl, rfl, rfl, nofun⟩
    | nmi =>
      have hnmi : c.lines.nmi = true := (Lines.next_eq_some_iff.mp hnext).wanted
      exact ⟨fun _ => rfl, rfl, rfl, rfl, fun _ => ⟨hnmi, rfl⟩⟩
    | irq => exact ⟨fun _ => rfl, rfl, rfl, rfl, nofun⟩

/-- Each call moves the lines as its exchange tells. -/
theorem moves_call (c : InterruptController) (settings : CpuSettings) (call : Call) :
    Exchange.Moves ⟨call, (c.call settings call).1⟩ c.lines (c.call settings call).2.lines := by
  cases call with
  | request source line =>
    cases line with
    | reset => exact ⟨fun _ => rfl, rfl, rfl, rfl, nofun⟩
    | nmi => exact ⟨fun _ => rfl, rfl, Bool.or_comm _ _, rfl, nofun⟩
    | irq =>
      refine ⟨fun other => ?_, rfl, rfl, rfl, nofun⟩
      refine (c.lines.irqSources.contains_insert source other).trans ?_
      change _ = if decide (source = other) then true else c.lines.irqSources.contains other
      cases decide (source = other) <;> rfl
  | release source line =>
    cases line with
    | reset => exact ⟨fun _ => rfl, rfl, rfl, rfl, nofun⟩
    | nmi => exact ⟨fun _ => rfl, rfl, rfl, rfl, nofun⟩
    | irq =>
      refine ⟨fun other => ?_, rfl, rfl, rfl, nofun⟩
      refine (c.lines.irqSources.contains_erase source other).trans ?_
      change _ = if decide (source = other) then false else c.lines.irqSources.contains other
      cases decide (source = other) <;> rfl
  | nmiPulse source => exact ⟨fun _ => rfl, rfl, Bool.or_comm _ _, rfl, nofun⟩
  | releaseAll => exact ⟨fun _ => rfl, rfl, rfl, rfl, nofun⟩
  | acknowledge irqDisabled => exact c.moves_acknowledge settings irqDisabled

/-- The state of the lines is what the exchanges so far tell. -/
structure Reflects (c : InterruptController) (transcript : List Exchange) : Prop where
  /-- The sources that hold IRQ are those whose latest move on that line was a request. -/
  irq : ∀ source, c.lines.holdsIrq source = requested (·.call.movesIrq source) transcript
  /-- The level of NMI is high if the latest call that moved it left it there. -/
  nmiLevel : c.lines.nmiLevel = nmiHigh transcript
  /-- An NMI is latched if the level has risen since the last one was taken up. -/
  nmi : c.lines.nmi = true ↔ NmiLatched transcript
  /-- A RESET is pending if one was requested since the last one was taken up or withdrawn. -/
  reset : c.lines.reset = requested (·.movesReset) transcript
  /-- Each NMI that was taken up, and the one that is latched, has an edge of its own. -/
  edges : transcript.countP (·.takesUp .nmi) + c.lines.nmi.toNat ≤ nmiEdges [] transcript

namespace Reflects

variable {c d : InterruptController} {transcript : List Exchange}

/-- A new controller reflects that nothing has happened. -/
theorem start : Reflects {} [] where
  irq _ := rfl
  nmiLevel := rfl
  nmi := by simp [NmiLatched]
  reset := rfl
  edges := Nat.le_refl 0

/-- One more exchange moves the lines as it moves what the exchanges tell. -/
theorem append {e : Exchange} (h : c.Reflects transcript) (hmoves : e.Moves c.lines d.lines) :
    d.Reflects (transcript ++ [e]) where
  irq source := by rw [hmoves.irq, requested_append, h.irq]
  nmiLevel := by rw [hmoves.nmiLevel, nmiHigh, requested_append, h.nmiLevel, nmiHigh]
  nmi := by
    rw [hmoves.nmi, nmiLatched_append, ← h.nmi, isNmiEdge, ← h.nmiLevel, Bool.or_eq_true,
      Bool.and_eq_true, Bool.and_eq_true, Bool.not_eq_true', Bool.not_eq_true']
  reset := by rw [hmoves.reset, requested_append, h.reset]
  edges := by
    have hedges := h.edges
    rw [List.countP_append, List.countP_singleton, nmiEdges_append, List.nil_append, isNmiEdge,
      ← h.nmiLevel, hmoves.nmi]
    cases htaken : e.takesUp .nmi with
    | true =>
      obtain ⟨hnmi, hraises⟩ := hmoves.takesUp htaken
      have hdrops : e.dropsNmi = true := by rw [Exchange.dropsNmi, htaken, Bool.true_or]
      rw [hnmi] at hedges
      simpa [hraises, hdrops] using hedges
    | false =>
      have hlatched := toNat_or_and_le (e.call.raisesNmi && !c.lines.nmiLevel) (!e.dropsNmi)
        c.lines.nmi
      simp only [Bool.false_eq_true, if_false]
      omega

/-- However many calls there have been, the lines are what the exchanges tell. -/
theorem afterAll (h : c.Reflects transcript) (settings : CpuSettings) (calls : List Call) :
    (c.afterAll settings calls).Reflects (transcript ++ c.transcript settings calls) := by
  induction calls generalizing c transcript with
  | nil =>
    rw [InterruptController.transcript, List.append_nil]
    exact h
  | cons first rest ih =>
    have hfirst := ih (h.append (c.moves_call settings first))
    rwa [List.append_assoc] at hfirst

/-- The exchanges tell which lines want attention. -/
theorem eligible_eq (h : c.Reflects transcript) (irqDisabled : Bool) :
    c.lines.Eligible irqDisabled = Wants transcript irqDisabled := by
  funext line
  cases line with
  | reset => simp only [Lines.Eligible, Wants, h.reset]
  | nmi => simp only [Lines.Eligible, Wants, h.nmi]
  | irq => simp only [Lines.Eligible, Wants, h.irq]

end Reflects

/-- What is acknowledged after a number of exchanges, and what becomes of the requests. -/
structure Acknowledges (c : InterruptController) (settings : CpuSettings)
    (transcript : List Exchange) (irqDisabled : Bool) : Prop where
  /-- It is the most urgent of the lines that want attention, with the address set for it. -/
  some_iff : ∀ vector, (c.acknowledge settings irqDisabled).1 = some vector ↔
    vector.address = settings.vectorOf vector.line ∧
      vector.line.IsMostUrgent (Wants transcript irqDisabled)
  /-- Nothing is acknowledged only if no line wants attention. -/
  none_iff : (c.acknowledge settings irqDisabled).1 = none ↔
    ∀ line, ¬ Wants transcript irqDisabled line
  /-- A RESET or NMI that is acknowledged is pending no longer. All else stays as it was. -/
  consumed : (c.acknowledge settings irqDisabled).2.lines =
    { c.lines with
      reset := c.lines.reset && !(c.acknowledge settings irqDisabled).1.any (·.line = .reset)
      nmi := c.lines.nmi && !(c.acknowledge settings irqDisabled).1.any (·.line = .nmi) }

/-- The acknowledged line is the one that is served next. -/
theorem acknowledge_eq_some_iff {c : InterruptController} {settings : CpuSettings}
    {irqDisabled : Bool} {vector : InterruptVector} :
    (c.acknowledge settings irqDisabled).1 = some vector ↔
      vector.address = settings.vectorOf vector.line ∧
        c.lines.next irqDisabled = some vector.line := by
  obtain ⟨address, line⟩ := vector
  unfold acknowledge
  cases c.lines.next irqDisabled with
  | none => simp
  | some served =>
    simp only [Option.some.injEq, InterruptVector.mk.injEq]
    constructor
    · rintro ⟨rfl, rfl⟩
      exact ⟨rfl, rfl⟩
    · rintro ⟨rfl, rfl⟩
      exact ⟨rfl, rfl⟩

/-- Nothing is acknowledged exactly if no line is next. -/
theorem acknowledge_eq_none_iff {c : InterruptController} {settings : CpuSettings}
    {irqDisabled : Bool} :
    (c.acknowledge settings irqDisabled).1 = none ↔ c.lines.next irqDisabled = none := by
  unfold acknowledge
  cases c.lines.next irqDisabled <;> simp

/-- A controller that reflects its exchanges acknowledges what they tell. -/
theorem Reflects.acknowledges {c : InterruptController} {transcript : List Exchange}
    (h : c.Reflects transcript) (settings : CpuSettings) (irqDisabled : Bool) :
    c.Acknowledges settings transcript irqDisabled where
  some_iff vector := by
    rw [acknowledge_eq_some_iff, Lines.next_eq_some_iff, h.eligible_eq]
  none_iff := by rw [acknowledge_eq_none_iff, Lines.next_eq_none_iff, h.eligible_eq]
  consumed := by
    unfold acknowledge
    cases c.lines.next irqDisabled with
    | none => simp
    | some line => cases line <;> simp [Lines.serve, enter]

section Order

variable {settings : CpuSettings}

/-- The only calls that do not concern a source are those with which another one moves IRQ. -/
theorem Call.concerns_eq_false {call : Call} {source : String} :
    call.concerns source = false ↔
      ∃ other, other ≠ source ∧ (call = .request other .irq ∨ call = .release other .irq) := by
  cases call with
  | request other line => cases line <;> simp [concerns]
  | release other line => cases line <;> simp [concerns]
  | nmiPulse => simp [concerns]
  | releaseAll => simp [concerns]
  | acknowledge => simp [concerns]

/-- Every call concerns some source. -/
theorem Call.exists_concerns (call : Call) : ∃ source, call.concerns source = true := by
  cases call with
  | request source line => exact ⟨source, by cases line <;> simp [concerns]⟩
  | release source line => exact ⟨source, by cases line <;> simp [concerns]⟩
  | nmiPulse source => exact ⟨source, rfl⟩
  | releaseAll => exact ⟨"", rfl⟩
  | acknowledge => exact ⟨"", rfl⟩

/-- Two calls that concern no source in common are moves of different sources on the IRQ line, and
it makes no difference which one comes first. -/
theorem call_comm (c : InterruptController) {first second : Call}
    (h : ∀ source, second.concerns source = true → first.concerns source = false) :
    ((c.call settings first).2.call settings second).2 =
      ((c.call settings second).2.call settings first).2 := by
  obtain ⟨source, hsource⟩ := first.exists_concerns
  have hfree : second.concerns source = false :=
    Bool.eq_false_iff.mpr fun htrue => Bool.eq_false_iff.mp (h source htrue) hsource
  obtain ⟨other, -, hsecond⟩ := Call.concerns_eq_false.mp hfree
  have hother : second.concerns other = true := by
    rcases hsecond with rfl | rfl <;> simp [Call.concerns]
  obtain ⟨holder, hne, hfirst⟩ := Call.concerns_eq_false.mp (h other hother)
  have hlines : ((c.call settings first).2.call settings second).2.lines.irqSources =
      ((c.call settings second).2.call settings first).2.lines.irqSources := by
    refine SourceSet.ext_contains fun name => ?_
    have hnames : holder = name → other ≠ name := fun hholder hother =>
      hne (hholder.trans hother.symm)
    rcases hfirst with rfl | rfl <;> rcases hsecond with rfl | rfl <;>
      simp only [call, request, release, Lines.request, Lines.release,
        SourceSet.contains_insert, SourceSet.contains_erase] <;>
      by_cases hname : holder = name <;> simp [hname, hnames]
  rcases hfirst with rfl | rfl <;> rcases hsecond with rfl | rfl <;>
    exact congrArg (fun sources => { c with lines.irqSources := sources }) hlines

/-- Some calls after others. -/
theorem afterAll_append (c : InterruptController) (calls others : List Call) :
    c.afterAll settings (calls ++ others) =
      (c.afterAll settings calls).afterAll settings others := by
  induction calls generalizing c with
  | nil => rfl
  | cons first rest ih => exact ih _

/-- A call may come before all those that concern no source in common with it. -/
theorem afterAll_call_comm (c : InterruptController) {first : Call} {earlier : List Call}
    (h : ∀ call ∈ earlier, ∀ source, call.concerns source = true → first.concerns source = false) :
    ((c.afterAll settings earlier).call settings first).2 =
      (c.call settings first).2.afterAll settings earlier := by
  induction earlier generalizing c with
  | nil => rfl
  | cons call rest ih =>
    have hrest := ih (c.call settings call).2 fun other hother =>
      h other (List.mem_cons_of_mem _ hother)
    simp only [afterAll]
    rw [hrest, call_comm c (h call List.mem_cons_self)]

/-- A call that comes first on one side is preceded on the other only by calls that concern no
source in common with it. Without it the two sides still are the same for each source. -/
theorem SameForEachSource.exists_split {first : Call} {rest others : List Call}
    (h : SameForEachSource (first :: rest) others) :
    ∃ earlier later, others = earlier ++ first :: later ∧
      SameForEachSource rest (earlier ++ later) ∧
      ∀ call ∈ earlier, ∀ source, call.concerns source = true → first.concerns source = false := by
  obtain ⟨own, hown⟩ := first.exists_concerns
  have hfilter := h own
  rw [List.filter_cons_of_pos hown, eq_comm, List.filter_eq_cons_iff] at hfilter
  obtain ⟨earlier, later, rfl, hearlier, -, -⟩ := hfilter
  have hindependent : ∀ call ∈ earlier, ∀ source, call.concerns source = true →
      first.concerns source = false := by
    intro call hcall source hsource
    refine Bool.eq_false_iff.mpr fun hfirst => ?_
    have hsame := h source
    rw [List.filter_cons_of_pos hfirst, List.filter_append] at hsame
    -- The calls before `first` that concern `source` would begin with `first` itself.
    cases hbefore : earlier.filter (·.concerns source) with
    | nil => exact (List.filter_eq_nil_iff.mp hbefore) call hcall hsource
    | cons head tail =>
      rw [hbefore, List.cons_append, List.cons.injEq] at hsame
      have hhead : head ∈ earlier := (List.mem_filter.mp (hbefore ▸ List.mem_cons_self)).1
      exact hearlier head hhead (hsame.1 ▸ hown)
  refine ⟨earlier, later, rfl, fun source => ?_, hindependent⟩
  have hsame := h source
  rw [List.filter_append] at hsame ⊢
  cases hfirst : first.concerns source with
  | true =>
    have hnone : earlier.filter (·.concerns source) = [] :=
      List.filter_eq_nil_iff.mpr fun call hcall hsource =>
        Bool.eq_false_iff.mp (hindependent call hcall source hsource) hfirst
    rw [List.filter_cons_of_pos hfirst, List.filter_cons_of_pos hfirst, hnone, List.nil_append,
      List.cons.injEq] at hsame
    rw [hnone, List.nil_append]
    exact hsame.2
  | false =>
    have hfirst := Bool.eq_false_iff.mp hfirst
    rwa [List.filter_cons_of_neg hfirst, List.filter_cons_of_neg hfirst] at hsame

/-- Where each source sees the same calls in the same order, the controller ends up the same. -/
theorem afterAll_eq_of_sameForEachSource (c : InterruptController) {calls others : List Call}
    (h : SameForEachSource calls others) :
    c.afterAll settings calls = c.afterAll settings others := by
  induction calls generalizing c others with
  | nil =>
    cases others with
    | nil => rfl
    | cons first rest =>
      obtain ⟨source, hsource⟩ := first.exists_concerns
      have hnone := h source
      rw [List.filter_cons_of_pos hsource] at hnone
      cases hnone
  | cons first rest ih =>
    obtain ⟨earlier, later, rfl, hrest, hindependent⟩ := h.exists_split
    calc c.afterAll settings (first :: rest)
        = (c.call settings first).2.afterAll settings (earlier ++ later) := ih _ hrest
      _ = ((c.call settings first).2.afterAll settings earlier).afterAll settings later :=
          afterAll_append _ _ _
      _ = ((c.afterAll settings earlier).call settings first).2.afterAll settings later := by
          rw [afterAll_call_comm c hindependent]
      _ = c.afterAll settings (earlier ++ first :: later) :=
          (afterAll_append c earlier (first :: later)).symm

end Order

/-- The state of a new controller after any calls is what was asked of it and taken up. -/
structure RemembersRequests (settings : CpuSettings) (calls : List Call) : Prop where
  /-- The lines are what the exchanges tell. -/
  lines : (({} : InterruptController).afterAll settings calls).Reflects
    (({} : InterruptController).transcript settings calls)
  /-- What is acknowledged next is the most urgent request, which alone is consumed. -/
  acknowledged : ∀ irqDisabled, (({} : InterruptController).afterAll settings calls).Acknowledges
    settings (({} : InterruptController).transcript settings calls) irqDisabled
  /-- No more NMIs were taken up than the level of that line has risen. -/
  nmisTakenUp : (({} : InterruptController).transcript settings calls).countP (·.takesUp .nmi) ≤
    nmiEdges [] (({} : InterruptController).transcript settings calls)
  /-- How the moves of different sources on the IRQ line are interleaved makes no difference. -/
  order : ∀ others, SameForEachSource calls others →
    ({} : InterruptController).afterAll settings calls =
      ({} : InterruptController).afterAll settings others

/-- A new controller remembers the requests of any calls. -/
theorem remembersRequests (settings : CpuSettings) (calls : List Call) :
    RemembersRequests settings calls := by
  have hlines := Reflects.start.afterAll settings calls
  rw [List.nil_append] at hlines
  exact {
    lines := hlines
    acknowledged := hlines.acknowledges settings
    nmisTakenUp := Nat.le_trans (Nat.le_add_right _ _) hlines.edges
    order := fun _ hsame => afterAll_eq_of_sameForEachSource {} hsame }

/-- Between two acknowledged NMIs the level has to fall and rise again. -/
example : ({} : InterruptController).transcript {}
    [.request "uart" .nmi, .acknowledge true, .request "vic" .nmi, .acknowledge true] =
      [⟨.request "uart" .nmi, none⟩, ⟨.acknowledge true, some ⟨0xFFFA, .nmi⟩⟩,
        ⟨.request "vic" .nmi, none⟩, ⟨.acknowledge true, none⟩] := by
  decide

end W65C02.InterruptController
