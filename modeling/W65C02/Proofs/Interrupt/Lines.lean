import W65C02.Interrupt.Controller

/-!
# Requests and their priorities

The sources that hold IRQ come and go independently of each other. Of the requests on the three
lines the most urgent one is taken up: RESET comes before NMI, and NMI before IRQ, which is the only
one that can be masked.
-/

namespace W65C02

namespace SourceSet

/-- After an insertion the new name is in the set, and so is what was there before. -/
@[simp] theorem contains_insert (set : SourceSet) (name other : String) :
    (set.insert name).contains other = (decide (name = other) || set.contains other) := by
  simp [contains, eq_comm (a := other)]

/-- After a removal the name is not in the set, but what else was there is. -/
@[simp] theorem contains_erase (set : SourceSet) (name other : String) :
    (set.erase name).contains other = (!decide (name = other) && set.contains other) := by
  simp [contains, eq_comm (a := other), Bool.and_comm]

/-- A set is determined by what it contains. -/
theorem ext_contains {s t : SourceSet} (h : ∀ name, s.contains name = t.contains name) : s = t :=
  ext_mem fun name => decide_eq_decide.mp (h name)

/-- A set that is not empty has a name in it. -/
theorem isEmpty_eq_false {set : SourceSet} :
    set.isEmpty = false ↔ ∃ name, set.contains name = true := by
  simp only [isEmpty, contains, decide_eq_true_eq, List.isEmpty_eq_false_iff_exists_mem]

end SourceSet

/-- Whether a line comes before another one. -/
def Line.precedes : Line → Line → Bool
  | .reset, .nmi | .reset, .irq | .nmi, .irq => true
  | _, _ => false

/-- Of the lines that want attention a line is the most urgent one. -/
structure Line.IsMostUrgent (wants : Line → Prop) (line : Line) : Prop where
  /-- The line wants attention. -/
  wanted : wants line
  /-- No line before it does. -/
  first : ∀ other, other.precedes line = true → ¬ wants other

namespace Lines

/-- Whether there is a request on a line that is not masked. -/
def Eligible (lines : Lines) (irqDisabled : Bool) : Line → Prop
  | .reset => lines.reset = true
  | .nmi => lines.nmi = true
  | .irq => irqDisabled = false ∧ ∃ source, lines.holdsIrq source = true

variable {lines : Lines} {irqDisabled : Bool}

/-- IRQ is eligible if it is not masked and some source holds it. -/
theorem eligible_irq : lines.Eligible irqDisabled .irq ↔
    (!irqDisabled && !lines.irqSources.isEmpty) = true := by
  simp only [Eligible, holdsIrq, ← SourceSet.isEmpty_eq_false, Bool.and_eq_true, Bool.not_eq_true']

/-- What is served next is the most urgent eligible request. -/
theorem next_eq_some_iff {line : Line} :
    lines.next irqDisabled = some line ↔ line.IsMostUrgent (lines.Eligible irqDisabled) := by
  unfold next
  constructor
  · intro h
    split at h
    · next hreset =>
      obtain rfl := Option.some.inj h
      exact ⟨hreset, nofun⟩
    · next hreset =>
      split at h
      · next hnmi =>
        obtain rfl := Option.some.inj h
        exact ⟨hnmi, fun | .reset, _ => hreset⟩
      · next hnmi =>
        split at h
        · next hirq =>
          obtain rfl := Option.some.inj h
          exact ⟨eligible_irq.mpr hirq, fun | .reset, _ => hreset | .nmi, _ => hnmi⟩
        · cases h
  · rintro ⟨hwanted, hfirst⟩
    cases line with
    | reset => exact if_pos hwanted
    | nmi =>
      have hreset : ¬ lines.reset = true := hfirst .reset rfl
      have hnmi : lines.nmi = true := hwanted
      rw [if_neg hreset, if_pos hnmi]
    | irq =>
      have hreset : ¬ lines.reset = true := hfirst .reset rfl
      have hnmi : ¬ lines.nmi = true := hfirst .nmi rfl
      rw [if_neg hreset, if_neg hnmi, if_pos (eligible_irq.mp hwanted)]

/-- Something is served as long as there is an eligible request. -/
theorem pending_iff : lines.pending irqDisabled = true ↔
    ∃ line, lines.Eligible irqDisabled line := by
  have hpending : lines.pending irqDisabled = true ↔
      (lines.reset = true ∨ lines.nmi = true) ∨ lines.Eligible irqDisabled .irq := by
    rw [eligible_irq, pending, Bool.or_eq_true, Bool.or_eq_true]
  rw [hpending]
  constructor
  · rintro ((hreset | hnmi) | hirq)
    · exact ⟨.reset, hreset⟩
    · exact ⟨.nmi, hnmi⟩
    · exact ⟨.irq, hirq⟩
  · rintro ⟨line, hline⟩
    cases line with
    | reset => exact .inl (.inl hline)
    | nmi => exact .inl (.inr hline)
    | irq => exact .inr hline

/-- A line is active exactly if one is eligible without a mask. -/
theorem anyActive_iff : lines.anyActive = true ↔ ∃ line, lines.Eligible false line :=
  pending_iff

/-- What is eligible in spite of the mask is active. -/
theorem anyActive_of_pending (h : lines.pending irqDisabled = true) : lines.anyActive = true := by
  obtain ⟨line, heligible⟩ := pending_iff.mp h
  refine anyActive_iff.mpr ⟨line, ?_⟩
  cases line with
  | reset | nmi => exact heligible
  | irq => exact ⟨rfl, heligible.2⟩

/-- No line is served exactly if none is eligible. -/
theorem next_eq_none_iff :
    lines.next irqDisabled = none ↔ ∀ line, ¬ lines.Eligible irqDisabled line := by
  rw [← Option.not_isSome_iff_eq_none, next_isSome, pending_iff, not_exists]

end Lines

end W65C02
