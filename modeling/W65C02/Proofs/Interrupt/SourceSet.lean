import Mathlib.Data.List.Dedup
import W65C02.Interrupt.Lines

/-!
# Source sets from lists

A snapshot lists the sources that hold IRQ in any order and may repeat itself. Taking it over
sorts the list and drops the repetitions, so a list that a set has written is read back as the
same set.
-/

namespace W65C02

/-- The names of a list in increasing order, each of them once. -/
def sortedNames (names : List String) : List String :=
  names.dedup.mergeSort (fun a b => decide (a ≤ b))

/-- Sorting keeps the names, -/
theorem mem_sortedNames {name : String} {names : List String} :
    name ∈ sortedNames names ↔ name ∈ names := by
  rw [sortedNames, List.mem_mergeSort, List.mem_dedup]

/-- and puts them in order. -/
theorem pairwise_sortedNames (names : List String) : (sortedNames names).Pairwise (· < ·) := by
  have hsorted : (sortedNames names).Pairwise (fun a b => decide (a ≤ b) = true) :=
    List.pairwise_mergeSort (fun a b c hab hbc => by
      simp only [decide_eq_true_eq] at hab hbc ⊢
      exact String.le_trans hab hbc)
      (fun a b => by simpa using String.le_total a b) _
  have hnodup : (sortedNames names).Nodup :=
    (List.mergeSort_perm _ _).nodup_iff.mpr (List.nodup_dedup names)
  refine (hsorted.and hnodup).imp fun {a b} ⟨hle, hne⟩ => ?_
  rw [decide_eq_true_eq] at hle
  exact Std.lt_of_le_of_ne hle hne

namespace SourceSet

/-- A set that is made from a list has the names of the list. -/
theorem mem_names_ofList {name : String} {names : List String} :
    name ∈ (ofList names).names ↔ name ∈ names := by
  have hfold (set : SourceSet) :
      name ∈ (names.foldl insert set).names ↔ name ∈ set.names ∨ name ∈ names := by
    induction names generalizing set with
    | nil => simp
    | cons first rest ih =>
      rw [List.foldl_cons, ih, mem_names_insert, List.mem_cons]
      constructor
      · rintro ((rfl | hset) | hrest)
        · exact .inr (.inl rfl)
        · exact .inl hset
        · exact .inr (.inr hrest)
      · rintro (hset | rfl | hrest)
        · exact .inl (.inr hset)
        · exact .inl (.inl rfl)
        · exact .inr hrest
  rw [ofList, hfold]
  simp [empty]

/-- The set of the names in a list keeps them sorted and without repetition. -/
theorem names_ofList (names : List String) : (ofList names).names = sortedNames names := by
  have hset : ofList names = ⟨sortedNames names, pairwise_sortedNames names⟩ :=
    ext_mem fun name => mem_names_ofList.trans mem_sortedNames.symm
  rw [hset]

/-- A set is read back from the list of its names. -/
@[simp] theorem ofList_names (set : SourceSet) : ofList set.names = set :=
  ext_mem fun _ => mem_names_ofList

end SourceSet

/-- Lines are read back from a snapshot of them. -/
@[simp] theorem Lines.ofSnapshot_toSnapshot (lines : Lines) :
    Lines.ofSnapshot lines.toSnapshot = lines := by
  simp only [ofSnapshot, toSnapshot, SourceSet.ofList_names]

/-- The lines are determined by what a snapshot lists of them. -/
theorem Lines.toSnapshot_inj {lines other : Lines} (h : lines.toSnapshot = other.toSnapshot) :
    lines = other := by
  rw [← Lines.ofSnapshot_toSnapshot lines, h, Lines.ofSnapshot_toSnapshot]

end W65C02
