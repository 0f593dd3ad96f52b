/-!
# Sets of interrupt sources

The shared request line is held by any number of named sources at once. A set of names is
kept as its strictly increasing list, so that two sets with the same members are equal.
-/

namespace W65C02

/-- A finite set of source names, listed in increasing order. -/
@[ext]
structure SourceSet where
  /-- The members in increasing order. -/
  names : List String := []
  /-- No name is listed twice, and each is before its successor. -/
  increasing : names.Pairwise (· < ·) := by exact List.Pairwise.nil
  deriving DecidableEq

namespace SourceSet

/-- Puts a name at its place in an increasing list, unless it is there already. -/
def insertName (name : String) : List String → List String
  | [] => [name]
  | first :: rest =>
    if name < first then name :: first :: rest
    else if name = first then first :: rest
    else first :: insertName name rest

/-- Exactly the new name comes in addition. -/
theorem mem_insertName {name other : String} {names : List String} :
    other ∈ insertName name names ↔ other = name ∨ other ∈ names := by
  induction names with
  | nil => simp [insertName]
  | cons first rest ih =>
    unfold insertName
    split
    · simp
    · split
      · next h => subst h; simp
      · simp only [List.mem_cons, ih]
        exact or_left_comm

/-- The new name is put in its place, so the list stays sorted. -/
theorem pairwise_insertName (name : String) {names : List String}
    (h : names.Pairwise (· < ·)) : (insertName name names).Pairwise (· < ·) := by
  induction names with
  | nil => simp [insertName]
  | cons first rest ih =>
    obtain ⟨hfirst, hrest⟩ := List.pairwise_cons.mp h
    unfold insertName
    split
    · next hlt =>
      refine List.pairwise_cons.mpr ⟨fun other hother => ?_, h⟩
      rcases List.mem_cons.mp hother with rfl | hmem
      · exact hlt
      · exact String.lt_trans hlt (hfirst other hmem)
    · next hnot =>
      split
      · exact h
      · next hne =>
        refine List.pairwise_cons.mpr ⟨fun other hother => ?_, ih hrest⟩
        rcases mem_insertName.mp hother with rfl | hmem
        · rcases Std.lt_trichotomy first other with hlt | heq | hgt
          · exact hlt
          · exact absurd heq.symm hne
          · exact absurd hgt hnot
        · exact hfirst other hmem

/-- The set without members. -/
def empty : SourceSet := {}

/-- Whether a source is a member. -/
def contains (set : SourceSet) (name : String) : Bool := decide (name ∈ set.names)

/-- Whether no source is a member. -/
def isEmpty (set : SourceSet) : Bool := set.names.isEmpty

/-- The set with one more member. -/
def insert (set : SourceSet) (name : String) : SourceSet :=
  ⟨insertName name set.names, pairwise_insertName name set.increasing⟩

/-- The set without a given member. -/
def erase (set : SourceSet) (name : String) : SourceSet :=
  ⟨set.names.filter (fun other => other != name), set.increasing.filter _⟩

/-- The set of the names in a list, which may be unordered and repeat itself. -/
def ofList (names : List String) : SourceSet :=
  names.foldl insert empty

/-- No name occurs twice. -/
theorem nodup (set : SourceSet) : set.names.Nodup := by
  refine List.Pairwise.imp (fun {a b} hlt => ?_) set.increasing
  rintro rfl
  exact String.lt_irrefl a hlt

/-- A set is determined by its members. -/
theorem ext_mem {s t : SourceSet} (h : ∀ name, name ∈ s.names ↔ name ∈ t.names) : s = t := by
  have hperm := (List.perm_ext_iff_of_nodup s.nodup t.nodup).mpr h
  refine SourceSet.ext (hperm.eq_of_pairwise (fun a b _ _ hab hba => ?_) s.increasing t.increasing)
  exact absurd (String.lt_trans hab hba) (String.lt_irrefl a)

/-- The names after an insertion are the new one and those from before. -/
@[simp] theorem mem_names_insert {set : SourceSet} {name other : String} :
    other ∈ (set.insert name).names ↔ other = name ∨ other ∈ set.names :=
  mem_insertName

/-- The names after a removal are the others. -/
@[simp] theorem mem_names_erase {set : SourceSet} {name other : String} :
    other ∈ (set.erase name).names ↔ other ∈ set.names ∧ other ≠ name := by
  simp [erase]

end SourceSet

end W65C02
