import GraphGate.Proofs.Merging

namespace GraphGate.FieldSelection

/-!
# Selections with some left out

Leaving out selections, at any depth, keeps the order of the others and all that
is asked for in them. A selection that is kept may lose everything that is
nested in it; merged selections lose it if all those of their response key do.
-/

variable {selection : FieldSelection} {kept all : List FieldSelection}

/-- The first selections are the second ones with some left out, at any depth. -/
inductive Prunes : List FieldSelection → List FieldSelection → Prop where
  | nil :
      Prunes [] []
  | leaveOut
      {selection : FieldSelection}
      {kept all : List FieldSelection} :
      Prunes kept all →
      Prunes kept (selection :: all)
  | keep
      {selection : FieldSelection}
      {inner kept all : List FieldSelection} :
      Prunes inner selection.nested →
      Prunes kept all →
      Prunes (selection.selecting inner :: kept) (selection :: all)

/-- Everything can be left out. -/
theorem prunes_nil (all : List FieldSelection) : Prunes [] all := by
  induction all with
  | nil =>
      exact .nil
  | cons selection rest inductionHypothesis =>
      exact .leaveOut inductionHypothesis

theorem Prunes.eq_nil (prunes : Prunes kept []) : kept = [] := by
  cases prunes
  rfl

theorem Prunes.append
    {others otherAll : List FieldSelection}
    (prunes : Prunes kept all)
    (following : Prunes others otherAll) :
    Prunes (kept ++ others) (all ++ otherAll) := by
  induction prunes with
  | nil =>
      exact following
  | leaveOut _ inductionHypothesis =>
      exact .leaveOut inductionHypothesis
  | keep inside _ _ inductionHypothesis =>
      exact .keep inside inductionHypothesis

/-- Each selection that is kept is one of all, with some of what is nested in it left out. -/
theorem Prunes.exists_original
    (prunes : Prunes kept all)
    (member : selection ∈ kept) :
    ∃ original ∈ all, ∃ inner, selection = original.selecting inner := by
  induction prunes with
  | nil =>
      cases member
  | leaveOut _ inductionHypothesis =>
      obtain ⟨original, isOriginal, same⟩ := inductionHypothesis member
      exact ⟨original, List.mem_cons_of_mem _ isOriginal, same⟩
  | @keep original inner _ _ _ _ _ inductionHypothesis =>
      rcases List.mem_cons.mp member with isFirst | inRest
      · exact ⟨original, List.mem_cons_self, inner, isFirst⟩
      · obtain ⟨other, isOther, same⟩ := inductionHypothesis inRest
        exact ⟨other, List.mem_cons_of_mem _ isOther, same⟩

/-- Of one response key, too, some are left out. -/
theorem Prunes.ofKey
    (prunes : Prunes kept all)
    (key : String) :
    Prunes (ofKey key kept) (ofKey key all) := by
  unfold FieldSelection.ofKey
  induction prunes with
  | nil =>
      exact .nil
  | @leaveOut selection _ _ _ inductionHypothesis =>
      rw [List.filter_cons]
      split
      · exact .leaveOut inductionHypothesis
      · exact inductionHypothesis
  | @keep selection inner _ _ inside _ _ inductionHypothesis =>
      rw [List.filter_cons, List.filter_cons, responseKey_selecting]
      split
      · exact .keep inside inductionHypothesis
      · exact inductionHypothesis

/-- What is nested in selections is left out with them, or by itself. -/
theorem Prunes.nested (prunes : Prunes kept all) :
    Prunes (kept.flatMap nested) (all.flatMap nested) := by
  induction prunes with
  | nil =>
      exact .nil
  | leaveOut _ inductionHypothesis =>
      rw [List.flatMap_cons]
      exact (prunes_nil _).append inductionHypothesis
  | keep inside _ _ inductionHypothesis =>
      rw [List.flatMap_cons, List.flatMap_cons]
      exact inside.append inductionHypothesis

/-- What is selected under a response key. -/
def nestedUnder (key : String) (selections : List FieldSelection) :
    List FieldSelection :=
  (ofKey key selections).flatMap FieldSelection.nested

theorem Prunes.nestedUnder
    (prunes : Prunes kept all)
    (key : String) :
    Prunes (nestedUnder key kept) (nestedUnder key all) :=
  (prunes.ofKey key).nested

/-- Somewhere a field is kept, and all that is selected under its response key is left out. -/
inductive Emptied :
    List FieldSelection → List FieldSelection → Prop where
  | here
      {selection : FieldSelection}
      {kept all : List FieldSelection} :
      selection ∈ kept →
      selection.isTypename = false →
      nestedUnder selection.responseKey kept = [] →
      nestedUnder selection.responseKey all ≠ [] →
      Emptied kept all
  | inside
      {selection : FieldSelection}
      {kept all : List FieldSelection} :
      selection ∈ kept →
      selection.isTypename = false →
      Emptied (nestedUnder selection.responseKey kept)
        (nestedUnder selection.responseKey all) →
      Emptied kept all

/-- All that is selected under a response key is left out, or somewhere inside it. -/
def EmptiedAt
    (key : String)
    (kept all : List FieldSelection) : Prop :=
  nestedUnder key kept = [] ∧ nestedUnder key all ≠ [] ∨
    Emptied (nestedUnder key kept) (nestedUnder key all)

theorem emptied_iff :
    Emptied kept all ↔
      ∃ selection ∈ kept,
        selection.isTypename = false ∧
          EmptiedAt selection.responseKey kept all := by
  constructor
  · intro emptied
    cases emptied with
    | here member isField nothing something =>
        exact ⟨_, member, isField, .inl ⟨nothing, something⟩⟩
    | inside member isField inner =>
        exact ⟨_, member, isField, .inr inner⟩
  · intro somewhere
    rcases somewhere with ⟨selection, member, isField, cause⟩
    rcases cause with ⟨nothing, something⟩ | inner
    · exact .here member isField nothing something
    · exact .inside member isField inner

/-- Nothing is selected after a merge exactly if nothing was before. -/
theorem isEmpty_merge (selections : List FieldSelection) :
    (merge selections).isEmpty = selections.isEmpty := by
  rw [Bool.eq_iff_iff, List.isEmpty_iff, List.isEmpty_iff]
  constructor
  · intro merged
    refine List.eq_nil_iff_forall_not_mem.mpr fun selection member => ?_
    obtain ⟨other, isMerged, -⟩ := exists_mem_merge member
    rw [merged] at isMerged
    cases isMerged
  · intro nothing
    rw [nothing, merge_eq]
    rfl

/-- What is nested in a merged selection is what is selected under its response key, merged. -/
theorem nested_of_mem_merge
    {merged : FieldSelection}
    {selections : List FieldSelection}
    (member : merged ∈ merge selections) :
    merged.nested = merge (nestedUnder merged.responseKey selections) := by
  obtain ⟨first, rest, sharing, isMerged⟩ := exists_of_mem_merge member
  rw [nestedUnder, sharing, isMerged]
  rfl

end GraphGate.FieldSelection
