import GraphGate.Json.Basic

namespace GraphGate

/-!
# Selections

A selection is a requested field with its arguments and sub-selections, after
fragments, variables and skipped parts have been resolved. It carries the type
conditions it was selected under; without any it applies to every type.

Merging folds the selections that share a response key into one. It recurses on
concatenated sub-selections, and ends because every step removes a node.
-/

/-- A requested field. -/
structure FieldSelection where
  /-- The name of the field. -/
  name : String
  /-- The name the client gave to the field. -/
  label : Option String
  /-- The arguments, in the order they were written. -/
  arguments : List (String × Json)
  /-- The type conditions the field was selected under; none for every type. -/
  conditions : List String
  /-- The selected fields of the field. -/
  nested : List FieldSelection
deriving Repr, Inhabited

namespace FieldSelection

/-- The selection without arguments, conditions and sub-selections. -/
def ofName (name : String) : FieldSelection :=
  ⟨name, none, [], [], []⟩

/-- Gives the field another name in the response. -/
def withLabel (selection : FieldSelection) (label : String) : FieldSelection :=
  { selection with label := some label }

/-- Adds an argument. -/
def withArgument
    (selection : FieldSelection)
    (name : String)
    (value : Json) : FieldSelection :=
  { selection with arguments := selection.arguments ++ [(name, value)] }

/-- Adds a type condition that is not there yet. -/
def onType (selection : FieldSelection) (type : String) : FieldSelection :=
  if selection.conditions.contains type then
    selection
  else
    { selection with conditions := selection.conditions ++ [type] }

/-- Adds a selected field of the field. -/
def withNested (selection inner : FieldSelection) : FieldSelection :=
  { selection with nested := selection.nested ++ [inner] }

/-- The key of the field in the response. -/
def responseKey (selection : FieldSelection) : String :=
  selection.label.getD selection.name

/-- Whether the field asks for the name of the concrete type. -/
def isTypename (selection : FieldSelection) : Bool :=
  selection.name = "__typename"

/-- Whether the field is selected on records of a type, given a subtype test. -/
def appliesTo
    (selection : FieldSelection)
    (concrete : String)
    (isSubtype : String → String → Bool) : Bool :=
  selection.conditions.isEmpty ||
    selection.conditions.any fun condition => isSubtype concrete condition

/-- The conditions of two selections together: none if either has none. -/
def mergeConditions (first second : List String) : List String :=
  if first.isEmpty || second.isEmpty then
    []
  else
    second.foldl
      (fun merged condition =>
        if merged.contains condition then merged else merged ++ [condition])
      first

/-- Two selections of one response key as one: the first, with the conditions and sub-selections of both. -/
def combine (first second : FieldSelection) : FieldSelection :=
  { first with
    conditions := mergeConditions first.conditions second.conditions
    nested := first.nested ++ second.nested }

/-- Combines a selection with the earlier one of its response key, or appends it. -/
def insert (selection : FieldSelection) : List FieldSelection → List FieldSelection
  | [] => [selection]
  | first :: rest =>
      if first.responseKey = selection.responseKey then
        first.combine selection :: rest
      else
        first :: insert selection rest

/-- One selection for each response key, with sub-selections put one behind another. -/
def group (selections : List FieldSelection) : List FieldSelection :=
  selections.foldl (fun grouped selection => insert selection grouped) []

mutual

/-- The number of fields in a selection, itself included. -/
def size : FieldSelection → Nat
  | ⟨_, _, _, _, nested⟩ => sizeAll nested + 1

/-- The number of fields in several selections. -/
def sizeAll : List FieldSelection → Nat
  | [] => 0
  | selection :: rest => selection.size + sizeAll rest

end

theorem size_eq (selection : FieldSelection) :
    selection.size = sizeAll selection.nested + 1 := by
  cases selection
  simp [size]

theorem sizeAll_append (first second : List FieldSelection) :
    sizeAll (first ++ second) = sizeAll first + sizeAll second := by
  induction first with
  | nil =>
      simp [sizeAll]
  | cons selection rest inductionHypothesis =>
      simp [sizeAll, inductionHypothesis, Nat.add_assoc]

theorem size_combine_le (first second : FieldSelection) :
    (first.combine second).size ≤ first.size + second.size := by
  simp only [size_eq, combine, sizeAll_append]
  omega

theorem sizeAll_insert_le
    (selection : FieldSelection)
    (selections : List FieldSelection) :
    sizeAll (insert selection selections) ≤
      selection.size + sizeAll selections := by
  induction selections with
  | nil =>
      simp [insert, sizeAll]
  | cons first rest inductionHypothesis =>
      by_cases same : first.responseKey = selection.responseKey
      · have smaller := size_combine_le first selection
        simp only [insert, same, if_true, sizeAll]
        omega
      · simp only [insert, same, if_false, sizeAll]
        omega

theorem sizeAll_foldl_insert_le
    (selections grouped : List FieldSelection) :
    sizeAll (selections.foldl (fun grouped selection => insert selection grouped) grouped) ≤
      sizeAll grouped + sizeAll selections := by
  induction selections generalizing grouped with
  | nil =>
      simp [sizeAll]
  | cons selection rest inductionHypothesis =>
      have inserted := sizeAll_insert_le selection grouped
      have others := inductionHypothesis (insert selection grouped)
      simp only [List.foldl_cons, sizeAll]
      omega

/-- Grouping does not make a forest of selections larger. -/
theorem sizeAll_group_le (selections : List FieldSelection) :
    sizeAll (group selections) ≤ sizeAll selections := by
  simpa [sizeAll, group] using sizeAll_foldl_insert_le selections []

theorem sizeAll_nested_lt_of_mem
    {selection : FieldSelection}
    {selections : List FieldSelection}
    (member : selection ∈ selections) :
    sizeAll selection.nested < sizeAll selections := by
  induction selections with
  | nil =>
      simp at member
  | cons first rest inductionHypothesis =>
      rcases List.mem_cons.1 member with isFirst | inRest
      · subst isFirst
        simp only [sizeAll, size_eq]
        omega
      · have smaller := inductionHypothesis inRest
        simp only [sizeAll]
        omega

/-- The selection with other sub-selections. -/
def selecting
    (selection : FieldSelection)
    (nested : List FieldSelection) : FieldSelection :=
  { selection with nested := nested }

/-- Folds the selections that share a response key into one, at every level. -/
def merge (selections : List FieldSelection) : List FieldSelection :=
  (group selections).attach.map fun entry =>
    entry.val.selecting (merge entry.val.nested)
termination_by sizeAll selections
decreasing_by
  exact Nat.lt_of_lt_of_le
    (sizeAll_nested_lt_of_mem entry.property)
    (sizeAll_group_le selections)

/-- Merging groups the selections and merges what is nested in each. -/
theorem merge_eq (selections : List FieldSelection) :
    merge selections =
      (group selections).map fun selection =>
        selection.selecting (merge selection.nested) := by
  rw [merge]
  exact List.attach_map_val
    (f := fun selection : FieldSelection =>
      selection.selecting (merge selection.nested))

end FieldSelection

end GraphGate
