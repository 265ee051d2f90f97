import GraphGate.Selection

namespace GraphGate.FieldSelection

/-!
# Selections as trees

A selection is a tree of selected fields. What holds of a selection as soon as
it holds of everything nested in it, holds of every selection; and a property
can be asked of every node of a tree.
-/

/-- What a selection takes over from all that is nested in it holds of every selection. -/
@[elab_as_elim] theorem tree_induction
    {motive : FieldSelection → Prop}
    (node : ∀ selection,
      (∀ inner ∈ selection.nested, motive inner) → motive selection)
    (selection : FieldSelection) :
    motive selection :=
  @FieldSelection.rec motive
    (fun selections => ∀ inner ∈ selections, motive inner)
    (fun name label arguments conditions nested below =>
      node ⟨name, label, arguments, conditions, nested⟩ below)
    (fun _ member => nomatch member)
    (fun _ _ first others inner member =>
      match List.mem_cons.mp member with
      | .inl isFirst => isFirst ▸ first
      | .inr inRest => others inner inRest)
    selection

/-- A property of a selection and of everything nested in it. -/
inductive Everywhere (holds : FieldSelection → Prop) : FieldSelection → Prop where
  | intro
      {selection : FieldSelection}
      (here : holds selection)
      (inside : ∀ inner ∈ selection.nested, Everywhere holds inner) :
      Everywhere holds selection

namespace Everywhere

variable {holds : FieldSelection → Prop} {selection inner : FieldSelection}

theorem iff_here_and_inside :
    Everywhere holds selection ↔
      holds selection ∧ ∀ inner ∈ selection.nested, Everywhere holds inner :=
  ⟨fun ⟨here, inside⟩ => ⟨here, inside⟩, fun both => .intro both.1 both.2⟩

/-- The property holds of the selection itself. -/
theorem here (everywhere : Everywhere holds selection) : holds selection :=
  (iff_here_and_inside.mp everywhere).1

/-- The property holds everywhere in what is nested. -/
theorem inside
    (everywhere : Everywhere holds selection)
    (member : inner ∈ selection.nested) :
    Everywhere holds inner :=
  (iff_here_and_inside.mp everywhere).2 inner member

end Everywhere

/-- A field inside a selection, or the selection itself, with the response keys that lead to it. -/
inductive Occurs : FieldSelection → List String → FieldSelection → Prop where
  | here {selection : FieldSelection} :
      Occurs selection [selection.responseKey] selection
  | inside
      {selection nested found : FieldSelection}
      {path : List String} :
      nested ∈ selection.nested →
      Occurs nested path found →
      Occurs selection (selection.responseKey :: path) found

/-- What holds everywhere holds where a field occurs, and of all that is nested there. -/
theorem Everywhere.of_occurs
    {holds : FieldSelection → Prop}
    {selection found : FieldSelection}
    {path : List String}
    (everywhere : Everywhere holds selection)
    (occurs : Occurs selection path found) :
    Everywhere holds found := by
  induction occurs with
  | here =>
      exact everywhere
  | inside member _ inductionHypothesis =>
      exact inductionHypothesis (everywhere.inside member)

/-- What holds everywhere holds of the fields that lead to where a field occurs. -/
theorem Everywhere.exists_of_mem_path
    {holds : FieldSelection → Prop}
    {selection found : FieldSelection}
    {path : List String}
    (everywhere : Everywhere holds selection)
    (occurs : Occurs selection path found)
    {key : String}
    (member : key ∈ path) :
    ∃ field, holds field ∧ field.responseKey = key := by
  induction occurs with
  | here =>
      exact ⟨_, everywhere.here, (List.mem_singleton.mp member).symm⟩
  | inside nested _ inductionHypothesis =>
      rcases List.mem_cons.mp member with isFirst | inRest
      · exact ⟨_, everywhere.here, isFirst.symm⟩
      · exact inductionHypothesis (everywhere.inside nested) inRest

/-- Only the selection itself is at its own response key. -/
theorem Occurs.eq_of_singleton
    {selection found : FieldSelection}
    {key : String}
    (occurs : Occurs selection [key] found) :
    found = selection := by
  cases occurs with
  | here =>
      rfl
  | inside _ below =>
      cases below

mutual

/-- Whether a test passes on a selection and on everything nested in it. -/
def passes (test : FieldSelection → Bool) : FieldSelection → Bool
  | ⟨name, label, arguments, conditions, nested⟩ =>
      test ⟨name, label, arguments, conditions, nested⟩ && passesAll test nested

/-- Whether a test passes on several selections and on everything nested in them. -/
def passesAll (test : FieldSelection → Bool) : List FieldSelection → Bool
  | [] => true
  | selection :: rest => passes test selection && passesAll test rest

end

theorem passesAll_iff
    {test : FieldSelection → Bool}
    {selections : List FieldSelection} :
    passesAll test selections = true ↔
      ∀ selection ∈ selections, passes test selection = true := by
  induction selections with
  | nil =>
      simp [passesAll]
  | cons selection rest inductionHypothesis =>
      rw [passesAll, Bool.and_eq_true, inductionHypothesis,
        List.forall_mem_cons]

/-- A property holds everywhere exactly if its test passes everywhere. -/
theorem everywhere_iff_passes
    {holds : FieldSelection → Prop}
    [DecidablePred holds]
    (selection : FieldSelection) :
    selection.Everywhere holds ↔ selection.passes (holds ·) = true := by
  induction selection using tree_induction with
  | node selection inductionHypothesis =>
      obtain ⟨name, label, arguments, conditions, nested⟩ := selection
      rw [Everywhere.iff_here_and_inside, passes, Bool.and_eq_true,
        decide_eq_true_iff, passesAll_iff]
      exact and_congr_right' (forall₂_congr inductionHypothesis)

instance {holds : FieldSelection → Prop} [DecidablePred holds] :
    DecidablePred (Everywhere holds) :=
  fun selection => decidable_of_iff _ (everywhere_iff_passes selection).symm

end GraphGate.FieldSelection
