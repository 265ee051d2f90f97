import GraphGate.Proofs.Request.Spreads

namespace GraphGate.GraphQL

/-!
# Selection sets with their fragments put in

Where no spread is at fault, each one can be replaced by an inline fragment
with what its fragment selects. The selection set then has no spread left, and
expands without any fragments to the same selections.
-/

mutual

/-- Whether a part of a selection set has no spread in it. -/
def Selection.isSpreadFree : Selection → Bool
  | .field _ _ _ _ nested => areSpreadFree nested
  | .inlineFragment _ _ nested => areSpreadFree nested
  | .spread _ _ => false

/-- Whether a selection set has no spread in it. -/
def areSpreadFree : List Selection → Bool
  | [] => true
  | selection :: rest => selection.isSpreadFree && areSpreadFree rest

end

theorem areSpreadFree_cons
    {selection : Selection}
    {rest : List Selection}
    (isFree : selection.isSpreadFree = true)
    (areFree : areSpreadFree rest = true) :
    areSpreadFree (selection :: rest) = true := by
  rw [areSpreadFree, isFree, areFree]
  rfl

namespace QueryDocument

/--
A selection set with an inline fragment in the place of each spread, with the
type condition of the fragment, the directives of the spread, and what the
fragment selects, treated in the same way. What is skipped may be left out, or
be anything else that is skipped.
-/
inductive Inlines (document : QueryDocument) (bindings : Table Json) :
    List Selection → List Selection → Prop where
  | nil :
      Inlines document bindings [] []
  | skipped
      {selection : Selection}
      {rest inlinedRest kept : List Selection} :
      IsLeftOut bindings selection.directives →
      (∀ part ∈ kept, IsLeftOut bindings part.directives) →
      Inlines document bindings rest inlinedRest →
      Inlines document bindings (selection :: rest) (kept ++ inlinedRest)
  | field
      {label : Option String}
      {name : String}
      {arguments : Arguments}
      {directives : List Directive}
      {nested inlinedNested rest inlinedRest : List Selection} :
      ¬ IsLeftOut bindings directives →
      Inlines document bindings nested inlinedNested →
      Inlines document bindings rest inlinedRest →
      Inlines document bindings
        (.field label name arguments directives nested :: rest)
        (.field label name arguments directives inlinedNested :: inlinedRest)
  | inlineFragment
      {condition : Option String}
      {directives : List Directive}
      {nested inlinedNested rest inlinedRest : List Selection} :
      ¬ IsLeftOut bindings directives →
      Inlines document bindings nested inlinedNested →
      Inlines document bindings rest inlinedRest →
      Inlines document bindings
        (.inlineFragment condition directives nested :: rest)
        (.inlineFragment condition directives inlinedNested :: inlinedRest)
  | spread
      {name : String}
      {directives : List Directive}
      {fragment : FragmentDefinition}
      {inlinedNested rest inlinedRest : List Selection} :
      ¬ IsLeftOut bindings directives →
      document.fragment? name = some fragment →
      Inlines document bindings fragment.selections inlinedNested →
      Inlines document bindings rest inlinedRest →
      Inlines document bindings
        (.spread name directives :: rest)
        (.inlineFragment (some fragment.condition) directives inlinedNested ::
          inlinedRest)

variable {document : QueryDocument} {bindings : Table Json}
variable {expanding : List String} {selections inlined : List Selection}
variable {met : List MetSpread} {available : FragmentTable}
variable {enclosing : List String} {occurrences : List FieldOccurrence}

/-- What the expansion of a selection set without fragments depends on. -/
def bare (bindings : Table Json) : Expansion where
  fragments := ⟨[]⟩
  bindings := bindings

/-- Where a walk meets no fault, every spread can be replaced. -/
theorem Walks.exists_inlines
    (walks : document.Walks bindings expanding selections met)
    (noFault : met.findSome? document.fault? = none) :
    ∃ inlined,
      document.Inlines bindings selections inlined ∧
        areSpreadFree inlined = true := by
  induction walks with
  | nil =>
      exact ⟨[], .nil, rfl⟩
  | skipped skipped _ others =>
      obtain ⟨inlinedRest, inlinesRest, restIsFree⟩ := others noFault
      exact ⟨[] ++ inlinedRest, .skipped skipped (by simp) inlinesRest,
        restIsFree⟩
  | field included _ _ inside others =>
      obtain ⟨insideClear, othersClear⟩ :=
        Option.or_eq_none_iff.mp (List.findSome?_append.symm.trans noFault)
      obtain ⟨inlinedNested, inlinesNested, nestedIsFree⟩ := inside insideClear
      obtain ⟨inlinedRest, inlinesRest, restIsFree⟩ := others othersClear
      exact ⟨_, .field included inlinesNested inlinesRest,
        areSpreadFree_cons nestedIsFree restIsFree⟩
  | inlineFragment included _ _ inside others =>
      obtain ⟨insideClear, othersClear⟩ :=
        Option.or_eq_none_iff.mp (List.findSome?_append.symm.trans noFault)
      obtain ⟨inlinedNested, inlinesNested, nestedIsFree⟩ := inside insideClear
      obtain ⟨inlinedRest, inlinesRest, restIsFree⟩ := others othersClear
      exact ⟨_, .inlineFragment included inlinesNested inlinesRest,
        areSpreadFree_cons nestedIsFree restIsFree⟩
  | followed included isDefined isFree _ _ inside others =>
      rw [List.findSome?_cons] at noFault
      split at noFault
      · cases noFault
      · obtain ⟨insideClear, othersClear⟩ :=
          Option.or_eq_none_iff.mp (List.findSome?_append.symm.trans noFault)
        obtain ⟨inlinedNested, inlinesNested, nestedIsFree⟩ :=
          inside insideClear
        obtain ⟨inlinedRest, inlinesRest, restIsFree⟩ := others othersClear
        exact ⟨_, .spread included isDefined inlinesNested inlinesRest,
          areSpreadFree_cons nestedIsFree restIsFree⟩
  | passedOver included faulty _ _ =>
      obtain ⟨cause, isCause⟩ := Option.isSome_iff_exists.mp faulty
      rw [List.findSome?_cons, isCause] at noFault
      cases noFault

/-- Parts that are skipped have no fields. -/
theorem unfolds_skipped_append
    {expansion : Expansion}
    {kept rest : List Selection}
    (skipped :
      ∀ part ∈ kept, IsLeftOut expansion.bindings part.directives)
    (unfolds : expansion.Unfolds available enclosing rest occurrences) :
    expansion.Unfolds available enclosing (kept ++ rest) occurrences := by
  induction kept with
  | nil =>
      exact unfolds
  | cons part others inductionHypothesis =>
      refine .skipped (skipped part (by simp)) ?_
      exact inductionHypothesis fun other isOther =>
        skipped other (List.mem_cons_of_mem _ isOther)

/-- With the spreads replaced there are the same fields, without any fragments. -/
theorem Inlines.unfolds
    (inlines : document.Inlines bindings selections inlined)
    (unfolds :
      (document.expansion bindings).Unfolds available enclosing selections
        occurrences)
    (leavesOut : document.LeavesOut available expanding) :
    (bare bindings).Unfolds ⟨[]⟩ enclosing inlined occurrences := by
  induction unfolds generalizing inlined expanding with
  | nil =>
      cases inlines
      exact .nil
  | skipped skipped _ others =>
      cases inlines with
      | skipped _ keptAreSkipped inlinesRest =>
          exact unfolds_skipped_append keptAreSkipped
            (others inlinesRest leavesOut)
      | field included | inlineFragment included | spread included =>
          exact absurd skipped included
  | field included _ _ inside others =>
      cases inlines with
      | skipped skipped =>
          exact absurd skipped included
      | field _ inlinesNested inlinesRest =>
          exact .field included (inside inlinesNested leavesOut)
            (others inlinesRest leavesOut)
  | inlineFragment included _ _ inside others =>
      cases inlines with
      | skipped skipped =>
          exact absurd skipped included
      | inlineFragment _ inlinesNested inlinesRest =>
          exact .inlineFragment included (inside inlinesNested leavesOut)
            (others inlinesRest leavesOut)
  | spread included found _ _ inside others =>
      cases inlines with
      | skipped skipped =>
          exact absurd skipped included
      | spread _ isDefined inlinesNested inlinesRest =>
          obtain ⟨isFragment, -⟩ := leavesOut.of_find?_eq_some found
          cases isDefined.symm.trans isFragment
          exact .inlineFragment included
            (inside inlinesNested (leavesOut.without _))
            (others inlinesRest leavesOut)

/-- With the spreads replaced the same selections are emitted, without any fragments. -/
theorem Inlines.expand_eq
    {emitted : List FieldSelection}
    (inlines : document.Inlines bindings selections inlined)
    (expanded :
      (document.expansion bindings).expand available enclosing.getLast?
        selections = .ok emitted)
    (leavesOut : document.LeavesOut available expanding) :
    (bare bindings).expand ⟨[]⟩ enclosing.getLast? inlined = .ok emitted := by
  obtain ⟨occurrences, unfolds, isEmitted⟩ :=
    Expansion.expand_eq_ok_iff.mp expanded
  exact Expansion.expand_eq_ok_iff.mpr
    ⟨occurrences, inlines.unfolds unfolds leavesOut, isEmitted⟩

/--
The walk over the selection set of an operation comes to an end. Expansion fails
exactly if the walk meets a spread of a fragment that is not defined or is being
expanded, and the first such spread says why. If there is none, every spread can
be replaced by an inline fragment with what its fragment selects, and however
that is done, the same selections are emitted without any fragments.
-/
theorem expand_fails_at_first_fault_or_as_inlined
    (document : QueryDocument)
    (operation : Operation)
    (given : Table Json) :
    let bindings := Expansion.variableValues given operation.declared
    let expanded :=
      (document.expansion bindings).expand (.ofDefinitions document.fragments)
        none operation.selections
    (∃ met, document.Walks bindings [] operation.selections met) ∧
      ∀ met,
        document.Walks bindings [] operation.selections met →
          (∀ cause,
            expanded = .error cause ↔
              met.findSome? document.fault? = some cause) ∧
          (met.findSome? document.fault? = none →
            (∃ inlined,
              document.Inlines bindings operation.selections inlined ∧
                areSpreadFree inlined = true) ∧
            ∃ emitted,
              expanded = .ok emitted ∧
                ∀ inlined,
                  document.Inlines bindings operation.selections inlined →
                    (bare bindings).expand ⟨[]⟩ none inlined =
                      .ok emitted) := by
  intro bindings expanded
  have leavesOut := document.leavesOut_nil
  refine ⟨exists_walks bindings leavesOut operation.selections, ?_⟩
  intro met walks
  have isCause := walks.cause?_expand leavesOut none
  constructor
  · intro cause
    rw [← isCause, Success.cause?_eq_some_iff]
  · intro noFault
    obtain ⟨emitted, isEmitted⟩ :=
      Success.cause?_eq_none_iff.mp (isCause.trans noFault)
    refine ⟨walks.exists_inlines noFault, emitted, isEmitted, ?_⟩
    intro inlined inlines
    rw [← List.getLast?_nil] at isEmitted ⊢
    exact inlines.expand_eq isEmitted leavesOut

end QueryDocument

end GraphGate.GraphQL
