import GraphGate.Proofs.Merging
import GraphGate.Proofs.Success
import GraphGate.Request.Handling

namespace GraphGate

/-!
# The fields of a selection set

A field of a selection set may stand inside inline fragments and inside
fragments that are spread, each of which may restrict it to a type. Here is
which fields a selection set has when skipped parts are left out and fragments
stand in their place, with all type conditions around each field. Expansion
succeeds exactly where these fields are defined, and emits one selection for
each of them, in order and at every depth. A request asks for the fields of the
operation that it selects.
-/

/-- A field of a selection set, with the fields selected in it. -/
structure FieldOccurrence where
  /-- The type conditions between the field and its parent, from the outermost inwards. -/
  enclosing : List String
  label : Option String
  name : String
  arguments : List (String × Json)
  nested : List FieldOccurrence
deriving Inhabited

/-- The selections under a path of response keys, in order. -/
def FieldSelection.under :
    List String → List FieldSelection → List FieldSelection
  | [], selections => selections
  | key :: keys, selections =>
      under keys ((ofKey key selections).flatMap nested)

namespace FieldOccurrence

/-- The key of the field in the response. -/
def responseKey (occurrence : FieldOccurrence) : String :=
  occurrence.label.getD occurrence.name

mutual

/-- The selection of a field: of the conditions around it, the innermost is kept. -/
def selection : FieldOccurrence → FieldSelection
  | ⟨enclosing, label, name, arguments, nested⟩ =>
      Expansion.selectionUnder enclosing.getLast? name label arguments
        (selections nested)

/-- The selections of several fields. -/
def selections : List FieldOccurrence → List FieldSelection
  | [] => []
  | occurrence :: rest => occurrence.selection :: selections rest

end

@[simp] theorem selections_eq_map (occurrences : List FieldOccurrence) :
    selections occurrences = occurrences.map selection := by
  induction occurrences with
  | nil =>
      rfl
  | cons occurrence rest inductionHypothesis =>
      rw [selections, inductionHypothesis, List.map_cons]

theorem selection_eq (occurrence : FieldOccurrence) :
    occurrence.selection =
      Expansion.selectionUnder occurrence.enclosing.getLast? occurrence.name
        occurrence.label occurrence.arguments
        (occurrence.nested.map selection) := by
  obtain ⟨enclosing, label, name, arguments, nested⟩ := occurrence
  rw [selection, selections_eq_map]

@[simp] theorem name_selection (occurrence : FieldOccurrence) :
    occurrence.selection.name = occurrence.name := by
  rw [selection_eq]
  rfl

@[simp] theorem arguments_selection (occurrence : FieldOccurrence) :
    occurrence.selection.arguments = occurrence.arguments := by
  rw [selection_eq]
  rfl

@[simp] theorem responseKey_selection (occurrence : FieldOccurrence) :
    occurrence.selection.responseKey = occurrence.responseKey := by
  rw [selection_eq]
  rfl

@[simp] theorem conditions_selection (occurrence : FieldOccurrence) :
    occurrence.selection.conditions = occurrence.enclosing.getLast?.toList := by
  rw [selection_eq]
  rfl

@[simp] theorem nested_selection (occurrence : FieldOccurrence) :
    occurrence.selection.nested = occurrence.nested.map selection := by
  rw [selection_eq]
  rfl

/-- The fields under a path of response keys, in order. -/
def under : List String → List FieldOccurrence → List FieldOccurrence
  | [], occurrences => occurrences
  | key :: keys, occurrences =>
      under keys
        ((occurrences.filter (·.responseKey = key)).flatMap nested)

/-- The selections of fields stand under the same response keys as the fields. -/
theorem under_map_selection
    (keys : List String)
    (occurrences : List FieldOccurrence) :
    FieldSelection.under keys (occurrences.map selection) =
      (under keys occurrences).map selection := by
  induction keys generalizing occurrences with
  | nil =>
      rfl
  | cons key keys inductionHypothesis =>
      have inside :
          (FieldSelection.ofKey key (occurrences.map selection)).flatMap
              FieldSelection.nested =
            ((occurrences.filter (·.responseKey = key)).flatMap nested).map
              selection := by
        rw [FieldSelection.ofKey, List.filter_map, List.flatMap_map,
          List.map_flatMap]
        simp [Function.comp_def]
      rw [FieldSelection.under, inside, inductionHypothesis, under]

end FieldOccurrence

/-- The directives of a part of a selection set. -/
def GraphQL.Selection.directives :
    GraphQL.Selection → List GraphQL.Directive
  | .field _ _ _ directives _ => directives
  | .inlineFragment _ directives _ => directives
  | .spread _ directives => directives

namespace GraphQL

/-- A value stands for a truth value: it is one, or it is a variable that has one. -/
inductive Value.IsTruth (bindings : Table Json) : Value → Bool → Prop where
  | literal (truth : Bool) :
      IsTruth bindings (.boolean truth) truth
  | reference {name : String} {truth : Bool} :
      bindings.get? name = some (.bool truth) →
      IsTruth bindings (.reference name) truth

/--
A directive leaves out what it is applied to: `@skip` where its condition is
true, and `@include` where its condition is false.
-/
inductive Directive.Excludes
    (bindings : Table Json)
    (directive : Directive) : Prop where
  | skips {condition : Value} :
      directive.name = "skip" →
      directive.argument? "if" = some condition →
      condition.IsTruth bindings true →
      Excludes bindings directive
  | doesNotInclude {condition : Value} :
      directive.name = "include" →
      directive.argument? "if" = some condition →
      condition.IsTruth bindings false →
      Excludes bindings directive

/-- What some directives are applied to is left out by one of them. -/
def IsLeftOut (bindings : Table Json) (directives : List Directive) : Prop :=
  ∃ directive ∈ directives, directive.Excludes bindings

theorem not_isLeftOut_nil (bindings : Table Json) : ¬ IsLeftOut bindings [] :=
  fun ⟨_, member, _⟩ => nomatch member

variable {bindings : Table Json}

theorem Value.bool?_toJson_eq_some_iff
    {value : Value}
    {truth : Bool} :
    (value.toJson bindings).bool? = some truth ↔
      value.IsTruth bindings truth := by
  constructor
  · intro isTruth
    cases value with
    | boolean literal =>
        rw [toJson] at isTruth
        cases isTruth
        exact .literal truth
    | reference name =>
        rw [toJson] at isTruth
        cases bound : bindings.get? name with
        | none =>
            rw [bound] at isTruth
            cases isTruth
        | some value =>
            rw [bound] at isTruth
            cases value <;> cases isTruth
            exact .reference bound
    | float value =>
        rw [toJson, Json.ofBinary64] at isTruth
        split at isTruth <;> cases isTruth
    | integer value | string value | null | enumeration name | list items
    | object fields =>
        rw [toJson] at isTruth
        cases isTruth
  · rintro (_ | isBound)
    · rw [toJson]
      rfl
    · rw [toJson, isBound]
      rfl

theorem Directive.condition?_eq_some_iff
    {directive : Directive}
    {truth : Bool} :
    directive.condition? bindings = some truth ↔
      ∃ condition,
        directive.argument? "if" = some condition ∧
          condition.IsTruth bindings truth := by
  simp only [condition?, Option.bind_eq_some_iff, Value.bool?_toJson_eq_some_iff]

theorem Directive.includes_eq_false_iff {directive : Directive} :
    directive.includes bindings = false ↔ directive.Excludes bindings := by
  constructor
  · intro excludes
    unfold includes at excludes
    split at excludes
    · rename_i truth isSkip found
      obtain ⟨condition, isCondition, isTruth⟩ :=
        condition?_eq_some_iff.mp found
      cases truth with
      | false =>
          cases excludes
      | true =>
          exact .skips isSkip isCondition isTruth
    · rename_i isInclude found
      obtain ⟨condition, isCondition, isTruth⟩ :=
        condition?_eq_some_iff.mp found
      cases excludes
      exact .doesNotInclude isInclude isCondition isTruth
    · cases excludes
  · rintro (⟨isSkip, isCondition, isTruth⟩ | ⟨isInclude, isCondition, isTruth⟩)
    · have found := condition?_eq_some_iff.mpr ⟨_, isCondition, isTruth⟩
      simp [includes, isSkip, found]
    · have found := condition?_eq_some_iff.mpr ⟨_, isCondition, isTruth⟩
      simp [includes, isInclude, found]

/-- A part is included exactly if no directive leaves it out. -/
theorem isIncluded_iff {directives : List Directive} :
    isIncluded bindings directives = true ↔ ¬ IsLeftOut bindings directives := by
  simp only [isIncluded, List.all_eq_true, IsLeftOut, not_exists, not_and,
    ← Directive.includes_eq_false_iff, Bool.not_eq_false]

theorem isLeftOut_iff {directives : List Directive} :
    IsLeftOut bindings directives ↔ ¬ isIncluded bindings directives = true := by
  rw [isIncluded_iff, not_not]

end GraphQL

namespace Expansion

/--
The fields of a selection set under the type conditions around it, with some of
the fragments available. An inline fragment may bring in a condition, and a
fragment that is spread always does.
-/
inductive Unfolds (expansion : Expansion) :
    FragmentTable → List String → List GraphQL.Selection →
      List FieldOccurrence → Prop where
  | nil
      {available : FragmentTable}
      {enclosing : List String} :
      Unfolds expansion available enclosing [] []
  | skipped
      {available : FragmentTable}
      {enclosing : List String}
      {selection : GraphQL.Selection}
      {rest : List GraphQL.Selection}
      {others : List FieldOccurrence} :
      GraphQL.IsLeftOut expansion.bindings selection.directives →
      Unfolds expansion available enclosing rest others →
      Unfolds expansion available enclosing (selection :: rest) others
  | field
      {available : FragmentTable}
      {enclosing : List String}
      {label : Option String}
      {name : String}
      {arguments : GraphQL.Arguments}
      {directives : List GraphQL.Directive}
      {nested rest : List GraphQL.Selection}
      {inner others : List FieldOccurrence} :
      ¬ GraphQL.IsLeftOut expansion.bindings directives →
      Unfolds expansion available [] nested inner →
      Unfolds expansion available enclosing rest others →
      Unfolds expansion available enclosing
        (.field label name arguments directives nested :: rest)
        (⟨enclosing, label, name,
          GraphQL.argumentsToJson expansion.bindings arguments, inner⟩ :: others)
  | inlineFragment
      {available : FragmentTable}
      {enclosing : List String}
      {condition : Option String}
      {directives : List GraphQL.Directive}
      {nested rest : List GraphQL.Selection}
      {inner others : List FieldOccurrence} :
      ¬ GraphQL.IsLeftOut expansion.bindings directives →
      Unfolds expansion available (enclosing ++ condition.toList) nested inner →
      Unfolds expansion available enclosing rest others →
      Unfolds expansion available enclosing
        (.inlineFragment condition directives nested :: rest) (inner ++ others)
  | spread
      {available : FragmentTable}
      {enclosing : List String}
      {name : String}
      {directives : List GraphQL.Directive}
      {fragment : GraphQL.FragmentDefinition}
      {rest : List GraphQL.Selection}
      {inner others : List FieldOccurrence} :
      ¬ GraphQL.IsLeftOut expansion.bindings directives →
      available.find? name = some fragment →
      Unfolds expansion (available.without name)
        (enclosing ++ [fragment.condition]) fragment.selections inner →
      Unfolds expansion available enclosing rest others →
      Unfolds expansion available enclosing
        (.spread name directives :: rest) (inner ++ others)

variable {expansion : Expansion} {available : FragmentTable}
variable {condition : Option String} {enclosing : List String}
variable {selections : List GraphQL.Selection} {emitted : List FieldSelection}
variable {occurrences : List FieldOccurrence}

/-- What is inside an inline fragment has its condition as innermost one, or that around it. -/
theorem getLast?_append_toList
    (enclosing : List String)
    (condition : Option String) :
    (enclosing ++ condition.toList).getLast? =
      condition.or enclosing.getLast? := by
  cases condition <;> simp

/-- A part that is skipped has no part in the expansion. -/
theorem expand_skipped
    (condition : Option String)
    {selection : GraphQL.Selection}
    (rest : List GraphQL.Selection)
    (skipped : GraphQL.IsLeftOut expansion.bindings selection.directives) :
    expansion.expand available condition (selection :: rest) =
      expansion.expand available condition rest := by
  have notIncluded := GraphQL.isLeftOut_iff.mp skipped
  cases selection with
  | field label name arguments directives nested =>
      exact (expand.eq_def ..).trans (if_neg notIncluded)
  | inlineFragment inner directives nested =>
      exact (expand.eq_def ..).trans (if_neg notIncluded)
  | spread name directives =>
      exact (expand.eq_def ..).trans (if_neg notIncluded)

/-- A selection set that unfolds is expanded to the selections of its fields. -/
theorem Unfolds.expand_eq
    (unfolds : expansion.Unfolds available enclosing selections occurrences) :
    expansion.expand available enclosing.getLast? selections =
      .ok (occurrences.map FieldOccurrence.selection) := by
  induction unfolds with
  | nil =>
      rw [expand]
      rfl
  | skipped skipped _ others =>
      rw [expand_skipped _ _ skipped, others]
  | field included _ _ inside others =>
      rw [List.getLast?_nil] at inside
      rw [expand, if_pos (GraphQL.isIncluded_iff.mpr included)]
      simp only [inside, others, bind, Except.bind, pure, Except.pure,
        List.map_cons, FieldOccurrence.selection_eq]
  | inlineFragment included _ _ inside others =>
      rw [getLast?_append_toList] at inside
      rw [expand, if_pos (GraphQL.isIncluded_iff.mpr included)]
      simp only [inside, others, bind, Except.bind, pure, Except.pure,
        List.map_append]
  | @spread _ enclosing _ _ fragment _ _ _ included found _ _ inside others =>
      have innermost :=
        getLast?_append_toList enclosing (some fragment.condition)
      rw [Option.toList_some, Option.some_or] at innermost
      rw [innermost] at inside
      rw [expand, if_pos (GraphQL.isIncluded_iff.mpr included)]
      split
      · rename_i other isFound
        cases found.symm.trans isFound
        simp only [inside, others, bind, Except.bind, pure, Except.pure,
          List.map_append]
      · rename_i missing
        rw [found] at missing
        cases missing

/-- A selection set that is expanded unfolds, whatever conditions are around it. -/
theorem exists_unfolds_of_expand
    (expanded : expansion.expand available condition selections = .ok emitted)
    (enclosing : List String) :
    ∃ occurrences,
      expansion.Unfolds available enclosing selections occurrences := by
  fun_induction expand expansion available condition selections
    generalizing emitted enclosing with
  | case1 =>
      exact ⟨[], .nil⟩
  | case2 available condition label name arguments directives nested rest
      included inside others =>
      obtain ⟨_, _, isInner, isRest, -⟩ :=
        Success.bind_bind_pure_eq_ok_iff.mp expanded
      obtain ⟨inner, unfoldsInside⟩ := inside isInner []
      obtain ⟨following, unfoldsRest⟩ := others isRest enclosing
      exact ⟨_, .field (GraphQL.isIncluded_iff.mp included) unfoldsInside
        unfoldsRest⟩
  | case4 available condition inner directives nested rest included inside
      others =>
      obtain ⟨_, _, isInner, isRest, -⟩ :=
        Success.bind_bind_pure_eq_ok_iff.mp expanded
      obtain ⟨within, unfoldsInside⟩ :=
        inside isInner (enclosing ++ inner.toList)
      obtain ⟨following, unfoldsRest⟩ := others isRest enclosing
      exact ⟨_, .inlineFragment (GraphQL.isIncluded_iff.mp included) unfoldsInside
        unfoldsRest⟩
  | case6 available condition name directives rest included fragment found
      inside others =>
      obtain ⟨_, _, isInner, isRest, -⟩ :=
        Success.bind_bind_pure_eq_ok_iff.mp expanded
      obtain ⟨within, unfoldsInside⟩ :=
        inside isInner (enclosing ++ [fragment.condition])
      obtain ⟨following, unfoldsRest⟩ := others isRest enclosing
      exact ⟨_, .spread (GraphQL.isIncluded_iff.mp included) found unfoldsInside
        unfoldsRest⟩
  | case7 | case8 =>
      cases expanded
  | case3 available condition label name arguments directives nested rest
      excluded others =>
      obtain ⟨following, unfoldsRest⟩ := others expanded enclosing
      exact ⟨following, .skipped (GraphQL.isLeftOut_iff.mpr excluded) unfoldsRest⟩
  | case5 available condition inner directives nested rest excluded others =>
      obtain ⟨following, unfoldsRest⟩ := others expanded enclosing
      exact ⟨following, .skipped (GraphQL.isLeftOut_iff.mpr excluded) unfoldsRest⟩
  | case9 available condition name directives rest excluded others =>
      obtain ⟨following, unfoldsRest⟩ := others expanded enclosing
      exact ⟨following, .skipped (GraphQL.isLeftOut_iff.mpr excluded) unfoldsRest⟩

/--
Expansion succeeds exactly on selection sets that unfold, and emits one
selection for each of their fields.
-/
theorem expand_eq_ok_iff :
    expansion.expand available enclosing.getLast? selections = .ok emitted ↔
      ∃ occurrences,
        expansion.Unfolds available enclosing selections occurrences ∧
          emitted = occurrences.map FieldOccurrence.selection := by
  constructor
  · intro expanded
    obtain ⟨occurrences, unfolds⟩ :=
      exists_unfolds_of_expand expanded enclosing
    refine ⟨occurrences, unfolds, ?_⟩
    rw [unfolds.expand_eq] at expanded
    exact (Except.ok.inj expanded).symm
  · rintro ⟨occurrences, unfolds, rfl⟩
    exact unfolds.expand_eq

end Expansion

namespace GraphQLRequest

variable {request : GraphQLRequest} {selections : List FieldSelection}

/-- The fields that a request asks for: those of the operation it selects, which is a query. -/
inductive Asks (request : GraphQLRequest) : List FieldOccurrence → Prop where
  | intro
      {document : GraphQL.QueryDocument}
      {operation : GraphQL.Operation}
      {occurrences : List FieldOccurrence} :
      GraphQL.QueryDocument.parse request.query = .ok document →
      selectOperation document.operations request.operationName =
        .ok operation →
      operation.kind = .query →
      Expansion.Unfolds
        ⟨FragmentTable.ofDefinitions document.fragments,
          Expansion.variableValues request.bindings operation.declared⟩
        (FragmentTable.ofDefinitions document.fragments) []
        operation.selections occurrences →
      Asks request occurrences

/-- A request is read exactly if it asks for some fields, and these are merged. -/
theorem selections_eq_ok_iff :
    request.selections = .ok selections ↔
      ∃ occurrences,
        request.Asks occurrences ∧
          selections =
            FieldSelection.merge
              (occurrences.map FieldOccurrence.selection) := by
  constructor
  · intro read
    unfold GraphQLRequest.selections at read
    split at read
    · cases read
    · rename_i document isDocument
      obtain ⟨operation, isSelected, read⟩ := Success.bind_eq_ok_iff.mp read
      split at read
      · rename_i isQuery
        obtain ⟨emitted, expanded, merged⟩ := Success.bind_eq_ok_iff.mp read
        cases merged
        have atTop := expanded
        rw [← List.getLast?_nil (α := String)] at atTop
        obtain ⟨occurrences, unfolds, rfl⟩ :=
          Expansion.expand_eq_ok_iff.mp atTop
        exact ⟨occurrences, .intro isDocument isSelected isQuery unfolds, rfl⟩
      · cases read
  · rintro ⟨occurrences, ⟨isDocument, isSelected, isQuery, unfolds⟩, rfl⟩
    have expanded := unfolds.expand_eq
    rw [List.getLast?_nil] at expanded
    simp only [GraphQLRequest.selections, isDocument, isSelected, isQuery,
      Expansion.selectionsOf, expanded, bind, Except.bind, pure, Except.pure]

end GraphQLRequest

end GraphGate
