import GraphGate.Proofs.Pruning
import GraphGate.Proofs.Request.Spreads
import GraphGate.Request.Handling

namespace GraphGate

/-!
# What is left when parts are skipped

A document with `@skip` and `@include` is compared with the same document
without them. If the latter expands, the former does, and emits the same
selections with some left out, whatever the conditions are and wherever they
stand.
-/

namespace GraphQL

/-- Whether a directive may leave out what it is applied to. -/
def Directive.maySkip (directive : Directive) : Bool :=
  directive.name = "skip" || directive.name = "include"

/-- The directives that leave in what they are applied to. -/
def withoutSkips (directives : List Directive) : List Directive :=
  directives.filter (!·.maySkip)

theorem not_isLeftOut_withoutSkips
    (bindings : Table Json)
    (directives : List Directive) :
    ¬ IsLeftOut bindings (withoutSkips directives) := by
  rintro ⟨directive, member, excludes⟩
  obtain ⟨-, isPlain⟩ := List.mem_filter.mp member
  simp only [Directive.maySkip, Bool.not_eq_true', Bool.or_eq_false_iff,
    decide_eq_false_iff_not] at isPlain
  cases excludes with
  | skips isSkip =>
      exact isPlain.1 isSkip
  | doesNotInclude isInclude =>
      exact isPlain.2 isInclude

mutual

/-- A part of a selection set without `@skip` and `@include`, at any depth. -/
def Selection.unskipped : Selection → Selection
  | .field label name arguments directives nested =>
      .field label name arguments (withoutSkips directives) (unskippedAll nested)
  | .inlineFragment condition directives nested =>
      .inlineFragment condition (withoutSkips directives) (unskippedAll nested)
  | .spread name directives =>
      .spread name (withoutSkips directives)

/-- A selection set without `@skip` and `@include`, at any depth. -/
def unskippedAll : List Selection → List Selection
  | [] => []
  | selection :: rest => selection.unskipped :: unskippedAll rest

end

/-- The operation without `@skip` and `@include`. -/
def Operation.unskipped (operation : Operation) : Operation :=
  { operation with
    directives := withoutSkips operation.directives
    selections := unskippedAll operation.selections }

/-- The fragment without `@skip` and `@include`. -/
def FragmentDefinition.unskipped
    (fragment : FragmentDefinition) : FragmentDefinition :=
  { fragment with
    directives := withoutSkips fragment.directives
    selections := unskippedAll fragment.selections }

/-- The document without `@skip` and `@include`. -/
def QueryDocument.unskipped (document : QueryDocument) : QueryDocument where
  operations := document.operations.map Operation.unskipped
  fragments := document.fragments.map FragmentDefinition.unskipped

end GraphQL

namespace FragmentTable

/-- The same fragments are available, without `@skip` and `@include`. -/
def Unskips (full available : FragmentTable) : Prop :=
  ∀ name,
    full.find? name =
      (available.find? name).map GraphQL.FragmentDefinition.unskipped

theorem unskips_ofDefinitions
    (definitions : List GraphQL.FragmentDefinition) :
    Unskips (ofDefinitions (definitions.map GraphQL.FragmentDefinition.unskipped))
      (ofDefinitions definitions) := by
  intro name
  rw [find?_ofDefinitions, find?_ofDefinitions, ← List.map_reverse,
    List.find?_map]
  rfl

theorem Unskips.without
    {full available : FragmentTable}
    (unskips : full.Unskips available)
    (name : String) :
    (full.without name).Unskips (available.without name) := by
  intro other
  rw [find?_without, find?_without, unskips other]
  split <;> rfl

end FragmentTable

namespace Expansion

variable {expansion full : Expansion} {available fullAvailable : FragmentTable}
variable {condition : Option String} {all : List FieldSelection}

/-- What a selection set expands to ends with what its rest expands to. -/
theorem exists_expand_rest
    {selection : GraphQL.Selection}
    {rest : List GraphQL.Selection}
    (expanded :
      expansion.expand available condition (selection :: rest) = .ok all) :
    ∃ front others,
      expansion.expand available condition rest = .ok others ∧
        all = front ++ others := by
  by_cases included : GraphQL.IsLeftOut expansion.bindings selection.directives
  · rw [expand_skipped _ _ included] at expanded
    exact ⟨[], all, expanded, rfl⟩
  · cases selection with
    | field label name arguments directives nested =>
        rw [GraphQL.Selection.directives] at included
        rw [expand_field _ _ _ _ _ _ _ included] at expanded
        obtain ⟨inner, others, -, areOthers, rfl⟩ :=
          Success.bind_bind_pure_eq_ok_iff.mp expanded
        exact ⟨[_], others, areOthers, rfl⟩
    | inlineFragment inner directives nested =>
        rw [GraphQL.Selection.directives] at included
        rw [expand_inlineFragment _ _ _ _ _ included] at expanded
        obtain ⟨front, others, -, areOthers, rfl⟩ :=
          Success.bind_bind_pure_eq_ok_iff.mp expanded
        exact ⟨front, others, areOthers, rfl⟩
    | spread name directives =>
        rw [GraphQL.Selection.directives] at included
        cases found : available.find? name with
        | none =>
            rw [expand_spread_of_missing _ _ _ included found] at expanded
            cases expanded
        | some fragment =>
            rw [expand_spread_of_found _ _ _ included found] at expanded
            obtain ⟨front, others, -, areOthers, rfl⟩ :=
              Success.bind_bind_pure_eq_ok_iff.mp expanded
            exact ⟨front, others, areOthers, rfl⟩

/-- What is kept of one part and then of another is kept of the two together. -/
theorem exists_prunes_append
    {first second : Except RequestError (List FieldSelection)}
    {allFirst allSecond : List FieldSelection}
    (here : ∃ kept, first = .ok kept ∧ FieldSelection.Prunes kept allFirst)
    (there : ∃ kept, second = .ok kept ∧ FieldSelection.Prunes kept allSecond) :
    ∃ kept,
      (first >>= fun front => second >>= fun others => pure (front ++ others)) =
          .ok kept ∧
        FieldSelection.Prunes kept (allFirst ++ allSecond) := by
  obtain ⟨front, keepsFront, prunesFront⟩ := here
  obtain ⟨others, keepsOthers, prunesOthers⟩ := there
  refine ⟨front ++ others, ?_, prunesFront.append prunesOthers⟩
  exact Success.bind_bind_pure_eq_ok_iff.mpr
    ⟨front, others, keepsFront, keepsOthers, rfl⟩

/-- Parts that are skipped are missing from what a selection set expands to, and nothing else is. -/
theorem exists_prunes_of_expand
    {selections : List GraphQL.Selection}
    (unskips : fullAvailable.Unskips available)
    (sameBindings : full.bindings = expansion.bindings)
    (expanded :
      full.expand fullAvailable condition (GraphQL.unskippedAll selections) =
        .ok all) :
    ∃ kept,
      expansion.expand available condition selections = .ok kept ∧
        FieldSelection.Prunes kept all := by
  have neverLeftOut (directives : List GraphQL.Directive) :=
    GraphQL.not_isLeftOut_withoutSkips full.bindings directives
  fun_induction expand expansion available condition selections
    generalizing fullAvailable all with
  | case1 =>
      rw [GraphQL.unskippedAll, expand] at expanded
      cases expanded
      exact ⟨[], rfl, .nil⟩
  | case2 available condition label name arguments directives nested rest
      included inside others =>
      rw [GraphQL.unskippedAll, GraphQL.Selection.unskipped,
        expand_field _ _ _ _ _ _ _ (neverLeftOut _)] at expanded
      obtain ⟨allNested, allOthers, isNested, areOthers, rfl⟩ :=
        Success.bind_bind_pure_eq_ok_iff.mp expanded
      obtain ⟨keptNested, keepsNested, prunesNested⟩ := inside unskips isNested
      obtain ⟨keptOthers, keepsOthers, prunesOthers⟩ := others unskips areOthers
      let whole :=
        selectionUnder condition name label
          (GraphQL.argumentsToJson expansion.bindings arguments) allNested
      have prunes :
          FieldSelection.Prunes (whole.selecting keptNested :: keptOthers)
            (whole :: allOthers) :=
        .keep prunesNested prunesOthers
      refine ⟨whole.selecting keptNested :: keptOthers,
        Success.bind_bind_pure_eq_ok_iff.mpr
          ⟨keptNested, keptOthers, keepsNested, keepsOthers, rfl⟩, ?_⟩
      rw [sameBindings]
      exact prunes
  | case4 available condition inner directives nested rest included inside
      others =>
      rw [GraphQL.unskippedAll, GraphQL.Selection.unskipped,
        expand_inlineFragment _ _ _ _ _ (neverLeftOut _)] at expanded
      obtain ⟨allInner, allOthers, isInner, areOthers, rfl⟩ :=
        Success.bind_bind_pure_eq_ok_iff.mp expanded
      exact exists_prunes_append (inside unskips isInner)
        (others unskips areOthers)
  | case6 available condition name directives rest included fragment found
      inside others =>
      have isFound := unskips name
      rw [found, Option.map_some] at isFound
      rw [GraphQL.unskippedAll, GraphQL.Selection.unskipped,
        expand_spread_of_found _ _ _ (neverLeftOut _) isFound] at expanded
      obtain ⟨allInner, allOthers, isInner, areOthers, rfl⟩ :=
        Success.bind_bind_pure_eq_ok_iff.mp expanded
      exact exists_prunes_append (inside (unskips.without name) isInner)
        (others unskips areOthers)
  | case7 available condition name directives rest included missing isDefined
  | case8 available condition name directives rest included missing isUnknown =>
      have isMissing := unskips name
      rw [missing, Option.map_none] at isMissing
      rw [GraphQL.unskippedAll, GraphQL.Selection.unskipped,
        expand_spread_of_missing _ _ _ (neverLeftOut _) isMissing] at expanded
      cases expanded
  | case3 available condition label name arguments directives nested rest
      excluded others
  | case5 available condition inner directives nested rest excluded others
  | case9 available condition name directives rest excluded others =>
      rw [GraphQL.unskippedAll] at expanded
      obtain ⟨front, allOthers, areOthers, rfl⟩ := exists_expand_rest expanded
      obtain ⟨kept, keeps, prunes⟩ := others unskips areOthers
      exact ⟨kept, keeps, (FieldSelection.prunes_nil front).append prunes⟩

end Expansion

namespace GraphQLRequest

variable {request plain : GraphQLRequest} {document : GraphQL.QueryDocument}
variable {all : List FieldSelection}

/-- The top-level selections of a request before they are merged. -/
def emitted (request : GraphQLRequest) :
    Except RequestError (List FieldSelection) :=
  match GraphQL.QueryDocument.parse request.query with
  | .error position => .error (.parse position)
  | .ok document => do
      let operation ←
        selectOperation document.operations request.operationName
      match operation.kind with
      | .query =>
          let bindings :=
            Expansion.variableValues request.bindings operation.declared
          (document.expansion bindings).expand
            (.ofDefinitions document.fragments) none operation.selections
      | kind => throw (.unsupportedOperation kind)

theorem selections_eq_merge (request : GraphQLRequest) :
    request.selections = FieldSelection.merge <$> request.emitted := by
  unfold selections emitted
  cases GraphQL.QueryDocument.parse request.query with
  | error position =>
      rfl
  | ok document =>
      dsimp only
      cases selectOperation document.operations request.operationName with
      | error cause =>
          rfl
      | ok operation =>
          obtain ⟨kind, name, declared, directives, selections⟩ := operation
          cases kind <;> rfl

/-- Without `@skip` and `@include` the same operation is selected. -/
theorem selectOperation_unskipped
    (operations : List GraphQL.Operation)
    (name : Option String) :
    selectOperation (operations.map GraphQL.Operation.unskipped) name =
      GraphQL.Operation.unskipped <$> selectOperation operations name := by
  cases name with
  | some name =>
      simp only [selectOperation, List.find?_map]
      have sameName :
          ((fun operation : GraphQL.Operation => decide (operation.name = some name)) ∘
              GraphQL.Operation.unskipped) =
            fun operation => decide (operation.name = some name) :=
        rfl
      rw [sameName]
      cases operations.find? (·.name = some name) <;> rfl
  | none =>
      rcases operations with _ | ⟨first, _ | ⟨second, rest⟩⟩ <;> rfl

/--
A request emits what the same request without `@skip` and `@include` emits, with
some selections left out.
-/
theorem exists_emitted_prunes
    (parsed : GraphQL.QueryDocument.parse request.query = .ok document)
    (parsedPlain :
      GraphQL.QueryDocument.parse plain.query = .ok document.unskipped)
    (sameOperation : plain.operationName = request.operationName)
    (sameBindings : plain.bindings = request.bindings)
    (emits : plain.emitted = .ok all) :
    ∃ kept, request.emitted = .ok kept ∧ FieldSelection.Prunes kept all := by
  unfold emitted at emits ⊢
  simp only [parsed, parsedPlain, sameOperation, sameBindings] at emits ⊢
  rw [GraphQL.QueryDocument.unskipped, selectOperation_unskipped] at emits
  cases selected :
      selectOperation document.operations request.operationName with
  | error cause =>
      rw [selected] at emits
      cases emits
  | ok operation =>
      rw [selected] at emits
      obtain ⟨kind, name, declared, directives, selections⟩ := operation
      cases kind with
      | query =>
          let bindings := Expansion.variableValues request.bindings declared
          have expanded :
              (document.unskipped.expansion bindings).expand
                  (.ofDefinitions document.unskipped.fragments) none
                  (GraphQL.unskippedAll selections) =
                .ok all :=
            emits
          have alike :
              (document.unskipped.expansion bindings).bindings =
                (document.expansion bindings).bindings :=
            rfl
          exact Expansion.exists_prunes_of_expand
            (FragmentTable.unskips_ofDefinitions document.fragments) alike
            expanded
      | mutation | subscription =>
          cases emits

end GraphQLRequest

end GraphGate
