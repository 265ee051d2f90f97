import GraphGate.Proofs.Compilation.SiblingOrder
import GraphGate.Proofs.Schema.PossibleTypes

namespace GraphGate

/-!
# Type conditions that are refused

A type condition on a nested field is compared with the type of the values that
the field is selected on. It is refused if neither is a subtype of the other.
Where one of the two is an object type this means that no object type is a
possible type of both. Two abstract types are never subtypes of one another, so
they are refused even where object types are possible types of both.
-/

namespace Success

variable {ε α β σ : Type} {allowed : ε → Prop}

/-- Whatever a step fails with is allowed. -/
def FailsOnlyWith (allowed : ε → Prop) (result : Except ε α) : Prop :=
  ∀ cause, result = .error cause → allowed cause

theorem FailsOnlyWith.of_ok (value : α) :
    FailsOnlyWith allowed (.ok value) := by
  intro cause failed
  cases failed

theorem FailsOnlyWith.of_error
    {cause : ε}
    (isAllowed : allowed cause) :
    FailsOnlyWith (α := α) allowed (.error cause) := by
  intro other failed
  cases failed
  exact isAllowed

/-- Two steps fail as one of them does. -/
theorem FailsOnlyWith.bind
    {first : Except ε α}
    {next : α → Except ε β}
    (head : FailsOnlyWith allowed first)
    (tail : ∀ value, first = .ok value → FailsOnlyWith allowed (next value)) :
    FailsOnlyWith allowed (first >>= next) := by
  cases first with
  | error cause =>
      intro other failed
      cases failed
      exact head cause rfl
  | ok value =>
      exact tail value rfl

/-- A walk along a list fails as one of its steps does. -/
theorem FailsOnlyWith.foldlM
    {step : σ → α → Except ε σ}
    (each : ∀ state item, FailsOnlyWith allowed (step state item))
    (items : List α)
    (state : σ) :
    FailsOnlyWith allowed (items.foldlM step state) := by
  induction items generalizing state with
  | nil =>
      exact .of_ok state
  | cons item rest inductionHypothesis =>
      rw [List.foldlM_cons]
      exact (each state item).bind fun next _ => inductionHypothesis next

end Success

namespace Model

variable {model : Model} {condition type name : String}
variable {declaration : TypeDeclaration}

/-- Neither of two types is a subtype of the other. -/
def isApart (model : Model) (condition type : String) : Bool :=
  !model.isSubtype condition type && !model.isSubtype type condition

/-- Two types are different, and both are abstract or no object type is a possible type of both. -/
def Excludes (model : Model) (condition type : String) : Prop :=
  condition ≠ type ∧
    (model.isAbstract condition = true ∧ model.isAbstract type = true ∨
      ∀ possible ∈ model.possibleTypes condition,
        ∀ other ∈ model.possibleTypes type, possible.name ≠ other.name)

instance : Decidable (model.Excludes condition type) :=
  inferInstanceAs (Decidable (_ ∧ _))

theorem isSubtype_iff :
    model.isSubtype condition type = true ↔
      condition = type ∨
        ∃ possible ∈ model.possibleTypes type, possible.name = condition := by
  simp [isSubtype]

/-- An object type is a possible type of itself. -/
theorem exists_possible_of_isObject (isObject : model.isObject name = true) :
    ∃ possible ∈ model.possibleTypes name, possible.name = name := by
  obtain ⟨declaration, interfaces, found, kind⟩ := isObject_iff.mp isObject
  refine ⟨declaration, ?_, Catalogue.name_of_find? found⟩
  simp [possibleTypes, found, kind]

theorem not_isAbstract_of_isObject (isObject : model.isObject name = true) :
    ¬ model.isAbstract name = true := by
  obtain ⟨declaration, interfaces, found, kind⟩ := isObject_iff.mp isObject
  simp [isAbstract, found, kind, TypeKind.isAbstract]

/-- A type that is not abstract has at most itself as a possible type. -/
theorem name_of_mem_possibleTypes
    (possible : declaration ∈ model.possibleTypes name)
    (concrete : ¬ model.isAbstract name = true) :
    declaration.name = name := by
  unfold possibleTypes at possible
  cases found : model.type? name with
  | none =>
      simp [found] at possible
  | some type =>
      cases kind : type.kind with
      | object interfaces =>
          simp only [found, kind, List.mem_singleton] at possible
          subst possible
          exact Catalogue.name_of_find? found
      | interface | union =>
          simp [isAbstract, found, kind, TypeKind.isAbstract] at concrete
      | scalar | enumeration =>
          simp [found, kind] at possible

/-- No possible type of the one is the other, if they exclude each other. -/
theorem Excludes.ne_of_mem_possibleTypes
    (excludes : model.Excludes condition type)
    (references : model.ReferencesDeclared)
    (possible : declaration ∈ model.possibleTypes type) :
    declaration.name ≠ condition := by
  intro isCondition
  have isObject : model.isObject condition = true :=
    isCondition ▸ isObject_of_mem_possibleTypes references possible
  obtain ⟨-, ⟨isAbstract, -⟩ | disjoint⟩ := excludes
  · exact not_isAbstract_of_isObject isObject isAbstract
  · obtain ⟨own, isOwn, ownName⟩ := exists_possible_of_isObject isObject
    exact disjoint own isOwn declaration possible (ownName.trans isCondition.symm)

theorem Excludes.symm (excludes : model.Excludes condition type) :
    model.Excludes type condition := by
  obtain ⟨different, cause⟩ := excludes
  refine ⟨different.symm, ?_⟩
  rcases cause with ⟨conditionAbstract, typeAbstract⟩ | disjoint
  · exact .inl ⟨typeAbstract, conditionAbstract⟩
  · exact .inr fun possible isPossible other isOther same =>
      disjoint other isOther possible isPossible same.symm

/-- A type that is not abstract shares no possible type with one it is no subtype of. -/
theorem disjoint_of_not_isAbstract
    (notSubtype : ¬ model.isSubtype condition type = true)
    (concrete : ¬ model.isAbstract condition = true) :
    ∀ possible ∈ model.possibleTypes condition,
      ∀ other ∈ model.possibleTypes type, possible.name ≠ other.name := by
  intro possible isPossible other isOther same
  have isCondition := name_of_mem_possibleTypes isPossible concrete
  exact notSubtype
    (isSubtype_iff.mpr (.inr ⟨other, isOther, same.symm.trans isCondition⟩))

/-- What two types without a subtype between them have in common. -/
theorem isApart_iff_excludes (references : model.ReferencesDeclared) :
    model.isApart condition type = true ↔ model.Excludes condition type := by
  unfold isApart
  rw [Bool.and_eq_true, Bool.not_eq_true', Bool.not_eq_true',
    ← Bool.not_eq_true, ← Bool.not_eq_true]
  constructor
  · intro unrelated
    rcases unrelated with ⟨notBelow, notAbove⟩
    refine ⟨fun same => notBelow (isSubtype_iff.mpr (.inl same)), ?_⟩
    by_cases conditionAbstract : model.isAbstract condition = true
    · by_cases typeAbstract : model.isAbstract type = true
      · exact .inl ⟨conditionAbstract, typeAbstract⟩
      · refine .inr fun possible isPossible other isOther same => ?_
        exact disjoint_of_not_isAbstract notAbove typeAbstract other isOther
          possible isPossible same.symm
    · exact .inr (disjoint_of_not_isAbstract notBelow conditionAbstract)
  · intro excludes
    have notSubtype {one other : String} (apart : model.Excludes one other) :
        ¬ model.isSubtype one other = true := by
      intro isSubtype
      rcases isSubtype_iff.mp isSubtype with same | ⟨possible, isPossible, isOne⟩
      · exact apart.1 same
      · exact apart.ne_of_mem_possibleTypes references isPossible isOne
    exact ⟨notSubtype excludes, notSubtype excludes.symm⟩

end Model

namespace Compiler

variable {compiler : Compiler} {parentType resultType condition : String}
variable {selection nested : FieldSelection} {failure : UnsupportedSelection}

/--
A selection nested in another one, at any depth, with the type of the values
that it is selected on.
-/
inductive Reaches (compiler : Compiler) :
    String → FieldSelection → String → FieldSelection → Prop where
  | nested
      {parentType : String}
      {selection nested : FieldSelection}
      {field : FieldDeclaration} :
      compiler.model.field? parentType selection.name = some field →
      nested ∈ selection.nested →
      Reaches compiler parentType selection field.type.namedType nested
  | deeper
      {parentType owner resultType : String}
      {selection middle nested : FieldSelection}
      {field : FieldDeclaration} :
      compiler.model.field? parentType selection.name = some field →
      middle ∈ selection.nested →
      compiler.ownerType field.type.namedType middle = .ok owner →
      Reaches compiler owner middle resultType nested →
      Reaches compiler parentType selection resultType nested

/-- A nested selection is refused for its first condition that is apart from the result type. -/
theorem ownerType_neverApplies_iff
    (compiler : Compiler)
    (resultType condition : String)
    (nested : FieldSelection)
    (failure : UnsupportedSelection) :
    (∃ type,
        compiler.ownerType resultType nested = .error failure ∧
          failure.reason = .neverApplies condition type) ↔
      nested.conditions.find? (compiler.model.isApart · resultType) =
          some condition ∧
        failure = ⟨resultType, nested.name, .neverApplies condition resultType⟩ := by
  unfold ownerType
  cases conditions : nested.conditions with
  | nil =>
      simp
  | cons first rest =>
      dsimp only
      have sameTest :
          (fun condition =>
            !compiler.model.isSubtype condition resultType &&
              !compiler.model.isSubtype resultType condition) =
            (compiler.model.isApart · resultType) :=
        rfl
      rw [sameTest]
      cases found :
          (first :: rest).find? (compiler.model.isApart · resultType) with
      | some other =>
          constructor
          · rintro ⟨type, refused, reason⟩
            cases refused
            cases reason
            exact ⟨rfl, rfl⟩
          · rintro ⟨isCondition, rfl⟩
            cases isCondition
            exact ⟨resultType, rfl, rfl⟩
      | none =>
          constructor
          · rintro ⟨type, refused, reason⟩
            dsimp only at refused
            split at refused
            · cases refused
            · split at refused
              · cases refused
                cases reason
              · cases refused
          · rintro ⟨isCondition, -⟩
            cases isCondition

/-- Failures that are not about a type condition, or come from the condition of a selection. -/
def FromCondition
    (compiler : Compiler)
    (parentType : String)
    (selection : FieldSelection)
    (failure : UnsupportedSelection) : Prop :=
  ∀ condition type,
    failure.reason = .neverApplies condition type →
      ∃ nested,
        compiler.Reaches parentType selection type nested ∧
          nested.isTypename = false ∧
          compiler.ownerType type nested = .error failure

theorem explain_ne_neverApplies
    (chain : GeneratorChain)
    (context : CompileContext)
    (condition type : String) :
    chain.explain context ≠ .neverApplies condition type := by
  unfold GeneratorChain.explain
  dsimp only
  repeat' split
  all_goals simp

/-- An argument is refused for its value only. -/
theorem fromCondition_arguments
    (parentType : String)
    (selection : FieldSelection) :
    Success.FailsOnlyWith (compiler.FromCondition parentType selection)
      (CompiledArguments.ofSelection parentType selection) := by
  have counted (argument : String) (value : Json) :
      Success.FailsOnlyWith (compiler.FromCondition parentType selection)
        (CompiledArguments.count parentType selection.name argument value) := by
    unfold CompiledArguments.count
    split
    · exact .of_ok none
    · split
      · exact .of_ok _
      · exact .of_error nofun
  refine .foldlM (fun arguments argument => ?_) _ _
  unfold CompiledArguments.add
  dsimp only
  split
  · exact (counted _ _).bind fun limit _ => .of_ok _
  · split
    · exact (counted _ _).bind fun offset _ => .of_ok _
    · exact .of_ok _

/-- A field without what is nested in it is not refused for a type condition. -/
theorem fromCondition_fieldFragment
    (parentType : String)
    (scope : Scope)
    (path : List String)
    (selection : FieldSelection) :
    Success.FailsOnlyWith (compiler.FromCondition parentType selection)
      (compiler.fieldFragment parentType scope path selection) := by
  unfold fieldFragment
  split
  · exact .of_error nofun
  · have selected (resultType : String) :
        Success.FailsOnlyWith (compiler.FromCondition parentType selection)
          (compiler.checkSelected parentType selection resultType) := by
      unfold checkSelected
      split
      · exact .of_error nofun
      · exact .of_error nofun
      · exact .of_ok ()
    refine (selected _).bind fun _ _ => ?_
    refine (fromCondition_arguments parentType selection).bind
      fun arguments _ => ?_
    refine Success.FailsOnlyWith.bind ?_ fun fragment _ => .of_ok _
    unfold GeneratorChain.generate
    split
    · exact .of_ok _
    · exact .of_error fun condition type reason =>
        (explain_ne_neverApplies _ _ condition type reason).elim

/-- What is nested in a field is refused for a condition on it or inside it. -/
theorem fromCondition_nested
    {field : FieldDeclaration}
    {scope : Scope}
    {path : List String}
    (declared : compiler.model.field? parentType selection.name = some field)
    (member : nested ∈ selection.nested)
    (isField : nested.isTypename = false)
    (inside : ∀ owner,
      Success.FailsOnlyWith (compiler.FromCondition owner nested)
        (compiler.compileField owner scope path nested)) :
    Success.FailsOnlyWith (compiler.FromCondition parentType selection)
      (compiler.ownerType field.type.namedType nested >>= fun owner =>
        compiler.compileField owner scope path nested) := by
  refine Success.FailsOnlyWith.bind ?_ fun owner owned => ?_
  · intro failure refused condition type reason
    obtain ⟨-, isFailure⟩ :=
      (compiler.ownerType_neverApplies_iff _ _ _ _).mp ⟨type, refused, reason⟩
    rw [isFailure] at reason
    cases reason
    exact ⟨nested, .nested declared member, isField, refused⟩
  · intro failure failed condition type reason
    obtain ⟨origin, reaches, isOrigin, refused⟩ :=
      inside owner failure failed condition type reason
    exact ⟨origin, .deeper declared member owned reaches, isOrigin, refused⟩

/-- The nested fields of documents fail as one of them does. -/
theorem failsOnlyWith_compileProjection
    {allowed : UnsupportedSelection → Prop}
    {loop : String}
    {path : List String}
    {selections : List FieldSelection}
    (each : ∀ nested ∈ selections,
      nested.isTypename = false →
        Success.FailsOnlyWith allowed
          (compiler.ownerType resultType nested >>= fun owner =>
            compiler.compileField owner (.document loop) path nested))
    (projection : List (String × QueryFragment)) :
    Success.FailsOnlyWith allowed
      (compiler.compileProjection resultType loop path projection selections) := by
  induction selections generalizing projection with
  | nil =>
      rw [compileProjection]
      exact .of_ok projection
  | cons nested rest inductionHypothesis =>
      obtain ⟨first, others⟩ := List.forall_mem_cons.mp each
      rw [compileProjection]
      split
      · exact inductionHypothesis others projection
      · rename_i isCompiled
        have isField : nested.isTypename = false := by
          simpa using (not_or.mp isCompiled).1
        rw [← bind_assoc]
        exact (first isField).bind fun fragment _ =>
          inductionHypothesis others _

/-- The nested fields of a property fail as one of them does. -/
theorem failsOnlyWith_checkEmbedded
    {allowed : UnsupportedSelection → Prop}
    {embedded : String}
    {path : List String}
    {selections : List FieldSelection}
    (each : ∀ nested ∈ selections,
      nested.isTypename = false →
        Success.FailsOnlyWith allowed
          (compiler.ownerType resultType nested >>= fun owner =>
            compiler.compileField owner (.embedded embedded) path nested)) :
    Success.FailsOnlyWith allowed
      (compiler.checkEmbedded resultType embedded path selections) := by
  induction selections with
  | nil =>
      rw [checkEmbedded]
      exact .of_ok ()
  | cons nested rest inductionHypothesis =>
      obtain ⟨first, others⟩ := List.forall_mem_cons.mp each
      rw [checkEmbedded]
      split
      · exact inductionHypothesis others
      · rename_i isCompiled
        have isField : nested.isTypename = false := by
          simpa using isCompiled
        rw [← bind_assoc]
        exact (first isField).bind fun fragment _ => inductionHypothesis others

/-- A field is refused for a type condition only if a selection nested in it has that condition. -/
theorem fromCondition_compileField
    (compiler : Compiler)
    (parentType : String)
    (scope : Scope)
    (keys : List String)
    (selection : FieldSelection) :
    Success.FailsOnlyWith (compiler.FromCondition parentType selection)
      (compiler.compileField parentType scope keys selection) := by
  induction selection using FieldSelection.tree_induction
    generalizing parentType scope keys with
  | node selection inductionHypothesis =>
      rw [compileField_eq]
      refine (fromCondition_fieldFragment _ _ _ _).bind fun found isFound => ?_
      obtain ⟨field, fragment⟩ := found
      have declared :
          compiler.model.field? parentType selection.name = some field :=
        (fieldFragment_eq_ok isFound).1
      have each (scope : Scope) (path : List String) (nested : FieldSelection)
          (member : nested ∈ selection.nested)
          (isField : nested.isTypename = false) :=
        fromCondition_nested declared member isField fun owner =>
          inductionHypothesis nested member owner scope path
      cases fragment with
      | documents documents =>
          exact (failsOnlyWith_compileProjection (each _ _) []).bind
            fun projection _ => .of_ok _
      | property loop property =>
          exact (failsOnlyWith_checkEmbedded (each _ _)).bind
            fun checked _ => .of_ok _

end Compiler

namespace DataFetcher

variable {fetcher : DataFetcher}

/-- Failures that are not about a type condition, or come from one inside a selection. -/
def FromCondition
    (fetcher : DataFetcher)
    (selection : FieldSelection)
    (parent : FetchParent)
    (failure : UnsupportedSelection) : Prop :=
  ∀ condition type,
    failure.reason = .neverApplies condition type →
      ∃ parentType scope start nested,
        fetcher.resolveParent selection parent =
            .ok (parentType, scope, start) ∧
          fetcher.compiler.Reaches parentType selection type nested ∧
          nested.isTypename = false ∧
          fetcher.compiler.ownerType type nested = .error failure

theorem fromCondition_resolveParent
    (selection : FieldSelection)
    (parent : FetchParent) :
    Success.FailsOnlyWith (fetcher.FromCondition selection parent)
      (fetcher.resolveParent selection parent) := by
  cases parent with
  | root =>
      unfold resolveParent
      dsimp only
      split
      · exact .of_ok _
      · exact .of_error nofun
  | record type id =>
      unfold resolveParent
      dsimp only
      split
      · exact .of_ok _
      · exact .of_error nofun

theorem fromCondition_prepare
    (selection : FieldSelection)
    (parent : FetchParent) :
    Success.FailsOnlyWith (fetcher.FromCondition selection parent)
      (fetcher.prepare selection parent) := by
  refine (fromCondition_resolveParent selection parent).bind
    fun resolved isResolved => ?_
  obtain ⟨parentType, scope, start⟩ := resolved
  dsimp only
  split
  · exact .of_ok _
  · refine Success.FailsOnlyWith.bind ?_ fun compiled _ => ?_
    · intro failure failed condition type reason
      obtain ⟨nested, reaches, isField, refused⟩ :=
        fetcher.compiler.fromCondition_compileField parentType scope [] selection
          failure failed condition type reason
      exact ⟨parentType, scope, start, nested, isResolved, reaches, isField,
        refused⟩
    · cases compiled with
      | property loop property =>
          exact .of_error nofun
      | documents fragment =>
          dsimp only
          split
          · exact .of_ok _
          · exact .of_error nofun

theorem fromCondition_compile
    (selection : FieldSelection)
    (parent : FetchParent) :
    Success.FailsOnlyWith (fetcher.FromCondition selection parent)
      (fetcher.compile selection parent) := by
  refine (fromCondition_prepare selection parent).bind fun ready _ => ?_
  cases ready with
  | typename type =>
      exact .of_error nofun
  | query field asked fragment start =>
      exact .of_ok fragment

/--
A type condition on a nested field is refused exactly if it is the first one that
differs from the type of the values, where both are abstract or no object type
is a possible type of both. A selection is refused for a condition only if a
selection nested in it, at some depth, is.
-/
theorem type_conditions_refused_where_excluded
    {builder : ModelBuilder}
    (built : builder.build = .ok fetcher.model) :
    (∀ (resultType : String) (nested : FieldSelection) (condition : String),
      fetcher.compiler.ownerType resultType nested =
          .error ⟨resultType, nested.name,
            .neverApplies condition resultType⟩ ↔
        ∃ earlier later,
          nested.conditions = earlier ++ condition :: later ∧
            (∀ other ∈ earlier, ¬ fetcher.model.Excludes other resultType) ∧
            fetcher.model.Excludes condition resultType) ∧
      ∀ (selection : FieldSelection) (parent : FetchParent)
          (failure : UnsupportedSelection) (condition type : String),
        fetcher.compile selection parent = .error failure →
          failure.reason = .neverApplies condition type →
            ∃ parentType scope start nested,
              fetcher.resolveParent selection parent =
                  .ok (parentType, scope, start) ∧
                fetcher.compiler.Reaches parentType selection type nested ∧
                nested.isTypename = false ∧
                failure =
                  ⟨type, nested.name, .neverApplies condition type⟩ ∧
                fetcher.compiler.ownerType type nested = .error failure := by
  have references :=
    Model.referencesDeclared_of_check (Model.check_of_build built)
  have isExcluded (condition type : String) :
      fetcher.compiler.model.isApart condition type = true ↔
        fetcher.model.Excludes condition type :=
    Model.isApart_iff_excludes references
  constructor
  · intro resultType nested condition
    have isFirst :=
      fetcher.compiler.ownerType_neverApplies_iff resultType condition nested
        ⟨resultType, nested.name, .neverApplies condition resultType⟩
    rw [List.find?_eq_some_iff_append] at isFirst
    constructor
    · intro refused
      obtain ⟨⟨isApart, earlier, later, conditions, before⟩, -⟩ :=
        isFirst.mp ⟨resultType, refused, rfl⟩
      refine ⟨earlier, later, conditions, ?_, (isExcluded _ _).mp isApart⟩
      intro other isEarlier excludes
      have notApart := before other isEarlier
      rw [(isExcluded _ _).mpr excludes] at notApart
      cases notApart
    · rintro ⟨earlier, later, conditions, before, excludes⟩
      have notApart :
          ∀ other ∈ earlier,
            (!fetcher.compiler.model.isApart other resultType) = true := by
        intro other isEarlier
        rw [Bool.not_eq_true', ← Bool.not_eq_true]
        exact fun isApart =>
          before other isEarlier ((isExcluded _ _).mp isApart)
      obtain ⟨type, refused, -⟩ := isFirst.mpr
        ⟨⟨(isExcluded _ _).mpr excludes, earlier, later, conditions, notApart⟩,
          rfl⟩
      exact refused
  · intro selection parent failure condition type failed reason
    obtain ⟨parentType, scope, start, nested, resolved, reaches, isField,
        refused⟩ :=
      fromCondition_compile selection parent failure failed condition type reason
    obtain ⟨-, isFailure⟩ :=
      (Compiler.ownerType_neverApplies_iff _ _ _ _ _).mp
        ⟨type, refused, reason⟩
    exact ⟨parentType, scope, start, nested, resolved, reaches, isField,
      isFailure, refused⟩

/-- What is declared of animals and of pets. -/
def sharedFields : Catalogue FieldDeclaration where
  items := [⟨"name", .named "String", .none⟩, ⟨"age", .named "Int", .none⟩]
  distinct := by decide

/-- Dogs, which are animals and pets. -/
def petTypes : Catalogue TypeDeclaration where
  items := [
    ⟨"Query", .object [],
      ⟨[⟨"animals", .nonNull (.list (.named "Animal")), .none⟩], by decide⟩,
      .none⟩,
    ⟨"Animal", .interface, sharedFields,
      ⟨some ⟨"animals", .document⟩, some "kind", []⟩⟩,
    ⟨"Pet", .interface, sharedFields, .none⟩,
    ⟨"Dog", .object ["Animal", "Pet"], sharedFields, .none⟩]
  distinct := by decide

/-- Answers requests for animals and pets. -/
def petFetcher : DataFetcher where
  model := ⟨petTypes, [], some "Query"⟩
  registry := ⟨[("Animal", ⟨"kind", [("Dog", "Dog")]⟩)], ["Animal", "Pet"]⟩
  chain := .standard
  database := systemDatabase
  timeout := none

/-- The names of the animals that are pets. -/
def petNames : FieldSelection :=
  (FieldSelection.ofName "animals").withNested
    ((FieldSelection.ofName "name").onType "Pet")

theorem build_petFetcher :
    (⟨petTypes, [], [], none⟩ : ModelBuilder).build =
      .ok petFetcher.model := by
  rfl

theorem compile_petNames :
    petFetcher.compile petNames .root =
      .error ⟨"Animal", "name", .neverApplies "Pet" "Animal"⟩ := by
  rfl

/-- The pets are refused for a selection that is nested in that of the animals. -/
theorem petNames_refused_where_excluded :
    (⟨petTypes, [], [], none⟩ : ModelBuilder).build =
        .ok petFetcher.model ∧
      ∃ parentType nested,
        petFetcher.compiler.Reaches parentType petNames "Animal" nested ∧
          petFetcher.compiler.ownerType "Animal" nested =
            .error ⟨"Animal", "name", .neverApplies "Pet" "Animal"⟩ := by
  obtain ⟨-, origin⟩ :=
    type_conditions_refused_where_excluded build_petFetcher
  obtain ⟨parentType, scope, start, nested, -, reaches, -, -, refused⟩ :=
    origin petNames .root _ "Pet" "Animal" compile_petNames rfl
  exact ⟨build_petFetcher, parentType, nested, reaches, refused⟩

/-- Animals that are pets are refused, though a dog is both and the condition applies to it. -/
theorem dogs_refused_as_pets :
    (⟨petTypes, [], [], none⟩ : ModelBuilder).build =
        .ok petFetcher.model ∧
      DiscriminatorRegistry.ofModel petFetcher.model =
        .ok petFetcher.registry ∧
      (∃ possible ∈ petFetcher.model.possibleTypes "Pet",
        ∃ other ∈ petFetcher.model.possibleTypes "Animal",
          possible.name = "Dog" ∧ other.name = "Dog") ∧
      (∃ nested ∈ petNames.nested,
        nested.appliesTo "Dog" petFetcher.model.isSubtype = true) ∧
      petFetcher.compile petNames .root =
        .error ⟨"Animal", "name", .neverApplies "Pet" "Animal"⟩ := by
  refine ⟨build_petFetcher, by rfl, ?_, ?_, compile_petNames⟩
  · exact ⟨_, List.mem_singleton_self _, _, List.mem_singleton_self _, rfl, rfl⟩
  · exact ⟨_, List.mem_singleton_self _, by rfl⟩

end DataFetcher

end GraphGate
