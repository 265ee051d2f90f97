import GraphGate.Proofs.Compilation.ChainOrder
import GraphGate.Proofs.Compilation.Scoping
import GraphGate.Proofs.Compilation.SiblingOrder
import GraphGate.Proofs.Provisioning.PlanOrder

namespace GraphGate

/-!
# Fields of stored types without a relation

Documents are reached along relations only: inside a document, a field without a
relation is refused if its type is stored in a collection. The compiler tells so
by the one collection that the records of a type are in. An abstract type whose
possible types are scattered, some of them stored and not all in one collection,
has none, so that its fields are read as if they were stored in the document.
-/

namespace Model

/-- Whether a type is stored in a collection, or one of the types that an abstract type stands for. -/
def IsStored (model : Model) (name : String) : Prop :=
  (∃ collection,
      (model.typeDirectives name).collection? = some collection) ∨
    model.isAbstract name = true ∧
      ∃ type ∈ model.possibleTypes name, ∃ collection,
        type.directives.collection? = some collection

/-- Whether a type names no collection, and of its possible types some are stored, but not all in one. -/
structure IsScattered (model : Model) (name : String) : Prop where
  isAbstract : model.isAbstract name = true
  unnamed : (model.typeDirectives name).collection? = none
  stored : ∃ type ∈ model.possibleTypes name, ∃ collection,
    type.directives.collection? = some collection
  apart : ∀ collection, ∃ type ∈ model.possibleTypes name,
    type.directives.collection? ≠ some collection

variable {model : Model} {name : String}

theorem IsScattered.isStored (scattered : model.IsScattered name) :
    model.IsStored name :=
  .inr ⟨scattered.isAbstract, scattered.stored⟩

/-- The records of a stored type are in one collection, unless the type is scattered. -/
theorem collectionFor?_eq_none_iff :
    model.collectionFor? name = none ↔
      ¬ model.IsStored name ∨ model.IsScattered name := by
  constructor
  · intro homeless
    have nowhere (collection : String) :
        model.collectionFor? name ≠ some collection := by
      simp [homeless]
    have unnamed : (model.typeDirectives name).collection? = none :=
      Option.eq_none_iff_forall_ne_some.mpr fun collection named =>
        nowhere collection (collectionFor?_eq_some_iff.mpr (.inl named))
    by_cases stored : model.IsStored name
    · rcases stored with ⟨collection, named⟩ | ⟨isAbstract, type, possible, isIn⟩
      · cases unnamed.symm.trans named
      · refine .inr ⟨isAbstract, unnamed, ⟨type, possible, isIn⟩, ?_⟩
        intro collection
        by_contra together
        push Not at together
        exact nowhere collection <| collectionFor?_eq_some_iff.mpr <|
          .inr ⟨unnamed, isAbstract, ⟨type, possible⟩, together⟩
    · exact .inl stored
  · intro homeless
    refine Option.eq_none_iff_forall_ne_some.mpr fun collection found => ?_
    rcases collectionFor?_eq_some_iff.mp found with
      named | ⟨unnamed, isAbstract, ⟨type, possible⟩, shared⟩
    · rcases homeless with notStored | scattered
      · exact notStored (.inl ⟨collection, named⟩)
      · cases scattered.unnamed.symm.trans named
    · rcases homeless with notStored | scattered
      · exact notStored
          (.inr ⟨isAbstract, type, possible, collection, shared type possible⟩)
      · obtain ⟨other, otherPossible, elsewhere⟩ := scattered.apart collection
        exact elsewhere (shared other otherPossible)

end Model

/-- Whether a field is evaluated inside a document. -/
def Scope.IsInside (loop : String) (scope : Scope) : Prop :=
  scope = .document loop ∨ scope = .embedded loop

namespace FieldSelection

/-- Whether a selection is in a list, behind no other field of its response key. -/
def IsFirstOf
    (selection : FieldSelection)
    (selections : List FieldSelection) : Prop :=
  ∃ before after,
    selections = before ++ selection :: after ∧
      ∀ other ∈ before, other.isTypename = false →
        other.responseKey ≠ selection.responseKey

theorem IsFirstOf.mem
    {selection : FieldSelection}
    {selections : List FieldSelection}
    (first : selection.IsFirstOf selections) :
    selection ∈ selections := by
  obtain ⟨before, after, rfl, -⟩ := first
  exact List.mem_append_right _ List.mem_cons_self

end FieldSelection

namespace GeneratorChain

variable {chain : GeneratorChain} {context : CompileContext}
variable {loop : String} {fragment : QueryFragment}

/-- Inside a document, only what is stored in it is answered without a relation. -/
theorem generate_eq_ok_iff_of_inside
    (inside : context.scope.IsInside loop)
    (unrelated : context.field.directives.relation = none) :
    chain.generate context = .ok fragment ↔
      .storedProperty ∈ chain ∧
        context.model.collectionFor? context.resultType = none ∧
        fragment = .property loop context.field.name := by
  have notRelation : context.isRelation = false := by
    simp [CompileContext.isRelation, unrelated]
  have notRoot : context.scope ≠ .root := by
    rcases inside with isDocument | isEmbedded
    · simp [isDocument]
    · simp [isEmbedded]
  rw [generate_eq_ok_iff]
  constructor
  · rintro ⟨generator, member, answered⟩
    have covers := Generator.covers_of_generate? answered
    cases generator with
    | edgeTraversal =>
        cases notRelation.symm.trans covers
    | discriminatedVertex =>
        exact absurd covers.2.1 notRoot
    | vertexLookup =>
        exact absurd covers.2.1 notRoot
    | storedProperty =>
        cases stored : context.model.collectionFor? context.resultType with
        | some collection =>
            simp [Generator.generate?, Generator.readProperty?, stored]
              at answered
        | none =>
            have read :=
              Generator.readProperty?_of_inside inside notRelation stored
            exact ⟨member, rfl, Option.some.inj (answered.symm.trans read)⟩
  · rintro ⟨member, notStored, rfl⟩
    exact ⟨.storedProperty, member,
      Generator.readProperty?_of_inside inside notRelation notStored⟩

end GeneratorChain

namespace Compiler

variable {compiler : Compiler} {parentType owner : String} {scope : Scope}
variable {keys path : List String} {selection nested : FieldSelection}
variable {compiled : QueryFragment}

/--
Inside a document, a field without a relation compiles to a property exactly if
its type is not stored, or is scattered; otherwise it does not compile.
-/
theorem compileField_eq_ok_iff_of_inside
    {loop : String}
    {field : FieldDeclaration}
    (inside : scope.IsInside loop)
    (declared : compiler.model.field? parentType selection.name = some field)
    (unrelated : field.directives.relation = none) :
    compiler.compileField parentType scope keys selection = .ok compiled ↔
      .storedProperty ∈ compiler.chain ∧
        (¬ compiler.model.IsStored field.type.namedType ∨
          compiler.model.IsScattered field.type.namedType) ∧
        compiler.model.isLeaf field.type.namedType =
          selection.nested.isEmpty ∧
        (∃ arguments,
          CompiledArguments.ofSelection parentType selection =
            .ok arguments) ∧
        compiler.checkEmbedded field.type.namedType
          (DocumentsFragment.propertyText loop field.name)
          (keys ++ [selection.responseKey]) selection.nested = .ok () ∧
        compiled = .property loop field.name := by
  have answered (arguments : CompiledArguments) (fragment : QueryFragment) :
      compiler.chain.generate
          (compiler.context parentType scope (keys ++ [selection.responseKey])
            selection field arguments) = .ok fragment ↔
        .storedProperty ∈ compiler.chain ∧
          (¬ compiler.model.IsStored field.type.namedType ∨
            compiler.model.IsScattered field.type.namedType) ∧
          fragment = .property loop field.name := by
    rw [GeneratorChain.generate_eq_ok_iff_of_inside inside unrelated,
      ← Model.collectionFor?_eq_none_iff]
    rfl
  rw [compileField_eq]
  constructor
  · intro accepted
    obtain ⟨⟨found, fragment⟩, hasFragment, accepted⟩ :=
      Success.bind_eq_ok_iff.mp accepted
    obtain ⟨isFound, selected, arguments, argued, generated⟩ :=
      fieldFragment_eq_ok_iff.mp hasFragment
    cases declared.symm.trans isFound
    obtain ⟨member, notStored, rfl⟩ := (answered arguments fragment).mp generated
    obtain ⟨⟨⟩, checked, returned⟩ := Success.bind_eq_ok_iff.mp accepted
    cases returned
    exact ⟨member, notStored, checkSelected_eq_ok_iff.mp selected,
      ⟨arguments, argued⟩, checked, rfl⟩
  · rintro ⟨member, notStored, selected, ⟨arguments, argued⟩, checked, rfl⟩
    have hasFragment :=
      fieldFragment_eq_ok_iff.mpr
        ⟨declared, checkSelected_eq_ok_iff.mpr selected, arguments, argued,
          (answered arguments _).mpr ⟨member, notStored, rfl⟩⟩
    refine Success.bind_eq_ok_iff.mpr ⟨_, hasFragment, ?_⟩
    exact Success.bind_eq_ok_iff.mpr ⟨(), checked, rfl⟩

/-- The first field of its response key is compiled, whatever else has that key. -/
theorem acceptsNested_of_isFirst
    {resultType loop : String}
    {selections : List FieldSelection}
    {projection result : List (String × QueryFragment)}
    (projected :
      compiler.compileProjection resultType loop path projection selections =
        .ok result)
    (first : nested.IsFirstOf selections)
    (isField : nested.isTypename = false)
    (free : Table.has projection nested.responseKey = false) :
    ∃ compiled,
      compiler.AcceptsNested resultType (.document loop) path nested
        compiled := by
  obtain ⟨before, after, rfl, noneBefore⟩ := first
  replace projected := projects_of_compileProjection projected
  induction before generalizing projection with
  | nil =>
      cases projected with
      | passed passedOver _ =>
          simp [isField, free] at passedOver
      | added _ _ accepted _ =>
          exact ⟨_, accepted⟩
  | cons other rest inductionHypothesis =>
      obtain ⟨notOther, noneInRest⟩ := List.forall_mem_cons.mp noneBefore
      cases projected with
      | passed _ onward =>
          exact inductionHypothesis free noneInRest onward
      | added notTypename _ _ onward =>
          refine inductionHypothesis ?_ noneInRest onward
          have different : other.responseKey ≠ nested.responseKey :=
            notOther notTypename
          rw [Table.has, Option.isSome_eq_false_iff, Option.isNone_iff_eq_none]
            at free
          simp [Table.has, Table.get?_append, Table.get?_cons, free, different]

/--
A field right inside another one that is compiled with it: the first field of its
response key, or any field of an object that is stored inside a document.
-/
structure CompilesInside
    (compiler : Compiler)
    (inside : Bool)
    (parentType : String)
    (selection : FieldSelection)
    (owner : String)
    (nested : FieldSelection)
    (field : FieldDeclaration) : Prop where
  declared : compiler.model.field? parentType selection.name = some field
  owned : compiler.ownerType field.type.namedType nested = .ok owner
  isField : nested.isTypename = false
  reached : nested.IsFirstOf selection.nested ∨
    nested ∈ selection.nested ∧
      inside = true ∧ field.directives.relation = none

/-- A field at any depth inside another one that is compiled with it, and the type that declares it. -/
inductive CompilesWithin (compiler : Compiler) :
    Bool → String → FieldSelection → String → FieldSelection → Prop where
  | nested
      {inside : Bool}
      {parentType owner : String}
      {selection nested : FieldSelection}
      {field : FieldDeclaration} :
      compiler.CompilesInside inside parentType selection owner nested field →
      CompilesWithin compiler inside parentType selection owner nested
  | deeper
      {inside : Bool}
      {parentType middleOwner owner : String}
      {selection middle nested : FieldSelection}
      {field : FieldDeclaration} :
      compiler.CompilesInside inside parentType selection middleOwner middle
        field →
      CompilesWithin compiler true middleOwner middle owner nested →
      CompilesWithin compiler inside parentType selection owner nested

variable {inside : Bool}

/-- What is compiled right inside an accepted field is accepted inside a document. -/
theorem CompilesInside.exists_compileField
    {field : FieldDeclaration}
    (compiles :
      compiler.CompilesInside inside parentType selection owner nested field)
    (accepted :
      compiler.compileField parentType scope keys selection = .ok compiled)
    (isInside : inside = true → ∃ loop, scope.IsInside loop) :
    ∃ loop inner path result,
      Scope.IsInside loop inner ∧
        compiler.compileField owner inner path nested = .ok result := by
  cases accepts_of_compileField accepted with
  | documents isFound _ _ feeds projected =>
      cases compiles.declared.symm.trans isFound
      have first : nested.IsFirstOf selection.nested := by
        rcases compiles.reached with first | ⟨-, within, unrelated⟩
        · exact first
        · obtain ⟨loop, insideLoop⟩ := isInside within
          exact (feeds.not_inside unrelated insideLoop).elim
      obtain ⟨result, other, owned, nestedAccepted⟩ :=
        acceptsNested_of_isFirst projected first compiles.isField rfl
      cases compiles.owned.symm.trans owned
      exact ⟨_, _, _, result, .inl rfl, nestedAccepted⟩
  | property isFound _ _ _ _ checked =>
      cases compiles.declared.symm.trans isFound
      have member : nested ∈ selection.nested := by
        rcases compiles.reached with first | ⟨member, -, -⟩
        · exact first.mem
        · exact member
      obtain ⟨result, other, owned, nestedAccepted⟩ :=
        acceptsNested_of_checkEmbedded checked member compiles.isField
      cases compiles.owned.symm.trans owned
      exact ⟨_, _, _, result, .inr rfl, nestedAccepted⟩

/-- What is compiled at any depth inside an accepted field is accepted inside a document. -/
theorem CompilesWithin.exists_compileField
    (compiles :
      compiler.CompilesWithin inside parentType selection owner nested)
    (accepted :
      compiler.compileField parentType scope keys selection = .ok compiled)
    (isInside : inside = true → ∃ loop, scope.IsInside loop) :
    ∃ loop inner path result,
      Scope.IsInside loop inner ∧
        compiler.compileField owner inner path nested = .ok result := by
  induction compiles generalizing scope keys compiled with
  | nested compilesInside =>
      exact compilesInside.exists_compileField accepted isInside
  | deeper compilesInside _ inductionHypothesis =>
      obtain ⟨loop, inner, path, result, isInner, acceptedInside⟩ :=
        compilesInside.exists_compileField accepted isInside
      exact inductionHypothesis acceptedInside fun _ => ⟨loop, isInner⟩

end Compiler

namespace DataFetcher

variable {fetcher : DataFetcher} {selection nested : FieldSelection}
variable {parent : FetchParent} {parentType owner : String} {scope : Scope}
variable {start : Option String} {field : FieldDeclaration}

/--
Inside the documents and embedded objects of a tree, at any depth, a field
without a relation is refused together with the tree if its type is stored,
unless the type is scattered. Then the field compiles like one that is stored in
the enclosing document, and it is read from there.
-/
theorem stored_without_relation_refused_unless_scattered
    (resolved :
      fetcher.resolveParent selection parent = .ok (parentType, scope, start))
    (within :
      fetcher.compiler.CompilesWithin false parentType selection owner nested)
    (declared : fetcher.model.field? owner nested.name = some field)
    (unrelated : field.directives.relation = none)
    (stored : fetcher.model.IsStored field.type.namedType) :
    (¬ fetcher.model.IsScattered field.type.namedType →
      ∃ failure, fetcher.compile selection parent = .error failure) ∧
    (fetcher.model.IsScattered field.type.namedType →
      ∀ loop inner path compiled,
        Scope.IsInside loop inner →
          (fetcher.compiler.compileField owner inner path nested =
              .ok compiled ↔
            .storedProperty ∈ fetcher.chain ∧
              fetcher.model.isLeaf field.type.namedType =
                nested.nested.isEmpty ∧
              (∃ arguments,
                CompiledArguments.ofSelection owner nested = .ok arguments) ∧
              fetcher.compiler.checkEmbedded field.type.namedType
                (DocumentsFragment.propertyText loop nested.name)
                (path ++ [nested.responseKey]) nested.nested = .ok () ∧
              compiled = .property loop nested.name)) := by
  constructor
  · intro notScattered
    cases compiled : fetcher.compile selection parent with
    | error failure =>
        exact ⟨failure, rfl⟩
    | ok fragment =>
        obtain ⟨_, asked, begun, prepared⟩ := compile_eq_ok_iff.mp compiled
        obtain ⟨-, other, outer, resolvedToo, -, accepted⟩ :=
          accepted_of_prepare prepared
        cases resolved.symm.trans resolvedToo
        obtain ⟨loop, inner, path, result, isInside, nestedAccepted⟩ :=
          within.exists_compileField accepted nofun
        obtain ⟨-, notStored | scattered, -⟩ :=
          (Compiler.compileField_eq_ok_iff_of_inside isInside declared
            unrelated).mp nestedAccepted
        · exact absurd stored notStored
        · exact absurd scattered notScattered
  · intro scattered loop inner path compiled isInside
    rw [Compiler.compileField_eq_ok_iff_of_inside isInside declared unrelated,
      Model.name_of_field? declared]
    have unstored :
        ¬ fetcher.model.IsStored field.type.namedType ∨
          fetcher.model.IsScattered field.type.namedType :=
      .inr scattered
    exact and_congr_right' (and_iff_right unstored)

/-- Keepers in one collection, with a mentor and a pet, and dogs and cats in two others. -/
def keeperTypes : Catalogue TypeDeclaration where
  items := [
    ⟨"Query", .object [],
      .single ⟨"keepers", .list (.named "Keeper"), .none⟩, .none⟩,
    ⟨"Keeper", .object [],
      ⟨[⟨"name", .named "String", .none⟩, ⟨"mentor", .named "Keeper", .none⟩,
        ⟨"pet", .named "Animal", .none⟩], by decide⟩,
      ⟨some ⟨"keepers", .document⟩, none, []⟩⟩,
    ⟨"Animal", .interface,
      .single ⟨"name", .named "String", .none⟩,
      ⟨none, some "kind", []⟩⟩,
    ⟨"Dog", .object ["Animal"],
      .single ⟨"name", .named "String", .none⟩,
      ⟨some ⟨"dogs", .document⟩, none, []⟩⟩,
    ⟨"Cat", .object ["Animal"],
      .single ⟨"name", .named "String", .none⟩,
      ⟨some ⟨"cats", .document⟩, none, []⟩⟩]
  distinct := by decide

/-- Answers fields of these types. -/
def keeperFetcher : DataFetcher where
  model := ⟨keeperTypes, [], some "Query"⟩
  registry :=
    ⟨[("Animal", ⟨"kind", [("Dog", "Dog"), ("Cat", "Cat")]⟩)], ["Animal"]⟩
  chain := .standard
  database := systemDatabase
  timeout := none

/-- What is selected on all keepers, with its name. -/
def ofKeepers (field : String) : FieldSelection :=
  (FieldSelection.ofName "keepers").withNested
    ((FieldSelection.ofName field).withNested (FieldSelection.ofName "name"))

/-- What is selected on all keepers is compiled on their type. -/
theorem compilesWithin_ofKeepers
    {field : String}
    (isField : (FieldSelection.ofName field).isTypename = false) :
    keeperFetcher.compiler.CompilesWithin false "Query" (ofKeepers field)
      "Keeper"
      ((FieldSelection.ofName field).withNested
        (FieldSelection.ofName "name")) :=
  .nested {
    declared := rfl
    owned := rfl
    isField := isField
    reached := .inl ⟨[], [], rfl, nofun⟩
  }

theorem isStored_keeper : keeperFetcher.model.IsStored "Keeper" :=
  .inl ⟨"keepers", rfl⟩

theorem isScattered_animal : keeperFetcher.model.IsScattered "Animal" where
  isAbstract := rfl
  unnamed := rfl
  stored := ⟨keeperTypes.items[3], by decide, "dogs", rfl⟩
  apart := fun collection => by
    by_cases isDogs : collection = "dogs"
    · exact ⟨keeperTypes.items[4], by decide, by subst isDogs; decide⟩
    · refine ⟨keeperTypes.items[3], by decide, fun isIn => isDogs ?_⟩
      exact (Option.some.inj isIn).symm

/-- A mentor is refused, and a pet is taken for a part of its keeper. -/
theorem mentor_refused_and_pet_read :
    (∃ failure,
      keeperFetcher.compile (ofKeepers "mentor") .root = .error failure) ∧
    keeperFetcher.compiler.compileField "Keeper" (.document "v_keepers")
        ["keepers"]
        ((FieldSelection.ofName "pet").withNested
          (FieldSelection.ofName "name")) =
      .ok (.property "v_keepers" "pet") := by
  have atRoot (field : String) :
      keeperFetcher.resolveParent (ofKeepers field) .root =
        .ok ("Query", .root, none) :=
    rfl
  have mentor :
      keeperFetcher.model.field? "Keeper" "mentor" =
        some ⟨"mentor", .named "Keeper", .none⟩ :=
    rfl
  have pet :
      keeperFetcher.model.field? "Keeper" "pet" =
        some ⟨"pet", .named "Animal", .none⟩ :=
    rfl
  have ofMentor :=
    stored_without_relation_refused_unless_scattered (atRoot "mentor")
      (compilesWithin_ofKeepers (by decide)) mentor rfl isStored_keeper
  have ofPet :=
    stored_without_relation_refused_unless_scattered (atRoot "pet")
      (compilesWithin_ofKeepers (by decide)) pet rfl
      isScattered_animal.isStored
  refine ⟨ofMentor.1 fun scattered => (nomatch scattered.isAbstract), ?_⟩
  refine (ofPet.2 isScattered_animal "v_keepers" _ _ _ (.inl rfl)).mpr ?_
  exact ⟨by decide, rfl, ⟨_, rfl⟩, rfl, rfl⟩

/--
The types that a pet can have are all stored, and the field is no relation. Its
fields are selected all the same, as if the pet was stored inside its keeper.
-/
theorem pet_of_stored_type_not_refused :
    (⟨keeperTypes, [], [], none⟩ : ModelBuilder).build =
        .ok keeperFetcher.model ∧
      DiscriminatorRegistry.ofModel keeperFetcher.model =
        .ok keeperFetcher.registry ∧
      (∃ field,
        keeperFetcher.model.field? "Keeper" "pet" = some field ∧
          field.directives.relation = none ∧
          keeperFetcher.model.isAbstract field.type.namedType = true ∧
          ∀ type ∈ keeperFetcher.model.possibleTypes field.type.namedType,
            ∃ collection, type.directives.collection? = some collection) ∧
      ∃ fragment,
        keeperFetcher.compile (ofKeepers "pet") .root = .ok fragment ∧
          Table.get? fragment.projection "pet" =
            some (.property "v_keepers" "pet") := by
  refine ⟨by rfl, by rfl, ⟨_, rfl, rfl, rfl, ?_⟩, _, rfl, rfl⟩
  have possible :
      keeperFetcher.model.possibleTypes "Animal" =
        [keeperTypes.items[3], keeperTypes.items[4]] := by
    decide
  intro type isPossible
  rcases List.mem_pair.mp (possible ▸ isPossible) with rfl | rfl
  · exact ⟨"dogs", rfl⟩
  · exact ⟨"cats", rfl⟩

end DataFetcher

end GraphGate
