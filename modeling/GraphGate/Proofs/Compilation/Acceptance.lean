import GraphGate.Fetching
import GraphGate.Proofs.SelectionTree
import GraphGate.Proofs.Success

namespace GraphGate

/-!
# What accepted selections compile to

A field that is accepted has a declaration, and compiles either to documents or
to a property of the enclosing document. Documents come along the edges of a
relation or, at the root, from the collection of the result type. Whatever is
nested in an accepted field is accepted on the type that declares it.
-/

namespace CompileContext

/-- Where the documents of a field can come from. -/
inductive Feeds (context : CompileContext) : DocumentSource → Prop where
  /-- A relation is followed from the enclosing document. -/
  | traversal {relation : RelationDirective} {loop : String} :
      context.field.directives.relation = some relation →
      context.scope = .document loop →
      Feeds context
        (.traversal (.loop loop) relation.direction relation.collection)
  /-- A relation is followed from a document that is known by its id. -/
  | traversalFromStart {relation : RelationDirective} :
      context.field.directives.relation = some relation →
      context.scope = .startVertex →
      Feeds context
        (.traversal .parameter relation.direction relation.collection)
  /-- A root field has the documents of the collection of its result type. -/
  | scan {collection : String} :
      context.field.directives.relation = none →
      context.scope = .root →
      context.model.collectionFor? context.resultType = some collection →
      Feeds context (.collection collection)

/-- The documents of a source as the field wants them, with what is nested in the field. -/
def fragment
    (context : CompileContext)
    (source : DocumentSource)
    (projection : List (String × QueryFragment)) : DocumentsFragment where
  loop := context.loop
  source := source
  filters := context.arguments.filters
  pagination := context.arguments.pagination
  discriminator :=
    (context.registry.mapping? context.resultType).map
      DiscriminatorMapping.property
  projection := projection
  cardinality := context.cardinality

/-- The fragments that a field can be answered with, before anything is nested in it. -/
inductive Answers (context : CompileContext) : QueryFragment → Prop where
  | documents {source : DocumentSource} :
      context.Feeds source →
      Answers context (.documents (context.fragment source []))
  /-- A field without a relation is stored inside a document, or in an object there. -/
  | property {loop : String} :
      context.field.directives.relation = none →
      context.scope = .document loop ∨ context.scope = .embedded loop →
      Answers context (.property loop context.field.name)

variable {context : CompileContext} {fragment : QueryFragment}

/-- All documents are wanted exactly where a list is declared. -/
theorem cardinality_eq_many_iff (context : CompileContext) :
    context.cardinality = .many ↔ context.field.type.isList = true := by
  unfold cardinality
  cases context.field.type.isList <;> simp

theorem relation_eq_none_of_not_isRelation
    (notRelation : ¬ context.isRelation = true) :
    context.field.directives.relation = none := by
  simpa [isRelation] using notRelation

theorem answers_of_traverseEdge?
    (found : Generator.traverseEdge? context = some fragment) :
    context.Answers fragment := by
  unfold Generator.traverseEdge? at found
  cases relation : context.field.directives.relation with
  | none =>
      simp [relation] at found
  | some directive =>
      cases scope : context.scope with
      | root =>
          simp [relation, scope] at found
      | embedded path =>
          simp [relation, scope] at found
      | startVertex =>
          simp only [relation, scope, Option.map_some,
            Option.some.injEq] at found
          exact found ▸ .documents (.traversalFromStart relation scope)
      | document loop =>
          simp only [relation, scope, Option.map_some,
            Option.some.injEq] at found
          exact found ▸ .documents (.traversal relation scope)

theorem answers_of_scanAbstract?
    (found : Generator.scanAbstract? context = some fragment) :
    context.Answers fragment := by
  simp only [Generator.scanAbstract?] at found
  split at found
  · rename_i conditions
    obtain ⟨root, notRelation, -⟩ := conditions
    obtain ⟨collection, stored, rfl⟩ := Option.map_eq_some_iff.mp found
    have relation :=
      relation_eq_none_of_not_isRelation (by simpa using notRelation)
    exact .documents (.scan relation root stored)
  · cases found

theorem answers_of_scanConcrete?
    (found : Generator.scanConcrete? context = some fragment) :
    context.Answers fragment := by
  simp only [Generator.scanConcrete?] at found
  split at found
  · rename_i conditions
    obtain ⟨root, notRelation, -⟩ := conditions
    obtain ⟨collection, stored, rfl⟩ := Option.map_eq_some_iff.mp found
    have listed :
        context.model.collectionFor? context.resultType = some collection := by
      simp [Model.collectionFor?, stored]
    have relation :=
      relation_eq_none_of_not_isRelation (by simpa using notRelation)
    exact .documents (.scan relation root listed)
  · cases found

theorem answers_of_readProperty?
    (found : Generator.readProperty? context = some fragment) :
    context.Answers fragment := by
  simp only [Generator.readProperty?] at found
  by_cases passed :
      context.isRelation = true ∨
        (context.model.collectionFor? context.resultType).isSome = true
  · simp [passed] at found
  · have relation := relation_eq_none_of_not_isRelation (not_or.mp passed).1
    rw [if_neg passed] at found
    obtain ⟨loop, inside, rfl⟩ := Option.map_eq_some_iff.mp found
    refine .property relation ?_
    cases scope : context.scope with
    | root =>
        simp [scope] at inside
    | startVertex =>
        simp [scope] at inside
    | document loop =>
        simpa [scope] using inside
    | embedded path =>
        simpa [scope] using inside

/-- Whatever the generators of a chain are, they answer a field in one of these ways. -/
theorem answers_of_generate
    {chain : GeneratorChain}
    (generated : chain.generate context = .ok fragment) :
    context.Answers fragment := by
  unfold GeneratorChain.generate at generated
  cases first :
      chain.findSome? fun generator => generator.generate? context with
  | none =>
      simp [first] at generated
  | some other =>
      simp only [first, Except.ok.injEq] at generated
      subst generated
      obtain ⟨generator, -, found⟩ := List.exists_of_findSome?_eq_some first
      cases generator with
      | edgeTraversal =>
          exact answers_of_traverseEdge? found
      | discriminatedVertex =>
          exact answers_of_scanAbstract? found
      | vertexLookup =>
          exact answers_of_scanConcrete? found
      | storedProperty =>
          exact answers_of_readProperty? found

end CompileContext

namespace Compiler

/-- What a generator may ask about a field that is selected on a type. -/
def context
    (compiler : Compiler)
    (parentType : String)
    (scope : Scope)
    (path : List String)
    (selection : FieldSelection)
    (field : FieldDeclaration)
    (arguments : CompiledArguments) : CompileContext where
  model := compiler.model
  registry := compiler.registry
  parentType := parentType
  field := field
  fieldName := selection.name
  scope := scope
  loop := variableName path
  arguments := arguments

/-- How a selection compiles where it is accepted. -/
inductive Accepts
    (compiler : Compiler)
    (parentType : String)
    (scope : Scope)
    (keys : List String)
    (selection : FieldSelection) : QueryFragment → Prop where
  /-- What is nested in documents is in their projection. -/
  | documents
      {field : FieldDeclaration}
      {arguments : CompiledArguments}
      {source : DocumentSource}
      {projection : List (String × QueryFragment)} :
      compiler.model.field? parentType selection.name = some field →
      compiler.checkSelected parentType selection field.type.namedType =
        .ok () →
      CompiledArguments.ofSelection parentType selection = .ok arguments →
      (compiler.context parentType scope (keys ++ [selection.responseKey])
        selection field arguments).Feeds source →
      compiler.compileProjection field.type.namedType
        (variableName (keys ++ [selection.responseKey]))
        (keys ++ [selection.responseKey]) [] selection.nested =
          .ok projection →
      Accepts compiler parentType scope keys selection
        (.documents
          ((compiler.context parentType scope (keys ++ [selection.responseKey])
            selection field arguments).fragment source projection))
  /-- What is nested in a property is only checked. -/
  | property
      {field : FieldDeclaration}
      {arguments : CompiledArguments}
      {loop : String} :
      compiler.model.field? parentType selection.name = some field →
      compiler.checkSelected parentType selection field.type.namedType =
        .ok () →
      CompiledArguments.ofSelection parentType selection = .ok arguments →
      field.directives.relation = none →
      scope = .document loop ∨ scope = .embedded loop →
      compiler.checkEmbedded field.type.namedType
        (DocumentsFragment.propertyText loop field.name)
        (keys ++ [selection.responseKey]) selection.nested = .ok () →
      Accepts compiler parentType scope keys selection
        (.property loop field.name)

variable {compiler : Compiler} {parentType : String} {scope : Scope}
variable {keys path : List String} {selection : FieldSelection}

/-- Fields are selected exactly where a type has some. -/
theorem checkSelected_eq_ok_iff {resultType : String} :
    compiler.checkSelected parentType selection resultType = .ok () ↔
      compiler.model.isLeaf resultType = selection.nested.isEmpty := by
  unfold checkSelected
  cases compiler.model.isLeaf resultType <;>
    cases selection.nested.isEmpty <;> simp

/-- A field has a fragment if it is declared, its arguments can be read, and it is answered. -/
theorem fieldFragment_eq_ok_iff
    {field : FieldDeclaration}
    {fragment : QueryFragment} :
    compiler.fieldFragment parentType scope path selection =
        .ok (field, fragment) ↔
      compiler.model.field? parentType selection.name = some field ∧
        compiler.checkSelected parentType selection field.type.namedType =
          .ok () ∧
        ∃ arguments,
          CompiledArguments.ofSelection parentType selection =
              .ok arguments ∧
            compiler.chain.generate
                (compiler.context parentType scope path selection field
                  arguments) =
              .ok fragment := by
  unfold fieldFragment
  cases declared : compiler.model.field? parentType selection.name with
  | none =>
      constructor
      · intro failed
        cases failed
      · intro answered
        rcases answered with ⟨isDeclared, _⟩
        cases isDeclared
  | some found =>
      constructor
      · intro made
        obtain ⟨⟨⟩, selected, made⟩ := Success.bind_eq_ok_iff.mp made
        obtain ⟨arguments, argued, made⟩ := Success.bind_eq_ok_iff.mp made
        obtain ⟨generated, isGenerated, returned⟩ :=
          Success.bind_eq_ok_iff.mp made
        cases returned
        exact ⟨rfl, selected, arguments, argued, isGenerated⟩
      · intro answered
        rcases answered with ⟨isDeclared, selected, arguments, argued, generated⟩
        cases isDeclared
        refine Success.bind_eq_ok_iff.mpr ⟨(), selected, ?_⟩
        refine Success.bind_eq_ok_iff.mpr ⟨arguments, argued, ?_⟩
        exact Success.bind_eq_ok_iff.mpr ⟨fragment, generated, rfl⟩

/-- A field that has a fragment has a declaration and readable arguments. -/
theorem fieldFragment_eq_ok
    {field : FieldDeclaration}
    {fragment : QueryFragment}
    (compiled :
      compiler.fieldFragment parentType scope path selection =
        .ok (field, fragment)) :
    compiler.model.field? parentType selection.name = some field ∧
      compiler.checkSelected parentType selection field.type.namedType =
        .ok () ∧
      ∃ arguments,
        CompiledArguments.ofSelection parentType selection = .ok arguments ∧
          (compiler.context parentType scope path selection field
            arguments).Answers fragment := by
  obtain ⟨declared, selected, arguments, argued, isGenerated⟩ :=
    fieldFragment_eq_ok_iff.mp compiled
  exact ⟨declared, selected, arguments, argued,
    CompileContext.answers_of_generate isGenerated⟩

/-- A selection that compiles is accepted in one of the two ways. -/
theorem accepts_of_compileField
    {compiled : QueryFragment}
    (accepted :
      compiler.compileField parentType scope keys selection = .ok compiled) :
    compiler.Accepts parentType scope keys selection compiled := by
  obtain ⟨name, label, arguments, conditions, nested⟩ := selection
  rw [compileField] at accepted
  obtain ⟨⟨field, fragment⟩, hasFragment, accepted⟩ :=
    Success.bind_eq_ok_iff.mp accepted
  obtain ⟨declared, selected, arguments, argued, answers⟩ :=
    fieldFragment_eq_ok hasFragment
  cases answers with
  | documents feeds =>
      obtain ⟨projection, projected, returned⟩ :=
        Success.bind_eq_ok_iff.mp accepted
      cases returned
      exact .documents declared selected argued feeds projected
  | property relation inside =>
      obtain ⟨⟨⟩, checked, returned⟩ := Success.bind_eq_ok_iff.mp accepted
      cases returned
      exact .property declared selected argued relation inside checked

/-- An accepted field is declared. -/
theorem Accepts.exists_declaration
    {compiled : QueryFragment}
    (accepts : compiler.Accepts parentType scope keys selection compiled) :
    ∃ field, compiler.model.field? parentType selection.name = some field := by
  cases accepts with
  | documents declared _ _ _ _ =>
      exact ⟨_, declared⟩
  | property declared _ _ _ _ _ =>
      exact ⟨_, declared⟩

/-- What the documents of an accepted field are returned with. -/
theorem Accepts.of_documents
    {fragment : DocumentsFragment}
    (accepts :
      compiler.Accepts parentType scope keys selection (.documents fragment))
    {field : FieldDeclaration}
    (declared :
      compiler.model.field? parentType selection.name = some field) :
    compiler.checkSelected parentType selection field.type.namedType = .ok () ∧
      fragment.discriminator =
        (compiler.registry.mapping? field.type.namedType).map
          DiscriminatorMapping.property ∧
      compiler.compileProjection field.type.namedType fragment.loop
        (keys ++ [selection.responseKey]) [] selection.nested =
          .ok fragment.projection := by
  cases accepts with
  | documents isDeclared selected _ _ projected =>
      cases declared.symm.trans isDeclared
      exact ⟨selected, rfl, projected⟩

/-- A nested selection is accepted on the type that declares it. -/
def AcceptsNested
    (compiler : Compiler)
    (resultType : String)
    (scope : Scope)
    (path : List String)
    (nested : FieldSelection)
    (compiled : QueryFragment) : Prop :=
  ∃ owner,
    compiler.ownerType resultType nested = .ok owner ∧
      compiler.compileField owner scope path nested = .ok compiled

/-- How selections are compiled one after another into a projection, up to its end. -/
inductive Projects
    (compiler : Compiler)
    (resultType loop : String)
    (path : List String)
    (result : List (String × QueryFragment)) :
    List (String × QueryFragment) → List FieldSelection → Prop where
  | done : Projects compiler resultType loop path result result []
  | passed
      {projection : List (String × QueryFragment)}
      {first : FieldSelection}
      {rest : List FieldSelection} :
      first.isTypename = true ∨ Table.has projection first.responseKey = true →
      Projects compiler resultType loop path result projection rest →
      Projects compiler resultType loop path result projection (first :: rest)
  | added
      {projection : List (String × QueryFragment)}
      {first : FieldSelection}
      {rest : List FieldSelection}
      {compiled : QueryFragment} :
      first.isTypename = false →
      Table.has projection first.responseKey = false →
      compiler.AcceptsNested resultType (.document loop) path first compiled →
      Projects compiler resultType loop path result
        (projection ++ [(first.responseKey, compiled)]) rest →
      Projects compiler resultType loop path result projection (first :: rest)

theorem projects_of_compileProjection
    {resultType loop : String}
    {nested : List FieldSelection}
    {projection result : List (String × QueryFragment)}
    (projected :
      compiler.compileProjection resultType loop path projection nested =
        .ok result) :
    compiler.Projects resultType loop path result projection nested := by
  induction nested generalizing projection with
  | nil =>
      rw [compileProjection] at projected
      cases projected
      exact .done
  | cons first rest inductionHypothesis =>
      rw [compileProjection] at projected
      split at projected
      · rename_i passedOver
        exact .passed passedOver (inductionHypothesis projected)
      · rename_i compiles
        obtain ⟨notTypename, notTaken⟩ := not_or.mp compiles
        obtain ⟨owner, owned, projected⟩ := Success.bind_eq_ok_iff.mp projected
        obtain ⟨compiled, accepted, projected⟩ :=
          Success.bind_eq_ok_iff.mp projected
        exact .added (Bool.eq_false_iff.mpr notTypename)
          (Bool.eq_false_iff.mpr notTaken) ⟨owner, owned, accepted⟩
          (inductionHypothesis projected)

/-- What is in a projection stays there while further selections are compiled. -/
theorem Projects.get?_eq_some
    {resultType loop key : String}
    {nested : List FieldSelection}
    {projection result : List (String × QueryFragment)}
    {compiled : QueryFragment}
    (projects :
      compiler.Projects resultType loop path result projection nested)
    (present : Table.get? projection key = some compiled) :
    Table.get? result key = some compiled := by
  induction projects with
  | done =>
      exact present
  | passed _ _ inductionHypothesis =>
      exact inductionHypothesis present
  | added _ _ _ _ inductionHypothesis =>
      refine inductionHypothesis ?_
      simp [Table.get?_append, present]

/-- With distinct response keys, every nested field is compiled into the projection. -/
theorem acceptsNested_of_compileProjection
    {resultType loop : String}
    {nested : List FieldSelection}
    {projection result : List (String × QueryFragment)}
    (projected :
      compiler.compileProjection resultType loop path projection nested =
        .ok result)
    (distinct : (nested.map FieldSelection.responseKey).Nodup)
    (free : ∀ inner ∈ nested,
      Table.get? projection inner.responseKey = none)
    {inner : FieldSelection}
    (member : inner ∈ nested)
    (isField : inner.isTypename = false) :
    ∃ compiled,
      compiler.AcceptsNested resultType (.document loop) path inner compiled ∧
        Table.get? result inner.responseKey = some compiled := by
  replace projected := projects_of_compileProjection projected
  induction projected with
  | done =>
      cases member
  | passed passedOver _ inductionHypothesis =>
      obtain ⟨_, restDistinct⟩ := List.nodup_cons.mp distinct
      obtain ⟨firstFree, restFree⟩ := List.forall_mem_cons.mp free
      rcases List.mem_cons.mp member with rfl | inRest
      · simp [Table.has, isField, firstFree] at passedOver
      · exact inductionHypothesis restDistinct restFree inRest
  | @added _ first _ compiled _ _ accepted onward inductionHypothesis =>
      obtain ⟨fresh, restDistinct⟩ := List.nodup_cons.mp distinct
      obtain ⟨firstFree, restFree⟩ := List.forall_mem_cons.mp free
      rcases List.mem_cons.mp member with rfl | inRest
      · refine ⟨compiled, accepted, onward.get?_eq_some ?_⟩
        simp [Table.get?_append, Table.get?_cons, firstFree]
      · refine inductionHypothesis restDistinct ?_ inRest
        intro other otherMember
        have different : first.responseKey ≠ other.responseKey :=
          fun same => fresh (same ▸ List.mem_map_of_mem otherMember)
        simp [Table.get?_append, Table.get?_cons, different,
          restFree other otherMember]

/-- Every field nested in a property is accepted as stored inside it. -/
theorem acceptsNested_of_checkEmbedded
    {resultType embedded : String}
    {nested : List FieldSelection}
    (checked :
      compiler.checkEmbedded resultType embedded path nested = .ok ())
    {inner : FieldSelection}
    (member : inner ∈ nested)
    (isField : inner.isTypename = false) :
    ∃ compiled,
      compiler.AcceptsNested resultType (.embedded embedded) path inner
        compiled := by
  induction nested with
  | nil =>
      cases member
  | cons first rest inductionHypothesis =>
      rw [checkEmbedded] at checked
      by_cases typename : first.isTypename = true
      · rw [if_pos typename] at checked
        rcases List.mem_cons.mp member with isFirst | inRest
        · rw [isFirst, typename] at isField
          cases isField
        · exact inductionHypothesis checked inRest
      · rw [if_neg typename] at checked
        obtain ⟨owner, owned, checked⟩ := Success.bind_eq_ok_iff.mp checked
        obtain ⟨compiled, accepted, checked⟩ :=
          Success.bind_eq_ok_iff.mp checked
        rcases List.mem_cons.mp member with isFirst | inRest
        · exact ⟨compiled, owner, isFirst ▸ owned, isFirst ▸ accepted⟩
        · exact inductionHypothesis checked inRest

end Compiler

namespace DataFetcher

variable {fetcher : DataFetcher} {selection : FieldSelection}
variable {parent : FetchParent} {fragment : DocumentsFragment}

/-- A field that is ready to be queried was accepted on the type of its parent. -/
theorem accepted_of_prepare
    {field : FieldDeclaration}
    {asked : FieldSelection}
    {start : Option String}
    (prepared :
      fetcher.prepare selection parent =
        .ok (.query field asked fragment start)) :
    asked = selection ∧
      ∃ parentType scope,
        fetcher.resolveParent selection parent =
            .ok (parentType, scope, start) ∧
          fetcher.model.field? parentType selection.name = some field ∧
          fetcher.compiler.compileField parentType scope [] selection =
            .ok (.documents fragment) := by
  obtain ⟨⟨parentType, scope, id⟩, resolved, prepared⟩ :=
    Success.bind_eq_ok_iff.mp prepared
  dsimp only at prepared
  split at prepared
  · cases prepared
  · obtain ⟨compiled, accepted, prepared⟩ :=
      Success.bind_eq_ok_iff.mp prepared
    cases compiled with
    | property loop name =>
        cases prepared
    | documents documents =>
        cases declared : fetcher.model.field? parentType selection.name with
        | none =>
            simp only [declared] at prepared
            cases prepared
        | some found =>
            simp only [declared] at prepared
            cases prepared
            exact ⟨rfl, parentType, scope, resolved, declared, accepted⟩

/-- A field has a fragment tree exactly if it is ready to be queried with that tree. -/
theorem compile_eq_ok_iff :
    fetcher.compile selection parent = .ok fragment ↔
      ∃ field asked start,
        fetcher.prepare selection parent =
          .ok (.query field asked fragment start) := by
  unfold compile
  rw [Success.bind_eq_ok_iff]
  constructor
  · rintro ⟨ready, prepared, compiled⟩
    cases ready with
    | typename type =>
        cases compiled
    | query field asked documents start =>
        cases compiled
        exact ⟨field, asked, start, prepared⟩
  · rintro ⟨field, asked, start, prepared⟩
    exact ⟨_, prepared, rfl⟩

end DataFetcher

end GraphGate
