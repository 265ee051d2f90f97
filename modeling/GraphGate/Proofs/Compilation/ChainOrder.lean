import GraphGate.Proofs.Compilation.Agreement

namespace GraphGate

/-!
# The order of a chain

Relations, root fields of abstract types, other root fields and what is stored
inside a document are different fields, so at most one generator answers a
field. What a chain makes of a field depends on which generators it has, and not
on their order or number; a chain with more generators answers the same fields
alike, and maybe others. A field that no generator answers is refused for a
reason that does not depend on the chain.
-/

namespace Generator

/-- The fields that a generator may answer. -/
def Covers (context : CompileContext) : Generator → Prop
  | .edgeTraversal => context.isRelation = true
  | .discriminatedVertex =>
      context.isRelation = false ∧ context.scope = .root ∧
        context.model.isAbstract context.resultType = true
  | .vertexLookup =>
      context.isRelation = false ∧ context.scope = .root ∧
        context.model.isAbstract context.resultType = false
  | .storedProperty =>
      context.isRelation = false ∧ context.scope ≠ .root

variable {context : CompileContext} {generator other : Generator}
variable {fragment otherFragment : QueryFragment}

theorem covers_of_generate?
    (answered : generator.generate? context = some fragment) :
    generator.Covers context := by
  cases generator with
  | edgeTraversal =>
      simp only [generate?, traverseEdge?] at answered
      cases relation : context.field.directives.relation with
      | none =>
          simp [relation] at answered
      | some directive =>
          simp [Covers, CompileContext.isRelation, relation]
  | discriminatedVertex =>
      simp only [generate?, scanAbstract?] at answered
      split at answered
      · rename_i conditions
        obtain ⟨isRoot, notRelation, isAbstract, -⟩ := conditions
        exact ⟨by simpa using notRelation, isRoot, isAbstract⟩
      · cases answered
  | vertexLookup =>
      simp only [generate?, scanConcrete?] at answered
      split at answered
      · rename_i conditions
        obtain ⟨isRoot, notRelation, isConcrete⟩ := conditions
        exact ⟨by simpa using notRelation, isRoot, by simpa using isConcrete⟩
      · cases answered
  | storedProperty =>
      simp only [generate?, readProperty?] at answered
      split at answered
      · cases answered
      · rename_i passed
        refine ⟨by simpa using (not_or.mp passed).1, fun isRoot => ?_⟩
        simp [isRoot] at answered

/-- No field is covered by two generators. -/
theorem Covers.unique
    (covers : generator.Covers context)
    (coversToo : other.Covers context) :
    generator = other := by
  cases generator <;> cases other <;> simp_all [Covers]

/-- At most one generator answers a field. -/
theorem eq_of_generate?
    (answered : generator.generate? context = some fragment)
    (answeredToo : other.generate? context = some otherFragment) :
    generator = other :=
  (covers_of_generate? answered).unique (covers_of_generate? answeredToo)

/-- What is stored inside a document is read, unless it is a relation or has a collection of its own. -/
theorem readProperty?_of_inside
    {loop : String}
    (inside : context.scope = .document loop ∨ context.scope = .embedded loop)
    (notRelation : context.isRelation = false)
    (notStored : context.model.collectionFor? context.resultType = none) :
    readProperty? context = some (.property loop context.field.name) := by
  rcases inside with isDocument | isEmbedded
  · simp [readProperty?, isDocument, notRelation, notStored]
  · simp [readProperty?, isEmbedded, notRelation, notStored]

/-- A relation of the documents bound to a loop variable is traversed. -/
theorem exists_traverseEdge?_of_document
    {loop : String}
    (isDocument : context.scope = .document loop)
    (isRelation : context.isRelation = true) :
    ∃ fragment, traverseEdge? context = some fragment := by
  obtain ⟨relation, found⟩ := Option.isSome_iff_exists.mp isRelation
  refine ⟨context.documents
    (.traversal (.loop loop) relation.direction relation.collection), ?_⟩
  simp only [traverseEdge?, found, isDocument, Option.map_some]

end Generator

namespace GeneratorChain

variable {context : CompileContext} {chain other : GeneratorChain}
variable {fragment : QueryFragment}

/-- A chain answers a field as the one of its generators does that answers it. -/
theorem generate_eq_ok_iff :
    chain.generate context = .ok fragment ↔
      ∃ generator ∈ chain, generator.generate? context = some fragment := by
  unfold generate
  cases first :
      chain.findSome? fun generator => generator.generate? context with
  | none =>
      simp only [reduceCtorEq, false_iff, not_exists, not_and]
      intro generator member answered
      rw [List.findSome?_eq_none_iff.mp first generator member] at answered
      cases answered
  | some found =>
      simp only [Except.ok.injEq]
      obtain ⟨generator, member, answered⟩ :=
        List.exists_of_findSome?_eq_some first
      constructor
      · rintro rfl
        exact ⟨generator, member, answered⟩
      · rintro ⟨another, -, answeredToo⟩
        cases Generator.eq_of_generate? answered answeredToo
        exact Option.some.inj (answered.symm.trans answeredToo)

/-- A chain with more generators answers a field alike. -/
theorem generate_of_subset
    (more : chain ⊆ other)
    (answered : chain.generate context = .ok fragment) :
    other.generate context = .ok fragment := by
  obtain ⟨generator, member, found⟩ := generate_eq_ok_iff.mp answered
  exact generate_eq_ok_iff.mpr ⟨generator, more member, found⟩

/--
A field that no generator answers is refused for the same reason by every chain.
The names of the generators would be given only for a field of a document that
is a relation or stored in it, and each of those has its generator.
-/
theorem explain_eq_of_unanswered
    (unanswered : ∀ generator : Generator, generator.generate? context = none)
    (chain other : GeneratorChain) :
    chain.explain context = other.explain context := by
  unfold explain
  cases scope : context.scope with
  | root | startVertex =>
      rfl
  | document loop =>
      dsimp only
      split
      · rfl
      · rename_i notStored
        exfalso
        cases isRelation : context.isRelation with
        | true =>
            obtain ⟨fragment, found⟩ :=
              Generator.exists_traverseEdge?_of_document scope isRelation
            cases found.symm.trans (unanswered .edgeTraversal)
        | false =>
            have found :=
              Generator.readProperty?_of_inside (.inl scope) isRelation
                (by simpa using notStored)
            cases found.symm.trans (unanswered .storedProperty)
  | embedded path =>
      dsimp only
      split
      · rfl
      · rename_i notRelation
        split
        · rfl
        · rename_i notStored
          have found :=
            Generator.readProperty?_of_inside (.inr scope)
              (by simpa using notRelation) (by simpa using notStored)
          cases found.symm.trans (unanswered .storedProperty)

/-- A chain has all generators. -/
def IsComplete (chain : GeneratorChain) : Prop :=
  ∀ generator : Generator, generator ∈ chain

instance (chain : GeneratorChain) : Decidable chain.IsComplete :=
  decidable_of_iff (∀ generator ∈ Generator.all, generator ∈ chain)
    ⟨fun contained generator =>
        contained generator (by cases generator <;> decide),
      fun complete generator _ => complete generator⟩

/-- Chains with all generators make the same of a field, whether it is answered or refused. -/
theorem generate_eq_of_isComplete
    (complete : chain.IsComplete)
    (completeToo : other.IsComplete)
    (context : CompileContext) :
    chain.generate context = other.generate context := by
  cases made : chain.generate context with
  | ok fragment =>
      exact (generate_of_subset (fun generator _ => completeToo generator)
        made).symm
  | error cause =>
      have unanswered (generator : Generator) :
          generator.generate? context = none := by
        cases found : generator.generate? context with
        | none =>
            rfl
        | some fragment =>
            have answered :=
              generate_eq_ok_iff.mpr ⟨generator, complete generator, found⟩
            cases made.symm.trans answered
      have nothing (chain : GeneratorChain) :
          (chain.findSome? fun generator => generator.generate? context) =
            none :=
        List.findSome?_eq_none_iff.mpr fun generator _ => unanswered generator
      rw [← made, generate, generate, nothing, nothing,
        explain_eq_of_unanswered unanswered chain other]

end GeneratorChain

/-- A relation between results that is kept by going on in related ways. -/
structure Stepwise
    (relation : {α : Type} →
      Except UnsupportedSelection α → Except UnsupportedSelection α → Prop) :
    Prop where
  refl {α : Type} (result : Except UnsupportedSelection α) :
    relation result result
  bind {α β : Type}
    {first second : Except UnsupportedSelection α}
    {next following : α → Except UnsupportedSelection β} :
    relation first second →
      (∀ value, relation (next value) (following value)) →
        relation (first >>= next) (second >>= following)

namespace Stepwise

theorem eq : Stepwise fun first second => first = second where
  refl _ := rfl
  bind same onward := by
    rw [same, funext onward]

/-- Whatever the first result is, if it is a success, is the second one as well. -/
theorem succeeds :
    Stepwise fun first second =>
      ∀ value, first = .ok value → second = .ok value where
  refl _ _ succeeds := succeeds
  bind kept onward result succeeds := by
    obtain ⟨value, first, next⟩ := Success.bind_eq_ok_iff.mp succeeds
    exact Success.bind_eq_ok_iff.mpr
      ⟨value, kept value first, onward value result next⟩

end Stepwise

namespace Compiler

variable {relation : {α : Type} →
  Except UnsupportedSelection α → Except UnsupportedSelection α → Prop}

/-- The compiler with another chain. -/
def withChain (compiler : Compiler) (chain : GeneratorChain) : Compiler :=
  { compiler with chain := chain }

variable {compiler : Compiler} {chain : GeneratorChain}

theorem fieldFragment_related
    (stepwise : Stepwise relation)
    (generated : ∀ context,
      relation (compiler.chain.generate context) (chain.generate context))
    (parentType : String)
    (scope : Scope)
    (path : List String)
    (selection : FieldSelection) :
    relation (compiler.fieldFragment parentType scope path selection)
      ((compiler.withChain chain).fieldFragment parentType scope path
        selection) := by
  unfold fieldFragment withChain
  dsimp only
  cases compiler.model.field? parentType selection.name with
  | none =>
      exact stepwise.refl _
  | some field =>
      refine stepwise.bind (stepwise.refl _) fun _ => ?_
      refine stepwise.bind (stepwise.refl _) fun arguments => ?_
      exact stepwise.bind (generated _) fun fragment => stepwise.refl _

theorem compileProjection_related
    (stepwise : Stepwise relation)
    {loop : String}
    {path : List String}
    {nested : List FieldSelection}
    (each : ∀ inner ∈ nested, ∀ owner,
      relation (compiler.compileField owner (.document loop) path inner)
        ((compiler.withChain chain).compileField owner (.document loop) path
          inner))
    (resultType : String)
    (projection : List (String × QueryFragment)) :
    relation (compiler.compileProjection resultType loop path projection nested)
      ((compiler.withChain chain).compileProjection resultType loop path
        projection nested) := by
  induction nested generalizing projection with
  | nil =>
      simp only [compileProjection]
      exact stepwise.refl _
  | cons inner rest inductionHypothesis =>
      obtain ⟨first, others⟩ := List.forall_mem_cons.mp each
      simp only [compileProjection]
      split
      · exact inductionHypothesis others _
      · refine stepwise.bind (stepwise.refl _) fun owner => ?_
        exact stepwise.bind (first owner) fun compiled =>
          inductionHypothesis others _

theorem checkEmbedded_related
    (stepwise : Stepwise relation)
    {embedded : String}
    {path : List String}
    {nested : List FieldSelection}
    (each : ∀ inner ∈ nested, ∀ owner,
      relation (compiler.compileField owner (.embedded embedded) path inner)
        ((compiler.withChain chain).compileField owner (.embedded embedded) path
          inner))
    (resultType : String) :
    relation (compiler.checkEmbedded resultType embedded path nested)
      ((compiler.withChain chain).checkEmbedded resultType embedded path
        nested) := by
  induction nested with
  | nil =>
      simp only [checkEmbedded]
      exact stepwise.refl _
  | cons inner rest inductionHypothesis =>
      obtain ⟨first, others⟩ := List.forall_mem_cons.mp each
      simp only [checkEmbedded]
      split
      · exact inductionHypothesis others
      · refine stepwise.bind (stepwise.refl _) fun owner => ?_
        exact stepwise.bind (first owner) fun _ => inductionHypothesis others

/-- If what two chains make of single fields is related, so is what they make of selections. -/
theorem compileField_related
    (stepwise : Stepwise relation)
    (generated : ∀ context,
      relation (compiler.chain.generate context) (chain.generate context))
    (parentType : String)
    (scope : Scope)
    (keys : List String)
    (selection : FieldSelection) :
    relation (compiler.compileField parentType scope keys selection)
      ((compiler.withChain chain).compileField parentType scope keys
        selection) := by
  induction selection using FieldSelection.tree_induction
    generalizing parentType scope keys with
  | node selection inductionHypothesis =>
      obtain ⟨name, label, arguments, conditions, nested⟩ := selection
      rw [compileField, compileField]
      refine stepwise.bind
        (fieldFragment_related stepwise generated _ _ _ _) ?_
      rintro ⟨field, fragment⟩
      cases fragment with
      | documents documents =>
          refine stepwise.bind ?_ fun projection => stepwise.refl _
          exact compileProjection_related stepwise
            (fun inner member owner => inductionHypothesis inner member _ _ _)
            _ _
      | property loop property =>
          refine stepwise.bind ?_ fun _ => stepwise.refl _
          exact checkEmbedded_related stepwise
            (fun inner member owner => inductionHypothesis inner member _ _ _)
            _

/-- A relation compiles to a traversal along its edges or not at all, whatever the chain is. -/
theorem Accepts.source_of_relation
    {parentType : String}
    {scope : Scope}
    {keys : List String}
    {selection : FieldSelection}
    {field : FieldDeclaration}
    {relation : RelationDirective}
    {fragment : QueryFragment}
    (accepts : compiler.Accepts parentType scope keys selection fragment)
    (declared :
      compiler.model.field? parentType selection.name = some field)
    (isRelation : field.directives.relation = some relation) :
    ∃ documents start,
      fragment = .documents documents ∧
        documents.source =
          .traversal start relation.direction relation.collection := by
  cases accepts with
  | documents found _ _ feeds _ =>
      cases declared.symm.trans found
      cases feeds with
      | traversal isRelationToo _ | traversalFromStart isRelationToo _ =>
          cases isRelation.symm.trans isRelationToo
          exact ⟨_, _, rfl, rfl⟩
      | scan notRelation _ _ =>
          cases isRelation.symm.trans notRelation
  | property found _ _ notRelation _ _ =>
      cases declared.symm.trans found
      cases isRelation.symm.trans notRelation

end Compiler

namespace DataFetcher

variable {relation : {α : Type} →
  Except UnsupportedSelection α → Except UnsupportedSelection α → Prop}

/-- The fetcher with another chain. -/
def withChain (fetcher : DataFetcher) (chain : GeneratorChain) : DataFetcher :=
  { fetcher with chain := chain }

/-- If what two chains make of single fields is related, so are the trees that answer a field. -/
theorem compile_related
    (stepwise : Stepwise relation)
    {chain other : GeneratorChain}
    (generated : ∀ context,
      relation (chain.generate context) (other.generate context))
    (fetcher : DataFetcher)
    (selection : FieldSelection)
    (parent : FetchParent) :
    relation ((fetcher.withChain chain).compile selection parent)
      ((fetcher.withChain other).compile selection parent) := by
  unfold compile
  refine stepwise.bind ?_ fun _ => stepwise.refl _
  unfold prepare
  refine stepwise.bind (stepwise.refl _) ?_
  rintro ⟨parentType, scope, start⟩
  dsimp only
  split
  · exact stepwise.refl _
  · refine stepwise.bind ?_ fun _ => stepwise.refl _
    exact @Compiler.compileField_related relation
      (fetcher.withChain chain).compiler other stepwise generated parentType
      scope [] selection

/--
At most one generator answers a field. So every chain that has all of them
compiles a selection to the same tree or refuses it with the same failure, and a
tree that a chain compiles is compiled by every chain that has its generators. A
relation is compiled to a traversal or not at all, by every chain and wherever
it is selected.
-/
theorem compile_ignores_chain_order
    (fetcher : DataFetcher)
    (selection : FieldSelection)
    (parent : FetchParent) :
    (∀ (context : CompileContext) (generator other : Generator),
      (generator.generate? context).isSome →
        (other.generate? context).isSome → generator = other) ∧
      (∀ chain other : GeneratorChain,
        chain.IsComplete → other.IsComplete →
          (fetcher.withChain chain).compile selection parent =
            (fetcher.withChain other).compile selection parent) ∧
      (∀ (chain other : GeneratorChain) (fragment : DocumentsFragment),
        chain ⊆ other →
          (fetcher.withChain chain).compile selection parent = .ok fragment →
            (fetcher.withChain other).compile selection parent =
              .ok fragment) ∧
      ∀ (chain : GeneratorChain) (parentType : String) (scope : Scope)
        (keys : List String) (inner : FieldSelection)
        (field : FieldDeclaration) (relation : RelationDirective)
        (compiled : QueryFragment),
        fetcher.model.field? parentType inner.name = some field →
          field.directives.relation = some relation →
            (fetcher.withChain chain).compiler.compileField parentType scope
                keys inner = .ok compiled →
              ∃ documents start,
                compiled = .documents documents ∧
                  documents.source =
                    .traversal start relation.direction
                      relation.collection := by
  refine ⟨?_, ?_, ?_, ?_⟩
  · intro context generator other answered answeredToo
    obtain ⟨fragment, found⟩ := Option.isSome_iff_exists.mp answered
    obtain ⟨otherFragment, foundToo⟩ :=
      Option.isSome_iff_exists.mp answeredToo
    exact Generator.eq_of_generate? found foundToo
  · intro chain other complete completeToo
    exact compile_related .eq
      (GeneratorChain.generate_eq_of_isComplete complete completeToo) fetcher
      selection parent
  · intro chain other fragment more compiled
    exact compile_related .succeeds
      (fun context _ => GeneratorChain.generate_of_subset more) fetcher
      selection parent fragment compiled
  · intro chain parentType scope keys inner field relation compiled declared
      isRelation accepted
    exact (Compiler.accepts_of_compileField accepted).source_of_relation
      declared isRelation

/-- All generators, the last of the default chain first, and one of them twice. -/
def backwardsChain : GeneratorChain :=
  .storedProperty :: GeneratorChain.standard.reverse

/-- The owners of all pets are compiled alike by any chain, and need no look-up of concrete types. -/
theorem pets_compiled_backwards :
    ∃ fragment owner,
      (kennel.withChain
          [.edgeTraversal, .discriminatedVertex, .storedProperty]).compile
          petsSelection .root = .ok fragment ∧
        (kennel.withChain backwardsChain).compile petsSelection .root =
          .ok fragment ∧
        (kennel.withChain .standard).compile petsSelection .root =
          .ok fragment ∧
        Table.get? fragment.projection "owner" = some (.documents owner) ∧
        owner.source = .traversal (.loop "v_pets") .outbound "has" := by
  obtain ⟨-, alike, more, -⟩ :=
    compile_ignores_chain_order kennel petsSelection .root
  obtain ⟨fragment, owner, compiled, isOwner, source⟩ :
      ∃ fragment owner,
        (kennel.withChain
            [.edgeTraversal, .discriminatedVertex, .storedProperty]).compile
            petsSelection .root = .ok fragment ∧
          Table.get? fragment.projection "owner" = some (.documents owner) ∧
          owner.source = .traversal (.loop "v_pets") .outbound "has" :=
    ⟨_, _, rfl, rfl, rfl⟩
  have backwards :=
    more _ backwardsChain fragment (by decide) compiled
  exact ⟨fragment, owner, compiled, backwards,
    (alike .standard backwardsChain (by decide) (by decide)).trans backwards,
    isOwner, source⟩

end DataFetcher

end GraphGate
