import GraphGate.Proofs.Compilation.Acceptance
import GraphGate.Proofs.Response.Traversal
import GraphGate.Schema.Loading
import Mathlib.Data.List.Nodup

namespace GraphGate

/-!
# How compiler and shaper agree on storage

The compiler looks a nested field up on its type conditions, or else on the
declared type; the shaper looks on the concrete type of a record first. A schema
may declare a field differently on an interface and on a type that implements
it. So the shaper takes a value for what the compiler asked for exactly if the
declaration it finds has the named type that the field was compiled with, and
inside documents is a relation where the compiler saw one. Documents can be
shaped after a relation only if it leads to objects, in one list where all
documents are returned and in none elsewhere.
-/

/-- How many lists are around the values of a type. -/
def TypeRef.listDepth : TypeRef → Nat
  | .named _ => 0
  | .list item => item.listDepth + 1
  | .nonNull inner => inner.listDepth

/-- How the value of a compiled field holds its own fields. -/
def QueryFragment.holding : QueryFragment → RecordSource
  | .documents _ => .document
  | .property _ _ => .embedded

/-- A compiled field: the type of its values, its selection and its fragment. -/
structure CompiledField where
  type : String
  selection : FieldSelection
  fragment : QueryFragment

/-- The response keys of the selections nested in a selection are distinct. -/
def FieldSelection.HasDistinctKeys (selection : FieldSelection) : Prop :=
  (selection.nested.map FieldSelection.responseKey).Nodup

instance (selection : FieldSelection) : Decidable selection.HasDistinctKeys :=
  inferInstanceAs (Decidable (List.Nodup _))

namespace Compiler

/-- The declaration that a nested selection is compiled by. -/
def Uses
    (compiler : Compiler)
    (resultType : String)
    (nested : FieldSelection)
    (used : FieldDeclaration) : Prop :=
  ∃ owner,
    compiler.ownerType resultType nested = .ok owner ∧
      compiler.model.field? owner nested.name = some used

/-- A compiled field directly inside another one, with the declaration it is compiled by. -/
inductive Nests (compiler : Compiler) (outer : CompiledField) :
    FieldDeclaration → CompiledField → Prop where
  /-- Inside documents, a field is in the projection. -/
  | projected
      {fragment : DocumentsFragment}
      {nested : FieldSelection}
      {used : FieldDeclaration}
      {compiled : QueryFragment} :
      outer.fragment = .documents fragment →
      nested ∈ outer.selection.nested →
      nested.isTypename = false →
      compiler.Uses outer.type nested used →
      Table.get? fragment.projection nested.responseKey = some compiled →
      Nests compiler outer used ⟨used.type.namedType, nested, compiled⟩
  /-- Inside a property, a field is compiled to be checked. -/
  | stored
      {loop name : String}
      {path : List String}
      {nested : FieldSelection}
      {used : FieldDeclaration}
      {compiled : QueryFragment} :
      outer.fragment = .property loop name →
      nested ∈ outer.selection.nested →
      nested.isTypename = false →
      compiler.Uses outer.type nested used →
      compiler.AcceptsNested outer.type
        (.embedded (DocumentsFragment.propertyText loop name)) path nested
        compiled →
      Nests compiler outer used ⟨used.type.namedType, nested, compiled⟩

/-- A field is compiled for values of the type that its declaration names. -/
theorem Nests.type
    {compiler : Compiler}
    {outer inner : CompiledField}
    {used : FieldDeclaration}
    (nests : compiler.Nests outer used inner) :
    inner.type = used.type.namedType := by
  cases nests with
  | projected =>
      rfl
  | stored =>
      rfl

theorem Nests.uses
    {compiler : Compiler}
    {outer inner : CompiledField}
    {used : FieldDeclaration}
    (nests : compiler.Nests outer used inner) :
    compiler.Uses outer.type inner.selection used := by
  cases nests with
  | projected _ _ _ uses _ =>
      exact uses
  | stored _ _ _ uses _ =>
      exact uses

/-- A field with distinct response keys that the compiler has accepted. -/
structure IsCompiled (compiler : Compiler) (compiled : CompiledField) : Prop where
  distinct : compiled.selection.Everywhere FieldSelection.HasDistinctKeys
  accepted : ∃ parentType scope keys field,
    compiler.model.field? parentType compiled.selection.name = some field ∧
      field.type.namedType = compiled.type ∧
      compiler.Accepts parentType scope keys compiled.selection
        compiled.fragment

variable {compiler : Compiler} {outer inner outermost : CompiledField}
variable {nested : FieldSelection} {used : FieldDeclaration}

/-- A selection that is accepted on its owner is compiled by one declaration there. -/
theorem uses_of_acceptsNested
    {resultType : String}
    {scope : Scope}
    {path : List String}
    {compiled : QueryFragment}
    (accepted :
      compiler.AcceptsNested resultType scope path nested compiled) :
    ∃ used, compiler.Uses resultType nested used := by
  obtain ⟨owner, owned, isCompiled⟩ := accepted
  obtain ⟨used, declared⟩ :=
    (accepts_of_compileField isCompiled).exists_declaration
  exact ⟨used, owner, owned, declared⟩

/-- Every field nested in an accepted one is compiled. -/
theorem IsCompiled.exists_nests
    (isCompiled : compiler.IsCompiled outer)
    (member : nested ∈ outer.selection.nested)
    (isField : nested.isTypename = false) :
    ∃ used compiled,
      compiler.Nests outer used
        ⟨used.type.namedType, nested, compiled⟩ := by
  obtain ⟨type, selection, fragment⟩ := outer
  obtain ⟨distinct, parentType, scope, keys, field, declared, rfl, accepts⟩ :=
    isCompiled
  dsimp only at accepts
  cases accepts with
  | documents found _ _ _ projected =>
      cases declared.symm.trans found
      obtain ⟨compiled, accepted, present⟩ :=
        acceptsNested_of_compileProjection projected distinct.here
          (fun _ _ => Table.get?_nil _) member isField
      obtain ⟨used, uses⟩ := uses_of_acceptsNested accepted
      exact ⟨used, compiled, .projected rfl member isField uses present⟩
  | property found _ _ _ _ checked =>
      cases declared.symm.trans found
      obtain ⟨compiled, accepted⟩ :=
        acceptsNested_of_checkEmbedded checked member isField
      obtain ⟨used, uses⟩ := uses_of_acceptsNested accepted
      exact ⟨used, compiled, .stored rfl member isField uses accepted⟩

/-- The scope that the fields inside a compiled field are compiled in. -/
def innerScope : QueryFragment → Scope
  | .documents fragment => .document fragment.loop
  | .property loop name =>
      .embedded (DocumentsFragment.propertyText loop name)

/-- A nested field was accepted in the scope of the enclosing one. -/
theorem IsCompiled.accepts_of_nests
    (isCompiled : compiler.IsCompiled outer)
    (nests : compiler.Nests outer used inner) :
    ∃ owner path,
      compiler.model.field? owner inner.selection.name = some used ∧
        compiler.Accepts owner (innerScope outer.fragment) path inner.selection
          inner.fragment := by
  obtain ⟨type, selection, fragment⟩ := outer
  obtain ⟨distinct, parentType, scope, keys, field, declared, rfl, accepts⟩ :=
    isCompiled
  dsimp only at accepts
  cases nests with
  | projected isDocuments member isField uses present =>
      obtain ⟨owner, owned, usedFound⟩ := uses
      cases accepts with
      | property _ _ _ _ _ _ =>
          cases isDocuments
      | documents found _ _ _ projected =>
          cases isDocuments
          cases declared.symm.trans found
          obtain ⟨compiled, ⟨other, otherOwned, accepted⟩, otherPresent⟩ :=
            acceptsNested_of_compileProjection projected distinct.here
              (fun _ _ => Table.get?_nil _) member isField
          cases owned.symm.trans otherOwned
          cases present.symm.trans otherPresent
          exact ⟨owner, _, usedFound, accepts_of_compileField accepted⟩
  | stored isProperty member isField uses accepted =>
      obtain ⟨owner, owned, usedFound⟩ := uses
      obtain ⟨other, otherOwned, isAccepted⟩ := accepted
      cases isProperty
      cases owned.symm.trans otherOwned
      exact ⟨owner, _, usedFound, accepts_of_compileField isAccepted⟩

/-- What is nested in an accepted field is accepted itself. -/
theorem IsCompiled.of_nests
    (isCompiled : compiler.IsCompiled outer)
    (nests : compiler.Nests outer used inner) :
    compiler.IsCompiled inner := by
  obtain ⟨owner, path, declared, accepts⟩ := isCompiled.accepts_of_nests nests
  cases nests with
  | projected _ member _ _ _ =>
      exact ⟨isCompiled.distinct.inside member,
        owner, _, path, used, declared, rfl, accepts⟩
  | stored _ member _ _ _ =>
      exact ⟨isCompiled.distinct.inside member,
        owner, _, path, used, declared, rfl, accepts⟩

/-- What shapes the records of compiled fields. -/
def shaper (compiler : Compiler) : Shaper :=
  ⟨compiler.model, compiler.registry⟩

/-- Of the conditions that declare a field, the owner is the first. -/
theorem findSome?_of_ownerType
    {first : String}
    {rest : List String}
    (conditions : nested.conditions = first :: rest)
    {resultType owner : String}
    (owned : compiler.ownerType resultType nested = .ok owner)
    (declared : compiler.model.field? owner nested.name = some used) :
    (first :: rest).findSome? (compiler.model.field? · nested.name) =
      some used := by
  simp only [ownerType, conditions] at owned
  split at owned
  · cases owned
  · split at owned
    · rename_i noneDeclares
      cases owned
      have undeclared :=
        List.filterMap_eq_nil_iff.mp noneDeclares first List.mem_cons_self
      simp [declared] at undeclared
    · rename_i other field others declaring
      split at owned
      · cases owned
      · cases owned
        have firstDeclaring :
            (first :: rest).findSome? (fun condition =>
                (compiler.model.field? condition nested.name).map
                  (condition, ·)) =
              some (owner, field) := by
          rw [← List.head?_filterMap, declaring]
          rfl
        obtain ⟨condition, -, isField⟩ :=
          List.exists_of_findSome?_eq_some firstDeclaring
        obtain ⟨found, isFound, same⟩ := Option.map_eq_some_iff.mp isField
        cases same
        cases declared.symm.trans isFound
        have behind := congrArg (Option.map Prod.snd) firstDeclaring
        rw [List.map_findSome?] at behind
        simpa [Function.comp_def] using behind

/--
The shaper finds the field of the concrete type, or else the declaration that
the field was compiled by.
-/
theorem declaration?_of_uses
    {resultType : String}
    (uses : compiler.Uses resultType nested used)
    (concrete : String) :
    compiler.shaper.declaration? concrete resultType nested =
      some ((compiler.model.field? concrete nested.name).getD used) := by
  obtain ⟨owner, owned, declared⟩ := uses
  have behind :
      (nested.conditions ++ [resultType]).findSome?
          (compiler.model.field? · nested.name) =
        some used := by
    cases conditions : nested.conditions with
    | nil =>
        simp only [ownerType, conditions, Except.ok.injEq] at owned
        simp [owned, declared]
    | cons first rest =>
        rw [List.findSome?_append,
          findSome?_of_ownerType conditions owned declared]
        rfl
  simp only [Shaper.declaration?, List.cons_append, List.findSome?_cons]
  cases own : compiler.model.field? concrete nested.name with
  | none =>
      simpa [shaper, own] using behind
  | some field =>
      simp [shaper, own]

/--
A field leads to documents of their own: a relation does, but not inside a
stored object.
-/
def LeadsToDocuments (source : RecordSource) (field : FieldDeclaration) : Prop :=
  source = .document ∧ field.directives.relation.isSome = true

theorem fieldSource_eq_document_iff
    {source : RecordSource}
    {field : FieldDeclaration} :
    Shaper.fieldSource source field = .document ↔
      LeadsToDocuments source field := by
  cases source <;>
    simp [Shaper.fieldSource, LeadsToDocuments, Option.isSome_iff_ne_none]

/-- Two records hold their fields alike if both are projected documents, or neither is. -/
theorem source_eq_iff {first second : RecordSource} :
    first = second ↔ (first = .document ↔ second = .document) := by
  cases first <;> cases second <;> simp

/--
A declaration, read in records of some kind, stores a field as the one does that
the field was compiled by. If it leads to documents, these are objects, in one
list exactly if the field was compiled as a list.
-/
structure StoresAs
    (model : Model)
    (source : RecordSource)
    (used found : FieldDeclaration) : Prop where
  type : found.type.namedType = used.type.namedType
  relation : LeadsToDocuments source found ↔ LeadsToDocuments source used
  objects : LeadsToDocuments source found →
    model.isLeaf found.type.namedType = false
  lists : LeadsToDocuments source found →
    found.type.listDepth = if used.type.isList then 1 else 0

/-- A field of records of some kind is shaped after a declaration as it was compiled. -/
structure ShapedAsCompiled
    (model : Model)
    (source : RecordSource)
    (inner : CompiledField)
    (found : FieldDeclaration) : Prop where
  /-- Its values are taken for values of the type they were compiled for. -/
  type : found.type.namedType = inner.type
  /-- What compiled to documents is read as documents, and properties as stored values. -/
  source : Shaper.fieldSource source found = inner.fragment.holding
  /-- Documents are not taken for scalars. -/
  objects {fragment : DocumentsFragment} :
    inner.fragment = .documents fragment →
      model.isLeaf found.type.namedType = false
  /-- One list is expected where all documents are returned, and none elsewhere. -/
  lists {fragment : DocumentsFragment} :
    inner.fragment = .documents fragment →
      found.type.listDepth = if fragment.cardinality = .many then 1 else 0

/--
A nested field was compiled to what its declaration leads to, and all documents
are returned exactly if it is a list.
-/
theorem IsCompiled.holding_and_cardinality
    (isCompiled : compiler.IsCompiled outer)
    (nests : compiler.Nests outer used inner) :
    Shaper.fieldSource outer.fragment.holding used = inner.fragment.holding ∧
      ∀ fragment,
        inner.fragment = .documents fragment →
          (fragment.cardinality = .many ↔ used.type.isList = true) := by
  obtain ⟨owner, path, declared, accepts⟩ := isCompiled.accepts_of_nests nests
  obtain ⟨innerType, selection, fragment⟩ := inner
  dsimp only at accepts
  cases outerFragment : outer.fragment with
  | documents documents =>
      rw [outerFragment] at accepts
      cases accepts with
      | documents found _ _ feeds _ =>
          cases declared.symm.trans found
          cases feeds with
          | traversal relation _ =>
              simp only [context] at relation
              constructor
              · simp [QueryFragment.holding, Shaper.fieldSource, relation]
              · intro fragment same
                cases same
                exact CompileContext.cardinality_eq_many_iff
                  (compiler.context _ _ _ _ used _)
          | traversalFromStart _ scope =>
              cases scope
          | scan _ scope _ =>
              cases scope
      | property found _ _ relation _ _ =>
          cases declared.symm.trans found
          constructor
          · simp [QueryFragment.holding, Shaper.fieldSource, relation]
          · intro fragment impossible
            cases impossible
  | property loop name =>
      rw [outerFragment] at accepts
      cases accepts with
      | documents _ _ _ feeds _ =>
          cases feeds with
          | traversal _ scope =>
              cases scope
          | traversalFromStart _ scope =>
              cases scope
          | scan _ scope _ =>
              cases scope
      | property _ _ _ _ _ _ =>
          constructor
          · simp [QueryFragment.holding, Shaper.fieldSource]
          · intro fragment impossible
            cases impossible

/-- A fragment holds documents if it is one. -/
theorem holding_eq_document_iff {fragment : QueryFragment} :
    fragment.holding = .document ↔
      ∃ documents, fragment = .documents documents := by
  cases fragment <;> simp [QueryFragment.holding]

/--
A field is shaped as it was compiled exactly after the declarations that store
it as the one does that it was compiled by.
-/
theorem IsCompiled.shapedAsCompiled_iff
    (isCompiled : compiler.IsCompiled outer)
    (nests : compiler.Nests outer used inner)
    (found : FieldDeclaration) :
    ShapedAsCompiled compiler.model outer.fragment.holding inner found ↔
      StoresAs compiler.model outer.fragment.holding used found := by
  obtain ⟨holding, cardinality⟩ := isCompiled.holding_and_cardinality nests
  have isDocuments :
      (∃ documents, inner.fragment = .documents documents) ↔
        LeadsToDocuments outer.fragment.holding used := by
    rw [← holding_eq_document_iff, ← holding, fieldSource_eq_document_iff]
  have depth {documents : DocumentsFragment}
      (same : inner.fragment = .documents documents) :
      (if documents.cardinality = .many then 1 else 0) =
        if used.type.isList = true then 1 else 0 :=
    if_congr (cardinality documents same) rfl rfl
  constructor
  · intro shaped
    have relation :
        LeadsToDocuments outer.fragment.holding found ↔
          LeadsToDocuments outer.fragment.holding used := by
      rw [← fieldSource_eq_document_iff, ← fieldSource_eq_document_iff, holding,
        shaped.source]
    refine ⟨shaped.type.trans nests.type, relation, fun leads => ?_,
      fun leads => ?_⟩
    · obtain ⟨documents, same⟩ := isDocuments.mpr (relation.mp leads)
      exact shaped.objects same
    · obtain ⟨documents, same⟩ := isDocuments.mpr (relation.mp leads)
      rw [shaped.lists same, depth same]
  · intro stores
    have leads {documents : DocumentsFragment}
        (same : inner.fragment = .documents documents) :
        LeadsToDocuments outer.fragment.holding found :=
      stores.relation.mpr (isDocuments.mp ⟨documents, same⟩)
    refine ⟨stores.type.trans nests.type.symm, ?_,
      fun same => stores.objects (leads same), fun same => ?_⟩
    · rw [← holding, source_eq_iff, fieldSource_eq_document_iff,
        fieldSource_eq_document_iff]
      exact stores.relation
    · rw [stores.lists (leads same), depth same]

/--
The way of the shaper beside the compiled fields: for a field inside an outermost
one, the type that the shaper takes its records for, and how they hold their
fields. The way leads on through every field whose declaration, as the shaper
finds it for some concrete type, stores the field as it was compiled.
-/
inductive Follows (compiler : Compiler) (outermost : CompiledField) :
    CompiledField → String → RecordSource → Prop where
  | here :
      Follows compiler outermost outermost outermost.type
        outermost.fragment.holding
  | inside
      {outer inner : CompiledField}
      {used found : FieldDeclaration}
      {declared concrete : String}
      {source : RecordSource} :
      Follows compiler outermost outer declared source →
      compiler.Nests outer used inner →
      compiler.shaper.declaration? concrete declared inner.selection =
        some found →
      StoresAs compiler.model source used found →
      Follows compiler outermost inner found.type.namedType
        (Shaper.fieldSource source found)

/-- Along its way, the shaper takes records for what they were compiled to. -/
theorem Follows.agrees
    {declared : String}
    {source : RecordSource}
    (isCompiled : compiler.IsCompiled outermost)
    (follows : compiler.Follows outermost outer declared source) :
    compiler.IsCompiled outer ∧ declared = outer.type ∧
      source = outer.fragment.holding := by
  induction follows with
  | here =>
      exact ⟨isCompiled, rfl, rfl⟩
  | inside _ nests _ stores inductionHypothesis =>
      obtain ⟨outerIsCompiled, -, rfl⟩ := inductionHypothesis
      have shaped := (outerIsCompiled.shapedAsCompiled_iff nests _).mpr stores
      exact ⟨outerIsCompiled.of_nests nests, shaped.type, shaped.source⟩

end Compiler

namespace DataFetcher

/--
Wherever the shaper gets inside a field that is ready to be queried, as long as
each field on its way is stored as it was compiled, it takes the records for
what they were compiled to. Each field selected there is compiled, and for every
concrete type the shaper finds its declaration: that of the concrete type, or
else the one it was compiled by. The field is completed after it, and is shaped
as it was compiled exactly if the declaration stores it as the one does that it
was compiled by.
-/
theorem nested_shapedAsCompiled_iff
    {fetcher : DataFetcher}
    {selection asked : FieldSelection}
    {parent : FetchParent}
    {field : FieldDeclaration}
    {fragment : DocumentsFragment}
    {start : Option String}
    (prepared :
      fetcher.prepare selection parent =
        .ok (.query field asked fragment start))
    (distinct : selection.Everywhere FieldSelection.HasDistinctKeys)
    {outer : CompiledField}
    {declared : String}
    {source : RecordSource}
    (follows :
      fetcher.compiler.Follows
        ⟨field.type.namedType, selection, .documents fragment⟩ outer declared
        source)
    {nested : FieldSelection}
    (member : nested ∈ outer.selection.nested)
    (isField : nested.isTypename = false) :
    declared = outer.type ∧
      source = outer.fragment.holding ∧
      ∃ used compiled,
        fetcher.compiler.Nests outer used
            ⟨used.type.namedType, nested, compiled⟩ ∧
          ∀ concrete, ∃ found,
            found =
                (fetcher.model.field? concrete nested.name).getD used ∧
              fetcher.shaper.declaration? concrete declared nested =
                some found ∧
              (∀ record path,
                fetcher.shaper.completeEntry concrete declared source record
                    path nested =
                  (nested.responseKey, ·) <$>
                    fetcher.shaper.complete found.type
                      (Shaper.fieldValue source record nested.responseKey found)
                      nested (Shaper.fieldSource source found)
                      (path.key nested.responseKey)) ∧
              (Compiler.ShapedAsCompiled fetcher.model source
                  ⟨used.type.namedType, nested, compiled⟩ found ↔
                Compiler.StoresAs fetcher.model source used found) := by
  obtain ⟨-, parentType, scope, -, isDeclared, accepted⟩ :=
    accepted_of_prepare prepared
  have outermost :
      fetcher.compiler.IsCompiled
        ⟨field.type.namedType, selection, .documents fragment⟩ :=
    ⟨distinct, parentType, scope, [], field, isDeclared, rfl,
      Compiler.accepts_of_compileField accepted⟩
  obtain ⟨isCompiled, rfl, rfl⟩ := follows.agrees outermost
  obtain ⟨used, compiled, nests⟩ := isCompiled.exists_nests member isField
  refine ⟨rfl, rfl, used, compiled, nests, fun concrete => ?_⟩
  have isFound :
      fetcher.shaper.declaration? concrete outer.type nested =
        some ((fetcher.model.field? concrete nested.name).getD used) :=
    Compiler.declaration?_of_uses nests.uses concrete
  refine ⟨_, rfl, isFound, fun record path => ?_,
    isCompiled.shapedAsCompiled_iff nests _⟩
  simp only [Shaper.completeEntry, isField, isFound, Shaper.complete,
    Bool.false_eq_true, if_false]
  rw [bind_pure_comp]

/--
The owner of a pet is one step along an edge, and the owner of a dog is stored
inside the dog.
-/
def kennelSchema : String :=
  "interface Pet@discriminator(property:\"kind\")@vertex(collection:\"pets\")" ++
    "\x7bowner:Man@edge(collection:\"has\")\x7d" ++
  "type Dog implements Pet\x7bowner:Man\x7d" ++
  "type Man\x7bname:ID\x7d" ++
  "type Query\x7bpets:[Pet]\x7d"

/-- The types of the schema. -/
def kennelTypes : Catalogue TypeDeclaration where
  items := [
    ⟨"Pet", .interface,
      ⟨[⟨"owner", .named "Man", ⟨some ⟨"has", .outbound⟩, none⟩⟩],
        by decide⟩,
      ⟨some ⟨"pets", .document⟩, some "kind", []⟩⟩,
    ⟨"Dog", .object ["Pet"],
      ⟨[⟨"owner", .named "Man", .none⟩], by decide⟩, .none⟩,
    ⟨"Man", .object [],
      ⟨[⟨"name", .named "ID", .none⟩], by decide⟩, .none⟩,
    ⟨"Query", .object [],
      ⟨[⟨"pets", .list (.named "Pet"), .none⟩], by decide⟩, .none⟩]
  distinct := by decide

/-- Answers fields of the schema. -/
def kennel : DataFetcher where
  model := ⟨kennelTypes, [], some "Query"⟩
  registry := ⟨[("Pet", ⟨"kind", [("Dog", "Dog")]⟩)], ["Pet"]⟩
  chain := .standard
  database := systemDatabase
  timeout := none

/-- The owner of a pet, with another key for the name. -/
def ownerSelection : FieldSelection :=
  (FieldSelection.ofName "owner").withNested
    ((FieldSelection.ofName "name").withLabel "label")

/-- The owners of all pets. -/
def petsSelection : FieldSelection :=
  (FieldSelection.ofName "pets").withNested ownerSelection

theorem petsSelection_distinct :
    petsSelection.Everywhere FieldSelection.HasDistinctKeys :=
  .intro (List.nodup_singleton _) <| List.forall_mem_singleton.mpr <|
    .intro (List.nodup_singleton _) <| List.forall_mem_singleton.mpr <|
      .intro List.nodup_nil fun _ member => nomatch member

/--
A dog is returned with its owner as a document of its own, but is shaped as if
the owner was stored inside it. The name of the owner is lost.
-/
theorem owner_of_dog_not_shaped_as_compiled :
    Model.ofText kennelSchema = .ok kennel.model ∧
      DiscriminatorRegistry.ofModel kennel.model = .ok kennel.registry ∧
      petsSelection.Everywhere FieldSelection.HasDistinctKeys ∧
      ∃ field fragment owner found,
        kennel.prepare petsSelection .root =
            .ok (.query field petsSelection fragment none) ∧
          Table.get? fragment.projection "owner" = some (.documents owner) ∧
          kennel.shaper.declaration? "Dog" "Pet" ownerSelection = some found ∧
          Shaper.fieldSource .document found = .embedded ∧
          (kennel.shape field petsSelection fragment.cardinality
            (FieldPath.root.key "pets")
            (.ok [.object [
              ("__meta", .object [("kind", .string "Dog")]),
              ("owner", .object [
                ("__meta", .object []),
                ("label", .string "Ada")])]])).data =
            some (.list [.object "Dog" [
              ("owner", .object "Man" [("label", .null)])]]) := by
  refine ⟨by decide +kernel, by rfl, petsSelection_distinct, ?_⟩
  exact ⟨_, _, _, _, rfl, rfl, rfl, rfl, rfl⟩

/-- The two declarations of the owner are why. -/
theorem owner_of_dog_stored_otherwise :
    ∃ field fragment used compiled found,
      kennel.prepare petsSelection .root =
          .ok (.query field petsSelection fragment none) ∧
        kennel.compiler.Nests
          ⟨field.type.namedType, petsSelection, .documents fragment⟩ used
          ⟨used.type.namedType, ownerSelection, compiled⟩ ∧
        kennel.shaper.declaration? "Dog" "Pet" ownerSelection = some found ∧
        ¬ Compiler.ShapedAsCompiled kennel.model .document
          ⟨used.type.namedType, ownerSelection, compiled⟩ found := by
  obtain ⟨field, fragment, prepared, isPet⟩ :
      ∃ field fragment,
        kennel.prepare petsSelection .root =
            .ok (.query field petsSelection fragment none) ∧
          field.type.namedType = "Pet" :=
    ⟨_, _, rfl, rfl⟩
  obtain ⟨-, -, used, compiled, nests, shaping⟩ :=
    nested_shapedAsCompiled_iff prepared petsSelection_distinct .here
      (List.mem_singleton_self ownerSelection) (by decide)
  obtain ⟨found, isOwn, isFound, -, asCompiled⟩ := shaping "Dog"
  dsimp only at isFound
  rw [isPet] at isFound
  refine ⟨field, fragment, used, compiled, found, prepared, nests, isFound, ?_⟩
  intro shaped
  have relation := (asCompiled.mp shaped).relation
  obtain ⟨owner, owned, declared⟩ := nests.uses
  dsimp only at owned
  rw [isPet] at owned
  have isOwner :
      kennel.compiler.ownerType "Pet" ownerSelection = .ok "Pet" := by
    rfl
  cases owned.symm.trans isOwner
  have isUsed :
      kennel.compiler.model.field? "Pet" ownerSelection.name =
        some ⟨"owner", .named "Man", ⟨some ⟨"has", .outbound⟩, none⟩⟩ := by
    rfl
  cases declared.symm.trans isUsed
  have ownsItself :
      kennel.model.field? "Dog" ownerSelection.name =
        some ⟨"owner", .named "Man", .none⟩ := by
    rfl
  rw [ownsItself, Option.getD_some] at isOwn
  subst isOwn
  cases (relation.mpr ⟨rfl, rfl⟩).2

end DataFetcher

end GraphGate
