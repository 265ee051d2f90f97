import GraphGate.Proofs.Compilation.Agreement
import GraphGate.Proofs.Response.Execution
import GraphGate.Proofs.Store.Fitting
import GraphGate.Proofs.Store.Selecting

namespace GraphGate

/-!
# Queries answer selections

The compiler turns a selection into a query, and the shaper turns the records of
the query into an answer. Together they give the answer that the store has. The
induction is on the selection: a record has just what the document tells about
itself and what is found for the selections nested in it.
-/

/--
What is asked of a selection, so that it can be answered from records: no two
nested selections share a response key, none has the key of the metadata, and no
argument is given twice.
-/
structure FieldSelection.IsAnswerable (selection : FieldSelection) : Prop where
  keys : selection.HasDistinctKeys
  noMeta : ∀ nested ∈ selection.nested, nested.responseKey ≠ metaKey
  arguments : (selection.arguments.map Prod.fst).Nodup

instance (selection : FieldSelection) : Decidable selection.IsAnswerable :=
  decidable_of_iff
    (selection.HasDistinctKeys ∧
      (∀ nested ∈ selection.nested, nested.responseKey ≠ metaKey) ∧
      (selection.arguments.map Prod.fst).Nodup)
    ⟨fun ⟨keys, noMeta, arguments⟩ => ⟨keys, noMeta, arguments⟩,
      fun ⟨keys, noMeta, arguments⟩ => ⟨keys, noMeta, arguments⟩⟩

/-- The metadata tells the same concrete type as the document. -/
theorem DiscriminatorRegistry.concreteType_metadata
    (registry : DiscriminatorRegistry)
    (type : String)
    (document : Json) :
    registry.concreteType type
        (Store.metadata
          ((registry.mapping? type).map DiscriminatorMapping.property)
          document) =
      registry.concreteType type document := by
  unfold concreteType
  cases registry.mapping? type with
  | none =>
      rfl
  | some mapping =>
      simp only [Option.map_some, Store.member?_metadata, Json.property]
      cases document.member? mapping.property <;> rfl

/-- A list is walked alike by functions that agree on its items. -/
theorem mapM_congr
    {m : Type → Type}
    [Monad m]
    [LawfulMonad m]
    {α β : Type}
    {items : List α}
    {first second : α → m β}
    (agree : ∀ item ∈ items, first item = second item) :
    items.mapM first = items.mapM second := by
  induction items with
  | nil =>
      rfl
  | cons item rest inductionHypothesis =>
      obtain ⟨head, others⟩ := List.forall_mem_cons.mp agree
      rw [List.mapM_cons, List.mapM_cons, head, inductionHypothesis others]

namespace Shaper

variable {shaper : Shaper} {store : Store} {selection : FieldSelection}
variable {source : RecordSource} {type : String}

/--
What is found is shaped to its answer, if it looks the same on a leaf type, if it
tells the same concrete type, and if the entries of the record are those of the
answer.
-/
theorem value_completeNamed
    (found : Found)
    (ofDocument : Json → Json)
    (distinct : selection.HasDistinctKeys)
    (leaf : shaper.model.isLeaf type = true →
      found.toJson ofDocument = found.toJson (Store.fieldless shaper type))
    (objects : ∀ document, (ofDocument document).isObject = true)
    (resolved : ∀ record, found.record? = some record →
      shaper.registry.concreteType type
          (typeRecord source (found.toJson ofDocument)) =
        shaper.registry.concreteType type record)
    (path : FieldPath)
    (entries : ∀ record concrete,
      found.record? = some record →
        shaper.registry.concreteType type record = .ok concrete →
          ∀ nested ∈ selection.nested,
            nested.IsMeantFor shaper.model concrete →
              (shaper.completeEntry concrete type source
                (found.toJson ofDocument) path nested).value =
                store.answerEntry shaper concrete type found nested) :
    (shaper.completeNamed selection source type (found.toJson ofDocument)
        path).value =
      store.answerNamed shaper selection type found := by
  obtain ⟨name, label, arguments, conditions, nested⟩ := selection
  rw [completeNamed_eq, Store.answerNamed]
  cases isLeaf : shaper.model.isLeaf type with
  | true =>
      rw [if_pos rfl, if_pos rfl, leaf isLeaf, Store.answerLeaf_eq]
      rfl
  | false =>
      rw [if_neg Bool.false_ne_true, if_neg Bool.false_ne_true,
        Found.isObject_toJson objects]
      cases isRecord : found.record? with
      | none =>
          rfl
      | some record =>
          simp only [Option.isSome_some, Bool.not_true, Bool.false_eq_true,
            if_false, resolved record isRecord]
          cases concreteType : shaper.registry.concreteType type record with
          | error cause =>
              rfl
          | ok concrete =>
              have applying :
                  shaper.answered concrete [] nested =
                    shaper.applying concrete nested :=
                answered_eq_applying distinct fun _ _ => List.not_mem_nil
              simp only [Completion.value_map, Completion.value_mapM, applying,
                Store.answerFields_eq]
              congr 1
              refine mapM_congr fun inner member => ?_
              obtain ⟨isNested, isMeant⟩ := mem_applying_iff.mp member
              exact entries record concrete isRecord concreteType inner isNested
                isMeant

/-- An entry is that of the answer, if its field is shaped to what fits. -/
theorem value_completeEntry
    {found : Found}
    {concrete declared : String}
    {record : Json}
    {path : FieldPath}
    (fits : ∀ field,
      selection.isTypename = false →
        shaper.declaration? concrete declared selection = some field →
          (shaper.complete field.type
            (fieldValue source record selection.responseKey field) selection
            (fieldSource source field)
            (path.key selection.responseKey)).value =
            Found.fit (store.answerNamed shaper selection) field.type
              (store.find field selection found)) :
    (shaper.completeEntry concrete declared source record path
        selection).value =
      store.answerEntry shaper concrete declared found selection := by
  rcases shaper.completeEntry_outcome concrete declared source record path
      selection with
    ⟨typename, isName⟩ | ⟨isField, undeclared, cause, isNull⟩ |
    ⟨isField, field, declaration, shaped⟩
  · simp [isName, Store.answerEntry, typename]
  · simp [isNull, Store.answerEntry, isField, undeclared]
  · rw [shaped, Completion.value_map]
    simp only [Store.answerEntry, isField, declaration, Bool.false_eq_true,
      if_false, ← fits field isField declaration]
    rfl

/-- A value stored inside a document is shaped to its answer. -/
theorem value_completeNamed_embedded
    (answerable :
      selection.Everywhere FieldSelection.IsAnswerable)
    (value : Json)
    (path : FieldPath) :
    (shaper.completeNamed selection .embedded type value path).value =
      store.answerNamed shaper selection type (.value value) := by
  induction selection using FieldSelection.tree_induction
    generalizing type value path with
  | node selection inductionHypothesis =>
      refine value_completeNamed (.value value) (fun _ => .object [])
        answerable.here.keys (fun _ => rfl) (fun _ => rfl) ?_ path ?_
      · intro record isRecord
        simp only [Found.record?] at isRecord
        split at isRecord
        · cases isRecord
          rfl
        · cases isRecord
      · intro record concrete _ _ nested member _
        refine value_completeEntry fun field _ _ => ?_
        refine Completion.value_complete_stored ?_ (value.property field.name) _
        intro value path _
        exact inductionHypothesis nested member (answerable.inside member)
          value path

end Shaper

namespace Compiler

/--
The shaper reads the fields of a document after the declarations that they were
compiled by.
-/
def ReadsAsCompiled
    (compiler : Compiler)
    (type : String)
    (selection : FieldSelection)
    (document : Json) : Prop :=
  ∀ concrete nested used,
    compiler.registry.concreteType type document = .ok concrete →
      nested ∈ selection.nested →
        nested.IsMeantFor compiler.model concrete →
          nested.isTypename = false →
            compiler.Uses type nested used →
              compiler.shaper.declaration? concrete type nested = some used

variable {compiler : Compiler} {store : Store} {selection : FieldSelection}

/-- It is enough that a concrete type declares a field as it was compiled, if it declares it. -/
theorem readsAsCompiled_of_own
    {type : String}
    {document : Json}
    (same : ∀ concrete nested used own,
      compiler.registry.concreteType type document = .ok concrete →
        nested ∈ selection.nested →
          compiler.Uses type nested used →
            compiler.model.field? concrete nested.name = some own →
              own = used) :
    compiler.ReadsAsCompiled type selection document := by
  intro concrete nested used resolved member _ _ uses
  rw [declaration?_of_uses uses]
  cases own : compiler.model.field? concrete nested.name with
  | none =>
      rfl
  | some declaration =>
      rw [same concrete nested used declaration resolved member uses own]
      rfl

/-- Nothing is nested in a field of a leaf type. -/
theorem nested_eq_nil_of_checkSelected
    {parentType resultType : String}
    (selected :
      compiler.checkSelected parentType selection resultType = .ok ())
    (leaf : compiler.model.isLeaf resultType = true) :
    selection.nested = [] := by
  rw [checkSelected_eq_ok_iff, leaf] at selected
  exact List.isEmpty_iff.mp selected.symm

/-- The sub-query of a relation returns the records of what the relation finds. -/
theorem entryValue_traversal
    {owner loop : String}
    {path : List String}
    {used : FieldDeclaration}
    {relation : RelationDirective}
    {arguments : CompiledArguments}
    (distinct : (selection.arguments.map Prod.fst).Nodup)
    (argued : CompiledArguments.ofSelection owner selection = .ok arguments)
    (isRelation : used.directives.relation = some relation)
    (bindings : Bindings)
    (scope : Scope)
    (projection : List (String × QueryFragment)) :
    let fragment :=
      (compiler.context owner scope path selection used arguments).fragment
        (.traversal (.loop loop) relation.direction relation.collection)
        projection
    store.entryValue bindings (.documents fragment) =
      (store.find used selection (.document (bindings.loop loop))).toJson
        (store.recordOf bindings fragment) := by
  intro fragment
  have extended :=
    CompiledArguments.extends_none_of_ofSelection distinct argued
  rw [Store.entryValue, Store.records_eq, Store.find, isRelation]
  exact Store.subquery_eq_pick extended
    (CompileContext.cardinality_eq_many_iff
      (compiler.context owner scope path selection used arguments))
    _ _

/-- The value of a field in a record is its entry in the projection. -/
theorem fieldValue_recordOf
    {bindings : Bindings}
    {fragment : DocumentsFragment}
    {key : String}
    {compiled : QueryFragment}
    (notMeta : key ≠ metaKey)
    (present : Table.get? fragment.projection key = some compiled)
    (document : Json)
    (field : FieldDeclaration) :
    Shaper.fieldValue .document (store.recordOf bindings fragment document) key
        field =
      store.entryValue (bindings.bind fragment.loop document) compiled := by
  simp [Shaper.fieldValue, Store.member?_recordOf notMeta, present]

/-- Records are objects. -/
theorem isObject_recordOf
    (bindings : Bindings)
    (fragment : DocumentsFragment)
    (document : Json) :
    (store.recordOf bindings fragment document).isObject = true :=
  rfl

/--
The entry of a nested field in a record is shaped to what fits the field, if the
records of its own documents are shaped to their answers.
-/
theorem value_complete_entryValue
    (answerable : selection.Everywhere FieldSelection.IsAnswerable)
    {owner loop : String}
    {path : List String}
    {compiled : QueryFragment}
    {used : FieldDeclaration}
    (declared : compiler.model.field? owner selection.name = some used)
    (accepts :
      compiler.Accepts owner (.document loop) path selection compiled)
    {bindings : Bindings}
    {document : Json}
    (bound : bindings.loop loop = document)
    (inner : ∀ fragment found place,
      compiled = .documents fragment →
        found.isStored = false →
          found.allDocuments ⊆
              (store.find used selection (.document document)).allDocuments →
            (compiler.shaper.completeNamed selection .document
                used.type.namedType
                (found.toJson (store.recordOf bindings fragment))
                place).value =
              store.answerNamed compiler.shaper selection used.type.namedType
                found)
    (place : FieldPath) :
    (compiler.shaper.complete used.type (store.entryValue bindings compiled)
        selection (Shaper.fieldSource .document used) place).value =
      Found.fit (store.answerNamed compiler.shaper selection) used.type
        (store.find used selection (.document document)) := by
  subst bound
  cases accepts with
  | documents isDeclared _ argued feeds _ =>
      cases declared.symm.trans isDeclared
      cases feeds with
      | traversal isRelation scope =>
          cases scope
          simp only [context] at isRelation
          have isDocument : Shaper.fieldSource .document used = .document := by
            simp [Shaper.fieldSource, isRelation]
          have notStored :
              (store.find used selection
                (.document (bindings.loop loop))).isStored = false := by
            rw [Store.find, isRelation]
            exact Store.isStored_pick _ _ _
          rw [entryValue_traversal answerable.here.arguments argued isRelation,
            isDocument]
          exact Completion.value_complete_documents
            (isObject_recordOf bindings _)
            (fun notStored _ among => inner _ _ _ rfl notStored among)
            notStored place
      | traversalFromStart _ scope =>
          cases scope
      | scan _ scope _ =>
          cases scope
  | property isDeclared _ _ isRelation inside _ =>
      cases declared.symm.trans isDeclared
      cases inside with
      | inr scope =>
          cases scope
      | inl scope =>
          cases scope
          have isEmbedded : Shaper.fieldSource .document used = .embedded := by
            simp [Shaper.fieldSource, isRelation]
          rw [Store.entryValue, isEmbedded, Store.find, isRelation]
          exact Completion.value_complete_stored
            (fun _ => Shaper.value_completeNamed_embedded answerable _ _) _
            place

/--
The records of documents that are compiled for a selection are shaped to the
answer of the selection for these documents.
-/
theorem value_completeNamed_documents
    (answerable : selection.Everywhere FieldSelection.IsAnswerable)
    {parentType : String}
    {scope : Scope}
    {keys : List String}
    {fragment : DocumentsFragment}
    {field : FieldDeclaration}
    (declared :
      compiler.model.field? parentType selection.name = some field)
    (accepts :
      compiler.Accepts parentType scope keys selection (.documents fragment))
    (bindings : Bindings)
    {found : Found}
    (notStored : found.isStored = false)
    (agrees : ∀ document ∈ found.allDocuments,
      ∀ type visited next,
        store.Visits compiler.shaper field.type.namedType selection document
            type visited next →
          compiler.ReadsAsCompiled type visited next)
    (path : FieldPath) :
    (compiler.shaper.completeNamed selection .document field.type.namedType
        (found.toJson (store.recordOf bindings fragment)) path).value =
      store.answerNamed compiler.shaper selection field.type.namedType
        found := by
  induction selection using FieldSelection.tree_induction
    generalizing parentType scope keys fragment field bindings found path with
  | node selection inductionHypothesis =>
      obtain ⟨selected, discriminator, projected⟩ :=
        accepts.of_documents declared
      refine Shaper.value_completeNamed found _ answerable.here.keys ?_
        (isObject_recordOf bindings fragment) ?_ path ?_
      · intro leaf
        rw [nested_eq_nil_of_checkSelected selected leaf, compileProjection,
          Except.ok.injEq] at projected
        congr 1
        funext document
        rw [Store.recordOf, ← projected, discriminator]
        rfl
      · intro document isRecord
        cases Found.eq_document_of_record? notStored isRecord
        simp only [Found.toJson, Shaper.typeRecord,
          Store.member?_metaKey_recordOf, Option.getD_some, discriminator]
        exact compiler.registry.concreteType_metadata _ document
      · intro document concrete isRecord resolved nested member isMeant
        cases Found.eq_document_of_record? notStored isRecord
        refine Shaper.value_completeEntry fun used isField isFound => ?_
        obtain ⟨compiled, ⟨owner, owned, accepted⟩, present⟩ :=
          acceptsNested_of_compileProjection projected answerable.here.keys
            (fun _ _ => Table.get?_nil _) member isField
        obtain ⟨field, other, otherOwned, declared⟩ :=
          uses_of_acceptsNested ⟨owner, owned, accepted⟩
        cases owned.symm.trans otherOwned
        have isUsed :=
          agrees document List.mem_cons_self _ _ _ .here concrete nested field
            resolved member isMeant isField ⟨owner, owned, declared⟩
        cases isFound.symm.trans isUsed
        have notMeta := answerable.here.noMeta nested member
        have accepts := accepts_of_compileField accepted
        rw [Found.toJson, fieldValue_recordOf notMeta present]
        refine value_complete_entryValue (answerable.inside member) declared
          accepts (Bindings.loop_bind_self _ _ _) ?_ _
        intro inner part place isDocuments notStored among
        subst isDocuments
        refine inductionHypothesis nested member (answerable.inside member)
          declared accepts _ notStored ?_ place
        intro next isNext type visited last visits
        exact agrees document List.mem_cons_self _ _ _
          (.inside resolved member isMeant isField isUsed (among isNext) visits)

/-- The records of a root field are those of what the field finds at the root. -/
theorem rawValue_scan
    {parentType collection : String}
    {path : List String}
    {field : FieldDeclaration}
    {arguments : CompiledArguments}
    (distinct : (selection.arguments.map Prod.fst).Nodup)
    (argued :
      CompiledArguments.ofSelection parentType selection = .ok arguments)
    (stored :
      compiler.model.collectionFor? field.type.namedType = some collection)
    (projection : List (String × QueryFragment)) :
    let fragment :=
      (compiler.context parentType .root path selection field
        arguments).fragment (.collection collection) projection
    DataFetcher.rawValue fragment.cardinality (store.records .none fragment) =
      (store.root compiler.model field selection).toJson
        (store.recordOf .none fragment) := by
  intro fragment
  have extended :=
    CompiledArguments.extends_none_of_ofSelection distinct argued
  have sameValue (cardinality : Cardinality) (records : List Json) :
      DataFetcher.rawValue cardinality records =
        Store.subquery cardinality records := by
    cases cardinality <;> rfl
  rw [sameValue, Store.records_eq, Store.root, stored]
  exact Store.subquery_eq_pick extended
    (CompileContext.cardinality_eq_many_iff
      (compiler.context parentType .root path selection field arguments))
    _ _

end Compiler

namespace DataFetcher

variable {σ : Type}

/--
A field of the query type is answered as the store answers it, if the database
evaluates the query of the field over the store, and if the shaper reads every
document that is visited after the declarations its fields were compiled by.
-/
theorem fetch_eq_answer
    {fetcher : DataFetcher}
    {selection : FieldSelection}
    {fragment : DocumentsFragment}
    (accepted : fetcher.compile selection .root = .ok fragment)
    (answerable : selection.Everywhere FieldSelection.IsAnswerable)
    (store : Store)
    (agrees : ∀ type visited document,
      store.VisitsFromRoot fetcher.shaper selection type visited document →
        fetcher.compiler.ReadsAsCompiled type visited document)
    (answer : σ → (command : Command) → command.Reply × σ)
    (state : σ)
    (evaluates :
      (answer state
        (.query fetcher.database fragment.render fetcher.timeout)).1 =
          .finished (.ok (store.records .none fragment))) :
    (Dialogue.run answer state (fetcher.fetch selection .root)).1.data =
      store.answer fetcher.shaper selection := by
  obtain ⟨field, asked, start, prepared⟩ := compile_eq_ok_iff.mp accepted
  obtain ⟨rfl, parentType, scope, resolved, declared, compiled⟩ :=
    accepted_of_prepare prepared
  have isRoot :
      fetcher.model.queryField? asked.name = some field ∧ scope = .root := by
    unfold resolveParent at resolved
    cases queryType : fetcher.model.queryType? with
    | none =>
        simp only [queryType] at resolved
        cases resolved
    | some queryType =>
        simp only [queryType] at resolved
        cases resolved
        simpa [Model.queryField?, queryType] using declared
  obtain ⟨isField, rfl⟩ := isRoot
  have accepts := Compiler.accepts_of_compileField compiled
  have isAnswer :
      store.answer fetcher.shaper asked =
        Found.fit (store.answerNamed fetcher.shaper asked) field.type
          (store.root fetcher.model field asked) := by
    unfold Store.answer
    have found : fetcher.shaper.model.queryField? asked.name = some field :=
      isField
    rw [found]
    rfl
  rw [isAnswer]
  simp only [fetch, prepared, run_executePrepared]
  cases accepts with
  | documents isDeclared _ argued feeds _ =>
      cases declared.symm.trans isDeclared
      cases feeds with
      | traversal _ scope =>
          cases scope
      | traversalFromStart _ scope =>
          cases scope
      | scan _ _ stored =>
          have isStored :
              fetcher.compiler.model.collectionFor? field.type.namedType =
                some _ :=
            stored
          rw [DocumentsFragment.run_execute rfl evaluates]
          simp only [shape]
          rw [Compiler.rawValue_scan answerable.here.arguments argued isStored]
          refine Completion.value_complete_documents
            (Compiler.isObject_recordOf _ _) ?_ (Store.isStored_pick _ _ _) _
          intro part place notStored _ among
          refine Compiler.value_completeNamed_documents answerable declared
            (Compiler.accepts_of_compileField compiled) _ notStored ?_ place
          intro document member type visited next visits
          exact agrees type visited next
            ⟨field, document, isField, among member, visits⟩

/-- What a pet is, whether it is a dog or not. -/
def petFields : Catalogue FieldDeclaration where
  items := [
    ⟨"name", .named "ID", .none⟩,
    ⟨"owner", .named "Man", ⟨some ⟨"has", .inbound⟩, none⟩⟩]
  distinct := by decide

/-- Dogs are as pets are. -/
def shelterTypes : Catalogue TypeDeclaration where
  items := [
    ⟨"Pet", .interface, petFields,
      ⟨some ⟨"pets", .document⟩, some "kind", []⟩⟩,
    ⟨"Dog", .object ["Pet"], petFields, .none⟩,
    ⟨"Man", .object [],
      ⟨[⟨"name", .named "String", .none⟩], by decide⟩, .none⟩,
    ⟨"Query", .object [],
      ⟨[⟨"pets", .nonNull (.list (.named "Pet")), .none⟩], by decide⟩, .none⟩]
  distinct := by decide

/-- Answers fields of a schema in which dogs are as pets are. -/
def shelter : DataFetcher where
  model := ⟨shelterTypes, [], some "Query"⟩
  registry := ⟨[("Pet", ⟨"kind", [("Dog", "Dog")]⟩)], ["Pet"]⟩
  chain := .standard
  database := systemDatabase
  timeout := none

/-- Two dogs, one of which has an owner. -/
def shelterStore : Store where
  documents := [
    ("pets", [
      .object [
        ("_id", .string "pets/1"), ("kind", .string "Dog"),
        ("name", .string "Rex")],
      .object [
        ("_id", .string "pets/2"), ("kind", .string "Dog"),
        ("name", .string "Bello")]]),
    ("men", [.object [("_id", .string "men/1"), ("name", .string "Ada")]])]
  edges := [("has", [⟨"men/1", "pets/1"⟩])]
  equal first second := first.string? == second.string?

/-- Rex and the owner of Rex. -/
def rexSelection : FieldSelection where
  name := "pets"
  label := none
  arguments := [("name", .string "Rex")]
  conditions := []
  nested := [
    .ofName "name",
    (FieldSelection.ofName "owner").withNested
      ((FieldSelection.ofName "name").withLabel "label")]

/-- A database that answers every query with the same records. -/
def answering (records : List Json) :
    Unit → (command : Command) → command.Reply × Unit
  | _, .createDatabase _ => (.ok (), ())
  | _, .collectionKind _ _ => (.ok none, ())
  | _, .createCollection _ _ _ => (.ok (), ())
  | _, .ensureIndex _ _ _ => (.ok (), ())
  | _, .query _ _ _ => (.finished (.ok records), ())

theorem rexSelection_answerable :
    rexSelection.Everywhere FieldSelection.IsAnswerable := by
  refine .intro (by decide) (List.forall_mem_cons.mpr ⟨?_, ?_⟩)
  · exact .intro (by decide) fun _ member => nomatch member
  · refine List.forall_mem_singleton.mpr (.intro (by decide) ?_)
    refine List.forall_mem_singleton.mpr (.intro (by decide) ?_)
    exact fun _ member => nomatch member

/-- Nothing nested in the selection has a type condition. -/
theorem rexSelection_unconditional :
    rexSelection.Everywhere fun selection =>
      ∀ nested ∈ selection.nested, nested.conditions = [] := by
  refine .intro (by decide) (List.forall_mem_cons.mpr ⟨?_, ?_⟩)
  · exact .intro (by decide) fun _ member => nomatch member
  · refine List.forall_mem_singleton.mpr (.intro (by decide) ?_)
    refine List.forall_mem_singleton.mpr (.intro (by decide) ?_)
    exact fun _ member => nomatch member

/-- In the shelter, a concrete type is the declared one, or a dog for a pet. -/
theorem concreteType_shelter
    {type concrete : String}
    {document : Json}
    (resolved :
      shelter.registry.concreteType type document = .ok concrete) :
    concrete = type ∨ type = "Pet" ∧ concrete = "Dog" := by
  have registry :
      shelter.registry =
        ⟨[("Pet", ⟨"kind", [("Dog", "Dog")]⟩)], ["Pet"]⟩ :=
    rfl
  by_cases isPet : "Pet" = type
  · subst isPet
    simp only [registry, DiscriminatorRegistry.concreteType,
      DiscriminatorRegistry.mapping?, Table.get?_cons, if_true] at resolved
    split at resolved
    · cases resolved
    · cases resolved
    · split at resolved
      · rename_i found
        cases resolved
        split at found
        · cases found
          exact .inr ⟨rfl, rfl⟩
        · cases found
      · cases resolved
    · cases resolved
  · simp only [registry, DiscriminatorRegistry.concreteType,
      DiscriminatorRegistry.mapping?, Table.get?_cons, isPet, if_false,
      Table.get?_nil] at resolved
    split at resolved
    · cases resolved
    · cases resolved
      exact .inl rfl

/-- In the shelter, fields without type conditions are read as they are compiled. -/
theorem readsAsCompiled_shelter
    {type : String}
    {selection : FieldSelection}
    (unconditional : ∀ nested ∈ selection.nested, nested.conditions = [])
    (document : Json) :
    shelter.compiler.ReadsAsCompiled type selection document := by
  refine Compiler.readsAsCompiled_of_own ?_
  rintro concrete nested used own resolved member ⟨owner, owned, declared⟩ found
  rw [Compiler.ownerType, unconditional nested member] at owned
  cases owned
  rcases concreteType_shelter resolved with same | ⟨isPet, isDog⟩
  · rw [same] at found
    exact Option.some.inj (found.symm.trans declared)
  · rw [isDog] at found
    rw [isPet] at declared
    exact Option.some.inj (found.symm.trans declared)

/-- In the shelter, Rex is answered as it is stored. -/
theorem fetch_rex_eq_answer :
    ∃ fragment,
      shelter.compile rexSelection .root = .ok fragment ∧
        (Dialogue.run (answering (shelterStore.records .none fragment)) ()
          (shelter.fetch rexSelection .root)).1.data =
          some (.list [.object "Dog" [
            ("name", .scalar (.string "Rex")),
            ("owner", .object "Man" [("label", .scalar (.string "Ada"))])]]) := by
  obtain ⟨fragment, accepted⟩ :
      ∃ fragment, shelter.compile rexSelection .root = .ok fragment :=
    ⟨_, rfl⟩
  refine ⟨fragment, accepted, ?_⟩
  have agrees (type : String) (visited : FieldSelection) (document : Json)
      (visits :
        shelterStore.VisitsFromRoot shelter.shaper rexSelection type visited
          document) :
      shelter.compiler.ReadsAsCompiled type visited document := by
    obtain ⟨field, first, -, -, visits⟩ := visits
    have unconditional := visits.everywhere rexSelection_unconditional
    exact readsAsCompiled_shelter unconditional.here document
  rw [fetch_eq_answer accepted rexSelection_answerable shelterStore agrees
    (answering (shelterStore.records .none fragment)) () rfl]
  rfl

end DataFetcher

end GraphGate
