import GraphGate.Aql.Rendering

namespace GraphGate

/-!
# What a fragment tree reads

A store has documents and edges. A fragment tree is evaluated over a store the
way its query reads: it loops over a collection or over the documents one step
away, keeps those that pass the filters, takes a part of them, and returns for
each its metadata and every entry of the projection. The comparison of values is
left to the store.
-/

/-- An edge from one document to another, given by their ids. -/
structure Edge where
  source : String
  target : String
deriving Repr, DecidableEq

/-- Documents and edges by collection. -/
structure Store where
  documents : Table (List Json)
  edges : Table (List Edge)
  /-- Whether two values are equal to the database. -/
  equal : Json → Json → Bool

/-- A property of a document, null if the document has none. -/
def Json.property (document : Json) (name : String) : Json :=
  (document.member? name).getD .null

namespace Store

/-- The property that holds the id of a document. -/
def idProperty : String := "_id"

/-- The id of a document, which may be given by the id itself. -/
def idOf? : Json → Option String
  | .string id => some id
  | document => (document.property idProperty).string?

variable (store : Store)

/-- The documents of a collection. -/
def documentsIn (collection : String) : List Json :=
  (store.documents.get? collection).getD []

/-- The document of an id, null if there is none. -/
def vertex (id : String) : Json :=
  ((store.documents.flatMap Prod.snd).find? fun document =>
    idOf? document = some id).getD .null

/-- The far end of an edge that touches a document in a direction. -/
def farEnd? (direction : Direction) (id : String) (edge : Edge) :
    Option String :=
  match direction with
  | .outbound => if edge.source = id then some edge.target else none
  | .inbound => if edge.target = id then some edge.source else none

/-- The documents one step away from a document, one for each edge. -/
def neighbours
    (direction : Direction)
    (collection : String)
    (start : Json) : List Json :=
  match idOf? start with
  | none => []
  | some id =>
      (((store.edges.get? collection).getD []).filterMap
        (farEnd? direction id)).map store.vertex

end Store

/-- What the start parameter and the loop variables of a query stand for. -/
structure Bindings where
  start : Json
  loops : Table Json

namespace Bindings

/-- Nothing is bound. -/
def none : Bindings :=
  ⟨.null, []⟩

/-- The document that a loop variable is bound to. -/
def loop (bindings : Bindings) (name : String) : Json :=
  (bindings.loops.get? name).getD .null

/-- Binds a loop variable to a document. -/
def bind (bindings : Bindings) (name : String) (document : Json) : Bindings :=
  { bindings with loops := Table.put name document bindings.loops }

@[simp] theorem loop_bind_self
    (bindings : Bindings)
    (name : String)
    (document : Json) :
    (bindings.bind name document).loop name = document := by
  simp [loop, bind, Table.get?_put_self]

end Bindings

namespace Store

/-- The documents of a source. -/
def sourceDocuments (store : Store) (bindings : Bindings) :
    DocumentSource → List Json
  | .collection name => store.documentsIn name
  | .traversal (.loop name) direction edges =>
      store.neighbours direction edges (bindings.loop name)
  | .traversal .parameter direction edges =>
      store.neighbours direction edges bindings.start

/-- Whether a document passes all filters. -/
def passes (store : Store) (filters : List Filter) (document : Json) : Bool :=
  filters.all fun filter =>
    store.equal (document.property filter.property) filter.value

/-- The part of the documents that a query is limited to. -/
def part
    (cardinality : Cardinality)
    (pagination : Pagination)
    (documents : List Json) : List Json :=
  match pagination.offset, pagination.limit with
  | none, none =>
      match cardinality with
      | .many => documents
      | .one => documents.take 1
  | none, some limit => documents.take limit
  | some offset, limit =>
      (documents.drop offset).take
        (limit.getD (DocumentsFragment.defaultLimit cardinality))

/-- The metadata that is returned with a document. -/
def metadata (discriminator : Option String) (document : Json) : Json :=
  .object
    ((idProperty, document.property idProperty) ::
      discriminator.toList.map fun property =>
        (property, document.property property))

/-- The value of a sub-query: all its records, or the first one. -/
def subquery (cardinality : Cardinality) (records : List Json) : Json :=
  match cardinality with
  | .many => .array records
  | .one => records.head?.getD .null

mutual

/-- What a fragment tree returns for the documents that it selects. -/
def records (store : Store) (bindings : Bindings) :
    DocumentsFragment → List Json
  | ⟨loop, source, filters, pagination, discriminator, projection,
      cardinality⟩ =>
      let selected :=
        part cardinality pagination
          ((store.sourceDocuments bindings source).filter
            (store.passes filters))
      selected.map fun document =>
        .object
          ((metaKey, metadata discriminator document) ::
            store.entries (bindings.bind loop document) projection)

/-- The entries of a projection. -/
def entries (store : Store) (bindings : Bindings) :
    List (String × QueryFragment) → List (String × Json)
  | [] => []
  | (key, .property loop name) :: rest =>
      (key, (bindings.loop loop).property name) :: store.entries bindings rest
  | (key, .documents fragment) :: rest =>
      (key, subquery fragment.cardinality (store.records bindings fragment)) ::
        store.entries bindings rest

end

/-- What a fragment returns for one document. -/
def recordOf
    (store : Store)
    (bindings : Bindings)
    (fragment : DocumentsFragment)
    (document : Json) : Json :=
  .object
    ((metaKey, metadata fragment.discriminator document) ::
      store.entries (bindings.bind fragment.loop document) fragment.projection)

/-- The value of one entry of a projection. -/
def entryValue (store : Store) (bindings : Bindings) : QueryFragment → Json
  | .property loop name => (bindings.loop loop).property name
  | .documents fragment =>
      subquery fragment.cardinality (store.records bindings fragment)

variable {store : Store} {bindings : Bindings}

/-- A fragment returns one record for each document of its part. -/
theorem records_eq (fragment : DocumentsFragment) :
    store.records bindings fragment =
      (part fragment.cardinality fragment.pagination
        ((store.sourceDocuments bindings fragment.source).filter
          (store.passes fragment.filters))).map
        (store.recordOf bindings fragment) := by
  cases fragment
  simp only [records]
  rfl

/-- An entry has the key of its fragment in the projection. -/
theorem get?_entries (projection : List (String × QueryFragment)) (key : String) :
    Table.get? (store.entries bindings projection) key =
      (Table.get? projection key).map (store.entryValue bindings) := by
  induction projection with
  | nil =>
      simp [entries]
  | cons entry rest inductionHypothesis =>
      obtain ⟨other, compiled⟩ := entry
      by_cases same : other = key
      · cases compiled <;> simp [entries, Table.get?_cons, same, entryValue]
      · cases compiled <;>
          simp [entries, Table.get?_cons, same, inductionHypothesis]

/-- The metadata of a record stands under its own key. -/
theorem member?_metaKey_recordOf
    (fragment : DocumentsFragment)
    (document : Json) :
    (store.recordOf bindings fragment document).member? metaKey =
      some (metadata fragment.discriminator document) := by
  simp [recordOf, Json.member?, Table.get?_cons]

/-- Any other member of a record is an entry of the projection. -/
theorem member?_recordOf
    {fragment : DocumentsFragment}
    {key : String}
    (notMeta : key ≠ metaKey)
    (document : Json) :
    (store.recordOf bindings fragment document).member? key =
      (Table.get? fragment.projection key).map
        (store.entryValue (bindings.bind fragment.loop document)) := by
  have different : ¬ metaKey = key := fun same => notMeta same.symm
  simp [recordOf, Json.member?, Table.get?_cons, different, get?_entries]

/-- The metadata has the discriminator of the document. -/
theorem member?_metadata (property : String) (document : Json) :
    (metadata (some property) document).member? property =
      some (document.property property) := by
  by_cases isId : idProperty = property
  · simp [metadata, Json.member?, Table.get?_cons, isId]
  · simp [metadata, Json.member?, Table.get?_cons, isId]

end Store

end GraphGate
