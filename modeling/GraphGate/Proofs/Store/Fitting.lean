import GraphGate.Proofs.Response.Completion
import GraphGate.Proofs.Store.Answer

namespace GraphGate

/-!
# Shaping fits values to types

Shaping a value after a type gives what fitting gives, which knows neither paths
nor failures. So it is enough to compare the two at named types.
-/

namespace Found

variable {record : Json → Json} {found : Found}

/-- What has items is an array of their values. -/
theorem toJson_of_items?
    {parts : List Found}
    (several : found.items? = some parts) :
    found.toJson record = .array (parts.map (toJson record)) := by
  cases found with
  | nothing =>
      cases several
  | document json =>
      cases several
  | documents items =>
      cases several
      simp [toJson]
  | value json =>
      cases json with
      | array items =>
          cases several
          have same : toJson record ∘ Found.value = id :=
            rfl
          simp [toJson, same]
      | null =>
          cases several
      | bool value =>
          cases several
      | number value =>
          cases several
      | string value =>
          cases several
      | object members =>
          cases several

/-- What is something is no null. -/
theorem isNull_toJson
    (objects : ∀ document, (record document).isObject = true)
    (found : Found) :
    (found.toJson record).isNull = found.isNothing := by
  cases found with
  | nothing =>
      rfl
  | value json =>
      rfl
  | documents items =>
      rfl
  | document json =>
      have object := objects json
      cases shape : record json <;>
        simp [toJson, isNothing, Json.isNull, Json.isObject, shape] at object ⊢

/-- Fields can be selected on what is an object, and on nothing else. -/
theorem isObject_toJson
    (objects : ∀ document, (record document).isObject = true)
    (found : Found) :
    (found.toJson record).isObject = found.record?.isSome := by
  cases found with
  | nothing =>
      rfl
  | value json =>
      cases json <;> rfl
  | document json =>
      exact objects json
  | documents items =>
      rfl

/-- Apart from stored objects, only a single document has fields. -/
theorem eq_document_of_record?
    (notStored : found.isStored = false)
    {document : Json}
    (isRecord : found.record? = some document) :
    found = .document document := by
  cases found with
  | nothing =>
      cases isRecord
  | value json =>
      cases notStored
  | document json =>
      cases isRecord
      rfl
  | documents items =>
      cases isRecord

end Found

namespace Completion

variable {field : String}
variable {named : String → Json → FieldPath → Completion ResultNode}
variable {answer : String → Found → Option ResultNode}
variable {record : Json → Json}

theorem value_require
    (path : FieldPath)
    (completion : Completion ResultNode) :
    (require field path completion).value =
      completion.value.filter fun node => !node.isNull := by
  cases found : completion.value with
  | none =>
      simp [require, found]
  | some node =>
      cases null : node.isNull <;>
        simp [require, found, null, Option.filter_some]

/-- A place that must not be null has the shape of the type inside, if that is none. -/
theorem value_complete_nonNull
    (inner : TypeRef)
    (value : Json)
    (path : FieldPath) :
    (complete field named (.nonNull inner) value path).value =
      (complete field named inner value path).value.filter
        fun node => !node.isNull := by
  have required :
      complete field named (.nonNull inner) value path =
        require field path (attempt field named inner value path) :=
    rfl
  rw [required, value_require]
  cases nonNull : inner.isNonNull with
  | false =>
      rw [complete_nullable nonNull, value_absorb]
      cases (attempt field named inner value path).value <;> rfl
  | true =>
      cases inner with
      | named name =>
          cases nonNull
      | list item =>
          cases nonNull
      | nonNull inner =>
          cases null : value.isNull with
          | true =>
              cases value <;> cases null
              rw [attempt_null, complete_nonNull_null]
              rfl
          | false =>
              rw [complete_nonNull null]

/-- What has no items is no list. -/
theorem value_listOf_of_no_items
    (objects : ∀ document, (record document).isObject = true)
    {found : Found}
    (single : found.items? = none)
    (each : Json → FieldPath → Completion ResultNode)
    (path : FieldPath) :
    (listOf field each (found.toJson record) path).value.getD .null =
      .null := by
  rcases listOf_outcome field each (found.toJson record) path with
    ⟨-, shaped⟩ | ⟨values, isArray, -⟩ | ⟨-, cause, shaped⟩
  · rw [shaped]
    rfl
  · cases found with
    | nothing =>
        cases isArray
    | documents items =>
        cases single
    | value json =>
        simp only [Found.toJson] at isArray
        subst isArray
        cases single
    | document json =>
        have object := objects json
        simp only [Found.toJson] at isArray
        rw [isArray] at object
        cases object
  · rw [shaped]
    rfl

/-- Items that are shaped to what fits them make a list that fits. -/
theorem value_items
    {each : Json → FieldPath → Completion ResultNode}
    {fitted : Found → Option ResultNode}
    {parts : List Found}
    (agree : ∀ part ∈ parts, ∀ path,
      (each (part.toJson record) path).value = fitted part)
    (path : FieldPath)
    (index : Nat) :
    (items each path index (parts.map (Found.toJson record))).value =
      parts.mapM fitted := by
  induction parts generalizing index with
  | nil =>
      rfl
  | cons part rest inductionHypothesis =>
      obtain ⟨first, others⟩ := List.forall_mem_cons.mp agree
      simp only [List.map_cons, items, value_bind, value_pure, first,
        inductionHypothesis others, List.mapM_cons]
      rfl

/--
If shaping agrees with the answer at named types, for everything of a kind that
is closed under items, then it agrees with fitting after every type.
-/
theorem value_complete_eq_fit
    (objects : ∀ document, (record document).isObject = true)
    {holds : Found → Prop}
    (closed : ∀ {found items},
      holds found → found.items? = some items → ∀ item ∈ items, holds item)
    {type : TypeRef}
    (agree : ∀ {found path},
      holds found →
        found.isNothing = false →
          (named type.namedType (found.toJson record) path).value =
            answer type.namedType found)
    {found : Found}
    (held : holds found)
    (path : FieldPath) :
    (complete field named type (found.toJson record) path).value =
      found.fit answer type := by
  induction type generalizing found path with
  | named name =>
      rw [complete_nullable rfl, value_absorb, attempt, Found.fit,
        Found.isNull_toJson objects]
      cases nothing : found.isNothing with
      | true =>
          rfl
      | false =>
          simp only [Bool.false_eq_true, if_false, Option.some.injEq]
          have agrees :
              (named name (found.toJson record) path).value =
                answer name found :=
            agree held nothing
          rw [agrees]
  | list item inductionHypothesis =>
      rw [complete_nullable rfl, value_absorb, attempt_list, Found.fit]
      cases parts : found.items? with
      | none =>
          rw [value_listOf_of_no_items objects parts]
          rfl
      | some items =>
          have each (part : Found) (member : part ∈ items) (path : FieldPath) :=
            inductionHypothesis agree (closed held parts part member) path
          simp only [Found.toJson_of_items? parts, listOf, value_bind,
            value_items each, value_pure, Option.bind_some]
          cases items.mapM (Found.fit answer item) <;> rfl
  | nonNull inner inductionHypothesis =>
      rw [value_complete_nonNull, inductionHypothesis agree held path]
      rfl

/-- A stored value is shaped to what fits, if this is so at named types. -/
theorem value_complete_stored
    {type : TypeRef}
    (agree : ∀ {value path},
      value.isNull = false →
        (named type.namedType value path).value =
          answer type.namedType (.value value))
    (value : Json)
    (path : FieldPath) :
    (complete field named type value path).value =
      Found.fit answer type (.value value) := by
  have closed {found : Found} {items : List Found}
      (stored : found.isStored = true)
      (several : found.items? = some items) :
      ∀ item ∈ items, item.isStored = true := by
    cases found with
    | value json =>
        cases json <;> cases several
        simp [Found.isStored]
    | nothing =>
        cases stored
    | document json =>
        cases stored
    | documents items =>
        cases stored
  have objects (document : Json) : (Json.object []).isObject = true :=
    rfl
  have agreeStored {found : Found} {path : FieldPath}
      (stored : found.isStored = true)
      (something : found.isNothing = false) :
      (named type.namedType (found.toJson fun _ => .object []) path).value =
        answer type.namedType found := by
    cases found with
    | value json =>
        exact agree something
    | nothing =>
        cases stored
    | document json =>
        cases stored
    | documents items =>
        cases stored
  have stored : (Found.value value).isStored = true :=
    rfl
  exact value_complete_eq_fit objects closed agreeStored stored path

/-- Documents are shaped to what fits, if this is so at named types for any of them. -/
theorem value_complete_documents
    (objects : ∀ document, (record document).isObject = true)
    {type : TypeRef}
    {whole : Found}
    (agree : ∀ {found path},
      found.isStored = false →
        found.isNothing = false →
          found.allDocuments ⊆ whole.allDocuments →
            (named type.namedType (found.toJson record) path).value =
              answer type.namedType found)
    (notStored : whole.isStored = false)
    (path : FieldPath) :
    (complete field named type (whole.toJson record) path).value =
      Found.fit answer type whole := by
  have closed {found : Found} {items : List Found}
      (among : found.isStored = false ∧
        found.allDocuments ⊆ whole.allDocuments)
      (several : found.items? = some items) :
      ∀ item ∈ items,
        item.isStored = false ∧ item.allDocuments ⊆ whole.allDocuments := by
    cases found with
    | value json =>
        cases among.1
    | nothing =>
        cases several
    | document json =>
        cases several
    | documents items =>
        cases several
        intro item member
        obtain ⟨document, isItem, rfl⟩ := List.mem_map.mp member
        exact ⟨rfl, by simpa [Found.allDocuments] using among.2 isItem⟩
  exact value_complete_eq_fit objects closed
    (fun among something => agree among.1 something among.2)
    ⟨notStored, List.Subset.refl _⟩ path

end Completion

end GraphGate
