import GraphGate.Proofs.Response.Execution
import GraphGate.Proofs.Response.Traversal

namespace GraphGate

/-!
# Every null is explained

A null in an answer is either what the database has there, or the trace of a
failure at that place or below it. A null that moves up beyond the field leaves
a failure behind, too. So no value is lost without a report, whatever the
database returns and however its query ends.
-/

/-- A place below a path. -/
def FieldPath.inside (path : FieldPath) (place : List PathSegment) : FieldPath :=
  ⟨path.segments ++ place⟩

/-- What stands at a place inside a node. -/
inductive ResultNode.Holds :
    ResultNode → List PathSegment → ResultNode → Prop where
  | here (node : ResultNode) :
      Holds node [] node
  | item
      {items : List ResultNode}
      {index : Nat}
      {item inner : ResultNode}
      {place : List PathSegment} :
      items[index]? = some item →
      Holds item place inner →
      Holds (.list items) (.index index :: place) inner
  | field
      {type : String}
      {fields : List (String × ResultNode)}
      {entry : String × ResultNode}
      {inner : ResultNode}
      {place : List PathSegment} :
      entry ∈ fields →
      Holds entry.2 place inner →
      Holds (.object type fields) (.key entry.1 :: place) inner

/-- Inside a null there is nothing but the null. -/
theorem ResultNode.Holds.place_of_null
    {place : List PathSegment}
    {inner : ResultNode}
    (holds : ResultNode.null.Holds place inner) :
    place = [] := by
  cases holds
  rfl

/-- Some failure is reported at a path or below it. -/
def ReportedBelow (errors : List FieldError) (path : FieldPath) : Prop :=
  ∃ failure ∈ errors, path.segments <+: failure.path.segments

namespace ReportedBelow

variable {errors others : List FieldError} {path : FieldPath}

/-- A failure that arose at a path is reported there. -/
theorem of_mem
    (cause : FetchError)
    (member : ⟨cause, path⟩ ∈ errors) :
    ReportedBelow errors path :=
  ⟨_, member, List.prefix_refl _⟩

/-- Further failures take no report away. -/
theorem mono
    (reported : ReportedBelow errors path)
    (kept : errors ⊆ others) :
    ReportedBelow others path := by
  obtain ⟨failure, member, below⟩ := reported
  exact ⟨failure, kept member, below⟩

/-- What is below a place inside a path is below the path. -/
theorem of_inside
    (place : List PathSegment)
    (reported : ReportedBelow errors (path.inside place)) :
    ReportedBelow errors path := by
  obtain ⟨failure, member, below⟩ := reported
  exact ⟨failure, member, (List.prefix_append _ place).trans below⟩

theorem inside_cons_index
    {index : Nat}
    {place : List PathSegment} :
    ReportedBelow errors (path.inside (.index index :: place)) ↔
      ReportedBelow errors ((path.index index).inside place) := by
  simp [ReportedBelow, FieldPath.inside, FieldPath.index]

theorem inside_cons_key
    {key : String}
    {place : List PathSegment} :
    ReportedBelow errors (path.inside (.key key :: place)) ↔
      ReportedBelow errors ((path.key key).inside place) := by
  simp [ReportedBelow, FieldPath.inside, FieldPath.key]

end ReportedBelow

/--
An answer at a path is explained if a null that moved up left a failure behind,
and each null in it is where null is read or where a failure was reported.
-/
structure Explained
    (readsNull : List PathSegment → Prop)
    (path : FieldPath)
    (answer : Option ResultNode)
    (errors : List FieldError) : Prop where
  moved : answer = none → ReportedBelow errors path
  nulls {node : ResultNode} {place : List PathSegment} :
    answer = some node →
      node.Holds place .null →
        readsNull place ∨ ReportedBelow errors (path.inside place)

namespace Explained

variable {readsNull : List PathSegment → Prop} {path : FieldPath}
variable {answer : Option ResultNode} {errors others : List FieldError}

/-- An explanation stays one if null is read in more places. -/
theorem mono
    {readsMore : List PathSegment → Prop}
    (explained : Explained readsNull path answer errors)
    (more : ∀ place, readsNull place → readsMore place) :
    Explained readsMore path answer errors where
  moved := explained.moved
  nulls found holds := (explained.nulls found holds).imp_left (more _)

/-- Null itself is explained where null is read. -/
theorem of_null (reads : readsNull []) :
    Explained readsNull path (some .null) errors where
  moved impossible := nomatch impossible
  nulls found holds := by
    cases found
    exact .inl (holds.place_of_null ▸ reads)

/-- A value that was given up is explained by a failure at its place. -/
theorem of_fail (cause : FetchError) :
    Explained readsNull path none [⟨cause, path⟩] where
  moved _ := .of_mem cause List.mem_cons_self
  nulls impossible := nomatch impossible

/-- A scalar has no nulls to explain. -/
theorem of_scalar (value : Json) :
    Explained readsNull path (some (.scalar value)) errors where
  moved impossible := nomatch impossible
  nulls found holds := by
    cases found
    cases holds

variable {completion : Completion ResultNode}

/-- A place that may be null keeps explanations. -/
theorem absorb
    (explained :
      Explained readsNull path completion.value completion.errors) :
    Explained readsNull path completion.absorb.value
      completion.absorb.errors where
  moved impossible := nomatch impossible
  nulls {node place} found holds := by
    cases absorbed : completion.value with
    | none =>
        simp only [Completion.value_absorb, absorbed, Option.getD_none,
          Option.some.injEq] at found
        subst found
        rw [holds.place_of_null]
        refine .inr ?_
        simpa [FieldPath.inside] using explained.moved absorbed
    | some shape =>
        simp only [Completion.value_absorb, absorbed, Option.getD_some,
          Option.some.injEq] at found
        subst found
        exact explained.nulls absorbed holds

/-- A place that must not be null keeps explanations, and reports a null. -/
theorem require
    (field : String)
    (explained :
      Explained readsNull path completion.value completion.errors) :
    Explained readsNull path (completion.require field path).value
      (completion.require field path).errors where
  moved missing := by
    rcases Completion.value_require_eq_none_iff.mp missing with
      moves | ⟨node, found, isNull⟩
    · exact (explained.moved moves).mono
        (Completion.errors_subset_require field path completion)
    · have reported :
          ⟨.nullValue field, path⟩ ∈ (completion.require field path).errors := by
        simp [Completion.require, Completion.bind_of_some found, isNull,
          Completion.fail]
      exact .of_mem _ reported
  nulls found holds := by
    have inner := (Completion.value_require_eq_some_iff.mp found).1
    exact (explained.nulls inner holds).imp_right fun reported =>
      reported.mono (Completion.errors_subset_require field path completion)

end Explained

/-- What a shaper reads, for a place in the shape of a value after a type. -/
inductive Shaper.Reads (shaper : Shaper) :
    TypeRef → FieldSelection → RecordSource → Json →
      List PathSegment → Json → Prop where
  /-- For the place itself, the value. -/
  | here
      (type : TypeRef)
      (selection : FieldSelection)
      (source : RecordSource)
      (value : Json) :
      Reads shaper type selection source value [] value
  | nonNull
      {inner : TypeRef}
      {selection : FieldSelection}
      {source : RecordSource}
      {value raw : Json}
      {place : List PathSegment} :
      Reads shaper inner selection source value place raw →
      Reads shaper (.nonNull inner) selection source value place raw
  /-- For a list position, the item there. -/
  | item
      {item : TypeRef}
      {selection : FieldSelection}
      {source : RecordSource}
      {values : List Json}
      {index : Nat}
      {value raw : Json}
      {place : List PathSegment} :
      values[index]? = some value →
      Reads shaper item selection source value place raw →
      Reads shaper (.list item) selection source (.array values)
        (.index index :: place) raw
  /-- For a response key, the field of the record that answers the key. -/
  | field
      {name concrete key : String}
      {selection nested : FieldSelection}
      {source : RecordSource}
      {record raw : Json}
      {field : FieldDeclaration}
      {place : List PathSegment} :
      shaper.model.isLeaf name = false →
      shaper.registry.concreteType name (Shaper.typeRecord source record) =
        .ok concrete →
      shaper.answering? concrete selection.nested key = some nested →
      nested.isTypename = false →
      shaper.declaration? concrete name nested = some field →
      Reads shaper field.type nested (Shaper.fieldSource source field)
        (Shaper.fieldValue source record key field) place raw →
      Reads shaper (.named name) selection source record (.key key :: place) raw

namespace Shaper

variable {shaper : Shaper} {selection : FieldSelection} {source : RecordSource}
variable {field : String}
variable {named : String → Json → FieldPath → Completion ResultNode}

/-- Whether null is read for a place in the shape of a value. -/
def ReadsNull
    (shaper : Shaper)
    (type : TypeRef)
    (selection : FieldSelection)
    (source : RecordSource)
    (value : Json)
    (place : List PathSegment) : Prop :=
  shaper.Reads type selection source value place .null

/-- What a function makes of the values of a type is explained. -/
def Explains
    (shaper : Shaper)
    (selection : FieldSelection)
    (source : RecordSource)
    (type : TypeRef)
    (shape : Json → FieldPath → Completion ResultNode) : Prop :=
  ∀ value path,
    Explained (shaper.ReadsNull type selection source value) path
      (shape value path).value (shape value path).errors

/-- If what is found inside a type is explained, so is what is shaped after the type. -/
theorem explains_complete
    {type : TypeRef}
    (inside :
      shaper.Explains selection source type
        (Completion.attempt field named type)) :
    shaper.Explains selection source type
      (Completion.complete field named type) := by
  intro value path
  cases nonNull : type.isNonNull with
  | false =>
      rw [Completion.complete_nullable nonNull]
      exact (inside value path).absorb
  | true =>
      cases type with
      | named name =>
          cases nonNull
      | list item =>
          cases nonNull
      | nonNull inner =>
          cases null : value.isNull with
          | true =>
              cases value <;> cases null
              rw [Completion.complete_nonNull_null]
              exact .of_fail _
          | false =>
              rw [Completion.complete_nonNull null]
              exact inside value path

/-- If the shapes of the items of a list are explained, so is the shape of the list. -/
theorem explains_listOf
    {item : TypeRef}
    {each : Json → FieldPath → Completion ResultNode}
    (explains : shaper.Explains selection source item each) :
    shaper.Explains selection source (.list item)
      (Completion.listOf field each) := by
  intro value path
  rcases Completion.listOf_outcome field each value path with
    ⟨isNull, shaped⟩ | ⟨values, isArray, shaped⟩ | ⟨-, cause, shaped⟩
  · rw [shaped, isNull]
    exact .of_null (.here _ _ _ _)
  · rw [shaped, isArray, Completion.value_map, Completion.errors_map]
    constructor
    · intro missing
      obtain ⟨index, item, -, moves, kept⟩ :=
        Completion.exists_of_items_none (Option.map_eq_none_iff.mp missing)
      have reported := ((explains item (path.index index)).moved moves).mono kept
      exact ReportedBelow.of_inside [.index index] reported
    · intro node place found holds
      obtain ⟨nodes, itemsFound, rfl⟩ := Option.map_eq_some_iff.mp found
      cases holds with
      | item present inner =>
          obtain ⟨value, isValue, shape, kept⟩ :=
            Completion.getElem?_of_items_some itemsFound present
          rcases (explains value _).nulls shape inner with reads | reported
          · exact .inl (.item isValue reads)
          · exact .inr
              (ReportedBelow.inside_cons_index.mpr (reported.mono kept))
  · rw [shaped]
    exact .of_fail cause

/-- If the shapes of named types are explained, so is what is found inside any type. -/
theorem explains_attempt
    {type : TypeRef}
    (namedExplained : ∀ {value path},
      value.isNull = false →
        Explained
          (shaper.ReadsNull (.named type.namedType) selection source value) path
          (named type.namedType value path).value
          (named type.namedType value path).errors) :
    shaper.Explains selection source type
      (Completion.attempt field named type) := by
  induction type with
  | named name =>
      intro value path
      cases null : value.isNull with
      | true =>
          cases value <;> cases null
          rw [Completion.attempt_null]
          exact .of_null (.here _ _ _ _)
      | false =>
          rw [Completion.attempt_named null]
          exact namedExplained null
  | list item inductionHypothesis =>
      intro value path
      rw [Completion.attempt_list]
      exact explains_listOf
        (explains_complete (inductionHypothesis namedExplained)) value path
  | nonNull inner inductionHypothesis =>
      intro value path
      cases null : value.isNull with
      | true =>
          cases value <;> cases null
          rw [Completion.attempt_null]
          exact .of_null (.here _ _ _ _)
      | false =>
          rw [Completion.attempt_nonNull null]
          refine ((inductionHypothesis namedExplained value path).require
            field).mono ?_
          exact fun place reads => .nonNull reads

variable {concrete declared : String} {record : Json}

/--
The entry of a selection leaves a failure behind if a null moves up from it, and
every null in it is where null is read or where a failure was reported.
-/
theorem explained_completeEntry
    {inner : FieldSelection}
    (composite : shaper.model.isLeaf declared = false)
    (resolved :
      shaper.registry.concreteType declared (typeRecord source record) =
        .ok concrete)
    (answers :
      shaper.answering? concrete selection.nested inner.responseKey = some inner)
    (inside : ∀ {type value source path},
      Explained (shaper.ReadsNull (.named type) inner source value) path
        (shaper.completeNamed inner source type value path).value
        (shaper.completeNamed inner source type value path).errors)
    (path : FieldPath) :
    Explained
      (fun place =>
        shaper.ReadsNull (.named declared) selection source record
          (.key inner.responseKey :: place))
      (path.key inner.responseKey)
      ((shaper.completeEntry concrete declared source record path
        inner).value.map Prod.snd)
      (shaper.completeEntry concrete declared source record path
        inner).errors := by
  rcases shaper.completeEntry_outcome concrete declared source record path
      inner with
    ⟨-, isName⟩ | ⟨-, -, cause, isNull⟩ | ⟨typename, field, declaration, shaped⟩
  · rw [isName]
    exact .of_scalar _
  · rw [isNull]
    constructor
    · intro impossible
      cases impossible
    · intro node place found holds
      cases found
      rw [holds.place_of_null]
      refine .inr (.of_mem cause ?_)
      simp [FieldPath.inside]
  · rw [shaped, Completion.value_map, Completion.errors_map, Option.map_map]
    have sameAnswer (answer : Option ResultNode) :
        answer.map (Prod.snd ∘ (inner.responseKey, ·)) = answer := by
      cases answer <;> rfl
    rw [sameAnswer]
    refine Explained.mono
      (explains_complete (explains_attempt fun _ => inside) _ _) ?_
    exact fun place reads =>
      .field composite resolved answers typename declaration reads

/-- The shape of a value of a named type is explained. -/
theorem explained_completeNamed
    (shaper : Shaper)
    (selection : FieldSelection)
    (source : RecordSource)
    (type : String)
    (value : Json)
    (path : FieldPath) :
    Explained (shaper.ReadsNull (.named type) selection source value) path
      (shaper.completeNamed selection source type value path).value
      (shaper.completeNamed selection source type value path).errors := by
  induction selection using FieldSelection.tree_induction
    generalizing source type value path with
  | node selection inductionHypothesis =>
      rcases shaper.completeNamed_outcome source path selection type value with
        ⟨-, shaped⟩ | ⟨-, cause, shaped⟩ | ⟨composite, concrete, resolved, shaped⟩
      · rw [shaped]
        exact .of_scalar value
      · rw [shaped]
        exact .of_fail cause
      · rw [shaped, Completion.value_map, Completion.errors_map]
        constructor
        · intro missing
          obtain ⟨inner, isAnswered, moves, kept⟩ :=
            Completion.exists_of_mapM_none (Option.map_eq_none_iff.mp missing)
          obtain ⟨-, answers⟩ := answering?_of_mem_answered isAnswered
          have explained :=
            explained_completeEntry composite resolved answers
              (inductionHypothesis inner (mem_of_answering? answers) _ _ _ _)
              path
          have reported := (explained.moved (by simp [moves])).mono kept
          exact ReportedBelow.of_inside [.key inner.responseKey] reported
        · intro node place found holds
          obtain ⟨fields, entries, rfl⟩ := Option.map_eq_some_iff.mp found
          cases holds with
          | field member inside =>
              obtain ⟨inner, isInner, answers, entryFound, kept⟩ :=
                entry_of_entries entries member
              have key := key_of_completeEntry _ _ _ _ _ _ entryFound
              rw [key] at answers ⊢
              have explained :=
                explained_completeEntry composite resolved answers
                  (inductionHypothesis inner isInner _ _ _ _) path
              rcases explained.nulls (by simp [entryFound]) inside with
                reads | reported
              · exact .inl reads
              · exact .inr
                  (ReportedBelow.inside_cons_key.mpr (reported.mono kept))

/-- Whatever a value is shaped to is explained. -/
theorem explained_complete
    (shaper : Shaper)
    (type : TypeRef)
    (value : Json)
    (selection : FieldSelection)
    (source : RecordSource)
    (path : FieldPath) :
    Explained (shaper.ReadsNull type selection source value) path
      (shaper.complete type value selection source path).value
      (shaper.complete type value selection source path).errors :=
  explains_complete
    (explains_attempt fun _ =>
      explained_completeNamed shaper selection source _ _ _)
    value path

/-- A null in the shape of null is the null itself, or was reported. -/
theorem explained_complete_null
    (shaper : Shaper)
    (type : TypeRef)
    (selection : FieldSelection)
    (source : RecordSource)
    (path : FieldPath) :
    Explained (· = []) path
      (shaper.complete type .null selection source path).value
      (shaper.complete type .null selection source path).errors := by
  unfold complete
  cases nonNull : type.isNonNull with
  | false =>
      rw [Completion.complete_nullable nonNull, Completion.attempt_null]
      exact .of_null rfl
  | true =>
      cases type with
      | named name =>
          cases nonNull
      | list item =>
          cases nonNull
      | nonNull inner =>
          rw [Completion.complete_nonNull_null]
          exact .of_fail _

end Shaper

/-- Whether the type of a prepared field excludes null. -/
def PreparedField.isNonNull : PreparedField → Bool
  | .typename _ => true
  | .query field _ _ _ => field.type.isNonNull

namespace DataFetcher

variable {σ : Type}

/--
Null is read for a place in the answer to a prepared field. Its query gave
records, and where all of them are wanted, null is at the place in the list of
them. Where one is wanted, null is at the place in the first, or is all that is
read because there is none.
-/
inductive ReadsNullIn
    (fetcher : DataFetcher)
    (answer : σ → (command : Command) → command.Reply × σ)
    (state : σ)
    (path : FieldPath) :
    PreparedField → List PathSegment → Prop where
  | inList
      {field : FieldDeclaration}
      {selection : FieldSelection}
      {fragment : DocumentsFragment}
      {start : Option String}
      {records : List Json}
      {place : List PathSegment} :
      fragment.cardinality = .many →
      (Dialogue.run answer state
        (fragment.execute fetcher.database start fetcher.timeout path)).1 =
          .ok records →
      fetcher.shaper.ReadsNull field.type selection .document (.array records)
        place →
      ReadsNullIn fetcher answer state path
        (.query field selection fragment start) place
  | inFirst
      {field : FieldDeclaration}
      {selection : FieldSelection}
      {fragment : DocumentsFragment}
      {start : Option String}
      {record : Json}
      {others : List Json}
      {place : List PathSegment} :
      fragment.cardinality = .one →
      (Dialogue.run answer state
        (fragment.execute fetcher.database start fetcher.timeout path)).1 =
          .ok (record :: others) →
      fetcher.shaper.ReadsNull field.type selection .document record place →
      ReadsNullIn fetcher answer state path
        (.query field selection fragment start) place
  | noRecord
      {field : FieldDeclaration}
      {selection : FieldSelection}
      {fragment : DocumentsFragment}
      {start : Option String} :
      fragment.cardinality = .one →
      (Dialogue.run answer state
        (fragment.execute fetcher.database start fetcher.timeout path)).1 =
          .ok [] →
      ReadsNullIn fetcher answer state path
        (.query field selection fragment start) []

/-- A field of which the query gave records is explained by what is read in these. -/
theorem explained_shape_ok
    {fetcher : DataFetcher}
    {answer : σ → (command : Command) → command.Reply × σ}
    {state : σ}
    {path : FieldPath}
    {selection : FieldSelection}
    {fragment : DocumentsFragment}
    {start : Option String}
    {records : List Json}
    (ended :
      (Dialogue.run answer state
        (fragment.execute fetcher.database start fetcher.timeout path)).1 =
          .ok records)
    (field : FieldDeclaration) :
    Explained
      (fetcher.ReadsNullIn answer state path
        (.query field selection fragment start))
      path
      (fetcher.shape field selection fragment.cardinality path
        (.ok records)).data
      (fetcher.shape field selection fragment.cardinality path
        (.ok records)).errors := by
  simp only [shape]
  cases wanted : fragment.cardinality with
  | many =>
      exact (Shaper.explained_complete _ _ (.array records) _ _ _).mono
        fun _ reads => .inList wanted ended reads
  | one =>
      cases records with
      | nil =>
          refine (Shaper.explained_complete_null _ _ _ _ _).mono ?_
          rintro _ rfl
          exact .noRecord wanted ended
      | cons record others =>
          exact (Shaper.explained_complete _ _ record _ _ _).mono
            fun _ reads => .inFirst wanted ended reads

/-- A field of which the query gave no records leaves the failure of the query behind. -/
theorem explained_shape_error
    (fetcher : DataFetcher)
    (field : FieldDeclaration)
    (selection : FieldSelection)
    (cardinality : Cardinality)
    (path : FieldPath)
    (cause : ExecutionError)
    (readsNull : List PathSegment → Prop) :
    Explained readsNull path
      (fetcher.shape field selection cardinality path (.error cause)).data
      (fetcher.shape field selection cardinality path (.error cause)).errors where
  moved _ := .of_mem (.execution cause) List.mem_cons_self
  nulls {node place} found holds := by
    refine .inr (.of_mem (.execution cause) ?_)
    simp only [shape] at found
    split at found
    · cases found
    · cases found
      simp [shape, holds.place_of_null, FieldPath.inside]

/-- A null moves up from a shaped field only if the type of the field excludes null. -/
theorem isNonNull_of_shape_none
    {fetcher : DataFetcher}
    {field : FieldDeclaration}
    {selection : FieldSelection}
    {cardinality : Cardinality}
    {path : FieldPath}
    {records : Except ExecutionError (List Json)}
    (moves :
      (fetcher.shape field selection cardinality path records).data = none) :
    field.type.isNonNull = true := by
  cases records with
  | error cause =>
      simp only [shape] at moves
      split at moves
      · assumption
      · cases moves
  | ok records =>
      exact Completion.isNonNull_of_complete_none moves

/--
No null in the answer to a prepared field goes without an explanation, however
its query ends. If a null moves up beyond the field, the type of the field
excludes null, and a failure is reported at the field or below it.
-/
theorem executePrepared_explains_nulls
    (fetcher : DataFetcher)
    (prepared : PreparedField)
    (path : FieldPath)
    (answer : σ → (command : Command) → command.Reply × σ)
    (state : σ) :
    let result :=
      (Dialogue.run answer state (fetcher.executePrepared prepared path)).1
    (∀ node place,
      result.data = some node →
        node.Holds place .null →
          fetcher.ReadsNullIn answer state path prepared place ∨
            ReportedBelow result.errors (path.inside place)) ∧
      (result.data = none →
        prepared.isNonNull = true ∧ ReportedBelow result.errors path) := by
  cases prepared with
  | typename type =>
      constructor
      · intro node place found holds
        cases found
        cases holds
      · intro impossible
        cases impossible
  | query field selection fragment start =>
      rw [run_executePrepared]
      generalize ended :
        (Dialogue.run answer state
          (fragment.execute fetcher.database start fetcher.timeout path)).1 =
            records
      have explained :
          Explained
            (fetcher.ReadsNullIn answer state path
              (.query field selection fragment start))
            path
            (fetcher.shape field selection fragment.cardinality path
              records).data
            (fetcher.shape field selection fragment.cardinality path
              records).errors := by
        cases records with
        | error cause =>
            exact explained_shape_error _ _ _ _ _ _ _
        | ok records =>
            exact explained_shape_ok ended field
      constructor
      · intro node place found holds
        exact explained.nulls found holds
      · intro moves
        exact ⟨isNonNull_of_shape_none moves, explained.moved moves⟩

end DataFetcher

end GraphGate
