import GraphGate.Fetching
import GraphGate.Proofs.Response.Traversal
import GraphGate.Proofs.SelectionTree

namespace GraphGate

/-!
# What failures are about

Shaping finds fault with records only: none of its failures says that a query
failed. A tree that expects a start document exactly if one is known is sent as
one query, and its query fails only as the database or the clock has it.
-/

/-- None of the failures is that of a query. -/
def BlamesRecords (failures : List FieldError) : Prop :=
  ∀ failure ∈ failures, ∀ cause, failure.cause ≠ .execution cause

/-- None of the failures that a function reports is that of a query. -/
def Blames (shape : Json → FieldPath → Completion ResultNode) : Prop :=
  ∀ value path, BlamesRecords (shape value path).errors

namespace BlamesRecords

variable {α β : Type}

theorem nil : BlamesRecords [] :=
  List.forall_mem_nil _

theorem singleton
    {failure : FieldError}
    (blames : ∀ cause, failure.cause ≠ .execution cause) :
    BlamesRecords [failure] :=
  List.forall_mem_singleton.mpr blames

theorem bind
    {first : Completion α}
    {next : α → Completion β}
    (blames : BlamesRecords first.errors)
    (nextBlames : ∀ value, BlamesRecords (next value).errors) :
    BlamesRecords (first >>= next).errors := by
  cases found : first.value with
  | none =>
      rw [Completion.bind_of_none found]
      exact blames
  | some value =>
      rw [Completion.bind_of_some found]
      exact List.forall_mem_append.mpr ⟨blames, nextBlames value⟩

theorem mapM
    {each : α → Completion β}
    {items : List α}
    (blames : ∀ item ∈ items, BlamesRecords (each item).errors) :
    BlamesRecords (items.mapM each).errors := by
  induction items with
  | nil =>
      exact nil
  | cons item rest inductionHypothesis =>
      obtain ⟨first, others⟩ := List.forall_mem_cons.mp blames
      rw [List.mapM_cons]
      refine first.bind fun _ => ?_
      exact (inductionHypothesis others).bind fun _ => nil

theorem require
    {completion : Completion ResultNode}
    (blames : BlamesRecords completion.errors)
    (field : String)
    (path : FieldPath) :
    BlamesRecords (Completion.require field path completion).errors := by
  refine blames.bind fun node => ?_
  split
  · exact singleton nofun
  · exact nil

end BlamesRecords

namespace Blames

variable {field : String}
variable {named : String → Json → FieldPath → Completion ResultNode}

theorem listOf
    {each : Json → FieldPath → Completion ResultNode}
    (blames : Blames each) :
    Blames (Completion.listOf field each) := by
  intro value path
  cases value with
  | null =>
      exact .nil
  | array values =>
      have items : BlamesRecords (Completion.items each path 0 values).errors := by
        rw [Completion.items_eq_mapM]
        exact .mapM fun item _ => blames _ _
      exact items.bind fun _ => .nil
  | bool _ | number _ | string _ | object _ =>
      exact .singleton nofun

theorem complete
    {type : TypeRef}
    (inside : Blames (Completion.attempt field named type)) :
    Blames (Completion.complete field named type) := by
  intro value path
  cases nonNull : type.isNonNull with
  | false =>
      rw [Completion.complete_nullable nonNull]
      exact inside value path
  | true =>
      cases type with
      | named name =>
          cases nonNull
      | list item =>
          cases nonNull
      | nonNull inner =>
          cases null : value.isNull with
          | true =>
              cases value <;> cases null
              rw [Completion.complete_nonNull_null]
              exact .singleton nofun
          | false =>
              rw [Completion.complete_nonNull null]
              exact inside value path

/-- If the named types blame records only, so does whatever is found inside a type. -/
theorem attempt
    (blames : ∀ type, Blames (named type))
    (type : TypeRef) :
    Blames (Completion.attempt field named type) := by
  induction type with
  | named name =>
      intro value path
      simp only [Completion.attempt]
      split
      · exact .nil
      · exact blames name value path
  | list item inductionHypothesis =>
      intro value path
      rw [Completion.attempt_list]
      exact inductionHypothesis.complete.listOf value path
  | nonNull inner inductionHypothesis =>
      intro value path
      simp only [Completion.attempt]
      split
      · exact .nil
      · exact (inductionHypothesis value path).require field path

end Blames

namespace Shaper

variable {shaper : Shaper}

theorem blames_completeEntry
    {concrete declared : String}
    {source : RecordSource}
    {record : Json}
    {path : FieldPath}
    {selection : FieldSelection}
    (blames : ∀ source type, Blames (shaper.completeNamed selection source type)) :
    BlamesRecords
      (shaper.completeEntry concrete declared source record path
        selection).errors := by
  unfold completeEntry
  split
  · exact .nil
  · split
    · exact .singleton nofun
    · refine BlamesRecords.bind (Blames.complete ?_ _ _) fun _ => .nil
      exact .attempt (blames _) _

theorem blames_completeNamed
    (selection : FieldSelection)
    (source : RecordSource)
    (type : String) :
    Blames (shaper.completeNamed selection source type) := by
  induction selection using FieldSelection.tree_induction
    generalizing source type with
  | node selection inductionHypothesis =>
      intro value path
      rw [completeNamed_eq]
      split
      · exact .nil
      · split
        · exact .singleton nofun
        · split
          · exact .singleton nofun
          · rw [Completion.errors_map]
            refine .mapM fun inner answered => blames_completeEntry ?_
            have answers := (answering?_of_mem_answered answered).2
            exact inductionHypothesis inner (mem_of_answering? answers)

/-- No failure of shaping says that a query failed. -/
theorem blames_complete
    (selection : FieldSelection)
    (source : RecordSource)
    (type : TypeRef)
    (value : Json)
    (path : FieldPath) :
    BlamesRecords (shaper.complete type value selection source path).errors :=
  (Blames.attempt (blames_completeNamed selection source) type).complete
    value path

end Shaper

/-- What the outcome of a query says about the records at a place in the response. -/
def QueryOutcome.records
    (path : FieldPath)
    (timeout : Option Nat) :
    QueryOutcome → Except ExecutionError (List Json)
  | .finished (.ok records) => .ok records
  | .finished (.error cause) => .error ⟨path, .transport cause⟩
  | .timedOut => .error ⟨path, .timeout (timeout.getD 0)⟩

/-- The query of a tree, with the id of the start document if one is known. -/
def DocumentsFragment.query
    (fragment : DocumentsFragment)
    (start : Option String) : AqlQuery :=
  match start with
  | none => fragment.render
  | some id => fragment.render.bind startParameter (.string id)

/-- With a start document just where one is expected, a tree asks for its query. -/
theorem DocumentsFragment.execute_eq
    {fragment : DocumentsFragment}
    {start : Option String}
    (known : fragment.traversesFromStart = start.isSome)
    (database : String)
    (timeout : Option Nat)
    (path : FieldPath) :
    fragment.execute database start timeout path =
      .ask (.query database (fragment.query start) timeout) fun outcome =>
        .done (QueryOutcome.records path timeout outcome) := by
  have asked (query : AqlQuery) :
      (do
        match ← DatabaseDialogue.query database query timeout with
        | .finished (.ok records) => return .ok records
        | .finished (.error cause) => return .error ⟨path, .transport cause⟩
        | .timedOut => return .error ⟨path, .timeout (timeout.getD 0)⟩ :
          DatabaseDialogue (Except ExecutionError (List Json))) =
        .ask (.query database query timeout) fun outcome =>
          .done (QueryOutcome.records path timeout outcome) := by
    refine congrArg (Dialogue.ask _) (funext fun outcome => ?_)
    cases outcome with
    | finished result =>
        cases result <;> rfl
    | timedOut =>
        rfl
  unfold execute
  cases start with
  | none =>
      simp only [known, Option.isSome_none, Bool.false_eq_true, if_false]
      exact asked fragment.render
  | some id =>
      simp only [known, Option.isSome_some, if_true]
      exact asked (fragment.render.bind startParameter (.string id))

namespace DataFetcher

variable {fetcher : DataFetcher} {field : FieldDeclaration}
variable {selection : FieldSelection} {cardinality : Cardinality}
variable {path : FieldPath}

/-- However the query of a field ends, no failure says that a start document was missing. -/
theorem not_unbound_of_shape
    {timeout : Option Nat}
    {outcome : QueryOutcome}
    {failure : FieldError}
    (reported :
      failure ∈
        (fetcher.shape field selection cardinality path
          (outcome.records path timeout)).errors)
    (place : FieldPath) :
    failure.cause ≠ .execution ⟨place, .unboundStartVertex⟩ := by
  cases outcome with
  | timedOut =>
      rw [List.mem_singleton.mp reported]
      rintro ⟨⟩
  | finished result =>
      cases result with
      | error cause =>
          rw [List.mem_singleton.mp reported]
          rintro ⟨⟩
      | ok records =>
          exact Shaper.blames_complete _ _ _ _ _ failure reported _

end DataFetcher

end GraphGate
