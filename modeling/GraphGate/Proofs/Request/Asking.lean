import GraphGate.Proofs.Compilation.Scoping
import GraphGate.Proofs.PiecewiseMerging
import GraphGate.Proofs.Request.Placement
import GraphGate.Proofs.Response.Causes

namespace GraphGate

/-!
# What a request asks the database

A request is refused as a whole before anything is asked, because it asks for no
fields that can be read or for one that cannot be prepared. Otherwise every
top-level field asks for its query, in order, and nothing else is asked. A field
of the query type never waits for the id of a start document, so no query is
missing, and what is nested in a field is answered by the query of the field.
-/

namespace Dialogue

variable {Question : Type} {Answer : Question → Type} {α β σ : Type}

/-- The questions that are asked while a dialogue is held, in order. -/
def asked
    (answer : σ → (question : Question) → Answer question × σ)
    (state : σ) : Dialogue Question Answer α → List Question
  | .done _ => []
  | .ask question next =>
      let (reply, state) := answer state question
      question :: asked answer state (next reply)

/-- What is asked first comes before what is asked by whatever follows. -/
theorem asked_bind
    (answer : σ → (question : Question) → Answer question × σ)
    (state : σ)
    (first : Dialogue Question Answer α)
    (next : α → Dialogue Question Answer β) :
    asked answer state (first.bind next) =
      asked answer state first ++
        asked answer (run answer state first).2
          (next (run answer state first).1) := by
  induction first generalizing state with
  | done value =>
      rfl
  | ask question answered inductionHypothesis =>
      exact congrArg (question :: ·) (inductionHypothesis _ _)

end Dialogue

/-- The call that a field of the query type makes; the name of the type needs none. -/
def PreparedField.command?
    (fetcher : DataFetcher) : PreparedField → Option Command
  | .typename _ => none
  | .query _ _ fragment _ =>
      some (.query fetcher.database fragment.render fetcher.timeout)

namespace DataFetcher

variable {σ : Type} {fetcher : DataFetcher} {selection : FieldSelection}
variable {selections : List FieldSelection} {ready : PreparedField}
variable {prepared : List (String × PreparedField)}

/-- A call is the one query that answers a selection on the query type. -/
def IsAskedFor
    (fetcher : DataFetcher)
    (selection : FieldSelection)
    (command : Command) : Prop :=
  ∃ fragment,
    fetcher.compile selection .root = .ok fragment ∧
      command = .query fetcher.database fragment.render fetcher.timeout

/-- Only the name of the query type is ready without a query. -/
theorem prepare_typename_iff
    (isReady : fetcher.prepare selection .root = .ok ready) :
    selection.isTypename = true ↔ ready.command? fetcher = none := by
  obtain ⟨⟨parentType, scope, start⟩, -, isReady⟩ :=
    Success.bind_eq_ok_iff.mp isReady
  dsimp only at isReady
  cases typename : selection.isTypename with
  | true =>
      rw [if_pos typename] at isReady
      cases isReady
      simp [PreparedField.command?]
  | false =>
      rw [if_neg (by simp [typename])] at isReady
      obtain ⟨compiled, -, isReady⟩ := Success.bind_eq_ok_iff.mp isReady
      cases compiled with
      | property loop name =>
          cases isReady
      | documents documents =>
          cases declared : fetcher.model.field? parentType selection.name with
          | none =>
              simp only [declared] at isReady
              cases isReady
          | some field =>
              simp only [declared] at isReady
              cases isReady
              simp [PreparedField.command?]

/-- The query of a field that is ready is that of its selection. -/
theorem isAskedFor_of_prepare
    (isReady : fetcher.prepare selection .root = .ok ready)
    {command : Command}
    (calls : ready.command? fetcher = some command) :
    fetcher.IsAskedFor selection command := by
  cases ready with
  | typename type =>
      cases calls
  | query field asked fragment start =>
      cases calls
      exact ⟨fragment, compile_eq_ok_iff.mpr ⟨field, asked, start, isReady⟩, rfl⟩

/-- A field of the query type makes its one call, whatever the answer is. -/
theorem asked_executePrepared
    (isReady : fetcher.prepare selection .root = .ok ready)
    (path : FieldPath)
    (answer : σ → (command : Command) → command.Reply × σ)
    (state : σ) :
    Dialogue.asked answer state (fetcher.executePrepared ready path) =
      (ready.command? fetcher).toList := by
  cases ready with
  | typename type =>
      rfl
  | query field asked fragment start =>
      obtain ⟨-, parentType, scope, resolved, -, accepted⟩ :=
        accepted_of_prepare isReady
      have expects :=
        (Compiler.accepts_of_compileField accepted).traversesFromStart_iff
      rcases scope_of_resolveParent resolved with
        ⟨-, rfl, rfl⟩ | ⟨type, id, isRecord, -⟩
      · have closed : fragment.traversesFromStart = (none : Option String).isSome := by
          refine Bool.eq_false_iff.mpr fun traverses => ?_
          cases expects.mp traverses
        simp only [executePrepared, DocumentsFragment.execute_eq closed]
        rfl
      · cases isRecord

/-- Fields that are ready are what their selections were prepared to, one for one. -/
theorem forall₂_of_prepareAll
    (succeeds : fetcher.prepareAll selections = .ok prepared) :
    List.Forall₂
      (fun selection (entry : String × PreparedField) =>
        fetcher.prepare selection .root = .ok entry.2)
      selections prepared := by
  unfold prepareAll at succeeds
  induction selections generalizing prepared with
  | nil =>
      cases succeeds
      exact .nil
  | cons selection rest inductionHypothesis =>
      rw [List.mapM_cons, Success.bind_eq_ok_iff] at succeeds
      obtain ⟨first, isFirst, succeeds⟩ := succeeds
      obtain ⟨field, isReady, paired⟩ := Success.bind_eq_ok_iff.mp isFirst
      obtain ⟨others, areOthers, together⟩ := Success.bind_eq_ok_iff.mp succeeds
      cases paired
      cases together
      exact .cons isReady (inductionHypothesis areOthers)

/-- The fields of an answer make their calls one after another, and no others. -/
theorem asked_answerAll
    (ready : List.Forall₂
      (fun selection (entry : String × PreparedField) =>
        fetcher.prepare selection .root = .ok entry.2)
      selections prepared)
    (response : GraphQLResponse)
    (answer : σ → (command : Command) → command.Reply × σ)
    (state : σ) :
    Dialogue.asked answer state (fetcher.answerAll response prepared) =
      prepared.filterMap fun entry => entry.2.command? fetcher := by
  induction ready generalizing response state with
  | nil =>
      rfl
  | @cons selection entry selections rest isReady _ inductionHypothesis =>
      obtain ⟨key, field⟩ := entry
      have continued :
          fetcher.answerAll response ((key, field) :: rest) =
            Dialogue.bind
              (fetcher.executePrepared field (FieldPath.root.key key))
              fun result => fetcher.answerAll (response.add key result) rest :=
        rfl
      rw [continued, Dialogue.asked_bind, asked_executePrepared isReady,
        inductionHypothesis, List.filterMap_cons]
      cases field.command? fetcher <;> rfl

/-- The calls of an answer are the queries of its fields, in order. -/
theorem forall₂_isAskedFor
    (ready : List.Forall₂
      (fun selection (entry : String × PreparedField) =>
        fetcher.prepare selection .root = .ok entry.2)
      selections prepared) :
    List.Forall₂ fetcher.IsAskedFor
      (selections.filter fun selection => !selection.isTypename)
      (prepared.filterMap fun entry => entry.2.command? fetcher) := by
  induction ready with
  | nil =>
      exact .nil
  | @cons selection entry selections rest isReady _ inductionHypothesis =>
      have named := prepare_typename_iff isReady
      cases calls : entry.2.command? fetcher with
      | none =>
          rw [List.filter_cons_of_neg (by simp [named.mpr calls])]
          simpa only [List.filterMap_cons, calls] using inductionHypothesis
      | some command =>
          have isField : ¬ selection.isTypename = true := fun typename => by
            cases calls.symm.trans (named.mp typename)
          rw [List.filter_cons_of_pos (by simpa using isField)]
          simp only [List.filterMap_cons, calls]
          exact .cons (isAskedFor_of_prepare isReady calls) inductionHypothesis

/-- All fields can be made ready exactly if each of them can. -/
theorem exists_prepareAll_iff :
    (∃ prepared, fetcher.prepareAll selections = .ok prepared) ↔
      ∀ selection ∈ selections,
        ∃ ready, fetcher.prepare selection .root = .ok ready := by
  unfold prepareAll
  rw [Success.exists_mapM_iff]
  refine forall₂_congr fun selection _ => ?_
  constructor
  · rintro ⟨_, isFirst⟩
    obtain ⟨ready, isReady, -⟩ := Success.bind_eq_ok_iff.mp isFirst
    exact ⟨ready, isReady⟩
  · rintro ⟨ready, isReady⟩
    exact ⟨_, Success.bind_eq_ok_iff.mpr ⟨ready, isReady, rfl⟩⟩

/-- If not all fields can be made ready, one of them says why. -/
theorem exists_unprepared
    {cause : UnsupportedSelection}
    (failed : fetcher.prepareAll selections = .error cause) :
    ∃ selection ∈ selections,
      ∃ reason, fetcher.prepare selection .root = .error reason := by
  have notAll : ¬ ∃ prepared, fetcher.prepareAll selections = .ok prepared :=
    Success.exists_error_iff.mp ⟨cause, failed⟩
  rw [exists_prepareAll_iff] at notAll
  push Not at notAll
  obtain ⟨selection, member, notReady⟩ := notAll
  exact ⟨selection, member,
    Success.exists_error_iff.mpr fun ⟨ready, isReady⟩ => notReady ready isReady⟩

/--
Once every field is ready, each makes its call, every failure has a place, and
an answer that is not null has the keys of the fields.
-/
theorem answerAll_of_prepareAll
    (succeeds : fetcher.prepareAll selections = .ok prepared)
    (distinct : (selections.map FieldSelection.responseKey).Nodup)
    (answer : σ → (command : Command) → command.Reply × σ)
    (state : σ) :
    let answering := fetcher.answerAll .empty prepared
    let response := (Dialogue.run answer state answering).1
    (∀ failure ∈ response.errors, failure.path?.isSome = true) ∧
      List.Forall₂ fetcher.IsAskedFor
        (selections.filter fun field => !field.isTypename)
        (Dialogue.asked answer state answering) ∧
      ∀ data,
        response.data = some data →
          Table.keys data = selections.map FieldSelection.responseKey := by
  have sameKeys := keys_of_prepareAll succeeds
  rw [← sameKeys] at distinct
  obtain ⟨errors, collects⟩ :=
    fetcher.collects_answerAll answer state GraphQLResponse.collects_empty
      distinct
  have ready := forall₂_of_prepareAll succeeds
  refine ⟨?_, ?_, ?_⟩
  · intro failure member
    rw [collects.reported] at member
    obtain ⟨fieldFailure, -, rfl⟩ := List.mem_map.mp member
    rfl
  · rw [asked_answerAll ready]
    exact forall₂_isAskedFor ready
  · intro data found
    rw [collects.keys found, List.nil_append, sameKeys]

/-- Of the fields that are asked for, each response key is answered once, where it stands first. -/
theorem map_responseKey_merge_occurrences (occurrences : List FieldOccurrence) :
    (FieldSelection.merge
        (occurrences.map FieldOccurrence.selection)).map
          FieldSelection.responseKey =
      (occurrences.map FieldOccurrence.responseKey).eraseDups := by
  rw [FieldSelection.map_responseKey_merge, List.map_map]
  simp only [Function.comp_def, FieldOccurrence.responseKey_selection]

/--
A request that asks for no fields that can be read, or for one that cannot be
prepared, is refused with one failure that has no place, and nothing is asked of
the database. For any other request, every failure has its place, the database is
asked for the query of each top-level field but the name of the type, once and in
order, and if the answer is not null, it has the response keys that the request
asks for, each where it stands first. Top-level fields are those that the request
asks for, with the fields of one response key as one.
-/
theorem handle_refuses_or_asks_for_each_field
    (fetcher : DataFetcher)
    (request : GraphQLRequest)
    (answer : σ → (command : Command) → command.Reply × σ)
    (state : σ) :
    let response := (Dialogue.run answer state (fetcher.handle request)).1
    let asked := Dialogue.asked answer state (fetcher.handle request)
    ((∀ occurrences,
        request.Asks occurrences →
          ∃ field ∈
              FieldSelection.merge (occurrences.map FieldOccurrence.selection),
            ∃ reason, fetcher.prepare field .root = .error reason) ∧
        response.data = none ∧
        (∃ failure, response.errors = [failure] ∧ failure.path? = none) ∧
        asked = []) ∨
      ∃ occurrences,
        request.Asks occurrences ∧
          (∀ field ∈
              FieldSelection.merge (occurrences.map FieldOccurrence.selection),
            ∃ ready, fetcher.prepare field .root = .ok ready) ∧
          (∀ failure ∈ response.errors, failure.path?.isSome = true) ∧
          List.Forall₂ fetcher.IsAskedFor
            ((FieldSelection.merge
                (occurrences.map FieldOccurrence.selection)).filter
              fun field => !field.isTypename)
            asked ∧
          (FieldSelection.merge
              (occurrences.map FieldOccurrence.selection)).map
                FieldSelection.responseKey =
            (occurrences.map FieldOccurrence.responseKey).eraseDups ∧
          ∀ data,
            response.data = some data →
              Table.keys data =
                (occurrences.map FieldOccurrence.responseKey).eraseDups := by
  unfold handle
  cases read : request.selections with
  | error cause =>
      refine .inl ⟨fun occurrences asks => ?_, rfl,
        ⟨.request cause, rfl, rfl⟩, rfl⟩
      have isRead :=
        GraphQLRequest.selections_eq_ok_iff.mpr ⟨occurrences, asks, rfl⟩
      cases read.symm.trans isRead
  | ok selections =>
      cases succeeds : fetcher.prepareAll selections with
      | error cause =>
          simp only [succeeds]
          refine .inl ⟨fun occurrences asks => ?_, rfl,
            ⟨.unsupported cause, rfl, rfl⟩, rfl⟩
          have isRead :=
            GraphQLRequest.selections_eq_ok_iff.mpr ⟨occurrences, asks, rfl⟩
          cases read.symm.trans isRead
          exact exists_unprepared succeeds
      | ok prepared =>
          simp only [succeeds]
          obtain ⟨occurrences, asks, rfl⟩ :=
            GraphQLRequest.selections_eq_ok_iff.mp read
          have firstKeys := map_responseKey_merge_occurrences occurrences
          obtain ⟨placed, eachAsked, keys⟩ :=
            answerAll_of_prepareAll succeeds (FieldSelection.nodup_merge _)
              answer state
          refine .inr ⟨occurrences, asks,
            exists_prepareAll_iff.mp ⟨prepared, succeeds⟩, placed, eachAsked,
            firstKeys, ?_⟩
          intro data found
          rw [keys data found, firstKeys]

end DataFetcher

end GraphGate
