import GraphGate.Proofs.Request.Answers
import GraphGate.Proofs.Request.Asking

namespace GraphGate

/-!
# Type conditions around the fields of the query type

A field of a record is answered if the record meets its type conditions. The
fields of the query type are answered whatever conditions are around them:
neither preparing nor shaping reads the conditions of a top-level selection.
What is nested in such a field keeps its conditions.
-/

namespace FieldSelection

/-- The selection on every type. What is nested in it keeps its conditions. -/
def unconditional (selection : FieldSelection) : FieldSelection :=
  { selection with conditions := [] }

@[simp] theorem responseKey_unconditional (selection : FieldSelection) :
    selection.unconditional.responseKey = selection.responseKey :=
  rfl

theorem unconditional_combine (first second : FieldSelection) :
    (first.combine second).unconditional =
      first.unconditional.combine second.unconditional :=
  rfl

theorem insert_unconditional
    (selection : FieldSelection)
    (grouped : List FieldSelection) :
    insert selection.unconditional (grouped.map unconditional) =
      (insert selection grouped).map unconditional := by
  induction grouped with
  | nil =>
      rfl
  | cons first rest inductionHypothesis =>
      rw [List.map_cons, insert, insert, responseKey_unconditional,
        responseKey_unconditional]
      split
      · rw [List.map_cons, unconditional_combine]
      · rw [List.map_cons, inductionHypothesis]

theorem group_unconditional (selections : List FieldSelection) :
    group (selections.map unconditional) =
      (group selections).map unconditional := by
  suffices general :
      ∀ grouped : List FieldSelection,
        (selections.map unconditional).foldl
            (fun grouped selection => insert selection grouped)
            (grouped.map unconditional) =
          (selections.foldl
            (fun grouped selection => insert selection grouped)
            grouped).map unconditional from
    general []
  induction selections with
  | nil =>
      intro grouped
      rfl
  | cons selection rest inductionHypothesis =>
      intro grouped
      rw [List.map_cons, List.foldl_cons, insert_unconditional,
        inductionHypothesis, List.foldl_cons]

/-- Selections that are made unconditional are merged to the same ones, made unconditional. -/
theorem merge_unconditional (selections : List FieldSelection) :
    merge (selections.map unconditional) =
      (merge selections).map unconditional := by
  rw [merge_eq, merge_eq, group_unconditional, List.map_map, List.map_map]
  rfl

end FieldSelection

namespace FieldOccurrence

/-- The field with no type conditions around it. -/
def unenclosed (occurrence : FieldOccurrence) : FieldOccurrence :=
  { occurrence with enclosing := [] }

theorem selection_unenclosed (occurrence : FieldOccurrence) :
    occurrence.unenclosed.selection = occurrence.selection.unconditional := by
  rw [selection_eq, selection_eq]
  rfl

/-- Fields that differ in the conditions around them are merged alike but for the conditions. -/
theorem merge_alike
    {first second : List FieldOccurrence}
    (alike : first.map unenclosed = second.map unenclosed) :
    (FieldSelection.merge (first.map selection)).map
        FieldSelection.unconditional =
      (FieldSelection.merge (second.map selection)).map
        FieldSelection.unconditional := by
  have asUnenclosed (occurrences : List FieldOccurrence) :
      (occurrences.map selection).map FieldSelection.unconditional =
        (occurrences.map unenclosed).map selection := by
    rw [List.map_map, List.map_map]
    exact List.map_congr_left fun occurrence _ =>
      occurrence.selection_unenclosed.symm
  rw [← FieldSelection.merge_unconditional, ← FieldSelection.merge_unconditional,
    asUnenclosed, asUnenclosed, alike]

end FieldOccurrence

/-- The conditions of a field have no part in compiling it on a given type. -/
theorem Compiler.compileField_unconditional
    (compiler : Compiler)
    (parentType : String)
    (scope : Scope)
    (keys : List String)
    (selection : FieldSelection) :
    compiler.compileField parentType scope keys selection.unconditional =
      compiler.compileField parentType scope keys selection := by
  cases selection
  rfl

/-- The field with its selection made unconditional. -/
def PreparedField.unconditional : PreparedField → PreparedField
  | .typename type => .typename type
  | .query field selection fragment start =>
      .query field selection.unconditional fragment start

namespace DataFetcher

variable {σ : Type} {selections : List FieldSelection}

/-- The conditions of a field have no part in making it ready. -/
theorem prepare_unconditional
    (fetcher : DataFetcher)
    (selection : FieldSelection)
    (parent : FetchParent) :
    fetcher.prepare selection.unconditional parent =
      PreparedField.unconditional <$> fetcher.prepare selection parent := by
  have sameParent :
      fetcher.resolveParent selection.unconditional parent =
        fetcher.resolveParent selection parent := by
    cases parent <;> rfl
  have sameName : selection.unconditional.name = selection.name :=
    rfl
  have sameTypename :
      selection.unconditional.isTypename = selection.isTypename :=
    rfl
  unfold prepare
  rw [sameParent, sameName, sameTypename]
  cases fetcher.resolveParent selection parent with
  | error cause =>
      rfl
  | ok resolved =>
      obtain ⟨parentType, scope, start⟩ := resolved
      simp only [bind, Except.bind, Compiler.compileField_unconditional]
      split
      · rfl
      · cases fetcher.compiler.compileField parentType scope [] selection with
        | error cause =>
            rfl
        | ok compiled =>
            cases compiled with
            | property loop property =>
                rfl
            | documents fragment =>
                dsimp only
                cases fetcher.model.field? parentType selection.name <;> rfl

/-- The conditions of a field have no part in answering it. -/
theorem executePrepared_unconditional
    (fetcher : DataFetcher)
    (ready : PreparedField)
    (path : FieldPath) :
    fetcher.executePrepared ready.unconditional path =
      fetcher.executePrepared ready path := by
  cases ready with
  | typename type =>
      rfl
  | query field selection fragment start =>
      cases selection
      rfl

theorem prepareAll_cons
    (fetcher : DataFetcher)
    (selection : FieldSelection)
    (rest : List FieldSelection) :
    fetcher.prepareAll (selection :: rest) = do
      let ready ← fetcher.prepare selection .root
      let others ← fetcher.prepareAll rest
      return (selection.responseKey, ready) :: others := by
  rw [prepareAll, List.mapM_cons]
  cases fetcher.prepare selection .root <;> rfl

theorem prepareAll_unconditional
    (fetcher : DataFetcher)
    (selections : List FieldSelection) :
    fetcher.prepareAll (selections.map FieldSelection.unconditional) =
      List.map (Prod.map id PreparedField.unconditional) <$>
        fetcher.prepareAll selections := by
  induction selections with
  | nil =>
      rfl
  | cons selection rest inductionHypothesis =>
      rw [List.map_cons, prepareAll_cons, prepareAll_cons, inductionHypothesis,
        prepare_unconditional]
      cases fetcher.prepare selection .root with
      | error cause =>
          rfl
      | ok ready =>
          cases fetcher.prepareAll rest <;> rfl

theorem answerAll_unconditional
    (fetcher : DataFetcher)
    (response : GraphQLResponse)
    (prepared : List (String × PreparedField)) :
    fetcher.answerAll response
        (prepared.map (Prod.map id PreparedField.unconditional)) =
      fetcher.answerAll response prepared := by
  induction prepared generalizing response with
  | nil =>
      rfl
  | cons first rest inductionHypothesis =>
      obtain ⟨key, ready⟩ := first
      rw [List.map_cons, Prod.map_apply, id, answerAll, answerAll,
        executePrepared_unconditional]
      simp only [inductionHypothesis]

/-- Answers selections on the query type. -/
def respond
    (fetcher : DataFetcher)
    (selections : List FieldSelection) : DatabaseDialogue GraphQLResponse :=
  match fetcher.prepareAll selections with
  | .error cause => return .refusal (.unsupported cause)
  | .ok prepared => fetcher.answerAll .empty prepared

theorem handle_eq_respond
    {request : GraphQLRequest}
    (fetcher : DataFetcher)
    (read : request.selections = .ok selections) :
    fetcher.handle request = fetcher.respond selections := by
  rw [handle, read]
  rfl

/-- The conditions of selections on the query type have no part in the dialogue. -/
theorem respond_unconditional
    (fetcher : DataFetcher)
    (selections : List FieldSelection) :
    fetcher.respond (selections.map FieldSelection.unconditional) =
      fetcher.respond selections := by
  unfold respond
  rw [prepareAll_unconditional]
  cases fetcher.prepareAll selections with
  | error cause =>
      rfl
  | ok prepared =>
      exact fetcher.answerAll_unconditional .empty prepared

/-- A request is refused as a whole, with a failure that has no place. -/
def Refuses (fetcher : DataFetcher) (request : GraphQLRequest) : Prop :=
  ∃ cause : ResponseError,
    cause.path? = none ∧ fetcher.handle request = .done (.refusal cause)

/--
A request whose query fields stand under type conditions is handled like one
that asks for the same fields under other conditions or under none, whatever the
query type is. Unless the request is refused as a whole, the query of each field
is asked, and the field is in the data.
-/
theorem query_fields_answered_whatever_conditions
    (fetcher : DataFetcher)
    {conditional plain : GraphQLRequest}
    {enclosed free : List FieldOccurrence}
    (asks : conditional.Asks enclosed)
    (asksPlain : plain.Asks free)
    (alike :
      enclosed.map FieldOccurrence.unenclosed =
        free.map FieldOccurrence.unenclosed) :
    fetcher.handle conditional = fetcher.handle plain ∧
      (fetcher.Refuses conditional ∨
        ∀ (answer : σ → (command : Command) → command.Reply × σ) (state : σ),
          List.Forall₂ fetcher.IsAskedFor
              ((FieldSelection.merge
                  (free.map FieldOccurrence.selection)).filter
                fun selection => !selection.isTypename)
              (Dialogue.asked answer state (fetcher.handle conditional)) ∧
            ∀ data,
              (Dialogue.run answer state
                  (fetcher.handle conditional)).1.data = some data →
                ∀ occurrence ∈ enclosed,
                  occurrence.responseKey ∈ Table.keys data) := by
  have read := GraphQLRequest.selections_eq_ok_iff.mpr ⟨enclosed, asks, rfl⟩
  have readPlain := GraphQLRequest.selections_eq_ok_iff.mpr ⟨free, asksPlain, rfl⟩
  have same : fetcher.handle conditional = fetcher.handle plain := by
    rw [fetcher.handle_eq_respond read, fetcher.handle_eq_respond readPlain,
      ← fetcher.respond_unconditional, FieldOccurrence.merge_alike alike,
      fetcher.respond_unconditional]
  refine ⟨same, ?_⟩
  cases succeeds :
      fetcher.prepareAll
        (FieldSelection.merge (free.map FieldOccurrence.selection)) with
  | error cause =>
      refine .inl ⟨.unsupported cause, rfl, ?_⟩
      rw [same, fetcher.handle_eq_respond readPlain, respond, succeeds]
      rfl
  | ok prepared =>
      have answered :
          fetcher.handle conditional = fetcher.answerAll .empty prepared := by
        rw [same, fetcher.handle_eq_respond readPlain, respond, succeeds]
      refine .inr fun answer state => ?_
      rw [answered]
      obtain ⟨-, eachAsked, keys⟩ :=
        answerAll_of_prepareAll succeeds (FieldSelection.nodup_merge _) answer
          state
      constructor
      · exact eachAsked
      · intro data found occurrence member
        have sameKeys := congrArg (List.map FieldOccurrence.responseKey) alike
        rw [List.map_map, List.map_map] at sameKeys
        rw [keys data found, map_responseKey_merge_occurrences,
          List.mem_eraseDups]
        exact sameKeys ▸
          List.mem_map_of_mem (f := FieldOccurrence.responseKey) member

end DataFetcher

namespace GraphQLRequest

/-- The animals, asked for as a field of a dog. -/
def animalsOfDog : GraphQLRequest where
  query := "\x7b...on Dog\x7banimals\x7b__typename\x7d\x7d\x7d"
  operationName := none
  bindings := []

/-- The animals, asked for as a field of any type. -/
def animalsRequest : GraphQLRequest where
  query := "\x7banimals\x7b__typename\x7d\x7d"
  operationName := none
  bindings := []

theorem animalsOfDog_asks :
    animalsOfDog.Asks
      [⟨["Dog"], none, "animals", [], [⟨[], none, "__typename", [], []⟩]⟩] := by
  have parsed :
      GraphQL.QueryDocument.parse animalsOfDog.query =
        .ok ⟨[⟨.query, none, [], [], [
          .inlineFragment (some "Dog") [] [
            .field none "animals" [] [] [
              .field none "__typename" [] [] []]]]⟩], []⟩ := by
    with_unfolding_all rfl
  refine .intro parsed rfl rfl ?_
  have kept := GraphQL.not_isLeftOut_nil []
  exact .inlineFragment kept (.field kept (.field kept .nil .nil) .nil) .nil

/-- The document of the request for the animals. -/
def animalsDocument : GraphQL.QueryDocument where
  operations := [
    ⟨.query, none, [], [], [
      .field none "animals" [] [] [.field none "__typename" [] [] []]]⟩]
  fragments := []

theorem parse_animalsRequest :
    GraphQL.QueryDocument.parse animalsRequest.query = .ok animalsDocument := by
  with_unfolding_all rfl

theorem animalsRequest_asks :
    animalsRequest.Asks
      [⟨[], none, "animals", [], [⟨[], none, "__typename", [], []⟩]⟩] := by
  refine .intro parse_animalsRequest rfl rfl ?_
  have kept := GraphQL.not_isLeftOut_nil []
  exact .field kept (.field kept .nil .nil) .nil

/-- The animals of a dog are asked for like those of any type. -/
theorem animalsOfDog_handled_as_animals :
    animalsOfDog.Asks
        [⟨["Dog"], none, "animals", [], [⟨[], none, "__typename", [], []⟩]⟩] ∧
      clinicFetcher.handle animalsOfDog = clinicFetcher.handle animalsRequest :=
  ⟨animalsOfDog_asks,
    (DataFetcher.query_fields_answered_whatever_conditions (σ := Unit)
      clinicFetcher animalsOfDog_asks animalsRequest_asks rfl).1⟩

theorem selections_animalsOfDog :
    animalsOfDog.selections =
      .ok [((FieldSelection.ofName "animals").onType "Dog").withNested
        (FieldSelection.ofName "__typename")] := by
  rw [selections_eq_ok_iff.mpr ⟨_, animalsOfDog_asks, rfl⟩]
  with_unfolding_all rfl

/-- The animals are asked for as a field of a dog, which the query type is not, and are answered. -/
theorem animals_answered_for_query_type :
    (⟨FieldSelection.clinicTypes, [], [], none⟩ : ModelBuilder).build =
        .ok clinicFetcher.model ∧
      DiscriminatorRegistry.ofModel clinicFetcher.model =
        .ok clinicFetcher.registry ∧
      animalsOfDog.Asks
        [⟨["Dog"], none, "animals", [], [⟨[], none, "__typename", [], []⟩]⟩] ∧
      clinicFetcher.model.queryTypeName = some "Query" ∧
      clinicFetcher.model.isSubtype "Query" "Dog" = false ∧
      (Dialogue.asked (DataFetcher.answering [ownedDog]) ()
        (clinicFetcher.handle animalsOfDog)).length = 1 ∧
      (Dialogue.run (DataFetcher.answering [ownedDog]) ()
          (clinicFetcher.handle animalsOfDog)).1.data =
        some [("animals", .list [.object "Dog" [
          ("__typename", .scalar (.string "Dog"))]])] := by
  refine ⟨by rfl, by rfl, animalsOfDog_asks, rfl, by rfl, ?_⟩
  rw [clinicFetcher.handle_eq_respond selections_animalsOfDog]
  exact ⟨by rfl, by rfl⟩

end GraphQLRequest

end GraphGate
