import GraphGate.Proofs.Compilation.Pruning
import GraphGate.Proofs.Request.QueryFields
import GraphGate.Proofs.Request.SkippedParts

namespace GraphGate

/-!
# Requests with skipped parts

A request that is answered without `@skip` and `@include` is compared with the
same request with them. If each selection could stand on its own, the latter is
refused exactly if some field is left of which all that was selected in it is
skipped: nothing tells such a field from one that selects nothing.
-/

namespace FieldSelection

variable {kept all : List FieldSelection}

theorem Prunes.unconditional (prunes : Prunes kept all) :
    Prunes (kept.map unconditional) (all.map unconditional) := by
  induction prunes with
  | nil =>
      exact .nil
  | leaveOut _ inductionHypothesis =>
      exact .leaveOut inductionHypothesis
  | @keep selection inner kept all inside _ _ inductionHypothesis =>
      have keeps :
          Prunes
            (selection.unconditional.selecting inner ::
              kept.map FieldSelection.unconditional)
            (selection.unconditional ::
              all.map FieldSelection.unconditional) :=
        .keep inside inductionHypothesis
      exact keeps

theorem nestedUnder_unconditional
    (key : String)
    (selections : List FieldSelection) :
    nestedUnder key (selections.map unconditional) =
      nestedUnder key selections := by
  unfold nestedUnder ofKey
  rw [List.filter_map, List.flatMap_map]
  rfl

/-- Whether a field is emptied does not depend on the conditions at the top. -/
theorem emptied_unconditional_iff :
    Emptied (kept.map unconditional) (all.map unconditional) ↔
      Emptied kept all := by
  have sameKey (key : String) :
      EmptiedAt key (kept.map unconditional) (all.map unconditional) ↔
        EmptiedAt key kept all := by
    unfold EmptiedAt
    rw [nestedUnder_unconditional, nestedUnder_unconditional]
  rw [emptied_iff, emptied_iff]
  constructor
  · intro somewhere
    rcases somewhere with ⟨selection, member, isField, cause⟩
    obtain ⟨original, isOriginal, rfl⟩ := List.mem_map.mp member
    exact ⟨original, isOriginal, isField, (sameKey _).mp cause⟩
  · intro somewhere
    rcases somewhere with ⟨selection, member, isField, cause⟩
    exact ⟨selection.unconditional, List.mem_map_of_mem member, isField,
      (sameKey _).mpr cause⟩

end FieldSelection

/-- Fields that are not inside another one are answered with documents. -/
theorem Compiler.exists_documents_of_root
    {compiler : Compiler}
    {parentType : String}
    {keys : List String}
    {selection : FieldSelection}
    {compiled : QueryFragment}
    (isCompiled :
      compiler.compileField parentType .root keys selection = .ok compiled) :
    ∃ fragment field,
      compiled = .documents fragment ∧
        compiler.model.field? parentType selection.name = some field := by
  have accepts := accepts_of_compileField isCompiled
  cases accepts with
  | documents declared =>
      exact ⟨_, _, rfl, declared⟩
  | property _ _ _ _ inside =>
      rcases inside with isDocument | isEmbedded
      · cases isDocument
      · cases isEmbedded

namespace DataFetcher

variable {fetcher : DataFetcher} {request plain : GraphQLRequest}
variable {selection : FieldSelection} {selections : List FieldSelection}
variable {queryType : TypeDeclaration}

/-- A field of the query type can be made ready if it is accepted there, on every type. -/
theorem exists_prepare_iff
    (declared : fetcher.model.queryType? = some queryType) :
    (∃ ready, fetcher.prepare selection .root = .ok ready) ↔
      (selection.isTypename = false →
        ∃ compiled,
          fetcher.compiler.AcceptsNested queryType.name .root []
            selection.unconditional compiled) := by
  have resolved :
      fetcher.resolveParent selection .root =
        .ok (queryType.name, .root, none) := by
    simp only [resolveParent, declared]
  cases typename : selection.isTypename with
  | true =>
      constructor
      · intro _ isField
        cases isField
      · intro _
        refine ⟨.typename queryType.name, ?_⟩
        refine Success.bind_eq_ok_iff.mpr ⟨_, resolved, ?_⟩
        exact if_pos typename
  | false =>
      have notTypename : ¬ selection.isTypename = true := by
        simp [typename]
      constructor
      · intro prepared _
        rcases prepared with ⟨ready, isReady⟩
        obtain ⟨place, isPlace, isReady⟩ := Success.bind_eq_ok_iff.mp isReady
        cases resolved.symm.trans isPlace
        dsimp only at isReady
        rw [if_neg notTypename] at isReady
        obtain ⟨compiled, isCompiled, -⟩ := Success.bind_eq_ok_iff.mp isReady
        refine ⟨compiled, queryType.name, rfl, ?_⟩
        rw [Compiler.compileField_unconditional, isCompiled]
      · intro accepted
        obtain ⟨compiled, owner, owned, isCompiled⟩ := accepted rfl
        cases owned
        rw [Compiler.compileField_unconditional] at isCompiled
        obtain ⟨fragment, field, rfl, found⟩ :=
          Compiler.exists_documents_of_root isCompiled
        have isDeclared :
            fetcher.model.field? queryType.name selection.name = some field :=
          found
        refine ⟨.query field selection fragment none, ?_⟩
        refine Success.bind_eq_ok_iff.mpr ⟨_, resolved, ?_⟩
        dsimp only
        rw [if_neg notTypename]
        refine Success.bind_eq_ok_iff.mpr ⟨_, isCompiled, ?_⟩
        dsimp only
        rw [isDeclared]
        rfl

/-- The fields of the query type can be made ready if all of them are accepted there. -/
theorem exists_prepareAll_iff_acceptsAll
    (declared : fetcher.model.queryType? = some queryType) :
    (∃ prepared, fetcher.prepareAll selections = .ok prepared) ↔
      fetcher.compiler.AcceptsAll queryType.name .root []
        (selections.map FieldSelection.unconditional) := by
  rw [exists_prepareAll_iff]
  constructor
  · intro each nested isNested isField
    obtain ⟨selection, member, rfl⟩ := List.mem_map.mp isNested
    exact (exists_prepare_iff declared).mp (each selection member) isField
  · intro accepts selection member
    exact (exists_prepare_iff declared).mpr fun isField =>
      accepts selection.unconditional (List.mem_map_of_mem member) isField

/-- Without a query type nothing can be made ready. -/
theorem eq_nil_of_prepareAll
    {prepared : List (String × PreparedField)}
    (undeclared : fetcher.model.queryType? = none)
    (succeeds : fetcher.prepareAll selections = .ok prepared) :
    selections = [] := by
  cases selections with
  | nil =>
      rfl
  | cons selection rest =>
      rw [prepareAll_cons] at succeeds
      obtain ⟨ready, isReady, -⟩ := Success.bind_eq_ok_iff.mp succeeds
      obtain ⟨place, isPlace, -⟩ := Success.bind_eq_ok_iff.mp isReady
      simp only [resolveParent, undeclared] at isPlace
      cases isPlace

/-- A request that can be read is refused exactly if its fields cannot be made ready. -/
theorem refuses_iff
    (read : request.selections = .ok selections) :
    fetcher.Refuses request ↔
      ¬ ∃ prepared, fetcher.prepareAll selections = .ok prepared := by
  constructor
  · intro refuses made
    rcases refuses with ⟨cause, unplaced, refused⟩
    rcases made with ⟨prepared, succeeds⟩
    obtain ⟨placed, -⟩ :=
      answerAll_of_prepareAll succeeds (request.nodup_selections read)
        (answering []) ()
    rw [fetcher.handle_eq_respond read, respond, succeeds] at refused
    dsimp only at refused
    rw [refused] at placed
    -- The failure of a refusal has no place, and those of an answer have one.
    have hasPlace := placed cause (List.mem_singleton_self cause)
    rw [unplaced] at hasPlace
    cases hasPlace
  · intro fails
    cases succeeds : fetcher.prepareAll selections with
    | ok prepared =>
        exact (fails ⟨prepared, succeeds⟩).elim
    | error cause =>
        refine ⟨.unsupported cause, rfl, ?_⟩
        rw [fetcher.handle_eq_respond read, respond, succeeds]
        rfl

/-- A request that cannot be read is refused. -/
theorem refuses_of_unread
    {cause : RequestError}
    (unread : request.selections = .error cause) :
    fetcher.Refuses request := by
  refine ⟨.request cause, rfl, ?_⟩
  rw [handle, unread]
  rfl

/--
A request that is answered without `@skip` and `@include` emits the same
selections with them, but for some that are left out. If each of those selections
could stand on its own, the request is refused exactly if a field is left of
which all that was selected in it is left out.
-/
theorem skipping_refused_iff_emptied
    {document : GraphQL.QueryDocument}
    (parsed : GraphQL.QueryDocument.parse request.query = .ok document)
    (parsedPlain :
      GraphQL.QueryDocument.parse plain.query = .ok document.unskipped)
    (sameOperation : plain.operationName = request.operationName)
    (sameBindings : plain.bindings = request.bindings)
    (answered : ¬ fetcher.Refuses plain) :
    ∃ kept all,
      request.emitted = .ok kept ∧
        plain.emitted = .ok all ∧
        FieldSelection.Prunes kept all ∧
        ((∀ queryType,
            fetcher.model.queryType? = some queryType →
              fetcher.compiler.Agrees queryType.name
                (all.map FieldSelection.unconditional)) →
          (fetcher.Refuses request ↔ FieldSelection.Emptied kept all)) := by
  have readPlain := plain.selections_eq_merge
  have read := request.selections_eq_merge
  cases emits : plain.emitted with
  | error cause =>
      rw [emits] at readPlain
      exact (answered (refuses_of_unread readPlain)).elim
  | ok all =>
      obtain ⟨kept, keeps, prunes⟩ :=
        GraphQLRequest.exists_emitted_prunes parsed parsedPlain sameOperation
          sameBindings emits
      rw [emits] at readPlain
      rw [keeps] at read
      refine ⟨kept, all, keeps, rfl, prunes, fun agrees => ?_⟩
      rw [refuses_iff readPlain, not_not] at answered
      rw [refuses_iff read, not_iff_comm, Iff.comm]
      cases declared : fetcher.model.queryType? with
      | none =>
          obtain ⟨prepared, succeeds⟩ := answered
          have nothing : all = [] := by
            have merged := eq_nil_of_prepareAll declared succeeds
            rw [← List.isEmpty_iff, FieldSelection.isEmpty_merge,
              List.isEmpty_iff] at merged
            exact merged
          subst nothing
          cases prunes.eq_nil
          constructor
          · intro _ emptied
            obtain ⟨selection, member, -⟩ := FieldSelection.emptied_iff.mp emptied
            cases member
          · intro _
            exact ⟨prepared, succeeds⟩
      | some queryType =>
          rw [exists_prepareAll_iff_acceptsAll declared,
            ← FieldSelection.merge_unconditional] at answered ⊢
          rw [(agrees queryType declared).prunedAcceptably prunes.unconditional
            .root [] answered, FieldSelection.emptied_unconditional_iff]

end DataFetcher

namespace GraphQLRequest

/-- What a request asks for is what it emits. -/
theorem Asks.emitted_eq
    {request : GraphQLRequest}
    {occurrences : List FieldOccurrence}
    (asks : request.Asks occurrences) :
    request.emitted = .ok (occurrences.map FieldOccurrence.selection) := by
  obtain ⟨isDocument, isSelected, isQuery, unfolds⟩ := asks
  have expanded := unfolds.expand_eq
  rw [List.getLast?_nil] at expanded
  simp only [emitted, isDocument, isSelected, isQuery,
    GraphQL.QueryDocument.expansion, expanded, bind, Except.bind]

/-- The animals, with all that is selected of them skipped. -/
def animalsWithoutFields : GraphQLRequest where
  query := "\x7banimals\x7b__typename@skip(if:true)\x7d\x7d"
  operationName := none
  bindings := []

/-- The document of the request. -/
def skippingDocument : GraphQL.QueryDocument where
  operations := [
    ⟨.query, none, [], [], [
      .field none "animals" [] [] [
        .field none "__typename" [] [⟨"skip", [("if", .boolean true)]⟩] []]]⟩]
  fragments := []

theorem parse_animalsWithoutFields :
    GraphQL.QueryDocument.parse animalsWithoutFields.query =
      .ok skippingDocument := by
  with_unfolding_all rfl

theorem animalsWithoutFields_asks :
    animalsWithoutFields.Asks [⟨[], none, "animals", [], []⟩] := by
  refine .intro parse_animalsWithoutFields rfl rfl ?_
  have leftOut :
      GraphQL.IsLeftOut [] [⟨"skip", [("if", .boolean true)]⟩] :=
    ⟨_, List.mem_cons_self, .skips rfl rfl (.literal true)⟩
  exact .field (GraphQL.not_isLeftOut_nil []) (.skipped leftOut .nil) .nil

theorem emitted_animalsWithoutFields :
    animalsWithoutFields.emitted = .ok [FieldSelection.ofName "animals"] :=
  animalsWithoutFields_asks.emitted_eq

theorem emitted_animalsRequest :
    animalsRequest.emitted =
      .ok [(FieldSelection.ofName "animals").withNested
        (FieldSelection.ofName "__typename")] :=
  animalsRequest_asks.emitted_eq

theorem parse_animalsRequest_unskipped :
    GraphQL.QueryDocument.parse animalsRequest.query =
      .ok skippingDocument.unskipped :=
  parse_animalsRequest

/-- The animals can stand on their own, and so can their type name. -/
theorem agrees_animals :
    clinicFetcher.compiler.Agrees "Query"
      [(FieldSelection.ofName "animals").withNested
        (FieldSelection.ofName "__typename")] := by
  let animals : FieldDeclaration :=
    ⟨"animals", .list (.named "Animal"), .none⟩
  have typenameAgrees :
      clinicFetcher.compiler.Agrees "Animal"
        [FieldSelection.ofName "__typename"] := by
    refine .intro (fun _ => animals) (Compiler.fits_singleton ?_ ?_) ?_
    · intro isField
      cases isField
    · intro isField
      cases isField
    · intro selection member isField
      cases List.mem_singleton.mp member
      cases isField
  refine .intro (fun _ => animals) (Compiler.fits_singleton ?_ ?_) ?_
  · intro _
    exact ⟨"Query", rfl, rfl⟩
  · intro _
    exact ⟨_, rfl⟩
  · intro selection member _
    cases List.mem_singleton.mp member
    exact typenameAgrees

theorem selections_animalsRequest :
    animalsRequest.selections =
      .ok [(FieldSelection.ofName "animals").withNested
        (FieldSelection.ofName "__typename")] := by
  rw [selections_eq_merge, emitted_animalsRequest]
  with_unfolding_all rfl

theorem selections_animalsWithoutFields :
    animalsWithoutFields.selections =
      .ok [FieldSelection.ofName "animals"] := by
  rw [selections_eq_merge, emitted_animalsWithoutFields]
  with_unfolding_all rfl

theorem animalsRequest_not_refused :
    ¬ clinicFetcher.Refuses animalsRequest := by
  rw [DataFetcher.refuses_iff selections_animalsRequest, not_not]
  exact ⟨_, rfl⟩

/-- The animals of which nothing is left are refused because they are emptied. -/
theorem animalsWithoutFields_refused_as_emptied :
    GraphQL.QueryDocument.parse animalsWithoutFields.query =
        .ok skippingDocument ∧
      GraphQL.QueryDocument.parse animalsRequest.query =
        .ok skippingDocument.unskipped ∧
      ¬ clinicFetcher.Refuses animalsRequest ∧
      clinicFetcher.Refuses animalsWithoutFields := by
  obtain ⟨kept, all, keeps, emits, -, refusedIff⟩ :=
    DataFetcher.skipping_refused_iff_emptied parse_animalsWithoutFields
      parse_animalsRequest_unskipped rfl rfl animalsRequest_not_refused
  cases keeps.symm.trans emitted_animalsWithoutFields
  cases emits.symm.trans emitted_animalsRequest
  have agrees (queryType : TypeDeclaration)
      (declared : clinicFetcher.model.queryType? = some queryType) :
      clinicFetcher.compiler.Agrees queryType.name
        ([(FieldSelection.ofName "animals").withNested
          (FieldSelection.ofName "__typename")].map
            FieldSelection.unconditional) := by
    cases declared
    exact agrees_animals
  have emptied :
      FieldSelection.Emptied [FieldSelection.ofName "animals"]
        [(FieldSelection.ofName "animals").withNested
          (FieldSelection.ofName "__typename")] := by
    refine .here List.mem_cons_self rfl rfl ?_
    intro nothing
    cases nothing
  exact ⟨parse_animalsWithoutFields, parse_animalsRequest_unskipped,
    animalsRequest_not_refused, (refusedIff agrees).mpr emptied⟩

/--
The animals are answered with their type name, and refused if it is skipped: as
nothing is selected of them then, a selection of their fields is asked for.
-/
theorem animals_refused_when_fields_skipped :
    (⟨FieldSelection.clinicTypes, [], [], none⟩ : ModelBuilder).build =
        .ok clinicFetcher.model ∧
      DiscriminatorRegistry.ofModel clinicFetcher.model =
        .ok clinicFetcher.registry ∧
      GraphQL.QueryDocument.parse animalsWithoutFields.query =
        .ok skippingDocument ∧
      GraphQL.QueryDocument.parse animalsRequest.query =
        .ok skippingDocument.unskipped ∧
      (Dialogue.run (DataFetcher.answering [ownedDog]) ()
          (clinicFetcher.handle animalsRequest)).1 =
        ⟨some [("animals", .list [.object "Dog" [
          ("__typename", .scalar (.string "Dog"))]])], []⟩ ∧
      clinicFetcher.handle animalsWithoutFields =
        .done (.refusal (.unsupported
          ⟨"Query", "animals", .selectionRequired "Animal"⟩)) := by
  refine ⟨by rfl, by rfl, parse_animalsWithoutFields,
    parse_animalsRequest_unskipped, ?_, ?_⟩
  · rw [clinicFetcher.handle_eq_respond selections_animalsRequest]
    rfl
  · rw [clinicFetcher.handle_eq_respond selections_animalsWithoutFields]
    rfl

end GraphQLRequest

end GraphGate
