import GraphGate.Proofs.PiecewiseMerging
import GraphGate.Proofs.Store.Simulation
import GraphGate.Request.Handling

namespace GraphGate

/-!
# Which selection answers a field

The fields of an operation that share a response key at one place are answered
by one selection. It asks for what the first of them asks for, so each of them
is answered by a selection of its own field and arguments exactly if they all
ask alike. Nothing checks that they do.
-/

namespace FieldSelection

variable {selection merged answer : FieldSelection}
variable {selections : List FieldSelection}

/-- Two selections ask for one field with the same arguments, in any order. -/
def AsksAlike (first second : FieldSelection) : Prop :=
  first.name = second.name ∧ first.arguments.Perm second.arguments

theorem AsksAlike.symm
    {first second : FieldSelection}
    (alike : first.AsksAlike second) :
    second.AsksAlike first :=
  ⟨alike.1.symm, alike.2.symm⟩

theorem AsksAlike.trans
    {first second third : FieldSelection}
    (alike : first.AsksAlike second)
    (others : second.AsksAlike third) :
    first.AsksAlike third :=
  ⟨alike.1.trans others.1, alike.2.trans others.2⟩

/-! One selection for several of a response key. -/

theorem asked_foldl_combine
    (first : FieldSelection)
    (rest : List FieldSelection) :
    (rest.foldl combine first).name = first.name ∧
      (rest.foldl combine first).arguments = first.arguments := by
  induction rest generalizing first with
  | nil =>
      exact ⟨rfl, rfl⟩
  | cons second rest inductionHypothesis =>
      exact inductionHypothesis (first.combine second)

/-- A merged selection asks for what the first selection of its response key asks for. -/
theorem exists_merged_of_first
    (member : selection ∈ selections) :
    ∃ merged ∈ merge selections,
      merged.responseKey = selection.responseKey ∧
        ∃ first,
          selections.find? (·.responseKey = selection.responseKey) =
              some first ∧
            merged.name = first.name ∧ merged.arguments = first.arguments := by
  obtain ⟨merged, isMember, sameKey⟩ := exists_mem_merge member
  obtain ⟨first, rest, sharing, isMerged⟩ := exists_of_mem_merge isMember
  have isFirst :
      selections.find? (·.responseKey = selection.responseKey) = some first := by
    rw [← List.head?_filter, ← ofKey, ← sameKey, sharing]
    rfl
  refine ⟨merged, isMember, sameKey, first, isFirst, ?_⟩
  rw [isMerged]
  exact asked_foldl_combine first rest

end FieldSelection

namespace GraphQLRequest

variable {request : GraphQLRequest} {selections : List FieldSelection}
variable {occurrences : List FieldOccurrence}

/-- Each field is answered, by a selection that asks for what the first field of its key asks for. -/
theorem exists_answer_of_first
    {keys : List String}
    {occurrence : FieldOccurrence}
    (member : occurrence ∈ FieldOccurrence.under keys occurrences) :
    ∃ answer ∈ FieldSelection.under keys
        (FieldSelection.merge (occurrences.map FieldOccurrence.selection)),
      answer.responseKey = occurrence.responseKey ∧
        ∃ first,
          (FieldOccurrence.under keys occurrences).find?
              (·.responseKey = occurrence.responseKey) = some first ∧
            answer.name = first.name ∧ answer.arguments = first.arguments := by
  rw [FieldSelection.under_merge, FieldOccurrence.under_map_selection]
  obtain ⟨answer, isAnswer, sameKey, first, isFirst, name, arguments⟩ :=
    FieldSelection.exists_merged_of_first
      (List.mem_map_of_mem (f := FieldOccurrence.selection) member)
  rw [List.find?_map] at isFirst
  obtain ⟨firstOccurrence, isFound, rfl⟩ := Option.map_eq_some_iff.mp isFirst
  refine ⟨answer, isAnswer, ?_, firstOccurrence, ?_, ?_, ?_⟩
  · rw [sameKey, FieldOccurrence.responseKey_selection]
  · simpa [Function.comp_def] using isFound
  · rw [name, FieldOccurrence.name_selection]
  · rw [arguments, FieldOccurrence.arguments_selection]

/--
The fields of a request that share a response key at one place are answered by
one selection, and it asks for what the first of them asks for. So each field is
answered by a selection of its own field and arguments exactly if the fields that
share a response key ask alike.
-/
theorem selections_ask_for_first
    (read : request.selections = .ok selections) :
    ∃ occurrences,
      request.Asks occurrences ∧
        ∀ keys,
          ((FieldSelection.under keys selections).map
              FieldSelection.responseKey).Nodup ∧
            (∀ occurrence ∈ FieldOccurrence.under keys occurrences,
              ∃ answer ∈ FieldSelection.under keys selections,
                answer.responseKey = occurrence.responseKey ∧
                  ∃ first,
                    (FieldOccurrence.under keys occurrences).find?
                        (·.responseKey = occurrence.responseKey) =
                          some first ∧
                      answer.name = first.name ∧
                      answer.arguments = first.arguments) ∧
            ((∀ occurrence ∈ FieldOccurrence.under keys occurrences,
                ∃ answer ∈ FieldSelection.under keys selections,
                  answer.responseKey = occurrence.responseKey ∧
                    answer.AsksAlike occurrence.selection) ↔
              ∀ one ∈ FieldOccurrence.under keys occurrences,
                ∀ other ∈ FieldOccurrence.under keys occurrences,
                  one.responseKey = other.responseKey →
                    one.selection.AsksAlike other.selection) := by
  obtain ⟨occurrences, asks, isMerged⟩ := selections_eq_ok_iff.mp read
  refine ⟨occurrences, asks, ?_⟩
  intro keys
  have distinct :
      ((FieldSelection.under keys selections).map
        FieldSelection.responseKey).Nodup := by
    rw [isMerged, FieldSelection.under_merge]
    exact FieldSelection.nodup_merge _
  have answered (occurrence : FieldOccurrence)
      (member : occurrence ∈ FieldOccurrence.under keys occurrences) :
      ∃ answer ∈ FieldSelection.under keys selections,
        answer.responseKey = occurrence.responseKey ∧
          ∃ first,
            (FieldOccurrence.under keys occurrences).find?
                (·.responseKey = occurrence.responseKey) = some first ∧
              answer.name = first.name ∧
              answer.arguments = first.arguments := by
    rw [isMerged]
    exact exists_answer_of_first member
  refine ⟨distinct, answered, ?_, ?_⟩
  · intro answeredAlike one isOne other isOther sameKey
    obtain ⟨first, inFirst, firstKey, firstAlike⟩ := answeredAlike one isOne
    obtain ⟨second, inSecond, secondKey, secondAlike⟩ :=
      answeredAlike other isOther
    have sameAnswer : first = second := by
      refine List.inj_on_of_nodup_map distinct inFirst inSecond ?_
      rw [firstKey, secondKey, sameKey]
    subst sameAnswer
    exact firstAlike.symm.trans secondAlike
  · intro alike occurrence member
    obtain ⟨answer, isAnswer, sameKey, first, isFirst, name, arguments⟩ :=
      answered occurrence member
    have firstKey : first.responseKey = occurrence.responseKey := by
      simpa using List.find?_some isFirst
    have firstAlike :=
      alike first (List.mem_of_find?_eq_some isFirst) occurrence member firstKey
    refine ⟨answer, isAnswer, sameKey, ?_⟩
    refine FieldSelection.AsksAlike.trans ⟨?_, ?_⟩ firstAlike
    · rw [name, FieldOccurrence.name_selection]
    · rw [arguments, FieldOccurrence.arguments_selection]

/-- The name and the phone of the owners of animals, both as the contact. -/
def contactRequest : GraphQLRequest where
  query := "\x7banimals\x7bowner\x7bcontact:name contact:phone\x7d\x7d\x7d"
  operationName := none
  bindings := []

/-- The document of the request. -/
def contactDocument : GraphQL.QueryDocument where
  operations := [
    ⟨.query, none, [], [], [
      .field none "animals" [] [] [
        .field none "owner" [] [] [
          .field (some "contact") "name" [] [] [],
          .field (some "contact") "phone" [] [] []]]]⟩]
  fragments := []

/-- The fields that the request asks for. -/
def contactOccurrences : List FieldOccurrence := [
  ⟨[], none, "animals", [], [
    ⟨[], none, "owner", [], [
      ⟨[], some "contact", "name", [], []⟩,
      ⟨[], some "contact", "phone", [], []⟩]⟩]⟩]

theorem contactRequest_asks :
    contactRequest.Asks contactOccurrences := by
  have parsed :
      GraphQL.QueryDocument.parse contactRequest.query =
        .ok contactDocument := by
    with_unfolding_all rfl
  refine .intro parsed rfl rfl ?_
  have kept := GraphQL.not_isLeftOut_nil []
  exact .field kept
    (.field kept (.field kept .nil (.field kept .nil .nil)) .nil) .nil

/-- What is selected for the request. -/
def contactSelections : List FieldSelection := [
  (FieldSelection.ofName "animals").withNested
    ((FieldSelection.ofName "owner").withNested
      ((FieldSelection.ofName "name").withLabel "contact"))]

theorem selections_contactRequest :
    contactRequest.selections = .ok contactSelections := by
  rw [selections_eq_ok_iff.mpr ⟨_, contactRequest_asks, rfl⟩]
  with_unfolding_all rfl

/-- The owners are answered, and both contacts by one selection. -/
theorem contactRequest_answered :
    contactRequest.selections = .ok contactSelections ∧
      ∃ occurrences,
        contactRequest.Asks occurrences ∧
          ∀ occurrence ∈
              FieldOccurrence.under ["animals", "owner"] occurrences,
            ∃ answer ∈
                FieldSelection.under ["animals", "owner"] contactSelections,
              answer.responseKey = occurrence.responseKey := by
  obtain ⟨occurrences, asks, each⟩ :=
    selections_ask_for_first selections_contactRequest
  obtain ⟨-, answered, -⟩ := each ["animals", "owner"]
  refine ⟨selections_contactRequest, occurrences, asks, ?_⟩
  intro occurrence member
  obtain ⟨answer, isAnswer, sameKey, -⟩ := answered occurrence member
  exact ⟨answer, isAnswer, sameKey⟩

/-- Answers requests to the clinic. -/
def clinicFetcher : DataFetcher where
  model := FieldSelection.clinic.model
  registry := FieldSelection.clinic.registry
  chain := .standard
  database := systemDatabase
  timeout := none

/-- A dog whose owner has a name. -/
def ownedDog : Json :=
  .object [
    ("__meta", .object [("kind", .string "Dog")]),
    ("owner", .object [
      ("__meta", .object []),
      ("contact", .string "Ada")])]

/--
The request is answered without an error, and the phone that it asks for as the
contact is answered with the name.
-/
theorem phone_answered_with_name :
    (⟨FieldSelection.clinicTypes, [], [], none⟩ : ModelBuilder).build =
        .ok clinicFetcher.model ∧
      DiscriminatorRegistry.ofModel clinicFetcher.model =
        .ok clinicFetcher.registry ∧
      contactRequest.Asks contactOccurrences ∧
      contactRequest.selections = .ok contactSelections ∧
      (∃ occurrence ∈
          FieldOccurrence.under ["animals", "owner"] contactOccurrences,
        occurrence.responseKey = "contact" ∧ occurrence.name = "phone" ∧
          ∀ answer ∈
              FieldSelection.under ["animals", "owner"] contactSelections,
            answer.responseKey = "contact" → answer.name = "name") ∧
      ∃ response,
        (Dialogue.run (DataFetcher.answering [ownedDog]) ()
            (clinicFetcher.handle contactRequest)).1 = response ∧
          response.errors.isEmpty = true ∧
          response.data = some [("animals", .list [.object "Dog" [
            ("owner", .object "Keeper" [
              ("contact", .scalar (.string "Ada"))])]])] := by
  refine ⟨by rfl, by rfl, contactRequest_asks, selections_contactRequest,
    ?_, ?_⟩
  · refine ⟨⟨[], some "contact", "phone", [], []⟩, ?_, rfl, rfl, by decide⟩
    exact List.mem_cons_of_mem _ List.mem_cons_self
  · refine ⟨_, rfl, ?_⟩
    simp only [DataFetcher.handle, selections_contactRequest]
    exact ⟨by rfl, by rfl⟩

end GraphQLRequest

end GraphGate
