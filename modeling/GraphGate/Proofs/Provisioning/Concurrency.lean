import GraphGate.Proofs.Provisioning.Convergence

namespace GraphGate

/-!
# Creators at the same time

Creators for one plan share a database, and their calls reach it in any order.
Where nothing stands in the way of the plan, they do not get in each other's way
either: all of them go well, and the database is left as a single one leaves it.
-/

namespace DatabaseCreator

open MemoryStore

variable {database : String} {plan : ProvisioningPlan}
variable {start store : MemoryStore}
variable {creator : DatabaseCreator} {phase : ProvisioningPhase}

/-! Starts from which a plan can be provided. -/

/--
A start in which nothing stands in the way of a plan: no collection of the plan
has the other kind, and none that is missing is forbidden. The system database is
there in every deployment.
-/
structure Ready
    (database : String)
    (plan : ProvisioningPlan)
    (start : MemoryStore) : Prop where
  deployed : systemDatabase ∈ start.databases
  kinds : ∀ collection ∈ plan.collections,
    ∀ kind, start.kind? database collection.name = some kind →
      kind = collection.kind
  permitted : ∀ collection ∈ plan.collections,
    start.kind? database collection.name = none →
      collection.name ∉ start.forbidden

/-- The database can be provided. -/
theorem Ready.exists_database
    (ready : Ready database plan start) :
    ∃ final,
      provideAll database start (phaseRequirements database plan .database) =
          .ok final ∧
        Ready database plan final ∧ database ∈ final.databases := by
  unfold phaseRequirements
  by_cases isSystem : database = systemDatabase
  · rw [if_pos isSystem]
    exact ⟨start, rfl, ready, isSystem ▸ ready.deployed⟩
  · rw [if_neg isSystem]
    by_cases there : database ∈ start.databases
    · refine ⟨start, ?_, ready, there⟩
      exact provideAll_of_meets (by simpa [Meets] using there)
    · have created :
          start.createDatabase database =
            .ok { start with databases := start.databases ++ [database] } :=
        if_neg there
      have provided :
          provideAll database start [.database] =
            start.createDatabase database := by
        have unmet : ¬ start.Meets database .database := there
        rw [provideAll, List.foldlM_cons, provide_of_not_meets unmet]
        exact bind_pure _
      refine ⟨_, provided.trans created, ?_, by simp⟩
      exact ⟨List.mem_append_left _ ready.deployed, ready.kinds, ready.permitted⟩

/-- A collection of the plan can be provided. -/
theorem Ready.exists_collection
    {collection : CollectionPlan}
    (consistent : plan.Consistent)
    (ready : Ready database plan store)
    (there : database ∈ store.databases)
    (member : collection ∈ plan.collections) :
    ∃ after,
      provide database store (.collection collection) = .ok after ∧
        Ready database plan after ∧ database ∈ after.databases := by
  cases found : store.kind? database collection.name with
  | some kind =>
      have isMet : store.Meets database (.collection collection) :=
        ⟨there, ready.kinds collection member kind found ▸ found⟩
      exact ⟨store, provide_of_meets isMet, ready, there⟩
  | none =>
      have unmet : ¬ store.Meets database (.collection collection) :=
        not_meets_of_missing found
      have created :
          store.create database (.collection collection) =
            .ok (store.withNew database collection.name collection.kind) :=
        createCollection_eq_ok_iff.mpr
          ⟨there, ready.permitted collection member found, found, rfl⟩
      refine ⟨_, (provide_of_not_meets unmet).trans created, ?_, there⟩
      refine ⟨ready.deployed, ?_, ?_⟩
      · intro other isOther kind isKind
        rw [kind?_withNew found] at isKind
        by_cases same : collection.name = other.name
        · rw [if_pos ⟨rfl, same⟩, Option.some.injEq] at isKind
          exact isKind ▸ consistent collection member other isOther same
        · rw [if_neg (same ∘ And.right)] at isKind
          exact ready.kinds other isOther kind isKind
      · intro other isOther missing
        rw [kind?_withNew found] at missing
        by_cases same : collection.name = other.name
        · rw [if_pos ⟨rfl, same⟩] at missing
          cases missing
        · rw [if_neg (same ∘ And.right)] at missing
          exact ready.permitted other isOther missing

/-- An index can be provided on a collection that is there. -/
theorem exists_index
    {request : String × IndexSpec}
    (there : database ∈ store.databases)
    (present : (store.kind? database request.1).isSome = true) :
    ∃ after, provide database store (.index request) = .ok after := by
  by_cases isMet : store.Meets database (.index request)
  · exact ⟨store, provide_of_meets isMet⟩
  · refine ⟨store.withIndex database request.1 request.2, ?_⟩
    rw [provide_of_not_meets isMet]
    exact ensureIndex_eq_ok_iff.mpr ⟨there, present, rfl⟩

/-- The indexes of a plan are on its collections. -/
theorem exists_mem_collections_of_mem_plannedIndexes
    {request : String × IndexSpec}
    (member : request ∈ plannedIndexes plan) :
    ∃ collection ∈ plan.collections, collection.name = request.1 := by
  obtain ⟨collection, isCollection, isIndex⟩ := List.mem_flatMap.mp member
  obtain ⟨index, -, rfl⟩ := List.mem_map.mp isIndex
  exact ⟨collection, isCollection, rfl⟩

/-- Where nothing stands in the way of a plan, all that it requires can be provided. -/
theorem Ready.achievable
    (consistent : plan.Consistent)
    (ready : Ready database plan start) :
    Achievable database (requirementsOf database plan) start := by
  have readyUnrecorded : Ready database plan start.unrecorded :=
    ⟨ready.deployed, ready.kinds, ready.permitted⟩
  obtain ⟨first, providedFirst, readyFirst, thereFirst⟩ :=
    readyUnrecorded.exists_database
  have collectionStep : ∀ store,
      Ready database plan store ∧ database ∈ store.databases →
        ∀ requirement ∈ phaseRequirements database plan .collections,
          ∃ after,
            provide database store requirement = .ok after ∧
              Ready database plan after ∧ database ∈ after.databases := by
    rintro store ⟨ready, there⟩ requirement member
    obtain ⟨collection, isCollection, rfl⟩ := List.mem_map.mp member
    exact ready.exists_collection consistent there isCollection
  obtain ⟨second, providedSecond, -⟩ :=
    exists_provideAll _ ⟨readyFirst, thereFirst⟩ collectionStep
  have collectionsMet := meets_of_provideAll providedSecond
  have indexStep : ∀ store,
      Grows second store →
        ∀ requirement ∈ phaseRequirements database plan .indexes,
          ∃ after,
            provide database store requirement = .ok after ∧
              Grows second after := by
    intro store grown requirement member
    obtain ⟨request, isRequest, rfl⟩ := List.mem_map.mp member
    obtain ⟨collection, isCollection, sameName⟩ :=
      exists_mem_collections_of_mem_plannedIndexes isRequest
    obtain ⟨there, isKind⟩ :=
      (collectionsMet (.collection collection)
        (List.mem_map_of_mem isCollection)).grows grown
    have present : (store.kind? database request.1).isSome = true := by
      rw [← sameName, isKind]
      rfl
    obtain ⟨after, provided⟩ := exists_index there present
    exact ⟨after, provided, grown.trans (grows_provide provided)⟩
  obtain ⟨third, providedThird, -⟩ :=
    exists_provideAll _ (Grows.refl second) indexStep
  refine ⟨third, ?_⟩
  apply provideAll_append_eq_ok_iff.mpr
  refine ⟨second, ?_, providedThird⟩
  exact provideAll_append_eq_ok_iff.mpr ⟨first, providedFirst, providedSecond⟩

/-! How many calls a creator makes. -/

/-- A bound on the calls of a phase. -/
def phaseBound (plan : ProvisioningPlan) : ProvisioningPhase → Nat
  | .database => 1
  | .collections => plan.collections.length * 2
  | .indexes => (plannedIndexes plan).length * 1

/-- A bound on the calls of some phases. -/
def phasesBound (plan : ProvisioningPlan) : List ProvisioningPhase → Nat
  | [] => 0
  | phase :: rest => phaseBound plan phase + phasesBound plan rest

/-- A bound on the calls of a run. -/
def callBound (plan : ProvisioningPlan) : Nat :=
  phasesBound plan [.database, .collections, .indexes]

theorem asksAtMost_forEach
    {α : Type}
    {step : α → DatabaseDialogue PhaseResult}
    {bound : Nat}
    (each : ∀ item, (step item).AsksAtMost bound)
    (items : List α) :
    (forEach step items).AsksAtMost (items.length * bound) := by
  induction items with
  | nil =>
      trivial
  | cons item rest inductionHypothesis =>
      rw [List.length_cons, Nat.succ_mul, Nat.add_comm]
      apply (each item).bind
      intro result
      cases result with
      | error cause =>
          trivial
      | ok value =>
          exact inductionHypothesis

theorem asksAtMost_phaseCalls
    (creator : DatabaseCreator)
    (phase : ProvisioningPhase) :
    (creator.phaseCalls phase).AsksAtMost (phaseBound creator.plan phase) := by
  cases phase with
  | database =>
      simp only [phaseCalls, ensureDatabase]
      by_cases isSystem : creator.database = systemDatabase
      · rw [if_pos isSystem]
        trivial
      · rw [if_neg isSystem]
        exact ⟨0, rfl, fun _ => trivial⟩
  | collections =>
      apply asksAtMost_forEach
      intro collection
      rw [ensureCollection_eq]
      refine ⟨1, rfl, ?_⟩
      intro reply
      cases reply with
      | error cause =>
          trivial
      | ok inspected =>
          cases inspected with
          | none =>
              exact ⟨0, rfl, fun _ => trivial⟩
          | some existing =>
              trivial
  | indexes =>
      apply asksAtMost_forEach
      intro request
      exact ⟨0, rfl, fun _ => trivial⟩

/-- Phases make no more calls than each of them may. -/
theorem asksAtMost_runPhases
    (creator : DatabaseCreator)
    (phases : List ProvisioningPhase) :
    (creator.runPhases phases).AsksAtMost (phasesBound creator.plan phases) := by
  induction phases generalizing creator with
  | nil =>
      trivial
  | cons phase rest inductionHypothesis =>
      show ((creator.runPhase phase).bind _).AsksAtMost
        (phaseBound creator.plan phase + phasesBound creator.plan rest)
      cases checked : creator.checkOrder phase with
      | error cause =>
          simp only [runPhase, checked]
          trivial
      | ok value =>
          simp only [runPhase, checked]
          show (((creator.phaseCalls phase).bind _).bind _).AsksAtMost _
          rw [Dialogue.bind_assoc]
          apply (asksAtMost_phaseCalls creator phase).bind
          intro result
          cases result with
          | error cause =>
              trivial
          | ok value =>
              exact inductionHypothesis (creator.complete phase)

/-! All creators together. -/

/-- Creators for a plan that start at the same time. -/
def startTogether
    (database : String)
    (plan : ProvisioningPlan)
    (start : MemoryStore)
    (count : Nat) :
    Sharing Command Command.Reply (PhaseResult × DatabaseCreator) MemoryStore where
  state := start
  clients := List.replicate count (ofPlan database plan).run

theorem cooperation_advance :
    Sharing.Cooperation
      (fun _ => Advance database (requirementsOf database plan) start)
      (fun _ => Advance database (requirementsOf database plan) start)
      (fun _ => PhaseOutcome database plan start False True .indexes) where
  reflexive := fun _ => Advance.refl
  transitive := fun _ _ _ _ => Advance.trans
  covers := fun _ _ _ _ _ => id
  kept := fun _ _ _ _ => PhaseOutcome.advance

/-- However the calls are ordered, a creator that has ended did so as it should. -/
theorem outcome_of_done
    {count client : Nat}
    {schedule : List Nat}
    {ended : PhaseResult × DatabaseCreator}
    (isDone :
      ((startTogether database plan start count).interleave
          (fun _ => answered) schedule).clients[client]? =
        some (.done ended)) :
    PhaseOutcome database plan start False True .indexes ended
      ((startTogether database plan start count).interleave
        (fun _ => answered) schedule).state := by
  have secure :
      (startTogether database plan start count).AllSecure (fun _ => answered)
        (fun _ => Advance database (requirementsOf database plan) start)
        (fun _ => Advance database (requirementsOf database plan) start)
        (fun _ => PhaseOutcome database plan start False True .indexes) := by
    intro client dialogue isClient
    have isRun : dialogue = (ofPlan database plan).run :=
      List.eq_of_mem_replicate (List.mem_of_getElem? isClient)
    rw [isRun]
    exact (onTheWay_ofPlan (reached_start database _ start)).secures_answered
  exact (secure.interleave cooperation_advance schedule).of_done isDone

/--
However the calls of creators for one plan are ordered, every creator that has
its turns comes to its end, all that end go well and have completed the last
phase, and then the databases and the collections, with their kinds and indexes,
are those that a single run leaves. Plans of models list no collection with two
kinds.
-/
theorem concurrent_runs_agree :
    (∀ model, (ProvisioningPlan.ofModel model).Consistent) ∧
      ∀ (database : String) (plan : ProvisioningPlan) (start : MemoryStore),
        plan.Consistent →
        Ready database plan start →
        ∀ (count : Nat) (schedule : List Nat),
          let final :=
            (startTogether database plan start count).interleave
              (fun _ => answered) schedule
          let single := Dialogue.run answered start (ofPlan database plan).run
          single.1.1 = .ok () ∧
            (∀ client < count,
              callBound plan ≤ schedule.count client →
                ∃ ended, final.clients[client]? = some (.done ended)) ∧
            ∀ (client : Nat) (ended : PhaseResult × DatabaseCreator),
              final.clients[client]? = some (.done ended) →
                (ended.1 = .ok () ∧ ended.2.completed = some .indexes) ∧
                  final.state.databases = single.2.databases ∧
                  final.state.collections = single.2.collections := by
  refine ⟨ProvisioningPlan.consistent_ofModel, ?_⟩
  intro database plan start consistent ready count schedule final single
  have achievable := ready.achievable consistent
  have alone : OnTheWay database plan start (ofPlan database plan) start :=
    onTheWay_ofPlan (reached_start database _ start)
  have succeeds : single.1.1 = .ok () := alone.run_succeeds achievable
  refine ⟨succeeds, ?_, ?_⟩
  · intro client inRange turns
    have isClient :
        (startTogether database plan start count).clients[client]? =
          some (ofPlan database plan).run := by
      simp [startTogether, inRange]
    exact Sharing.exists_done_of_turns isClient
      (asksAtMost_runPhases (ofPlan database plan) _) turns
  · intro client ended isDone
    have outcome := outcome_of_done isDone
    have succeeded := outcome.succeeds id trivial achievable
    refine ⟨⟨succeeded, (outcome.completed succeeded).eq_indexes⟩, ?_⟩
    have provided := outcome.provided succeeded
    have providedAlone := alone.run_answered.provided succeeds
    exact holdings_eq_of_unrecorded_eq
      (Except.ok.inj (provided.symm.trans providedAlone))

/-- Two creators whose calls alternate end with what one of them makes alone. -/
theorem alternating_runs_agree :
    let final :=
      (startTogether "kennel" .kennel fresh 2).interleave
        (fun _ => answered) [0, 1, 0, 1, 0, 1, 0, 1]
    let single := Dialogue.run answered fresh (ofPlan "kennel" .kennel).run
    ProvisioningPlan.kennel.Consistent ∧ Ready "kennel" .kennel fresh ∧
      (∃ ended,
        final.clients[0]? = some (.done ended) ∧
          ended.1 = .ok () ∧ ended.2.completed = some .indexes) ∧
      final.state.collections = single.2.collections := by
  intro final single
  have consistent : ProvisioningPlan.kennel.Consistent := by
    intro first isFirst second isSecond _
    rw [List.mem_singleton.mp isFirst, List.mem_singleton.mp isSecond]
  have ready : Ready "kennel" .kennel fresh := by
    refine ⟨List.mem_singleton_self _, nofun, ?_⟩
    intro collection _ _
    exact List.not_mem_nil
  obtain ⟨-, ends, agrees⟩ :=
    concurrent_runs_agree.2 "kennel" .kennel fresh consistent ready 2
      [0, 1, 0, 1, 0, 1, 0, 1]
  obtain ⟨ended, isDone⟩ := ends 0 (by decide) (by decide)
  obtain ⟨goesWell, -, sameCollections⟩ := agrees 0 ended isDone
  exact ⟨consistent, ready, ⟨ended, isDone, goesWell⟩, sameCollections⟩

end DatabaseCreator

end GraphGate
