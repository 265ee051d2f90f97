import GraphGate.Proofs.Provisioning.Calls

namespace GraphGate

/-!
# Completed phases

The phase that a creator has completed is never more than the database holds.
This is so after any sequence of calls, whatever errors have struck them: a phase
is completed at the end of a call that went well, and what it has ensured is not
taken back, neither in the creator nor in the store.
-/

namespace MemoryStore

/-- What the completion of a phase tells of a store. -/
def Provides
    (store : MemoryStore)
    (database : String)
    (plan : ProvisioningPlan) : ProvisioningPhase → Prop
  | .database => database ∈ store.databases
  | .collections => ∀ collection ∈ plan.collections,
      database ∈ store.databases ∧
        store.kind? database collection.name = some collection.kind
  | .indexes => ∀ collection ∈ plan.collections,
      ∀ index ∈ collection.indexes,
        database ∈ store.databases ∧
          store.HasIndex database collection.name index

instance decidableProvides
    (store : MemoryStore)
    (database : String)
    (plan : ProvisioningPlan) :
    (phase : ProvisioningPhase) → Decidable (store.Provides database plan phase)
  | .database => inferInstanceAs (Decidable (database ∈ store.databases))
  | .collections => inferInstanceAs (Decidable (∀ _ ∈ _, _))
  | .indexes => inferInstanceAs (Decidable (∀ _ ∈ _, _))

variable {database : String} {requirements : List Requirement}
variable {start store : MemoryStore}

/-- What was there at the start is there on the whole way. -/
theorem Reached.mem_databases
    {other : String}
    (reached : Reached database requirements start store)
    (there : other ∈ start.databases) :
    other ∈ store.databases := by
  obtain ⟨passed, -, provided⟩ := reached
  have grown : Grows start.unrecorded store.unrecorded :=
    grows_provideAll provided
  exact grown.databases there

end MemoryStore

namespace DatabaseCreator

open MemoryStore

variable {database : String} {plan : ProvisioningPlan}
variable {creator : DatabaseCreator} {task : CreatorCall}
variable {tasks : List CreatorCall}
variable {phase required : ProvisioningPhase}
variable {start store left : MemoryStore}
variable {ended : PhaseResult × DatabaseCreator}

/-- Where all that a phase requires is met, the store provides what the phase is for. -/
theorem provides_of_meets
    (deployed : database = systemDatabase → database ∈ store.databases)
    (meets : ∀ requirement ∈ phaseRequirements database plan phase,
      store.Meets database requirement) :
    store.Provides database plan phase := by
  cases phase with
  | database =>
      by_cases isSystem : database = systemDatabase
      · exact deployed isSystem
      · apply meets .database
        simp [phaseRequirements, isSystem]
  | collections =>
      intro collection isPlanned
      exact meets (.collection collection) (List.mem_map_of_mem isPlanned)
  | indexes =>
      intro collection isPlanned index isListed
      apply meets (.index (collection.name, index))
      apply List.mem_map_of_mem
      apply List.mem_flatMap_of_mem isPlanned
      exact List.mem_map_of_mem isListed

/-- A creator on the way has completed nothing that the store does not provide. -/
theorem OnTheWay.provides
    (onTheWay : OnTheWay database plan start creator store)
    (deployed : database = systemDatabase → database ∈ start.databases)
    (completed : creator.HasCompleted phase) :
    store.Provides database plan phase := by
  have meets := onTheWay.informed.meets phase completed
  apply provides_of_meets _ meets
  intro isSystem
  exact onTheWay.reached.mem_databases (deployed isSystem)

/-- However often a creator is called, it stays on the way. -/
theorem OnTheWay.calls
    {last : DatabaseCreator}
    (calls : Calls (Disturbed True) creator store tasks last left)
    (onTheWay : OnTheWay database plan start creator store) :
    OnTheWay database plan start last left := by
  induction calls with
  | none creator store =>
      exact onTheWay
  | next ends _ inductionHypothesis =>
      obtain ⟨next, -⟩ := onTheWay.carryOut ends
      exact inductionHypothesis next

/--
After any calls of a creator, in any order and struck by any errors, one more
call takes back no completed phase, and completes what it was for if it goes
well. Whatever is completed then, the store provides. A phase whose predecessor
had not been completed before is refused without asking the database anything. The system
database is there in every deployment and is never created.
-/
theorem completed_phases_provided
    (deployed : database = systemDatabase → database ∈ start.databases)
    (calls :
      Calls (Disturbed True) (ofPlan database plan) start tasks creator store)
    (ends :
      Dialogue.Ends (Disturbed True) store (creator.carryOut task)
        ended left) :
    (∀ phase, creator.HasCompleted phase → ended.2.HasCompleted phase) ∧
      (ended.1 = .ok () →
        ∀ phase ∈ task.phases, ended.2.HasCompleted phase) ∧
      (∀ phase,
        ended.2.HasCompleted phase → left.Provides database plan phase) ∧
      ∀ phase required,
        task = .phase phase →
          phase.required? = some required →
            ¬ creator.HasCompleted required →
              creator.carryOut task =
                  .done (.error (.phaseOrder phase required), creator) ∧
                ended = (.error (.phaseOrder phase required), creator) ∧
                left = store := by
  have outcome : creator.EndsAfter task.phases ended :=
    (confined_carryOut creator task).of_ends ends
  have onTheWay : OnTheWay database plan start creator store :=
    OnTheWay.calls calls (onTheWay_start database plan start)
  obtain ⟨endsOnTheWay, -⟩ := onTheWay.carryOut ends
  refine ⟨outcome.continues.completed, outcome.completed, ?_, ?_⟩
  · intro phase completed
    exact endsOnTheWay.provides deployed completed
  · intro phase required isPhase isRequired incomplete
    have refused :
        creator.carryOut task =
          .done (.error (.phaseOrder phase required), creator) := by
      subst isPhase
      exact runPhase_of_not_hasCompleted isRequired incomplete
    rw [refused] at ends
    cases ends
    exact ⟨refused, rfl, rfl⟩

/--
A run whose reply gets lost has completed the first phase only: its indexes are
refused, and the collections can be made good.
-/
theorem completed_phases_provided_after_lost_reply :
    kennelCreator.carryOut (.phase .indexes) =
        .done (.error (.phaseOrder .indexes .collections), kennelCreator) ∧
      interruptedStore.Provides "kennel" .kennel .database ∧
      ∃ left,
        Dialogue.Ends (Disturbed True) interruptedStore
            (kennelCreator.carryOut (.phase .collections))
            (.ok (), kennelCreator.complete .collections) left ∧
          left.Provides "kennel" .kennel .collections := by
  have deployed :
      "kennel" = systemDatabase → "kennel" ∈ fresh.databases := by
    intro isSystem
    exact absurd isSystem (by decide)
  have calls :
      Calls (Disturbed True) (ofPlan "kennel" .kennel) fresh [.run]
        kennelCreator interruptedStore :=
    .next run_interrupted (.none _ _)
  have incomplete : ¬ kennelCreator.HasCompleted .collections := by
    rintro ⟨reached, ⟨⟩, isAtMost⟩
    cases isAtMost
  have refused :
      Dialogue.Ends (Disturbed True) interruptedStore
        (kennelCreator.carryOut (.phase .indexes))
        (.error (.phaseOrder .indexes .collections), kennelCreator)
        interruptedStore :=
    .done _ _
  have madeGood :
      Dialogue.Ends (Disturbed True) interruptedStore
        (kennelCreator.carryOut (.phase .collections))
        (.ok (), kennelCreator.complete .collections)
        (interruptedStore.record (.collectionKind "dogs")) := by
    apply Dialogue.Ends.ask .undisturbed
    exact .done _ _
  obtain ⟨-, -, provides, isRefused⟩ :=
    completed_phases_provided deployed calls refused
  obtain ⟨-, completed, providesMore, -⟩ :=
    completed_phases_provided deployed calls madeGood
  refine ⟨(isRefused _ _ rfl rfl incomplete).1, ?_, _, madeGood, ?_⟩
  · exact provides .database ⟨.database, rfl, Nat.le_refl _⟩
  · exact providesMore .collections
      (completed rfl .collections (List.mem_singleton_self _))

end DatabaseCreator

end GraphGate
