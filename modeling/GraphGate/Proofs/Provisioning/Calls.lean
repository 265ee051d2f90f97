import GraphGate.Proofs.Provisioning.Convergence
import GraphGate.Proofs.Storage.Confinement

namespace GraphGate

/-!
# What a creator calls

Whatever a creator is called for and whatever its calls to the database are
answered with, it asks for the database and for the collections and indexes of
its plan only, and what it has completed stays completed. A phase whose
predecessor has not been completed is refused without any call.
-/

/-- The phases that a creator is called for, in order. -/
def CreatorCall.phases : CreatorCall → List ProvisioningPhase
  | .run => [.database, .collections, .indexes]
  | .phase single => [single]

namespace DatabaseCreator

open MemoryStore

variable {database : String} {plan : ProvisioningPlan}
variable {creator after last : DatabaseCreator} {task : CreatorCall}
variable {tasks : List CreatorCall}
variable {phase required : ProvisioningPhase}
variable {start store left : MemoryStore}

/-- The calls to the database that a plan gives rise to. -/
inductive Requests
    (database : String)
    (plan : ProvisioningPlan) : Command → Prop where
  | database : Requests database plan (.createDatabase database)
  | inspection {collection : CollectionPlan} :
      collection ∈ plan.collections →
      Requests database plan (.collectionKind database collection.name)
  | collection {collection : CollectionPlan} :
      collection ∈ plan.collections →
      Requests database plan
        (.createCollection database collection.name collection.kind)
  | index {request : String × IndexSpec} :
      request ∈ plannedIndexes plan →
      Requests database plan (.ensureIndex database request.1 request.2)

/-- A creator later on: it has the same task, and has completed at least as much. -/
structure Continues (creator after : DatabaseCreator) : Prop where
  sameDatabase : after.database = creator.database
  samePlan : after.plan = creator.plan
  completed : ∀ phase, creator.HasCompleted phase → after.HasCompleted phase

theorem Continues.refl (creator : DatabaseCreator) :
    creator.Continues creator :=
  ⟨rfl, rfl, fun _ => id⟩

theorem Continues.trans
    (first : creator.Continues after)
    (second : after.Continues last) :
    creator.Continues last where
  sameDatabase := second.sameDatabase.trans first.sameDatabase
  samePlan := second.samePlan.trans first.samePlan
  completed := fun phase => second.completed phase ∘ first.completed phase

/-- The later of two phases is no earlier than the one that had been reached. -/
theorem le_rank_latest (reached phase : ProvisioningPhase) :
    reached.rank ≤ (ProvisioningPhase.latest (some reached) phase).rank := by
  unfold ProvisioningPhase.latest
  by_cases isAtMost : reached.rank ≤ phase.rank
  · simp only [if_pos isAtMost]
    exact isAtMost
  · simp only [if_neg isAtMost]
    exact Nat.le_refl _

/-- To complete a phase takes nothing back. -/
theorem continues_complete
    (creator : DatabaseCreator)
    (phase : ProvisioningPhase) :
    creator.Continues (creator.complete phase) where
  sameDatabase := rfl
  samePlan := rfl
  completed := by
    intro earlier hasCompleted
    obtain ⟨reached, isReached, isAtMost⟩ := hasCompleted
    refine ⟨_, rfl, ?_⟩
    simp only [isReached]
    exact Nat.le_trans isAtMost (le_rank_latest reached phase)

/-- How a creator ends that was called for some phases: if it went well, it has completed them. -/
structure EndsAfter
    (creator : DatabaseCreator)
    (phases : List ProvisioningPhase)
    (ended : PhaseResult × DatabaseCreator) : Prop where
  continues : creator.Continues ended.2
  completed : ended.1 = .ok () → ∀ phase ∈ phases, ended.2.HasCompleted phase

/-! What is asked for. -/

theorem confined_ensure
    {requirement : Requirement}
    (member : requirement ∈ phaseRequirements database plan phase) :
    (ensure database requirement).Confined (Requests database plan)
      (fun _ => True) := by
  cases phase with
  | database =>
      have isDatabase : requirement = .database := by
        unfold phaseRequirements at member
        by_cases isSystem : database = systemDatabase
        · simp [isSystem] at member
        · simpa [isSystem] using member
      subst isDatabase
      exact ⟨.database, fun _ => trivial⟩
  | collections =>
      obtain ⟨collection, isPlanned, rfl⟩ := List.mem_map.mp member
      simp only [ensure, ensureCollection_eq]
      refine ⟨.inspection isPlanned, fun reply => ?_⟩
      cases reply with
      | error cause =>
          trivial
      | ok inspected =>
          cases inspected with
          | none =>
              exact ⟨.collection isPlanned, fun _ => trivial⟩
          | some existing =>
              trivial
  | indexes =>
      obtain ⟨request, isPlanned, rfl⟩ := List.mem_map.mp member
      exact ⟨.index isPlanned, fun _ => trivial⟩

theorem confined_forEach
    {α : Type}
    {step : α → DatabaseDialogue PhaseResult}
    {asks : Command → Prop}
    {items : List α}
    (each : ∀ item ∈ items, (step item).Confined asks fun _ => True) :
    (forEach step items).Confined asks fun _ => True := by
  induction items with
  | nil =>
      trivial
  | cons item rest inductionHypothesis =>
      obtain ⟨first, others⟩ := List.forall_mem_cons.mp each
      apply Dialogue.Confined.bind first
      intro result _
      cases result with
      | error cause =>
          trivial
      | ok value =>
          exact inductionHypothesis others

/-- A phase asks for what the plan of the creator lists. -/
theorem confined_runPhase
    (creator : DatabaseCreator)
    (phase : ProvisioningPhase) :
    (creator.runPhase phase).Confined
      (Requests creator.database creator.plan)
      (creator.EndsAfter [phase]) := by
  cases checked : creator.checkOrder phase with
  | error cause =>
      simp only [runPhase, checked]
      exact ⟨.refl creator, fun succeeded => by cases succeeded⟩
  | ok value =>
      have calls :
          (creator.phaseCalls phase).Confined
            (Requests creator.database creator.plan) fun _ => True := by
        rw [phaseCalls_eq]
        exact confined_forEach fun _ => confined_ensure
      simp only [runPhase, checked]
      apply Dialogue.Confined.bind calls
      intro result _
      cases result with
      | error cause =>
          exact ⟨.refl creator, fun succeeded => by cases succeeded⟩
      | ok value =>
          refine ⟨continues_complete creator phase, fun _ => ?_⟩
          exact List.forall_mem_singleton.mpr (hasCompleted_complete creator)

/-- Phases one after another ask for no more, and those that went well stay completed. -/
theorem confined_runPhases
    (creator : DatabaseCreator)
    (phases : List ProvisioningPhase) :
    (creator.runPhases phases).Confined
      (Requests creator.database creator.plan)
      (creator.EndsAfter phases) := by
  induction phases generalizing creator with
  | nil =>
      exact ⟨.refl creator, fun _ => List.forall_mem_nil _⟩
  | cons phase rest inductionHypothesis =>
      apply Dialogue.Confined.bind (confined_runPhase creator phase)
      rintro ⟨result, after⟩ outcome
      have continues : creator.Continues after := outcome.continues
      cases result with
      | error cause =>
          exact ⟨continues, nofun⟩
      | ok value =>
          have others := inductionHypothesis after
          rw [continues.sameDatabase, continues.samePlan] at others
          apply others.imp
          intro ended further
          refine ⟨continues.trans further.continues, fun succeeded => ?_⟩
          have isCompleted : after.HasCompleted phase :=
            outcome.completed rfl phase (List.mem_singleton_self phase)
          exact List.forall_mem_cons.mpr
            ⟨further.continues.completed phase isCompleted,
              further.completed succeeded⟩

/-- Whatever a creator is called for, it asks for what its plan lists. -/
theorem confined_carryOut
    (creator : DatabaseCreator)
    (task : CreatorCall) :
    (creator.carryOut task).Confined
      (Requests creator.database creator.plan)
      (creator.EndsAfter task.phases) := by
  cases task with
  | run =>
      exact confined_runPhases creator _
  | phase phase =>
      exact confined_runPhase creator phase

/-- A phase before whose predecessor has been completed is refused without a call. -/
theorem runPhase_of_not_hasCompleted
    (isRequired : phase.required? = some required)
    (incomplete : ¬ creator.HasCompleted required) :
    creator.runPhase phase =
      .done (.error (.phaseOrder phase required), creator) := by
  have refused :
      creator.checkOrder phase = .error (.phaseOrder phase required) := by
    unfold checkOrder
    simp only [isRequired]
    cases completed : creator.completed with
    | none =>
        rfl
    | some reached =>
        have tooEarly : ¬ required.rank ≤ reached.rank :=
          fun isAtMost => incomplete ⟨reached, completed, isAtMost⟩
        exact if_neg tooEarly
  simp only [runPhase, refused]
  rfl

/-- A dialogue runs as one of those that may be struck by errors. -/
theorem ends_run_answered
    {α : Type}
    {faulty : Prop}
    (store : MemoryStore)
    (dialogue : DatabaseDialogue α) :
    Dialogue.Ends (Disturbed faulty) store dialogue
      (Dialogue.run answered store dialogue).1
      (Dialogue.run answered store dialogue).2 := by
  induction dialogue generalizing store with
  | done value =>
      exact .done store value
  | ask command onward inductionHypothesis =>
      exact .ask .undisturbed (inductionHypothesis _ _)

/-! Call after call. -/

/-- A creator is called for one task after another, each call ends before the next one. -/
inductive Calls
    (answers : Dialogue.Answering Command Command.Reply MemoryStore) :
    DatabaseCreator → MemoryStore → List CreatorCall →
      DatabaseCreator → MemoryStore → Prop where
  | none (creator : DatabaseCreator) (store : MemoryStore) :
      Calls answers creator store [] creator store
  | next
      {creator last : DatabaseCreator}
      {store met left : MemoryStore}
      {ended : PhaseResult × DatabaseCreator}
      {task : CreatorCall}
      {rest : List CreatorCall} :
      Dialogue.Ends answers store (creator.carryOut task) ended met →
      Calls answers ended.2 met rest last left →
      Calls answers creator store (task :: rest) last left

variable {answers : Dialogue.Answering Command Command.Reply MemoryStore}

/-- What every call to the database relates, calls of a creator relate. -/
theorem Calls.relates
    {relation : MemoryStore → MemoryStore → Prop}
    (reflexive : ∀ same, relation same same)
    (transitive : ∀ {first second third},
      relation first second → relation second third → relation first third)
    (step : ∀ {met command reply left},
      Requests creator.database creator.plan command →
        answers met command reply left → relation met left)
    (calls : Calls answers creator store tasks last left) :
    relation store left := by
  induction calls with
  | none creator store =>
      exact reflexive store
  | @next creator _ _ _ _ ended task _ ends _ inductionHypothesis =>
      have first :=
        (confined_carryOut creator task).relates reflexive transitive step ends
      have continues := ((confined_carryOut creator task).of_ends ends).continues
      refine transitive first (inductionHypothesis ?_)
      rw [continues.sameDatabase, continues.samePlan]
      exact step

end DatabaseCreator

end GraphGate
