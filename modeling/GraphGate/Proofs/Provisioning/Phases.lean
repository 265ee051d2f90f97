import GraphGate.Proofs.Provisioning.Ensuring
import GraphGate.Proofs.Provisioning.Planning

namespace GraphGate

/-!
# Phases of provisioning

Each phase ensures the requirements of one kind, and a creator that has completed
a phase knows that they are met. So a phase that is allowed to run finds all
earlier requirements met, and a run that goes well has all of them met in the
end.
-/

namespace DatabaseCreator

open MemoryStore

variable {database : String} {plan : ProvisioningPlan}
variable {requirements earlier items : List Requirement}
variable {start store left : MemoryStore}
variable {requirement : Requirement} {faulty : Prop}
variable {creator : DatabaseCreator} {phase : ProvisioningPhase}

/-- Ensures one requirement. -/
def ensure (database : String) : Requirement → DatabaseDialogue PhaseResult
  | .database =>
      (DatabaseDialogue.createDatabase database).bind fun reply =>
        .done (tolerateDuplicate (.createDatabase database) reply)
  | .collection plan => ensureCollection database plan
  | .index request => ensureIndex database request

section Steps

variable {collection : CollectionPlan}

/-- What follows for a creator from the kind that it finds a collection to have. -/
def judgeKind
    (collection : CollectionPlan)
    (existing : CollectionKind) : PhaseResult :=
  if existing = collection.kind then
    .ok ()
  else
    .error
      (.collectionKindMismatch collection.name collection.kind existing)

theorem judgeKind_self :
    judgeKind collection collection.kind = .ok () :=
  if_pos rfl

theorem judgeKind_of_ne
    {existing : CollectionKind}
    (different : existing ≠ collection.kind) :
    judgeKind collection existing =
      .error
        (.collectionKindMismatch collection.name collection.kind existing) :=
  if_neg different

/-- How a creator goes on when it has asked for the kind of a collection. -/
def afterInspection
    (database : String)
    (collection : CollectionPlan) :
    Except TransportError (Option CollectionKind) →
      DatabaseDialogue PhaseResult
  | .error cause =>
      .done (.error (.transport (.inspectCollection collection.name) cause))
  | .ok (some existing) => .done (judgeKind collection existing)
  | .ok none =>
      (DatabaseDialogue.createCollection database collection.name
        collection.kind).bind fun reply =>
          .done (tolerateDuplicate
            (.createCollection collection.kind collection.name) reply)

theorem ensureCollection_eq (database : String) (collection : CollectionPlan) :
    ensureCollection database collection =
      (DatabaseDialogue.collectionKind database collection.name).bind
        (afterInspection database collection) := by
  show Dialogue.ask _ _ = Dialogue.ask _ _
  congr 1
  funext reply
  cases reply with
  | error cause =>
      rfl
  | ok inspected =>
      cases inspected with
      | none =>
          rfl
      | some existing =>
          exact (apply_ite Dialogue.done _ _ _).symm

/-- Where nothing fails and all can be provided, a kind is inspected as required or as none. -/
theorem inspected_of_achievable
    {reply : Except TransportError (Option CollectionKind)}
    (isFirst : earlier ++ [.collection collection] <+: requirements)
    (stands : Stands database requirements start earlier store)
    (achievable : Achievable database requirements start)
    (answers :
      database ∈ store.databases →
        reply = .ok (store.kind? database collection.name)) :
    reply = .ok none ∨ reply = .ok (some collection.kind) := by
  by_cases isMet : store.Meets database (.collection collection)
  · right
    rw [answers isMet.1, isMet.2]
  · left
    obtain ⟨created, isCreated⟩ :=
      stands.exists_created isFirst isMet achievable
    obtain ⟨there, -, free, -⟩ := createCollection_eq_ok_iff.mp isCreated
    rw [answers there, free]

/-- A collection that is found with the right kind is left alone. -/
theorem outcome_of_found
    (stands : Stands database requirements start earlier store)
    (isMet : store.Meets database (.collection collection)) :
    Outcome database requirements start faulty earlier
      [.collection collection] (.ok ()) store := by
  exact ⟨stands, fun _ => stands.concat isMet, fun _ _ => rfl⟩

/-- A creator ensures a collection when the earlier requirements are met. -/
theorem secures_ensureCollection
    (isFirst : earlier ++ [.collection collection] <+: requirements)
    (stands : Stands database requirements start earlier store) :
    (ensureCollection database collection).Secures (Disturbed faulty)
      (Advance database requirements start)
      (Advance database requirements start)
      (Outcome database requirements start faulty earlier
        [.collection collection])
      store := by
  have within : earlier ⊆ requirements :=
    fun _ member => isFirst.subset (List.mem_append_left _ member)
  rw [ensureCollection_eq]
  intro met reply left advance disturbed
  have standsMet := stands.advance within advance
  obtain ⟨same, told, answers⟩ := inspected_collectionKind disturbed
  have onward : Advance database requirements start met left :=
    advance_of_unrecorded_eq same
  have standsLeft := standsMet.advance within onward
  have expected :
      ¬ faulty →
        Achievable database requirements start →
          reply = .ok none ∨ reply = .ok (some collection.kind) :=
    fun sound achievable =>
      inspected_of_achievable isFirst standsMet achievable (answers sound)
  refine ⟨onward, ?_⟩
  cases reply with
  | error cause =>
      refine ⟨standsLeft, nofun, ?_⟩
      intro sound achievable
      rcases expected sound achievable with never | never
      · cases never
      · cases never
  | ok inspected =>
      obtain ⟨there, isKind⟩ := told inspected rfl
      cases inspected with
      | none =>
          have free : left.kind? database collection.name = none :=
            (congrArg (·.kind? database collection.name) same).trans isKind
          intro next reply final advance disturbed
          exact standsLeft.outcome_of_attempted isFirst free advance
            (attempted_createCollection disturbed)
      | some existing =>
          show Outcome _ _ _ _ _ _ (judgeKind collection existing) left
          by_cases asRequired : existing = collection.kind
          · subst asRequired
            rw [judgeKind_self]
            apply outcome_of_found standsLeft
            rw [← meets_unrecorded_iff, same, meets_unrecorded_iff]
            exact ⟨there, isKind⟩
          · rw [judgeKind_of_ne asRequired]
            refine ⟨standsLeft, nofun, ?_⟩
            intro sound achievable
            rcases expected sound achievable with never | other
            · cases never
            · cases other
              exact (asRequired rfl).elim

/-- A creator ensures a requirement when the earlier ones are met. -/
theorem secures_ensure
    (isFirst : earlier ++ [requirement] <+: requirements)
    (stands : Stands database requirements start earlier store) :
    (ensure database requirement).Secures (Disturbed faulty)
      (Advance database requirements start)
      (Advance database requirements start)
      (Outcome database requirements start faulty earlier [requirement])
      store := by
  cases requirement with
  | database =>
      intro met reply left advance disturbed
      exact stands.outcome_of_attempted isFirst trivial advance
        (attempted_createDatabase disturbed)
  | collection plan =>
      exact secures_ensureCollection isFirst stands
  | index request =>
      intro met reply left advance disturbed
      exact stands.outcome_of_attempted isFirst trivial advance
        (attempted_ensureIndex disturbed)

end Steps

/-- A creator ensures requirements one after another. -/
theorem secures_forEach
    (isFirst : earlier ++ items <+: requirements)
    (stands : Stands database requirements start earlier store) :
    (forEach (ensure database) items).Secures (Disturbed faulty)
      (Advance database requirements start)
      (Advance database requirements start)
      (Outcome database requirements start faulty earlier items)
      store := by
  induction items generalizing earlier store with
  | nil =>
      refine ⟨stands, ?_, fun _ _ => rfl⟩
      intro _
      rw [List.append_nil]
      exact stands
  | cons item rest inductionHypothesis =>
      have isNext : earlier ++ [item] <+: requirements := by
        refine List.IsPrefix.trans ?_ isFirst
        exact ⟨rest, by simp⟩
      have isRest : (earlier ++ [item]) ++ rest <+: requirements := by
        rw [List.append_assoc]
        exact isFirst
      show ((ensure database item).bind _).Secures _ _ _ _ _
      apply (secures_ensure isNext stands).bind
      intro result left outcome
      cases result with
      | error cause =>
          refine ⟨outcome.stands, nofun, ?_⟩
          intro sound achievable
          cases outcome.succeeds sound achievable
      | ok value =>
          apply (inductionHypothesis isRest (outcome.provided rfl)).imp
          intro result final others
          refine ⟨⟨others.stands.reached, ?_⟩, ?_, others.succeeds⟩
          · intro other member
            exact others.stands.meets other (List.mem_append_left _ member)
          · intro succeeded
            have provided := others.provided succeeded
            rw [List.append_assoc] at provided
            exact provided

/-! Phases. -/

/-- What is ensured in a phase. The system database is not created. -/
def phaseRequirements
    (database : String)
    (plan : ProvisioningPlan) : ProvisioningPhase → List Requirement
  | .database => if database = systemDatabase then [] else [.database]
  | .collections => plan.collections.map .collection
  | .indexes => (plannedIndexes plan).map .index

/-- What is ensured before a phase. -/
def requirementsBefore
    (database : String)
    (plan : ProvisioningPlan) : ProvisioningPhase → List Requirement
  | .database => []
  | .collections => phaseRequirements database plan .database
  | .indexes =>
      phaseRequirements database plan .database ++
        phaseRequirements database plan .collections

/-- All that is ensured, in order. -/
def requirementsOf
    (database : String)
    (plan : ProvisioningPlan) : List Requirement :=
  requirementsBefore database plan .indexes ++
    phaseRequirements database plan .indexes

theorem requirements_through_phase (database : String) (plan : ProvisioningPlan) :
    ∀ phase,
      requirementsBefore database plan phase ++
          phaseRequirements database plan phase <+:
        requirementsOf database plan
  | .database =>
      ⟨phaseRequirements database plan .collections ++
          phaseRequirements database plan .indexes,
        by simp [requirementsOf, requirementsBefore]⟩
  | .collections =>
      ⟨phaseRequirements database plan .indexes,
        by simp [requirementsOf, requirementsBefore]⟩
  | .indexes => List.prefix_rfl

theorem forEach_map
    {α β : Type}
    (step : β → DatabaseDialogue PhaseResult)
    (toStep : α → β)
    (items : List α) :
    forEach step (items.map toStep) = forEach (step ∘ toStep) items := by
  induction items with
  | nil =>
      rfl
  | cons item rest inductionHypothesis =>
      simp only [List.map_cons, forEach, inductionHypothesis,
        Function.comp_apply]

/-- A phase ensures its requirements one after another. -/
theorem phaseCalls_eq
    (creator : DatabaseCreator)
    (phase : ProvisioningPhase) :
    creator.phaseCalls phase =
      forEach (ensure creator.database)
        (phaseRequirements creator.database creator.plan phase) := by
  cases phase with
  | database =>
      simp only [phaseCalls, ensureDatabase, phaseRequirements]
      by_cases isSystem : creator.database = systemDatabase
      · rw [if_pos isSystem, if_pos isSystem]
        rfl
      · rw [if_neg isSystem, if_neg isSystem]
        show Dialogue.ask _ _ = Dialogue.ask _ _
        congr 1
        funext reply
        show Dialogue.done _ = Dialogue.bind (Dialogue.done _) _
        rw [Dialogue.bind_done]
        cases tolerateDuplicate (.createDatabase creator.database) reply with
        | ok value =>
            rfl
        | error cause =>
            rfl
  | collections =>
      exact (forEach_map (ensure creator.database) .collection
        creator.plan.collections).symm
  | indexes =>
      exact (forEach_map (ensure creator.database) .index
        (plannedIndexes creator.plan)).symm

/-- Whether a creator has completed a phase. -/
def HasCompleted
    (creator : DatabaseCreator)
    (phase : ProvisioningPhase) : Prop :=
  ∃ completed,
    creator.completed = some completed ∧ phase.rank ≤ completed.rank

theorem hasCompleted_complete (creator : DatabaseCreator) :
    (creator.complete phase).HasCompleted phase := by
  refine ⟨_, rfl, ?_⟩
  unfold ProvisioningPhase.latest
  split
  · exact Nat.le_refl _
  · split
    · exact Nat.le_refl _
    · omega

/-- What was completed before remains so, and only the phase is added. -/
theorem HasCompleted.of_complete
    {other : ProvisioningPhase}
    (completed : (creator.complete phase).HasCompleted other) :
    creator.HasCompleted other ∨ other.rank ≤ phase.rank := by
  obtain ⟨latest, isLatest, isAtMost⟩ := completed
  simp only [complete, Option.some.injEq] at isLatest
  subst isLatest
  unfold ProvisioningPhase.latest at isAtMost
  split at isAtMost
  · exact .inr isAtMost
  · rename_i reached isReached
    split at isAtMost
    · exact .inr isAtMost
    · exact .inl ⟨reached, isReached, isAtMost⟩

theorem checkOrder_eq_ok_iff :
    creator.checkOrder phase = .ok () ↔
      ∀ required, phase.required? = some required →
        creator.HasCompleted required := by
  unfold checkOrder HasCompleted
  cases phase.required? with
  | none =>
      simp
  | some required =>
      cases creator.completed with
      | none =>
          simp
      | some completed =>
          by_cases isAtMost : required.rank ≤ completed.rank
          · simp [isAtMost]
          · simp [isAtMost]

/-- A creator for a plan and a database, for which all completed phases are met. -/
structure Informed
    (database : String)
    (plan : ProvisioningPlan)
    (creator : DatabaseCreator)
    (store : MemoryStore) : Prop where
  sameDatabase : creator.database = database
  samePlan : creator.plan = plan
  meets : ∀ phase,
    creator.HasCompleted phase →
      ∀ requirement ∈ phaseRequirements database plan phase,
        store.Meets database requirement

theorem informed_ofPlan
    (database : String)
    (plan : ProvisioningPlan)
    (store : MemoryStore) :
    Informed database plan (ofPlan database plan) store where
  sameDatabase := rfl
  samePlan := rfl
  meets := by
    rintro phase ⟨completed, isCompleted, -⟩
    cases isCompleted

theorem Informed.advance
    {after : MemoryStore}
    (informed : Informed database plan creator store)
    (reached : Reached database (requirementsOf database plan) start store)
    (advance :
      Advance database (requirementsOf database plan) start store after) :
    Informed database plan creator after where
  sameDatabase := informed.sameDatabase
  samePlan := informed.samePlan
  meets := by
    intro phase completed requirement member
    refine (advance reached).2 requirement ?_
      (informed.meets phase completed requirement member)
    exact (requirements_through_phase database plan phase).subset
      (List.mem_append_right _ member)

/-- A phase that may run finds all earlier requirements met. -/
theorem Informed.stands
    (informed : Informed database plan creator store)
    (reached : Reached database (requirementsOf database plan) start store)
    (inOrder : creator.checkOrder phase = .ok ()) :
    Stands database (requirementsOf database plan) start
      (requirementsBefore database plan phase) store := by
  have required := checkOrder_eq_ok_iff.mp inOrder
  refine ⟨reached, ?_⟩
  intro requirement member
  cases phase with
  | database =>
      cases member
  | collections =>
      exact informed.meets .database (required .database rfl) requirement member
  | indexes =>
      have completed := required .collections rfl
      rcases List.mem_append.mp member with first | second
      · obtain ⟨latest, isLatest, isAtMost⟩ := completed
        refine informed.meets .database ⟨latest, isLatest, ?_⟩ requirement first
        exact Nat.zero_le _
      · exact informed.meets .collections completed requirement second

/--
How a phase or a run of a creator ends: the store is still on the way and meets
what the creator has completed. Success means that the phase is completed, and
where no errors occur there is success if all requirements can be provided and
the phase may run.
-/
structure PhaseOutcome
    (database : String)
    (plan : ProvisioningPlan)
    (start : MemoryStore)
    (faulty inOrder : Prop)
    (phase : ProvisioningPhase)
    (ended : PhaseResult × DatabaseCreator)
    (left : MemoryStore) : Prop where
  reached : Reached database (requirementsOf database plan) start left
  informed : Informed database plan ended.2 left
  completed : ended.1 = .ok () → ended.2.HasCompleted phase
  succeeds :
    ¬ faulty →
      inOrder →
        Achievable database (requirementsOf database plan) start →
          ended.1 = .ok ()

theorem PhaseOutcome.advance
    {inOrder : Prop}
    {ended : PhaseResult × DatabaseCreator}
    {after : MemoryStore}
    (outcome :
      PhaseOutcome database plan start faulty inOrder phase ended store)
    (advance :
      Advance database (requirementsOf database plan) start store after) :
    PhaseOutcome database plan start faulty inOrder phase ended after where
  reached := (advance outcome.reached).1
  informed := outcome.informed.advance outcome.reached advance
  completed := outcome.completed
  succeeds := outcome.succeeds

/-- A creator whose phase has met its requirements has completed it. -/
theorem Informed.complete
    (informed : Informed database plan creator store)
    (stands :
      Stands database (requirementsOf database plan) start
        (requirementsBefore database plan phase ++
          phaseRequirements database plan phase) store) :
    Informed database plan (creator.complete phase) store where
  sameDatabase := informed.sameDatabase
  samePlan := informed.samePlan
  meets := by
    intro other completed requirement member
    rcases completed.of_complete with before | isAtMost
    · exact informed.meets other before requirement member
    · apply stands.meets
      rw [List.mem_append]
      cases phase with
      | database =>
          cases other with
          | database =>
              exact .inr member
          | collections | indexes =>
              simp [ProvisioningPhase.rank] at isAtMost
      | collections =>
          cases other with
          | database =>
              exact .inl member
          | collections =>
              exact .inr member
          | indexes =>
              simp [ProvisioningPhase.rank] at isAtMost
      | indexes =>
          cases other with
          | database =>
              exact .inl (List.mem_append_left _ member)
          | collections =>
              exact .inl (List.mem_append_right _ member)
          | indexes =>
              exact .inr member

/-- A phase of a creator ends as it should. -/
theorem secures_runPhase
    (informed : Informed database plan creator store)
    (reached : Reached database (requirementsOf database plan) start store) :
    (creator.runPhase phase).Secures (Disturbed faulty)
      (Advance database (requirementsOf database plan) start)
      (Advance database (requirementsOf database plan) start)
      (PhaseOutcome database plan start faulty
        (creator.checkOrder phase = .ok ()) phase)
      store := by
  cases checked : creator.checkOrder phase with
  | error cause =>
      simp only [runPhase, checked]
      exact ⟨reached, informed, nofun, fun _ => nofun⟩
  | ok value =>
      have stands := informed.stands reached checked
      have calls := phaseCalls_eq creator phase
      rw [informed.sameDatabase, informed.samePlan] at calls
      simp only [runPhase, checked, calls]
      -- what was completed before stays so, whoever calls
      let kept (state : MemoryStore) : Prop :=
        Reached database (requirementsOf database plan) start state ∧
          Informed database plan creator state
      have keeps : ∀ before after,
          Advance database (requirementsOf database plan) start before after →
            kept before → kept after := by
        rintro before after advance ⟨reachedBefore, informedBefore⟩
        exact ⟨(advance reachedBefore).1,
          informedBefore.advance reachedBefore advance⟩
      apply Dialogue.Secures.bind
        ((secures_forEach (requirements_through_phase database plan phase) stands).keep
          kept keeps keeps ⟨reached, informed⟩)
      rintro result left ⟨outcome, reachedLeft, informedLeft⟩
      cases result with
      | error cause =>
          refine ⟨reachedLeft, informedLeft, nofun, ?_⟩
          intro sound _ achievable
          cases outcome.succeeds sound achievable
      | ok value =>
          refine ⟨reachedLeft, ?_, ?_, fun _ _ _ => rfl⟩
          · exact informedLeft.complete (outcome.provided rfl)
          · intro _
            exact hasCompleted_complete creator

/-- Phases of a creator, each of which is the one that the next one requires. -/
theorem secures_runPhases
    {rest : List ProvisioningPhase}
    (ordered :
      (phase :: rest).IsChain fun first second =>
        second.required? = some first)
    (informed : Informed database plan creator store)
    (reached : Reached database (requirementsOf database plan) start store) :
    (creator.runPhases (phase :: rest)).Secures (Disturbed faulty)
      (Advance database (requirementsOf database plan) start)
      (Advance database (requirementsOf database plan) start)
      (PhaseOutcome database plan start faulty
        (creator.checkOrder phase = .ok ())
        ((phase :: rest).getLast (List.cons_ne_nil phase rest)))
      store := by
  induction rest generalizing creator phase store with
  | nil =>
      apply Dialogue.Secures.bind (secures_runPhase informed reached)
      rintro ⟨result, after⟩ left outcome
      cases result with
      | error cause =>
          exact outcome
      | ok value =>
          exact outcome
  | cons following rest inductionHypothesis =>
      obtain ⟨isRequired, others⟩ := List.isChain_cons_cons.mp ordered
      apply Dialogue.Secures.bind (secures_runPhase informed reached)
      rintro ⟨result, after⟩ left outcome
      cases result with
      | error cause =>
          refine ⟨outcome.reached, outcome.informed, nofun, ?_⟩
          exact outcome.succeeds
      | ok value =>
          have inOrder : after.checkOrder following = .ok () := by
            rw [checkOrder_eq_ok_iff, isRequired]
            rintro required ⟨⟩
            exact outcome.completed rfl
          apply (inductionHypothesis others outcome.informed
            outcome.reached).imp
          intro ended final last
          exact ⟨last.reached, last.informed, last.completed,
            fun sound _ => last.succeeds sound inOrder⟩

/-- A run of a creator goes through all phases. -/
theorem secures_run
    (informed : Informed database plan creator store)
    (reached : Reached database (requirementsOf database plan) start store) :
    creator.run.Secures (Disturbed faulty)
      (Advance database (requirementsOf database plan) start)
      (Advance database (requirementsOf database plan) start)
      (PhaseOutcome database plan start faulty True .indexes)
      store := by
  have ordered :
      [ProvisioningPhase.database, .collections, .indexes].IsChain
        fun first second => second.required? = some first := by
    simp [ProvisioningPhase.required?]
  apply (secures_runPhases ordered informed reached).imp
  intro ended left outcome
  exact ⟨outcome.reached, outcome.informed, outcome.completed,
    fun sound _ => outcome.succeeds sound rfl⟩

/-- After the last phase all requirements are met. -/
theorem PhaseOutcome.meets_all
    {inOrder : Prop}
    {ended : PhaseResult × DatabaseCreator}
    (outcome :
      PhaseOutcome database plan start faulty inOrder .indexes ended left)
    (succeeded : ended.1 = .ok ()) :
    ∀ requirement ∈ requirementsOf database plan,
      left.Meets database requirement := by
  obtain ⟨completed, isCompleted, isAtMost⟩ := outcome.completed succeeded
  have hasAll (phase : ProvisioningPhase) : ended.2.HasCompleted phase := by
    refine ⟨completed, isCompleted, Nat.le_trans ?_ isAtMost⟩
    cases phase <;> simp [ProvisioningPhase.rank]
  intro requirement member
  simp only [requirementsOf, requirementsBefore, List.mem_append] at member
  rcases member with (first | second) | third
  · exact outcome.informed.meets .database (hasAll _) requirement first
  · exact outcome.informed.meets .collections (hasAll _) requirement second
  · exact outcome.informed.meets .indexes (hasAll _) requirement third

/-- After the last phase a store holds what providing all requirements gives. -/
theorem PhaseOutcome.provided
    {inOrder : Prop}
    {ended : PhaseResult × DatabaseCreator}
    (outcome :
      PhaseOutcome database plan start faulty inOrder .indexes ended left)
    (succeeded : ended.1 = .ok ()) :
    provideAll database start.unrecorded (requirementsOf database plan) =
      .ok left.unrecorded :=
  outcome.reached.provided_of_meets_all (outcome.meets_all succeeded)

theorem HasCompleted.eq_indexes
    (completed : creator.HasCompleted .indexes) :
    creator.completed = some .indexes := by
  obtain ⟨latest, isLatest, isAtMost⟩ := completed
  cases latest with
  | indexes =>
      exact isLatest
  | database | collections =>
      simp [ProvisioningPhase.rank] at isAtMost

/-- A creator that has its database and is to ensure the collections of the kennel. -/
def kennelCreator : DatabaseCreator :=
  ⟨"kennel", .kennel, some .database⟩

end DatabaseCreator

end GraphGate
