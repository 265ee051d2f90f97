import GraphGate.Proofs.Provisioning.Phases

namespace GraphGate

/-!
# Provisioning converges

Creators for one plan are called one after another, and errors strike their
calls. Whatever they leave behind lies on the way from the start to what a run
without errors makes of it, so the next run that goes well arrives there.
-/

/-- What a creator is called for: a run through all phases, or one phase. -/
inductive CreatorCall where
  | run
  | phase (phase : ProvisioningPhase)
deriving Repr, DecidableEq

namespace DatabaseCreator

open MemoryStore

/-- The calls to the database that come of a call of a creator. -/
def carryOut (creator : DatabaseCreator) :
    CreatorCall → DatabaseDialogue (PhaseResult × DatabaseCreator)
  | .run => creator.run
  | .phase phase => creator.runPhase phase

/--
Creators for a plan join at any time, each of them is called any number of times,
and each call ends before the next one. Any call to the database may be struck
by an error.
-/
inductive History
    (database : String)
    (plan : ProvisioningPlan)
    (start : MemoryStore) : List DatabaseCreator → MemoryStore → Prop where
  | start : History database plan start [] start
  | join
      {creators : List DatabaseCreator}
      {store : MemoryStore} :
      History database plan start creators store →
      History database plan start (ofPlan database plan :: creators) store
  | call
      {creators : List DatabaseCreator}
      {store left : MemoryStore}
      {creator : DatabaseCreator}
      {ended : PhaseResult × DatabaseCreator}
      {place : Nat}
      {task : CreatorCall} :
      History database plan start creators store →
      creators[place]? = some creator →
      Dialogue.Ends (Disturbed True) store (creator.carryOut task) ended left →
      History database plan start (creators.set place ended.2) left

variable {database : String} {plan : ProvisioningPlan}
variable {start store left : MemoryStore}
variable {creator : DatabaseCreator} {creators : List DatabaseCreator}
variable {ended : PhaseResult × DatabaseCreator}
variable {faulty : Prop} {task : CreatorCall}

/-- The store is on the way, and a creator knows what it has completed. -/
structure OnTheWay
    (database : String)
    (plan : ProvisioningPlan)
    (start : MemoryStore)
    (creator : DatabaseCreator)
    (store : MemoryStore) : Prop where
  reached : Reached database (requirementsOf database plan) start store
  informed : Informed database plan creator store

theorem PhaseOutcome.onTheWay
    {inOrder : Prop}
    {phase : ProvisioningPhase}
    (outcome :
      PhaseOutcome database plan start faulty inOrder phase ended left) :
    OnTheWay database plan start ended.2 left :=
  ⟨outcome.reached, outcome.informed⟩

theorem OnTheWay.advance
    (onTheWay : OnTheWay database plan start creator store)
    (advance : Advance database (requirementsOf database plan) start store left) :
    OnTheWay database plan start creator left :=
  ⟨(advance onTheWay.reached).1,
    onTheWay.informed.advance onTheWay.reached advance⟩

/-- Any call of a creator leaves the store on the way, for itself and for others. -/
theorem OnTheWay.carryOut
    (onTheWay : OnTheWay database plan start creator store)
    (ends :
      Dialogue.Ends (Disturbed faulty) store (creator.carryOut task)
        ended left) :
    OnTheWay database plan start ended.2 left ∧
      Advance database (requirementsOf database plan) start store left := by
  obtain ⟨reached, informed⟩ := onTheWay
  have onward : ∀ met after,
      Advance database (requirementsOf database plan) start met after →
        Advance database (requirementsOf database plan) start store met →
          Advance database (requirementsOf database plan) start store after :=
    fun _ _ second first => first.trans second
  cases task with
  | run =>
      obtain ⟨outcome, advance⟩ :=
        ((secures_run informed reached).keep _ onward onward
          (Advance.refl store)).of_ends Advance.refl ends
      exact ⟨outcome.onTheWay, advance⟩
  | phase phase =>
      obtain ⟨outcome, advance⟩ :=
        ((secures_runPhase informed reached).keep _ onward onward
          (Advance.refl store)).of_ends Advance.refl ends
      exact ⟨outcome.onTheWay, advance⟩

theorem onTheWay_ofPlan
    (reached : Reached database (requirementsOf database plan) start store) :
    OnTheWay database plan start (ofPlan database plan) store :=
  ⟨reached, informed_ofPlan database plan store⟩

/-- A creator that has not run yet is on the way from the start. -/
theorem onTheWay_start
    (database : String)
    (plan : ProvisioningPlan)
    (start : MemoryStore) :
    OnTheWay database plan start (ofPlan database plan) start :=
  onTheWay_ofPlan (reached_start database _ start)

/-- A history leaves the store on the way, and every creator knows what it has completed. -/
theorem History.onTheWay
    (history : History database plan start creators store) :
    Reached database (requirementsOf database plan) start store ∧
      ∀ creator ∈ creators, OnTheWay database plan start creator store := by
  induction history with
  | start =>
      refine ⟨reached_start database _ start, ?_⟩
      intro creator member
      cases member
  | join _ inductionHypothesis =>
      obtain ⟨reached, others⟩ := inductionHypothesis
      refine ⟨reached, ?_⟩
      intro creator member
      rcases List.mem_cons.mp member with rfl | old
      · exact onTheWay_ofPlan reached
      · exact others creator old
  | call _ isAt ends inductionHypothesis =>
      obtain ⟨-, others⟩ := inductionHypothesis
      obtain ⟨caller, advance⟩ :=
        (others _ (List.mem_of_getElem? isAt)).carryOut ends
      refine ⟨caller.reached, ?_⟩
      intro creator member
      rcases List.mem_or_eq_of_mem_set member with old | rfl
      · exact (others creator old).advance advance
      · exact caller

/-- Where a store answers without errors, a run ends as it should. -/
theorem OnTheWay.secures_answered
    (onTheWay : OnTheWay database plan start creator store) :
    creator.run.Secures (Dialogue.exactly answered)
      (Advance database (requirementsOf database plan) start)
      (Advance database (requirementsOf database plan) start)
      (PhaseOutcome database plan start False True .indexes) store := by
  apply (secures_run onTheWay.informed onTheWay.reached).restrict
  · intro met command reply left isAnswer
    have same : met.answered command = (reply, left) := isAnswer
    have disturbed : Disturbed False met command _ _ := .undisturbed
    rw [same] at disturbed
    exact disturbed
  · exact fun _ _ => id

/-- How a run without errors ends. -/
theorem OnTheWay.run_answered
    (onTheWay : OnTheWay database plan start creator store) :
    PhaseOutcome database plan start False True .indexes
      (Dialogue.run answered store creator.run).1
      (Dialogue.run answered store creator.run).2 :=
  onTheWay.secures_answered.of_ends Advance.refl
    (Dialogue.ends_run answered store creator.run)

/-- What can be provided is provided by a run without errors. -/
theorem OnTheWay.run_succeeds
    (onTheWay : OnTheWay database plan start creator store)
    (achievable : Achievable database (requirementsOf database plan) start) :
    (Dialogue.run answered store creator.run).1.1 = .ok () :=
  onTheWay.run_answered.succeeds id trivial achievable

/-- Two runs without errors that go well leave the same databases and collections. -/
theorem OnTheWay.run_agrees
    {other : DatabaseCreator}
    {otherStore : MemoryStore}
    (onTheWay : OnTheWay database plan start creator store)
    (otherOnTheWay : OnTheWay database plan start other otherStore)
    (succeeded : (Dialogue.run answered store creator.run).1.1 = .ok ()) :
    (Dialogue.run answered otherStore other.run).1.1 = .ok () ∧
      (Dialogue.run answered otherStore other.run).2.databases =
        (Dialogue.run answered store creator.run).2.databases ∧
      (Dialogue.run answered otherStore other.run).2.collections =
        (Dialogue.run answered store creator.run).2.collections := by
  have provided := onTheWay.run_answered.provided succeeded
  have succeedsToo := otherOnTheWay.run_succeeds ⟨_, provided⟩
  have providedToo := otherOnTheWay.run_answered.provided succeedsToo
  have same := Except.ok.inj (providedToo.symm.trans provided)
  exact ⟨succeedsToo, holdings_eq_of_unrecorded_eq same⟩

/--
Whatever creators for a plan have been called for, and whatever errors have
struck their calls: when a run without errors goes well, it leaves the databases
and the collections, with their kinds and indexes, that a single run makes of the
start. Running once more, with the same creator or with another one, goes well
and leaves them as they are.
-/
theorem run_converges
    (history : History database plan start creators store)
    (member : creator ∈ creators)
    (succeeded : (Dialogue.run answered store creator.run).1.1 = .ok ()) :
    let final := Dialogue.run answered store creator.run
    let single := Dialogue.run answered start (ofPlan database plan).run
    (single.1.1 = .ok () ∧
      single.2.databases = final.2.databases ∧
      single.2.collections = final.2.collections) ∧
      ∀ next ∈ [final.1.2, ofPlan database plan],
        let again := Dialogue.run answered final.2 next.run
        again.1.1 = .ok () ∧
          again.2.databases = final.2.databases ∧
          again.2.collections = final.2.collections := by
  intro final single
  have onTheWay := history.onTheWay.2 creator member
  have outcome := onTheWay.run_answered
  constructor
  · exact onTheWay.run_agrees
      (onTheWay_ofPlan (reached_start database _ start)) succeeded
  · intro next isNext
    have nextOnTheWay : OnTheWay database plan start next final.2 := by
      rcases List.mem_cons.mp isNext with rfl | isFresh
      · exact outcome.onTheWay
      · rw [List.mem_singleton.mp isFresh]
        exact onTheWay_ofPlan outcome.reached
    exact onTheWay.run_agrees nextOnTheWay succeeded

/-- The store when the reply to the creation of the collection has got lost. -/
def interruptedStore : MemoryStore where
  databases := ["_system", "kennel"]
  collections := [⟨"kennel", "dogs", .document, []⟩]
  forbidden := []
  calls := [.createDatabase "kennel", .collectionKind "dogs",
    .createCollection "dogs" .document]
  queries := []

/-- A first run whose reply to the creation of the collection gets lost. -/
theorem run_interrupted :
    Dialogue.Ends (Disturbed True) fresh
      ((ofPlan "kennel" .kennel).carryOut .run)
      (.error (.transport (.createCollection .document "dogs")
        (.connection "db" "reset")), kennelCreator)
      interruptedStore := by
  apply Dialogue.Ends.ask .undisturbed
  apply Dialogue.Ends.ask .undisturbed
  apply Dialogue.Ends.ask
    (.struck (.connection "db" "reset") trivial nofun)
  exact .done _ _

theorem history_interrupted :
    History "kennel" .kennel fresh [kennelCreator]
      interruptedStore := by
  have isFirst :
      [ofPlan "kennel" .kennel][0]? = some (ofPlan "kennel" .kennel) :=
    rfl
  exact .call (.join .start) isFirst run_interrupted

/-- A run that was interrupted is made good by the next one. -/
theorem run_converges_after_lost_reply :
    let final :=
      Dialogue.run answered interruptedStore kennelCreator.run
    let single :=
      Dialogue.run answered fresh (ofPlan "kennel" .kennel).run
    final.1.1 = .ok () ∧
      single.2.databases = final.2.databases ∧
      single.2.collections = final.2.collections := by
  intro final single
  have succeeded : final.1.1 = .ok () := by
    decide +kernel
  exact ⟨succeeded,
    (run_converges history_interrupted (List.mem_singleton_self _)
      succeeded).1.2⟩

end DatabaseCreator

end GraphGate
