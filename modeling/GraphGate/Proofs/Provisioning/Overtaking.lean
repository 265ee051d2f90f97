import GraphGate.Proofs.Provisioning.Phases

namespace GraphGate

/-!
# Overtaken creators

A creator inspects a collection and creates it when it is missing. These are two
calls, and any client may have its turn between them. If one creates the
collection in the meantime, the creator takes the duplicate name for success and
does not inspect the collection again, so its kind need not be the one of the
plan. Apart from that, the collections of a completed phase have their kinds.
-/

/-- A call of a client with its answer. -/
structure Exchange where
  client : Nat
  command : Command
  reply : command.Reply

/-- A store with all exchanges that its clients have had. -/
structure ObservedStore where
  store : MemoryStore
  exchanges : List Exchange

namespace ObservedStore

open MemoryStore

variable {before after later observed : ObservedStore}
variable {database name : String} {kind : CollectionKind}
variable {client own : Nat} {command : Command}

/-- The answer to a client, which is noted. -/
def answered
    (client : Nat)
    (observed : ObservedStore)
    (command : Command) : command.Reply × ObservedStore :=
  let (reply, store) := observed.store.answered command
  (reply, ⟨store, observed.exchanges ++ [⟨client, command, reply⟩]⟩)

/-- That a client has created a collection. -/
def creation
    (client : Nat)
    (database name : String)
    (kind : CollectionKind) : Exchange :=
  ⟨client, .createCollection database name kind, .ok ()⟩

/-- A collection that was missing before a call was created by it. -/
theorem creation_of_answered
    {store : MemoryStore}
    (missing : store.kind? database name = none)
    (found : (store.answered command).2.kind? database name = some kind) :
    (⟨client, command, (store.answered command).1⟩ : Exchange) =
      creation client database name kind := by
  have unchanged {left : MemoryStore}
      (same : left.kind? database name = store.kind? database name)
      (found : left.kind? database name = some kind) : False := by
    rw [same, missing] at found
    cases found
  cases command with
  | createDatabase other =>
      simp only [MemoryStore.answered, MemoryScript.answer, attempt] at found
      split at found
      · rename_i changed created
        obtain ⟨-, rfl⟩ := createDatabase_eq_ok_iff.mp created
        exact (unchanged rfl found).elim
      · exact (unchanged rfl found).elim
  | collectionKind otherDatabase other =>
      exact (unchanged rfl found).elim
  | createCollection otherDatabase other otherKind =>
      simp only [creation, MemoryStore.answered, MemoryScript.answer, attempt,
        disturb_empty] at found ⊢
      split at found
      · rename_i changed created
        obtain ⟨-, -, free, rfl⟩ := createCollection_eq_ok_iff.mp created
        rw [kind?_withNew free] at found
        by_cases same : otherDatabase = database ∧ other = name
        · rw [if_pos same, Option.some.injEq] at found
          obtain ⟨rfl, rfl⟩ := same
          subst found
          rfl
        · rw [if_neg same] at found
          exact (unchanged rfl found).elim
      · exact (unchanged rfl found).elim
  | ensureIndex otherDatabase other index =>
      simp only [MemoryStore.answered, MemoryScript.answer, attempt] at found
      split at found
      · rename_i changed created
        obtain ⟨-, -, rfl⟩ := ensureIndex_eq_ok_iff.mp created
        exact (unchanged (kind?_withIndex database name) found).elim
      · exact (unchanged rfl found).elim
  | query otherDatabase query timeout =>
      simp only [MemoryStore.answered, MemoryScript.answer] at found
      split at found
      · exact (unchanged rfl found).elim
      · exact (unchanged rfl found).elim

/--
Clients of one sort have had more exchanges: nothing has been removed, and each
collection that has come was created in one of them.
-/
def Extends
    (sort : Nat → Prop)
    (before after : ObservedStore) : Prop :=
  ∃ exchanges,
    after.exchanges = before.exchanges ++ exchanges ∧
      Grows before.store after.store ∧
      ∀ database name kind,
        before.store.kind? database name = none →
          after.store.kind? database name = some kind →
            ∃ client,
              sort client ∧ creation client database name kind ∈ exchanges

variable {sort : Nat → Prop}

theorem Extends.refl (observed : ObservedStore) :
    Extends sort observed observed := by
  refine ⟨[], (List.append_nil _).symm, Grows.refl _, ?_⟩
  intro database name kind missing found
  rw [missing] at found
  cases found

theorem Extends.grows
    (more : Extends sort before after) :
    Grows before.store after.store :=
  let ⟨_, _, grows, _⟩ := more
  grows

theorem Extends.grown
    {start : MemoryStore}
    (more : Extends sort before after)
    (grown : Grows start before.store) :
    Grows start after.store :=
  grown.trans more.grows

/-- A collection that has come was missing up to some point, and created there. -/
theorem Extends.trans
    (first : Extends sort before after)
    (second : Extends sort after later) :
    Extends sort before later := by
  obtain ⟨former, isFormer, growsFormer, createdFormer⟩ := first
  obtain ⟨latter, isLatter, growsLatter, createdLatter⟩ := second
  refine ⟨former ++ latter, ?_, growsFormer.trans growsLatter, ?_⟩
  · rw [isLatter, isFormer, List.append_assoc]
  · intro database name kind missing found
    cases between : after.store.kind? database name with
    | none =>
        obtain ⟨client, isSort, member⟩ :=
          createdLatter database name kind between found
        exact ⟨client, isSort, List.mem_append_right _ member⟩
    | some other =>
        have same := growsLatter.kinds between
        rw [found, Option.some.injEq] at same
        subst same
        obtain ⟨client, isSort, member⟩ :=
          createdFormer database name kind missing between
        exact ⟨client, isSort, List.mem_append_left _ member⟩

theorem Extends.mono
    {larger : Nat → Prop}
    (more : Extends sort before after)
    (within : ∀ client, sort client → larger client) :
    Extends larger before after := by
  obtain ⟨exchanges, isLonger, grows, created⟩ := more
  refine ⟨exchanges, isLonger, grows, ?_⟩
  intro database name kind missing found
  obtain ⟨client, isSort, member⟩ := created database name kind missing found
  exact ⟨client, within client isSort, member⟩

/-- An exchange of a client. -/
theorem extends_answered
    (client : Nat)
    (observed : ObservedStore)
    (command : Command) :
    Extends (· = client) observed (observed.answered client command).2 := by
  refine ⟨[_], rfl, grows_answer _ _ _, ?_⟩
  intro database name kind missing found
  refine ⟨client, rfl, ?_⟩
  rw [List.mem_singleton]
  exact (creation_of_answered missing found).symm

/-- Whatever a client does, it does no more than have exchanges of its own. -/
theorem secures_extends
    {α : Type}
    {rely : ObservedStore → ObservedStore → Prop}
    (client : Nat)
    (dialogue : DatabaseDialogue α)
    (observed : ObservedStore) :
    dialogue.Secures (Dialogue.exactly (answered client)) rely
      (Extends (· = client)) (fun _ _ => True) observed := by
  induction dialogue generalizing observed with
  | done value =>
      trivial
  | ask command onward inductionHypothesis =>
      intro met reply left _ isAnswer
      refine ⟨?_, inductionHypothesis reply left⟩
      have same : (met.answered client command).2 = left :=
        congrArg Prod.snd isAnswer
      exact same ▸ extends_answered client met command

/-! What a client has been overtaken by. -/

/--
A client has been told that a collection is missing, then another client has
created it with another kind, and then the client has been told that the name is
taken.
-/
def Overtaken
    (exchanges : List Exchange)
    (own : Nat)
    (database : String)
    (collection : CollectionPlan)
    (kind : CollectionKind) : Prop :=
  kind ≠ collection.kind ∧
    ∃ other cause,
      other ≠ own ∧
        cause.isDuplicateName = true ∧
        List.Sublist
          [⟨own, .collectionKind database collection.name, .ok none⟩,
            creation other database collection.name kind,
            ⟨own, .createCollection database collection.name collection.kind,
              .error cause⟩]
          exchanges

/--
A collection of a plan is there with its kind, unless it was missing at the start
and the creator has been overtaken.
-/
def Settled
    (own : Nat)
    (database : String)
    (start : MemoryStore)
    (collection : CollectionPlan)
    (observed : ObservedStore) : Prop :=
  ∃ kind,
    observed.store.kind? database collection.name = some kind ∧
      (kind = collection.kind ∨
        start.kind? database collection.name = none ∧
          Overtaken observed.exchanges own database collection kind)

theorem Settled.extends
    {start : MemoryStore}
    {collection : CollectionPlan}
    (settled : Settled own database start collection before)
    (more : Extends sort before after) :
    Settled own database start collection after := by
  obtain ⟨kind, found, state⟩ := settled
  obtain ⟨exchanges, isLonger, grows, -⟩ := more
  refine ⟨kind, grows.kinds found, state.imp_right ?_⟩
  rintro ⟨missing, other, client, cause, isOther, duplicate, ordered⟩
  refine ⟨missing, other, client, cause, isOther, duplicate, ?_⟩
  rw [isLonger]
  exact ordered.trans (List.sublist_append_left _ _)

/-- What an answer says about the stores before and after it. -/
theorem of_answered
    {reply : command.Reply}
    (isAnswer :
      Dialogue.exactly (answered client) before command reply after) :
    Disturbed False before.store command reply after.store ∧
      after.exchanges = before.exchanges ++ [⟨client, command, reply⟩] ∧
      Extends (· = client) before after := by
  obtain ⟨rfl, rfl⟩ := Prod.mk.inj isAnswer
  exact ⟨.undisturbed, rfl, extends_answered client before command⟩

end ObservedStore

namespace DatabaseCreator

open MemoryStore ObservedStore

variable {own : Nat} {database : String} {start : MemoryStore}
variable {collection : CollectionPlan} {items : List CollectionPlan}
variable {before met left final observed : ObservedStore}
variable {creator : DatabaseCreator}

/--
How collections are ensured among other clients: success means that they are
settled, and a failure is that of a call or that a collection is there with
another kind.
-/
structure KindsOutcome
    (own : Nat)
    (database : String)
    (start : MemoryStore)
    (items : List CollectionPlan)
    (result : PhaseResult)
    (observed : ObservedStore) : Prop where
  settled :
    result = .ok () →
      ∀ collection ∈ items, Settled own database start collection observed
  failed : ∀ cause,
    result = .error cause →
      (∃ step reason, cause = .transport step reason) ∨
        ∃ collection ∈ items, ∃ existing,
          existing ≠ collection.kind ∧
            cause =
              .collectionKindMismatch collection.name collection.kind
                existing ∧
            observed.store.kind? database collection.name = some existing

theorem kindsOutcome_of_transport
    (step : ProvisioningStep)
    (cause : TransportError) :
    KindsOutcome own database start items (.error (.transport step cause))
      observed where
  settled := nofun
  failed := by
    rintro _ ⟨⟩
    exact .inl ⟨step, cause, rfl⟩

theorem kindsOutcome_of_settled
    (settled : Settled own database start collection observed) :
    KindsOutcome own database start [collection] (.ok ()) observed where
  settled := by
    intro _ other member
    exact List.mem_singleton.mp member ▸ settled
  failed := nofun

/-- A creator that is told of a duplicate finds its collection settled. -/
theorem settled_of_duplicate
    {cause : TransportError}
    {missed : ObservedStore}
    (missing : missed.store.kind? database collection.name = none)
    (grown : Grows start missed.store)
    (told : missed.exchanges =
      before.exchanges ++
        [⟨own, .collectionKind database collection.name, .ok none⟩])
    (others : Extends (· ≠ own) missed met)
    (answered :
      Dialogue.exactly (answered own) met
        (.createCollection database collection.name collection.kind)
        (.error cause) left)
    (duplicate : cause.isDuplicateName = true) :
    Settled own database start collection left := by
  obtain ⟨disturbed, noted, more⟩ := of_answered answered
  have attempted := attempted_createCollection disturbed
  have taken : (met.store.kind? database collection.name).isSome = true := by
    cases created :
        met.store.createCollection database collection.name
          collection.kind with
    | ok changed =>
        cases attempted.succeeds changed id created
    | error refusal =>
        cases attempted.fails refusal id created
        exact isSome_kind?_of_duplicate created duplicate
  obtain ⟨kind, found⟩ := Option.isSome_iff_exists.mp taken
  refine ⟨kind, more.grows.kinds found, ?_⟩
  by_cases asPlanned : kind = collection.kind
  · exact .inl asPlanned
  · right
    have missingAtStart : start.kind? database collection.name = none := by
      by_contra present
      obtain ⟨other, isThere⟩ := Option.ne_none_iff_exists'.mp present
      rw [grown.kinds isThere] at missing
      cases missing
    obtain ⟨exchanges, isLonger, -, created⟩ := others
    obtain ⟨client, isOther, member⟩ :=
      created database collection.name kind missing found
    refine ⟨missingAtStart, asPlanned, client, cause, isOther, duplicate, ?_⟩
    rw [noted, isLonger, told]
    exact ((List.sublist_append_right _ [_]).append
      (List.singleton_sublist.mpr member)).append (List.Sublist.refl [_])

/-- A collection is ensured among other clients. -/
theorem settles_ensureCollection
    (grown : Grows start observed.store) :
    (ensureCollection database collection).Secures
      (Dialogue.exactly (answered own))
      (Extends (· ≠ own)) (Extends (· = own))
      (KindsOutcome own database start [collection]) observed := by
  rw [ensureCollection_eq]
  intro met reply left others isAnswer
  obtain ⟨disturbed, noted, more⟩ := of_answered isAnswer
  obtain ⟨same, told, -⟩ := inspected_collectionKind disturbed
  refine ⟨more, ?_⟩
  cases reply with
  | error cause =>
      exact kindsOutcome_of_transport _ cause
  | ok inspected =>
      have isKind : left.store.kind? database collection.name = inspected :=
        (congrArg (·.kind? database collection.name) same).trans
          (told inspected rfl).2
      cases inspected with
      | none =>
          intro next reply final others' isAnswer
          obtain ⟨disturbed, -, created⟩ := of_answered isAnswer
          refine ⟨created, ?_⟩
          cases reply with
          | ok value =>
              apply kindsOutcome_of_settled
              have made := (attempted_createCollection disturbed).made rfl
              have isMet : final.store.unrecorded.Meets database
                  (.collection collection) :=
                meets_of_create made
              exact ⟨collection.kind, isMet.2, .inl rfl⟩
          | error cause =>
              show KindsOutcome own database start [collection]
                (if cause.isDuplicateName then .ok () else .error _) final
              by_cases duplicate : cause.isDuplicateName = true
              · rw [if_pos duplicate]
                apply kindsOutcome_of_settled
                have grownLeft :=
                  (grown.trans others.grows).trans more.grows
                exact settled_of_duplicate isKind grownLeft noted others'
                  isAnswer duplicate
              · rw [if_neg duplicate]
                exact kindsOutcome_of_transport _ cause
      | some existing =>
          show KindsOutcome _ _ _ _ (judgeKind collection existing) left
          by_cases asPlanned : existing = collection.kind
          · subst asPlanned
            rw [judgeKind_self]
            exact kindsOutcome_of_settled ⟨_, isKind, .inl rfl⟩
          · rw [judgeKind_of_ne asPlanned]
            refine ⟨nofun, ?_⟩
            rintro _ ⟨⟩
            exact .inr ⟨collection, List.mem_singleton_self _, existing,
              asPlanned, rfl, isKind⟩

/-- Collections are ensured one after another among other clients. -/
theorem settles_forEach
    (grown : Grows start observed.store) :
    (forEach (ensureCollection database) items).Secures
      (Dialogue.exactly (answered own))
      (Extends (· ≠ own)) (Extends (· = own))
      (KindsOutcome own database start items) observed := by
  induction items generalizing observed with
  | nil =>
      exact ⟨fun _ _ => nofun, nofun⟩
  | cons item rest inductionHypothesis =>
      apply Dialogue.Secures.bind
        ((settles_ensureCollection grown).keep
          (fun observed => Grows start observed.store)
          (fun _ _ => Extends.grown) (fun _ _ => Extends.grown) grown)
      rintro result left ⟨outcome, grownLeft⟩
      cases result with
      | error cause =>
          refine ⟨nofun, ?_⟩
          rintro _ ⟨⟩
          apply (outcome.failed cause rfl).imp_right
          rintro ⟨collection, member, mismatch⟩
          rw [List.mem_singleton.mp member] at mismatch
          exact ⟨item, List.mem_cons_self, mismatch⟩
      | ok value =>
          have settled :=
            outcome.settled rfl item (List.mem_singleton_self item)
          have keeps {sort : Nat → Prop} (before after : ObservedStore)
              (more : Extends sort before after)
              (settled : Settled own database start item before) :
              Settled own database start item after :=
            settled.extends more
          apply ((inductionHypothesis grownLeft).keep
            (Settled own database start item) keeps keeps settled).imp
          rintro result final ⟨others, stillSettled⟩
          constructor
          · intro succeeded
            exact List.forall_mem_cons.mpr
              ⟨stillSettled, others.settled succeeded⟩
          · intro cause isError
            apply (others.failed cause isError).imp_right
            rintro ⟨collection, member, mismatch⟩
            exact ⟨collection, List.mem_cons_of_mem item member, mismatch⟩

/--
How the phase of the collections ends among other clients: it was not allowed to
run, or the collections have been ensured.
-/
structure CollectionsOutcome
    (own : Nat)
    (creator : DatabaseCreator)
    (start : MemoryStore)
    (result : PhaseResult)
    (observed : ObservedStore) : Prop where
  grown : Grows start observed.store
  ended :
    (result = creator.checkOrder .collections ∧ result ≠ .ok ()) ∨
      KindsOutcome own creator.database start creator.plan.collections result
        observed

theorem CollectionsOutcome.extends
    {result : PhaseResult}
    {sort : Nat → Prop}
    (outcome : CollectionsOutcome own creator start result before)
    (more : Extends sort before met) :
    CollectionsOutcome own creator start result met := by
  refine ⟨outcome.grown.trans more.grows, outcome.ended.imp_right ?_⟩
  intro kinds
  constructor
  · intro succeeded collection member
    exact (kinds.settled succeeded collection member).extends more
  · intro cause isError
    apply (kinds.failed cause isError).imp_right
    rintro ⟨collection, member, existing, isOther, isCause, found⟩
    exact ⟨collection, member, existing, isOther, isCause,
      more.grows.kinds found⟩

/-- The phase of the collections among other clients. -/
theorem settles_runPhase
    (creator : DatabaseCreator)
    (observed : ObservedStore) :
    (creator.runPhase .collections).Secures (Dialogue.exactly (answered own))
      (Extends (· ≠ own)) (Extends (· = own))
      (fun ended => CollectionsOutcome own creator observed.store ended.1)
      observed := by
  cases checked : creator.checkOrder .collections with
  | error cause =>
      simp only [runPhase, checked]
      refine ⟨Grows.refl _, .inl ⟨checked.symm, ?_⟩⟩
      intro succeeded
      cases succeeded
  | ok value =>
      simp only [runPhase, checked]
      apply Dialogue.Secures.bind
        ((settles_forEach (Grows.refl observed.store)).keep
          (fun left => Grows observed.store left.store)
          (fun _ _ => Extends.grown) (fun _ _ => Extends.grown)
          (Grows.refl observed.store))
      rintro result left ⟨outcome, grown⟩
      cases result with
      | error cause =>
          exact ⟨grown, .inr outcome⟩
      | ok value =>
          exact ⟨grown, .inr outcome⟩

/-- How the clients end among which one is a creator. -/
def EndsSettled
    (own : Nat)
    (creator : DatabaseCreator)
    (start : MemoryStore)
    (client : Nat)
    (ended : PhaseResult × DatabaseCreator)
    (observed : ObservedStore) : Prop :=
  client = own → CollectionsOutcome own creator start ended.1 observed

/-- No client undoes what a creator has found, whatever its calls are. -/
theorem cooperation_extends (creator : DatabaseCreator) (start : MemoryStore) :
    Sharing.Cooperation
      (fun client => Extends (· ≠ client))
      (fun client => Extends (· = client))
      (EndsSettled own creator start) where
  reflexive := fun _ => Extends.refl
  transitive := fun _ _ _ _ => Extends.trans
  covers := by
    intro client other before after different more
    apply Extends.mono more
    intro exchanging isOther isClient
    exact different (isClient.symm.trans isOther)
  kept := by
    intro client ended before after outcome more isOwn
    exact (outcome isOwn).extends more

/-- Clients of any kind among which a creator ensures collections. -/
abbrev Pool : Type :=
  Sharing Command Command.Reply (PhaseResult × DatabaseCreator) ObservedStore

variable {pool : Pool} {schedule : List Nat}
variable {ended : PhaseResult × DatabaseCreator}

/--
Whatever other clients do in between, when the phase of the collections goes well
every collection of the plan is there, and with its kind unless the creator has
been overtaken. It does not go well if a collection was there with another kind
at the start. A phase that was allowed to run and fails has found a collection
with another kind, or one of its calls has failed.
-/
theorem collections_settled
    (isClient : pool.clients[own]? = some (creator.runPhase .collections))
    (isDone :
      (pool.interleave answered schedule).clients[own]? =
        some (.done ended)) :
    let start := pool.state.store
    let final := (pool.interleave answered schedule).state
    (ended.1 = .ok () →
      ∀ collection ∈ creator.plan.collections, ∃ kind,
        final.store.kind? creator.database collection.name = some kind ∧
          (kind = collection.kind ∨
            start.kind? creator.database collection.name = none ∧
              Overtaken final.exchanges own creator.database collection
                kind)) ∧
      (∀ collection ∈ creator.plan.collections, ∀ kind,
        start.kind? creator.database collection.name = some kind →
          kind ≠ collection.kind → ended.1 ≠ .ok ()) ∧
      ∀ cause,
        ended.1 = .error cause →
          creator.checkOrder .collections = .error cause ∨
            (∃ step reason, cause = .transport step reason) ∨
            ∃ collection ∈ creator.plan.collections, ∃ existing,
              existing ≠ collection.kind ∧
                cause =
                  .collectionKindMismatch collection.name collection.kind
                    existing ∧
                final.store.kind? creator.database collection.name =
                  some existing := by
  intro start final
  have secure : pool.AllSecure answered
      (fun client => Extends (· ≠ client))
      (fun client => Extends (· = client))
      (EndsSettled own creator start) := by
    intro client dialogue isOther
    by_cases isOwn : client = own
    · subst isOwn
      rw [isClient, Option.some.injEq] at isOther
      subst isOther
      exact (settles_runPhase creator pool.state).imp
        fun _ _ outcome _ => outcome
    · exact (secures_extends client dialogue pool.state).imp
        fun _ _ _ same => (isOwn same).elim
  have outcome : CollectionsOutcome own creator start ended.1 final :=
    (secure.interleave (cooperation_extends creator start) schedule).of_done
      isDone rfl
  have settled (succeeded : ended.1 = .ok ()) :
      ∀ collection ∈ creator.plan.collections,
        Settled own creator.database start collection final := by
    rcases outcome.ended with ⟨-, refused⟩ | kinds
    · exact (refused succeeded).elim
    · exact kinds.settled succeeded
  refine ⟨settled, ?_, ?_⟩
  · intro collection member kind found different succeeded
    obtain ⟨other, isThere, asPlanned | ⟨missing, -⟩⟩ :=
      settled succeeded collection member
    · rw [outcome.grown.kinds found, Option.some.injEq] at isThere
      exact different (isThere.trans asPlanned)
    · rw [found] at missing
      cases missing
  · intro cause failed
    rcases outcome.ended with ⟨isCheck, -⟩ | kinds
    · exact .inl (isCheck.symm.trans failed)
    · exact .inr (kinds.failed cause failed)

/-- A creator for the kennel, and a client that creates the dogs as edges. -/
def rivalry : Pool where
  state := ⟨fresh.withDatabase "kennel", []⟩
  clients := [
    kennelCreator.runPhase .collections,
    (DatabaseDialogue.createCollection "kennel" "dogs" .edge).bind
      fun _ => .done (.ok (), kennelCreator)]

/-- The rival has its turn between the two calls of the creator. -/
def overtaking : Pool :=
  rivalry.interleave answered [0, 1, 0]

theorem kennelCreator_done :
    overtaking.clients[0]? =
      some (.done (.ok (), kennelCreator.complete .collections)) :=
  rfl

/-- The phase goes well although the collection is there with the other kind. -/
theorem dogs_left_as_edges :
    ∃ collection ∈ kennelCreator.plan.collections,
      collection.kind = .document ∧
        overtaking.state.store.kind? kennelCreator.database collection.name =
          some .edge ∧
        overtaking.clients[0]? =
          some (.done (.ok (), kennelCreator.complete .collections)) :=
  ⟨⟨"dogs", .document, [IndexSpec.persistent ["name"]]⟩,
    List.mem_singleton_self _, rfl, by decide +kernel, kennelCreator_done⟩

/-- The creator has been overtaken by its rival. -/
theorem dogs_overtaken :
    ∃ collection ∈ kennelCreator.plan.collections, ∃ kind,
      kind ≠ collection.kind ∧
        Overtaken overtaking.state.exchanges 0 kennelCreator.database
          collection kind := by
  have isMember :
      (⟨"dogs", .document, [IndexSpec.persistent ["name"]]⟩ :
          CollectionPlan) ∈ kennelCreator.plan.collections :=
    List.mem_singleton_self _
  have isClient :
      rivalry.clients[0]? = some (kennelCreator.runPhase .collections) :=
    rfl
  have isDone :
      (rivalry.interleave answered [0, 1, 0]).clients[0]? =
        some (.done (.ok (), kennelCreator.complete .collections)) :=
    kennelCreator_done
  obtain ⟨settled, -, -⟩ := collections_settled isClient isDone
  obtain ⟨kind, found, asPlanned | ⟨-, overtaken⟩⟩ :=
    settled rfl _ isMember
  · have isEdge :
        overtaking.state.store.kind? "kennel" "dogs" = some .edge := by
      decide +kernel
    rw [asPlanned] at found
    cases found.symm.trans isEdge
  · exact ⟨_, isMember, kind, overtaken.1, overtaken⟩

end DatabaseCreator

end GraphGate
