import GraphGate.Proofs.Catalogue
import GraphGate.Proofs.Provisioning.Calls

namespace GraphGate

/-!
# What provisioning adds

A creator adds to a store, and takes nothing from it. It adds its database, and
collections and indexes that its plan lists, where they are missing. Whatever it
is told, and wherever it gives up, the rest of the store is as it was.
-/

/-- Whether a plan lists an index for the collection of a name. -/
def ProvisioningPlan.Lists
    (plan : ProvisioningPlan)
    (name : String)
    (index : IndexSpec) : Prop :=
  ∃ collection ∈ plan.collections,
    collection.name = name ∧ index ∈ collection.indexes

theorem DatabaseCreator.mem_plannedIndexes_iff
    {plan : ProvisioningPlan}
    {request : String × IndexSpec} :
    request ∈ plannedIndexes plan ↔ plan.Lists request.1 request.2 := by
  obtain ⟨name, index⟩ := request
  simp only [plannedIndexes, ProvisioningPlan.Lists, List.mem_flatMap,
    List.mem_map, Prod.mk.injEq]
  constructor
  · rintro ⟨collection, isPlanned, other, isListed, sameName, rfl⟩
    exact ⟨collection, isPlanned, sameName, isListed⟩
  · rintro ⟨collection, isPlanned, sameName, isListed⟩
    exact ⟨collection, isPlanned, index, isListed, sameName, rfl⟩

namespace MemoryStore

variable {database : String} {plan : ProvisioningPlan}
variable {before middle after store : MemoryStore}
variable {stored kept : StoredCollection}

/--
A collection later on. Indexes that it lacked may have been added at the end, if
the plan lists them for it.
-/
def Keeps
    (database : String)
    (plan : ProvisioningPlan)
    (stored kept : StoredCollection) : Prop :=
  ∃ added,
    kept = { stored with indexes := stored.indexes ++ added } ∧
      added.Nodup ∧
      ∀ index ∈ added,
        index ∉ stored.indexes ∧
          stored.database = database ∧
          plan.Lists stored.name index

/-- A collection that a plan lists with its kind, with indexes that the plan lists for it. -/
structure IsPlanned
    (database : String)
    (plan : ProvisioningPlan)
    (stored : StoredCollection) : Prop where
  sameDatabase : stored.database = database
  listed : ∃ collection ∈ plan.collections,
    collection.name = stored.name ∧ collection.kind = stored.kind
  indexes : ∀ index ∈ stored.indexes, plan.Lists stored.name index

/-- A store later on, to which only a database and what a plan lists for it was added. -/
structure Adds
    (database : String)
    (plan : ProvisioningPlan)
    (before after : MemoryStore) : Prop extends Grows before after where
  newDatabase :
    after.databases = before.databases ∨
      database ∉ before.databases ∧
        after.databases = before.databases ++ [database]
  newCollections : ∃ kept created,
    after.collections = kept ++ created ∧
      List.Forall₂ (Keeps database plan) before.collections kept ∧
      (created.map StoredCollection.name).Nodup ∧
      ∀ stored ∈ created,
        IsPlanned database plan stored ∧
          before.kind? database stored.name = none

/-- A collection in another database, or one that the plan does not list. -/
def IsOutside
    (database : String)
    (plan : ProvisioningPlan)
    (stored : StoredCollection) : Prop :=
  stored.database = database →
    ∀ collection ∈ plan.collections, collection.name ≠ stored.name

instance decidableIsOutside
    (database : String)
    (plan : ProvisioningPlan)
    (stored : StoredCollection) :
    Decidable (IsOutside database plan stored) :=
  inferInstanceAs (Decidable (_ → ∀ _ ∈ _, _))

/-! Collections that are kept. -/

theorem Keeps.refl (stored : StoredCollection) :
    Keeps database plan stored stored :=
  ⟨[], by rw [List.append_nil], List.nodup_nil, List.forall_mem_nil _⟩

theorem Keeps.trans
    {last : StoredCollection}
    (first : Keeps database plan stored kept)
    (second : Keeps database plan kept last) :
    Keeps database plan stored last := by
  obtain ⟨added, rfl, distinct, areListed⟩ := first
  obtain ⟨further, rfl, distinctToo, areListedToo⟩ := second
  refine ⟨added ++ further, by rw [List.append_assoc], ?_, ?_⟩
  · refine List.nodup_append.mpr ⟨distinct, distinctToo, ?_⟩
    intro index isAdded other isFurther same
    subst same
    exact (areListedToo index isFurther).1
      (List.mem_append_right stored.indexes isAdded)
  · intro index member
    rcases List.mem_append.mp member with isAdded | isFurther
    · exact areListed index isAdded
    · obtain ⟨isMissing, isHere, isListed⟩ := areListedToo index isFurther
      exact ⟨isMissing ∘ List.mem_append_left added, isHere, isListed⟩

/-- A planned collection stays one. -/
theorem IsPlanned.keeps
    (isPlanned : IsPlanned database plan stored)
    (keeps : Keeps database plan stored kept) :
    IsPlanned database plan kept := by
  obtain ⟨added, rfl, -, areListed⟩ := keeps
  refine ⟨isPlanned.sameDatabase, isPlanned.listed, ?_⟩
  exact List.forall_mem_append.mpr
    ⟨isPlanned.indexes, fun index isAdded => (areListed index isAdded).2.2⟩

/-- A collection outside of a plan is kept as it is, where it is. -/
theorem Keeps.outside
    (keeps : Keeps database plan stored kept) :
    (IsOutside database plan kept ↔ IsOutside database plan stored) ∧
      (IsOutside database plan stored → kept = stored) := by
  obtain ⟨added, rfl, -, areListed⟩ := keeps
  refine ⟨Iff.rfl, ?_⟩
  intro isOutside
  cases added with
  | nil =>
      rw [List.append_nil]
  | cons index rest =>
      obtain ⟨-, isHere, collection, isCollection, sameName, -⟩ :=
        areListed index List.mem_cons_self
      exact (isOutside isHere collection isCollection sameName).elim

theorem keeps_indexed
    {name : String}
    {index : IndexSpec}
    (isListed : plan.Lists name index)
    (stored : StoredCollection) :
    Keeps database plan stored (indexed database name index stored) := by
  unfold indexed
  by_cases lacks :
      (isAt database name stored && !stored.indexes.contains index) = true
  · rw [if_pos lacks]
    simp only [isAt, Bool.and_eq_true, decide_eq_true_eq, Bool.not_eq_true',
      List.contains_eq_mem, decide_eq_false_iff_not] at lacks
    obtain ⟨⟨sameDatabase, sameName⟩, isMissing⟩ := lacks
    refine ⟨[index], rfl, List.nodup_singleton index, ?_⟩
    exact List.forall_mem_singleton.mpr
      ⟨isMissing, sameDatabase, sameName ▸ isListed⟩
  · rw [if_neg lacks]
    exact .refl stored

/-- Of collections that are kept, those outside of a plan are the same. -/
theorem filter_outside_of_keeps
    {collections keptCollections : List StoredCollection}
    (keeps :
      List.Forall₂ (Keeps database plan) collections keptCollections) :
    keptCollections.filter (IsOutside database plan ·) =
      collections.filter (IsOutside database plan ·) := by
  induction keeps with
  | nil =>
      rfl
  | cons here _ inductionHypothesis =>
      obtain ⟨sameSide, unchanged⟩ := here.outside
      simp only [List.filter_cons, decide_eq_true_eq, sameSide,
        inductionHypothesis]
      split
      · rename_i isOutside
        rw [unchanged isOutside]
      · rfl

theorem names_eq_of_keeps
    {collections keptCollections : List StoredCollection}
    (keeps :
      List.Forall₂ (Keeps database plan) collections keptCollections) :
    keptCollections.map StoredCollection.name =
      collections.map StoredCollection.name := by
  induction keeps with
  | nil =>
      rfl
  | cons here _ inductionHypothesis =>
      obtain ⟨added, rfl, -⟩ := here
      simp only [List.map_cons, inductionHypothesis]

/-! Stores that are added to. -/

theorem Adds.refl (store : MemoryStore) : Adds database plan store store where
  toGrows := .refl store
  newDatabase := .inl rfl
  newCollections :=
    ⟨store.collections, [], (List.append_nil _).symm,
      List.forall₂_same.mpr fun stored _ => .refl stored,
      List.nodup_nil, List.forall_mem_nil _⟩

theorem isSome_kind?_of_mem
    (member : stored ∈ store.collections) :
    (store.kind? stored.database stored.name).isSome = true := by
  rw [← isSome_collection?_eq, collection?, List.find?_isSome]
  exact ⟨stored, member, by simp [isAt]⟩

theorem Adds.trans
    (first : Adds database plan before middle)
    (second : Adds database plan middle after) :
    Adds database plan before after where
  toGrows := first.toGrows.trans second.toGrows
  newDatabase := by
    rcases first.newDatabase with same | ⟨isMissing, isMiddle⟩
    · simpa only [same] using second.newDatabase
    · right
      refine ⟨isMissing, ?_⟩
      rcases second.newDatabase with same | ⟨stillMissing, -⟩
      · exact same.trans isMiddle
      · have there : database ∈ middle.databases := by
          simp [isMiddle]
        exact (stillMissing there).elim
  newCollections := by
    obtain ⟨kept, created, isMiddle, areKept, distinct, areNew⟩ :=
      first.newCollections
    obtain ⟨still, further, isAfter, areStillKept, distinctToo, areNewToo⟩ :=
      second.newCollections
    rw [isMiddle] at areStillKept
    obtain ⟨keptStill, createdStill, rfl, ofKept, ofCreated⟩ :=
      Catalogue.exists_append_of_forall₂_append areStillKept
    refine ⟨keptStill, createdStill ++ further, ?_, ?_, ?_, ?_⟩
    · rw [isAfter, List.append_assoc]
    · exact Catalogue.forall₂_trans (fun _ _ _ first => first.trans) areKept ofKept
    · -- what was created first is there when the others are created
      rw [List.map_append, names_eq_of_keeps ofCreated, List.nodup_append]
      refine ⟨distinct, distinctToo, ?_⟩
      intro name isCreated other isFurther same
      obtain ⟨origin, member, rfl⟩ := List.mem_map.mp isCreated
      obtain ⟨stored, isStored, rfl⟩ := List.mem_map.mp isFurther
      have inMiddle : origin ∈ middle.collections := by
        rw [isMiddle]
        exact List.mem_append_right kept member
      have present := isSome_kind?_of_mem inMiddle
      rw [(areNew origin member).1.sameDatabase, same,
        (areNewToo stored isStored).2] at present
      cases present
    · intro stored member
      rcases List.mem_append.mp member with isStored | isStored
      · obtain ⟨origin, isCreated, keeps⟩ :=
          Catalogue.exists_mem_left ofCreated isStored
        obtain ⟨isPlanned, wasFree⟩ := areNew origin isCreated
        refine ⟨isPlanned.keeps keeps, ?_⟩
        obtain ⟨added, rfl, -⟩ := keeps
        exact wasFree
      · obtain ⟨isPlanned, isFree⟩ := areNewToo stored isStored
        refine ⟨isPlanned, ?_⟩
        cases found : before.kind? database stored.name with
        | none =>
            rfl
        | some kind =>
            rw [first.kinds found] at isFree
            cases isFree

theorem adds_record (store : MemoryStore) (call : RecordedCall) :
    Adds database plan store (store.record call) :=
  have same : Adds database plan store store := .refl store
  ⟨grows_record store call, same.newDatabase, same.newCollections⟩

theorem adds_createDatabase
    (created : store.createDatabase database = .ok after) :
    Adds database plan store after := by
  have grown : Grows store after := grows_createDatabase created
  obtain ⟨isMissing, rfl⟩ := createDatabase_eq_ok_iff.mp created
  have same : Adds database plan store store := .refl store
  exact ⟨grown, .inr ⟨isMissing, rfl⟩, same.newCollections⟩

theorem adds_createCollection
    {collection : CollectionPlan}
    (isListed : collection ∈ plan.collections)
    (created :
      store.createCollection database collection.name collection.kind =
        .ok after) :
    Adds database plan store after := by
  have grown : Grows store after := grows_createCollection created
  obtain ⟨-, -, isFree, rfl⟩ := createCollection_eq_ok_iff.mp created
  have same : Adds database plan store store := .refl store
  refine ⟨grown, same.newDatabase, store.collections, _, rfl, ?_,
    List.nodup_singleton _, ?_⟩
  · exact List.forall₂_same.mpr fun stored _ => .refl stored
  · intro stored isNew
    rw [List.mem_singleton.mp isNew]
    exact ⟨⟨rfl, ⟨collection, isListed, rfl, rfl⟩, List.forall_mem_nil _⟩,
      isFree⟩

theorem adds_ensureIndex
    {name : String}
    {index : IndexSpec}
    (isListed : plan.Lists name index)
    (created : store.ensureIndex database name index = .ok after) :
    Adds database plan store after := by
  have grown : Grows store after := grows_ensureIndex created
  obtain ⟨-, -, rfl⟩ := ensureIndex_eq_ok_iff.mp created
  have same : Adds database plan store store := .refl store
  refine ⟨grown, same.newDatabase, _, [], (List.append_nil _).symm, ?_,
    List.nodup_nil, List.forall_mem_nil _⟩
  apply List.forall₂_map_right_iff.mpr
  exact List.forall₂_same.mpr fun stored _ => keeps_indexed isListed stored

theorem adds_attempt
    {call : RecordedCall}
    {change : MemoryStore → Except TransportError MemoryStore}
    (adds : ∀ {met changed},
      change met = .ok changed → Adds database plan met changed)
    (store : MemoryStore) :
    Adds database plan store ((store.record call).attempt change).2 := by
  apply (adds_record store call).trans
  unfold attempt
  cases attempted : change (store.record call) with
  | ok changed =>
      exact adds attempted
  | error cause =>
      exact .refl _

/-- Whatever is answered, the store is as it was or as the call leaves it. -/
def Effected : Dialogue.Answering Command Command.Reply MemoryStore :=
  fun met command _ left => left = met ∨ left = (met.answered command).2

theorem effected_answered (store : MemoryStore) (command : Command) :
    Effected store command (store.answered command).1
      (store.answered command).2 :=
  .inr rfl

theorem Disturbed.effected
    {faulty : Prop}
    {command : Command}
    {reply : command.Reply}
    (disturbed : Disturbed faulty before command reply after) :
    Effected before command reply after := by
  cases disturbed with
  | undisturbed =>
      exact effected_answered before command
  | lost cause faults duplicate =>
      exact .inl rfl
  | struck cause faults duplicate =>
      exact .inr rfl

/-- A call that a plan gives rise to adds what the plan lists. -/
theorem adds_effected
    {command : Command}
    {reply : command.Reply}
    (requests : DatabaseCreator.Requests database plan command)
    (effected : Effected before command reply after) :
    Adds database plan before after := by
  rcases effected with rfl | rfl
  · exact .refl _
  · cases requests with
    | database =>
        exact adds_attempt adds_createDatabase before
    | inspection isListed =>
        exact adds_record before _
    | collection isListed =>
        exact adds_attempt (adds_createCollection isListed) before
    | index isListed =>
        have lists := DatabaseCreator.mem_plannedIndexes_iff.mp isListed
        exact adds_attempt (adds_ensureIndex lists) before

/-- What is outside of a plan is as it was. -/
theorem Adds.filter_outside
    (adds : Adds database plan before after) :
    after.collections.filter (IsOutside database plan ·) =
      before.collections.filter (IsOutside database plan ·) := by
  obtain ⟨kept, created, isAfter, areKept, -, areNew⟩ := adds.newCollections
  have noneOutside : created.filter (IsOutside database plan ·) = [] := by
    apply List.filter_eq_nil_iff.mpr
    intro stored isCreated isOutside
    obtain ⟨sameDatabase, ⟨collection, isListed, sameName, -⟩, -⟩ :=
      (areNew stored isCreated).1
    exact of_decide_eq_true isOutside sameDatabase collection isListed sameName
  rw [isAfter, List.filter_append, noneOutside, List.append_nil]
  exact filter_outside_of_keeps areKept

end MemoryStore

namespace DatabaseCreator

open MemoryStore

/--
Whatever a creator is called for, however its calls are answered and wherever it
gives up: all databases, collections with their kinds, and indexes are still
there. What was missing and was added at the end, each only once, is the database
of the creator, collections that its plan lists, and indexes that its plan lists
for them. Other collections, in this database or in others, are as they were.
-/
theorem calls_add_what_is_planned
    {creator last : DatabaseCreator}
    {tasks : List CreatorCall}
    {start left : MemoryStore}
    (calls : Calls Effected creator start tasks last left) :
    Adds creator.database creator.plan start left ∧
      left.collections.filter (IsOutside creator.database creator.plan ·) =
        start.collections.filter
          (IsOutside creator.database creator.plan ·) := by
  have adds : Adds creator.database creator.plan start left :=
    calls.relates .refl .trans adds_effected
  exact ⟨adds, adds.filter_outside⟩

/-- A store that others use as well, and in which the dogs have an index already. -/
def sharedStore : MemoryStore where
  databases := ["_system", "shop", "kennel"]
  collections := [⟨"shop", "dogs", .edge, []⟩,
    ⟨"kennel", "dogs", .document, [IndexSpec.persistent ["age"]]⟩,
    ⟨"kennel", "visits", .edge, []⟩]
  forbidden := []
  calls := []
  queries := []

/-- The store when the reply to the creation of an index of the dogs has got lost. -/
def indexedStore : MemoryStore where
  databases := ["_system", "shop", "kennel"]
  collections := [⟨"shop", "dogs", .edge, []⟩,
    ⟨"kennel", "dogs", .document,
      [IndexSpec.persistent ["age"], IndexSpec.persistent ["name"]]⟩,
    ⟨"kennel", "visits", .edge, []⟩]
  forbidden := []
  calls := [.createDatabase "kennel", .collectionKind "dogs",
    .ensureIndex "dogs" (IndexSpec.persistent ["name"])]
  queries := []

/-- The dogs get an index, although the creator is told that the call has failed. -/
theorem calls_add_index_of_dogs :
    let creator := ofPlan "kennel" .kennel
    let last : DatabaseCreator := ⟨"kennel", .kennel, some .collections⟩
    Calls Effected creator sharedStore [.run] last indexedStore ∧
      Adds "kennel" .kennel sharedStore indexedStore ∧
      indexedStore.collections.filter (IsOutside "kennel" .kennel ·) =
        sharedStore.collections.filter (IsOutside "kennel" .kennel ·) := by
  intro creator last
  have struck :
      Dialogue.Ends Effected sharedStore (creator.carryOut .run)
        (.error (.transport (.createIndex "dogs" ["name"])
          (.connection "db" "reset")), last)
        indexedStore := by
    apply Dialogue.Ends.ask (effected_answered _ _)
    apply Dialogue.Ends.ask (effected_answered _ _)
    apply Dialogue.Ends.ask
      (Disturbed.struck (.connection "db" "reset") trivial nofun).effected
    exact .done _ _
  have calls : Calls Effected creator sharedStore [.run] last indexedStore :=
    .next struck (.none _ _)
  exact ⟨calls, calls_add_what_is_planned calls⟩

end DatabaseCreator

end GraphGate
