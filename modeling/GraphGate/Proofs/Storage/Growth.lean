import GraphGate.Storage.Memory
import Mathlib.Data.List.Basic

namespace GraphGate.MemoryStore

/-!
# Stores only grow

No call takes a database, a collection or an index away, and none changes the
kind of a collection or what is forbidden. A call that creates something only
depends on what the store holds, not on the calls it has recorded.
-/

variable {store before after later : MemoryStore}
variable {database name : String} {kind : CollectionKind} {index : IndexSpec}

/-- What a store holds, without the calls it has recorded. -/
def unrecorded (store : MemoryStore) : MemoryStore :=
  { store with calls := [], queries := [] }

/-- What stores hold that differ in their records at most. -/
theorem holdings_eq_of_unrecorded_eq
    (same : store.unrecorded = after.unrecorded) :
    store.databases = after.databases ∧
      store.collections = after.collections := by
  have databases := congrArg MemoryStore.databases same
  have collections := congrArg MemoryStore.collections same
  exact ⟨databases, collections⟩

/-- The kind of a collection, if it is there. -/
def kind? (store : MemoryStore) (database name : String) :
    Option CollectionKind :=
  (store.collection? database name).map StoredCollection.kind

/-- A collection is there and has an index. -/
def HasIndex
    (store : MemoryStore)
    (database name : String)
    (index : IndexSpec) : Prop :=
  (store.kind? database name).isSome = true ∧
    ∀ stored ∈ store.collections,
      isAt database name stored = true → index ∈ stored.indexes

instance : Decidable (store.HasIndex database name index) :=
  inferInstanceAs (Decidable (_ ∧ _))

theorem isSome_collection?_eq :
    (store.collection? database name).isSome =
      (store.kind? database name).isSome := by
  rw [kind?, Option.isSome_map]

theorem isNone_collection?_eq :
    (store.collection? database name).isNone =
      (store.kind? database name).isNone := by
  rw [kind?, Option.isNone_map]

/-- A store that holds at least what another one does. -/
structure Grows (before after : MemoryStore) : Prop where
  databases : ∀ {database : String},
    database ∈ before.databases → database ∈ after.databases
  kinds : ∀ {database name : String} {kind : CollectionKind},
    before.kind? database name = some kind →
      after.kind? database name = some kind
  indexes : ∀ {database name : String} {index : IndexSpec},
    before.HasIndex database name index →
      after.HasIndex database name index
  forbidden : after.forbidden = before.forbidden

theorem Grows.refl (store : MemoryStore) : Grows store store where
  databases := id
  kinds := id
  indexes := id
  forbidden := rfl

theorem Grows.trans
    (first : Grows before after)
    (second : Grows after later) :
    Grows before later where
  databases := second.databases ∘ first.databases
  kinds := second.kinds ∘ first.kinds
  indexes := second.indexes ∘ first.indexes
  forbidden := second.forbidden.trans first.forbidden

/-- A call that is recorded changes nothing else. -/
theorem grows_record (store : MemoryStore) (call : RecordedCall) :
    Grows store (store.record call) where
  databases := id
  kinds := id
  indexes := id
  forbidden := rfl

/-! Creating a database. -/

theorem createDatabase_unrecorded :
    store.unrecorded.createDatabase name =
      (store.createDatabase name).map unrecorded := by
  unfold createDatabase
  by_cases present : name ∈ store.databases
  · rw [if_pos present, if_pos (show name ∈ store.unrecorded.databases from present)]
    rfl
  · rw [if_neg present, if_neg (show name ∉ store.unrecorded.databases from present)]
    rfl

theorem createDatabase_eq_ok_iff :
    store.createDatabase name = .ok after ↔
      name ∉ store.databases ∧
        after = { store with databases := store.databases ++ [name] } := by
  unfold createDatabase
  by_cases present : name ∈ store.databases
  · simp [present]
  · simp [present, eq_comm]

/-- A database that cannot be created is there. -/
theorem mem_databases_of_createDatabase
    {cause : TransportError}
    (refused : store.createDatabase name = .error cause) :
    name ∈ store.databases := by
  unfold createDatabase at refused
  split at refused
  · assumption
  · cases refused

theorem grows_createDatabase
    (created : store.createDatabase name = .ok after) :
    Grows store after := by
  obtain ⟨-, rfl⟩ := createDatabase_eq_ok_iff.mp created
  exact {
    databases := List.mem_append_left _
    kinds := id
    indexes := id
    forbidden := rfl
  }

/-! Creating a collection. -/

/-- The store with one more collection, which has no indexes yet. -/
def withNew
    (store : MemoryStore)
    (database name : String)
    (kind : CollectionKind) : MemoryStore :=
  { store with
    collections := store.collections ++ [⟨database, name, kind, []⟩] }

theorem createCollection_unrecorded :
    store.unrecorded.createCollection database name kind =
      (store.createCollection database name kind).map unrecorded := by
  have same :
      store.unrecorded.collection? database name =
        store.collection? database name :=
    rfl
  unfold createCollection
  simp only [same]
  by_cases there : database ∉ store.databases
  · rw [if_pos there, if_pos (show database ∉ store.unrecorded.databases from there)]
    rfl
  · rw [if_neg there, if_neg (show ¬ database ∉ store.unrecorded.databases from there)]
    by_cases banned : name ∈ store.forbidden
    · rw [if_pos banned, if_pos (show name ∈ store.unrecorded.forbidden from banned)]
      rfl
    · rw [if_neg banned, if_neg (show name ∉ store.unrecorded.forbidden from banned)]
      by_cases taken : (store.collection? database name).isSome = true
      · rw [if_pos taken, if_pos taken]
        rfl
      · rw [if_neg taken, if_neg taken]
        rfl

theorem createCollection_eq_ok_iff :
    store.createCollection database name kind = .ok after ↔
      database ∈ store.databases ∧
        name ∉ store.forbidden ∧
        store.kind? database name = none ∧
        after = store.withNew database name kind := by
  unfold createCollection
  rw [isSome_collection?_eq]
  by_cases there : database ∈ store.databases
  · by_cases banned : name ∈ store.forbidden
    · simp [there, banned]
    · cases taken : store.kind? database name with
      | none =>
          simp [there, banned, withNew, eq_comm]
      | some kind =>
          simp [there, banned]
  · simp [there]

/-- The collection that is refused as a duplicate is there. -/
theorem isSome_kind?_of_duplicate
    {cause : TransportError}
    (refused : store.createCollection database name kind = .error cause)
    (duplicate : cause.isDuplicateName = true) :
    (store.kind? database name).isSome = true := by
  unfold createCollection at refused
  rw [isSome_collection?_eq] at refused
  split at refused
  · cases refused
    cases duplicate
  · split at refused
    · cases refused
      cases duplicate
    · split at refused
      · assumption
      · cases refused

/-- A collection that exists is refused as a duplicate, unless it is forbidden. -/
theorem isDuplicateName_of_createCollection
    (there : database ∈ store.databases)
    (permitted : name ∉ store.forbidden)
    (taken : (store.kind? database name).isSome = true) :
    ∃ cause,
      store.createCollection database name kind = .error cause ∧
        cause.isDuplicateName = true := by
  refine ⟨.duplicateName name, ?_, rfl⟩
  unfold createCollection
  rw [isSome_collection?_eq, if_neg (not_not_intro there), if_neg permitted,
    if_pos taken]

theorem kind?_withNew_self
    (free : store.kind? database name = none) :
    (store.withNew database name kind).kind? database name = some kind := by
  rw [kind?, Option.map_eq_none_iff] at free
  rw [kind?, collection?, withNew, List.find?_append]
  rw [collection?] at free
  rw [free]
  simp [isAt]

/-- A new collection is the only one whose kind is new. -/
theorem kind?_withNew
    (free : store.kind? database name = none)
    (otherDatabase other : String) :
    (store.withNew database name kind).kind? otherDatabase other =
      if database = otherDatabase ∧ name = other then
        some kind
      else
        store.kind? otherDatabase other := by
  by_cases same : database = otherDatabase ∧ name = other
  · obtain ⟨rfl, rfl⟩ := same
    rw [if_pos ⟨rfl, rfl⟩]
    exact kind?_withNew_self free
  · rw [if_neg same, kind?, kind?, collection?, collection?, withNew,
      List.find?_append]
    have elsewhere :
        isAt otherDatabase other ⟨database, name, kind, []⟩ = false := by
      simpa [isAt] using same
    simp [elsewhere]

theorem grows_withNew
    (free : store.kind? database name = none) :
    Grows store (store.withNew database name kind) := by
  have kept {otherDatabase other : String} {otherKind : CollectionKind}
      (found : store.kind? otherDatabase other = some otherKind) :
      (store.withNew database name kind).kind? otherDatabase other =
        some otherKind := by
    obtain ⟨stored, isStored, sameKind⟩ := Option.map_eq_some_iff.mp found
    rw [collection?] at isStored
    rw [kind?, collection?, withNew, List.find?_append, isStored, Option.some_or,
      Option.map_some, sameKind]
  refine { databases := id, kinds := kept, indexes := ?_, forbidden := rfl }
  intro otherDatabase other index has
  obtain ⟨present, each⟩ := has
  obtain ⟨otherKind, found⟩ := Option.isSome_iff_exists.mp present
  refine ⟨by rw [kept found, Option.isSome_some], ?_⟩
  intro stored member isHere
  rcases List.mem_append.mp member with old | new
  · exact each stored old isHere
  · -- the new collection is under another name, since that name was free
    rw [List.mem_singleton.mp new] at isHere
    simp only [isAt, Bool.and_eq_true, decide_eq_true_eq] at isHere
    obtain ⟨rfl, rfl⟩ := isHere
    rw [found] at free
    cases free

theorem grows_createCollection
    (created : store.createCollection database name kind = .ok after) :
    Grows store after := by
  obtain ⟨-, -, free, rfl⟩ := createCollection_eq_ok_iff.mp created
  exact grows_withNew free

/-! Creating an index. -/

/-- A collection with an index more, if it is the one asked for and lacks the index. -/
def indexed
    (database name : String)
    (index : IndexSpec)
    (stored : StoredCollection) : StoredCollection :=
  if isAt database name stored && !stored.indexes.contains index then
    { stored with indexes := stored.indexes ++ [index] }
  else
    stored

/-- The store in which a collection has an index. -/
def withIndex
    (store : MemoryStore)
    (database name : String)
    (index : IndexSpec) : MemoryStore :=
  { store with collections := store.collections.map (indexed database name index) }

theorem isAt_indexed
    {otherDatabase other : String}
    (stored : StoredCollection) :
    isAt otherDatabase other (indexed database name index stored) =
      isAt otherDatabase other stored := by
  unfold indexed
  split
  · rfl
  · rfl

theorem kind_indexed (stored : StoredCollection) :
    (indexed database name index stored).kind = stored.kind := by
  unfold indexed
  split
  · rfl
  · rfl

theorem mem_indexes_indexed
    {other : IndexSpec}
    {stored : StoredCollection}
    (has : other ∈ stored.indexes) :
    other ∈ (indexed database name index stored).indexes := by
  unfold indexed
  split
  · exact List.mem_append_left _ has
  · exact has

theorem mem_indexes_indexed_self
    {stored : StoredCollection}
    (here : isAt database name stored = true) :
    index ∈ (indexed database name index stored).indexes := by
  unfold indexed
  by_cases has : index ∈ stored.indexes
  · rw [if_neg (by simp [has])]
    exact has
  · rw [if_pos (by simp [here, has])]
    exact List.mem_append_right _ (List.mem_singleton_self index)

theorem kind?_withIndex (otherDatabase other : String) :
    (store.withIndex database name index).kind? otherDatabase other =
      store.kind? otherDatabase other := by
  have sameTest :
      isAt otherDatabase other ∘ indexed database name index =
        isAt otherDatabase other :=
    funext isAt_indexed
  have sameKind :
      StoredCollection.kind ∘ indexed database name index =
        StoredCollection.kind :=
    funext kind_indexed
  rw [kind?, kind?, collection?, collection?, withIndex, List.find?_map,
    sameTest, Option.map_map, sameKind]

theorem ensureIndex_unrecorded :
    store.unrecorded.ensureIndex database name index =
      (store.ensureIndex database name index).map unrecorded := by
  have same :
      store.unrecorded.collection? database name =
        store.collection? database name :=
    rfl
  unfold ensureIndex
  simp only [same]
  by_cases there : database ∉ store.databases
  · rw [if_pos there, if_pos (show database ∉ store.unrecorded.databases from there)]
    rfl
  · rw [if_neg there, if_neg (show ¬ database ∉ store.unrecorded.databases from there)]
    by_cases missing : (store.collection? database name).isNone = true
    · rw [if_pos missing, if_pos missing]
      rfl
    · rw [if_neg missing, if_neg missing]
      rfl

theorem ensureIndex_eq_ok_iff :
    store.ensureIndex database name index = .ok after ↔
      database ∈ store.databases ∧
        (store.kind? database name).isSome = true ∧
        after = store.withIndex database name index := by
  unfold ensureIndex
  rw [isNone_collection?_eq]
  by_cases there : database ∈ store.databases
  · cases taken : store.kind? database name with
    | none =>
        simp [there]
    | some kind =>
        simp only [there, not_true_eq_false, if_false, Option.isNone_some,
          Bool.false_eq_true, Except.ok.injEq, Option.isSome_some, true_and]
        exact eq_comm
  · simp [there]

/-- An index is never refused as a duplicate. -/
theorem not_duplicate_of_ensureIndex
    {cause : TransportError}
    (refused : store.ensureIndex database name index = .error cause) :
    cause.isDuplicateName = false := by
  unfold ensureIndex at refused
  split at refused
  · cases refused
    rfl
  · split at refused
    · cases refused
      rfl
    · cases refused

theorem grows_withIndex : Grows store (store.withIndex database name index) := by
  refine { databases := id, kinds := ?_, indexes := ?_, forbidden := rfl }
  · intro otherDatabase other kind found
    rw [kind?_withIndex]
    exact found
  · intro otherDatabase other otherIndex has
    refine ⟨by rw [kind?_withIndex]; exact has.1, ?_⟩
    intro stored member isHere
    obtain ⟨old, isOld, rfl⟩ := List.mem_map.mp member
    rw [isAt_indexed] at isHere
    exact mem_indexes_indexed (has.2 old isOld isHere)

theorem hasIndex_withIndex
    (there : (store.kind? database name).isSome = true) :
    (store.withIndex database name index).HasIndex database name index := by
  refine ⟨by rw [kind?_withIndex]; exact there, ?_⟩
  intro stored member isHere
  obtain ⟨old, isOld, rfl⟩ := List.mem_map.mp member
  rw [isAt_indexed] at isHere
  exact mem_indexes_indexed_self isHere

/-- An index that is there already changes nothing. -/
theorem withIndex_of_hasIndex
    (has : store.HasIndex database name index) :
    store.withIndex database name index = store := by
  have kept : ∀ stored ∈ store.collections,
      indexed database name index stored = id stored := by
    intro stored member
    apply if_neg
    by_cases here : isAt database name stored = true
    · simp [has.2 stored member here]
    · simp [here]
  have same :
      store.collections.map (indexed database name index) =
        store.collections :=
    (List.map_congr_left kept).trans (List.map_id _)
  rw [withIndex, same]

theorem grows_ensureIndex
    (created : store.ensureIndex database name index = .ok after) :
    Grows store after := by
  obtain ⟨-, -, rfl⟩ := ensureIndex_eq_ok_iff.mp created
  exact grows_withIndex

/-! Calls. -/

theorem grows_attempt
    {change : MemoryStore → Except TransportError MemoryStore}
    (grows : ∀ changed, change store = .ok changed → Grows store changed) :
    Grows store (store.attempt change).2 := by
  unfold attempt
  cases attempted : change store with
  | ok changed =>
      exact grows changed attempted
  | error cause =>
      exact Grows.refl store

/-- Whatever a store is asked, it holds no less afterwards. -/
theorem grows_answer
    (script : MemoryScript)
    (store : MemoryStore)
    (command : Command) :
    Grows store (script.answer store command).2 := by
  cases command with
  | createDatabase name =>
      show Grows store
        ((store.record (.createDatabase name)).attempt
          fun store => store.createDatabase name).2
      exact (grows_record store _).trans
        (grows_attempt fun _ => grows_createDatabase)
  | collectionKind database name =>
      exact grows_record store _
  | createCollection database name kind =>
      show Grows store
        ((store.record (.createCollection name kind)).attempt
          fun store => store.createCollection database name kind).2
      exact (grows_record store _).trans
        (grows_attempt fun _ => grows_createCollection)
  | ensureIndex database name index =>
      show Grows store
        ((store.record (.ensureIndex name index)).attempt
          fun store => store.ensureIndex database name index).2
      exact (grows_record store _).trans
        (grows_attempt fun _ => grows_ensureIndex)
  | query database query timeout =>
      have recorded : Grows store
          { store.record (.query query.text) with
            queries := store.queries ++ [query] } :=
        ⟨id, id, id, rfl⟩
      simp only [MemoryScript.answer]
      split
      · exact recorded
      · exact recorded

end GraphGate.MemoryStore
