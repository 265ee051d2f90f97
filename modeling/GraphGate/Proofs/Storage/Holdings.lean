import GraphGate.Proofs.Storage.Disturbance

namespace GraphGate

/-!
# What a database holds

Which databases, collections and indexes there are, however they are kept. This
alone decides which calls are refused, with which number, and what there is after
a call. The store in memory refuses and changes just what is described here, as
long as nothing is forbidden in it.
-/

/-- Which databases, collections and indexes there are. -/
structure Holdings where
  hasDatabase : String → Bool
  kind? : String → String → Option CollectionKind
  hasIndex : String → String → IndexSpec → Bool

namespace Holdings

variable {holdings : Holdings} {command : Command} {number : Int}
variable {database name : String}

/-- Holdings are the same if nobody can tell them apart. -/
theorem ext_forall
    {first second : Holdings}
    (databases : ∀ database, first.hasDatabase database = second.hasDatabase database)
    (kinds : ∀ database name,
      first.kind? database name = second.kind? database name)
    (indexes : ∀ database name index,
      first.hasIndex database name index = second.hasIndex database name index) :
    first = second := by
  obtain ⟨hasDatabase, kind?, hasIndex⟩ := first
  cases funext databases
  cases funext fun database => funext (kinds database)
  cases funext fun database => funext fun name => funext (indexes database name)
  rfl

/-- The number of the error that a call is refused with, none for one that is carried out. -/
def refusal? (holdings : Holdings) : Command → Option Int
  | .createDatabase name =>
      if holdings.hasDatabase name then some 1207 else none
  | .collectionKind database name =>
      if !holdings.hasDatabase database then some 1228
      else if (holdings.kind? database name).isNone then some 1203
      else none
  | .createCollection database name _ =>
      if !holdings.hasDatabase database then some 1228
      else if (holdings.kind? database name).isSome then some 1207
      else none
  | .ensureIndex database name _ =>
      if !holdings.hasDatabase database then some 1228
      else if (holdings.kind? database name).isNone then some 1203
      else none
  | .query database _ _ =>
      if !holdings.hasDatabase database then some 1228 else none

/-- What there is after a call that is carried out. -/
def extended (holdings : Holdings) : Command → Holdings
  | .createDatabase name =>
      { holdings with
        hasDatabase := fun other => name = other || holdings.hasDatabase other }
  | .createCollection database name kind =>
      { holdings with
        kind? := fun otherDatabase other =>
          if database = otherDatabase ∧ name = other then
            some kind
          else
            holdings.kind? otherDatabase other }
  | .ensureIndex database name index =>
      { holdings with
        hasIndex := fun otherDatabase other otherIndex =>
          (database = otherDatabase && name = other && index = otherIndex) ||
            holdings.hasIndex otherDatabase other otherIndex }
  | .collectionKind _ _ | .query _ _ _ => holdings

/-- What there is after a call. One that is refused changes nothing. -/
def after (holdings : Holdings) (command : Command) : Holdings :=
  if (holdings.refusal? command).isSome then holdings else holdings.extended command

/-- Three numbers are all that calls are refused with. -/
theorem refusal?_cases (refused : holdings.refusal? command = some number) :
    number = 1207 ∨ number = 1203 ∨ number = 1228 := by
  cases command <;> simp only [refusal?] at refused <;> grind

/-- The kind of a collection is refused where it or its database is not there. -/
theorem refusal?_collectionKind_eq_some
    (refused :
      holdings.refusal? (.collectionKind database name) = some number) :
    (holdings.hasDatabase database = false ∧ number = 1228) ∨
      (holdings.hasDatabase database = true ∧
        holdings.kind? database name = none ∧ number = 1203) := by
  simp only [refusal?] at refused
  cases there : holdings.hasDatabase database with
  | false =>
      simp only [there, Bool.not_false, if_true, Option.some.injEq] at refused
      exact .inl ⟨rfl, refused.symm⟩
  | true =>
      simp only [there, Bool.not_true, Bool.false_eq_true, if_false,
        Option.ite_none_right_eq_some, Option.isNone_iff_eq_none,
        Option.some.injEq] at refused
      exact .inr ⟨rfl, refused.1, refused.2.symm⟩

theorem refusal?_collectionKind_eq_none
    (accepted : holdings.refusal? (.collectionKind database name) = none) :
    holdings.hasDatabase database = true ∧
      ∃ kind, holdings.kind? database name = some kind := by
  simp only [refusal?] at accepted
  cases there : holdings.hasDatabase database with
  | false =>
      simp [there] at accepted
  | true =>
      refine ⟨rfl, Option.ne_none_iff_exists'.mp fun missing => ?_⟩
      simp [there, missing] at accepted

end Holdings

/-- A call that is to make something ends well, or with the number it is refused with. -/
def EndsAs (refusal? : Option Int) (result : Except TransportError Unit) : Prop :=
  match refusal? with
  | some number => ∃ code detail, result = .error (.server code number detail)
  | none => result = .ok ()

namespace MemoryStore

variable {store : MemoryStore} {database name : String}
variable {kind : CollectionKind} {index : IndexSpec}

/-- What the store holds. -/
def holdings (store : MemoryStore) : Holdings where
  hasDatabase database := database ∈ store.databases
  kind? := store.kind?
  hasIndex database name index := store.HasIndex database name index

@[simp] theorem hasDatabase_holdings :
    store.holdings.hasDatabase database = true ↔ database ∈ store.databases := by
  simp [holdings]

theorem holdings_record (store : MemoryStore) (call : RecordedCall) :
    (store.record call).holdings = store.holdings :=
  rfl

/-! ## What the calls change -/

theorem hasIndex_withNew_iff
    (free : store.kind? database name = none)
    {otherDatabase other : String} :
    (store.withNew database name kind).HasIndex otherDatabase other index ↔
      store.HasIndex otherDatabase other index := by
  refine ⟨fun ⟨present, each⟩ => ?_, (grows_withNew free).indexes⟩
  have elsewhere : ¬ (database = otherDatabase ∧ name = other) := by
    rintro ⟨rfl, rfl⟩
    have hasIt := each ⟨database, name, kind, []⟩
      (List.mem_append_right _ List.mem_cons_self) (by simp [isAt])
    cases hasIt
  rw [kind?_withNew free, if_neg elsewhere] at present
  exact ⟨present, fun stored member => each stored (List.mem_append_left _ member)⟩

theorem mem_indexes_indexed_iff
    {other : IndexSpec}
    {stored : StoredCollection} :
    other ∈ (indexed database name index stored).indexes ↔
      other ∈ stored.indexes ∨
        (isAt database name stored = true ∧ other = index) := by
  unfold indexed
  by_cases has : index ∈ stored.indexes
  · rw [if_neg (by simp [has])]
    constructor
    · exact .inl
    · rintro (isThere | ⟨-, rfl⟩)
      · exact isThere
      · exact has
  · by_cases here : isAt database name stored = true
    · rw [if_pos (by simp [here, has])]
      simp [here]
    · rw [if_neg (by simp [here])]
      simp [here]

/-- An index more is that of the collection it was created for. -/
theorem hasIndex_withIndex_iff
    (there : (store.kind? database name).isSome = true)
    {otherDatabase other : String}
    {otherIndex : IndexSpec} :
    (store.withIndex database name index).HasIndex otherDatabase other
        otherIndex ↔
      (database = otherDatabase ∧ name = other ∧ index = otherIndex) ∨
        store.HasIndex otherDatabase other otherIndex := by
  constructor
  · rintro ⟨present, each⟩
    rw [kind?_withIndex] at present
    by_cases same : database = otherDatabase ∧ name = other ∧ index = otherIndex
    · exact .inl same
    · refine .inr ⟨present, fun stored member isHere => ?_⟩
      have hasIt := each (indexed database name index stored)
        (List.mem_map_of_mem member) (by rw [isAt_indexed, isHere])
      rcases mem_indexes_indexed_iff.mp hasIt with isThere | ⟨isAtName, isIndex⟩
      · exact isThere
      · simp only [isAt, Bool.and_eq_true, decide_eq_true_eq] at isHere isAtName
        exact absurd
          ⟨isAtName.1.symm.trans isHere.1, isAtName.2.symm.trans isHere.2,
            isIndex.symm⟩ same
  · rintro (⟨rfl, rfl, rfl⟩ | has)
    · exact hasIndex_withIndex there
    · exact grows_withIndex.indexes has

/-! ## How the calls end -/

/-- An attempt ends as its change does, and a change that is refused is none. -/
theorem attempt_ends
    {change : MemoryStore → Except TransportError MemoryStore}
    {refusal? : Option Int}
    {extended : Holdings}
    (refused : ∀ number,
      refusal? = some number →
        ∃ code detail, change store = .error (.server code number detail))
    (made :
      refusal? = none →
        ∃ changed, change store = .ok changed ∧ changed.holdings = extended) :
    EndsAs refusal? (store.attempt change).1 ∧
      (store.attempt change).2.holdings =
        if refusal?.isSome then store.holdings else extended := by
  cases isRefusal : refusal? with
  | some number =>
      obtain ⟨code, detail, failed⟩ := refused number isRefusal
      rw [attempt, failed]
      exact ⟨⟨code, detail, rfl⟩, rfl⟩
  | none =>
      obtain ⟨changed, succeeded, isExtended⟩ := made isRefusal
      rw [attempt, succeeded]
      exact ⟨rfl, isExtended⟩

theorem createDatabase_ends (store : MemoryStore) (name : String) :
    EndsAs (store.holdings.refusal? (.createDatabase name))
        (store.answered (.createDatabase name)).1 ∧
      (store.answered (.createDatabase name)).2.holdings =
        store.holdings.after (.createDatabase name) := by
  simp only [answered, MemoryScript.answer, disturb_empty]
  refine attempt_ends (fun number refused => ?_) fun permitted => ?_
  · simp only [Holdings.refusal?, holdings, decide_eq_true_eq,
      Option.ite_none_right_eq_some, Option.some.injEq] at refused
    obtain ⟨present, rfl⟩ := refused
    exact ⟨409, _, if_pos present⟩
  · have absent : name ∉ store.databases := by
      simpa [Holdings.refusal?, holdings] using permitted
    refine ⟨_, createDatabase_eq_ok_iff.mpr ⟨absent, rfl⟩, ?_⟩
    refine Holdings.ext_forall (fun other => ?_) (fun _ _ => rfl) fun _ _ _ => rfl
    simp [holdings, Holdings.extended, record, or_comm, eq_comm]

/-- The kind of a collection is told, unless there is no such database. -/
theorem collectionKind_ends (store : MemoryStore) (database name : String) :
    (store.answered (.collectionKind database name)).1 =
        (if database ∈ store.databases then
          .ok (store.kind? database name)
        else
          .error (.databaseNotFound database)) ∧
      (store.answered (.collectionKind database name)).2.holdings =
        store.holdings.after (.collectionKind database name) := by
  simp only [answered, MemoryScript.answer, disturb_empty]
  refine ⟨rfl, ?_⟩
  rw [holdings_record, Holdings.after]
  split
  · rfl
  · rfl

theorem createCollection_ends
    (database name : String)
    (kind : CollectionKind)
    (permitted : store.forbidden = []) :
    EndsAs (store.holdings.refusal? (.createCollection database name kind))
        (store.answered (.createCollection database name kind)).1 ∧
      (store.answered (.createCollection database name kind)).2.holdings =
        store.holdings.after (.createCollection database name kind) := by
  have notForbidden : name ∉ store.forbidden := by
    rw [permitted]
    exact List.not_mem_nil
  simp only [answered, MemoryScript.answer, disturb_empty]
  refine attempt_ends (fun number refused => ?_) fun accepted => ?_
  · by_cases there : database ∈ store.databases
    · simp only [Holdings.refusal?, holdings, there, decide_true, Bool.not_true,
        Bool.false_eq_true, if_false, Option.ite_none_right_eq_some,
        Option.some.injEq, ← isSome_collection?_eq] at refused
      obtain ⟨taken, rfl⟩ := refused
      exact ⟨409, _, (if_neg (not_not_intro there)).trans
        ((if_neg notForbidden).trans (if_pos taken))⟩
    · simp only [Holdings.refusal?, holdings, there, decide_false, Bool.not_false,
        if_true, Option.some.injEq] at refused
      subst refused
      exact ⟨404, _, if_pos there⟩
  · have there : database ∈ store.databases := by
      by_contra missing
      simp [Holdings.refusal?, holdings, missing] at accepted
    have free : store.kind? database name = none := by
      simpa [Holdings.refusal?, holdings, there, Option.isSome_iff_ne_none] using
        accepted
    refine ⟨_, createCollection_eq_ok_iff.mpr ⟨there, notForbidden, free, rfl⟩,
      Holdings.ext_forall (fun _ => rfl) (kind?_withNew free) ?_⟩
    exact fun _ _ _ => decide_eq_decide.mpr (hasIndex_withNew_iff free)

theorem ensureIndex_ends
    (store : MemoryStore)
    (database name : String)
    (index : IndexSpec) :
    EndsAs (store.holdings.refusal? (.ensureIndex database name index))
        (store.answered (.ensureIndex database name index)).1 ∧
      (store.answered (.ensureIndex database name index)).2.holdings =
        store.holdings.after (.ensureIndex database name index) := by
  simp only [answered, MemoryScript.answer, disturb_empty]
  refine attempt_ends (fun number refused => ?_) fun accepted => ?_
  · by_cases there : database ∈ store.databases
    · simp only [Holdings.refusal?, holdings, there, decide_true, Bool.not_true,
        Bool.false_eq_true, if_false, Option.ite_none_right_eq_some,
        Option.some.injEq, ← isNone_collection?_eq] at refused
      obtain ⟨missing, rfl⟩ := refused
      exact ⟨404, _, (if_neg (not_not_intro there)).trans (if_pos missing)⟩
    · simp only [Holdings.refusal?, holdings, there, decide_false, Bool.not_false,
        if_true, Option.some.injEq] at refused
      subst refused
      exact ⟨404, _, if_pos there⟩
  · have there : database ∈ store.databases := by
      by_contra missing
      simp [Holdings.refusal?, holdings, missing] at accepted
    have present : (store.kind? database name).isSome = true := by
      rw [Option.isSome_iff_ne_none]
      simpa [Holdings.refusal?, holdings, there] using accepted
    refine ⟨_, ensureIndex_eq_ok_iff.mpr ⟨there, present, rfl⟩,
      Holdings.ext_forall (fun _ => rfl) kind?_withIndex ?_⟩
    intro otherDatabase other otherIndex
    rw [Bool.eq_iff_iff]
    simp only [holdings, Holdings.extended, decide_eq_true_eq, Bool.or_eq_true,
      Bool.and_eq_true, and_assoc]
    exact hasIndex_withIndex_iff present

end MemoryStore

end GraphGate
