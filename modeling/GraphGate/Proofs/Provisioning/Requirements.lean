import GraphGate.Proofs.Storage.Growth
import GraphGate.Proofs.Success
import GraphGate.Provisioning.Creator

namespace GraphGate

/-!
# What a plan requires

A plan requires a database, then collections, then indexes on them. What a store
lacks of a requirement can be created, and what it meets once it meets ever
after. So the stores that come about by providing requirements in their order
are told apart by how many of them they meet: a store that meets all earlier
requirements but not the next one is what providing the earlier ones gives.
-/

/-- One thing that a plan requires of a database. -/
inductive Requirement where
  | database
  | collection (plan : CollectionPlan)
  | index (request : String × IndexSpec)

namespace MemoryStore

variable {database : String} {store start before after final : MemoryStore}
variable {requirement : Requirement}
variable {requirements passed earlier further : List Requirement}

/-- Whether a store has what is required. -/
def Meets (store : MemoryStore) (database : String) : Requirement → Prop
  | .database => database ∈ store.databases
  | .collection plan =>
      database ∈ store.databases ∧
        store.kind? database plan.name = some plan.kind
  | .index request =>
      database ∈ store.databases ∧
        store.HasIndex database request.1 request.2

instance decidableMeets
    (store : MemoryStore)
    (database : String) :
    (requirement : Requirement) → Decidable (store.Meets database requirement)
  | .database => inferInstanceAs (Decidable (database ∈ store.databases))
  | .collection _ => inferInstanceAs (Decidable (_ ∧ _))
  | .index _ => inferInstanceAs (Decidable (_ ∧ _))

/-- Creates what is required. -/
def create (store : MemoryStore) (database : String) :
    Requirement → Except TransportError MemoryStore
  | .database => store.createDatabase database
  | .collection plan =>
      store.createCollection database plan.name plan.kind
  | .index request => store.ensureIndex database request.1 request.2

/-- Creates what is required, unless it is there. -/
def provide
    (database : String)
    (store : MemoryStore)
    (requirement : Requirement) : Except TransportError MemoryStore :=
  if store.Meets database requirement then
    .ok store
  else
    store.create database requirement

/-- Provides requirements one after another. -/
def provideAll
    (database : String)
    (start : MemoryStore)
    (requirements : List Requirement) : Except TransportError MemoryStore :=
  requirements.foldlM (provide database) start

theorem Meets.grows
    (met : before.Meets database requirement)
    (grows : Grows before after) :
    after.Meets database requirement := by
  cases requirement with
  | database =>
      exact grows.databases met
  | collection plan =>
      exact ⟨grows.databases met.1, grows.kinds met.2⟩
  | index request =>
      exact ⟨grows.databases met.1, grows.indexes met.2⟩

theorem meets_of_create
    (created : store.create database requirement = .ok after) :
    after.Meets database requirement := by
  cases requirement with
  | database =>
      obtain ⟨-, rfl⟩ := createDatabase_eq_ok_iff.mp created
      exact List.mem_append_right _ (List.mem_singleton_self database)
  | collection plan =>
      obtain ⟨there, -, free, rfl⟩ := createCollection_eq_ok_iff.mp created
      exact ⟨there, kind?_withNew_self free⟩
  | index request =>
      obtain ⟨there, taken, rfl⟩ := ensureIndex_eq_ok_iff.mp created
      exact ⟨there, hasIndex_withIndex taken⟩

theorem grows_create
    (created : store.create database requirement = .ok after) :
    Grows store after := by
  cases requirement with
  | database =>
      exact grows_createDatabase created
  | collection plan =>
      exact grows_createCollection created
  | index request =>
      exact grows_ensureIndex created

theorem create_unrecorded (requirement : Requirement) :
    store.unrecorded.create database requirement =
      (store.create database requirement).map unrecorded := by
  cases requirement with
  | database =>
      exact createDatabase_unrecorded
  | collection plan =>
      exact createCollection_unrecorded
  | index request =>
      exact ensureIndex_unrecorded

theorem meets_unrecorded_iff :
    store.unrecorded.Meets database requirement ↔
      store.Meets database requirement := by
  cases requirement <;> exact Iff.rfl

theorem provide_of_meets
    (met : store.Meets database requirement) :
    provide database store requirement = .ok store :=
  if_pos met

theorem provide_of_not_meets
    (unmet : ¬ store.Meets database requirement) :
    provide database store requirement = store.create database requirement :=
  if_neg unmet

theorem meets_of_provide
    (provided : provide database store requirement = .ok after) :
    after.Meets database requirement := by
  by_cases met : store.Meets database requirement
  · rw [provide_of_meets met, Except.ok.injEq] at provided
    exact provided ▸ met
  · rw [provide_of_not_meets met] at provided
    exact meets_of_create provided

theorem grows_provide
    (provided : provide database store requirement = .ok after) :
    Grows store after := by
  by_cases met : store.Meets database requirement
  · rw [provide_of_meets met, Except.ok.injEq] at provided
    exact provided ▸ Grows.refl store
  · rw [provide_of_not_meets met] at provided
    exact grows_create provided

/-! Requirements one after another. -/

theorem provideAll_append_eq_ok_iff :
    provideAll database start (earlier ++ further) = .ok final ↔
      ∃ middle,
        provideAll database start earlier = .ok middle ∧
          provideAll database middle further = .ok final := by
  rw [provideAll, List.foldlM_append]
  exact Success.bind_eq_ok_iff

theorem provideAll_concat_eq_ok_iff :
    provideAll database start (earlier ++ [requirement]) = .ok final ↔
      ∃ middle,
        provideAll database start earlier = .ok middle ∧
          provide database middle requirement = .ok final := by
  rw [provideAll_append_eq_ok_iff]
  simp only [provideAll, List.foldlM_cons, List.foldlM_nil, bind_pure]

theorem grows_provideAll
    (provided : provideAll database start requirements = .ok final) :
    Grows start final :=
  Success.foldlM_induction
    (motive := fun _ state => Grows start state)
    provided (Grows.refl start)
    fun _ _ _ _ stepped grown => grown.trans (grows_provide stepped)

/-- What has been provided is met. -/
theorem meets_of_provideAll
    (provided : provideAll database start requirements = .ok final) :
    ∀ requirement ∈ requirements, final.Meets database requirement := by
  refine Success.forall_of_foldlM
    (fun state requirement => state.Meets database requirement)
    provided ?_ ?_
  · intro requirement before after stepped
    exact meets_of_provide stepped
  · intro item requirement before after stepped met
    exact met.grows (grows_provide stepped)

/-- Requirements can be provided if each of them can, where what that takes is kept. -/
theorem exists_provideAll
    (holds : MemoryStore → Prop)
    (initially : holds start)
    (step : ∀ store, holds store →
      ∀ requirement ∈ requirements,
        ∃ after,
          provide database store requirement = .ok after ∧ holds after) :
    ∃ final,
      provideAll database start requirements = .ok final ∧ holds final := by
  induction requirements generalizing start with
  | nil =>
      exact ⟨start, rfl, initially⟩
  | cons requirement rest inductionHypothesis =>
      obtain ⟨after, provided, kept⟩ :=
        step start initially requirement List.mem_cons_self
      obtain ⟨final, others, ended⟩ :=
        inductionHypothesis kept fun store held other member =>
          step store held other (List.mem_cons_of_mem requirement member)
      refine ⟨final, ?_, ended⟩
      rw [provideAll, List.foldlM_cons, provided]
      exact others

/-- What is met already need not be provided. -/
theorem provideAll_of_meets
    (met : ∀ requirement ∈ requirements, store.Meets database requirement) :
    provideAll database store requirements = .ok store := by
  induction requirements with
  | nil =>
      rfl
  | cons requirement rest inductionHypothesis =>
      rw [List.forall_mem_cons] at met
      rw [provideAll, List.foldlM_cons, provide_of_meets met.1]
      exact inductionHypothesis met.2

/--
Where requirements can be provided, one of them can be created in a store that
does not meet it and holds what providing those before it gives.
-/
theorem exists_created_of_provideAll
    (provided :
      provideAll database start.unrecorded earlier = .ok store.unrecorded)
    (unmet : ¬ store.Meets database requirement)
    (isFirst : earlier ++ [requirement] <+: requirements)
    (whole : provideAll database start.unrecorded requirements = .ok final) :
    ∃ created, store.create database requirement = .ok created := by
  obtain ⟨rest, rfl⟩ := isFirst
  obtain ⟨middle, upTo, -⟩ := provideAll_append_eq_ok_iff.mp whole
  obtain ⟨first, providedFirst, next⟩ := provideAll_concat_eq_ok_iff.mp upTo
  rw [provided, Except.ok.injEq] at providedFirst
  subst providedFirst
  rw [provide_of_not_meets (unmet ∘ meets_unrecorded_iff.mp),
    create_unrecorded] at next
  cases created : store.create database requirement with
  | ok changed =>
      exact ⟨changed, rfl⟩
  | error cause =>
      rw [created] at next
      cases next

/-- A store that holds what providing some of the first requirements gives. -/
def Reached
    (database : String)
    (requirements : List Requirement)
    (start store : MemoryStore) : Prop :=
  ∃ passed,
    passed <+: requirements ∧
      provideAll database start.unrecorded passed = .ok store.unrecorded

theorem reached_start
    (database : String)
    (requirements : List Requirement)
    (start : MemoryStore) :
    Reached database requirements start start :=
  ⟨[], List.nil_prefix, rfl⟩

/-- Only what a store holds matters for how far it has got. -/
theorem Reached.of_unrecorded_eq
    (reached : Reached database requirements start before)
    (same : after.unrecorded = before.unrecorded) :
    Reached database requirements start after := by
  obtain ⟨passed, isFirst, provided⟩ := reached
  exact ⟨passed, isFirst, same ▸ provided⟩

/-- What is met before the end of the passed requirements adds nothing. -/
theorem Reached.provided_of_passed_prefix
    (isFirst : passed <+: earlier)
    (provided :
      provideAll database start.unrecorded passed = .ok store.unrecorded)
    (met : ∀ requirement ∈ earlier, store.Meets database requirement) :
    provideAll database start.unrecorded earlier = .ok store.unrecorded := by
  obtain ⟨rest, rfl⟩ := isFirst
  refine provideAll_append_eq_ok_iff.mpr ⟨store.unrecorded, provided, ?_⟩
  apply provideAll_of_meets
  intro requirement member
  exact meets_unrecorded_iff.mpr
    (met requirement (List.mem_append_right _ member))

theorem Reached.meets_of_prefix
    (isFirst : earlier <+: passed)
    (provided :
      provideAll database start.unrecorded passed = .ok store.unrecorded)
    {requirement : Requirement}
    (member : requirement ∈ earlier) :
    store.Meets database requirement :=
  meets_unrecorded_iff.mp
    (meets_of_provideAll provided requirement (isFirst.subset member))

/--
A store that meets the earlier requirements, but not the next one, holds what
providing the earlier ones gives.
-/
theorem Reached.provided_of_not_meets
    (reached : Reached database requirements start store)
    (isFirst : earlier ++ [requirement] <+: requirements)
    (met : ∀ other ∈ earlier, store.Meets database other)
    (unmet : ¬ store.Meets database requirement) :
    provideAll database start.unrecorded earlier = .ok store.unrecorded := by
  obtain ⟨passed, isPassed, provided⟩ := reached
  have notBeyond : ¬ earlier ++ [requirement] <+: passed := by
    intro beyond
    exact unmet
      (Reached.meets_of_prefix beyond provided (by simp))
  rcases List.prefix_or_prefix_of_prefix isPassed isFirst with short | long
  · rcases List.prefix_concat_iff.mp short with whole | within
    · exact (notBeyond (whole ▸ List.prefix_rfl)).elim
    · exact Reached.provided_of_passed_prefix within provided met
  · exact (notBeyond long).elim

/-- A store that meets all requirements holds what providing all of them gives. -/
theorem Reached.provided_of_meets_all
    (reached : Reached database requirements start store)
    (met : ∀ requirement ∈ requirements, store.Meets database requirement) :
    provideAll database start.unrecorded requirements =
      .ok store.unrecorded := by
  obtain ⟨passed, isPassed, provided⟩ := reached
  exact Reached.provided_of_passed_prefix isPassed provided met

/-- Creating the next requirement goes one step further. -/
theorem Reached.create
    (reached : Reached database requirements start store)
    (isFirst : earlier ++ [requirement] <+: requirements)
    (met : ∀ other ∈ earlier, store.Meets database other)
    (unmet : ¬ store.Meets database requirement)
    (created :
      store.unrecorded.create database requirement = .ok after.unrecorded) :
    Reached database requirements start after := by
  have provided := reached.provided_of_not_meets isFirst met unmet
  refine ⟨earlier ++ [requirement], isFirst, ?_⟩
  refine provideAll_concat_eq_ok_iff.mpr ⟨_, provided, ?_⟩
  rw [provide_of_not_meets (unmet ∘ meets_unrecorded_iff.mp)]
  exact created

/--
Where the requirement after some met ones was not met, and is met later, it was
created in the meantime.
-/
theorem Reached.exists_created
    (reached : Reached database requirements start before)
    (later : Reached database requirements start after)
    (isFirst : earlier ++ [requirement] <+: requirements)
    (met : ∀ other ∈ earlier, before.Meets database other)
    (stillMet : ∀ other ∈ earlier, after.Meets database other)
    (unmet : ¬ before.Meets database requirement)
    (isMet : after.Meets database requirement) :
    ∃ created, before.create database requirement = .ok created := by
  have provided := reached.provided_of_not_meets isFirst met unmet
  obtain ⟨passed, isPassed, providedAfter⟩ := later
  have beyond : earlier ++ [requirement] <+: passed := by
    rcases List.prefix_or_prefix_of_prefix isFirst isPassed with long | short
    · exact long
    · rcases List.prefix_concat_iff.mp short with whole | within
      · exact whole ▸ List.prefix_rfl
      · -- then nothing has been provided in the meantime
        have same :=
          Reached.provided_of_passed_prefix within providedAfter stillMet
        rw [provided, Except.ok.injEq] at same
        exact (unmet (meets_unrecorded_iff.mp
          (same ▸ meets_unrecorded_iff.mpr isMet))).elim
  exact exists_created_of_provideAll provided unmet beyond providedAfter

end MemoryStore

end GraphGate
