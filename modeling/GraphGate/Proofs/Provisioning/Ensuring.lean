import GraphGate.Proofs.Provisioning.Requirements
import GraphGate.Proofs.Storage.Disturbance
import GraphGate.Proofs.Storage.Sharing

namespace GraphGate

/-!
# Ensuring requirements

A creator ensures one requirement after another. Whatever errors strike its
calls, and however often other creators for the same requirements have their
turns in between, the store stays on the way from where it started to where all
requirements are provided. A requirement that has been ensured is met, and where
no errors occur and everything can be provided, ensuring goes well.
-/

namespace MemoryStore

variable {database : String} {requirements earlier items : List Requirement}
variable {start store before met left after : MemoryStore}
variable {requirement : Requirement} {faulty : Prop}
variable {reply : Except TransportError Unit}

/-- Whether what a creating call is refused for as a duplicate is there. -/
def Present (store : MemoryStore) (database : String) : Requirement → Prop
  | .database => database ∈ store.databases
  | .collection plan => (store.kind? database plan.name).isSome = true
  | .index request => store.Meets database (.index request)

/-- Whether a creator goes on to create what is required when it has inspected a store. -/
def Lacks (store : MemoryStore) (database : String) : Requirement → Prop
  | .collection plan => store.kind? database plan.name = none
  | _ => True

/-- A store on the way to where all requirements are provided, which meets some of them. -/
structure Stands
    (database : String)
    (requirements : List Requirement)
    (start : MemoryStore)
    (covered : List Requirement)
    (store : MemoryStore) : Prop where
  reached : Reached database requirements start store
  meets : ∀ requirement ∈ covered, store.Meets database requirement

/-- A store on the way stays on it, and keeps what is required of it. -/
def Advance
    (database : String)
    (requirements : List Requirement)
    (start before after : MemoryStore) : Prop :=
  Reached database requirements start before →
    Reached database requirements start after ∧
      ∀ requirement ∈ requirements,
        before.Meets database requirement →
          after.Meets database requirement

/-- All requirements can be provided. -/
def Achievable
    (database : String)
    (requirements : List Requirement)
    (start : MemoryStore) : Prop :=
  ∃ final, provideAll database start.unrecorded requirements = .ok final

/--
How ensuring some requirements ends, when the earlier ones are met. Success means
that they are met as well, and where no errors occur there is success if all
requirements can be provided.
-/
structure Outcome
    (database : String)
    (requirements : List Requirement)
    (start : MemoryStore)
    (faulty : Prop)
    (earlier items : List Requirement)
    (result : PhaseResult)
    (left : MemoryStore) : Prop where
  stands : Stands database requirements start earlier left
  provided :
    result = .ok () →
      Stands database requirements start (earlier ++ items) left
  succeeds :
    ¬ faulty →
      Achievable database requirements start → result = .ok ()

theorem Advance.refl (store : MemoryStore) :
    Advance database requirements start store store :=
  fun reached => ⟨reached, fun _ _ => id⟩

theorem Advance.trans
    (first : Advance database requirements start before met)
    (second : Advance database requirements start met after) :
    Advance database requirements start before after := by
  intro reached
  obtain ⟨reachedMet, keptFirst⟩ := first reached
  obtain ⟨reachedAfter, keptSecond⟩ := second reachedMet
  refine ⟨reachedAfter, ?_⟩
  intro requirement member isMet
  exact keptSecond requirement member (keptFirst requirement member isMet)

theorem Stands.advance
    {covered : List Requirement}
    (stands : Stands database requirements start covered before)
    (within : covered ⊆ requirements)
    (advance : Advance database requirements start before after) :
    Stands database requirements start covered after := by
  obtain ⟨reached, kept⟩ := advance stands.reached
  refine ⟨reached, ?_⟩
  intro requirement member
  exact kept requirement (within member) (stands.meets requirement member)

theorem Stands.concat
    {covered : List Requirement}
    (stands : Stands database requirements start covered store)
    (isMet : store.Meets database requirement) :
    Stands database requirements start (covered ++ [requirement]) store := by
  refine ⟨stands.reached, ?_⟩
  intro other member
  rcases List.mem_append.mp member with old | new
  · exact stands.meets other old
  · exact List.mem_singleton.mp new ▸ isMet

/-- A store that holds the same stands where the other one does. -/
theorem advance_of_unrecorded_eq
    (same : after.unrecorded = before.unrecorded) :
    Advance database requirements start before after := by
  intro reached
  refine ⟨reached.of_unrecorded_eq same, ?_⟩
  intro requirement _ isMet
  rw [← meets_unrecorded_iff] at isMet ⊢
  exact same ▸ isMet

theorem create_of_meets
    (isMet : store.Meets database requirement)
    (created : store.create database requirement = .ok after) :
    after = store := by
  cases requirement with
  | database =>
      exact ((createDatabase_eq_ok_iff.mp created).1 isMet).elim
  | collection plan =>
      obtain ⟨-, -, free, -⟩ := createCollection_eq_ok_iff.mp created
      rw [isMet.2] at free
      cases free
  | index request =>
      obtain ⟨-, -, rfl⟩ := ensureIndex_eq_ok_iff.mp created
      exact withIndex_of_hasIndex isMet.2

theorem present_of_meets
    (isMet : store.Meets database requirement) :
    store.Present database requirement := by
  cases requirement with
  | database =>
      exact isMet
  | collection plan =>
      exact Option.isSome_iff_exists.mpr ⟨plan.kind, isMet.2⟩
  | index request =>
      exact isMet

/-- A collection that is missing does not have the kind that is required. -/
theorem not_meets_of_missing
    {plan : CollectionPlan}
    (missing : store.kind? database plan.name = none) :
    ¬ store.Meets database (.collection plan) := by
  intro isMet
  rw [isMet.2] at missing
  cases missing

/-- What is forbidden stays forbidden on the way. -/
theorem Reached.forbidden_eq
    (reached : Reached database requirements start store) :
    store.forbidden = start.forbidden := by
  obtain ⟨passed, -, provided⟩ := reached
  exact (grows_provideAll provided).forbidden

section Creation

variable
  (isFirst : earlier ++ [requirement] <+: requirements)

include isFirst

/-- The effect of a creating call goes one step further, if it does anything. -/
theorem Stands.advance_of_effect
    (stands : Stands database requirements start earlier met)
    (effect :
      left.unrecorded = met.unrecorded ∨
        met.unrecorded.create database requirement = .ok left.unrecorded) :
    Advance database requirements start met left := by
  rcases effect with same | created
  · exact advance_of_unrecorded_eq same
  · by_cases isMet : met.Meets database requirement
    · apply advance_of_unrecorded_eq
      exact create_of_meets (meets_unrecorded_iff.mpr isMet) created
    · intro reached
      refine ⟨reached.create isFirst stands.meets isMet created, ?_⟩
      intro other _ otherMet
      rw [← meets_unrecorded_iff] at otherMet ⊢
      exact otherMet.grows (grows_create created)

/-- What can be provided in the end can be created when its turn comes. -/
theorem Stands.exists_created
    (stands : Stands database requirements start earlier met)
    (unmet : ¬ met.Meets database requirement)
    (achievable : Achievable database requirements start) :
    ∃ created, met.create database requirement = .ok created := by
  have provided := stands.reached.provided_of_not_meets isFirst stands.meets unmet
  obtain ⟨final, whole⟩ := achievable
  exact exists_created_of_provideAll provided unmet isFirst whole

/-- What is there now, but was lacking when it was inspected, is what is required. -/
theorem Stands.meets_of_present
    (inspected : Stands database requirements start earlier before)
    (lacked : before.Lacks database requirement)
    (stands : Stands database requirements start earlier left)
    (present : left.Present database requirement) :
    left.Meets database requirement := by
  cases requirement with
  | database =>
      exact present
  | index request =>
      exact present
  | collection plan =>
      by_contra unmet
      have unmetBefore : ¬ before.Meets database (.collection plan) :=
        not_meets_of_missing lacked
      -- neither store meets the requirement, so both hold the same
      have one := inspected.reached.provided_of_not_meets isFirst
        inspected.meets unmetBefore
      have other := stands.reached.provided_of_not_meets isFirst
        stands.meets unmet
      rw [one, Except.ok.injEq] at other
      have same :
          left.kind? database plan.name = before.kind? database plan.name :=
        congrArg (·.kind? database plan.name) other.symm
      have taken : (left.kind? database plan.name).isSome = true := present
      have lacking : before.kind? database plan.name = none := lacked
      rw [same, lacking] at taken
      cases taken

/-- Creating what others have created in the meantime is refused as a duplicate. -/
theorem Stands.duplicate_of_meets
    (inspected : Stands database requirements start earlier before)
    (lacked : before.Lacks database requirement)
    (stands : Stands database requirements start earlier met)
    (isMet : met.Meets database requirement)
    {cause : TransportError}
    (refused : met.create database requirement = .error cause) :
    cause.isDuplicateName = true := by
  cases requirement with
  | database =>
      have duplicate :
          met.create database .database = .error (.duplicateName database) :=
        if_pos isMet
      rw [refused, Except.error.injEq] at duplicate
      subst duplicate
      rfl
  | index request =>
      have created :
          met.create database (.index request) =
            .ok (met.withIndex database request.1 request.2) :=
        ensureIndex_eq_ok_iff.mpr ⟨isMet.1, isMet.2.1, rfl⟩
      rw [refused] at created
      cases created
  | collection plan =>
      have unmetBefore : ¬ before.Meets database (.collection plan) :=
        not_meets_of_missing lacked
      -- it was created from where it lacked, so it is not forbidden
      obtain ⟨created, isCreated⟩ := inspected.reached.exists_created
        stands.reached isFirst inspected.meets stands.meets unmetBefore isMet
      have permitted : plan.name ∉ met.forbidden := by
        rw [stands.reached.forbidden_eq, ← inspected.reached.forbidden_eq]
        exact (createCollection_eq_ok_iff.mp isCreated).2.1
      obtain ⟨other, isRefused, duplicate⟩ :=
        isDuplicateName_of_createCollection isMet.1 permitted
          (present_of_meets isMet)
      have same : met.create database (.collection plan) = .error other :=
        isRefused
      rw [refused, Except.error.injEq] at same
      exact same ▸ duplicate

/-- A creating call whose duplicates are tolerated ends as ensuring should. -/
theorem Stands.outcome_of_attempted
    {step : ProvisioningStep}
    (inspected : Stands database requirements start earlier before)
    (lacked : before.Lacks database requirement)
    (advance : Advance database requirements start before met)
    (attempted :
      Attempted faulty (·.create database requirement)
        (·.Present database requirement) met reply left) :
    Advance database requirements start met left ∧
      Outcome database requirements start faulty earlier [requirement]
        (DatabaseCreator.tolerateDuplicate step reply) left := by
  have earlierWithin : earlier ⊆ requirements :=
    fun _ member => isFirst.subset (List.mem_append_left _ member)
  have stands := inspected.advance earlierWithin advance
  have onward := stands.advance_of_effect isFirst attempted.effect
  have standsLeft := stands.advance earlierWithin onward
  refine ⟨onward, standsLeft, ?_, ?_⟩
  · intro succeeded
    have isMet : left.Meets database requirement := by
      cases reply with
      | ok value =>
          have created := attempted.made rfl
          exact meets_unrecorded_iff.mp (meets_of_create created)
      | error cause =>
          have duplicate : cause.isDuplicateName = true := by
            by_contra other
            simp [DatabaseCreator.tolerateDuplicate, other] at succeeded
          exact inspected.meets_of_present isFirst lacked standsLeft
            (attempted.duplicate cause rfl duplicate)
    exact standsLeft.concat isMet
  · intro sound achievable
    cases created : met.create database requirement with
    | ok changed =>
        rw [attempted.succeeds changed sound created]
        rfl
    | error cause =>
        have isMet : met.Meets database requirement := by
          by_contra unmet
          obtain ⟨changed, isCreated⟩ :=
            stands.exists_created isFirst unmet achievable
          rw [created] at isCreated
          cases isCreated
        have duplicate :=
          inspected.duplicate_of_meets isFirst lacked stands isMet created
        rw [attempted.fails cause sound created]
        simp [DatabaseCreator.tolerateDuplicate, duplicate]

end Creation

end MemoryStore

end GraphGate
