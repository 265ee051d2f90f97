import GraphGate.Proofs.Storage.Growth

namespace GraphGate

/-!
# Calls that are disturbed

Errors may strike the calls on a store: before a call has reached the store, or
after it has had its effect. The one that calls cannot tell which. Only what is
there is ever reported as there already.
-/

/-- The reply that reports an error. -/
def Command.failure : (command : Command) → TransportError → command.Reply
  | .createDatabase _, cause => .error cause
  | .collectionKind _ _, cause => .error cause
  | .createCollection _ _ _, cause => .error cause
  | .ensureIndex _ _ _, cause => .error cause
  | .query _ _ _, cause => .finished (.error cause)

namespace MemoryStore

/-- Whether what a call creates or asks about is there. -/
def HasObject (store : MemoryStore) : Command → Prop
  | .createDatabase name => name ∈ store.databases
  | .collectionKind database name =>
      (store.kind? database name).isSome = true
  | .createCollection database name _ =>
      (store.kind? database name).isSome = true
  | .ensureIndex database name index =>
      database ∈ store.databases ∧ store.HasIndex database name index
  | .query database _ _ => database ∈ store.databases

/-- The answer of the store to a call. -/
def answered (store : MemoryStore) (command : Command) :
    command.Reply × MemoryStore :=
  MemoryScript.empty.answer store command

/--
How a call may be answered: as the store answers it, or, where faults may occur,
with any error instead, whether or not the call took effect.
-/
inductive Disturbed
    (faulty : Prop)
    (store : MemoryStore)
    (command : Command) :
    command.Reply → MemoryStore → Prop where
  | undisturbed :
      Disturbed faulty store command
        (store.answered command).1 (store.answered command).2
  | lost (cause : TransportError) :
      faulty →
      (cause.isDuplicateName = true → store.HasObject command) →
      Disturbed faulty store command (command.failure cause) store
  | struck (cause : TransportError) :
      faulty →
      (cause.isDuplicateName = true →
        (store.answered command).2.HasObject command) →
      Disturbed faulty store command
        (command.failure cause) (store.answered command).2

variable {store met left : MemoryStore} {faulty : Prop}
variable {command : Command} {call : RecordedCall}
variable {reply : Except TransportError Unit}
variable {change : MemoryStore → Except TransportError MemoryStore}

theorem disturb_empty
    {α : Type}
    (result : Except TransportError α) :
    MemoryScript.empty.disturb call result = result := by
  cases result <;> rfl

/--
How a call that is to make a change ends, where `present` tells that there is
nothing left to change.
-/
structure Attempted
    (faulty : Prop)
    (change : MemoryStore → Except TransportError MemoryStore)
    (present : MemoryStore → Prop)
    (met : MemoryStore)
    (reply : Except TransportError Unit)
    (left : MemoryStore) : Prop where
  effect :
    left.unrecorded = met.unrecorded ∨
      change met.unrecorded = .ok left.unrecorded
  made : reply = .ok () → change met.unrecorded = .ok left.unrecorded
  duplicate : ∀ cause,
    reply = .error cause → cause.isDuplicateName = true → present left
  succeeds : ∀ changed,
    ¬ faulty → change met = .ok changed → reply = .ok ()
  fails : ∀ cause,
    ¬ faulty → change met = .error cause → reply = .error cause

variable {present : MemoryStore → Prop}

/-- An error takes the place of the answer. -/
theorem attempted_of_failure
    {cause : TransportError}
    (faults : faulty)
    (effect :
      left.unrecorded = met.unrecorded ∨
        change met.unrecorded = .ok left.unrecorded)
    (duplicate : cause.isDuplicateName = true → present left) :
    Attempted faulty change present met (.error cause) left where
  effect := effect
  made := nofun
  duplicate := by
    rintro other ⟨⟩
    exact duplicate
  succeeds := fun _ sound => (sound faults).elim
  fails := fun _ sound => (sound faults).elim

section Attempts

variable
  (unrecorded : ∀ store : MemoryStore,
    change store.unrecorded = (change store).map MemoryStore.unrecorded)

include unrecorded

theorem change_record
    {after : MemoryStore}
    (changed : change (met.record call) = .ok after) :
    change met.unrecorded = .ok after.unrecorded := by
  have same : met.unrecorded = (met.record call).unrecorded :=
    rfl
  rw [same, unrecorded, changed]
  rfl

/-- Recording a call does not matter for what it changes. -/
theorem change_eq_error_of_record
    {cause : TransportError}
    (refused : change (met.record call) = .error cause) :
    change met.unrecorded = .error cause := by
  have same : met.unrecorded = (met.record call).unrecorded :=
    rfl
  rw [same, unrecorded, refused]
  rfl

/-- The store makes the change, or refuses it and holds what it held. -/
theorem attempted_of_attempt
    (refusal : ∀ (store : MemoryStore) (cause : TransportError),
      change store = .error cause →
      cause.isDuplicateName = true →
      present store) :
    Attempted faulty change present met
      ((met.record call).attempt change).1
      ((met.record call).attempt change).2 := by
  have same : met.unrecorded = (met.record call).unrecorded :=
    rfl
  cases attempted : change (met.record call) with
  | ok changed =>
      have made := change_record unrecorded attempted
      simp only [attempt, attempted]
      refine ⟨.inr made, fun _ => made, nofun, fun _ _ _ => rfl, ?_⟩
      intro cause _ refused
      rw [unrecorded, refused] at made
      cases made
  | error cause =>
      have refused := change_eq_error_of_record unrecorded attempted
      simp only [attempt, attempted]
      refine ⟨.inl rfl, nofun, ?_, ?_, ?_⟩
      · rintro other ⟨⟩ isDuplicate
        exact refusal _ cause attempted isDuplicate
      · intro changed _ made
        rw [unrecorded, made] at refused
        cases refused
      · intro other _ refusedAgain
        rw [unrecorded, refusedAgain] at refused
        cases refused
        rfl

end Attempts

/-! The three calls that create something. -/

/-- A disturbed call is answered by the store, or fails before or after it took effect. -/
theorem Disturbed.answered_or_failed
    {reply : command.Reply}
    (disturbed : Disturbed faulty met command reply left) :
    (reply = (met.answered command).1 ∧ left = (met.answered command).2) ∨
      faulty ∧
        ∃ cause,
          reply = command.failure cause ∧
            (cause.isDuplicateName = true → left.HasObject command) ∧
            (left = met ∨ left = (met.answered command).2) := by
  cases disturbed with
  | undisturbed =>
      exact .inl ⟨rfl, rfl⟩
  | lost cause faults duplicate =>
      exact .inr ⟨faults, cause, rfl, duplicate, .inl rfl⟩
  | struck cause faults duplicate =>
      exact .inr ⟨faults, cause, rfl, duplicate, .inr rfl⟩

/-- A disturbed attempt ends as one that may fail before or after it took effect. -/
theorem Attempted.disturb
    {answer : Except TransportError Unit × MemoryStore}
    (attempted : Attempted faulty change present met answer.1 answer.2)
    (replied :
      (reply = answer.1 ∧ left = answer.2) ∨
        faulty ∧
          ∃ cause,
            reply = .error cause ∧
              (cause.isDuplicateName = true → present left) ∧
              (left = met ∨ left = answer.2)) :
    Attempted faulty change present met reply left := by
  rcases replied with ⟨rfl, rfl⟩ | ⟨faults, cause, rfl, duplicate, isLeft⟩
  · exact attempted
  · rcases isLeft with rfl | rfl
    · exact attempted_of_failure faults (.inl rfl) duplicate
    · exact attempted_of_failure faults attempted.effect duplicate

theorem attempted_createDatabase
    {name : String}
    (disturbed :
      Disturbed faulty met (Command.createDatabase name) reply left) :
    Attempted faulty (·.createDatabase name) (name ∈ ·.databases)
      met reply left := by
  refine Attempted.disturb ?_ disturbed.answered_or_failed
  simp only [answered, MemoryScript.answer, disturb_empty]
  apply attempted_of_attempt
  · intro store
    exact createDatabase_unrecorded
  · intro store cause refused _
    exact mem_databases_of_createDatabase refused

theorem attempted_createCollection
    {database name : String}
    {kind : CollectionKind}
    (disturbed :
      Disturbed faulty met (Command.createCollection database name kind)
        reply left) :
    Attempted faulty (·.createCollection database name kind)
      (fun store => (store.kind? database name).isSome = true)
      met reply left := by
  refine Attempted.disturb ?_ disturbed.answered_or_failed
  simp only [answered, MemoryScript.answer, disturb_empty]
  apply attempted_of_attempt
  · intro store
    exact createCollection_unrecorded
  · intro store cause refused isDuplicate
    exact isSome_kind?_of_duplicate refused isDuplicate

theorem attempted_ensureIndex
    {database name : String}
    {index : IndexSpec}
    (disturbed :
      Disturbed faulty met (Command.ensureIndex database name index)
        reply left) :
    Attempted faulty (·.ensureIndex database name index)
      (fun store =>
        database ∈ store.databases ∧ store.HasIndex database name index)
      met reply left := by
  refine Attempted.disturb ?_ disturbed.answered_or_failed
  simp only [answered, MemoryScript.answer, disturb_empty]
  apply attempted_of_attempt
  · intro store
    exact ensureIndex_unrecorded
  · intro store cause refused isDuplicate
    rw [not_duplicate_of_ensureIndex refused] at isDuplicate
    cases isDuplicate

/-- Asking for a kind changes nothing; an answer tells the kind in a database that is there. -/
theorem inspected_collectionKind
    {database name : String}
    {reply : Except TransportError (Option CollectionKind)}
    (disturbed :
      Disturbed faulty met (Command.collectionKind database name)
        reply left) :
    left.unrecorded = met.unrecorded ∧
      (∀ kind,
        reply = .ok kind →
          database ∈ met.databases ∧ met.kind? database name = kind) ∧
      (¬ faulty →
        database ∈ met.databases →
          reply = .ok (met.kind? database name)) := by
  have undisturbed :
      (met.answered (Command.collectionKind database name)).1 =
        if database ∈ met.databases then
          .ok (met.kind? database name)
        else
          .error (.databaseNotFound database) := by
    simp only [answered, MemoryScript.answer, disturb_empty]
    rfl
  rcases disturbed.answered_or_failed with
    ⟨isReply, rfl⟩ | ⟨faults, cause, rfl, -, isLeft⟩
  · have told :
        reply =
          if database ∈ met.databases then
            .ok (met.kind? database name)
          else
            .error (.databaseNotFound database) :=
      isReply.trans undisturbed
    rw [told]
    refine ⟨rfl, ?_, fun _ there => if_pos there⟩
    intro kind replied
    by_cases there : database ∈ met.databases
    · rw [if_pos there] at replied
      exact ⟨there, Except.ok.inj replied⟩
    · rw [if_neg there] at replied
      cases replied
  · refine ⟨?_, ?_, fun sound => (sound faults).elim⟩
    · rcases isLeft with rfl | rfl
      · rfl
      · rfl
    · intro kind replied
      cases replied

end MemoryStore

end GraphGate
