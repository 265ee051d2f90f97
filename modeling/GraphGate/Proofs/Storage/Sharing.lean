import GraphGate.Storage.Dialogue
import Mathlib.Data.List.Basic

namespace GraphGate

/-!
# Dialogues of several clients

Clients hold their dialogues at the same time with one who answers from a state
that all of them change, one question at a time and in any order. A client is
specified by what it relies on others to leave as it is, by how its own
questions may change the state, and by what holds when it ends. If the questions
of every client change the state only as the others rely on, then every client
ends as specified, whatever the order of the turns.
-/

namespace Dialogue

variable {Question : Type} {Answer : Question → Type} {α β σ : Type}

/-- How questions may be answered: the state met, the question, the answer, the state left. -/
abbrev Answering
    (Question : Type)
    (Answer : Question → Type)
    (σ : Type) : Type :=
  σ → (question : Question) → Answer question → σ → Prop

/-- Every question has one answer, which a function gives. -/
def exactly
    (answer : σ → (question : Question) → Answer question × σ) :
    Answering Question Answer σ :=
  fun met question reply left => answer met question = (reply, left)

variable {answers fewer : Answering Question Answer σ}
variable {rely guarantee : σ → σ → Prop}
variable {post next : α → σ → Prop}

/-- A dialogue is held from one state to another, and ends with a value. -/
inductive Ends (answers : Answering Question Answer σ) :
    σ → Dialogue Question Answer α → α → σ → Prop where
  | done (state : σ) (value : α) :
      Ends answers state (.done value) value state
  | ask
      {met left final : σ}
      {question : Question}
      {reply : Answer question}
      {onward : Answer question → Dialogue Question Answer α}
      {value : α} :
      answers met question reply left →
      Ends answers left (onward reply) value final →
      Ends answers met (.ask question onward) value final

theorem ends_done_iff
    {state final : σ}
    {value ended : α} :
    Ends answers state (.done value) ended final ↔
      ended = value ∧ final = state := by
  constructor
  · rintro ⟨⟩
    exact ⟨rfl, rfl⟩
  · rintro ⟨rfl, rfl⟩
    exact .done _ _

theorem ends_ask_iff
    {state final : σ}
    {question : Question}
    {onward : Answer question → Dialogue Question Answer α}
    {value : α} :
    Ends answers state (.ask question onward) value final ↔
      ∃ reply left,
        answers state question reply left ∧
          Ends answers left (onward reply) value final := by
  constructor
  · rintro (_ | ⟨answered, ends⟩)
    exact ⟨_, _, answered, ends⟩
  · rintro ⟨reply, left, answered, ends⟩
    exact .ask answered ends

/-- One dialogue after another ends where the second ends, which starts where the first ends. -/
theorem ends_bind_iff
    {first : Dialogue Question Answer α}
    {following : α → Dialogue Question Answer β}
    {state final : σ}
    {value : β} :
    Ends answers state (first.bind following) value final ↔
      ∃ between left,
        Ends answers state first between left ∧
          Ends answers left (following between) value final := by
  induction first generalizing state with
  | done ended =>
      simp only [bind_done, ends_done_iff, and_assoc, exists_and_left,
        exists_eq_left]
  | ask question onward inductionHypothesis =>
      simp only [bind_ask, ends_ask_iff, inductionHypothesis]
      constructor
      · rintro ⟨reply, met, answered, between, left, first, second⟩
        exact ⟨between, left, ⟨reply, met, answered, first⟩, second⟩
      · rintro ⟨between, left, ⟨reply, met, answered, first⟩, second⟩
        exact ⟨reply, met, answered, between, left, first, second⟩

/-- A dialogue with one who always answers the same way ends as it runs. -/
theorem ends_run
    (answer : σ → (question : Question) → Answer question × σ)
    (state : σ)
    (dialogue : Dialogue Question Answer α) :
    Ends (exactly answer) state dialogue
      (run answer state dialogue).1 (run answer state dialogue).2 := by
  induction dialogue generalizing state with
  | done value =>
      exact .done state value
  | ask question onward inductionHypothesis =>
      exact .ask rfl (inductionHypothesis _ _)

/--
If others change the state between two questions only as `rely` allows, then each
question changes it as `guarantee` says, and in the end `post` holds.
-/
def Secures
    (answers : Answering Question Answer σ)
    (rely guarantee : σ → σ → Prop)
    (post : α → σ → Prop) :
    Dialogue Question Answer α → σ → Prop
  | .done value, state => post value state
  | .ask question onward, state =>
      ∀ met reply left,
        rely state met →
        answers met question reply left →
        guarantee met left ∧
          Secures answers rely guarantee post (onward reply) left

theorem Secures.imp
    {dialogue : Dialogue Question Answer α}
    {state : σ}
    (secures : dialogue.Secures answers rely guarantee post state)
    (implies : ∀ value left, post value left → next value left) :
    dialogue.Secures answers rely guarantee next state := by
  induction dialogue generalizing state with
  | done value =>
      exact implies value state secures
  | ask question onward inductionHypothesis =>
      intro met reply left allowed answered
      obtain ⟨changed, others⟩ := secures met reply left allowed answered
      exact ⟨changed, inductionHypothesis reply others⟩

/-- Fewer answers are possible, or others change less. -/
theorem Secures.restrict
    {strict : σ → σ → Prop}
    {dialogue : Dialogue Question Answer α}
    {state : σ}
    (secures : dialogue.Secures answers rely guarantee post state)
    (answered : ∀ met question reply left,
      fewer met question reply left → answers met question reply left)
    (relied : ∀ before after, strict before after → rely before after) :
    dialogue.Secures fewer strict guarantee post state := by
  induction dialogue generalizing state with
  | done value =>
      exact secures
  | ask question onward inductionHypothesis =>
      intro met reply left allowed isAnswer
      obtain ⟨changed, others⟩ :=
        secures met reply left (relied _ _ allowed) (answered _ _ _ _ isAnswer)
      exact ⟨changed, inductionHypothesis reply others⟩

/-- One dialogue after another. -/
theorem Secures.bind
    {final : β → σ → Prop}
    {dialogue : Dialogue Question Answer α}
    {following : α → Dialogue Question Answer β}
    {state : σ}
    (secures : dialogue.Secures answers rely guarantee post state)
    (onwards : ∀ value left,
      post value left →
      (following value).Secures answers rely guarantee final left) :
    (dialogue.bind following).Secures answers rely guarantee final state := by
  induction dialogue generalizing state with
  | done value =>
      exact onwards value state secures
  | ask question onward inductionHypothesis =>
      intro met reply left allowed answered
      obtain ⟨changed, others⟩ := secures met reply left allowed answered
      exact ⟨changed, inductionHypothesis reply others⟩

/-- What a dialogue secures, it secures from any state that others may leave. -/
theorem Secures.stable
    {dialogue : Dialogue Question Answer α}
    {before after : σ}
    (secures : dialogue.Secures answers rely guarantee post before)
    (transitive : ∀ first second third,
      rely first second → rely second third → rely first third)
    (kept : ∀ value first second,
      post value first → rely first second → post value second)
    (changed : rely before after) :
    dialogue.Secures answers rely guarantee post after := by
  cases dialogue with
  | done value =>
      exact kept value before after secures changed
  | ask question onward =>
      intro met reply left allowed answered
      exact secures met reply left (transitive _ _ _ changed allowed) answered

/-- What nobody undoes holds in the end as well. -/
theorem Secures.keep
    (kept : σ → Prop)
    {dialogue : Dialogue Question Answer α}
    {state : σ}
    (secures : dialogue.Secures answers rely guarantee post state)
    (byOthers : ∀ before after,
      rely before after → kept before → kept after)
    (byQuestions : ∀ before after,
      guarantee before after → kept before → kept after)
    (holds : kept state) :
    dialogue.Secures answers rely guarantee
      (fun value left => post value left ∧ kept left) state := by
  induction dialogue generalizing state with
  | done value =>
      exact ⟨secures, holds⟩
  | ask question onward inductionHypothesis =>
      intro met reply left allowed answered
      obtain ⟨changed, others⟩ := secures met reply left allowed answered
      refine ⟨changed, inductionHypothesis reply others ?_⟩
      exact byQuestions met left changed (byOthers state met allowed holds)

/-- A dialogue without others ends as it secures. -/
theorem Secures.of_ends
    {dialogue : Dialogue Question Answer α}
    {state final : σ}
    {value : α}
    (secures : dialogue.Secures answers rely guarantee post state)
    (reflexive : ∀ same, rely same same)
    (ends : Ends answers state dialogue value final) :
    post value final := by
  induction ends with
  | done state value =>
      exact secures
  | ask answered _ inductionHypothesis =>
      obtain ⟨-, others⟩ := secures _ _ _ (reflexive _) answered
      exact inductionHypothesis others

/-- A bound on the number of questions, whatever they are answered with. -/
def AsksAtMost : Dialogue Question Answer α → Nat → Prop
  | .done _, _ => True
  | .ask _ onward, bound =>
      ∃ rest, bound = rest + 1 ∧ ∀ reply, AsksAtMost (onward reply) rest

theorem AsksAtMost.mono
    {dialogue : Dialogue Question Answer α}
    {bound larger : Nat}
    (asks : dialogue.AsksAtMost bound)
    (within : bound ≤ larger) :
    dialogue.AsksAtMost larger := by
  induction dialogue generalizing bound larger with
  | done value =>
      trivial
  | ask question onward inductionHypothesis =>
      obtain ⟨rest, rfl, others⟩ := asks
      refine ⟨larger - 1, by omega, ?_⟩
      intro reply
      exact inductionHypothesis reply (others reply) (by omega)

theorem AsksAtMost.bind
    {dialogue : Dialogue Question Answer α}
    {following : α → Dialogue Question Answer β}
    {bound further : Nat}
    (asks : dialogue.AsksAtMost bound)
    (onwards : ∀ value, (following value).AsksAtMost further) :
    (dialogue.bind following).AsksAtMost (bound + further) := by
  induction dialogue generalizing bound with
  | done value =>
      exact (onwards value).mono (Nat.le_add_left further bound)
  | ask question onward inductionHypothesis =>
      obtain ⟨rest, rfl, others⟩ := asks
      refine ⟨rest + further, by omega, ?_⟩
      intro reply
      exact inductionHypothesis reply (others reply)

end Dialogue

/-- A state that clients share, with what is left of the dialogue of each. -/
structure Sharing
    (Question : Type)
    (Answer : Question → Type)
    (α σ : Type) where
  state : σ
  clients : List (Dialogue Question Answer α)

namespace Sharing

variable {Question : Type} {Answer : Question → Type} {α σ : Type}

/-- The client whose turn it is has its next question answered, if it has one left. -/
def turn
    (answer : Nat → σ → (question : Question) → Answer question × σ)
    (sharing : Sharing Question Answer α σ)
    (client : Nat) : Sharing Question Answer α σ :=
  match sharing.clients[client]? with
  | some (.ask question onward) =>
      let (reply, state) := answer client sharing.state question
      ⟨state, sharing.clients.set client (onward reply)⟩
  | _ => sharing

/-- The clients have their turns in the order of a schedule. -/
def interleave
    (answer : Nat → σ → (question : Question) → Answer question × σ)
    (sharing : Sharing Question Answer α σ)
    (schedule : List Nat) : Sharing Question Answer α σ :=
  schedule.foldl (turn answer) sharing

variable {answer : Nat → σ → (question : Question) → Answer question × σ}
variable {sharing : Sharing Question Answer α σ} {schedule : List Nat}

/-- The turn of a client that has no question left changes nothing. -/
theorem turn_of_done
    {client : Nat}
    {value : α}
    (ended : sharing.clients[client]? = some (.done value)) :
    sharing.turn answer client = sharing := by
  simp only [turn, ended]

/-- A turn leaves the other clients where they are. -/
theorem getElem?_turn_of_ne
    {client other : Nat}
    (different : other ≠ client) :
    (sharing.turn answer client).clients[other]? = sharing.clients[other]? := by
  unfold turn
  split
  · exact List.getElem?_set_ne (Ne.symm different)
  · rfl

theorem getElem?_turn_of_ask
    {client : Nat}
    {question : Question}
    {onward : Answer question → Dialogue Question Answer α}
    (asking : sharing.clients[client]? = some (.ask question onward)) :
    (sharing.turn answer client).clients[client]? =
      some (onward (answer client sharing.state question).1) := by
  have inRange : client < sharing.clients.length :=
    (List.getElem?_eq_some_iff.mp asking).1
  simp only [turn, asking]
  exact List.getElem?_set_self inRange

section Cooperation

variable {rely guarantee : Nat → σ → σ → Prop} {post : Nat → α → σ → Prop}

/--
What clients rely on may happen any number of times, it does not undo what a
client has ended with, and it covers whatever any other client does.
-/
structure Cooperation
    (rely guarantee : Nat → σ → σ → Prop)
    (post : Nat → α → σ → Prop) : Prop where
  reflexive : ∀ client state, rely client state state
  transitive : ∀ client first second third,
    rely client first second →
      rely client second third → rely client first third
  covers : ∀ client other before after,
    client ≠ other →
      guarantee other before after → rely client before after
  kept : ∀ client value before after,
    post client value before →
      rely client before after → post client value after

/-- Every client secures what it is specified to. -/
def AllSecure
    (answer : Nat → σ → (question : Question) → Answer question × σ)
    (rely guarantee : Nat → σ → σ → Prop)
    (post : Nat → α → σ → Prop)
    (sharing : Sharing Question Answer α σ) : Prop :=
  ∀ (client : Nat) (dialogue : Dialogue Question Answer α),
    sharing.clients[client]? = some dialogue →
      dialogue.Secures (Dialogue.exactly (answer client)) (rely client)
        (guarantee client) (post client) sharing.state

theorem AllSecure.turn
    (secure : sharing.AllSecure answer rely guarantee post)
    (cooperation : Cooperation rely guarantee post)
    (client : Nat) :
    (sharing.turn answer client).AllSecure answer rely guarantee post := by
  cases asking : sharing.clients[client]? with
  | none =>
      have same : sharing.turn answer client = sharing := by
        simp only [Sharing.turn, asking]
      rw [same]
      exact secure
  | some dialogue =>
      cases dialogue with
      | done value =>
          rw [turn_of_done asking]
          exact secure
      | ask question onward =>
          have left :
              (sharing.turn answer client).state =
                (answer client sharing.state question).2 := by
            simp only [Sharing.turn, asking]
          obtain ⟨changed, others⟩ :=
            secure client _ asking sharing.state _ _
              (cooperation.reflexive client sharing.state) rfl
          intro other dialogue isClient
          rw [left]
          by_cases same : other = client
          · subst same
            rw [getElem?_turn_of_ask asking, Option.some.injEq] at isClient
            subst isClient
            exact others
          · rw [getElem?_turn_of_ne same] at isClient
            apply (secure other dialogue isClient).stable
            · exact cooperation.transitive other
            · exact cooperation.kept other
            · exact cooperation.covers other client _ _ same changed

/-- Clients that cooperate all secure what they are specified to, whatever the schedule. -/
theorem AllSecure.interleave
    (secure : sharing.AllSecure answer rely guarantee post)
    (cooperation : Cooperation rely guarantee post)
    (schedule : List Nat) :
    (sharing.interleave answer schedule).AllSecure answer rely guarantee
      post := by
  induction schedule generalizing sharing with
  | nil =>
      exact secure
  | cons client rest inductionHypothesis =>
      rw [Sharing.interleave, List.foldl_cons]
      exact inductionHypothesis (secure.turn cooperation client)

/-- A client that has ended did so as specified. -/
theorem AllSecure.of_done
    (secure : sharing.AllSecure answer rely guarantee post)
    {client : Nat}
    {value : α}
    (ended : sharing.clients[client]? = some (.done value)) :
    post client value sharing.state :=
  secure client _ ended

end Cooperation

/-- A client that has as many turns as it may ask questions comes to its end. -/
theorem exists_done_of_turns
    {client bound : Nat}
    {dialogue : Dialogue Question Answer α}
    (isClient : sharing.clients[client]? = some dialogue)
    (asks : dialogue.AsksAtMost bound)
    (turns : bound ≤ schedule.count client) :
    ∃ value,
      (sharing.interleave answer schedule).clients[client]? =
        some (.done value) := by
  induction schedule generalizing sharing bound dialogue with
  | nil =>
      cases dialogue with
      | done value =>
          exact ⟨value, isClient⟩
      | ask question onward =>
          obtain ⟨rest, rfl, -⟩ := asks
          simp at turns
  | cons next rest inductionHypothesis =>
      rw [interleave, List.foldl_cons]
      by_cases same : next = client
      · subst same
        rw [List.count_cons_self] at turns
        cases dialogue with
        | done value =>
            have asksNothing :
                (Dialogue.done value : Dialogue Question Answer α).AsksAtMost
                  0 :=
              trivial
            rw [turn_of_done isClient]
            exact inductionHypothesis isClient asksNothing (Nat.zero_le _)
        | ask question onward =>
            obtain ⟨fewer, rfl, others⟩ := asks
            apply inductionHypothesis (getElem?_turn_of_ask isClient)
              (others _)
            omega
      · rw [List.count_cons_of_ne same] at turns
        refine inductionHypothesis ?_ asks turns
        rw [getElem?_turn_of_ne (Ne.symm same)]
        exact isClient

end Sharing

end GraphGate
