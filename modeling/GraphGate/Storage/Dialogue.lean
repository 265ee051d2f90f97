namespace GraphGate

/-!
# Dialogues

A dialogue asks questions one after another, each depending on the answers
before it, and ends with a value. It says what is asked without saying who
answers, so one dialogue can be held with a database in memory, with a server,
or in turns with other dialogues.
-/

/-- Questions one after another, and a value in the end. -/
inductive Dialogue (Question : Type) (Answer : Question → Type) (α : Type) where
  | done (value : α)
  | ask (question : Question) (next : Answer question → Dialogue Question Answer α)

namespace Dialogue

variable {Question : Type} {Answer : Question → Type} {α β γ σ : Type}

/-- Goes on with what a value calls for. -/
protected def bind
    (first : Dialogue Question Answer α)
    (next : α → Dialogue Question Answer β) : Dialogue Question Answer β :=
  match first with
  | .done value => next value
  | .ask question answered =>
      .ask question fun answer => (answered answer).bind next

instance : Monad (Dialogue Question Answer) where
  pure := .done
  bind := Dialogue.bind

@[simp] theorem bind_done (value : α) (next : α → Dialogue Question Answer β) :
    Dialogue.bind (.done value) next = next value :=
  rfl

@[simp] theorem bind_ask
    (question : Question)
    (answered : Answer question → Dialogue Question Answer α)
    (next : α → Dialogue Question Answer β) :
    Dialogue.bind (.ask question answered) next =
      .ask question fun answer => (answered answer).bind next :=
  rfl

theorem bind_assoc
    (first : Dialogue Question Answer α)
    (second : α → Dialogue Question Answer β)
    (third : β → Dialogue Question Answer γ) :
    (first.bind second).bind third =
      first.bind fun value => (second value).bind third := by
  induction first with
  | done value =>
      rfl
  | ask question answered inductionHypothesis =>
      simp only [bind_ask]
      congr 1
      funext answer
      exact inductionHypothesis answer

/-- The dialogue of one question. -/
def once (question : Question) : Dialogue Question Answer (Answer question) :=
  .ask question .done

/-- Holds a dialogue with someone who answers from a state and changes it. -/
def run
    (answer : σ → (question : Question) → Answer question × σ)
    (state : σ) : Dialogue Question Answer α → α × σ
  | .done value => (value, state)
  | .ask question next =>
      let (reply, state) := answer state question
      run answer state (next reply)

/-- Holds a dialogue with someone who answers with effects. -/
def runM {m : Type → Type} [Monad m]
    (answer : (question : Question) → m (Answer question)) :
    Dialogue Question Answer α → m α
  | .done value => pure value
  | .ask question next => do
      let reply ← answer question
      runM answer (next reply)

theorem run_bind
    (answer : σ → (question : Question) → Answer question × σ)
    (state : σ)
    (first : Dialogue Question Answer α)
    (next : α → Dialogue Question Answer β) :
    run answer state (first.bind next) =
      let (value, state) := run answer state first
      run answer state (next value) := by
  induction first generalizing state with
  | done value =>
      rfl
  | ask question answered inductionHypothesis =>
      exact inductionHypothesis _ _

theorem runM_bind
    {m : Type → Type}
    [Monad m]
    [LawfulMonad m]
    (answer : (question : Question) → m (Answer question))
    (first : Dialogue Question Answer α)
    (next : α → Dialogue Question Answer β) :
    runM answer (first.bind next) =
      runM answer first >>= fun value => runM answer (next value) := by
  induction first with
  | done value =>
      simp only [bind_done, runM, pure_bind]
  | ask question answered inductionHypothesis =>
      simp only [bind_ask, runM, LawfulMonad.bind_assoc, inductionHypothesis]

end Dialogue

end GraphGate
