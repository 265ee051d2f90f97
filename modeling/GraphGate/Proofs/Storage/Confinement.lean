import GraphGate.Proofs.Storage.Sharing

namespace GraphGate.Dialogue

/-!
# Confined dialogues

A dialogue may be confined to questions of one sort, whatever they are answered
with. Then a state changes only as those questions change it: what each of them
relates, the whole dialogue relates.
-/

variable {Question : Type} {Answer : Question → Type} {α β σ : Type}
variable {asks : Question → Prop} {ending next : α → Prop}

/-- Whatever the answers are, only questions of one sort are asked, and the value in the end is of one sort. -/
def Confined
    (asks : Question → Prop)
    (ending : α → Prop) : Dialogue Question Answer α → Prop
  | .done value => ending value
  | .ask question onward =>
      asks question ∧ ∀ reply, Confined asks ending (onward reply)

theorem Confined.imp
    {dialogue : Dialogue Question Answer α}
    (confined : dialogue.Confined asks ending)
    (implies : ∀ value, ending value → next value) :
    dialogue.Confined asks next := by
  induction dialogue with
  | done value =>
      exact implies value confined
  | ask question onward inductionHypothesis =>
      obtain ⟨asked, others⟩ := confined
      exact ⟨asked, fun reply => inductionHypothesis reply (others reply)⟩

/-- One confined dialogue after another. -/
theorem Confined.bind
    {final : β → Prop}
    {dialogue : Dialogue Question Answer α}
    {following : α → Dialogue Question Answer β}
    (confined : dialogue.Confined asks ending)
    (onwards : ∀ value,
      ending value → (following value).Confined asks final) :
    (dialogue.bind following).Confined asks final := by
  induction dialogue with
  | done value =>
      exact onwards value confined
  | ask question onward inductionHypothesis =>
      obtain ⟨asked, others⟩ := confined
      exact ⟨asked, fun reply => inductionHypothesis reply (others reply)⟩

variable {answers : Answering Question Answer σ}
variable {dialogue : Dialogue Question Answer α}
variable {state final : σ} {value : α}

/-- However it is held, a confined dialogue ends with a value of its sort. -/
theorem Confined.of_ends
    (confined : dialogue.Confined asks ending)
    (ends : Ends answers state dialogue value final) :
    ending value := by
  induction ends with
  | done state value =>
      exact confined
  | ask _ _ inductionHypothesis =>
      obtain ⟨-, others⟩ := confined
      exact inductionHypothesis (others _)

/-- What every single question relates, the whole dialogue relates. -/
theorem Confined.relates
    {relation : σ → σ → Prop}
    (reflexive : ∀ same, relation same same)
    (transitive : ∀ {first second third},
      relation first second → relation second third → relation first third)
    (step : ∀ {met question reply left},
      asks question → answers met question reply left → relation met left)
    (confined : dialogue.Confined asks ending)
    (ends : Ends answers state dialogue value final) :
    relation state final := by
  induction ends with
  | done state value =>
      exact reflexive state
  | ask answered _ inductionHypothesis =>
      obtain ⟨asked, others⟩ := confined
      have first := step asked answered
      exact transitive first (inductionHypothesis (others _))

end GraphGate.Dialogue
