import GraphGate.Proofs.Compilation.Agreement
import GraphGate.Proofs.Schema.Resemblance

namespace GraphGate

/-!
# Siblings in another order

A selection and its rearrangements select the same fields, with siblings in
another order at any depth. Siblings are compiled and shaped one after another,
and the first one that fails ends the run. Which one that is depends on the
order, but not whether there is one: runs over the same items in another order
both give nothing, or both give the same results in another order.
-/

/-- Related values, under one key. -/
inductive AtOneKey
    {α : Type}
    (relation : α → α → Prop) :
    String × α → String × α → Prop where
  | intro {key : String} {first second : α} :
      relation first second → AtOneKey relation (key, first) (key, second)

/-! Runs that both give nothing, or related values. -/

namespace Lifted

variable {α β γ δ : Type}
variable {relation : α → β → Prop} {onward : γ → δ → Prop}

theorem bind
    {first : Option α}
    {second : Option β}
    {next : α → Option γ}
    {following : β → Option δ}
    (related : Option.Rel relation first second)
    (each : ∀ value other,
      relation value other →
        Option.Rel onward (next value) (following other)) :
    Option.Rel onward (first.bind next) (second.bind following) := by
  cases related with
  | none =>
      exact .none
  | some here =>
      exact each _ _ here

theorem map
    {first : Option α}
    {second : Option β}
    {change : α → γ}
    {alteration : β → δ}
    (related : Option.Rel relation first second)
    (each : ∀ value other,
      relation value other → onward (change value) (alteration other)) :
    Option.Rel onward (first.map change) (second.map alteration) := by
  cases related with
  | none =>
      exact .none
  | some here =>
      exact .some (each _ _ here)

theorem trans
    {first : Option α}
    {second : Option β}
    {third : Option γ}
    {further : β → γ → Prop}
    {across : α → γ → Prop}
    (related : Option.Rel relation first second)
    (relatedToo : Option.Rel further second third)
    (joined : ∀ value other last,
      relation value other → further other last → across value last) :
    Option.Rel across first third := by
  cases related with
  | none =>
      cases relatedToo
      exact .none
  | some here =>
      cases relatedToo with
      | some there =>
          exact .some (joined _ _ _ here there)

/-- Items that are related one for one are run alike, one after another. -/
theorem mapM
    {first : List α}
    {second : List β}
    {run : α → Option γ}
    {rerun : β → Option δ}
    (items : List.Forall₂ relation first second)
    (each : ∀ item image,
      relation item image → Option.Rel onward (run item) (rerun image)) :
    Option.Rel (List.Forall₂ onward) (first.mapM run) (second.mapM rerun) := by
  induction items with
  | nil =>
      exact .some .nil
  | cons here _ inductionHypothesis =>
      rw [List.mapM_cons, List.mapM_cons]
      refine bind (each _ _ here) fun value other related => ?_
      refine bind inductionHypothesis fun values others restRelated => ?_
      exact .some (.cons related restRelated)

/-- The same items give the same results in any order, or nothing in any order. -/
theorem mapM_perm
    {first second : List α}
    (permutation : first.Perm second)
    (run : α → Option γ) :
    Option.Rel List.Perm (first.mapM run) (second.mapM run) := by
  induction permutation with
  | nil =>
      exact .some .nil
  | cons item _ inductionHypothesis =>
      rw [List.mapM_cons, List.mapM_cons]
      cases run item with
      | none =>
          exact .none
      | some value =>
          simp only [Option.bind_eq_bind, Option.bind_some]
          exact bind inductionHypothesis fun _ _ same => .some (same.cons value)
  | swap item other rest =>
      simp only [List.mapM_cons]
      cases run item <;> cases run other <;> cases rest.mapM run
      case some.some.some value otherValue values =>
        exact .some (.swap value otherValue values)
      all_goals exact .none
  | trans _ _ here there =>
      exact trans here there fun _ _ _ => List.Perm.trans

end Lifted

namespace Paired

variable {α β γ δ : Type} {relation : α → β → Prop}
variable {first : List α} {second : List β}

/-- What is paired is known to be among the first items. -/
theorem of_mem (paired : Paired relation first second) :
    Paired (fun item image => item ∈ first ∧ relation item image) first
      second := by
  obtain ⟨middle, related, permutation⟩ := paired
  refine ⟨middle, ?_, permutation⟩
  rw [List.forall₂_and_left]
  exact ⟨fun _ member => member, related⟩

/-- Items that are paired are run alike, whatever the order is. -/
theorem mapM
    {onward : γ → δ → Prop}
    {run : α → Option γ}
    {rerun : β → Option δ}
    (paired : Paired relation first second)
    (each : ∀ item image,
      relation item image → Option.Rel onward (run item) (rerun image)) :
    Option.Rel (Paired onward) (first.mapM run) (second.mapM rerun) := by
  obtain ⟨middle, related, permutation⟩ := paired
  exact Lifted.trans (Lifted.mapM related each)
    (Lifted.mapM_perm permutation rerun)
    fun _ results _ here there => ⟨results, here, there⟩

end Paired

/-- Selections that differ in the order of siblings at most, at any depth. -/
inductive FieldSelection.Reorders :
    FieldSelection → FieldSelection → Prop where
  | intro
      {first second : FieldSelection}
      {middle : List FieldSelection}
      (name : first.name = second.name)
      (label : first.label = second.label)
      (arguments : first.arguments = second.arguments)
      (conditions : first.conditions = second.conditions)
      (nested : List.Forall₂ Reorders first.nested middle)
      (permuted : middle.Perm second.nested) :
      Reorders first second

namespace FieldSelection.Reorders

variable {first second : FieldSelection}

theorem sameName (reorders : first.Reorders second) :
    first.name = second.name := by
  cases reorders with
  | intro name label arguments conditions nested permuted =>
      exact name

theorem sameKey (reorders : first.Reorders second) :
    first.responseKey = second.responseKey := by
  cases reorders with
  | intro name label arguments conditions nested permuted =>
      simp only [responseKey, name, label]

theorem sameArguments (reorders : first.Reorders second) :
    first.arguments = second.arguments := by
  cases reorders with
  | intro name label arguments conditions nested permuted =>
      exact arguments

theorem sameConditions (reorders : first.Reorders second) :
    first.conditions = second.conditions := by
  cases reorders with
  | intro name label arguments conditions nested permuted =>
      exact conditions

theorem sameTypename (reorders : first.Reorders second) :
    first.isTypename = second.isTypename := by
  simp only [isTypename, reorders.sameName]

/-- What is nested in both is the same up to order, at any depth. -/
theorem paired (reorders : first.Reorders second) :
    Paired Reorders first.nested second.nested := by
  cases reorders with
  | intro name label arguments conditions nested permuted =>
      exact ⟨_, nested, permuted⟩

theorem isEmpty_nested (reorders : first.Reorders second) :
    first.nested.isEmpty = second.nested.isEmpty := by
  obtain ⟨middle, nested, permuted⟩ := reorders.paired
  rw [Bool.eq_iff_iff, List.isEmpty_iff_length_eq_zero,
    List.isEmpty_iff_length_eq_zero, nested.length_eq, permuted.length_eq]

/-- Siblings keep distinct response keys in any order. -/
theorem hasDistinctKeys
    (reorders : first.Reorders second)
    (distinct : first.HasDistinctKeys) :
    second.HasDistinctKeys := by
  have sameKeys :=
    reorders.paired.map fun _ _ (nested : Reorders _ _) => nested.sameKey
  exact sameKeys.nodup_iff.mp distinct

/-- The fields without those that ask for the name of the type. -/
theorem fields (reorders : first.Reorders second) :
    Paired (fun inner image => inner ∈ first.nested ∧ inner.Reorders image)
      (first.nested.filter (!·.isTypename))
      (second.nested.filter (!·.isTypename)) := by
  apply reorders.paired.of_mem.filter
  rintro inner image ⟨-, nested⟩
  rw [nested.sameTypename]

end FieldSelection.Reorders

end GraphGate
