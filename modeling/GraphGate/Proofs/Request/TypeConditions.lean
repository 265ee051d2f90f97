import GraphGate.Proofs.Merging
import GraphGate.Proofs.Request.Occurrences

namespace GraphGate.FieldOccurrence

/-!
# Type conditions around a field

A field that stands inside several type conditions is asked for on records that
meet all of them. The selection that expansion emits for it keeps the innermost
condition only, so it applies to every type that meets that one. The two agree
on a type exactly if the type meets the other conditions wherever it meets the
innermost one, as it does with a single condition.
-/

variable {occurrence : FieldOccurrence} {model : Model} {type : String}

/-- Whether a type meets all conditions around a field. -/
def MeetsAll
    (occurrence : FieldOccurrence)
    (model : Model)
    (type : String) : Prop :=
  ∀ condition ∈ occurrence.enclosing, model.isSubtype type condition = true

/-- Whether a type meets the innermost condition around a field, if it has any. -/
def MeetsInnermost
    (occurrence : FieldOccurrence)
    (model : Model)
    (type : String) : Prop :=
  ∀ condition ∈ occurrence.enclosing.getLast?,
    model.isSubtype type condition = true

theorem MeetsAll.meetsInnermost
    (meets : occurrence.MeetsAll model type) :
    occurrence.MeetsInnermost model type := by
  intro condition isInnermost
  exact meets condition (List.mem_of_getLast? isInnermost)

theorem MeetsInnermost.meetsAll_of_single
    (meets : occurrence.MeetsInnermost model type)
    (single : occurrence.enclosing.length ≤ 1) :
    occurrence.MeetsAll model type := by
  intro condition member
  cases enclosing : occurrence.enclosing with
  | nil =>
      rw [enclosing] at member
      cases member
  | cons first rest =>
      rw [enclosing, List.length_cons] at single
      have noOthers : rest = [] :=
        List.eq_nil_of_length_eq_zero (by omega)
      rw [enclosing, noOthers, List.mem_singleton] at member
      refine meets condition ?_
      rw [enclosing, noOthers, member]
      rfl

/-- The selection of a field applies to the types that meet its innermost condition. -/
theorem appliesTo_selection_iff :
    occurrence.selection.appliesTo type model.isSubtype = true ↔
      occurrence.MeetsInnermost model type := by
  rw [FieldSelection.appliesTo, conditions_selection, MeetsInnermost]
  cases occurrence.enclosing.getLast? <;> simp

/--
Expansion emits one selection for each field of a selection set, in order and
under the same response keys. The selection applies to the types that meet the
innermost condition around the field. So it applies to all types that meet every
condition, and to no others exactly if the innermost condition implies the
others, which it does where there is a single one.
-/
theorem expand_applies_by_innermost
    {expansion : Expansion}
    {available : FragmentTable}
    {selections : List GraphQL.Selection}
    {emitted : List FieldSelection}
    (expanded : expansion.expand available none selections = .ok emitted) :
    ∃ occurrences,
      expansion.Unfolds available [] selections occurrences ∧
        ∀ keys,
          FieldSelection.under keys emitted =
              (under keys occurrences).map selection ∧
            ∀ occurrence ∈ under keys occurrences,
              ∀ (model : Model) (type : String),
                (occurrence.selection.appliesTo type model.isSubtype = true ↔
                    occurrence.MeetsInnermost model type) ∧
                  ((occurrence.selection.appliesTo type model.isSubtype = true ↔
                      occurrence.MeetsAll model type) ↔
                    (occurrence.MeetsInnermost model type →
                      occurrence.MeetsAll model type)) ∧
                  (occurrence.enclosing.length ≤ 1 →
                    (occurrence.selection.appliesTo type model.isSubtype =
                        true ↔
                      occurrence.MeetsAll model type)) := by
  have atTop :
      expansion.expand available ([] : List String).getLast? selections =
        .ok emitted :=
    expanded
  obtain ⟨occurrences, unfolds, isEmitted⟩ :=
    Expansion.expand_eq_ok_iff.mp atTop
  refine ⟨occurrences, unfolds, ?_⟩
  intro keys
  rw [isEmitted]
  refine ⟨under_map_selection keys occurrences, ?_⟩
  intro occurrence _ model type
  rw [appliesTo_selection_iff]
  have sound : occurrence.MeetsAll model type →
      occurrence.MeetsInnermost model type :=
    MeetsAll.meetsInnermost
  refine ⟨Iff.rfl, ⟨Iff.mp, fun implied => ⟨implied, sound⟩⟩, ?_⟩
  intro single
  exact ⟨fun meets => meets.meetsAll_of_single single, sound⟩

/-- The owners of animals, asked for as of dogs that are animals. -/
def ownersOfDogs : List GraphQL.Selection := [
  .field none "animals" [] [] [
    .inlineFragment (some "Dog") [] [
      .inlineFragment (some "Animal") [] [
        .field none "owner" [] [] [
          .field none "name" [] [] []]]]]]

theorem ownersOfDogs_unfolds :
    (⟨⟨[]⟩, []⟩ : Expansion).Unfolds ⟨[]⟩ [] ownersOfDogs [
      ⟨[], none, "animals", [], [
        ⟨["Dog", "Animal"], none, "owner", [], [
          ⟨[], none, "name", [], []⟩]⟩]⟩] := by
  have kept := GraphQL.not_isLeftOut_nil []
  exact .field kept
    (.inlineFragment kept
      (.inlineFragment kept (.field kept (.field kept .nil .nil) .nil) .nil)
      .nil)
    .nil

theorem expand_ownersOfDogs :
    (⟨⟨[]⟩, []⟩ : Expansion).expand ⟨[]⟩ none ownersOfDogs =
      .ok [
        (FieldSelection.ofName "animals").withNested
          (((FieldSelection.ofName "owner").onType "Animal").withNested
            (FieldSelection.ofName "name"))] :=
  ownersOfDogs_unfolds.expand_eq

theorem ownersOfDogs_apply_by_innermost :
    ∃ emitted occurrences,
      (⟨⟨[]⟩, []⟩ : Expansion).expand ⟨[]⟩ none ownersOfDogs = .ok emitted ∧
        FieldSelection.under ["animals"] emitted =
          (under ["animals"] occurrences).map selection ∧
        ∀ occurrence ∈ under ["animals"] occurrences,
          (occurrence.selection.appliesTo "Cat"
                FieldSelection.clinic.model.isSubtype =
              true ↔
            occurrence.MeetsInnermost FieldSelection.clinic.model "Cat") := by
  obtain ⟨occurrences, -, each⟩ :=
    expand_applies_by_innermost expand_ownersOfDogs
  obtain ⟨sameKeys, applies⟩ := each ["animals"]
  refine ⟨_, occurrences, expand_ownersOfDogs, sameKeys, ?_⟩
  intro occurrence member
  exact (applies occurrence member FieldSelection.clinic.model "Cat").1

/-- The owners are selected for cats as well, which are animals but no dogs. -/
theorem owner_selected_for_cats :
    (⟨FieldSelection.clinicTypes, [], [], none⟩ : ModelBuilder).build =
        .ok FieldSelection.clinic.model ∧
      FieldSelection.clinic.model.isObject "Cat" = true ∧
      ∃ occurrences,
        (⟨⟨[]⟩, []⟩ : Expansion).Unfolds ⟨[]⟩ [] ownersOfDogs occurrences ∧
          (⟨⟨[]⟩, []⟩ : Expansion).expand ⟨[]⟩ none ownersOfDogs =
            .ok (occurrences.map selection) ∧
          ∃ occurrence ∈ under ["animals"] occurrences,
            occurrence.responseKey = "owner" ∧
              occurrence.enclosing = ["Dog", "Animal"] ∧
              FieldSelection.clinic.model.isSubtype "Cat" "Dog" = false ∧
              occurrence.selection.appliesTo "Cat"
                FieldSelection.clinic.model.isSubtype = true := by
  refine ⟨by rfl, by rfl, _, ownersOfDogs_unfolds,
    ownersOfDogs_unfolds.expand_eq, ?_⟩
  exact ⟨_, List.mem_singleton_self _, rfl, rfl, by rfl, by rfl⟩

end GraphGate.FieldOccurrence
