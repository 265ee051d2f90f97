import GraphGate.Response.Shaping
import GraphGate.Schema.Builder
import Mathlib.Data.List.Nodup

namespace GraphGate.FieldSelection

/-!
# What merged selections select

Merging leaves one selection for each response key: the first of the key, with
the type conditions and the sub-selections of all. It is selected for a type
exactly if one of them was. Its sub-selections are those of all of them, also of
those that do not apply to the type.
-/

variable {first second selection merged : FieldSelection}
variable {selections grouped : List FieldSelection} {key : String}

/-! Two selections as one. -/

@[simp] theorem responseKey_combine (first second : FieldSelection) :
    (first.combine second).responseKey = first.responseKey :=
  rfl

@[simp] theorem responseKey_selecting
    (selection : FieldSelection)
    (nested : List FieldSelection) :
    (selection.selecting nested).responseKey = selection.responseKey :=
  rfl

@[simp] theorem appliesTo_selecting
    (selection : FieldSelection)
    (nested : List FieldSelection)
    (type : String)
    (isSubtype : String → String → Bool) :
    (selection.selecting nested).appliesTo type isSubtype =
      selection.appliesTo type isSubtype :=
  rfl

/-- A condition behind the conditions it is not among. -/
def addCondition (conditions : List String) (condition : String) : List String :=
  if conditions.contains condition then
    conditions
  else
    conditions ++ [condition]

theorem mem_foldl_addCondition
    {first second : List String}
    {condition : String} :
    condition ∈ second.foldl addCondition first ↔
      condition ∈ first ∨ condition ∈ second := by
  induction second generalizing first with
  | nil =>
      simp
  | cons other rest inductionHypothesis =>
      rw [List.foldl_cons, inductionHypothesis, List.mem_cons, addCondition]
      by_cases present : first.contains other = true
      · have member : other ∈ first := List.contains_iff_mem.mp present
        rw [if_pos present]
        constructor
        · rintro (inFirst | inRest)
          · exact .inl inFirst
          · exact .inr (.inr inRest)
        · rintro (inFirst | isOther | inRest)
          · exact .inl inFirst
          · exact .inl (isOther ▸ member)
          · exact .inr inRest
      · rw [if_neg present, List.mem_append, List.mem_singleton, or_assoc]

theorem foldl_addCondition_ne_nil
    {first : List String}
    (present : first ≠ [])
    (second : List String) :
    second.foldl addCondition first ≠ [] := by
  obtain ⟨condition, member⟩ := List.exists_mem_of_ne_nil _ present
  exact List.ne_nil_of_mem (mem_foldl_addCondition.mpr (.inl member))

theorem mergeConditions_eq_nil
    {first second : List String}
    (missing : first = [] ∨ second = []) :
    mergeConditions first second = [] := by
  unfold mergeConditions
  rcases missing with rfl | rfl
  · simp
  · simp

theorem mergeConditions_eq_foldl
    {first second : List String}
    (present : first ≠ [])
    (presentToo : second ≠ []) :
    mergeConditions first second = second.foldl addCondition first := by
  unfold mergeConditions
  rw [if_neg (by simp [present, presentToo])]
  rfl

theorem mem_mergeConditions
    {first second : List String}
    {condition : String}
    (present : first ≠ [])
    (presentToo : second ≠ []) :
    condition ∈ mergeConditions first second ↔
      condition ∈ first ∨ condition ∈ second := by
  rw [mergeConditions_eq_foldl present presentToo]
  exact mem_foldl_addCondition

/-- Two selections together apply to a type exactly if one of them does. -/
theorem appliesTo_combine
    (first second : FieldSelection)
    (type : String)
    (isSubtype : String → String → Bool) :
    (first.combine second).appliesTo type isSubtype =
      (first.appliesTo type isSubtype || second.appliesTo type isSubtype) := by
  have conditions :
      (first.combine second).conditions =
        mergeConditions first.conditions second.conditions :=
    rfl
  simp only [appliesTo, conditions]
  by_cases firstEmpty : first.conditions = []
  · rw [mergeConditions_eq_nil (.inl firstEmpty), firstEmpty]
    rfl
  · by_cases secondEmpty : second.conditions = []
    · rw [mergeConditions_eq_nil (.inr secondEmpty), secondEmpty]
      simp
    · have someLeft :=
        foldl_addCondition_ne_nil firstEmpty second.conditions
      rw [← mergeConditions_eq_foldl firstEmpty secondEmpty] at someLeft
      rw [List.isEmpty_eq_false_iff.mpr firstEmpty,
        List.isEmpty_eq_false_iff.mpr secondEmpty,
        List.isEmpty_eq_false_iff.mpr someLeft, Bool.eq_iff_iff]
      simp only [Bool.false_or, Bool.or_eq_true, List.any_eq_true,
        mem_mergeConditions firstEmpty secondEmpty, or_and_right, exists_or]

/-! Several selections as one. -/

theorem nested_foldl_combine
    (first : FieldSelection)
    (rest : List FieldSelection) :
    (rest.foldl combine first).nested =
      first.nested ++ rest.flatMap nested := by
  induction rest generalizing first with
  | nil =>
      simp
  | cons second rest inductionHypothesis =>
      rw [List.foldl_cons, inductionHypothesis]
      simp [combine]

theorem appliesTo_foldl_combine
    (first : FieldSelection)
    (rest : List FieldSelection)
    (type : String)
    (isSubtype : String → String → Bool) :
    (rest.foldl combine first).appliesTo type isSubtype =
      (first :: rest).any fun selection =>
        selection.appliesTo type isSubtype := by
  induction rest generalizing first with
  | nil =>
      simp
  | cons second rest inductionHypothesis =>
      rw [List.foldl_cons, inductionHypothesis]
      simp [appliesTo_combine, Bool.or_assoc]

/-- The selections of one response key. -/
def ofKey (key : String) (selections : List FieldSelection) :
    List FieldSelection :=
  selections.filter (·.responseKey = key)

/-- Selections as one, if there are any. -/
def combineAll? : List FieldSelection → Option FieldSelection
  | [] => none
  | first :: rest => some (rest.foldl combine first)

/-! What grouping leaves under a response key. -/

theorem map_responseKey_insert
    (selection : FieldSelection)
    (grouped : List FieldSelection) :
    (insert selection grouped).map responseKey =
      if selection.responseKey ∈ grouped.map responseKey then
        grouped.map responseKey
      else
        grouped.map responseKey ++ [selection.responseKey] := by
  induction grouped with
  | nil =>
      simp [insert]
  | cons first rest inductionHypothesis =>
      by_cases same : first.responseKey = selection.responseKey
      · simp [insert, same]
      · have different : ¬ selection.responseKey = first.responseKey :=
          fun equal => same equal.symm
        rw [insert, if_neg same, List.map_cons, List.map_cons,
          inductionHypothesis]
        by_cases present : selection.responseKey ∈ rest.map responseKey
        · simp only [present, if_true, List.mem_cons, or_true]
        · simp only [present, if_false, List.mem_cons, different, or_self,
            List.cons_append]

theorem nodup_insert
    (distinct : (grouped.map responseKey).Nodup) :
    ((insert selection grouped).map responseKey).Nodup := by
  rw [map_responseKey_insert]
  split
  · exact distinct
  · rename_i fresh
    exact List.nodup_append.mpr
      ⟨distinct, List.nodup_singleton _, fun _ member _ isKey same =>
        fresh (List.mem_singleton.mp isKey ▸ same ▸ member)⟩

/-- Grouping leaves one selection for each response key. -/
theorem nodup_group (selections : List FieldSelection) :
    ((group selections).map responseKey).Nodup := by
  suffices general :
      ∀ grouped : List FieldSelection,
        (grouped.map responseKey).Nodup →
          ((selections.foldl (fun grouped selection => insert selection grouped)
            grouped).map responseKey).Nodup from
    general [] List.nodup_nil
  induction selections with
  | nil =>
      exact fun _ distinct => distinct
  | cons selection rest inductionHypothesis =>
      exact fun grouped distinct =>
        inductionHypothesis (insert selection grouped) (nodup_insert distinct)

theorem find?_insert
    (selection : FieldSelection)
    (grouped : List FieldSelection)
    (key : String) :
    (insert selection grouped).find? (·.responseKey = key) =
      if selection.responseKey = key then
        some (match grouped.find? (·.responseKey = key) with
          | some first => first.combine selection
          | none => selection)
      else
        grouped.find? (·.responseKey = key) := by
  induction grouped with
  | nil =>
      by_cases isKey : selection.responseKey = key
      · simp [insert, isKey]
      · simp [insert, isKey]
  | cons first rest inductionHypothesis =>
      by_cases same : first.responseKey = selection.responseKey
      · by_cases isKey : selection.responseKey = key
        · simp [insert, same, isKey]
        · simp [insert, same, isKey]
      · rw [insert, if_neg same]
        by_cases isFirst : first.responseKey = key
        · have other : ¬ selection.responseKey = key :=
            fun isKey => same (isFirst.trans isKey.symm)
          simp [isFirst, other]
        · simp only [List.find?_cons, isFirst, decide_false,
            inductionHypothesis]

/-- Under a response key stand the selections of the key as one. -/
theorem find?_group (selections : List FieldSelection) (key : String) :
    (group selections).find? (·.responseKey = key) =
      combineAll? (ofKey key selections) := by
  suffices general :
      ∀ grouped : List FieldSelection,
        (selections.foldl (fun grouped selection => insert selection grouped)
            grouped).find? (·.responseKey = key) =
          combineAll?
            ((grouped.find? (·.responseKey = key)).toList ++
              ofKey key selections) from
    general []
  induction selections with
  | nil =>
      intro grouped
      cases found : grouped.find? (·.responseKey = key) <;>
        simp [found, ofKey, combineAll?]
  | cons selection rest inductionHypothesis =>
      intro grouped
      simp only [ofKey] at inductionHypothesis ⊢
      rw [List.foldl_cons, inductionHypothesis, find?_insert]
      by_cases isKey : selection.responseKey = key
      · cases found : grouped.find? (·.responseKey = key) <;>
          simp [isKey, combineAll?]
      · simp [isKey]

/-- Merging leaves one selection for each response key. -/
theorem nodup_merge (selections : List FieldSelection) :
    ((merge selections).map responseKey).Nodup := by
  have sameKeys :
      (merge selections).map responseKey =
        (group selections).map responseKey := by
    rw [merge_eq, List.map_map]
    rfl
  rw [sameKeys]
  exact nodup_group selections

/-- A grouped selection is the selections of its response key as one. -/
theorem combineAll?_of_mem_group
    (isWhole : selection ∈ group selections) :
    combineAll? (ofKey selection.responseKey selections) = some selection := by
  obtain ⟨other, isFound⟩ :=
    Option.isSome_iff_exists.mp
      (List.find?_isSome.mpr
        ⟨selection, isWhole, by simp⟩ :
        ((group selections).find?
          (·.responseKey = selection.responseKey)).isSome)
  have sameKey : other.responseKey = selection.responseKey := by
    simpa using List.find?_some isFound
  have same :=
    List.inj_on_of_nodup_map (nodup_group selections)
      (List.mem_of_find?_eq_some isFound) isWhole sameKey
  rw [← find?_group, isFound, same]

/-- What a merged selection is made of: the selections of its key as one, merged inside. -/
theorem exists_of_mem_merge
    (member : merged ∈ merge selections) :
    ∃ first rest,
      ofKey merged.responseKey selections = first :: rest ∧
        merged =
          (rest.foldl combine first).selecting
            (merge ((first :: rest).flatMap nested)) := by
  rw [merge_eq] at member
  obtain ⟨whole, inGroup, rfl⟩ := List.mem_map.mp member
  rw [responseKey_selecting]
  have found := combineAll?_of_mem_group inGroup
  cases sharing : ofKey whole.responseKey selections with
  | nil =>
      rw [sharing] at found
      cases found
  | cons first rest =>
      rw [sharing] at found
      have isWhole : rest.foldl combine first = whole := Option.some.inj found
      refine ⟨first, rest, rfl, ?_⟩
      rw [isWhole, List.flatMap_cons, ← nested_foldl_combine, isWhole]

theorem mem_ofKey :
    selection ∈ ofKey key selections ↔
      selection ∈ selections ∧ selection.responseKey = key := by
  simp [ofKey]

/-- A response key of the selections is one of the merged ones. -/
theorem exists_mem_merge
    (member : selection ∈ selections) :
    ∃ merged ∈ merge selections,
      merged.responseKey = selection.responseKey := by
  have sharing : selection ∈ ofKey selection.responseKey selections :=
    mem_ofKey.mpr ⟨member, rfl⟩
  have found := find?_group selections selection.responseKey
  cases isShared : ofKey selection.responseKey selections with
  | nil =>
      rw [isShared] at sharing
      cases sharing
  | cons first rest =>
      rw [isShared] at found
      refine
        ⟨(rest.foldl combine first).selecting
          (merge (rest.foldl combine first).nested), ?_, ?_⟩
      · rw [merge_eq]
        exact List.mem_map_of_mem (List.mem_of_find?_eq_some found)
      · rw [responseKey_selecting]
        simpa using List.find?_some found

/--
Merging leaves one selection for each response key. A key is selected for a type
after the merge exactly if one of the selections of the key applied to the type.
What is selected below a key is the merge of what all selections of the key
select, so it is what is selected for a type if all of them apply to the type.
-/
theorem merge_selects_keys_of_types
    (model : Model)
    (type : String)
    (selections : List FieldSelection) :
    ((merge selections).map responseKey).Nodup ∧
      (∀ key,
        (∃ merged ∈ merge selections,
          merged.responseKey = key ∧
            merged.appliesTo type model.isSubtype = true) ↔
          ∃ original ∈ selections,
            original.responseKey = key ∧
              original.appliesTo type model.isSubtype = true) ∧
      ∀ merged ∈ merge selections,
        merged.nested =
            merge ((ofKey merged.responseKey selections).flatMap nested) ∧
          ((∀ original ∈ ofKey merged.responseKey selections,
              original.appliesTo type model.isSubtype = true) →
            merged.nested =
              merge
                (((ofKey merged.responseKey selections).filter
                  (·.appliesTo type model.isSubtype)).flatMap nested)) := by
  have below :
      ∀ merged ∈ merge selections,
        merged.nested =
          merge ((ofKey merged.responseKey selections).flatMap nested) := by
    intro merged member
    obtain ⟨first, rest, sharing, isMerged⟩ := exists_of_mem_merge member
    rw [sharing, isMerged]
    rfl
  refine ⟨nodup_merge selections, fun key => ?_, fun merged member => ?_⟩
  · constructor
    · rintro ⟨merged, member, rfl, applies⟩
      obtain ⟨first, rest, sharing, isMerged⟩ := exists_of_mem_merge member
      rw [isMerged, appliesTo_selecting, appliesTo_foldl_combine,
        List.any_eq_true] at applies
      obtain ⟨original, isShared, applies⟩ := applies
      rw [← sharing, mem_ofKey] at isShared
      exact ⟨original, isShared.1, isShared.2, applies⟩
    · rintro ⟨original, member, rfl, applies⟩
      obtain ⟨merged, isMember, sameKey⟩ := exists_mem_merge member
      refine ⟨merged, isMember, sameKey, ?_⟩
      obtain ⟨first, rest, sharing, isMerged⟩ := exists_of_mem_merge isMember
      rw [isMerged, appliesTo_selecting, appliesTo_foldl_combine,
        List.any_eq_true]
      rw [sameKey] at sharing
      exact ⟨original, sharing ▸ mem_ofKey.mpr ⟨member, rfl⟩, applies⟩
  · refine ⟨below merged member, fun allApply => ?_⟩
    rw [List.filter_eq_self.mpr allApply]
    exact below merged member

/-- A clinic for dogs and cats, with the owners of the animals. -/
def clinicTypes : Catalogue TypeDeclaration where
  items := [
    ⟨"Query", .object [],
      ⟨[⟨"animals", .list (.named "Animal"), .none⟩], by decide⟩, .none⟩,
    ⟨"Animal", .interface,
      ⟨[⟨"owner", .named "Keeper", ⟨some ⟨"keeps", .inbound⟩, none⟩⟩],
        by decide⟩,
      ⟨some ⟨"animals", .document⟩, some "kind", []⟩⟩,
    ⟨"Dog", .object ["Animal"], .empty, .none⟩,
    ⟨"Cat", .object ["Animal"], .empty, .none⟩,
    ⟨"Keeper", .object [],
      ⟨[⟨"name", .named "String", .none⟩, ⟨"phone", .named "String", .none⟩],
        by decide⟩,
      ⟨some ⟨"keepers", .document⟩, none, []⟩⟩]
  distinct := by decide

/-- Shapes what the clinic knows. -/
def clinic : Shaper where
  model := ⟨clinicTypes, [], some "Query"⟩
  registry :=
    ⟨[("Animal", ⟨"kind", [("Dog", "Dog"), ("Cat", "Cat")]⟩)], ["Animal"]⟩

/-- The name of every owner, and the phone of those of cats. -/
def ownerSelections : List FieldSelection := [
  (ofName "owner").withNested (.ofName "name"),
  ((ofName "owner").withNested (.ofName "phone")).onType "Cat"]

theorem merge_ownerSelections :
    merge ownerSelections =
      [((ofName "owner").withNested (.ofName "name")).withNested
        (.ofName "phone")] := by
  have nothing : merge [] = [] := by
    rw [merge_eq]
    rfl
  have leaves :
      merge [ofName "name", ofName "phone"] =
        [ofName "name", ofName "phone"] := by
    rw [merge_eq]
    have grouped :
        group [ofName "name", ofName "phone"] =
          [ofName "name", ofName "phone"] := by
      rfl
    rw [grouped]
    simp [selecting, ofName, nothing]
  rw [merge_eq]
  have grouped :
      group ownerSelections =
        [((ofName "owner").withNested (.ofName "name")).withNested
          (.ofName "phone")] := by
    rfl
  rw [grouped]
  simpa [selecting, ofName, withNested] using leaves

/--
The phone of an owner is asked for cats only, but is selected for dogs as well,
and a dog is answered with the phone of its owner.
-/
theorem phone_selected_for_dogs :
    (⟨clinicTypes, [], [], none⟩ : ModelBuilder).build = .ok clinic.model ∧
      DiscriminatorRegistry.ofModel clinic.model = .ok clinic.registry ∧
      (∀ original ∈ ownerSelections,
        original.responseKey = "owner" ∧ original.name = "owner" ∧
          original.arguments.isEmpty = true) ∧
      (∃ merged ∈ merge ownerSelections,
        merged.appliesTo "Dog" clinic.model.isSubtype = true ∧
          merged.nested.map responseKey = ["name", "phone"] ∧
          (merge
            (((ofKey "owner" ownerSelections).filter
              (·.appliesTo "Dog" clinic.model.isSubtype)).flatMap
                nested)).map responseKey = ["name"]) ∧
      (clinic.complete (.list (.named "Animal"))
        (.array [.object [
          ("__meta", .object [("kind", .string "Dog")]),
          ("owner", .object [
            ("__meta", .object []),
            ("name", .string "Ada"),
            ("phone", .string "12")])]])
        ((ofName "animals").selecting (merge ownerSelections))
        .document .root).value =
          some (.list [.object "Dog" [
            ("owner", .object "Keeper" [
              ("name", .scalar (.string "Ada")),
              ("phone", .scalar (.string "12"))])]]) := by
  refine ⟨by rfl, by rfl, by decide, ?_, ?_⟩
  · rw [merge_ownerSelections]
    refine ⟨_, List.mem_singleton_self _, by rfl, by rfl, ?_⟩
    have forDogs :
        ((ofKey "owner" ownerSelections).filter
          (·.appliesTo "Dog" clinic.model.isSubtype)).flatMap nested =
            [ofName "name"] := by
      rfl
    rw [forDogs, merge_eq]
    rfl
  · rw [merge_ownerSelections]
    rfl

end GraphGate.FieldSelection
