import GraphGate.Proofs.Merging
import GraphGate.Proofs.Request.Occurrences
import Mathlib.Data.List.Induction

namespace GraphGate.FieldSelection

/-!
# Merging part by part

Merged selections are in a normal form: at every level each response key stands
once, where it stood first. Parts of a list may be merged before the rest of it
is known. What stands under a response key is then put together in another
grouping, which changes nothing since putting selections together is
associative, and so level by level.
-/

variable {selection : FieldSelection} {selections others : List FieldSelection}
variable {key : String}

/-! Putting selections together is associative. -/

theorem foldl_addCondition_assoc (first second third : List String) :
    third.foldl addCondition (second.foldl addCondition first) =
      (third.foldl addCondition second).foldl addCondition first := by
  induction third using List.reverseRecOn with
  | nil =>
      rfl
  | append_singleton earlier condition inductionHypothesis =>
      rw [List.foldl_concat, List.foldl_concat, inductionHypothesis]
      by_cases present : condition ∈ earlier.foldl addCondition second
      · have presentInAll :
            condition ∈
              (earlier.foldl addCondition second).foldl addCondition first :=
          mem_foldl_addCondition.mpr (.inr present)
        rw [addCondition, if_pos (List.contains_iff_mem.mpr presentInAll),
          addCondition, if_pos (List.contains_iff_mem.mpr present)]
      · have added :
            addCondition (earlier.foldl addCondition second) condition =
              earlier.foldl addCondition second ++ [condition] :=
          if_neg (by simpa using present)
        rw [added, List.foldl_concat]

/-- A list without conditions leaves none, wherever it stands. -/
theorem mergeConditions_assoc (first second third : List String) :
    mergeConditions (mergeConditions first second) third =
      mergeConditions first (mergeConditions second third) := by
  by_cases present : first ≠ [] ∧ second ≠ [] ∧ third ≠ []
  · obtain ⟨present, presentToo, presentLast⟩ := present
    have someBefore := foldl_addCondition_ne_nil present second
    have someBehind := foldl_addCondition_ne_nil presentToo third
    rw [mergeConditions_eq_foldl present presentToo,
      mergeConditions_eq_foldl someBefore presentLast,
      mergeConditions_eq_foldl presentToo presentLast,
      mergeConditions_eq_foldl present someBehind, foldl_addCondition_assoc]
  · have missing : first = [] ∨ second = [] ∨ third = [] := by
      simpa only [not_and_or, not_not] using present
    rcases missing with isFirst | isSecond | isThird
    · rw [mergeConditions_eq_nil (.inl isFirst),
        mergeConditions_eq_nil (.inl rfl), mergeConditions_eq_nil (.inl isFirst)]
    · rw [mergeConditions_eq_nil (.inr isSecond),
        mergeConditions_eq_nil (.inl rfl),
        mergeConditions_eq_nil (.inl isSecond),
        mergeConditions_eq_nil (.inr rfl)]
    · rw [mergeConditions_eq_nil (.inr isThird),
        mergeConditions_eq_nil (.inr isThird),
        mergeConditions_eq_nil (.inr rfl)]

theorem combine_assoc (first second third : FieldSelection) :
    (first.combine second).combine third =
      first.combine (second.combine third) := by
  simp only [combine, mergeConditions_assoc, List.append_assoc]

theorem foldl_combine_assoc
    (first second : FieldSelection)
    (rest : List FieldSelection) :
    rest.foldl combine (first.combine second) =
      first.combine (rest.foldl combine second) := by
  induction rest generalizing second with
  | nil =>
      rfl
  | cons third rest inductionHypothesis =>
      rw [List.foldl_cons, List.foldl_cons, combine_assoc, inductionHypothesis]

/-- The selections of two lists as one are those of each list as one, put together. -/
theorem combineAll?_append (selections others : List FieldSelection) :
    combineAll? (selections ++ others) =
      Option.merge combine (combineAll? selections) (combineAll? others) := by
  cases selections with
  | nil =>
      cases others <;> rfl
  | cons first rest =>
      cases others with
      | nil =>
          rw [List.append_nil]
          rfl
      | cons second behind =>
          rw [List.cons_append, combineAll?, List.foldl_append, List.foldl_cons,
            foldl_combine_assoc]
          rfl

theorem ofKey_append (key : String) (selections others : List FieldSelection) :
    ofKey key (selections ++ others) = ofKey key selections ++ ofKey key others :=
  List.filter_append selections others

/-! The first occurrences in lists. -/

theorem eraseDups_concat (keys : List String) (key : String) :
    (keys ++ [key]).eraseDups =
      if key ∈ keys then keys.eraseDups else keys.eraseDups ++ [key] := by
  rw [List.eraseDups_append]
  by_cases present : key ∈ keys
  · simp [List.removeAll, present]
  · simp [List.removeAll, present, List.eraseDups_cons]

theorem eraseDups_append_eraseDups (keys others : List String) :
    (keys ++ others.eraseDups).eraseDups = (keys ++ others).eraseDups := by
  induction others using List.reverseRecOn with
  | nil =>
      rfl
  | append_singleton earlier key inductionHypothesis =>
      rw [eraseDups_concat, ← List.append_assoc, eraseDups_concat]
      by_cases present : key ∈ earlier
      · rw [if_pos present, if_pos (List.mem_append_right keys present),
          inductionHypothesis]
      · rw [if_neg present, ← List.append_assoc, eraseDups_concat,
          inductionHypothesis]
        simp only [List.mem_append, List.mem_eraseDups]

theorem eraseDups_eraseDups_append (keys others : List String) :
    (keys.eraseDups ++ others).eraseDups = (keys ++ others).eraseDups := by
  induction others using List.reverseRecOn with
  | nil =>
      simpa using eraseDups_append_eraseDups [] keys
  | append_singleton earlier key inductionHypothesis =>
      rw [← List.append_assoc, ← List.append_assoc, eraseDups_concat,
        eraseDups_concat, inductionHypothesis]
      simp only [List.mem_append, List.mem_eraseDups]

/-! The response keys of merged selections. -/

/-- Grouping keeps each response key where it stands first. -/
theorem map_responseKey_group (selections : List FieldSelection) :
    (group selections).map responseKey =
      (selections.map responseKey).eraseDups := by
  induction selections using List.reverseRecOn with
  | nil =>
      rfl
  | append_singleton earlier selection inductionHypothesis =>
      have grouped :
          group (earlier ++ [selection]) = insert selection (group earlier) :=
        List.foldl_concat ..
      rw [grouped, map_responseKey_insert, inductionHypothesis, List.map_append,
        List.map_singleton, eraseDups_concat]
      simp only [List.mem_eraseDups]

/-- Merging keeps each response key where it stands first. -/
theorem map_responseKey_merge (selections : List FieldSelection) :
    (merge selections).map responseKey =
      (selections.map responseKey).eraseDups := by
  rw [← map_responseKey_group, merge_eq, List.map_map]
  rfl

/-! What stands under a response key of merged selections. -/

theorem ofKey_eq_singleton
    (distinct : (selections.map responseKey).Nodup)
    (member : selection ∈ selections) :
    ofKey selection.responseKey selections = [selection] := by
  induction selections with
  | nil =>
      cases member
  | cons first rest inductionHypothesis =>
      rw [List.map_cons, List.nodup_cons] at distinct
      obtain ⟨fresh, restDistinct⟩ := distinct
      rcases List.mem_cons.mp member with isFirst | inRest
      · subst isFirst
        have noOthers : ofKey selection.responseKey rest = [] := by
          refine List.filter_eq_nil_iff.mpr ?_
          intro other inRest
          simp only [decide_eq_true_eq]
          intro same
          exact fresh (same ▸ List.mem_map_of_mem inRest)
        rw [ofKey] at noOthers ⊢
        rw [List.filter_cons_of_pos (by simp), noOthers]
      · have different : first.responseKey ≠ selection.responseKey := by
          intro same
          exact fresh (same ▸ List.mem_map_of_mem inRest)
        have others := inductionHypothesis restDistinct inRest
        rw [ofKey] at others ⊢
        rw [List.filter_cons_of_neg (by simpa using different), others]

/-- Where each response key stands once, a list is what stands under its keys. -/
theorem flatMap_ofKey_eq
    (distinct : (selections.map responseKey).Nodup) :
    (selections.map responseKey).flatMap (ofKey · selections) = selections := by
  rw [List.flatMap_map]
  calc
    selections.flatMap (fun selection => ofKey selection.responseKey selections)
        = selections.flatMap fun selection => [selection] :=
      List.flatMap_congr fun _ member => ofKey_eq_singleton distinct member
    _ = selections :=
      List.flatMap_singleton' selections

theorem combineAll?_toList (selection : Option FieldSelection) :
    combineAll? selection.toList = selection := by
  cases selection <;> rfl

/-- Under a response key of merged selections stand those of the key as one, merged inside. -/
theorem ofKey_merge (key : String) (selections : List FieldSelection) :
    ofKey key (merge selections) =
      ((combineAll? (ofKey key selections)).map fun whole =>
        whole.selecting (merge whole.nested)).toList := by
  have found :
      (merge selections).find? (·.responseKey = key) =
        (combineAll? (ofKey key selections)).map fun whole =>
          whole.selecting (merge whole.nested) := by
    rw [← find?_group, merge_eq, List.find?_map]
    rfl
  rw [← found]
  cases isFound : (merge selections).find? (·.responseKey = key) with
  | none =>
      exact List.filter_eq_nil_iff.mpr (List.find?_eq_none.mp isFound)
  | some merged =>
      have isKey : merged.responseKey = key := by
        simpa using List.find?_some isFound
      rw [← isKey]
      exact ofKey_eq_singleton (nodup_merge selections)
        (List.mem_of_find?_eq_some isFound)

/-- What is selected under a response key after the merge is what all of the key select, merged. -/
theorem flatMap_nested_ofKey_merge
    (key : String)
    (selections : List FieldSelection) :
    (ofKey key (merge selections)).flatMap nested =
      merge ((ofKey key selections).flatMap nested) := by
  cases sharing : ofKey key selections with
  | nil =>
      have noneMerged : ofKey key (merge selections) = [] := by
        refine List.filter_eq_nil_iff.mpr ?_
        intro merged member
        simp only [decide_eq_true_eq]
        rintro rfl
        obtain ⟨first, rest, shared, -⟩ := exists_of_mem_merge member
        rw [sharing] at shared
        cases shared
      rw [noneMerged, merge_eq]
      rfl
  | cons first rest =>
      have inKey : first ∈ ofKey key selections := by
        rw [sharing]
        exact List.mem_cons_self
      obtain ⟨isSelected, isKey⟩ := mem_ofKey.mp inKey
      obtain ⟨merged, member, sameKey⟩ := exists_mem_merge isSelected
      have hasKey : merged.responseKey = key := sameKey.trans isKey
      obtain ⟨head, others, shared, isMerged⟩ := exists_of_mem_merge member
      rw [hasKey, sharing] at shared
      cases shared
      have only := ofKey_eq_singleton (nodup_merge selections) member
      rw [hasKey] at only
      rw [only, List.flatMap_singleton, isMerged]
      rfl

/-- Merging selections merges what stands under each path of response keys. -/
theorem under_merge
    (keys : List String)
    (selections : List FieldSelection) :
    under keys (merge selections) = merge (under keys selections) := by
  induction keys generalizing selections with
  | nil =>
      rfl
  | cons key keys inductionHypothesis =>
      rw [under, under, flatMap_nested_ofKey_merge, inductionHypothesis]

/-! Lists that are merged alike. -/

/-- Lists are merged alike if their keys are, and what each key selects is. -/
theorem merge_congr
    (sameKeys :
      (selections.map responseKey).eraseDups =
        (others.map responseKey).eraseDups)
    (sameInside :
      ∀ key,
        (combineAll? (ofKey key selections)).map
            (fun whole => whole.selecting (merge whole.nested)) =
          (combineAll? (ofKey key others)).map
            (fun whole => whole.selecting (merge whole.nested))) :
    merge selections = merge others := by
  have sameKey :
      ∀ key, ofKey key (merge selections) = ofKey key (merge others) := by
    intro key
    rw [ofKey_merge, ofKey_merge, sameInside]
  calc
    merge selections
        = ((merge selections).map responseKey).flatMap
            (ofKey · (merge selections)) :=
      (flatMap_ofKey_eq (nodup_merge selections)).symm
    _ = ((merge others).map responseKey).flatMap (ofKey · (merge others)) := by
      rw [map_responseKey_merge, map_responseKey_merge, sameKeys]
      exact List.flatMap_congr fun key _ => sameKey key
    _ = merge others :=
      flatMap_ofKey_eq (nodup_merge others)

theorem mem_group_of_combineAll?
    (isWhole : combineAll? (ofKey key selections) = some selection) :
    selection ∈ group selections :=
  List.mem_of_find?_eq_some ((find?_group selections key).trans isWhole)

/-- What comes first may be merged before it is merged with the rest. -/
theorem merge_merge_append (first second : List FieldSelection) :
    merge (merge first ++ second) = merge (first ++ second) := by
  induction first using merge.induct generalizing second with
  | case1 first inductionHypothesis =>
      refine merge_congr ?_ fun key => ?_
      · rw [List.map_append, map_responseKey_merge, eraseDups_eraseDups_append,
          List.map_append]
      · rw [ofKey_append, combineAll?_append, ofKey_merge, combineAll?_toList,
          ofKey_append, combineAll?_append]
        cases isFirst : combineAll? (ofKey key first) with
        | none =>
            rfl
        | some whole =>
            have mergedBefore :=
              inductionHypothesis ⟨whole, mem_group_of_combineAll? isFirst⟩
            cases combineAll? (ofKey key second) with
            | none =>
                have mergedTwice := mergedBefore []
                rw [List.append_nil, List.append_nil] at mergedTwice
                simp [Option.merge, selecting, mergedTwice]
            | some behind =>
                simp [Option.merge, selecting, combine,
                  mergedBefore behind.nested]

/-- What comes last may be merged before it is merged with the rest. -/
theorem merge_append_merge (first second : List FieldSelection) :
    merge (first ++ merge second) = merge (first ++ second) := by
  induction second using merge.induct generalizing first with
  | case1 second inductionHypothesis =>
      refine merge_congr ?_ fun key => ?_
      · rw [List.map_append, map_responseKey_merge, eraseDups_append_eraseDups,
          List.map_append]
      · rw [ofKey_append, combineAll?_append, ofKey_merge, combineAll?_toList,
          ofKey_append, combineAll?_append]
        cases isSecond : combineAll? (ofKey key second) with
        | none =>
            rfl
        | some whole =>
            have mergedBefore :=
              inductionHypothesis ⟨whole, mem_group_of_combineAll? isSecond⟩
            cases combineAll? (ofKey key first) with
            | none =>
                have mergedTwice := mergedBefore []
                rw [List.nil_append, List.nil_append] at mergedTwice
                simp [Option.merge, selecting, mergedTwice]
            | some before =>
                simp [Option.merge, selecting, combine,
                  mergedBefore before.nested]

/-! Merging as a normal form. -/

/-- Merging a list merges inside what the selections of one response key select, put together. -/
def MergedInside (inner outer : List FieldSelection) : Prop :=
  ∃ whole ∈ group outer, inner = whole.nested

/-- Merging ends: it never goes inside for ever. -/
theorem wellFounded_mergedInside : WellFounded MergedInside := by
  refine Subrelation.wf ?_ (measure sizeAll).wf
  rintro inner outer ⟨whole, isWhole, rfl⟩
  exact Nat.lt_of_lt_of_le (sizeAll_nested_lt_of_mem isWhole)
    (sizeAll_group_le outer)

/-- What a grouped selection selects is what all selections of its response key select. -/
theorem nested_of_mem_group
    (isWhole : selection ∈ group selections) :
    selection.nested =
      (ofKey selection.responseKey selections).flatMap nested := by
  have isTogether := combineAll?_of_mem_group isWhole
  cases sharing : ofKey selection.responseKey selections with
  | nil =>
      rw [sharing] at isTogether
      cases isTogether
  | cons first rest =>
      rw [sharing, combineAll?] at isTogether
      rw [List.flatMap_cons, ← nested_foldl_combine,
        Option.some.inj isTogether]

/--
Merging is a normal form that may be reached part by part. It ends, although it
goes on with sub-selections that are put together. At every level each response
key is left once, where it stood first. Merging either part of a list beforehand
changes nothing, nor does merging again.
-/
theorem merging_is_piecewise (first second : List FieldSelection) :
    WellFounded MergedInside ∧
      merge first =
        (group first).map (fun whole =>
          whole.selecting
            (merge ((ofKey whole.responseKey first).flatMap nested))) ∧
      (∀ path,
        ((under path (merge first)).map responseKey).Nodup ∧
          (under path (merge first)).map responseKey =
            ((under path first).map responseKey).eraseDups) ∧
      merge (merge first ++ second) = merge (first ++ second) ∧
      merge (first ++ merge second) = merge (first ++ second) ∧
      merge (merge first) = merge first := by
  refine
    ⟨wellFounded_mergedInside, ?_, fun path => ?_,
      merge_merge_append first second, merge_append_merge first second, ?_⟩
  · rw [merge_eq]
    exact List.map_congr_left fun whole isWhole => by
      rw [nested_of_mem_group isWhole]
  · rw [under_merge]
    exact ⟨nodup_merge _, map_responseKey_merge _⟩
  · simpa using merge_merge_append first []

end GraphGate.FieldSelection
