import GraphGate.Schema.Error
import Mathlib.Data.List.Forall2

namespace GraphGate.Success

/-!
# Steps that succeed

Checks and loads are steps that may fail. Here is what it means that several
steps succeed: one after another, the same one on every item of a list, and a
state carried along a list.
-/

variable {ε α β γ σ : Type}

/-- Two steps succeed exactly if the first one does, and the second one on its value. -/
theorem bind_eq_ok_iff
    {first : Except ε α}
    {next : α → Except ε β}
    {result : β} :
    first >>= next = .ok result ↔
      ∃ value, first = .ok value ∧ next value = .ok result := by
  cases first with
  | error cause =>
      simp [bind, Except.bind]
  | ok value =>
      simp [bind, Except.bind]

/-- Two steps whose values are put together succeed exactly if each of them does. -/
theorem bind_bind_pure_eq_ok_iff
    {first : Except ε α}
    {second : Except ε β}
    {join : α → β → γ}
    {result : γ} :
    (first >>= fun left => second >>= fun right => pure (join left right)) =
        .ok result ↔
      ∃ left right,
        first = .ok left ∧ second = .ok right ∧ join left right = result := by
  cases first with
  | error cause =>
      simp [bind, Except.bind]
  | ok left =>
      cases second with
      | error cause =>
          simp [bind, Except.bind]
      | ok right =>
          simp [bind, Except.bind, pure, Except.pure]

/-- Whether a step succeeds with a given value. -/
instance decidableEqOk [DecidableEq α] (result : Except ε α) (value : α) :
    Decidable (result = .ok value) :=
  match result with
  | .ok found =>
      decidable_of_iff (found = value) ⟨congrArg _, Except.ok.inj⟩
  | .error _ => isFalse nofun

/-- A check of a list succeeds exactly if it does on every item. -/
theorem forM_eq_ok_iff
    {check : α → Except ε Unit}
    {items : List α} :
    items.forM check = .ok () ↔ ∀ item ∈ items, check item = .ok () := by
  induction items with
  | nil =>
      simp [pure, Except.pure]
  | cons item rest inductionHypothesis =>
      have unfolded :
          (item :: rest).forM check =
            check item >>= fun _ => rest.forM check :=
        rfl
      rw [unfolded, bind_eq_ok_iff, List.forall_mem_cons]
      constructor
      · rintro ⟨_, first, others⟩
        exact ⟨first, inductionHypothesis.mp others⟩
      · rintro ⟨first, others⟩
        exact ⟨(), first, inductionHypothesis.mpr others⟩

/-- Every item gives a value exactly if each of them does. -/
theorem exists_mapM_iff
    {run : α → Except ε β}
    {items : List α} :
    (∃ results, items.mapM run = .ok results) ↔
      ∀ item ∈ items, ∃ result, run item = .ok result := by
  induction items with
  | nil =>
      simp [pure, Except.pure]
  | cons item rest inductionHypothesis =>
      rw [List.mapM_cons, List.forall_mem_cons, ← inductionHypothesis]
      constructor
      · intro ran
        obtain ⟨results, ran⟩ := ran
        obtain ⟨result, others, isResult, areOthers, -⟩ :=
          bind_bind_pure_eq_ok_iff.mp ran
        exact ⟨⟨result, isResult⟩, others, areOthers⟩
      · intro each
        obtain ⟨⟨result, isResult⟩, others, areOthers⟩ := each
        exact ⟨result :: others, bind_bind_pure_eq_ok_iff.mpr
          ⟨result, others, isResult, areOthers, rfl⟩⟩

/-- The values of all items are those of each of them, in order. -/
theorem mapM_eq_ok_iff
    {run : α → Except ε β}
    {items : List α}
    {results : List β} :
    items.mapM run = .ok results ↔
      List.Forall₂ (fun item result => run item = .ok result) items results := by
  induction items generalizing results with
  | nil =>
      simp [pure, Except.pure, eq_comm]
  | cons item rest inductionHypothesis =>
      rw [List.mapM_cons, bind_bind_pure_eq_ok_iff]
      constructor
      · rintro ⟨result, others, isResult, areOthers, rfl⟩
        exact .cons isResult (inductionHypothesis.mp areOthers)
      · rintro (_ | ⟨isResult, areOthers⟩)
        exact ⟨_, _, isResult, inductionHypothesis.mpr areOthers, rfl⟩

/-- Values of a list are missing because of the first item that gives none. -/
theorem mapM_eq_error_iff
    {run : α → Except ε β}
    {items : List α}
    {cause : ε} :
    items.mapM run = .error cause ↔
      ∃ earlier item later,
        items = earlier ++ item :: later ∧
          (∀ other ∈ earlier, ∃ result, run other = .ok result) ∧
          run item = .error cause := by
  induction items with
  | nil =>
      simp [pure, Except.pure]
  | cons first rest inductionHypothesis =>
      rw [List.mapM_cons]
      cases ran : run first with
      | error other =>
          constructor
          · rintro ⟨⟩
            exact ⟨[], first, rest, rfl, List.forall_mem_nil _, ran⟩
          · rintro ⟨_ | ⟨head, earlier⟩, item, later, whole, each, failed⟩
            · cases whole
              rw [ran] at failed
              cases failed
              rfl
            · cases whole
              obtain ⟨result, isResult⟩ := each first List.mem_cons_self
              rw [ran] at isResult
              cases isResult
      | ok value =>
          have onward :
              ((Except.ok value : Except ε β) >>= fun result =>
                  rest.mapM run >>= fun others => pure (result :: others)) =
                .error cause ↔
                rest.mapM run = .error cause := by
            cases rest.mapM run with
            | error other =>
                simp [bind, Except.bind]
            | ok others =>
                simp [bind, Except.bind, pure, Except.pure]
          rw [onward, inductionHypothesis]
          constructor
          · rintro ⟨earlier, item, later, rfl, each, failed⟩
            refine ⟨first :: earlier, item, later, rfl, ?_, failed⟩
            rw [List.forall_mem_cons]
            exact ⟨⟨value, ran⟩, each⟩
          · rintro ⟨_ | ⟨head, earlier⟩, item, later, whole, each, failed⟩
            · cases whole
              rw [ran] at failed
              cases failed
            · cases whole
              rw [List.forall_mem_cons] at each
              exact ⟨earlier, item, later, rfl, each.2, failed⟩

/-- The refusal of an item that was found. -/
def refuse (cause : α → ε) : Option α → Except ε Unit
  | some item => .error (cause item)
  | none => .ok ()

/-- A list in which offenders are refused passes exactly if it has none. -/
theorem refuse_find?_eq_ok_iff
    {cause : α → ε}
    {offends : α → Bool}
    {items : List α} :
    refuse cause (items.find? offends) = .ok () ↔
      ∀ item ∈ items, offends item = false := by
  cases found : items.find? offends with
  | none =>
      simpa [refuse] using List.find?_eq_none.mp found
  | some item =>
      refine ⟨nofun, fun harmless => ?_⟩
      have offending := List.find?_some found
      rw [harmless item (List.mem_of_find?_eq_some found)] at offending
      cases offending

/--
What holds at the start, and is kept by every step along a list, holds in the
end. It may speak of the items passed so far.
-/
theorem foldlM_induction
    {step : σ → α → Except ε σ}
    {motive : List α → σ → Prop}
    {items : List α}
    {start result : σ}
    (folded : items.foldlM step start = .ok result)
    (initial : motive [] start)
    (preserved : ∀ passed item before after,
      step before item = .ok after →
      motive passed before →
      motive (passed ++ [item]) after) :
    motive items result := by
  suffices general :
      ∀ (rest passed : List α) (state : σ),
        rest.foldlM step state = .ok result →
        motive passed state →
        motive (passed ++ rest) result from
    general items [] start folded initial
  intro rest
  induction rest with
  | nil =>
      intro passed state finished holds
      simp only [List.foldlM_nil, pure, Except.pure, Except.ok.injEq] at finished
      simpa [finished] using holds
  | cons item rest inductionHypothesis =>
      intro passed state continued holds
      rw [List.foldlM_cons, bind_eq_ok_iff] at continued
      obtain ⟨next, stepped, others⟩ := continued
      have onward :=
        inductionHypothesis (passed ++ [item]) next others
          (preserved passed item state next stepped holds)
      simpa using onward

/--
What every step brings about for its item, and no step undoes for another one,
holds for all items in the end.
-/
theorem forall_of_foldlM
    (known : σ → α → Prop)
    {step : σ → α → Except ε σ}
    {items : List α}
    {start result : σ}
    (folded : items.foldlM step start = .ok result)
    (brought : ∀ item before after,
      step before item = .ok after → known after item)
    (kept : ∀ item other before after,
      step before item = .ok after → known before other → known after other) :
    ∀ item ∈ items, known result item := by
  refine foldlM_induction
    (motive := fun passed state => ∀ item ∈ passed, known state item)
    folded (List.forall_mem_nil _) ?_
  intro passed item before after stepped earlier other isPassed
  rw [List.mem_append, List.mem_singleton] at isPassed
  rcases isPassed with isEarlier | rfl
  · exact kept item other before after stepped (earlier other isEarlier)
  · exact brought other before after stepped

/-- A step fails exactly if it gives no value. -/
theorem exists_error_iff
    {result : Except ε α} :
    (∃ cause, result = .error cause) ↔ ¬ ∃ value, result = .ok value := by
  cases result with
  | error cause =>
      simp
  | ok value =>
      simp

/-- A walk along a list fails in one of its steps, behind others that went well. -/
theorem exists_failing_step
    {step : σ → α → Except ε σ}
    {items : List α}
    {start : σ}
    {cause : ε}
    (failed : items.foldlM step start = .error cause) :
    ∃ passed item rest state,
      passed ++ item :: rest = items ∧
        passed.foldlM step start = .ok state ∧
        step state item = .error cause := by
  induction items generalizing start with
  | nil =>
      cases failed
  | cons item rest inductionHypothesis =>
      rw [List.foldlM_cons] at failed
      cases stepped : step start item with
      | error other =>
          rw [stepped] at failed
          cases failed
          exact ⟨[], item, rest, start, rfl, rfl, stepped⟩
      | ok next =>
          rw [stepped] at failed
          obtain ⟨passed, failing, left, state, isWhole, walked, fails⟩ :=
            inductionHypothesis failed
          refine ⟨item :: passed, failing, left, state, ?_, ?_, fails⟩
          · rw [← isWhole, List.cons_append]
          · rw [List.foldlM_cons, stepped]
            exact walked

/--
A walk along a list succeeds if every step does, given what holds of the items
passed so far, which every step has to keep.
-/
theorem exists_foldlM
    {step : σ → α → Except ε σ}
    {motive : List α → σ → Prop}
    {items : List α}
    {start : σ}
    (initial : motive [] start)
    (progress : ∀ passed item rest before,
      passed ++ item :: rest = items →
      motive passed before →
      ∃ after,
        step before item = .ok after ∧ motive (passed ++ [item]) after) :
    ∃ result, items.foldlM step start = .ok result := by
  suffices general :
      ∀ (rest passed : List α) (state : σ),
        passed ++ rest = items →
        motive passed state →
        ∃ result, rest.foldlM step state = .ok result from
    general items [] start rfl initial
  intro rest
  induction rest with
  | nil =>
      intro passed state _ _
      exact ⟨state, rfl⟩
  | cons item rest inductionHypothesis =>
      intro passed state isWhole holds
      obtain ⟨next, stepped, onward⟩ :=
        progress passed item rest state isWhole holds
      have stillWhole : (passed ++ [item]) ++ rest = items := by
        rw [← isWhole, List.append_assoc, List.singleton_append]
      obtain ⟨result, others⟩ :=
        inductionHypothesis (passed ++ [item]) next stillWhole onward
      refine ⟨result, ?_⟩
      rw [List.foldlM_cons, bind_eq_ok_iff]
      exact ⟨next, stepped, others⟩

/-- A walk along a list succeeds if every step on one of its items does. -/
theorem exists_foldlM_of_mem
    {step : σ → α → Except ε σ}
    {motive : List α → σ → Prop}
    {items : List α}
    {start : σ}
    (initial : motive [] start)
    (progress : ∀ passed item before,
      item ∈ items →
      passed ⊆ items →
      motive passed before →
      ∃ after,
        step before item = .ok after ∧ motive (passed ++ [item]) after) :
    ∃ result, items.foldlM step start = .ok result := by
  refine exists_foldlM (motive := motive) initial ?_
  intro passed item rest before isWhole holds
  refine progress passed item before ?_ ?_ holds
  · rw [← isWhole]
    exact List.mem_append_right _ List.mem_cons_self
  · rw [← isWhole]
    exact List.subset_append_left passed (item :: rest)

end GraphGate.Success
