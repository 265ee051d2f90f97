import GraphGate.Response.Shaping
import Mathlib.Data.List.Forall2

namespace GraphGate.Completion

/-!
# How completions compose

A completion carries a value, or a null that moves up, together with the
failures found on the way. Going on with a completion keeps every failure that
it has, and a null that moves up skips whatever would have come next. A list is
completed item by item, so what holds of it is what holds of its items.
-/

variable {α β γ : Type}

/-- Completions are equal if their values and their failures are. -/
theorem ext
    {first second : Completion α}
    (values : first.value = second.value)
    (errors : first.errors = second.errors) :
    first = second := by
  cases first
  cases second
  simp_all

@[simp] theorem value_pure (value : α) :
    (pure value : Completion α).value = some value :=
  rfl

@[simp] theorem errors_pure (value : α) :
    (pure value : Completion α).errors = [] :=
  rfl

@[simp] theorem pure_eq (value : α) :
    Completion.pure value = (pure value : Completion α) :=
  rfl

@[simp] theorem bind_eq (first : Completion α) (next : α → Completion β) :
    first.bind next = first >>= next :=
  rfl

/-- The value behind a step is the value of what the step goes on with. -/
@[simp] theorem value_bind (first : Completion α) (next : α → Completion β) :
    (first >>= next).value =
      first.value.bind fun value => (next value).value := by
  change (first.bind next).value = _
  unfold Completion.bind
  cases first.value <;> rfl

/-- A null that moves up skips the next step. -/
theorem bind_of_none
    {first : Completion α}
    (moves : first.value = none)
    (next : α → Completion β) :
    first >>= next = ⟨none, first.errors⟩ := by
  change first.bind next = _
  simp [Completion.bind, moves]

/-- A value is handed on, and the failures of both steps are kept in order. -/
theorem bind_of_some
    {first : Completion α}
    {value : α}
    (found : first.value = some value)
    (next : α → Completion β) :
    first >>= next =
      ⟨(next value).value, first.errors ++ (next value).errors⟩ := by
  change first.bind next = _
  simp [Completion.bind, found]

/-- Going on keeps the failures found so far. -/
theorem errors_subset_bind (first : Completion α) (next : α → Completion β) :
    first.errors ⊆ (first >>= next).errors := by
  cases found : first.value with
  | none =>
      simp [bind_of_none found]
  | some value =>
      simp [bind_of_some found]

/-- Steps may be bracketed in either way. -/
theorem bind_assoc
    (first : Completion α)
    (second : α → Completion β)
    (third : β → Completion γ) :
    first >>= second >>= third =
      first >>= fun value => second value >>= third := by
  refine ext (by simp [Option.bind_assoc]) ?_
  cases found : first.value with
  | none =>
      simp [bind_of_none found, bind_of_none]
  | some value =>
      rw [bind_of_some found (fun value => second value >>= third)]
      cases next : (second value).value with
      | none =>
          have moves : (first >>= second).value = none := by
            simp [found, next]
          rw [bind_of_none moves, bind_of_none next, bind_of_some found]
      | some other =>
          have kept : (first >>= second).value = some other := by
            simp [found, next]
          rw [bind_of_some kept, bind_of_some next, bind_of_some found]
          exact List.append_assoc _ _ _

/-- Handing a value on unchanged changes nothing. -/
theorem bind_pure (completion : Completion α) :
    completion >>= pure = completion := by
  cases found : completion.value with
  | none =>
      rw [bind_of_none found]
      exact ext found.symm rfl
  | some value =>
      rw [bind_of_some found]
      exact ext found.symm (List.append_nil _)

instance : LawfulMonad Completion :=
  LawfulMonad.mk' Completion bind_pure
    (fun value next => bind_of_some (value_pure value) next)
    bind_assoc

@[simp] theorem value_map (change : α → β) (completion : Completion α) :
    (change <$> completion).value = completion.value.map change := by
  rw [← bind_pure_comp, value_bind]
  cases completion.value <;> rfl

@[simp] theorem errors_map (change : α → β) (completion : Completion α) :
    (change <$> completion).errors = completion.errors := by
  rw [← bind_pure_comp]
  cases found : completion.value with
  | none =>
      simp [bind_of_none found]
  | some value =>
      simp [bind_of_some found]

/-! What a list of completions gives. -/

/-- The values of a list are the values of its items, unless a null moves up from one. -/
theorem value_mapM (each : α → Completion β) (items : List α) :
    (items.mapM each).value = items.mapM fun item => (each item).value := by
  induction items with
  | nil =>
      rfl
  | cons item rest inductionHypothesis =>
      simp only [List.mapM_cons, value_bind, value_pure, inductionHypothesis]
      rfl

/-- Behind an item that has a value, the rest of the list is completed. -/
theorem mapM_cons_of_some
    {each : α → Completion β}
    {item : α}
    {value : β}
    (found : (each item).value = some value)
    (rest : List α) :
    (item :: rest).mapM each =
      ⟨(rest.mapM each).value.map (value :: ·),
        (each item).errors ++ (rest.mapM each).errors⟩ := by
  rw [List.mapM_cons, bind_of_some found]
  refine ext ?_ ?_
  · cases others : (rest.mapM each).value <;> simp [others]
  · cases others : (rest.mapM each).value with
    | none =>
        simp [bind_of_none others]
    | some values =>
        simp [bind_of_some others]

/-- If a null moves up from a list, it moves up from one of its items. -/
theorem exists_of_mapM_none
    {each : α → Completion β}
    {items : List α}
    (moves : (items.mapM each).value = none) :
    ∃ item ∈ items,
      (each item).value = none ∧
        (each item).errors ⊆ (items.mapM each).errors := by
  induction items with
  | nil =>
      simp at moves
  | cons item rest inductionHypothesis =>
      cases found : (each item).value with
      | none =>
          rw [List.mapM_cons]
          exact ⟨item, List.mem_cons_self, found, errors_subset_bind _ _⟩
      | some value =>
          rw [mapM_cons_of_some found] at moves ⊢
          obtain ⟨other, member, otherMoves, kept⟩ :=
            inductionHypothesis (Option.map_eq_none_iff.mp moves)
          exact ⟨other, List.mem_cons_of_mem item member, otherMoves,
            List.Subset.trans kept (List.subset_append_right _ _)⟩

/-- If a list has a value, every item has one, and every failure of an item is kept. -/
theorem forall₂_of_mapM_some
    {each : α → Completion β}
    {items : List α}
    {values : List β}
    (found : (items.mapM each).value = some values) :
    List.Forall₂
      (fun item value =>
        (each item).value = some value ∧
          (each item).errors ⊆ (items.mapM each).errors)
      items values := by
  induction items generalizing values with
  | nil =>
      simp at found
      subst values
      exact .nil
  | cons item rest inductionHypothesis =>
      cases first : (each item).value with
      | none =>
          simp [List.mapM_cons, first] at found
      | some value =>
          rw [mapM_cons_of_some first] at found ⊢
          obtain ⟨others, restFound, rfl⟩ := Option.map_eq_some_iff.mp found
          refine .cons ⟨first, List.subset_append_left _ _⟩ ?_
          exact (inductionHypothesis restFound).imp
            fun _ _ entry =>
              ⟨entry.1,
                List.Subset.trans entry.2 (List.subset_append_right _ _)⟩

/-- Items are shaped one after another, each at its own place. -/
theorem items_eq_mapM
    (each : Json → FieldPath → Completion ResultNode)
    (path : FieldPath)
    (index : Nat)
    (values : List Json) :
    items each path index values =
      (values.zipIdx index).mapM fun item =>
        each item.1 (path.index item.2) := by
  induction values generalizing index with
  | nil =>
      rfl
  | cons value rest inductionHypothesis =>
      simp only [items, List.zipIdx_cons, List.mapM_cons, inductionHypothesis]

/-- What stands at a position of a completed list comes from the item at that position. -/
theorem getElem?_of_mapM_some
    {each : α → Completion β}
    {items : List α}
    {values : List β}
    (found : (items.mapM each).value = some values)
    {index : Nat}
    {value : β}
    (present : values[index]? = some value) :
    ∃ item,
      items[index]? = some item ∧
        (each item).value = some value ∧
        (each item).errors ⊆ (items.mapM each).errors := by
  have related := forall₂_of_mapM_some found
  generalize (items.mapM each).errors = errors at related
  clear found
  induction related generalizing index with
  | nil =>
      simp at present
  | @cons item first items values entry others inductionHypothesis =>
      cases index with
      | zero =>
          cases present
          exact ⟨item, rfl, entry⟩
      | succ index =>
          exact inductionHypothesis present

variable {each : Json → FieldPath → Completion ResultNode}
variable {path : FieldPath} {values : List Json} {nodes : List ResultNode}

/-- What stands at a position of a shaped list is the shape of the value there. -/
theorem getElem?_of_items_some
    (found : (items each path 0 values).value = some nodes)
    {index : Nat}
    {node : ResultNode}
    (present : nodes[index]? = some node) :
    ∃ value,
      values[index]? = some value ∧
        (each value (path.index index)).value = some node ∧
        (each value (path.index index)).errors ⊆
          (items each path 0 values).errors := by
  rw [items_eq_mapM] at found ⊢
  obtain ⟨⟨value, place⟩, placed, shaped, kept⟩ :=
    getElem?_of_mapM_some found present
  simp only [List.getElem?_zipIdx, Option.map_eq_some_iff, Prod.mk.injEq,
    Nat.zero_add] at placed
  obtain ⟨_, valueFound, rfl, rfl⟩ := placed
  exact ⟨_, valueFound, shaped, kept⟩

/-- If a null moves up from a shaped list, it moves up from one of its positions. -/
theorem exists_of_items_none
    (moves : (items each path 0 values).value = none) :
    ∃ index value,
      values[index]? = some value ∧
        (each value (path.index index)).value = none ∧
        (each value (path.index index)).errors ⊆
          (items each path 0 values).errors := by
  rw [items_eq_mapM] at moves ⊢
  obtain ⟨⟨value, index⟩, member, itemMoves, kept⟩ := exists_of_mapM_none moves
  have placed := List.mem_zipIdx_iff_getElem?.mp member
  exact ⟨index, value, placed, itemMoves, kept⟩

/-- A list is null, has the shapes of its items, or is reported and given up. -/
theorem listOf_outcome
    (field : String)
    (each : Json → FieldPath → Completion ResultNode)
    (value : Json)
    (path : FieldPath) :
    (value = .null ∧ listOf field each value path = pure .null) ∨
      (∃ values,
        value = .array values ∧
          listOf field each value path =
            .list <$> items each path 0 values) ∨
      (value.isNull = false ∧
        ∃ cause, listOf field each value path = fail cause path) := by
  cases value with
  | null =>
      exact .inl ⟨rfl, rfl⟩
  | array values =>
      exact .inr (.inl ⟨values, rfl, by simp [listOf]⟩)
  | bool value =>
      exact .inr (.inr ⟨rfl, .invalidValue field .list (.bool value), rfl⟩)
  | number value =>
      exact .inr (.inr ⟨rfl, .invalidValue field .list (.number value), rfl⟩)
  | string value =>
      exact .inr (.inr ⟨rfl, .invalidValue field .list (.string value), rfl⟩)
  | object members =>
      exact .inr (.inr ⟨rfl, .invalidValue field .list (.object members), rfl⟩)

/-! Places that may be null, and places that must not be. -/

@[simp] theorem value_fail (cause : FetchError) (path : FieldPath) :
    (fail cause path : Completion α).value = none :=
  rfl

@[simp] theorem value_absorb (completion : Completion ResultNode) :
    (absorb completion).value = some (completion.value.getD .null) :=
  rfl

@[simp] theorem errors_absorb (completion : Completion ResultNode) :
    (absorb completion).errors = completion.errors :=
  rfl

/-- A place that must not be null has the value that was found, if that is none. -/
theorem value_require_eq_some_iff
    {field : String}
    {completion : Completion ResultNode}
    {node : ResultNode} :
    (require field path completion).value = some node ↔
      completion.value = some node ∧ node.isNull = false := by
  simp only [require, bind_eq, value_bind, Option.bind_eq_some_iff]
  constructor
  · rintro ⟨found, isFound, kept⟩
    split at kept
    · cases kept
    · rename_i notNull
      cases kept
      exact ⟨isFound, by simpa using notNull⟩
  · rintro ⟨isFound, notNull⟩
    exact ⟨node, isFound, by simp [notNull]⟩

/-- A place that must not be null sends a null up for a null, and for a null that moves up. -/
theorem value_require_eq_none_iff
    {field : String}
    {completion : Completion ResultNode} :
    (require field path completion).value = none ↔
      completion.value = none ∨
        ∃ node, completion.value = some node ∧ node.isNull = true := by
  cases found : completion.value with
  | none =>
      simp [require, found]
  | some node =>
      cases null : node.isNull <;> simp [require, found, null]

/-- A place that must not be null keeps the failures found on the way. -/
theorem errors_subset_require
    (field : String)
    (path : FieldPath)
    (completion : Completion ResultNode) :
    completion.errors ⊆ (require field path completion).errors :=
  errors_subset_bind _ _

/-! Values shaped after a type. -/

variable {field : String} {named : String → Json → FieldPath → Completion ResultNode}

/-- Null is shaped to null inside every type. -/
theorem attempt_null (type : TypeRef) (path : FieldPath) :
    attempt field named type .null path = pure .null := by
  cases type with
  | named name =>
      rfl
  | list item =>
      rw [attempt_list]
      rfl
  | nonNull inner =>
      rfl

/-! A value other than null is shaped as a named type is, also inside marks that exclude null. -/

theorem attempt_named
    {name : String}
    {value : Json}
    (notNull : value.isNull = false)
    (path : FieldPath) :
    attempt field named (.named name) value path = named name value path := by
  simp only [attempt, notNull, Bool.false_eq_true, if_false]

theorem attempt_nonNull
    {inner : TypeRef}
    {value : Json}
    (notNull : value.isNull = false)
    (path : FieldPath) :
    attempt field named (.nonNull inner) value path =
      require field path (attempt field named inner value path) := by
  simp only [attempt, notNull, Bool.false_eq_true, if_false]

/--
A place that must not be null is shaped as inside its type, unless the value is
null itself.
-/
theorem complete_nonNull
    {inner : TypeRef}
    {value : Json}
    (notNull : value.isNull = false)
    (path : FieldPath) :
    complete field named (.nonNull inner) value path =
      attempt field named (.nonNull inner) value path := by
  rw [complete, attempt_nonNull notNull]

/-- Null has no shape where null is excluded. -/
theorem complete_nonNull_null (inner : TypeRef) (path : FieldPath) :
    complete field named (.nonNull inner) .null path =
      fail (.nullValue field) path := by
  rw [complete, attempt_null]
  rfl

/-- A place that may be null has the shape found inside its type, or null. -/
theorem complete_nullable
    {type : TypeRef}
    (nullable : type.isNonNull = false)
    (value : Json)
    (path : FieldPath) :
    complete field named type value path =
      absorb (attempt field named type value path) := by
  cases type with
  | named name =>
      rfl
  | list item =>
      rfl
  | nonNull inner =>
      cases nullable

/--
A value is shaped as inside its type. Where null is excluded, null itself is
refused, and where it is not, a null that moves up is stopped.
-/
theorem complete_eq
    (type : TypeRef)
    (value : Json)
    (path : FieldPath) :
    complete field named type value path =
      if type.isNonNull then
        if value.isNull then
          fail (.nullValue field) path
        else
          attempt field named type value path
      else
        absorb (attempt field named type value path) := by
  cases type with
  | named name =>
      exact complete_nullable rfl value path
  | list item =>
      exact complete_nullable rfl value path
  | nonNull inner =>
      simp only [TypeRef.isNonNull, if_true]
      split
      · rename_i isNull
        cases value <;> cases isNull
        exact complete_nonNull_null inner path
      · rename_i notNull
        exact complete_nonNull (by simpa using notNull) path

/-- A null moves up from a place only if the type there excludes null. -/
theorem isNonNull_of_complete_none
    {type : TypeRef}
    {value : Json}
    (moves : (complete field named type value path).value = none) :
    type.isNonNull = true := by
  cases nullable : type.isNonNull with
  | true =>
      rfl
  | false =>
      simp [complete_nullable nullable] at moves

end GraphGate.Completion
