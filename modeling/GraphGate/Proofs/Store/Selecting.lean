import GraphGate.Proofs.Compilation.Acceptance
import GraphGate.Proofs.Store.Answer
import Mathlib.Data.List.Nodup

namespace GraphGate

/-!
# The documents that a selection asks for

The arguments of a selection compile to filters and to a part of the documents.
A query that reads them selects just the documents that the selection asks for
in the store, provided that no argument is given twice.
-/

namespace CompiledArguments

variable {parentType field : String}

/-- A count that is accepted is the number that the value stands for, if any. -/
theorem eq_unsigned?_of_count
    {argument : String}
    {value : Json}
    {result : Option Nat}
    (counted : count parentType field argument value = .ok result) :
    result = value.unsigned? := by
  unfold count at counted
  split at counted
  · rename_i isNull
    cases counted
    cases value <;> cases isNull
    rfl
  · cases number : value.unsigned? with
    | none =>
        simp [number] at counted
    | some found =>
        simp only [number, Except.ok.injEq] at counted
        exact counted.symm

/-- The filters, the limit and the offset that some arguments add to others. -/
structure Extends
    (before after : CompiledArguments)
    (arguments : List (String × Json)) : Prop where
  filters : after.filters =
    before.filters ++
      (arguments.filter Store.isFilter).map fun argument =>
        ⟨argument.1, argument.2⟩
  limit : after.pagination.limit =
    ((Table.get? arguments limitArgument).map Json.unsigned?).getD
      before.pagination.limit
  offset : after.pagination.offset =
    ((Table.get? arguments offsetArgument).map Json.unsigned?).getD
      before.pagination.offset

/-- A single argument is a count or a filter. -/
theorem extends_of_add
    {before after : CompiledArguments}
    {argument : String × Json}
    (added : add parentType field before argument = .ok after) :
    Extends before after [argument] := by
  obtain ⟨name, value⟩ := argument
  simp only [add] at added
  split at added
  · rename_i isLimit
    obtain ⟨limit, counted, returned⟩ := Success.bind_eq_ok_iff.mp added
    cases returned
    rw [eq_unsigned?_of_count counted]
    subst isLimit
    exact ⟨by simp [Store.isFilter], by simp [Table.get?_cons],
      by simp [Table.get?_cons, limitArgument, offsetArgument]⟩
  · rename_i notLimit
    split at added
    · rename_i isOffset
      obtain ⟨offset, counted, returned⟩ := Success.bind_eq_ok_iff.mp added
      cases returned
      rw [eq_unsigned?_of_count counted]
      subst isOffset
      exact ⟨by simp [Store.isFilter],
        by simp [Table.get?_cons, limitArgument, offsetArgument],
        by simp [Table.get?_cons]⟩
    · rename_i notOffset
      cases added
      exact ⟨by simp [Store.isFilter, notLimit, notOffset],
        by simp [Table.get?_cons, notLimit],
        by simp [Table.get?_cons, notOffset]⟩

/-- The filters of a selection are its arguments that are no counts, in their order. -/
theorem filters_of_ofSelection
    {selection : FieldSelection}
    {arguments : CompiledArguments}
    (read : ofSelection parentType selection = .ok arguments) :
    arguments.filters =
      (selection.arguments.filter Store.isFilter).map fun argument =>
        ⟨argument.1, argument.2⟩ := by
  refine Success.foldlM_induction
    (motive := fun passed state =>
      state.filters =
        (passed.filter Store.isFilter).map fun argument =>
          ⟨argument.1, argument.2⟩)
    read rfl ?_
  intro passed argument before after added known
  rw [(extends_of_add added).filters, known, List.filter_append,
    List.map_append]

/-- Arguments of different names are taken in one by one. -/
theorem extends_of_foldlM
    {arguments : List (String × Json)}
    (distinct : (arguments.map Prod.fst).Nodup)
    {before after : CompiledArguments}
    (folded : arguments.foldlM (add parentType field) before = .ok after) :
    Extends before after arguments := by
  induction arguments generalizing before with
  | nil =>
      cases folded
      exact ⟨by simp, by simp, by simp⟩
  | cons argument rest inductionHypothesis =>
      obtain ⟨name, value⟩ := argument
      obtain ⟨fresh, restDistinct⟩ := List.nodup_cons.mp distinct
      rw [List.foldlM_cons, Success.bind_eq_ok_iff] at folded
      obtain ⟨next, added, folded⟩ := folded
      have first := extends_of_add added
      have others := inductionHypothesis restDistinct folded
      have absent : Table.get? rest name = .none :=
        (Table.get?_eq_none_iff rest name).mpr fresh
      have counts (other : String) (start : Option Nat) :
          ((Table.get? rest other).map Json.unsigned?).getD
              (((Table.get? [(name, value)] other).map
                Json.unsigned?).getD start) =
            ((Table.get? ((name, value) :: rest) other).map
              Json.unsigned?).getD start := by
        by_cases same : name = other
        · simp [← same, absent, Table.get?_cons]
        · simp [same, Table.get?_cons]
      refine ⟨?_, ?_, ?_⟩
      · rw [others.filters, first.filters, List.append_assoc,
          ← List.map_append, ← List.filter_append, List.singleton_append]
      · rw [others.limit, first.limit, counts]
      · rw [others.offset, first.offset, counts]

/-- What the arguments of a selection compile to. -/
theorem extends_none_of_ofSelection
    {selection : FieldSelection}
    {arguments : CompiledArguments}
    (distinct : (selection.arguments.map Prod.fst).Nodup)
    (read : ofSelection parentType selection = .ok arguments) :
    Extends CompiledArguments.none arguments selection.arguments :=
  extends_of_foldlM distinct read

end CompiledArguments

namespace Store

variable {store : Store} {selection : FieldSelection}
variable {arguments : CompiledArguments}

/-- A filter keeps the documents that the argument asks for. -/
theorem passes_eq
    (compiled :
      CompiledArguments.Extends .none arguments selection.arguments)
    (document : Json) :
    store.passes arguments.filters document =
      store.matchesFilters selection document := by
  simp only [passes, compiled.filters, CompiledArguments.none,
    List.nil_append, List.all_map]
  rfl

theorem limit_eq
    (compiled :
      CompiledArguments.Extends .none arguments selection.arguments) :
    arguments.pagination.limit =
      count? selection CompiledArguments.limitArgument := by
  rw [compiled.limit, count?]
  cases Table.get? selection.arguments CompiledArguments.limitArgument <;> rfl

theorem offset_eq
    (compiled :
      CompiledArguments.Extends .none arguments selection.arguments) :
    arguments.pagination.offset =
      count? selection CompiledArguments.offsetArgument := by
  rw [compiled.offset, count?]
  cases Table.get? selection.arguments CompiledArguments.offsetArgument <;> rfl

/-- All documents are limited as the selection asks for. -/
theorem part_many
    (compiled :
      CompiledArguments.Extends .none arguments selection.arguments)
    (documents : List Json) :
    part .many arguments.pagination
        (documents.filter (store.passes arguments.filters)) =
      store.selected selection documents := by
  have passes : store.passes arguments.filters = _ :=
    funext (passes_eq compiled)
  simp only [part, selected, offset_eq compiled, limit_eq compiled, passes]
  cases count? selection CompiledArguments.offsetArgument <;>
    cases count? selection CompiledArguments.limitArgument <;> rfl

/-- The first document is the first of those that the selection asks for. -/
theorem head?_part_one
    (compiled :
      CompiledArguments.Extends .none arguments selection.arguments)
    (documents : List Json) :
    (part .one arguments.pagination
        (documents.filter (store.passes arguments.filters))).head? =
      (store.selected selection documents).head? := by
  have passes : store.passes arguments.filters = _ :=
    funext (passes_eq compiled)
  simp only [part, selected, offset_eq compiled, limit_eq compiled, passes]
  cases count? selection CompiledArguments.offsetArgument <;>
    cases count? selection CompiledArguments.limitArgument <;>
    simp [List.head?_take, DocumentsFragment.defaultLimit, unboundedLimit]

/-- What a sub-query of one fragment returns is what the selection picks in the store. -/
theorem subquery_eq_pick
    (compiled :
      CompiledArguments.Extends .none arguments selection.arguments)
    {type : TypeRef}
    {cardinality : Cardinality}
    (cardinalities : cardinality = .many ↔ type.isList = true)
    (documents : List Json)
    (record : Json → Json) :
    subquery cardinality
        ((part cardinality arguments.pagination
          (documents.filter (store.passes arguments.filters))).map record) =
      (store.pick type selection documents).toJson record := by
  cases cardinality with
  | many =>
      rw [pick, if_pos (cardinalities.mp rfl), part_many compiled]
      rfl
  | one =>
      have single : ¬ type.isList = true :=
        fun isList => nomatch cardinalities.mpr isList
      rw [pick, if_neg single, subquery, List.head?_map,
        head?_part_one compiled]
      cases (store.selected selection documents).head? <;> rfl

end Store

end GraphGate
