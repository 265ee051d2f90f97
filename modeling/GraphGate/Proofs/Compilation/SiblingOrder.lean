import GraphGate.Proofs.Compilation.Values
import GraphGate.Proofs.Siblings

namespace GraphGate

/-!
# Compiling siblings in another order

The nested fields of documents are compiled one after another, each for itself,
and so are those of a property. With distinct response keys none is passed over,
so selections that differ in the order of siblings both compile or are both
refused, and what they compile to differs in the order of projections only.
-/

namespace Success

variable {ε α β : Type}

theorem toOption_bind
    (first : Except ε α)
    (next : α → Except ε β) :
    (first >>= next).toOption =
      first.toOption.bind fun value => (next value).toOption := by
  cases first <;> rfl

theorem toOption_map
    (change : α → β)
    (result : Except ε α) :
    (change <$> result).toOption = result.toOption.map change := by
  cases result <;> rfl

theorem toOption_mapM
    (run : α → Except ε β)
    (items : List α) :
    (items.mapM run).toOption = items.mapM fun item => (run item).toOption := by
  induction items with
  | nil =>
      rfl
  | cons item rest inductionHypothesis =>
      simp only [List.mapM_cons, toOption_bind, inductionHypothesis]
      rfl

theorem toOption_eq_some_iff
    {result : Except ε α}
    {value : α} :
    result.toOption = some value ↔ result = .ok value := by
  cases result with
  | error cause =>
      constructor
      · intro found
        cases found
      · intro same
        cases same
  | ok found =>
      exact ⟨fun same => congrArg _ (Option.some.inj same),
        fun same => congrArg _ (Except.ok.inj same)⟩

end Success

/-- Fragments that differ in the order of projections at most, at any depth. -/
inductive QueryFragment.Reorders : QueryFragment → QueryFragment → Prop where
  | property (loop name : String) :
      Reorders (.property loop name) (.property loop name)
  | documents
      {fragment : DocumentsFragment}
      {middle projection : List (String × QueryFragment)}
      (entries : List.Forall₂ (AtOneKey Reorders) fragment.projection middle)
      (permuted : middle.Perm projection) :
      Reorders (.documents fragment)
        (.documents { fragment with projection := projection })

/-- Fragment trees that differ in the order of projections at most. -/
def DocumentsFragment.Reorders (first second : DocumentsFragment) : Prop :=
  (QueryFragment.documents first).Reorders (.documents second)

/-- The projections have the same entries in some order; all else is the same. -/
theorem DocumentsFragment.Reorders.paired
    {first second : DocumentsFragment}
    (reorders : first.Reorders second) :
    Paired (AtOneKey QueryFragment.Reorders) first.projection
        second.projection ∧
      second = { first with projection := second.projection } := by
  cases reorders with
  | documents entries permuted =>
      exact ⟨⟨_, entries, permuted⟩, rfl⟩

namespace Compiler

variable {compiler : Compiler} {resultType : String} {path : List String}
variable {first second : FieldSelection}

/-- The entry of a nested field in the projection of the documents around it. -/
def compileNested
    (compiler : Compiler)
    (resultType : String)
    (scope : Scope)
    (path : List String)
    (nested : FieldSelection) :
    Except UnsupportedSelection (String × QueryFragment) := do
  let owner ← compiler.ownerType resultType nested
  let fragment ← compiler.compileField owner scope path nested
  return (nested.responseKey, fragment)

/-- With distinct response keys, a projection has an entry for each nested field, in order. -/
theorem compileProjection_eq
    {loop : String}
    {nested : List FieldSelection}
    {projection : List (String × QueryFragment)}
    (distinct : (nested.map FieldSelection.responseKey).Nodup)
    (free : ∀ inner ∈ nested, inner.responseKey ∉ Table.keys projection) :
    compiler.compileProjection resultType loop path projection nested =
      (projection ++ ·) <$>
        (nested.filter (!·.isTypename)).mapM
          (compiler.compileNested resultType (.document loop) path) := by
  induction nested generalizing projection with
  | nil =>
      rw [compileProjection]
      simp [Pure.pure, Except.pure, Functor.map, Except.map]
  | cons inner rest inductionHypothesis =>
      obtain ⟨fresh, restDistinct⟩ := List.nodup_cons.mp distinct
      obtain ⟨innerFree, restFree⟩ := List.forall_mem_cons.mp free
      rw [compileProjection]
      cases typename : inner.isTypename with
      | true =>
          simp [typename, inductionHypothesis restDistinct restFree]
      | false =>
          have absent : ¬ Table.has projection inner.responseKey = true :=
            innerFree ∘ (Table.has_iff_mem_keys _ _).mp
          have stillFree (fragment : QueryFragment) :
              ∀ other ∈ rest,
                other.responseKey ∉
                  Table.keys (projection ++ [(inner.responseKey, fragment)]) := by
            intro other member
            have different : other.responseKey ≠ inner.responseKey :=
              fun same => fresh (same ▸ List.mem_map_of_mem member)
            have otherFree := restFree other member
            simp only [Table.keys, List.map_append, List.map_cons,
              List.map_nil, List.mem_append, List.mem_singleton, not_or]
            exact ⟨otherFree, different⟩
          simp only [typename, absent, Bool.false_eq_true, or_self, if_false,
            inductionHypothesis restDistinct (stillFree _), compileNested,
            List.filter_cons, Bool.not_false, if_true, List.mapM_cons,
            bind_assoc, pure_bind, map_bind, map_pure]
          simp only [← bind_pure_comp, List.append_assoc, List.singleton_append]

/-- A finished projection has an entry for each nested field, in order. -/
theorem compileProjection_nested
    {selection : FieldSelection}
    (distinct : selection.HasDistinctKeys)
    (resultType loop : String)
    (path : List String) :
    compiler.compileProjection resultType loop path [] selection.nested =
      (selection.nested.filter (!·.isTypename)).mapM
        (compiler.compileNested resultType (.document loop) path) := by
  rw [compileProjection_eq distinct (by simp [Table.keys])]
  exact id_map _

/-- The fields nested in a property are compiled, and what they compile to is left aside. -/
theorem checkEmbedded_eq
    (embedded : String)
    (nested : List FieldSelection) :
    compiler.checkEmbedded resultType embedded path nested =
      (fun _ => ()) <$>
        (nested.filter (!·.isTypename)).mapM
          (compiler.compileNested resultType (.embedded embedded) path) := by
  induction nested with
  | nil =>
      rw [checkEmbedded]
      rfl
  | cons inner rest inductionHypothesis =>
      rw [checkEmbedded]
      cases typename : inner.isTypename with
      | true =>
          simp [typename, inductionHypothesis]
      | false =>
          simp only [typename, Bool.false_eq_true, if_false,
            inductionHypothesis, compileNested, List.filter_cons,
            Bool.not_false, if_true, List.mapM_cons, bind_assoc, pure_bind,
            map_bind, map_pure]
          simp only [← bind_pure_comp]

/-- A field compiles to its fragment, with what is nested in the field. -/
theorem compileField_eq
    (compiler : Compiler)
    (parentType : String)
    (scope : Scope)
    (keys : List String)
    (selection : FieldSelection) :
    compiler.compileField parentType scope keys selection = do
      let path := keys ++ [selection.responseKey]
      let (field, fragment) ←
        compiler.fieldFragment parentType scope path selection
      let resultType := field.type.namedType
      match fragment with
      | .documents documents =>
          let projection ←
            compiler.compileProjection resultType documents.loop path []
              selection.nested
          return .documents { documents with projection := projection }
      | .property loop property =>
          let embedded := DocumentsFragment.propertyText loop property
          compiler.checkEmbedded resultType embedded path selection.nested
          return .property loop property := by
  cases selection
  rfl

/-- What is nested in a field reaches its own fragment only as present or absent. -/
theorem fieldFragment_eq
    (reorders : first.Reorders second)
    (compiler : Compiler)
    (parentType : String)
    (scope : Scope)
    (path : List String) :
    compiler.fieldFragment parentType scope path first =
      compiler.fieldFragment parentType scope path second := by
  simp only [fieldFragment, checkSelected, CompiledArguments.ofSelection,
    reorders.sameName, reorders.sameArguments, reorders.isEmpty_nested]

theorem ownerType_eq
    (reorders : first.Reorders second)
    (compiler : Compiler)
    (resultType : String) :
    compiler.ownerType resultType first =
      compiler.ownerType resultType second := by
  simp only [ownerType, reorders.sameName, reorders.sameConditions]

/-- Nested fields compile to the same entries in some order, if each of them does. -/
theorem paired_entries
    {scope : Scope}
    (reorders : first.Reorders second)
    (each : ∀ inner ∈ first.nested, ∀ image owner,
      inner.Reorders image →
        Option.Rel QueryFragment.Reorders
          (compiler.compileField owner scope path inner).toOption
          (compiler.compileField owner scope path image).toOption) :
    Option.Rel (Paired (AtOneKey QueryFragment.Reorders))
      ((first.nested.filter (!·.isTypename)).mapM
        (compiler.compileNested resultType scope path)).toOption
      ((second.nested.filter (!·.isTypename)).mapM
        (compiler.compileNested resultType scope path)).toOption := by
  rw [Success.toOption_mapM, Success.toOption_mapM]
  refine reorders.fields.mapM fun inner image ⟨member, nested⟩ => ?_
  simp only [compileNested, Success.toOption_bind, ownerType_eq nested]
  cases (compiler.ownerType resultType image).toOption with
  | none =>
      exact .none
  | some owner =>
      simp only [Option.bind_some, nested.sameKey]
      exact Lifted.bind (each inner member image owner nested)
        fun fragment other related => .some (.intro related)

/-- Selections that differ in the order of siblings compile alike, up to the order of projections. -/
theorem reorders_compileField
    (reorders : first.Reorders second)
    (distinct : first.Everywhere FieldSelection.HasDistinctKeys)
    (parentType : String)
    (scope : Scope)
    (keys : List String) :
    Option.Rel QueryFragment.Reorders
      (compiler.compileField parentType scope keys first).toOption
      (compiler.compileField parentType scope keys second).toOption := by
  -- The field itself has one fragment, so in both orders what is nested is
  -- compiled in one scope and below one path.
  induction first using FieldSelection.tree_induction
    generalizing second parentType scope keys with
  | node first inductionHypothesis =>
      have each (inner : FieldSelection) (member : inner ∈ first.nested)
          (scope : Scope) (keys : List String) (image : FieldSelection)
          (owner : String) (nested : inner.Reorders image) :
          Option.Rel QueryFragment.Reorders
            (compiler.compileField owner scope keys inner).toOption
            (compiler.compileField owner scope keys image).toOption :=
        inductionHypothesis inner member nested (distinct.inside member) owner
          scope keys
      rw [compileField_eq, compileField_eq, Success.toOption_bind,
        Success.toOption_bind, reorders.sameKey,
        fieldFragment_eq reorders]
      cases (compiler.fieldFragment parentType scope
          (keys ++ [second.responseKey]) second).toOption with
      | none =>
          exact .none
      | some found =>
          obtain ⟨field, fragment⟩ := found
          cases fragment with
          | documents documents =>
              simp only [Option.bind_some, Success.toOption_bind]
              rw [compileProjection_nested distinct.here,
                compileProjection_nested
                  (reorders.hasDistinctKeys distinct.here)]
              refine Lifted.bind
                (paired_entries reorders fun inner member =>
                  each inner member _ _)
                fun projection other paired => ?_
              obtain ⟨middle, entries, permuted⟩ := paired
              exact .some (.documents entries permuted)
          | property loop property =>
              simp only [Option.bind_some, Success.toOption_bind,
                checkEmbedded_eq, Success.toOption_map, Option.bind_map]
              exact Lifted.bind
                (paired_entries reorders fun inner member =>
                  each inner member _ _)
                fun _ _ _ => .some (.property loop property)

end Compiler

namespace DataFetcher

variable {first second : FieldSelection}

/-- Both selections are compiled for a parent or neither is, and alike up to the order of projections. -/
theorem reorders_compile
    (reorders : first.Reorders second)
    (distinct : first.Everywhere FieldSelection.HasDistinctKeys)
    (fetcher : DataFetcher)
    (parent : FetchParent) :
    Option.Rel DocumentsFragment.Reorders
      (fetcher.compile first parent).toOption
      (fetcher.compile second parent).toOption := by
  simp only [compile, prepare, Success.toOption_bind, reorders.sameName,
    reorders.sameTypename, resolveParent_eq reorders.sameName]
  cases (fetcher.resolveParent second parent).toOption with
  | none =>
      exact .none
  | some resolved =>
      obtain ⟨parentType, scope, start⟩ := resolved
      simp only [Option.bind_some]
      split
      · exact .none
      · simp only [Success.toOption_bind, Option.bind_assoc]
        refine Lifted.bind
          (Compiler.reorders_compileField reorders distinct parentType scope [])
          fun compiled other related => ?_
        cases related with
        | property loop name =>
            exact .none
        | documents entries permuted =>
            cases fetcher.model.field? parentType second.name with
            | none =>
                exact .none
            | some field =>
                exact .some (.documents entries permuted)

end DataFetcher

end GraphGate
