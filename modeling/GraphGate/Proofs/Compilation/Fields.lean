import GraphGate.Proofs.Aql.Nodes
import GraphGate.Proofs.Compilation.Acceptance

namespace GraphGate

/-!
# The fields that fragments answer

Every documents fragment of a compiled tree was made for one field of the
selection: the one that the path of the fragment leads to. So whatever is known
of an accepted field is known of every fragment of a tree.
-/

namespace Compiler

variable {compiler : Compiler} {parentType : String} {scope : Scope}
variable {keys path : List String} {selection : FieldSelection}
variable {fragment : DocumentsFragment}

/-- An entry of a projection was there before, or is that of a nested selection. -/
theorem acceptsNested_of_mem_projection
    {resultType loop : String}
    {nested : List FieldSelection}
    {projection result : List (String × QueryFragment)}
    (projected :
      compiler.compileProjection resultType loop path projection nested =
        .ok result)
    {entry : String × QueryFragment}
    (member : entry ∈ result) :
    entry ∈ projection ∨
      ∃ inner ∈ nested,
        inner.responseKey = entry.1 ∧
          compiler.AcceptsNested resultType (.document loop) path inner
            entry.2 := by
  replace projected := projects_of_compileProjection projected
  induction projected with
  | done =>
      exact .inl member
  | passed _ _ inductionHypothesis =>
      rcases inductionHypothesis with old | ⟨inner, inRest, nests⟩
      · exact .inl old
      · exact .inr ⟨inner, List.mem_cons_of_mem _ inRest, nests⟩
  | added _ _ accepted _ inductionHypothesis =>
      rcases inductionHypothesis with known | ⟨inner, inRest, nests⟩
      · rcases List.mem_append.mp known with old | new
        · exact .inl old
        · cases List.mem_singleton.mp new
          exact .inr ⟨_, List.mem_cons_self, rfl, accepted⟩
      · exact .inr ⟨inner, List.mem_cons_of_mem _ inRest, nests⟩

/-- Every entry of a finished projection is that of a nested selection. -/
theorem exists_nested_of_mem_projection
    {resultType loop : String}
    {nested : List FieldSelection}
    {projection : List (String × QueryFragment)}
    (projected :
      compiler.compileProjection resultType loop path [] nested =
        .ok projection)
    {key : String}
    {compiled : QueryFragment}
    (member : (key, compiled) ∈ projection) :
    ∃ inner ∈ nested,
      inner.responseKey = key ∧
        compiler.AcceptsNested resultType (.document loop) path inner
          compiled := by
  rcases acceptsNested_of_mem_projection projected member with old | nests
  · cases old
  · exact nests

/-- The keys of a projection are those that were there before, and those of what is nested. -/
theorem mem_keys_of_compileProjection
    {resultType loop key : String}
    {nested : List FieldSelection}
    {projection result : List (String × QueryFragment)}
    (projected :
      compiler.compileProjection resultType loop path projection nested =
        .ok result) :
    key ∈ Table.keys result ↔
      key ∈ Table.keys projection ∨
        ∃ inner ∈ nested, inner.isTypename = false ∧ inner.responseKey = key := by
  replace projected := projects_of_compileProjection projected
  induction projected with
  | done =>
      simp
  | passed passedOver _ inductionHypothesis =>
      refine inductionHypothesis.trans ?_
      rw [List.exists_mem_cons_iff]
      refine or_congr_right' fun notBefore =>
        ⟨.inr, fun either => either.resolve_left ?_⟩
      rintro ⟨notTypename, rfl⟩
      rcases passedOver with isTypename | isTaken
      · cases notTypename.symm.trans isTypename
      · exact notBefore ((Table.has_iff_mem_keys _ _).mp isTaken)
  | @added projection first _ compiled notTypename _ _ _ inductionHypothesis =>
      have ofFirst :
          key ∈ Table.keys (projection ++ [(first.responseKey, compiled)]) ↔
            key ∈ Table.keys projection ∨ first.responseKey = key := by
        rw [Table.keys, List.map_append, List.mem_append, List.map_singleton,
          List.mem_singleton, Table.keys, eq_comm (a := key)]
      refine inductionHypothesis.trans ?_
      rw [ofFirst, List.exists_mem_cons_iff, or_assoc, and_iff_right notTypename]

/-- A projection has no key twice. -/
theorem nodup_keys_of_compileProjection
    {resultType loop : String}
    {nested : List FieldSelection}
    {projection result : List (String × QueryFragment)}
    (projected :
      compiler.compileProjection resultType loop path projection nested =
        .ok result)
    (distinct : (Table.keys projection).Nodup) :
    (Table.keys result).Nodup := by
  replace projected := projects_of_compileProjection projected
  induction projected with
  | done =>
      exact distinct
  | passed _ _ inductionHypothesis =>
      exact inductionHypothesis distinct
  | added _ notTaken _ _ inductionHypothesis =>
      refine inductionHypothesis ?_
      rw [Table.keys, List.map_append, List.nodup_append]
      refine ⟨distinct, List.nodup_singleton _, ?_⟩
      intro key old other new same
      cases List.mem_singleton.mp new
      subst same
      exact Bool.eq_false_iff.mp notTaken ((Table.has_iff_mem_keys _ _).mpr old)

/--
A fragment has the documents of a field, which was accepted on some type at the
path of the fragment. Below the outermost field, the scope is that of the
documents around it.
-/
structure Answers
    (compiler : Compiler)
    (scope : Scope)
    (keys : List String)
    (node : FragmentNode)
    (field : FieldSelection)
    (type : String)
    (above : List String)
    (inner : Scope) : Prop where
  path : node.path = above ++ [field.responseKey]
  accepts : compiler.Accepts type inner above field (.documents node.fragment)
  inner : above = keys ∧ inner = scope ∨ inner = .document (variableName above)

/-- Every fragment of a compiled tree answers the field at its path. -/
theorem exists_answers_of_compileField
    (compiled :
      compiler.compileField parentType scope keys selection =
        .ok (.documents fragment))
    {node : FragmentNode}
    (member : node ∈ fragment.nodes (keys ++ [selection.responseKey])) :
    ∃ path field type above inner,
      node.path = keys ++ path ∧
        selection.Occurs path field ∧
        compiler.Answers scope keys node field type above inner := by
  induction selection using FieldSelection.tree_induction
    generalizing parentType scope keys fragment with
  | node selection inductionHypothesis =>
      have accepts := accepts_of_compileField compiled
      rcases DocumentsFragment.mem_nodes.mp member with
        isRoot | ⟨key, inner, entry, below⟩
      · subst isRoot
        exact ⟨[selection.responseKey], selection, parentType, keys, scope, rfl,
          .here, rfl, accepts, .inl ⟨rfl, rfl⟩⟩
      · cases accepts with
        | documents declared selected argued feeds projected =>
            obtain ⟨nested, among, rfl, owner, -, innerCompiled⟩ :=
              exists_nested_of_mem_projection projected entry
            obtain ⟨path, field, type, above, scope, isPath, occurs, answers⟩ :=
              inductionHypothesis nested among innerCompiled below
            refine ⟨selection.responseKey :: path, field, type, above, scope,
              ?_, .inside among occurs, answers.path, answers.accepts, .inr ?_⟩
            · rw [isPath, List.append_assoc, List.singleton_append]
            · rcases answers.inner with ⟨rfl, rfl⟩ | isDocument
              · rfl
              · exact isDocument

end Compiler

namespace DataFetcher

variable {fetcher : DataFetcher} {selection : FieldSelection}
variable {parent : FetchParent} {fragment : DocumentsFragment}

/-- A field is evaluated on the query type, or on a record that the caller knows. -/
theorem scope_of_resolveParent
    {parentType : String}
    {scope : Scope}
    {start : Option String}
    (resolved :
      fetcher.resolveParent selection parent =
        .ok (parentType, scope, start)) :
    (parent = .root ∧ scope = .root ∧ start = none) ∨
      ∃ type id,
        parent = .record type id ∧ scope = .startVertex ∧ start = some id := by
  cases parent with
  | root =>
      cases queryType : fetcher.model.queryType? with
      | none =>
          simp only [resolveParent, queryType] at resolved
          cases resolved
      | some declaration =>
          simp only [resolveParent, queryType] at resolved
          cases resolved
          exact .inl ⟨rfl, rfl, rfl⟩
  | record type id =>
      cases canonical :
          (fetcher.model.canonicalType? type).bind fetcher.model.type? with
      | none =>
          simp only [resolveParent, canonical] at resolved
          cases resolved
      | some declaration =>
          simp only [resolveParent, canonical] at resolved
          cases resolved
          exact .inr ⟨type, id, rfl, rfl, rfl⟩

/--
Every fragment of a tree that answers a selection answers the field at its path.
If the field is evaluated on documents, these are the ones of the path above.
-/
theorem exists_answers_of_compile
    (compiled : fetcher.compile selection parent = .ok fragment)
    {node : FragmentNode}
    (member : node ∈ fragment.nodes [selection.responseKey]) :
    ∃ field type scope above,
      selection.Occurs node.path field ∧
        node.path = above ++ [field.responseKey] ∧
        (∀ loop, scope = .document loop → loop = variableName above) ∧
        fetcher.compiler.Accepts type scope above field
          (.documents node.fragment) := by
  obtain ⟨field, asked, start, prepared⟩ := compile_eq_ok_iff.mp compiled
  obtain ⟨-, parentType, scope, resolved, -, accepted⟩ :=
    accepted_of_prepare prepared
  obtain ⟨path, field, type, above, inner, isPath, occurs, answers⟩ :=
    Compiler.exists_answers_of_compileField accepted member
  rw [List.nil_append] at isPath
  refine ⟨field, type, inner, above, isPath ▸ occurs, answers.path, ?_,
    answers.accepts⟩
  intro loop isDocument
  rcases answers.inner with ⟨-, outermost⟩ | isInner
  · rw [outermost] at isDocument
    rcases scope_of_resolveParent resolved with
      ⟨-, isRoot, -⟩ | ⟨_, _, -, isStart, -⟩
    · cases isDocument.symm.trans isRoot
    · cases isDocument.symm.trans isStart
  · exact Scope.document.inj (isDocument.symm.trans isInner)

end DataFetcher

end GraphGate
