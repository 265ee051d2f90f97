import GraphGate.Proofs.Compilation.Scoping
import GraphGate.Proofs.Provisioning.PlanOrder

namespace GraphGate

/-!
# The collections of a compiled query

Every documents fragment of a compiled tree reads a collection that a type of the
model is stored in, or goes along edges that a field of the model names. This is
what is bound under the placeholder of its source, and nothing else is bound as a
collection. It holds for all keys: two fragments that share a placeholder both go
along edges, or neither does.
-/

namespace Model

variable {model : Model} {name : String}

/-- The collection of a relation is in use, as edges. -/
theorem exists_use_of_relation
    {type : String}
    {field : FieldDeclaration}
    {relation : RelationDirective}
    (declared : model.field? type name = some field)
    (isRelation : field.directives.relation = some relation) :
    ∃ use ∈ model.collectionUses,
      use.collection = relation.collection ∧ use.kind = .edge := by
  obtain ⟨declaration, isType, isField⟩ := Option.bind_eq_some_iff.mp declared
  refine ⟨⟨.field declaration.name field.name, relation.collection, .edge⟩,
    ?_, rfl, rfl⟩
  apply List.mem_append_right
  apply List.mem_flatMap_of_mem (Catalogue.mem_of_find? isType)
  apply List.mem_filterMap.mpr
  exact ⟨field, Catalogue.mem_of_find? isField, by rw [isRelation]; rfl⟩

end Model

namespace DocumentSource

/-- The collection that is read, or whose edges are followed. -/
def origin : DocumentSource → String
  | .collection name => name
  | .traversal _ _ edges => edges

/-- Whether edges are followed. -/
def isTraversal : DocumentSource → Bool
  | .collection _ => false
  | .traversal _ _ _ => true

/-- Whether a model uses the collection of a source, as edges if they are followed. -/
def IsUsed (model : Model) (source : DocumentSource) : Prop :=
  ∃ use ∈ model.collectionUses,
    use.collection = source.origin ∧
      (source.isTraversal = true → use.kind = .edge)

end DocumentSource

namespace DocumentsFragment

/-- The name under which the collection of a fragment is bound. -/
def sourceParameter (fragment : DocumentsFragment) : String :=
  match fragment.source with
  | .collection _ =>
      AqlQuery.collectionParameter (collectionName fragment.loop)
  | .traversal _ _ _ =>
      AqlQuery.collectionParameter (edgesName fragment.loop)

theorem sourceBinds_eq (fragment : DocumentsFragment) :
    sourceBinds fragment.loop fragment.source =
      [(fragment.sourceParameter, .string fragment.source.origin)] := by
  unfold sourceParameter
  cases fragment.source with
  | collection name =>
      rfl
  | traversal start direction edges =>
      rfl

/-- The collection of a fragment is bound. -/
theorem mem_ownBindings_source (fragment : DocumentsFragment) :
    (fragment.sourceParameter, Json.string fragment.source.origin) ∈
      fragment.ownBindings := by
  apply List.mem_append_left
  apply List.mem_append_left
  rw [sourceBinds_eq]
  exact List.mem_singleton_self _

theorem variableName_append_ne_collectionParameter
    (path : List String)
    (rest name : String) :
    variableName path ++ rest ≠ AqlQuery.collectionParameter name := by
  intro same
  have sameText := congrArg String.toList same
  simp [variableName, AqlQuery.collectionParameter] at sameText

theorem edgesParameter_ne (loop other : String) :
    AqlQuery.collectionParameter (edgesName loop) ≠
      AqlQuery.collectionParameter (collectionName other) := by
  intro same
  have sameLast := congrArg (fun text => text.toList.getLast?) same
  simp [AqlQuery.collectionParameter, edgesName, collectionName,
    List.getLast?_cons, List.getLast?_append] at sameLast

/-- A fragment binds nothing else as a collection. -/
theorem eq_source_of_mem_ownBindings
    {path : List String}
    {fragment : DocumentsFragment}
    (isLoop : fragment.loop = variableName path)
    {name : String}
    {value : Json}
    (member :
      (AqlQuery.collectionParameter name, value) ∈ fragment.ownBindings) :
    AqlQuery.collectionParameter name = fragment.sourceParameter ∧
      value = .string fragment.source.origin := by
  have elsewhere (rest : String) :
      AqlQuery.collectionParameter name ≠ fragment.loop ++ rest := by
    rw [isLoop]
    exact (variableName_append_ne_collectionParameter path rest name).symm
  rcases List.mem_append.mp member with ofSourceOrFilter | ofPage
  · rcases List.mem_append.mp ofSourceOrFilter with ofSource | ofFilter
    · rw [sourceBinds_eq] at ofSource
      exact Prod.mk.inj (List.mem_singleton.mp ofSource)
    · obtain ⟨filter, -, isFilter⟩ := List.mem_map.mp ofFilter
      have isName := (Prod.mk.inj isFilter).1
      rw [filterName, String.append_assoc] at isName
      exact (elsewhere _ isName.symm).elim
  · have notLimit := elsewhere "_limit"
    have notOffset := elsewhere "_offset"
    unfold limitBinds at ofPage
    split at ofPage
    · cases ofPage
    · simp [limitName, notLimit] at ofPage
    · simp [offsetName, limitName, notLimit, notOffset] at ofPage

/-- What shares a name with the collection of another fragment is as much a traversal. -/
theorem isTraversal_eq_of_sourceParameter_eq
    {fragment other : DocumentsFragment}
    (same : fragment.sourceParameter = other.sourceParameter) :
    fragment.source.isTraversal = other.source.isTraversal := by
  unfold sourceParameter at same
  cases source : fragment.source with
  | collection name =>
      cases otherSource : other.source with
      | collection otherName =>
          rfl
      | traversal start direction edges =>
          simp only [source, otherSource] at same
          exact (edgesParameter_ne _ _ same.symm).elim
  | traversal start direction edges =>
      cases otherSource : other.source with
      | collection otherName =>
          simp only [source, otherSource] at same
          exact (edgesParameter_ne _ _ same).elim
      | traversal otherStart otherDirection otherEdges =>
          rfl

end DocumentsFragment

/-- A fragment of a compiled tree: named after its path, and its collection is in use. -/
structure FragmentNode.IsSourced
    (model : Model)
    (node : FragmentNode) : Prop where
  loop : node.fragment.loop = variableName node.path
  source : node.fragment.source.IsUsed model

namespace Compiler

variable {compiler : Compiler} {parentType : String} {scope : Scope}
variable {keys : List String} {selection : FieldSelection}
variable {fragment : DocumentsFragment}

/-- The documents of an accepted field come from a collection in use. -/
theorem Accepts.isSourced
    (accepts :
      compiler.Accepts parentType scope keys selection (.documents fragment)) :
    FragmentNode.IsSourced compiler.model
      ⟨keys ++ [selection.responseKey], fragment⟩ := by
  cases accepts with
  | documents declared selected argued feeds projected =>
      refine ⟨rfl, ?_⟩
      cases feeds with
      | traversal isRelation isScope =>
          obtain ⟨use, isUse, isOrigin, isEdge⟩ :=
            Model.exists_use_of_relation declared isRelation
          exact ⟨use, isUse, isOrigin, fun _ => isEdge⟩
      | traversalFromStart isRelation isScope =>
          obtain ⟨use, isUse, isOrigin, isEdge⟩ :=
            Model.exists_use_of_relation declared isRelation
          exact ⟨use, isUse, isOrigin, fun _ => isEdge⟩
      | scan notRelation isScope stored =>
          obtain ⟨use, isUse, isOrigin⟩ :=
            Model.exists_use_of_collectionFor? stored
          exact ⟨use, isUse, isOrigin, nofun⟩

end Compiler

namespace DocumentsFragment

variable {model : Model} {path : List String} {fragment : DocumentsFragment}

section Sourced

variable
  (sourced : ∀ node ∈ fragment.nodes path, node.IsSourced model)

include sourced

/-- What a tree binds as a collection, one of its fragments does. -/
theorem exists_node_of_mem_bindings
    {name : String}
    {value : Json}
    (member :
      (AqlQuery.collectionParameter name, value) ∈ fragment.bindings) :
    ∃ node ∈ fragment.nodes path,
      node.fragment.sourceParameter = AqlQuery.collectionParameter name ∧
        value = .string node.fragment.source.origin := by
  rw [bindings_eq path] at member
  obtain ⟨node, isNode, isOwn⟩ := List.mem_flatMap.mp member
  obtain ⟨isParameter, isValue⟩ :=
    eq_source_of_mem_ownBindings (sourced node isNode).loop isOwn
  exact ⟨node, isNode, isParameter.symm, isValue⟩

/-- A collection in use is bound for every fragment of a tree. -/
theorem exists_use_bound
    {node : FragmentNode}
    (isNode : node ∈ fragment.nodes path) :
    ∃ use ∈ model.collectionUses,
      Table.get? fragment.render.binds node.fragment.sourceParameter =
          some (.string use.collection) ∧
        (node.fragment.source.isTraversal = true → use.kind = .edge) := by
  have isBinding :
      (node.fragment.sourceParameter,
          Json.string node.fragment.source.origin) ∈ fragment.bindings := by
    rw [bindings_eq path]
    exact List.mem_flatMap_of_mem isNode (mem_ownBindings_source _)
  have isKey : node.fragment.sourceParameter ∈
      Table.keys fragment.render.binds :=
    Table.mem_keys_ofPairs.mpr (List.mem_map_of_mem isBinding)
  obtain ⟨value, found⟩ :=
    Option.isSome_iff_exists.mp ((Table.has_iff_mem_keys _ _).mpr isKey)
  -- another fragment may have been bound later under the same name
  obtain ⟨name, isName⟩ :
      ∃ name, node.fragment.sourceParameter =
        AqlQuery.collectionParameter name := by
    unfold sourceParameter
    split
    · exact ⟨_, rfl⟩
    · exact ⟨_, rfl⟩
  have last := Table.mem_of_get?_ofPairs found
  rw [isName] at last
  obtain ⟨other, isOther, sameName, rfl⟩ :=
    exists_node_of_mem_bindings sourced last
  obtain ⟨use, isUse, isOrigin, isEdge⟩ := (sourced other isOther).source
  refine ⟨use, isUse, isOrigin ▸ found, ?_⟩
  intro isTraversal
  apply isEdge
  have alike :=
    isTraversal_eq_of_sourceParameter_eq (sameName.trans isName.symm)
  exact alike.trans isTraversal

end Sourced

end DocumentsFragment

namespace DataFetcher

variable {fetcher : DataFetcher} {selection : FieldSelection}
variable {parent : FetchParent} {fragment : DocumentsFragment}

theorem isSourced_of_compile
    (compiled : fetcher.compile selection parent = .ok fragment) :
    ∀ node ∈ fragment.nodes [selection.responseKey],
      node.IsSourced fetcher.model := by
  intro node member
  obtain ⟨field, type, scope, above, -, isPath, -, accepts⟩ :=
    exists_answers_of_compile compiled member
  have ofField := accepts.isSourced
  exact ⟨isPath ▸ ofField.loop, ofField.source⟩

end DataFetcher

end GraphGate
