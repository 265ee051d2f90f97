import GraphGate.Proofs.Aql.Naming
import Mathlib.Data.List.Nodup

namespace GraphGate

/-!
# Fragment trees, fragment by fragment

A tree lists its documents fragments in the order of the query text, each with
the response keys that lead to it. What a tree binds is what its fragments bind,
one after another. Where no projection has a key twice, the response keys tell
the fragments of a tree apart.
-/

/-- A documents fragment of a tree, with the response keys that lead to it. -/
structure FragmentNode where
  path : List String
  fragment : DocumentsFragment

namespace DocumentsFragment

mutual

/-- The documents fragments of a tree: the outermost, then those of its projection. -/
def nodes (path : List String) : DocumentsFragment → List FragmentNode
  | ⟨loop, source, filters, pagination, discriminator, projection, cardinality⟩ =>
      ⟨path, ⟨loop, source, filters, pagination, discriminator, projection,
        cardinality⟩⟩ :: entryNodes path projection

/-- The documents fragments of a projection. -/
def entryNodes (path : List String) :
    List (String × QueryFragment) → List FragmentNode
  | [] => []
  | (_, .property _ _) :: rest => entryNodes path rest
  | (key, .documents fragment) :: rest =>
      nodes (path ++ [key]) fragment ++ entryNodes path rest

end

/-- What a fragment takes over from the documents in its projection holds of every fragment. -/
@[elab_as_elim] theorem tree_induction
    {motive : DocumentsFragment → Prop}
    (node : ∀ fragment : DocumentsFragment,
      (∀ key inner,
        (key, QueryFragment.documents inner) ∈ fragment.projection →
          motive inner) →
      motive fragment)
    (fragment : DocumentsFragment) :
    motive fragment :=
  @DocumentsFragment.rec
    (fun entry => ∀ inner, entry = .documents inner → motive inner)
    motive
    (fun projection =>
      ∀ key inner, (key, QueryFragment.documents inner) ∈ projection →
        motive inner)
    (fun entry => ∀ inner, entry.2 = .documents inner → motive inner)
    (fun _ _ _ isDocuments => nomatch isDocuments)
    (fun _ below _ isDocuments => QueryFragment.documents.inj isDocuments ▸ below)
    (fun loop source filters pagination discriminator projection cardinality
        below =>
      node ⟨loop, source, filters, pagination, discriminator, projection,
        cardinality⟩ below)
    (fun _ _ member => nomatch member)
    (fun _ _ first others key inner member =>
      match List.mem_cons.mp member with
      | .inl isFirst => first inner (congrArg Prod.snd isFirst).symm
      | .inr inRest => others key inner inRest)
    (fun _ _ below => below)
    fragment

theorem nodes_eq (path : List String) (fragment : DocumentsFragment) :
    fragment.nodes path =
      ⟨path, fragment⟩ :: entryNodes path fragment.projection := by
  cases fragment
  rw [nodes]

theorem mem_entryNodes
    {path : List String}
    {projection : List (String × QueryFragment)}
    {node : FragmentNode} :
    node ∈ entryNodes path projection ↔
      ∃ key inner,
        (key, QueryFragment.documents inner) ∈ projection ∧
          node ∈ inner.nodes (path ++ [key]) := by
  induction projection with
  | nil =>
      simp [entryNodes]
  | cons entry rest inductionHypothesis =>
      obtain ⟨key, value⟩ := entry
      cases value with
      | property loop name =>
          rw [entryNodes, inductionHypothesis]
          simp
      | documents inner =>
          rw [entryNodes, List.mem_append, inductionHypothesis]
          constructor
          · rintro (inFirst | ⟨other, fragment, member, below⟩)
            · exact ⟨key, inner, List.mem_cons_self, inFirst⟩
            · exact ⟨other, fragment, List.mem_cons_of_mem _ member, below⟩
          · rintro ⟨other, fragment, member, below⟩
            rcases List.mem_cons.mp member with isFirst | inRest
            · cases isFirst
              exact .inl below
            · exact .inr ⟨other, fragment, inRest, below⟩

theorem mem_nodes
    {path : List String}
    {fragment : DocumentsFragment}
    {node : FragmentNode} :
    node ∈ fragment.nodes path ↔
      node = ⟨path, fragment⟩ ∨
        ∃ key inner,
          (key, QueryFragment.documents inner) ∈ fragment.projection ∧
            node ∈ inner.nodes (path ++ [key]) := by
  rw [nodes_eq, List.mem_cons, mem_entryNodes]

theorem prefix_of_mem_nodes
    {path : List String}
    {fragment : DocumentsFragment}
    {node : FragmentNode}
    (member : node ∈ fragment.nodes path) :
    path <+: node.path := by
  induction fragment using tree_induction generalizing path with
  | node fragment inductionHypothesis =>
      rcases mem_nodes.mp member with isRoot | ⟨key, inner, entry, below⟩
      · exact isRoot ▸ List.prefix_refl path
      · have deeper := inductionHypothesis key inner entry below
        exact (List.prefix_append path [key]).trans deeper

theorem key_eq_of_prefix
    {path reached : List String}
    {key other : String}
    (below : path ++ [key] <+: reached)
    (belowOther : path ++ [other] <+: reached) :
    key = other := by
  have compared :=
    List.prefix_of_prefix_length_le below belowOther (by simp)
  have same := compared.eq_of_length (by simp)
  simpa using same

theorem nodup_paths_entryNodes
    {path : List String}
    {projection : List (String × QueryFragment)}
    (distinct : (Table.keys projection).Nodup)
    (inside : ∀ key inner,
      (key, QueryFragment.documents inner) ∈ projection →
        ((inner.nodes (path ++ [key])).map FragmentNode.path).Nodup) :
    ((entryNodes path projection).map FragmentNode.path).Nodup := by
  induction projection with
  | nil =>
      exact List.nodup_nil
  | cons entry rest inductionHypothesis =>
      obtain ⟨key, value⟩ := entry
      obtain ⟨fresh, restDistinct⟩ := List.nodup_cons.mp distinct
      have others :=
        inductionHypothesis restDistinct fun other inner member =>
          inside other inner (List.mem_cons_of_mem _ member)
      cases value with
      | property loop name =>
          rw [entryNodes]
          exact others
      | documents inner =>
          rw [entryNodes, List.map_append, List.nodup_append]
          refine ⟨inside key inner List.mem_cons_self, others, ?_⟩
          intro reached inFirst also inOthers same
          subst same
          obtain ⟨node, below, rfl⟩ := List.mem_map.mp inFirst
          obtain ⟨otherNode, belowOther, samePath⟩ := List.mem_map.mp inOthers
          obtain ⟨other, fragment, member, belowOther⟩ :=
            mem_entryNodes.mp belowOther
          have sameKey :=
            key_eq_of_prefix (prefix_of_mem_nodes below)
              (samePath ▸ prefix_of_mem_nodes belowOther)
          have listed : other ∈ Table.keys rest := List.mem_map_of_mem member
          exact fresh (sameKey ▸ listed)

/-- Where no projection has a key twice, no two fragments of a tree have the same path. -/
theorem nodup_paths
    {path : List String}
    {fragment : DocumentsFragment}
    (distinct : ∀ node ∈ fragment.nodes path,
      (Table.keys node.fragment.projection).Nodup) :
    ((fragment.nodes path).map FragmentNode.path).Nodup := by
  induction fragment using tree_induction generalizing path with
  | node fragment inductionHypothesis =>
      -- The root has the shortest path, and siblings are below different keys.
      rw [nodes_eq, List.map_cons, List.nodup_cons]
      constructor
      · intro among
        obtain ⟨node, member, samePath⟩ := List.mem_map.mp among
        obtain ⟨key, inner, -, below⟩ := mem_entryNodes.mp member
        have deeper := (prefix_of_mem_nodes below).length_le
        rw [samePath, List.length_append] at deeper
        exact Nat.not_succ_le_self _ deeper
      · refine nodup_paths_entryNodes
          (distinct ⟨path, fragment⟩ (mem_nodes.mpr (.inl rfl))) ?_
        intro key inner entry
        exact inductionHypothesis key inner entry fun node member =>
          distinct node (mem_nodes.mpr (.inr ⟨key, inner, entry, member⟩))

/-- What a fragment itself binds. -/
def ownBindings (fragment : DocumentsFragment) : List (String × Json) :=
  sourceBinds fragment.loop fragment.source ++
    fragment.filters.map (filterBind fragment.loop) ++
    limitBinds fragment.loop fragment.cardinality fragment.pagination

theorem bindings_cons (fragment : DocumentsFragment) :
    fragment.bindings =
      fragment.ownBindings ++ entryBindings fragment.projection := by
  cases fragment
  rw [bindings]
  rfl

/-- A tree binds what its fragments bind, one after another. -/
theorem bindings_eq
    (path : List String)
    (fragment : DocumentsFragment) :
    fragment.bindings =
      (fragment.nodes path).flatMap fun node => node.fragment.ownBindings := by
  induction fragment using tree_induction generalizing path with
  | node fragment inductionHypothesis =>
      rw [bindings_cons, nodes_eq, List.flatMap_cons]
      congr 1
      generalize fragment.projection = projection at inductionHypothesis ⊢
      induction projection with
      | nil =>
          simp [entryBindings, entryNodes]
      | cons entry rest restHypothesis =>
          obtain ⟨key, value⟩ := entry
          have others :=
            restHypothesis fun key inner member =>
              inductionHypothesis key inner (List.mem_cons_of_mem _ member)
          cases value with
          | property loop name =>
              rw [entryBindings, entryNodes, others]
          | documents inner =>
              rw [entryBindings, entryNodes, List.flatMap_append, others,
                inductionHypothesis key inner List.mem_cons_self (path ++ [key])]

/-- What a source binds, by kind. -/
def sourceKind : DocumentSource → BindKind × Json
  | .collection name => (.collection, .string name)
  | .traversal _ _ edges => (.edges, .string edges)

/-- What the selected part binds, by kind. -/
def pageKinds
    (cardinality : Cardinality)
    (pagination : Pagination) : List (BindKind × Json) :=
  match pagination.offset, pagination.limit with
  | none, none => []
  | none, some limit => [(.limit, .nat limit)]
  | some offset, limit =>
      [(.offset, .nat offset),
        (.limit, .nat (limit.getD (defaultLimit cardinality)))]

/-- What a fragment itself binds, by kind. -/
def kinds (fragment : DocumentsFragment) : List (BindKind × Json) :=
  sourceKind fragment.source ::
    fragment.filters.map (fun filter =>
      (.filter filter.property, filter.value)) ++
    pageKinds fragment.cardinality fragment.pagination

theorem exists_filter_of_mem_kinds
    {fragment : DocumentsFragment}
    {property : String}
    {value : Json}
    (member : (BindKind.filter property, value) ∈ fragment.kinds) :
    ∃ filter ∈ fragment.filters, filter.property = property := by
  rcases List.mem_append.mp member with ofSourceOrFilter | ofPage
  · rcases List.mem_cons.mp ofSourceOrFilter with isSource | ofFilter
    · cases source : fragment.source <;>
        simp [source, sourceKind] at isSource
    · obtain ⟨filter, among, isFilter⟩ := List.mem_map.mp ofFilter
      cases isFilter
      exact ⟨filter, among, rfl⟩
  · unfold pageKinds at ofPage
    split at ofPage <;> simp at ofPage

end DocumentsFragment

namespace FragmentNode

/-- The sites of a fragment, and what is bound there. -/
def sites (node : FragmentNode) : List (BindSite × Json) :=
  node.fragment.kinds.map fun entry => (⟨node.path, entry.1⟩, entry.2)

theorem of_mem_sites
    {node : FragmentNode}
    {entry : BindSite × Json}
    (member : entry ∈ node.sites) :
    entry.1.path = node.path ∧
      (entry.1.kind, entry.2) ∈ node.fragment.kinds := by
  obtain ⟨kind, among, rfl⟩ := List.mem_map.mp member
  exact ⟨rfl, among⟩

/-- A fragment whose variable is that of its path binds at its sites. -/
theorem ownBindings_eq
    {node : FragmentNode}
    (isLoop : node.fragment.loop = variableName node.path) :
    node.fragment.ownBindings =
      node.sites.map fun entry => (entry.1.name, entry.2) := by
  obtain ⟨path, loop, source, filters, ⟨offset, limit⟩, _, _, cardinality⟩ :=
    node
  dsimp only at isLoop
  subst isLoop
  have ofSource :
      DocumentsFragment.sourceBinds (variableName path) source =
        [DocumentsFragment.sourceKind source].map fun entry =>
          (BindSite.name ⟨path, entry.1⟩, entry.2) := by
    cases source <;> rfl
  have ofFilters :
      filters.map (DocumentsFragment.filterBind (variableName path)) =
        (filters.map fun filter =>
          (BindKind.filter filter.property, filter.value)).map fun entry =>
            (BindSite.name ⟨path, entry.1⟩, entry.2) := by
    rw [List.map_map]
    rfl
  have ofPage :
      DocumentsFragment.limitBinds (variableName path) cardinality
          ⟨offset, limit⟩ =
        (DocumentsFragment.pageKinds cardinality ⟨offset, limit⟩).map
          fun entry => (BindSite.name ⟨path, entry.1⟩, entry.2) := by
    cases offset <;> cases limit <;> rfl
  rw [DocumentsFragment.ownBindings, ofSource, ofFilters, ofPage,
    ← List.map_append, ← List.map_append, sites, List.map_map]
  rfl

end FragmentNode

namespace DocumentsFragment

/-- The sites of a tree in the order of the query text, and what is bound there. -/
def sites
    (path : List String)
    (fragment : DocumentsFragment) : List (BindSite × Json) :=
  (fragment.nodes path).flatMap FragmentNode.sites

theorem mem_sites
    {path : List String}
    {fragment : DocumentsFragment}
    {entry : BindSite × Json} :
    entry ∈ fragment.sites path ↔
      ∃ node ∈ fragment.nodes path, entry ∈ node.sites :=
  List.mem_flatMap

/-- A tree whose variables are those of the paths binds at its sites. -/
theorem bindings_eq_sites
    {path : List String}
    {fragment : DocumentsFragment}
    (loops : ∀ node ∈ fragment.nodes path,
      node.fragment.loop = variableName node.path) :
    fragment.bindings =
      (fragment.sites path).map fun entry => (entry.1.name, entry.2) := by
  rw [bindings_eq path, sites, List.map_flatMap]
  exact List.flatMap_congr fun node member =>
    FragmentNode.ownBindings_eq (loops node member)

end DocumentsFragment

end GraphGate
