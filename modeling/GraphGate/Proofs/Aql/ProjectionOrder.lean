import GraphGate.Proofs.Compilation.Scoping
import GraphGate.Proofs.Compilation.SiblingOrder
import Mathlib.Data.List.Induction

namespace GraphGate

/-!
# Bind variables of projections in another order

A tree binds what its fragments bind, one fragment after another. Within a
fragment the last value of a repeated placeholder counts, and the order there is
that of the arguments. Fragments with names to tell them apart share no
placeholder, so a tree with projections in another order binds the same values.
-/

namespace Table

variable {α : Type} {key : String}

/-- Pairs that are collected later replace what was there. -/
theorem get?_foldl_put
    (pairs : List (String × α))
    (table : Table α) :
    get? (pairs.foldl (fun table pair => put pair.1 pair.2 table) table) key =
      (get? (ofPairs pairs) key).or (get? table key) := by
  induction pairs using List.reverseRecOn with
  | nil =>
      rfl
  | append_singleton rest pair inductionHypothesis =>
      simp only [ofPairs] at inductionHypothesis ⊢
      simp only [List.foldl_append, List.foldl_cons, List.foldl_nil]
      by_cases same : key = pair.1
      · rw [same, get?_put_self, get?_put_self, Option.some_or]
      · rw [get?_put_of_ne same, get?_put_of_ne same, inductionHypothesis]

theorem get?_ofPairs_append (first second : List (String × α)) :
    get? (ofPairs (first ++ second)) key =
      (get? (ofPairs second) key).or (get? (ofPairs first) key) := by
  rw [ofPairs, List.foldl_append, get?_foldl_put]
  rfl

/-- No key is in both of two tables. -/
def KeysApart (first second : Table α) : Prop :=
  ∀ key ∈ keys first, key ∉ keys second

theorem KeysApart.symm
    {first second : Table α}
    (apart : KeysApart first second) :
    KeysApart second first :=
  fun key inSecond inFirst => apart key inFirst inSecond

theorem get?_ofPairs_eq_none
    {pairs : List (String × α)}
    (absent : key ∉ keys pairs) :
    get? (ofPairs pairs) key = none := by
  rw [get?_eq_none_iff, mem_keys_ofPairs]
  exact absent

/-- Lists of pairs without a common key can be collected in any order. -/
theorem get?_ofPairs_flatten
    {blocks others : List (List (String × α))}
    (permutation : blocks.Perm others)
    (apart : blocks.Pairwise KeysApart) :
    get? (ofPairs blocks.flatten) key = get? (ofPairs others.flatten) key := by
  induction permutation with
  | nil =>
      rfl
  | cons block _ inductionHypothesis =>
      rw [List.flatten_cons, List.flatten_cons, get?_ofPairs_append,
        get?_ofPairs_append, inductionHypothesis apart.of_cons]
  | swap first second rest =>
      -- At most one of the two has the key, so it is the same which comes last.
      simp only [List.flatten_cons, get?_ofPairs_append, Option.or_assoc]
      have apartHere : KeysApart second first :=
        List.rel_of_pairwise_cons apart List.mem_cons_self
      by_cases inFirst : key ∈ keys first
      · have absent : key ∉ keys second := apartHere.symm key inFirst
        rw [get?_ofPairs_eq_none absent, Option.or_none, Option.none_or]
      · rw [get?_ofPairs_eq_none inFirst, Option.or_none, Option.none_or]
  | trans here _ first second =>
      exact (first apart).trans (second (here.pairwise apart .symm))

end Table

namespace DocumentsFragment

variable {first second : DocumentsFragment}

/-- The documents fragments of an entry of a projection. -/
def nodesOfEntry (path : List String) :
    String × QueryFragment → List FragmentNode
  | (_, .property _ _) => []
  | (key, .documents fragment) => fragment.nodes (path ++ [key])

theorem entryNodes_eq
    (path : List String)
    (projection : List (String × QueryFragment)) :
    entryNodes path projection = projection.flatMap (nodesOfEntry path) := by
  induction projection with
  | nil =>
      rw [entryNodes, List.flatMap_nil]
  | cons entry rest inductionHypothesis =>
      obtain ⟨key, value⟩ := entry
      rw [List.flatMap_cons, ← inductionHypothesis]
      cases value <;> rfl

/-- What the fragments of a tree bind, fragment by fragment. -/
def blocks
    (path : List String)
    (fragment : DocumentsFragment) : List (List (String × Json)) :=
  (fragment.nodes path).map fun node => node.fragment.ownBindings

theorem bindings_eq_flatten
    (path : List String)
    (fragment : DocumentsFragment) :
    fragment.bindings = (fragment.blocks path).flatten := by
  rw [bindings_eq path, blocks, List.flatMap_def]

/-- With projections in another order, a tree has its fragments in another order. -/
theorem Reorders.blocks_perm
    (reorders : first.Reorders second)
    (path : List String) :
    (first.blocks path).Perm (second.blocks path) := by
  induction first using tree_induction generalizing second path with
  | node first inductionHypothesis =>
      obtain ⟨paired, same⟩ := reorders.paired
      have sameOwn : second.ownBindings = first.ownBindings := by
        rw [same]
        rfl
      simp only [blocks, nodes_eq, List.map_cons, entryNodes_eq,
        List.map_flatMap, sameOwn]
      refine .cons _ (paired.of_mem.flatMap ?_)
      rintro _ _ ⟨member, @⟨key, entry, image, related⟩⟩
      cases related with
      | property loop name =>
          exact .nil
      | @documents inner middle projection entries permuted =>
          exact inductionHypothesis key inner member
            (QueryFragment.Reorders.documents entries permuted) (path ++ [key])

/-- Fragments in scope share no placeholder. -/
theorem pairwise_blocks
    {registry : DiscriminatorRegistry}
    {path : List String}
    {fragment : DocumentsFragment}
    (inScope : ∀ node ∈ fragment.nodes path, node.IsScoped registry) :
    (fragment.blocks path).Pairwise Table.KeysApart := by
  have bindsApart := bindsApart_of_isScoped inScope
  have paths := bindsApart.paths
  have siteOf (node : FragmentNode) (member : node ∈ fragment.nodes path)
      (name : String) (bound : name ∈ Table.keys node.fragment.ownBindings) :
      ∃ entry ∈ fragment.sites path,
        entry.1.path = node.path ∧ entry.1.name = name := by
    rw [FragmentNode.ownBindings_eq (inScope node member).loop, Table.keys,
      List.map_map] at bound
    obtain ⟨entry, ofNode, isName⟩ := List.mem_map.mp bound
    exact ⟨entry, mem_sites.mpr ⟨node, member, ofNode⟩,
      (FragmentNode.of_mem_sites ofNode).1, isName⟩
  rw [List.Nodup, List.pairwise_map] at paths
  rw [blocks, List.pairwise_map]
  refine paths.imp_of_mem ?_
  intro node other member memberToo different name bound boundToo
  obtain ⟨entry, isSite, samePath, isName⟩ := siteOf node member name bound
  obtain ⟨another, isSiteToo, samePathToo, isNameToo⟩ :=
    siteOf other memberToo name boundToo
  have sameSite :=
    bindsApart.apart entry isSite another isSiteToo (isName.trans isNameToo.symm)
  rw [← samePath, ← samePathToo, sameSite] at different
  exact different rfl

/-- The bind variables of a tree in scope do not depend on the order of projections. -/
theorem Reorders.get?_binds
    {registry : DiscriminatorRegistry}
    {path : List String}
    (reorders : first.Reorders second)
    (inScope : ∀ node ∈ first.nodes path, node.IsScoped registry)
    (name : String) :
    Table.get? first.render.binds name =
      Table.get? second.render.binds name := by
  rw [render, render, bindings_eq_flatten path, bindings_eq_flatten path]
  exact Table.get?_ofPairs_flatten (reorders.blocks_perm path)
    (pairwise_blocks inScope)

end DocumentsFragment

end GraphGate
