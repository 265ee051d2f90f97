import GraphGate.Proofs.Aql.RenderedText
import GraphGate.Proofs.Compilation.Scoping
import GraphGate.Proofs.Response.Causes

namespace GraphGate

/-!
# Closed queries

A compiled tree has a loop variable of its own in every fragment, and expects a
start document exactly if the field is fetched for a record. Where no property
of a discriminator breaks the quotes around it, the query has just the
placeholders that it binds.

A property that breaks them is accepted by every schema, and then the text can
have placeholders that nothing is bound to.
-/

/-- A query has just the placeholders that it binds. -/
def AqlQuery.IsClosed (query : AqlQuery) : Prop :=
  ∀ name, name ∈ placeholders query.text ↔ name ∈ Table.keys query.binds

/-- No property that names a concrete type breaks the quotes around it. -/
def DiscriminatorRegistry.HasUnbrokenProperties
    (registry : DiscriminatorRegistry) : Prop :=
  ∀ type mapping,
    registry.mapping? type = some mapping → IsUnbroken mapping.property

/-- The id of the record that a field is fetched for. -/
def FetchParent.id? : FetchParent → Option String
  | .root => none
  | .record _ id => some id

variable {registry : DiscriminatorRegistry}

/-- A fragment in scope can be read back if its discriminator can. -/
theorem FragmentNode.IsScoped.isReadable
    {node : FragmentNode}
    (inScope : node.IsScoped registry)
    (unbroken : registry.HasUnbrokenProperties) :
    node.fragment.IsReadable := by
  have isLoop : IsWord node.fragment.loop.toList :=
    inScope.loop ▸ IsWord.variableName node.path
  exact {
    loop := isLoop
    start := fun name direction edges isTraversal => by
      rw [inScope.start name direction edges isTraversal]
      exact IsWord.variableName node.path.dropLast
    filters := fun filter member =>
      isUnbroken_of_isName (inScope.filters filter member).1
    properties := fun key loop name member => by
      obtain ⟨sameLoop, isName⟩ := inScope.properties key loop name member
      exact ⟨sameLoop ▸ isLoop, isUnbroken_of_isName isName⟩
    discriminator := fun property isProperty => by
      obtain ⟨type, mapping, found, rfl⟩ :=
        inScope.discriminator property isProperty
      exact unbroken type mapping found
  }

namespace DocumentsFragment

variable {path : List String} {fragment : DocumentsFragment}

/-- Only the outermost fragment can start at a known document. -/
theorem startNames_of_mem_entryNodes
    (inScope : ∀ node ∈ fragment.nodes path, node.IsScoped registry)
    {node : FragmentNode}
    (member : node ∈ entryNodes path fragment.projection) :
    startNames node.fragment.source = [] := by
  induction fragment using tree_induction generalizing path with
  | node fragment inductionHypothesis =>
      obtain ⟨key, inner, entry, below⟩ := mem_entryNodes.mp member
      have root := inScope ⟨path, fragment⟩ (mem_nodes.mpr (.inl rfl))
      rw [nodes_eq, List.mem_cons] at below
      rcases below with isInner | deeper
      · obtain ⟨direction, edges, isTraversal⟩ := root.documents key inner entry
        rw [isInner, isTraversal]
        rfl
      · exact inductionHypothesis key inner entry
          (fun node among =>
            inScope node (mem_nodes.mpr (.inr ⟨key, inner, entry, among⟩)))
          deeper

theorem mem_startNames (fragment : DocumentsFragment) (name : String) :
    name ∈ startNames fragment.source ↔
      fragment.traversesFromStart = true ∧ name = startParameter := by
  obtain ⟨_, source, _, _, _, _, _⟩ := fragment
  cases source with
  | collection _ =>
      simp [startNames, traversesFromStart]
  | traversal start _ _ =>
      cases start <;> simp [startNames, traversesFromStart]

/-- The placeholders are those of what is bound, and that of a start document if one is expected. -/
theorem mem_placeholders_iff
    (inScope : ∀ node ∈ fragment.nodes path, node.IsScoped registry)
    (unbroken : registry.HasUnbrokenProperties)
    (name : String) :
    name ∈ placeholders fragment.render.text ↔
      fragment.traversesFromStart = true ∧ name = startParameter ∨
        name ∈ fragment.bindings.map Prod.fst := by
  have readable :
      ∀ node ∈ fragment.nodes path, node.fragment.IsReadable :=
    fun node member => (inScope node member).isReadable unbroken
  have inner :
      (entryNodes path fragment.projection).flatMap
          (fun node => node.fragment.ownNames) =
        (entryNodes path fragment.projection).flatMap
          (fun node => node.fragment.ownBindings.map Prod.fst) := by
    refine List.flatMap_congr fun node member => ?_
    rw [ownNames, startNames_of_mem_entryNodes inScope member, List.nil_append]
  rw [placeholders_render readable, bindings_eq path, nodes_eq,
    List.flatMap_cons, List.flatMap_cons, inner, ownNames, List.map_append,
    List.map_flatMap, List.append_assoc, List.mem_append, mem_startNames]

/-- Sent with a start document just where one is expected, a tree is a closed query. -/
theorem isClosed_query
    (inScope : ∀ node ∈ fragment.nodes path, node.IsScoped registry)
    (unbroken : registry.HasUnbrokenProperties)
    {start : Option String}
    (known : fragment.traversesFromStart = start.isSome) :
    (fragment.query start).IsClosed := by
  intro name
  have written := mem_placeholders_iff inScope unbroken name
  rw [known, ← Table.mem_keys_ofPairs] at written
  cases start with
  | none =>
      simp only [Option.isSome_none, Bool.false_eq_true, false_and,
        false_or] at written
      exact written
  | some id =>
      have bound :
          name ∈ Table.keys (fragment.query (some id)).binds ↔
            name ∈ Table.keys fragment.render.binds ∨ name = startParameter :=
        Table.mem_keys_put
      simp only [Option.isSome_some, true_and] at written
      rw [bound, or_comm]
      exact written

/-- A start document is bound just where one is known. -/
theorem get?_startParameter_query
    (inScope : ∀ node ∈ fragment.nodes path, node.IsScoped registry)
    (start : Option String) :
    Table.get? (fragment.query start).binds startParameter =
      start.map Json.string := by
  cases start with
  | some id =>
      exact Table.get?_put_self startParameter (.string id) fragment.render.binds
  | none =>
      refine (Table.get?_eq_none_iff _ _).mpr fun bound => ?_
      have separate := bindsApart_of_isScoped inScope
      have among := Table.mem_keys_ofPairs.mp bound
      rw [separate.binds, List.map_map] at among
      obtain ⟨entry, member, isStart⟩ := List.mem_map.mp among
      exact separate.notStart entry member isStart

theorem nodup_loops
    (inScope : ∀ node ∈ fragment.nodes path, node.IsScoped registry) :
    ((fragment.nodes path).map fun node => node.fragment.loop).Nodup := by
  have loops :
      (fragment.nodes path).map (fun node => node.fragment.loop) =
        ((fragment.nodes path).map FragmentNode.path).map variableName := by
    rw [List.map_map]
    exact List.map_congr_left fun node member => (inScope node member).loop
  rw [loops]
  refine List.Nodup.map_on ?_ (nodup_paths_of_isScoped inScope)
  intro first isFirst second isSecond same
  obtain ⟨node, member, rfl⟩ := List.mem_map.mp isFirst
  obtain ⟨other, otherMember, rfl⟩ := List.mem_map.mp isSecond
  exact variableName_injective (inScope node member).named
    (inScope other otherMember).named same

end DocumentsFragment

namespace DataFetcher

variable {fetcher : DataFetcher} {selection : FieldSelection}
variable {parent : FetchParent} {fragment : DocumentsFragment}

/--
A field that compiles is fetched by one query. The variables of its loops are
different, and whatever a fragment reads or follows is inside of it. The start
document is that of a record, and it is never found missing. If no property of a
discriminator breaks the quotes around it, the query is closed.
-/
theorem fetch_asks_closed_query
    (names : selection.Everywhere FieldSelection.HasNames)
    (compiled : fetcher.compile selection parent = .ok fragment) :
    ((fragment.nodes [selection.responseKey]).map fun node =>
        node.fragment.loop).Nodup ∧
      (∀ node ∈ fragment.nodes [selection.responseKey],
        node.IsScoped fetcher.registry) ∧
      fragment.traversesFromStart = parent.id?.isSome ∧
      ∃ (query : AqlQuery) (answer : QueryOutcome → FetchResult),
        fetcher.fetch selection parent =
            .ask (.query fetcher.database query fetcher.timeout)
              (fun outcome => .done (answer outcome)) ∧
          query.text = fragment.render.text ∧
          (fetcher.registry.HasUnbrokenProperties → query.IsClosed) ∧
          Table.get? query.binds startParameter =
            parent.id?.map Json.string ∧
          ∀ outcome, ∀ failure ∈ (answer outcome).errors, ∀ place,
            failure.cause ≠ .execution ⟨place, .unboundStartVertex⟩ := by
  have inScope := isScoped_of_compile names compiled
  obtain ⟨field, asked, start, prepared⟩ := compile_eq_ok_iff.mp compiled
  obtain ⟨rfl, parentType, scope, resolved, -, accepted⟩ :=
    accepted_of_prepare prepared
  have expects :=
    (Compiler.accepts_of_compileField accepted).traversesFromStart_iff
  -- The tree expects a start document exactly for the parents that have an id.
  have isStart :
      start = parent.id? ∧ fragment.traversesFromStart = start.isSome := by
    rcases scope_of_resolveParent resolved with
      ⟨rfl, rfl, rfl⟩ | ⟨type, id, rfl, rfl, rfl⟩
    · refine ⟨rfl, Bool.eq_false_iff.mpr fun traverses => ?_⟩
      cases expects.mp traverses
    · exact ⟨rfl, expects.mpr rfl⟩
  obtain ⟨rfl, known⟩ := isStart
  refine ⟨DocumentsFragment.nodup_loops inScope, inScope, known,
    fragment.query parent.id?,
    fun outcome =>
      fetcher.shape field asked fragment.cardinality
        (FieldPath.root.key asked.responseKey)
        (outcome.records (FieldPath.root.key asked.responseKey)
          fetcher.timeout),
    ?_, ?_, ?_, DocumentsFragment.get?_startParameter_query inScope parent.id?,
    fun outcome failure => not_unbound_of_shape⟩
  · simp only [fetch, prepared, executePrepared,
      DocumentsFragment.execute_eq known]
    rfl
  · cases parent.id? <;> rfl
  · intro unbroken
    exact DocumentsFragment.isClosed_query inScope unbroken known

theorem ownerSelection_names :
    ownerSelection.Everywhere FieldSelection.HasNames := by
  decide

theorem kennel_unbroken : kennel.registry.HasUnbrokenProperties := by
  intro type mapping found
  cases List.mem_singleton.mp (Table.mem_of_get? found)
  decide

/-- The owner of a known pet is asked for with the id of the pet. -/
theorem fetch_owner_asks_closed_query :
    ownerSelection.Everywhere FieldSelection.HasNames ∧
      kennel.registry.HasUnbrokenProperties ∧
      ∃ fragment,
        kennel.compile ownerSelection (.record "Pet" "pets/1") =
            .ok fragment ∧
          fragment.traversesFromStart = true ∧
          ∃ (query : AqlQuery) (answer : QueryOutcome → FetchResult),
            kennel.fetch ownerSelection (.record "Pet" "pets/1") =
                .ask (.query kennel.database query kennel.timeout)
                  (fun outcome => .done (answer outcome)) ∧
              query.IsClosed ∧
              Table.get? query.binds startParameter =
                some (.string "pets/1") := by
  obtain ⟨fragment, compiled⟩ :
      ∃ fragment,
        kennel.compile ownerSelection (.record "Pet" "pets/1") =
          .ok fragment :=
    ⟨_, rfl⟩
  obtain ⟨-, -, traverses, query, answer, asked, -, closed, start, -⟩ :=
    fetch_asks_closed_query ownerSelection_names compiled
  exact ⟨ownerSelection_names, kennel_unbroken, fragment, compiled, traverses,
    query, answer, asked, closed kennel_unbroken, start⟩

/-- The property that names the type of an animal ends the quotes around it. -/
def brokenSchema : String :=
  "interface Animal@vertex(collection:\"animals\")" ++
    "@discriminator(property:\"kind` || @other || v_herd.`kind\")" ++
    "\x7btag:ID\x7d" ++
  "type Dog implements Animal\x7btag:ID\x7d" ++
  "type Query\x7bherd:[Animal]\x7d"

/-- The types of the schema. -/
def brokenTypes : Catalogue TypeDeclaration where
  items := [
    ⟨"Animal", .interface,
      ⟨[⟨"tag", .named "ID", .none⟩], by decide⟩,
      ⟨some ⟨"animals", .document⟩,
        some "kind` || @other || v_herd.`kind", []⟩⟩,
    ⟨"Dog", .object ["Animal"],
      ⟨[⟨"tag", .named "ID", .none⟩], by decide⟩, .none⟩,
    ⟨"Query", .object [],
      ⟨[⟨"herd", .list (.named "Animal"), .none⟩], by decide⟩, .none⟩]
  distinct := by decide

/-- Answers fields of the schema. -/
def brokenFetcher : DataFetcher where
  model := ⟨brokenTypes, [], some "Query"⟩
  registry := {
    mappings := [
      ("Animal",
        ⟨"kind` || @other || v_herd.`kind", [("Dog", "Dog")]⟩)]
    abstractTypes := ["Animal"] }
  chain := .standard
  database := systemDatabase
  timeout := none

/-- The tags of all animals. -/
def herdSelection : FieldSelection :=
  (FieldSelection.ofName "herd").withNested (.ofName "tag")

/-- A schema is accepted whose queries have a placeholder that nothing is bound to. -/
theorem other_unbound :
    Model.ofText brokenSchema = .ok brokenFetcher.model ∧
      DiscriminatorRegistry.ofModel brokenFetcher.model =
        .ok brokenFetcher.registry ∧
      herdSelection.Everywhere FieldSelection.HasNames ∧
      ∃ query next,
        brokenFetcher.fetch herdSelection .root =
            .ask (.query brokenFetcher.database query none) next ∧
          "other" ∈ placeholders query.text ∧
          "other" ∉ Table.keys query.binds := by
  refine ⟨by decide +kernel, by rfl, by decide, _, _, rfl, ?_, ?_⟩
  · decide +kernel
  · decide +kernel

end DataFetcher

end GraphGate
