import GraphGate.Proofs.Compilation.Agreement
import GraphGate.Proofs.Compilation.Fields
import GraphGate.Proofs.Store.Selecting

namespace GraphGate

open GraphQL

/-!
# What the fragments of a compiled tree refer to

Every documents fragment of a compiled tree has the loop variable of its own
path, returns properties of its own documents, and only its own documents are
where the inner traversals start. With names for keys, fields and arguments the
placeholders of a tree are apart, so no value is bound in another one's place.
-/

namespace FieldSelection

/-- The field, its alias and its arguments have names. -/
structure HasNames (selection : FieldSelection) : Prop where
  name : IsName selection.name
  label : ∀ label, selection.label = some label → IsName label
  arguments : ∀ argument ∈ selection.arguments, IsName argument.1

instance : DecidablePred HasNames :=
  fun selection =>
    decidable_of_iff
      (IsName selection.name ∧
        (∀ label ∈ selection.label.toList, IsName label) ∧
        ∀ argument ∈ selection.arguments.map Prod.fst, IsName argument)
      ⟨fun ⟨name, label, arguments⟩ =>
          ⟨name, fun other isLabel => label other (by simp [isLabel]),
            List.forall_mem_map.mp arguments⟩,
        fun ⟨name, label, arguments⟩ =>
          ⟨name, fun other isLabel => label other (by simpa using isLabel),
            List.forall_mem_map.mpr arguments⟩⟩

theorem HasNames.responseKey
    {selection : FieldSelection}
    (names : selection.HasNames) :
    IsName selection.responseKey := by
  cases label : selection.label with
  | none =>
      simpa [FieldSelection.responseKey, label] using names.name
  | some other =>
      simpa [FieldSelection.responseKey, label] using names.label other label

end FieldSelection

/-- What is found under the name of a field has that name. -/
theorem Model.name_of_field?
    {model : Model}
    {type name : String}
    {field : FieldDeclaration}
    (declared : model.field? type name = some field) :
    field.name = name := by
  obtain ⟨declaration, -, found⟩ := Option.bind_eq_some_iff.mp declared
  exact Catalogue.name_of_find? found

/-- A filter comes from an argument that is no count. -/
theorem CompiledArguments.exists_argument_of_filter
    {parentType : String}
    {selection : FieldSelection}
    {arguments : CompiledArguments}
    (argued : ofSelection parentType selection = .ok arguments)
    {filter : Filter}
    (member : filter ∈ arguments.filters) :
    ∃ argument ∈ selection.arguments,
      argument.1 = filter.property ∧ Store.isFilter argument = true := by
  rw [filters_of_ofSelection argued] at member
  obtain ⟨argument, kept, rfl⟩ := List.mem_map.mp member
  obtain ⟨given, isFilter⟩ := List.mem_filter.mp kept
  exact ⟨argument, given, rfl, isFilter⟩

namespace Compiler

variable {compiler : Compiler} {parentType : String} {scope : Scope}
variable {keys path : List String} {selection : FieldSelection}
variable {fragment : DocumentsFragment}

/-- A field of a document that compiles to a property is read from that document. -/
theorem Accepts.property_of_document
    {loop other name : String}
    (accepts :
      compiler.Accepts parentType (.document loop) keys selection
        (.property other name)) :
    other = loop ∧ name = selection.name := by
  cases accepts with
  | property declared _ _ _ inside _ =>
      refine ⟨?_, Model.name_of_field? declared⟩
      rcases inside with isDocument | isEmbedded
      · exact (Scope.document.inj isDocument).symm
      · cases isEmbedded

/-- A field of a document that compiles to documents is a step from that document. -/
theorem Accepts.source_of_document
    {loop : String}
    (accepts :
      compiler.Accepts parentType (.document loop) keys selection
        (.documents fragment)) :
    ∃ direction edges,
      fragment.source = .traversal (.loop loop) direction edges := by
  cases accepts with
  | documents _ _ _ feeds _ =>
      cases feeds with
      | traversal _ isScope =>
          cases Scope.document.inj isScope
          exact ⟨_, _, rfl⟩
      | traversalFromStart _ isScope =>
          cases isScope
      | scan _ isScope _ =>
          cases isScope

/-- Only what is selected on a record expects the id of a start document. -/
theorem Accepts.traversesFromStart_iff
    (accepts :
      compiler.Accepts parentType scope keys selection (.documents fragment)) :
    fragment.traversesFromStart = true ↔ scope = .startVertex := by
  cases accepts with
  | documents _ _ _ feeds _ =>
      cases feeds with
      | traversal _ isScope =>
          cases isScope
          exact iff_of_false (fun expects => nomatch expects) nofun
      | traversalFromStart _ isScope =>
          exact iff_of_true rfl isScope
      | scan _ isScope _ =>
          cases isScope
          exact iff_of_false (fun expects => nomatch expects) nofun

end Compiler

/--
A fragment with the variable of its path, which reads its own documents and
starts the inner traversals there. If it starts at other documents itself, then
at those of the path above. The discriminator is that of some type.
-/
structure FragmentNode.IsScoped
    (registry : DiscriminatorRegistry)
    (node : FragmentNode) : Prop where
  present : node.path ≠ []
  named : ∀ key ∈ node.path, IsName key
  loop : node.fragment.loop = variableName node.path
  start : ∀ name direction edges,
    node.fragment.source = .traversal (.loop name) direction edges →
      name = variableName node.path.dropLast
  filters : ∀ filter ∈ node.fragment.filters,
    IsName filter.property ∧
      filter.property ≠ CompiledArguments.limitArgument ∧
      filter.property ≠ CompiledArguments.offsetArgument
  keys : (Table.keys node.fragment.projection).Nodup
  properties : ∀ key loop name,
    (key, QueryFragment.property loop name) ∈ node.fragment.projection →
      loop = node.fragment.loop ∧ IsName name
  documents : ∀ key inner,
    (key, QueryFragment.documents inner) ∈ node.fragment.projection →
      ∃ direction edges,
        inner.source =
          .traversal (.loop node.fragment.loop) direction edges
  discriminator : ∀ property,
    node.fragment.discriminator = some property →
      ∃ type mapping,
        registry.mapping? type = some mapping ∧ mapping.property = property

namespace Compiler

variable {compiler : Compiler} {parentType : String} {scope : Scope}
variable {keys : List String} {selection : FieldSelection}
variable {fragment : DocumentsFragment}

/-- The documents of an accepted field refer to nothing but themselves. -/
theorem Accepts.isScoped
    (accepts :
      compiler.Accepts parentType scope keys selection (.documents fragment))
    (above : ∀ loop, scope = .document loop → loop = variableName keys)
    (named : ∀ key ∈ keys, IsName key)
    (names : selection.Everywhere FieldSelection.HasNames) :
    FragmentNode.IsScoped compiler.registry
      ⟨keys ++ [selection.responseKey], fragment⟩ := by
  cases accepts with
  | documents declared selected argued feeds projected =>
      exact {
        present := by simp
        named := fun key member => by
          rcases List.mem_append.mp member with earlier | own
          · exact named key earlier
          · exact List.mem_singleton.mp own ▸ names.here.responseKey
        loop := rfl
        start := fun name direction edges isTraversal => by
          rw [List.dropLast_concat]
          cases feeds with
          | traversal _ isScope =>
              cases isTraversal
              exact above name isScope
          | traversalFromStart _ _ =>
              cases isTraversal
          | scan _ _ _ =>
              cases isTraversal
        filters := fun filter member => by
          obtain ⟨argument, given, isProperty, isFilter⟩ :=
            CompiledArguments.exists_argument_of_filter argued member
          rw [← isProperty]
          exact ⟨names.here.arguments argument given,
            of_decide_eq_true isFilter⟩
        keys := nodup_keys_of_compileProjection projected List.nodup_nil
        properties := fun key loop name member => by
          obtain ⟨inner, among, -, owner, -, compiled⟩ :=
            exists_nested_of_mem_projection projected member
          obtain ⟨isLoop, isName⟩ :=
            (accepts_of_compileField compiled).property_of_document
          exact ⟨isLoop, isName ▸ (names.inside among).here.name⟩
        documents := fun key inner member => by
          obtain ⟨innerSelection, -, -, owner, -, compiled⟩ :=
            exists_nested_of_mem_projection projected member
          exact (accepts_of_compileField compiled).source_of_document
        discriminator := fun property isProperty => by
          obtain ⟨mapping, found, read⟩ := Option.map_eq_some_iff.mp isProperty
          exact ⟨_, mapping, found, read⟩
      }

end Compiler

namespace DocumentsFragment

/--
The sites where a tree binds a value are told apart by the placeholders: what is
found under the placeholder of a site was bound at that site.
-/
structure BindsApart
    (path : List String)
    (fragment : DocumentsFragment) : Prop where
  binds : fragment.bindings =
    (fragment.sites path).map fun entry => (entry.1.name, entry.2)
  paths : ((fragment.nodes path).map FragmentNode.path).Nodup
  apart : ∀ first ∈ fragment.sites path, ∀ second ∈ fragment.sites path,
    first.1.name = second.1.name → first.1 = second.1
  notStart : ∀ entry ∈ fragment.sites path, entry.1.name ≠ startParameter
  kept : ∀ entry ∈ fragment.sites path,
    ∃ value,
      (entry.1, value) ∈ fragment.sites path ∧
        Table.get? fragment.render.binds entry.1.name = some value

variable {registry : DiscriminatorRegistry} {path : List String}
variable {fragment : DocumentsFragment}

/-- The sites of a fragment in scope have names to tell them apart. -/
theorem isNamed_of_mem_sites
    (inScope : ∀ node ∈ fragment.nodes path, node.IsScoped registry)
    {entry : BindSite × Json}
    (member : entry ∈ fragment.sites path) :
    entry.1.IsNamed := by
  obtain ⟨node, among, ofNode⟩ := mem_sites.mp member
  have isScoped := inScope node among
  obtain ⟨samePath, ofKind⟩ := FragmentNode.of_mem_sites ofNode
  exact {
    present := samePath ▸ isScoped.present
    path := samePath ▸ isScoped.named
    filter := fun property isFilter => by
      rw [isFilter] at ofKind
      obtain ⟨filter, given, rfl⟩ := exists_filter_of_mem_kinds ofKind
      exact isScoped.filters filter given
  }

theorem nodup_paths_of_isScoped
    (inScope : ∀ node ∈ fragment.nodes path, node.IsScoped registry) :
    ((fragment.nodes path).map FragmentNode.path).Nodup :=
  nodup_paths fun node member => (inScope node member).keys

/-- Where every fragment is in scope, no two sites share a placeholder. -/
theorem bindsApart_of_isScoped
    (inScope : ∀ node ∈ fragment.nodes path, node.IsScoped registry) :
    fragment.BindsApart path := by
  have binds := bindings_eq_sites fun node member => (inScope node member).loop
  have apart :
      ∀ first ∈ fragment.sites path, ∀ second ∈ fragment.sites path,
        first.1.name = second.1.name → first.1 = second.1 :=
    fun first isFirst second isSecond =>
      BindSite.name_injective (isNamed_of_mem_sites inScope isFirst)
        (isNamed_of_mem_sites inScope isSecond)
  refine ⟨binds, nodup_paths_of_isScoped inScope, apart, ?_, ?_⟩
  · intro entry member
    exact BindSite.name_ne_startParameter
      (isNamed_of_mem_sites inScope member).present
  · intro entry member
    have bound : entry.1.name ∈ Table.keys fragment.render.binds := by
      rw [render, Table.mem_keys_ofPairs, binds, List.map_map]
      exact List.mem_map.mpr ⟨entry, member, rfl⟩
    rw [← Table.has_iff_mem_keys] at bound
    obtain ⟨value, found⟩ := Option.isSome_iff_exists.mp bound
    have collected := Table.mem_of_get?_ofPairs found
    rw [binds] at collected
    obtain ⟨written, among, isWritten⟩ := List.mem_map.mp collected
    obtain ⟨sameName, rfl⟩ := Prod.mk.inj isWritten
    have sameSite := apart written among entry member sameName
    exact ⟨written.2, sameSite ▸ among, found⟩

end DocumentsFragment

namespace DataFetcher

variable {fetcher : DataFetcher} {selection : FieldSelection}
variable {parent : FetchParent} {fragment : DocumentsFragment}

/-- Every fragment of a tree that answers a field refers to nothing but itself. -/
theorem isScoped_of_compile
    (names : selection.Everywhere FieldSelection.HasNames)
    (compiled : fetcher.compile selection parent = .ok fragment) :
    ∀ node ∈ fragment.nodes [selection.responseKey],
      node.IsScoped fetcher.registry := by
  intro node member
  obtain ⟨field, type, scope, above, occurs, isPath, ofDocument, accepts⟩ :=
    exists_answers_of_compile compiled member
  have named : ∀ key ∈ above, IsName key := by
    intro key isAbove
    have onPath : key ∈ node.path :=
      isPath ▸ List.mem_append_left _ isAbove
    obtain ⟨outer, hasNames, rfl⟩ := names.exists_of_mem_path occurs onPath
    exact hasNames.responseKey
  have isScoped := accepts.isScoped ofDocument named (names.of_occurs occurs)
  rwa [← isPath] at isScoped

/-- No value of a compiled field is bound in another one's place, whatever the aliases are. -/
theorem bindsApart_of_compile
    (names : selection.Everywhere FieldSelection.HasNames)
    (compiled : fetcher.compile selection parent = .ok fragment) :
    fragment.BindsApart [selection.responseKey] :=
  DocumentsFragment.bindsApart_of_isScoped (isScoped_of_compile names compiled)

/-- Pets of a name, with an owner under an alias that filters put into their placeholders. -/
def argSelection : FieldSelection where
  name := "pets"
  label := none
  arguments := [("limit", .nat 2), ("name", .string "Rex")]
  conditions := []
  nested := [{
    name := "owner"
    label := some "arg"
    arguments := [("limit", .nat 1)]
    conditions := []
    nested := [.ofName "name"] }]

theorem argSelection_names :
    argSelection.Everywhere FieldSelection.HasNames := by
  decide

/-- The limit of the owners and the filter of the pets are bound apart. -/
theorem arg_bindsApart :
    argSelection.Everywhere FieldSelection.HasNames ∧
      ∃ fragment,
        kennel.compile argSelection .root = .ok fragment ∧
          fragment.BindsApart ["pets"] ∧
          Table.keys fragment.render.binds =
            ["@v_pets_collection", "v_pets_arg_name", "v_pets_limit",
              "@v_pets_arg_edges", "v_pets_arg_limit"] := by
  obtain ⟨fragment, compiled, keys⟩ :
      ∃ fragment,
        kennel.compile argSelection .root = .ok fragment ∧
          Table.keys fragment.render.binds =
            ["@v_pets_collection", "v_pets_arg_name", "v_pets_limit",
              "@v_pets_arg_edges", "v_pets_arg_limit"] :=
    ⟨_, rfl, by decide +kernel⟩
  exact ⟨argSelection_names, fragment, compiled,
    bindsApart_of_compile argSelection_names compiled, keys⟩

end DataFetcher

end GraphGate
