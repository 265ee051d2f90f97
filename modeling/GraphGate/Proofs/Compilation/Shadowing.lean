import GraphGate.Proofs.Aql.QueryParts
import GraphGate.Proofs.Compilation.Scoping

namespace GraphGate

/-!
# What stands beside the metadata

Every document is returned as an object with its metadata under a reserved key,
and next to it an entry for every selected response key. Response keys are chosen
by clients, and no check keeps them from the reserved key. So the metadata can be
shadowed, just by a field that is selected under that key; and inside the
metadata, the id by a discriminator property of the same name.
-/

namespace Compiler

variable {compiler : Compiler} {parentType : String} {scope : Scope}
variable {keys : List String} {selection : FieldSelection}
variable {fragment : DocumentsFragment}

/-- The keys of a returned object are distinct unless a nested field has the reserved key. -/
theorem Accepts.nodup_keys_returnedMembers_iff
    (accepts :
      compiler.Accepts parentType scope keys selection (.documents fragment)) :
    (Table.keys fragment.returnedMembers).Nodup ↔
      ∀ nested ∈ selection.nested, nested.isTypename = false →
        nested.responseKey ≠ metaKey := by
  obtain ⟨field, declared⟩ := accepts.exists_declaration
  obtain ⟨-, -, projected⟩ := accepts.of_documents declared
  have distinct := nodup_keys_of_compileProjection projected List.nodup_nil
  rw [DocumentsFragment.keys_returnedMembers, List.nodup_cons,
    and_iff_left distinct, mem_keys_of_compileProjection projected]
  simp [Table.keys]

/-- The keys of the metadata are distinct unless the concrete type is told by the id. -/
theorem Accepts.nodup_keys_metadataMembers_iff
    (accepts :
      compiler.Accepts parentType scope keys selection (.documents fragment))
    {field : FieldDeclaration}
    (declared :
      compiler.model.field? parentType selection.name = some field) :
    (Table.keys fragment.metadataMembers).Nodup ↔
      ∀ mapping,
        compiler.registry.mapping? field.type.namedType = some mapping →
          mapping.property ≠ "_id" := by
  obtain ⟨-, isDiscriminator, -⟩ := accepts.of_documents declared
  rw [DocumentsFragment.nodup_keys_metadataMembers_iff, isDiscriminator]
  simp

end Compiler

namespace DataFetcher

variable {fetcher : DataFetcher} {selection : FieldSelection}
variable {parent : FetchParent} {fragment : DocumentsFragment}

/--
At any depth of an accepted tree, the query returns an object literal for the
field at the path of a fragment. Its keys are distinct exactly if none of the
fields that are selected there has the reserved key, and then the reserved key
has the metadata. The keys of the metadata are distinct exactly if the property
that names the concrete type is not the id.
-/
theorem metadata_stands_unless_selected_under_its_key
    (compiled : fetcher.compile selection parent = .ok fragment)
    {node : FragmentNode}
    (member : node ∈ fragment.nodes [selection.responseKey]) :
    IsPartOf
        ("RETURN " ++ DocumentsFragment.literal node.fragment.returnedMembers)
        fragment.render.text ∧
      ∃ owner field declaration,
        selection.Occurs node.path field ∧
          fetcher.model.field? owner field.name = some declaration ∧
          ((Table.keys node.fragment.returnedMembers).Nodup ↔
            ∀ nested ∈ field.nested, nested.isTypename = false →
              nested.responseKey ≠ metaKey) ∧
          ((Table.keys node.fragment.returnedMembers).Nodup →
            ∀ value,
              (metaKey, value) ∈ node.fragment.returnedMembers ↔
                value =
                  DocumentsFragment.literal node.fragment.metadataMembers) ∧
          ((Table.keys node.fragment.metadataMembers).Nodup ↔
            ∀ mapping,
              fetcher.registry.mapping? declaration.type.namedType =
                  some mapping →
                mapping.property ≠ "_id") := by
  obtain ⟨field, owner, scope, above, occurs, -, -, accepts⟩ :=
    exists_answers_of_compile compiled member
  obtain ⟨declaration, declared⟩ := accepts.exists_declaration
  constructor
  · rw [← DocumentsFragment.returnClause_eq]
    exact DocumentsFragment.isPartOf_text_of_mem_nodes member
      (List.mem_append_right _ (List.mem_singleton_self _)) "\n  "
  · exact ⟨owner, field, declaration, occurs, declared,
      accepts.nodup_keys_returnedMembers_iff,
      DocumentsFragment.mem_returnedMembers_metaKey_iff,
      accepts.nodup_keys_metadataMembers_iff declared⟩

/-- All pets are returned with nothing but their metadata under its key. -/
theorem pets_return_their_metadata :
    ∃ fragment,
      kennel.compile petsSelection .root = .ok fragment ∧
        (Table.keys fragment.returnedMembers).Nodup ∧
        (Table.keys fragment.metadataMembers).Nodup := by
  obtain ⟨fragment, compiled⟩ :
      ∃ fragment, kennel.compile petsSelection .root = .ok fragment :=
    ⟨_, rfl⟩
  have outermost : (⟨["pets"], fragment⟩ : FragmentNode) ∈
      fragment.nodes [petsSelection.responseKey] :=
    DocumentsFragment.mem_nodes.mpr (.inl rfl)
  obtain ⟨-, owner, field, declaration, occurs, declared, returned, -,
      metadata⟩ :=
    metadata_stands_unless_selected_under_its_key compiled outermost
  have isPets : field = petsSelection := occurs.eq_of_singleton
  refine ⟨fragment, compiled, returned.mpr ?_, metadata.mpr ?_⟩
  · subst isPets
    decide
  · intro mapping found
    have isOfPets := List.mem_singleton.mp (Table.mem_of_get? found)
    rw [(Prod.mk.inj isOfPets).2]
    decide

/-- All pets, with their owners under the key of the metadata. -/
def shadowingSelection : FieldSelection :=
  (FieldSelection.ofName "pets").withNested
    (((FieldSelection.ofName "owner").withLabel metaKey).withNested
      (FieldSelection.ofName "name"))

/-- The owners of the pets stand under the reserved key, where their metadata should be. -/
theorem owners_shadow_metadata :
    (⟨kennelTypes, [], [], none⟩ : ModelBuilder).build = .ok kennel.model ∧
      DiscriminatorRegistry.ofModel kennel.model = .ok kennel.registry ∧
      shadowingSelection.Everywhere FieldSelection.HasNames ∧
      ∃ fragment,
        kennel.compile shadowingSelection .root = .ok fragment ∧
          Table.keys fragment.returnedMembers = [metaKey, metaKey] ∧
          ¬ (Table.keys fragment.returnedMembers).Nodup := by
  refine ⟨by rfl, by rfl, by decide, _, rfl, rfl, ?_⟩
  exact fun distinct => absurd (List.mem_singleton_self _)
    (List.nodup_cons.mp distinct).1

end DataFetcher

end GraphGate
