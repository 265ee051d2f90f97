import GraphGate.Proofs.Provisioning.PlanOrder
import GraphGate.Proofs.Schema.Building

namespace GraphGate

/-!
# What a plan lists, and nothing else

A plan is made in three walks over the types, each with its own notion of the
collection that belongs to a type. What comes of it is said here by what is
declared: the collections are those that types and relations name, and the
indexes those that discriminators and fields ask for. No index that is asked for
is lost, since its collection is always one of those that are named.
-/

namespace Model

variable {model : Model} {declaration : TypeDeclaration}
variable {collection : String} {index : IndexSpec}

/--
The indexes that the records of a collection are found by: those on properties
that tell records of an abstract type apart, and those that fields declare.
-/
inductive Indexes (model : Model) (collection : String) : IndexSpec → Prop where
  | discriminator
      {declaration : TypeDeclaration}
      {property : String} :
      declaration ∈ model.types.items →
      declaration.kind.isAbstract = true →
      declaration.directives.discriminator = some property →
      (model.collectionFor? declaration.name = some collection ∨
        model.collectionFor? declaration.name = none ∧
          ∃ type ∈ model.possibleTypes declaration.name,
            type.directives.collection? = some collection) →
      Indexes model collection ⟨.persistent, [property], false, false⟩
  | field
      {declaration : TypeDeclaration}
      {field : FieldDeclaration}
      {index : IndexDirective} :
      declaration ∈ model.types.items →
      declaration.directives.collection? = some collection →
      field ∈ declaration.fields.items →
      field.directives.index = some index →
      Indexes model collection
        ⟨index.kind, [field.name], index.unique, index.sparse⟩

/-- The records of a type that names a collection are found there. -/
theorem collectionFor?_of_collection?
    (declared : declaration ∈ model.types.items)
    (stored : declaration.directives.collection? = some collection) :
    model.collectionFor? declaration.name = some collection := by
  apply collectionFor?_eq_some_iff.mpr
  left
  rw [typeDirectives_of_type? (type?_of_mem declared)]
  exact stored

/-- A type with an index on a field names the collection that its records are found in. -/
theorem collection?_eq_collectionFor?_of_index
    (checked : model.check = .ok ())
    (declared : declaration ∈ model.types.items)
    {field : FieldDeclaration}
    (isField : field ∈ declaration.fields.items)
    (indexed : field.directives.index.isSome = true) :
    declaration.directives.collection? =
      model.collectionFor? declaration.name := by
  obtain ⟨each, -⟩ := check_eq_ok_iff.mp checked
  have isStored := (each declaration declared).1.indexes field isField indexed
  obtain ⟨storage, isStorage⟩ := Option.isSome_iff_exists.mp isStored
  have stored :
      declaration.directives.collection? = some storage.collection := by
    rw [TypeDirectives.collection?, isStorage]
    rfl
  rw [stored, collectionFor?_of_collection? declared stored]

/-- The collection of an index is in use. -/
theorem Indexes.exists_use
    (indexes : model.Indexes collection index) :
    ∃ use ∈ model.collectionUses, use.collection = collection := by
  cases indexes with
  | discriminator _ _ _ placed =>
      rcases placed with shared | ⟨-, type, possible, stored⟩
      · exact exists_use_of_collectionFor? shared
      · exact exists_use_of_mem_types
          (mem_types_of_mem_possibleTypes possible) stored
  | field declared stored _ _ =>
      exact exists_use_of_mem_types declared stored

end Model

namespace CollectionPlan

variable {plan : CollectionPlan} {request : String × IndexSpec}
variable {requests : List (String × IndexSpec)}

/-- An index that is listed already is not listed again. -/
theorem nodup_indexes_take
    (distinct : plan.indexes.Nodup) :
    (plan.take request).indexes.Nodup := by
  unfold take addIndex
  split
  · split
    · exact distinct
    · rename_i absent
      simpa using List.Nodup.concat absent distinct
  · exact distinct

theorem nodup_indexes_foldl_take
    (distinct : plan.indexes.Nodup) :
    (requests.foldl take plan).indexes.Nodup := by
  induction requests generalizing plan with
  | nil =>
      exact distinct
  | cons request rest inductionHypothesis =>
      exact inductionHypothesis (nodup_indexes_take distinct)

end CollectionPlan

namespace ProvisioningPlan

open Model

variable {builder : ModelBuilder} {model : Model}
variable {collection : String} {index : IndexSpec}

theorem nodup_indexes_of_mem_ofModel
    {planned : CollectionPlan}
    (member : planned ∈ (ofModel model).collections) :
    planned.indexes.Nodup := by
  rw [collections_ofModel] at member
  obtain ⟨entry, -, rfl⟩ := List.mem_map.mp member
  exact CollectionPlan.nodup_indexes_foldl_take List.nodup_nil

/-! What is requested. -/

/-- A discriminator is indexed where all records of the type are, or wherever some of them are. -/
theorem mem_discriminatorCollections_iff {name : String} :
    collection ∈ discriminatorCollections model name ↔
      model.collectionFor? name = some collection ∨
        model.collectionFor? name = none ∧
          ∃ type ∈ model.possibleTypes name,
            type.directives.collection? = some collection := by
  unfold discriminatorCollections
  cases model.collectionFor? name with
  | none =>
      simp
  | some shared =>
      simp [eq_comm]

theorem mem_discriminatorIndexes_iff :
    (collection, index) ∈ discriminatorIndexes model ↔
      ∃ declaration ∈ model.types.items, ∃ property,
        declaration.directives.discriminator = some property ∧
          collection ∈ discriminatorCollections model declaration.name ∧
          index = IndexSpec.persistent [property] := by
  rw [discriminatorIndexes, List.mem_flatMap]
  refine exists_congr fun declaration => and_congr_right fun _ => ?_
  cases declaration.directives.discriminator with
  | none =>
      simp
  | some property =>
      simp [eq_comm]

theorem mem_fieldIndexes_iff :
    (collection, index) ∈ fieldIndexes model ↔
      ∃ declaration ∈ model.types.items,
        model.collectionFor? declaration.name = some collection ∧
          ∃ field ∈ declaration.fields.items, fieldIndex? field = some index := by
  rw [fieldIndexes, List.mem_flatMap]
  refine exists_congr fun declaration => and_congr_right fun _ => ?_
  cases model.collectionFor? declaration.name with
  | none =>
      simp
  | some shared =>
      simp [eq_comm, and_comm]

/-- What is requested in a model that passes its check are the indexes of its collections. -/
theorem mem_requestedIndexes_iff
    (checked : model.check = .ok ()) :
    (collection, index) ∈ requestedIndexes model ↔
      model.Indexes collection index := by
  rw [requestedIndexes, List.mem_append, mem_discriminatorIndexes_iff,
    mem_fieldIndexes_iff]
  constructor
  · rintro (⟨type, declared, property, named, placed, rfl⟩ |
      ⟨type, declared, stored, field, isField, isIndex⟩)
    · obtain ⟨each, -⟩ := check_eq_ok_iff.mp checked
      have isAbstract : type.kind.isAbstract = true :=
        (each type declared).1.discriminator (by rw [named]; rfl)
      exact .discriminator declared isAbstract named
        (mem_discriminatorCollections_iff.mp placed)
    · obtain ⟨directive, indexed, rfl⟩ := Option.map_eq_some_iff.mp isIndex
      have same :=
        collection?_eq_collectionFor?_of_index checked declared isField
          (by rw [indexed]; rfl)
      exact .field declared (same.trans stored) isField indexed
  · intro indexes
    cases indexes with
    | discriminator declared _ named placed =>
        exact .inl ⟨_, declared, _, named,
          mem_discriminatorCollections_iff.mpr placed, rfl⟩
    | field declared stored isField indexed =>
        refine .inr ⟨_, declared, collectionFor?_of_collection? declared stored,
          _, isField, ?_⟩
        rw [fieldIndex?, indexed]
        rfl

/-! The plan. -/

/--
The plan of a model that was built lists each collection that a type or a relation
names once, and no other, with the kind that everything that names it says. It
lists no index twice, and lists an index for a collection exactly if it is on the
discriminator of an abstract type whose records are there, or one that a field of
a type stored there declares.
-/
theorem plan_lists_what_is_declared
    (built : builder.build = .ok model) :
    ((ofModel model).collections.map CollectionPlan.name).Nodup ∧
      (∀ name,
        (∃ planned ∈ (ofModel model).collections, planned.name = name) ↔
          ∃ kind, builder.Uses name kind) ∧
      (∀ planned ∈ (ofModel model).collections,
        planned.indexes.Nodup ∧
          ∀ kind, builder.Uses planned.name kind ↔ kind = planned.kind) ∧
      ∀ name index,
        (∃ planned ∈ (ofModel model).collections,
            planned.name = name ∧ index ∈ planned.indexes) ↔
          model.Indexes name index := by
  have checked := check_of_build built
  obtain ⟨-, agree⟩ := check_eq_ok_iff.mp checked
  obtain ⟨wellFormed, assembles⟩ :=
    ModelBuilder.wellFormed_and_assembles_of_build built
  have listed (name : String) (kind : CollectionKind) :
      (∃ planned ∈ (ofModel model).collections,
          planned.name = name ∧ planned.kind = kind) ↔
        builder.Uses name kind := by
    rw [exists_planned_iff agree]
    exact ModelBuilder.exists_use_iff_uses assembles.types name kind
  refine ⟨?_, ?_, ?_, ?_⟩
  · rw [names_ofModel]
    exact model.nodup_keys_collections
  · intro name
    constructor
    · rintro ⟨planned, isPlanned, rfl⟩
      exact ⟨planned.kind, (listed _ _).mp ⟨planned, isPlanned, rfl, rfl⟩⟩
    · rintro ⟨kind, uses⟩
      obtain ⟨planned, isPlanned, sameName, -⟩ := (listed name kind).mpr uses
      exact ⟨planned, isPlanned, sameName⟩
  · intro planned isPlanned
    have uses : builder.Uses planned.name planned.kind :=
      (listed _ _).mp ⟨planned, isPlanned, rfl, rfl⟩
    refine ⟨nodup_indexes_of_mem_ofModel isPlanned, fun kind => ⟨?_, ?_⟩⟩
    · intro usesToo
      exact wellFormed.collections planned.name kind planned.kind usesToo uses
    · rintro rfl
      exact uses
  · intro name index
    constructor
    · rintro ⟨planned, isPlanned, rfl, isListed⟩
      rw [← mem_requestedIndexes_iff checked]
      exact (mem_indexes_iff_of_mem_ofModel isPlanned).mp isListed
    · intro indexes
      obtain ⟨use, isUse, rfl⟩ := indexes.exists_use
      obtain ⟨planned, isPlanned, sameName, -⟩ :=
        (exists_planned_iff agree).mpr ⟨use, isUse, rfl, rfl⟩
      refine ⟨planned, isPlanned, sameName, ?_⟩
      rw [mem_indexes_iff_of_mem_ofModel isPlanned, sameName,
        mem_requestedIndexes_iff checked]
      exact indexes

/-- The number of a dog, which no two dogs share. -/
def chip : FieldDeclaration :=
  ⟨"chip", .named "ID", ⟨none, some ⟨.persistent, true, false⟩⟩⟩

/-- Animals of which dogs and cats are kept apart, and keepers. -/
def shelterTypes : Catalogue TypeDeclaration where
  items := [
    ⟨"Animal", .interface, Catalogue.empty, ⟨none, some "kind", []⟩⟩,
    ⟨"Dog", .object ["Animal"], Catalogue.single chip,
      ⟨some ⟨"dogs", .document⟩, none, []⟩⟩,
    ⟨"Cat", .object ["Animal"], Catalogue.empty,
      ⟨some ⟨"cats", .document⟩, none, []⟩⟩,
    ⟨"Keeper", .object [],
      Catalogue.single
        ⟨"animals", .list (.named "Animal"),
          ⟨some ⟨"keeps", .outbound⟩, none⟩⟩,
      ⟨some ⟨"keepers", .document⟩, none, []⟩⟩]
  distinct := by decide

theorem build_shelter :
    (⟨shelterTypes, [], [], none⟩ : ModelBuilder).build =
      .ok ⟨shelterTypes, [], none⟩ := by
  rfl

/-- Animals are told apart in both collections, and keepers reach them along edges. -/
theorem shelter_plan_lists_animals :
    (⟨shelterTypes, [], [], none⟩ : ModelBuilder).build =
        .ok ⟨shelterTypes, [], none⟩ ∧
      (∃ planned ∈ (ofModel ⟨shelterTypes, [], none⟩).collections,
        planned.name = "cats" ∧
          IndexSpec.persistent ["kind"] ∈ planned.indexes) ∧
      (∃ planned ∈ (ofModel ⟨shelterTypes, [], none⟩).collections,
        planned.name = "dogs" ∧
          ⟨.persistent, ["chip"], true, false⟩ ∈ planned.indexes) ∧
      ∀ planned ∈ (ofModel ⟨shelterTypes, [], none⟩).collections,
        planned.name = "keeps" → planned.kind = .edge := by
  obtain ⟨-, -, each, indexes⟩ := plan_lists_what_is_declared build_shelter
  have isAnimal : shelterTypes.items[0] ∈ shelterTypes.items := by
    decide
  have isDog : shelterTypes.items[1] ∈ shelterTypes.items := by
    decide
  have isKeeper : shelterTypes.items[3] ∈ shelterTypes.items := by
    decide
  refine ⟨build_shelter, ?_, ?_, ?_⟩
  · refine (indexes "cats" _).mpr (.discriminator isAnimal rfl rfl (.inr ?_))
    exact ⟨rfl, shelterTypes.items[2], by decide, rfl⟩
  · have isChip : chip ∈ shelterTypes.items[1].fields.items :=
      List.mem_singleton_self _
    have isIndexed :
        chip.directives.index = some ⟨.persistent, true, false⟩ :=
      rfl
    exact (indexes "dogs" _).mpr (.field isDog rfl isChip isIndexed)
  · intro planned isPlanned isEdges
    have related :
        (⟨shelterTypes, [], [], none⟩ : ModelBuilder).Uses "keeps" .edge :=
      .related isKeeper (List.mem_singleton_self _) rfl
    exact (((each planned isPlanned).2 .edge).mp (isEdges ▸ related)).symm

end ProvisioningPlan

end GraphGate
