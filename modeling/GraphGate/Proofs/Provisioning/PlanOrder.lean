import GraphGate.Proofs.Provisioning.Planning
import GraphGate.Proofs.Schema.Resemblance

namespace GraphGate

/-!
# Plans of models that resemble each other

Where the records of a type live, which collections there are and which indexes
they get is looked up in lists of types. The first hit decides, but all hits
agree, so the order of the types does not matter.
-/

/-- Entries of a table without repetitions are what is found in it. -/
theorem Table.get?_eq_some_iff_of_nodup
    {α : Type}
    {table : Table α}
    {key : String}
    {value : α}
    (distinct : table.keys.Nodup) :
    table.get? key = some value ↔ (key, value) ∈ table := by
  constructor
  · exact Table.mem_of_get?
  · intro member
    have present : table.has key = true :=
      (Table.has_iff_mem_keys table key).mpr (List.mem_map_of_mem member)
    obtain ⟨other, found⟩ := Option.isSome_iff_exists.mp present
    have same : (key, other) = (key, value) :=
      List.inj_on_of_nodup_map distinct (Table.mem_of_get? found) member rfl
    rw [found, (Prod.mk.inj same).2]

namespace Model

variable {model first second : Model} {name collection : String}

/--
A type is stored where its directive says, or, if it is abstract and says nothing,
where all of its possible types are stored, if there are any.
-/
theorem collectionFor?_eq_some_iff :
    model.collectionFor? name = some collection ↔
      (model.typeDirectives name).collection? = some collection ∨
        (model.typeDirectives name).collection? = none ∧
          model.isAbstract name = true ∧
          (∃ type, type ∈ model.possibleTypes name) ∧
          ∀ type ∈ model.possibleTypes name,
            type.directives.collection? = some collection := by
  unfold collectionFor?
  cases (model.typeDirectives name).collection? with
  | some own =>
      simp
  | none =>
      cases model.isAbstract name with
      | false =>
          simp
      | true =>
          cases model.possibleTypes name with
          | nil =>
              simp
          | cons type others =>
              cases stored : type.directives.collection? with
              | none =>
                  simp [stored]
              | some shared =>
                  simp only [if_true, stored, List.all_eq_true,
                    decide_eq_true_eq, Option.ite_none_right_eq_some,
                    Option.some.injEq, reduceCtorEq, false_or, true_and,
                    List.forall_mem_cons]
                  constructor
                  · rintro ⟨all, rfl⟩
                    exact ⟨⟨type, List.mem_cons_self⟩, rfl, all⟩
                  · rintro ⟨-, rfl, all⟩
                    exact ⟨all, rfl⟩

/-- The collection in the directives of a declared type is in use. -/
theorem exists_use_of_mem_types
    {declaration : TypeDeclaration}
    {collection : String}
    (declared : declaration ∈ model.types.items)
    (stored : declaration.directives.collection? = some collection) :
    ∃ use ∈ model.collectionUses, use.collection = collection := by
  obtain ⟨storage, isStorage, rfl⟩ := Option.map_eq_some_iff.mp stored
  refine ⟨⟨.type declaration.name, storage.collection, storage.kind⟩, ?_, rfl⟩
  apply List.mem_append_left
  apply List.mem_filterMap.mpr
  exact ⟨declaration, declared, by rw [isStorage]; rfl⟩

/-- A collection in which the records of a type are found is in use. -/
theorem exists_use_of_collectionFor?
    (stored : model.collectionFor? name = some collection) :
    ∃ use ∈ model.collectionUses, use.collection = collection := by
  rcases collectionFor?_eq_some_iff.mp stored with
    own | ⟨-, -, ⟨type, possible⟩, shared⟩
  · cases found : model.type? name with
    | none =>
        simp [typeDirectives, found, TypeDirectives.none,
          TypeDirectives.collection?] at own
    | some declaration =>
        rw [typeDirectives_of_type? found] at own
        exact exists_use_of_mem_types (Catalogue.mem_of_find? found) own
  · exact exists_use_of_mem_types (mem_types_of_mem_possibleTypes possible)
      (shared type possible)

namespace Resembles

variable (resembles : first.Resembles second)

include resembles

theorem collectionFor?_eq (name : String) :
    first.collectionFor? name = second.collectionFor? name := by
  have possible := resembles.possibleTypes name
  have someType :
      (∃ type, type ∈ first.possibleTypes name) ↔
        ∃ type, type ∈ second.possibleTypes name := by
    constructor
    · rintro ⟨type, member⟩
      obtain ⟨image, isImage, -⟩ := possible.exists_right member
      exact ⟨image, isImage⟩
    · rintro ⟨image, member⟩
      obtain ⟨type, isType, -⟩ := possible.exists_left member
      exact ⟨type, isType⟩
  have sameCollection {type image : TypeDeclaration}
      (here : type.Resembles image) :
      type.directives.collection? = image.directives.collection? :=
    congrArg (Option.map CollectionDirective.collection) here.storage
  ext collection
  have allStored :
      (∀ type ∈ first.possibleTypes name,
          type.directives.collection? = some collection) ↔
        ∀ type ∈ second.possibleTypes name,
          type.directives.collection? = some collection := by
    constructor
    · intro each image member
      obtain ⟨type, isType, here⟩ := possible.exists_left member
      exact (sameCollection here).symm.trans (each type isType)
    · intro each type member
      obtain ⟨image, isImage, here⟩ := possible.exists_right member
      exact (sameCollection here).trans (each image isImage)
  rw [collectionFor?_eq_some_iff, collectionFor?_eq_some_iff,
    resembles.collection?_eq, resembles.isAbstract_eq, someType, allStored]

/-! Collections. -/

/-- Collections are used by the same types and fields. -/
theorem collectionUses :
    first.collectionUses.Perm second.collectionUses := by
  unfold Model.collectionUses
  apply List.Perm.append
  · apply resembles.types.filterMap
    intro type image here
    rw [here.storage, here.name]
  · apply resembles.types.flatMap
    intro type image here
    unfold relationUsesOf
    rw [here.name]
    exact here.fields.filterMap _

end Resembles

/-- In a model that passes its check, a collection has the kind of any of its uses. -/
theorem get?_collections_eq_some_iff
    {kind : CollectionKind}
    (agree : KindsAgree model.collectionUses) :
    model.collections.get? name = some kind ↔
      ∃ use ∈ model.collectionUses, use.collection = name ∧ use.kind = kind := by
  rw [get?_collections]
  constructor
  · intro found
    obtain ⟨use, isFirst, rfl⟩ := Option.map_eq_some_iff.mp found
    have named := List.find?_some isFirst
    exact ⟨use, List.mem_of_find?_eq_some isFirst, by simpa using named, rfl⟩
  · rintro ⟨use, member, rfl, rfl⟩
    have someUse :
        (model.collectionUses.find?
          (·.collection = use.collection)).isSome = true := by
      rw [List.find?_isSome]
      exact ⟨use, member, by simp⟩
    obtain ⟨other, isFirst⟩ := Option.isSome_iff_exists.mp someUse
    have named : other.collection = use.collection := by
      simpa using List.find?_some isFirst
    rw [isFirst, Option.map_some,
      agree other (List.mem_of_find?_eq_some isFirst) use member named]

theorem Resembles.get?_collections_eq
    (resembles : first.Resembles second)
    (agree : KindsAgree first.collectionUses)
    (name : String) :
    first.collections.get? name = second.collections.get? name := by
  have uses := resembles.collectionUses
  have agreeToo : KindsAgree second.collectionUses := by
    intro one isOne other isOther
    exact agree one (uses.mem_iff.mpr isOne) other (uses.mem_iff.mpr isOther)
  ext kind
  rw [get?_collections_eq_some_iff agree, get?_collections_eq_some_iff agreeToo]
  simp only [uses.mem_iff]

end Model

namespace ProvisioningPlan

open Model

variable {model first second : Model}

/-- A collection is planned with a kind exactly if it is used with that kind. -/
theorem exists_planned_iff
    (agree : KindsAgree model.collectionUses)
    {name : String}
    {kind : CollectionKind} :
    (∃ planned ∈ (ofModel model).collections,
        planned.name = name ∧ planned.kind = kind) ↔
      ∃ use ∈ model.collectionUses, use.collection = name ∧ use.kind = kind := by
  rw [exists_mem_ofModel_iff,
    ← Table.get?_eq_some_iff_of_nodup model.nodup_keys_collections,
    get?_collections_eq_some_iff agree]

/-- Indexes are requested for the same collections. -/
theorem perm_requestedIndexes
    (resembles : first.Resembles second) :
    (requestedIndexes first).Perm (requestedIndexes second) := by
  unfold requestedIndexes
  apply List.Perm.append
  · apply resembles.types.flatMap
    intro type image here
    rw [here.discriminator]
    cases image.directives.discriminator with
    | none =>
        exact .refl _
    | some property =>
        apply List.Perm.map
        unfold discriminatorCollections
        rw [here.name, resembles.collectionFor?_eq]
        cases second.collectionFor? image.name with
        | some collection =>
            exact .refl _
        | none =>
            apply (resembles.possibleTypes image.name).filterMap
            intro type image here
            exact congrArg (Option.map CollectionDirective.collection)
              here.storage
  · apply resembles.types.flatMap
    intro type image here
    rw [here.name, resembles.collectionFor?_eq]
    cases second.collectionFor? image.name with
    | none =>
        exact .refl _
    | some collection =>
        exact (here.fields.filterMap _).map _

/-- Every collection of one plan is one of the other, with its kind and its set of indexes. -/
def Within (first second : ProvisioningPlan) : Prop :=
  ∀ collection ∈ first.collections, ∃ other ∈ second.collections,
    other.name = collection.name ∧
      other.kind = collection.kind ∧
      ∀ index, index ∈ other.indexes ↔ index ∈ collection.indexes

/-- Models with the same collections and requested indexes have the same plan. -/
theorem within_ofModel
    (collections : ∀ name,
      first.collections.get? name = second.collections.get? name)
    (indexes : (requestedIndexes first).Perm (requestedIndexes second)) :
    (ofModel first).Within (ofModel second) := by
  intro collection member
  have isEntry :
      (collection.name, collection.kind) ∈ first.collections :=
    exists_mem_ofModel_iff.mp ⟨collection, member, rfl, rfl⟩
  rw [← Table.get?_eq_some_iff_of_nodup first.nodup_keys_collections,
    collections,
    Table.get?_eq_some_iff_of_nodup second.nodup_keys_collections,
    ← exists_mem_ofModel_iff] at isEntry
  obtain ⟨other, isOther, sameName, sameKind⟩ := isEntry
  refine ⟨other, isOther, sameName, sameKind, ?_⟩
  intro index
  rw [mem_indexes_iff_of_mem_ofModel isOther,
    mem_indexes_iff_of_mem_ofModel member, sameName, indexes.mem_iff]

end ProvisioningPlan

end GraphGate
