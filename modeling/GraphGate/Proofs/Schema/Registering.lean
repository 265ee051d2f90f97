import GraphGate.Proofs.Schema.Canonical
import GraphGate.Proofs.Schema.Resemblance

namespace GraphGate

/-!
# Registries of models that resemble each other

A registry can be made exactly if no value stands for two possible types of one
abstract type. It then has a mapping for every abstract type that names a
property, and knows every abstract type. None of this depends on the order of
the types.
-/

/-- Mappings by the same property and of the same values to the same types. -/
structure DiscriminatorMapping.Resembles
    (first second : DiscriminatorMapping) : Prop where
  property : first.property = second.property
  values : ∀ value, first.values.get? value = second.values.get? value

namespace DiscriminatorRegistry

variable {model : Model} {abstractType : String}
variable {before after registry : DiscriminatorRegistry}

/-! Values. -/

theorem nodup_keys_of_addValue
    {concrete value : String}
    {values following : Table String}
    (added : addValue abstractType concrete values value = .ok following)
    (distinct : values.keys.Nodup) :
    following.keys.Nodup := by
  unfold addValue at added
  cases found : values.get? value with
  | some first =>
      simp [found] at added
  | none =>
      simp only [found, Except.ok.injEq] at added
      rw [← added, Table.keys, List.map_append]
      apply distinct.append (List.nodup_singleton _)
      rw [List.disjoint_right]
      intro key isNew
      rw [List.mem_singleton.mp isNew]
      exact (Table.get?_eq_none_iff values value).mp found

/-- The names of a type can be added exactly where none of them is taken or repeated. -/
theorem exists_addType
    {type : TypeDeclaration}
    {values : Table String}
    (distinct : (Table.keys (values ++ namesOf model type)).Nodup) :
    ∃ following, addType model abstractType values type = .ok following := by
  refine Success.exists_foldlM
    (motive := fun passed state => state = values ++ passed.map (·, type.name))
    (List.append_nil _).symm ?_
  intro passed value rest state isWhole earlier
  have free : state.get? value = none := by
    rw [Table.get?_eq_none_iff, earlier]
    intro taken
    rw [namesOf, ← isWhole, List.map_append, ← List.append_assoc, Table.keys,
      List.map_append, List.nodup_append] at distinct
    exact distinct.2.2 _ taken _ List.mem_cons_self rfl
  refine ⟨state ++ [(value, type.name)], ?_, ?_⟩
  · simp only [addValue, free]
  · rw [earlier, List.map_append, List.append_assoc]
    rfl

/-- An abstract type has a mapping exactly if no two names of its possible types are the same. -/
theorem exists_valuesFor_iff :
    (∃ values, valuesFor model abstractType = .ok values) ↔
      (Table.keys
        ((model.possibleTypes abstractType).flatMap (namesOf model))).Nodup := by
  constructor
  · rintro ⟨values, read⟩
    rw [← eq_flatMap_of_valuesFor read]
    refine Success.foldlM_induction
      (motive := fun _ state => Table.keys state |>.Nodup)
      read List.nodup_nil ?_
    intro _ type state next stepped distinct
    exact Success.foldlM_induction
      (motive := fun _ state => Table.keys state |>.Nodup)
      stepped distinct
      fun _ _ _ _ added distinct => nodup_keys_of_addValue added distinct
  · intro distinct
    refine Success.exists_foldlM
      (motive := fun passed state => state = passed.flatMap (namesOf model))
      rfl ?_
    intro passed type rest state isWhole earlier
    have soFar : (Table.keys (state ++ namesOf model type)).Nodup := by
      rw [← isWhole, List.flatMap_append, List.flatMap_cons,
        ← List.append_assoc, ← earlier, Table.keys, List.map_append,
        List.nodup_append] at distinct
      exact distinct.1
    obtain ⟨following, added⟩ := exists_addType soFar
    refine ⟨following, added, ?_⟩
    rw [eq_append_of_addType added, earlier, List.flatMap_append,
      List.flatMap_singleton]

/-! Mappings. -/

/-- What a registry holds when some types have been taken in, and nothing else. -/
structure Registers
    (model : Model)
    (types : List TypeDeclaration)
    (registry : DiscriminatorRegistry) : Prop where
  mappings : ∀ name mapping,
    (name, mapping) ∈ registry.mappings ↔
      ∃ declaration ∈ types,
        declaration.name = name ∧
          declaration.kind.isAbstract = true ∧
          declaration.directives.discriminator = some mapping.property ∧
          valuesFor model name = .ok mapping.values
  abstractTypes : ∀ name,
    name ∈ registry.abstractTypes ↔
      ∃ declaration ∈ types,
        declaration.name = name ∧ declaration.kind.isAbstract = true

theorem registers_nil : Registers model [] ⟨[], []⟩ where
  mappings := by simp
  abstractTypes := by simp

theorem exists_mem_concat_iff
    {α : Type}
    {items : List α}
    {last : α}
    {holds : α → Prop} :
    (∃ item ∈ items ++ [last], holds item) ↔
      (∃ item ∈ items, holds item) ∨ holds last := by
  simp [or_and_right, exists_or]

theorem registers_addMapping
    {passed : List TypeDeclaration}
    {declaration : TypeDeclaration}
    (added : addMapping model before declaration = .ok after)
    (earlier : Registers model passed before) :
    Registers model (passed ++ [declaration]) after := by
  unfold addMapping at added
  split at added
  · rename_i isAbstract
    have known (name : String) :
        name ∈ before.abstractTypes ++ [declaration.name] ↔
          ∃ other ∈ passed ++ [declaration],
            other.name = name ∧ other.kind.isAbstract = true := by
      rw [exists_mem_concat_iff, ← earlier.abstractTypes, List.mem_append,
        List.mem_singleton]
      apply or_congr_right
      constructor
      · rintro rfl
        exact ⟨rfl, isAbstract⟩
      · rintro ⟨rfl, -⟩
        rfl
    split at added
    · rename_i unnamed
      cases added
      refine ⟨?_, known⟩
      intro name mapping
      rw [exists_mem_concat_iff, ← earlier.mappings, or_iff_left]
      rintro ⟨-, -, named, -⟩
      cases unnamed.symm.trans named
    · rename_i property named
      obtain ⟨values, read, returned⟩ := Success.bind_eq_ok_iff.mp added
      cases returned
      refine ⟨?_, known⟩
      rintro name ⟨otherProperty, otherValues⟩
      rw [exists_mem_concat_iff, ← earlier.mappings, List.mem_append,
        List.mem_singleton]
      apply or_congr_right
      constructor
      · intro same
        cases same
        exact ⟨rfl, isAbstract, named, read⟩
      · rintro ⟨rfl, -, namedToo, readToo⟩
        cases named.symm.trans namedToo
        cases read.symm.trans readToo
        rfl
  · rename_i concrete
    cases added
    constructor
    · intro name mapping
      rw [exists_mem_concat_iff, ← earlier.mappings, or_iff_left]
      rintro ⟨-, isAbstract, -⟩
      exact concrete isAbstract
    · intro name
      rw [exists_mem_concat_iff, ← earlier.abstractTypes, or_iff_left]
      rintro ⟨-, isAbstract⟩
      exact concrete isAbstract

/-- The registry of a model holds what its types say, and nothing else. -/
theorem registers_ofModel
    (registered : ofModel model = .ok registry) :
    Registers model model.types.items registry :=
  Success.foldlM_induction (motive := Registers model) registered
    registers_nil
    fun _ _ _ _ stepped earlier => registers_addMapping stepped earlier

/-- The mapping of a type is determined by its declaration. -/
theorem mapping?_eq_some_iff
    (registered : ofModel model = .ok registry)
    {name : String}
    {mapping : DiscriminatorMapping} :
    registry.mapping? name = some mapping ↔
      ∃ declaration,
        model.type? name = some declaration ∧
          declaration.kind.isAbstract = true ∧
          declaration.directives.discriminator = some mapping.property ∧
          valuesFor model name = .ok mapping.values := by
  have registers := registers_ofModel registered
  have entry {mapping : DiscriminatorMapping} :
      (name, mapping) ∈ registry.mappings ↔
        ∃ declaration,
          model.type? name = some declaration ∧
            declaration.kind.isAbstract = true ∧
            declaration.directives.discriminator = some mapping.property ∧
            valuesFor model name = .ok mapping.values := by
    rw [registers.mappings]
    constructor
    · rintro ⟨declaration, member, rfl, others⟩
      exact ⟨declaration, Model.type?_of_mem member, others⟩
    · rintro ⟨declaration, found, others⟩
      exact ⟨declaration, Catalogue.mem_of_find? found,
        Catalogue.name_of_find? found, others⟩
  rw [← entry]
  constructor
  · exact Table.mem_of_get?
  · intro member
    have present : registry.mappings.has name = true :=
      (Table.has_iff_mem_keys _ _).mpr (List.mem_map_of_mem member)
    obtain ⟨other, found⟩ := Option.isSome_iff_exists.mp present
    obtain ⟨declaration, isType, -, named, read⟩ := entry.mp member
    obtain ⟨same, isTypeToo, -, namedToo, readToo⟩ :=
      entry.mp (Table.mem_of_get? found)
    cases isType.symm.trans isTypeToo
    obtain ⟨property, values⟩ := mapping
    obtain ⟨otherProperty, otherValues⟩ := other
    cases named.symm.trans namedToo
    cases read.symm.trans readToo
    exact found

/-- A registry can be made exactly if every abstract type that names a property has values. -/
theorem exists_ofModel_iff :
    (∃ registry, ofModel model = .ok registry) ↔
      ∀ declaration ∈ model.types.items,
        declaration.kind.isAbstract = true →
          declaration.directives.discriminator.isSome = true →
            ∃ values, valuesFor model declaration.name = .ok values := by
  constructor
  · rintro ⟨registry, registered⟩ declaration member isAbstract isNamed
    obtain ⟨property, named⟩ := Option.isSome_iff_exists.mp isNamed
    obtain ⟨values, read, -⟩ :=
      (maps_ofModel registered).mapped model.types.distinct declaration member
        property isAbstract named
    exact ⟨values, read⟩
  · intro readable
    refine Success.exists_foldlM_of_mem
      (motive := fun _ _ => True) trivial ?_
    intro passed declaration registry member _ _
    unfold addMapping
    by_cases isAbstract : declaration.kind.isAbstract = true
    · rw [if_pos isAbstract]
      cases named : declaration.directives.discriminator with
      | none =>
          exact ⟨_, rfl, trivial⟩
      | some property =>
          obtain ⟨values, read⟩ :=
            readable declaration member isAbstract (by rw [named]; rfl)
          exact ⟨_, Success.bind_eq_ok_iff.mpr ⟨values, read, rfl⟩, trivial⟩
    · rw [if_neg isAbstract]
      exact ⟨registry, rfl, trivial⟩

/-! Two models. -/

section Resembling

variable {first second : Model} {registry other : DiscriminatorRegistry}

section Lists

variable (resembles : first.Resembles second)

include resembles

theorem perm_namesOf_possibleTypes (abstractType : String) :
    ((first.possibleTypes abstractType).flatMap (namesOf first)).Perm
      ((second.possibleTypes abstractType).flatMap (namesOf second)) := by
  apply (resembles.possibleTypes abstractType).flatMap
  intro type image here
  unfold namesOf
  rw [here.name]
  exact ((resembles.aliasesOf image.name).cons _).map _

theorem exists_valuesFor_iff_of_resembles (abstractType : String) :
    (∃ values, valuesFor first abstractType = .ok values) ↔
      ∃ values, valuesFor second abstractType = .ok values := by
  rw [exists_valuesFor_iff, exists_valuesFor_iff]
  exact ((perm_namesOf_possibleTypes resembles abstractType).map
    Prod.fst).nodup_iff

/-- If one of the models has a registry, the other one has, too. -/
theorem exists_ofModel_of_resembles
    (registered : ∃ registry, ofModel first = .ok registry) :
    ∃ registry, ofModel second = .ok registry := by
  rw [exists_ofModel_iff] at registered ⊢
  intro image member isAbstract named
  obtain ⟨type, isType, here⟩ := resembles.types.exists_left member
  rw [← here.name, ← exists_valuesFor_iff_of_resembles resembles]
  apply registered type isType
  · rw [here.kind.isAbstract_eq]
    exact isAbstract
  · rw [here.discriminator]
    exact named

end Lists

variable {builder otherBuilder : ModelBuilder}

/-- The values of an abstract type stand for the same types in both models. -/
theorem get?_values_eq_of_resembles
    (resembles : first.Resembles second)
    (built : builder.build = .ok first)
    (builtToo : otherBuilder.build = .ok second)
    {abstractType : String}
    {values others : Table String}
    (read : valuesFor first abstractType = .ok values)
    (readToo : valuesFor second abstractType = .ok others)
    (value : String) :
    values.get? value = others.get? value := by
  have possible := resembles.possibleTypes abstractType
  ext concrete
  rw [get?_values_eq_some_iff built read,
    get?_values_eq_some_iff builtToo readToo, resembles.canonicalType?_eq]
  apply and_congr_right
  intro _
  constructor
  · rintro ⟨type, isType, rfl⟩
    obtain ⟨image, isImage, here⟩ := possible.exists_right isType
    exact ⟨image, isImage, here.name.symm⟩
  · rintro ⟨image, isImage, rfl⟩
    obtain ⟨type, isType, here⟩ := possible.exists_left isImage
    exact ⟨type, isType, here.name⟩

/-- A type that has a mapping in one registry has one in the other. -/
theorem exists_mapping?_of_resembles
    (resembles : first.Resembles second)
    (built : builder.build = .ok first)
    (builtToo : otherBuilder.build = .ok second)
    (registered : ofModel first = .ok registry)
    (registeredToo : ofModel second = .ok other)
    {name : String}
    {mapping : DiscriminatorMapping}
    (mapped : registry.mapping? name = some mapping) :
    ∃ image, other.mapping? name = some image ∧ mapping.Resembles image := by
  obtain ⟨declaration, found, isAbstract, named, read⟩ :=
    (mapping?_eq_some_iff registered).mp mapped
  obtain ⟨missing, -⟩ | ⟨type, image, isType, isImage, here⟩ :=
    resembles.type?_cases name
  · rw [found] at missing
    cases missing
  · cases found.symm.trans isType
    obtain ⟨values, readToo⟩ :=
      (exists_valuesFor_iff_of_resembles resembles name).mp ⟨_, read⟩
    refine ⟨⟨mapping.property, values⟩, ?_, rfl, ?_⟩
    · refine (mapping?_eq_some_iff registeredToo).mpr
        ⟨image, isImage, ?_, ?_, readToo⟩
      · exact here.kind.isAbstract_eq.symm.trans isAbstract
      · exact here.discriminator.symm.trans named
    · exact get?_values_eq_of_resembles resembles built builtToo read readToo

theorem contains_abstractTypes_eq
    (resembles : first.Resembles second)
    (registered : ofModel first = .ok registry)
    (registeredToo : ofModel second = .ok other)
    (name : String) :
    registry.abstractTypes.contains name =
      other.abstractTypes.contains name := by
  rw [Bool.eq_iff_iff, List.contains_iff_mem, List.contains_iff_mem,
    (registers_ofModel registered).abstractTypes,
    (registers_ofModel registeredToo).abstractTypes]
  constructor
  · rintro ⟨type, isType, rfl, isAbstract⟩
    obtain ⟨image, isImage, here⟩ := resembles.types.exists_right isType
    exact ⟨image, isImage, here.name.symm,
      here.kind.isAbstract_eq.symm.trans isAbstract⟩
  · rintro ⟨image, isImage, rfl, isAbstract⟩
    obtain ⟨type, isType, here⟩ := resembles.types.exists_left isImage
    exact ⟨type, isType, here.name,
      here.kind.isAbstract_eq.trans isAbstract⟩

section Registries

variable
  (resembles : first.Resembles second)
  (built : builder.build = .ok first)
  (builtToo : otherBuilder.build = .ok second)
  (registered : ofModel first = .ok registry)
  (registeredToo : ofModel second = .ok other)

include resembles built builtToo registered registeredToo

/-- A type has a mapping in both registries or in neither. -/
theorem mapping?_rel (name : String) :
    Option.Rel DiscriminatorMapping.Resembles (registry.mapping? name)
      (other.mapping? name) := by
  cases mapped : registry.mapping? name with
  | some mapping =>
      obtain ⟨image, isImage, here⟩ :=
        exists_mapping?_of_resembles resembles built builtToo registered
          registeredToo mapped
      rw [isImage]
      exact .some here
  | none =>
      cases mappedToo : other.mapping? name with
      | none =>
          exact .none
      | some image =>
          obtain ⟨mapping, isMapping, -⟩ :=
            exists_mapping?_of_resembles resembles.symm builtToo built
              registeredToo registered mappedToo
          rw [mapped] at isMapping
          cases isMapping

/-- Every record resolves to the same type in both registries, or fails for the same reason. -/
theorem concreteType_eq (declared : String) (record : Json) :
    registry.concreteType declared record =
      other.concreteType declared record := by
  have mappings :=
    mapping?_rel resembles built builtToo registered registeredToo declared
  have known :=
    contains_abstractTypes_eq resembles registered registeredToo declared
  unfold concreteType
  rw [known]
  generalize registry.mapping? declared = mapping at mappings ⊢
  generalize other.mapping? declared = image at mappings ⊢
  cases mappings with
  | none =>
      rfl
  | some here =>
      simp only [here.property, here.values]

end Registries

end Resembling

end DiscriminatorRegistry

end GraphGate
