import GraphGate.Proofs.Schema.Building
import GraphGate.Proofs.Schema.Resolution

namespace GraphGate

/-!
# Names of types in records

A model finds the type of a name or alias in its table of aliases, and the
aliases of a type among the type's directives. In a built model the two are
inverse to each other. The registry lists names and aliases of possible types
once more, for every abstract type; what it resolves is what the model finds.
-/

namespace Model

variable {builder : ModelBuilder} {model : Model} {value name : String}

theorem canonicalType?_eq_some_iff :
    model.canonicalType? value = some name ↔
      (model.types.has value = true ∧ value = name) ∨
        (model.types.has value = false ∧
          model.aliases.get? value = some name) := by
  unfold canonicalType?
  cases model.types.has value with
  | true =>
      simp
  | false =>
      simp

/-- A declared type is found under its name and its aliases, and under nothing else. -/
theorem canonicalType?_iff_names
    (built : builder.build = .ok model)
    {declaration : TypeDeclaration}
    (declared : model.type? name = some declaration) :
    model.canonicalType? value = some name ↔
      value = name ∨ value ∈ model.aliasesOf name := by
  obtain ⟨wellFormed, assembles⟩ :=
    ModelBuilder.wellFormed_and_assembles_of_build built
  have isDeclared : model.types.has name = true := by
    have found : model.types.find? name = some declaration :=
      declared
    rw [Catalogue.has, found, Option.isSome_some]
  obtain ⟨origin, foundOrigin, here⟩ :=
    Catalogue.exists_find?_left ModelBuilder.Assembled.keepsName
      assembles.types declared
  obtain ⟨member, sameName⟩ := Catalogue.find?_eq_some_iff.mp foundOrigin
  have hasName : origin.name = name :=
    sameName
  have aliases : model.aliasesOf name = declaration.directives.aliases := by
    rw [aliasesOf, typeDirectives, declared]
    rfl
  rw [aliases, here.mem_aliases_iff member, hasName, ← assembles.aliases,
    canonicalType?_eq_some_iff]
  constructor
  · rintro (⟨-, same⟩ | ⟨-, found⟩)
    · exact .inl same
    · exact .inr found
  · rintro (rfl | found)
    · exact .inl ⟨isDeclared, rfl⟩
    · have isLabel := (assembles.aliases value name).mp found
      have free := (wellFormed.aliasNames _ isLabel).1
      rw [← ModelBuilder.has_assembled assembles.types] at free
      exact .inr ⟨free, found⟩

end Model

namespace DiscriminatorRegistry

variable {builder : ModelBuilder} {model : Model}
variable {registry before after : DiscriminatorRegistry}

/-! The values of an abstract type. -/

/-- A possible type is declared, as an object type. -/
theorem exists_type?_of_mem_possibleTypes
    (built : builder.build = .ok model)
    {abstractType : String}
    {type : TypeDeclaration}
    (possible : type ∈ model.possibleTypes abstractType) :
    model.isObject type.name = true ∧
      ∃ declaration, model.type? type.name = some declaration := by
  have references :=
    Model.referencesDeclared_of_check (Model.check_of_build built)
  have isObject := Model.isObject_of_mem_possibleTypes references possible
  obtain ⟨declaration, interfaces, found, -⟩ := Model.isObject_iff.mp isObject
  exact ⟨isObject, declaration, found⟩

/-- A value stands for the possible type that the model finds under it. -/
theorem get?_values_eq_some_iff
    (built : builder.build = .ok model)
    {abstractType value concrete : String}
    {values : Table String}
    (read : valuesFor model abstractType = .ok values) :
    values.get? value = some concrete ↔
      model.canonicalType? value = some concrete ∧
        ∃ type ∈ model.possibleTypes abstractType, type.name = concrete := by
  have standsFor {other : String} (member : (value, other) ∈ values) :
      model.canonicalType? value = some other ∧
        ∃ type ∈ model.possibleTypes abstractType, type.name = other := by
    rw [eq_flatMap_of_valuesFor read] at member
    obtain ⟨type, possible, isName⟩ := List.mem_flatMap.mp member
    obtain ⟨rfl, named⟩ := mem_namesOf_iff.mp isName
    obtain ⟨-, declaration, declared⟩ :=
      exists_type?_of_mem_possibleTypes built possible
    exact ⟨(Model.canonicalType?_iff_names built declared).mpr named,
      type, possible, rfl⟩
  constructor
  · intro found
    exact standsFor (Table.mem_of_get? found)
  · rintro ⟨canonical, type, possible, rfl⟩
    obtain ⟨-, declaration, declared⟩ :=
      exists_type?_of_mem_possibleTypes built possible
    have named :=
      (Model.canonicalType?_iff_names built declared).mp canonical
    have member : (value, type.name) ∈ values := by
      rw [eq_flatMap_of_valuesFor read]
      exact List.mem_flatMap.mpr
        ⟨type, possible, mem_namesOf_iff.mpr ⟨rfl, named⟩⟩
    have present : values.has value = true :=
      (Table.has_iff_mem_keys values value).mpr (List.mem_map_of_mem member)
    obtain ⟨other, found⟩ := Option.isSome_iff_exists.mp present
    obtain ⟨same, -⟩ := standsFor (Table.mem_of_get? found)
    rw [canonical] at same
    rw [found, same]

/-! The mapping of an abstract type. -/

/--
The mappings of types that have been taken in: each abstract type that names a
property is mapped by it, and no other type is.
-/
structure Maps
    (model : Model)
    (types : List TypeDeclaration)
    (registry : DiscriminatorRegistry) : Prop where
  within : ∀ name ∈ Table.keys registry.mappings,
    name ∈ types.map TypeDeclaration.name
  mapped : (types.map TypeDeclaration.name).Nodup →
    ∀ declaration ∈ types, ∀ property,
      declaration.kind.isAbstract = true →
      declaration.directives.discriminator = some property →
      ∃ values,
        valuesFor model declaration.name = .ok values ∧
          registry.mapping? declaration.name = some ⟨property, values⟩

theorem maps_nil : Maps model [] ⟨[], []⟩ where
  within := fun _ member => nomatch member
  mapped := fun _ _ member => nomatch member

/-- A type without a mapping leaves the mappings as they are. -/
theorem Maps.skip
    {passed : List TypeDeclaration}
    {declaration : TypeDeclaration}
    (earlier : Maps model passed before)
    (sameMappings : after.mappings = before.mappings)
    (unmapped : ∀ property,
      declaration.kind.isAbstract = true →
      declaration.directives.discriminator ≠ some property) :
    Maps model (passed ++ [declaration]) after := by
  refine ⟨?_, ?_⟩
  · intro name member
    rw [sameMappings] at member
    rw [List.map_append]
    exact List.mem_append_left _ (earlier.within name member)
  · intro distinct other member property isAbstract named
    rw [List.map_append] at distinct
    rcases List.mem_append.mp member with old | new
    · obtain ⟨values, read, found⟩ :=
        earlier.mapped (List.nodup_append.mp distinct).1 other old property
          isAbstract named
      refine ⟨values, read, ?_⟩
      rw [mapping?, sameMappings]
      exact found
    · rw [List.mem_singleton.mp new] at isAbstract named
      exact (unmapped property isAbstract named).elim

/-- A type with a mapping has it from then on. -/
theorem Maps.add
    {passed : List TypeDeclaration}
    {declaration : TypeDeclaration}
    {property : String}
    {values : Table String}
    (earlier : Maps model passed before)
    (sameMappings :
      after.mappings =
        before.mappings ++ [(declaration.name, ⟨property, values⟩)])
    (named : declaration.directives.discriminator = some property)
    (read : valuesFor model declaration.name = .ok values) :
    Maps model (passed ++ [declaration]) after := by
  refine ⟨?_, ?_⟩
  · intro name member
    rw [sameMappings, Table.keys, List.map_append] at member
    rw [List.map_append]
    rcases List.mem_append.mp member with old | new
    · exact List.mem_append_left _ (earlier.within name old)
    · exact List.mem_append_right _ new
  · intro distinct other member otherProperty isAbstract otherNamed
    rw [List.map_append] at distinct
    obtain ⟨distinctBefore, -, apart⟩ := List.nodup_append.mp distinct
    rw [mapping?, sameMappings, Table.get?_append]
    rcases List.mem_append.mp member with old | new
    · obtain ⟨otherValues, otherRead, found⟩ :=
        earlier.mapped distinctBefore other old otherProperty isAbstract
          otherNamed
      rw [mapping?] at found
      exact ⟨otherValues, otherRead, by rw [found, Option.some_or]⟩
    · rw [List.mem_singleton.mp new] at otherNamed ⊢
      rw [named, Option.some.injEq] at otherNamed
      subst otherNamed
      have fresh : before.mappings.get? declaration.name = none := by
        rw [Table.get?_eq_none_iff]
        intro present
        exact apart _ (earlier.within _ present) _ (by simp) rfl
      refine ⟨values, read, ?_⟩
      rw [fresh, Option.none_or, Table.get?_cons, if_pos rfl]

theorem maps_addMapping
    {passed : List TypeDeclaration}
    {declaration : TypeDeclaration}
    (added : addMapping model before declaration = .ok after)
    (earlier : Maps model passed before) :
    Maps model (passed ++ [declaration]) after := by
  unfold addMapping at added
  split at added
  · split at added
    · rename_i unnamed
      cases added
      exact earlier.skip rfl fun property _ named => by
        rw [unnamed] at named
        cases named
    · rename_i property named
      obtain ⟨values, read, returned⟩ := Success.bind_eq_ok_iff.mp added
      cases returned
      exact earlier.add rfl named read
  · rename_i concrete
    cases added
    exact earlier.skip rfl fun _ isAbstract _ => concrete isAbstract

/-- The registry of a model maps every abstract type that names a property. -/
theorem maps_ofModel
    (registered : ofModel model = .ok registry) :
    Maps model model.types.items registry :=
  Success.foldlM_induction (motive := Maps model) registered maps_nil
    fun _ _ _ _ stepped earlier => maps_addMapping stepped earlier

/-- A record resolves as the text of the property does. -/
theorem concreteType_eq_ok_iff_get?
    {declared concrete : String}
    {mapping : DiscriminatorMapping}
    {record : Json}
    (mapped : registry.mapping? declared = some mapping) :
    registry.concreteType declared record = .ok concrete ↔
      ∃ value,
        record.member? mapping.property = some (.string value) ∧
          mapping.values.get? value = some concrete := by
  simp only [concreteType, mapped]
  cases record.member? mapping.property with
  | none =>
      simp
  | some member =>
      cases member with
      | string value =>
          cases stands : mapping.values.get? value <;> simp [stands]
      | null | bool | number | array | object =>
          simp

/--
A record of an abstract type with a property resolves to a type exactly if the
property has a text that the model knows as the name or an alias of the type, and
the type is one of the possible ones. So what a record resolves to is a declared
object type below the abstract type, and a possible type is resolved from its name
and its aliases and from no other text.
-/
theorem concreteType_resolves_canonicalType
    (built : builder.build = .ok model)
    (registered : ofModel model = .ok registry)
    {abstractType property : String}
    {declaration : TypeDeclaration}
    (declared : model.type? abstractType = some declaration)
    (named : declaration.directives.discriminator = some property) :
    (∀ record concrete,
      registry.concreteType abstractType record = .ok concrete ↔
        ∃ value,
          record.member? property = some (.string value) ∧
            model.canonicalType? value = some concrete ∧
            ∃ type ∈ model.possibleTypes abstractType,
              type.name = concrete) ∧
      (∀ record concrete,
        registry.concreteType abstractType record = .ok concrete →
          model.isObject concrete = true ∧
            model.isSubtype concrete abstractType = true) ∧
      ∀ type ∈ model.possibleTypes abstractType, ∀ record value,
        record.member? property = some (.string value) →
          (registry.concreteType abstractType record = .ok type.name ↔
            value = type.name ∨ value ∈ model.aliasesOf type.name) := by
  have isType : declaration ∈ model.types.items :=
    Catalogue.mem_of_find? declared
  have hasName : declaration.name = abstractType :=
    Catalogue.name_of_find? declared
  have isAbstract : declaration.kind.isAbstract = true := by
    obtain ⟨each, -⟩ := Model.check_eq_ok_iff.mp (Model.check_of_build built)
    refine (each declaration isType).1.discriminator ?_
    rw [named, Option.isSome_some]
  obtain ⟨values, read, mapped⟩ :=
    (maps_ofModel registered).mapped model.types.distinct declaration isType
      property isAbstract named
  rw [hasName] at read mapped
  have resolves (record : Json) (concrete : String) :
      registry.concreteType abstractType record = .ok concrete ↔
        ∃ value,
          record.member? property = some (.string value) ∧
            model.canonicalType? value = some concrete ∧
            ∃ type ∈ model.possibleTypes abstractType,
              type.name = concrete := by
    rw [concreteType_eq_ok_iff_get? mapped]
    simp only [get?_values_eq_some_iff built read]
  refine ⟨resolves, ?_, ?_⟩
  · intro record concrete resolved
    obtain ⟨value, -, -, type, possible, rfl⟩ :=
      (resolves record concrete).mp resolved
    refine ⟨(exists_type?_of_mem_possibleTypes built possible).1, ?_⟩
    rw [Model.isSubtype, Bool.or_eq_true]
    exact .inr (List.any_eq_true.mpr ⟨type, possible, by simp⟩)
  · intro type possible record value hasValue
    obtain ⟨-, other, isDeclared⟩ :=
      exists_type?_of_mem_possibleTypes built possible
    rw [resolves, ← Model.canonicalType?_iff_names built isDeclared]
    constructor
    · rintro ⟨found, hasFound, canonical, -⟩
      rw [hasValue] at hasFound
      cases hasFound
      exact canonical
    · intro canonical
      exact ⟨value, hasValue, canonical, type, possible, rfl⟩

/-- The registry of the kennel. -/
def kennelRegistry : DiscriminatorRegistry where
  mappings := [
    ("Animal", ⟨"kind",
      [("Dog", "Dog"), ("Canine", "Dog"), ("Hound", "Dog")]⟩)]
  abstractTypes := ["Animal"]

theorem hound_resolves_to_dog :
    ModelBuilder.kennel.build = .ok ModelBuilder.kennelModel ∧
      ofModel ModelBuilder.kennelModel = .ok kennelRegistry ∧
      (ModelBuilder.kennelModel.typeDirectives "Animal").discriminator =
        some "kind" ∧
      kennelRegistry.concreteType "Animal"
          (.object [("kind", .string "Hound")]) = .ok "Dog" ∧
      ∀ value,
        (kennelRegistry.concreteType "Animal"
              (.object [("kind", .string value)]) = .ok "Dog" ↔
          value = "Dog" ∨ value ∈ ["Canine", "Hound"]) := by
  have registered : ofModel ModelBuilder.kennelModel = .ok kennelRegistry := by
    rfl
  obtain ⟨resolves, -, names⟩ :=
    concreteType_resolves_canonicalType ModelBuilder.build_kennel registered
      (show ModelBuilder.kennelModel.type? "Animal" = some _ from rfl)
      (show _ = some "kind" from rfl)
  refine ⟨ModelBuilder.build_kennel, registered, rfl, ?_, ?_⟩
  · refine (resolves _ _).mpr ⟨"Hound", rfl, rfl, ?_⟩
    exact ⟨_, List.mem_singleton_self _, rfl⟩
  · intro value
    exact names _ (List.mem_singleton_self _) _ value rfl

end DiscriminatorRegistry

end GraphGate
