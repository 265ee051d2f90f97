import GraphGate.Proofs.Schema.Registering
import GraphGate.Schema.Directive

namespace GraphGate

/-!
# What stands in the way of a registry

Building a model settles to which type each alias belongs, and that no alias is
the name of a type. So a registry fails only where one and the same type gives a
value twice: because a union lists it twice, or because it repeats an alias of
its own. Aliases that are declared apart from a type are never repeated.
-/

namespace Model

variable {builder : ModelBuilder} {model : Model}
variable {declaration : TypeDeclaration}

theorem aliasesOf_of_mem_types
    (declared : declaration ∈ model.types.items) :
    model.aliasesOf declaration.name = declaration.directives.aliases := by
  rw [aliasesOf, typeDirectives_of_type? (type?_of_mem declared)]

/-- The possible types of a union are its members. -/
theorem names_possibleTypes_of_union
    (references : model.ReferencesDeclared)
    (declared : declaration ∈ model.types.items)
    {members : List String}
    (isUnion : declaration.kind = .union members) :
    (model.possibleTypes declaration.name).map TypeDeclaration.name =
      members := by
  have found (name : String) (isMember : name ∈ members) :
      (model.type? name).map TypeDeclaration.name = some name := by
    obtain ⟨type, interfaces, isType, -⟩ :=
      isObject_iff.mp (references.member declared isUnion isMember)
    have sameName : type.name = name :=
      Catalogue.name_of_find? isType
    rw [isType, Option.map_some, sameName]
  simp only [possibleTypes, type?_of_mem declared, isUnion, List.map_filterMap]
  rw [List.filterMap_congr found, List.filterMap_some]

/-- No possible type stands twice, unless it is a repeated member of a union. -/
theorem nodup_names_possibleTypes_iff
    (references : model.ReferencesDeclared)
    (declared : declaration ∈ model.types.items) :
    ((model.possibleTypes declaration.name).map TypeDeclaration.name).Nodup ↔
      ∀ members, declaration.kind = .union members → members.Nodup := by
  cases kind : declaration.kind with
  | union members =>
      rw [names_possibleTypes_of_union references declared kind]
      simp
  | interface =>
      have found :
          (model.possibleTypes declaration.name).Sublist model.types.items := by
        simp only [possibleTypes, type?_of_mem declared, kind]
        exact List.filter_sublist
      have distinct : (model.types.items.map TypeDeclaration.name).Nodup :=
        model.types.distinct
      simp [distinct.sublist (found.map _)]
  | object | scalar | enumeration =>
      simp [possibleTypes, type?_of_mem declared, kind]

end Model

/-- A type repeats an alias exactly if its declaration does. -/
theorem ModelBuilder.Assembled.nodup_aliases_iff
    {builder : ModelBuilder}
    {declared type : TypeDeclaration}
    (here : builder.Assembled declared type) :
    type.directives.aliases.Nodup ↔ declared.directives.aliases.Nodup := by
  obtain ⟨added, appended, distinct, isAdded⟩ := here.aliases
  rw [appended, List.nodup_append]
  constructor
  · exact And.left
  · intro own
    refine ⟨own, distinct, ?_⟩
    rintro label isOwn _ isNew rfl
    exact ((isAdded label).mp isNew).2 isOwn

namespace DiscriminatorRegistry

variable {builder : ModelBuilder} {model : Model} {cause : SchemaError}
variable {abstractType value concrete : String}
variable {type other : TypeDeclaration}

section Built

variable (built : builder.build = .ok model)

include built

/-! Which names are shared. -/

/-- What a possible type is called stands for that type. -/
theorem canonicalType?_of_mem_namesOf
    (possible : type ∈ model.possibleTypes abstractType)
    (isName : (value, concrete) ∈ namesOf model type) :
    model.canonicalType? value = some concrete := by
  obtain ⟨rfl, named⟩ := mem_namesOf_iff.mp isName
  obtain ⟨-, declaration, declared⟩ :=
    exists_type?_of_mem_possibleTypes built possible
  exact (Model.canonicalType?_iff_names built declared).mpr named

/-- Possible types have a name in common only if they are one. -/
theorem disjoint_keys_namesOf_iff
    (possible : type ∈ model.possibleTypes abstractType)
    (possibleToo : other ∈ model.possibleTypes abstractType) :
    List.Disjoint (namesOf model type).keys (namesOf model other).keys ↔
      type.name ≠ other.name := by
  constructor
  · intro apart same
    have isKey : type.name ∈ (namesOf model type).keys :=
      List.mem_cons_self
    have isKeyToo : type.name ∈ (namesOf model other).keys := by
      rw [same]
      exact List.mem_cons_self
    exact apart isKey isKeyToo
  · intro different value isKey isKeyToo
    obtain ⟨⟨_, first⟩, isName, rfl⟩ := List.mem_map.mp isKey
    obtain ⟨⟨_, second⟩, isNameToo, sameValue⟩ := List.mem_map.mp isKeyToo
    cases sameValue
    have canonical := canonicalType?_of_mem_namesOf built possible isName
    rw [canonicalType?_of_mem_namesOf built possibleToo isNameToo] at canonical
    cases canonical
    exact different
      ((mem_namesOf_iff.mp isName).1.trans (mem_namesOf_iff.mp isNameToo).1.symm)

/-- No alias of a type is its name. -/
theorem nodup_keys_namesOf_iff
    (possible : type ∈ model.possibleTypes abstractType) :
    (namesOf model type).keys.Nodup ↔ type.directives.aliases.Nodup := by
  have declared := Model.mem_types_of_mem_possibleTypes possible
  have keys :
      (namesOf model type).keys = type.name :: type.directives.aliases := by
    rw [namesOf, Model.aliasesOf_of_mem_types declared, Table.keys,
      List.map_map]
    exact List.map_id _
  obtain ⟨wellFormed, assembles⟩ :=
    ModelBuilder.wellFormed_and_assembles_of_build built
  obtain ⟨origin, isOrigin, here⟩ :=
    Catalogue.exists_mem_left assembles.types declared
  have free : type.name ∉ type.directives.aliases := by
    intro isAlias
    have isLabel := (here.mem_aliases_iff isOrigin type.name).mp isAlias
    have absent := (wellFormed.aliasNames _ isLabel).1
    have present : builder.types.has type.name = true :=
      Catalogue.has_iff_mem.mpr (here.name ▸ List.mem_map_of_mem isOrigin)
    rw [absent] at present
    cases present
  rw [keys, List.nodup_cons]
  exact and_iff_right free

/-- An abstract type has a mapping unless a possible type or one of its aliases is repeated. -/
theorem exists_valuesFor_iff_nodup :
    (∃ values, valuesFor model abstractType = .ok values) ↔
      ((model.possibleTypes abstractType).map TypeDeclaration.name).Nodup ∧
        ∀ type ∈ model.possibleTypes abstractType,
          type.directives.aliases.Nodup := by
  have keys :
      Table.keys
          ((model.possibleTypes abstractType).flatMap (namesOf model)) =
        (model.possibleTypes abstractType).flatMap
          fun type => (namesOf model type).keys :=
    List.map_flatMap
  rw [exists_valuesFor_iff, keys, List.nodup_flatMap, and_comm, List.Nodup,
    List.pairwise_map]
  refine and_congr ?_ ?_
  · refine List.Pairwise.iff_of_mem fun possible possibleToo => ?_
    exact disjoint_keys_namesOf_iff built possible possibleToo
  · refine forall₂_congr fun type possible => ?_
    exact nodup_keys_namesOf_iff built possible

/--
An abstract type has a mapping unless it is a union with a repeated member, or one
of its possible types is declared with a repeated alias.
-/
theorem exists_valuesFor_iff_unrepeated
    {declaration : TypeDeclaration}
    (isType : declaration ∈ model.types.items) :
    (∃ values, valuesFor model declaration.name = .ok values) ↔
      (∀ members, declaration.kind = .union members → members.Nodup) ∧
        ∀ declared ∈ builder.types.items,
          (∃ type ∈ model.possibleTypes declaration.name,
            type.name = declared.name) →
          declared.directives.aliases.Nodup := by
  have references :=
    Model.referencesDeclared_of_check (Model.check_of_build built)
  obtain ⟨-, assembles⟩ := ModelBuilder.wellFormed_and_assembles_of_build built
  rw [exists_valuesFor_iff_nodup built,
    Model.nodup_names_possibleTypes_iff references isType]
  refine and_congr_right fun _ => ?_
  constructor
  · rintro unrepeated declared isDeclared ⟨type, possible, sameName⟩
    have isTypeToo := Model.mem_types_of_mem_possibleTypes possible
    obtain ⟨image, isImage, here⟩ :=
      Catalogue.exists_mem_right assembles.types isDeclared
    have same : image = type :=
      List.inj_on_of_nodup_map model.types.distinct isImage isTypeToo
        (here.name.trans sameName.symm)
    exact here.nodup_aliases_iff.mp (same ▸ unrepeated type possible)
  · intro unrepeated type possible
    obtain ⟨declared, isDeclared, here⟩ :=
      Catalogue.exists_mem_left assembles.types
        (Model.mem_types_of_mem_possibleTypes possible)
    exact here.nodup_aliases_iff.mpr
      (unrepeated declared isDeclared ⟨type, possible, here.name⟩)

/-! What a failure says. -/

/-- A value fails to be added because the same type has it already. -/
theorem duplicate_of_valuesFor_eq_error
    (failed : valuesFor model abstractType = .error cause) :
    ∃ value concrete,
      cause =
        .duplicateDiscriminatorValue abstractType value concrete concrete := by
  obtain ⟨passed, type, rest, before, isWhole, walked, fails⟩ :=
    Success.exists_failing_step failed
  obtain ⟨named, value, left, state, areNames, walkedToo, failsToo⟩ :=
    Success.exists_failing_step fails
  have possible {other : TypeDeclaration} (member : other ∈ passed ++ [type]) :
      other ∈ model.possibleTypes abstractType := by
    rw [← isWhole, List.append_cons]
    exact List.mem_append_left _ member
  have isType : type ∈ passed ++ [type] := by
    simp
  have isName : (value, type.name) ∈ namesOf model type := by
    rw [namesOf, ← areNames]
    simp
  have isState :
      state = passed.flatMap (namesOf model) ++ named.map (·, type.name) := by
    rw [eq_append_of_addValues walkedToo, eq_flatMap_of_addTypes walked]
  unfold addValue at failsToo
  split at failsToo
  · rename_i first found
    cases failsToo
    have canonical : model.canonicalType? value = some first := by
      have member := Table.mem_of_get? found
      rw [isState] at member
      rcases List.mem_append.mp member with inPassed | inNamed
      · obtain ⟨other, isOther, isNameToo⟩ := List.mem_flatMap.mp inPassed
        exact canonicalType?_of_mem_namesOf built
          (possible (List.mem_append_left _ isOther)) isNameToo
      · refine canonicalType?_of_mem_namesOf built (possible isType) ?_
        rw [namesOf, ← areNames, List.map_append]
        exact List.mem_append_left _ inNamed
    rw [canonicalType?_of_mem_namesOf built (possible isType) isName]
      at canonical
    cases canonical
    exact ⟨value, type.name, rfl⟩
  · cases failsToo

theorem duplicate_of_ofModel_eq_error
    (failed : ofModel model = .error cause) :
    ∃ abstractType value concrete,
      cause =
        .duplicateDiscriminatorValue abstractType value concrete concrete := by
  obtain ⟨passed, declaration, rest, registry, -, -, fails⟩ :=
    Success.exists_failing_step failed
  unfold addMapping at fails
  split at fails
  · split at fails
    · cases fails
    · cases read : valuesFor model declaration.name with
      | ok values =>
          rw [read] at fails
          cases fails
      | error other =>
          rw [read] at fails
          cases fails
          obtain ⟨value, concrete, rfl⟩ :=
            duplicate_of_valuesFor_eq_error built read
          exact ⟨declaration.name, value, concrete, rfl⟩
  · cases fails

end Built

/--
The registry of a built model fails exactly if a union with a discriminator lists a
member more than once, or a possible type of a type with a discriminator has been
declared with an alias more than once; how many aliases are declared apart, and
how often, does not matter. What a failure reports is one type that gives a value
twice, never an alias or a name that two types share.
-/
theorem fails_iff_member_or_alias_repeated
    (built : builder.build = .ok model) :
    ((∃ abstractType value first second,
        ofModel model =
          .error (.duplicateDiscriminatorValue abstractType value first
            second)) ↔
      (∃ declaration ∈ model.types.items, ∃ members,
        declaration.directives.discriminator.isSome = true ∧
          declaration.kind = .union members ∧ ¬ members.Nodup) ∨
      ∃ declaration ∈ model.types.items, ∃ declared ∈ builder.types.items,
        declaration.directives.discriminator.isSome = true ∧
          (∃ type ∈ model.possibleTypes declaration.name,
            type.name = declared.name) ∧
          ¬ declared.directives.aliases.Nodup) ∧
      ∀ cause, ofModel model = .error cause →
        ∃ abstractType value concrete,
          cause =
            .duplicateDiscriminatorValue abstractType value concrete
              concrete := by
  have reports (cause : SchemaError) (failed : ofModel model = .error cause) :=
    duplicate_of_ofModel_eq_error built failed
  refine ⟨⟨?_, ?_⟩, reports⟩
  · rintro ⟨abstractType, value, first, second, failed⟩
    have unregistered : ¬ ∃ registry, ofModel model = .ok registry :=
      Success.exists_error_iff.mp ⟨_, failed⟩
    rw [exists_ofModel_iff] at unregistered
    push Not at unregistered
    obtain ⟨declaration, isType, -, named, unread⟩ := unregistered
    have unmapped :
        ¬ ∃ values, valuesFor model declaration.name = .ok values :=
      fun mapped => mapped.elim unread
    rw [exists_valuesFor_iff_unrepeated built isType, not_and_or] at unmapped
    push Not at unmapped
    rcases unmapped with ⟨members, isUnion, repeats⟩ |
      ⟨declared, isDeclared, possible, repeats⟩
    · exact .inl ⟨declaration, isType, members, named, isUnion, repeats⟩
    · exact .inr
        ⟨declaration, isType, declared, isDeclared, named, possible, repeats⟩
  · intro repeated
    suffices unregistered : ¬ ∃ registry, ofModel model = .ok registry by
      obtain ⟨cause, failed⟩ := Success.exists_error_iff.mpr unregistered
      obtain ⟨abstractType, value, concrete, rfl⟩ := reports cause failed
      exact ⟨abstractType, value, concrete, concrete, failed⟩
    rw [exists_ofModel_iff]
    intro mapped
    have unrepeated {declaration : TypeDeclaration}
        (isType : declaration ∈ model.types.items)
        (named : declaration.directives.discriminator.isSome = true) := by
      obtain ⟨each, -⟩ := Model.check_eq_ok_iff.mp (Model.check_of_build built)
      have isAbstract := (each declaration isType).1.discriminator named
      exact (exists_valuesFor_iff_unrepeated built isType).mp
        (mapped declaration isType isAbstract named)
    rcases repeated with ⟨declaration, isType, members, named, isUnion, repeats⟩ |
      ⟨declaration, isType, declared, isDeclared, named, possible, repeats⟩
    · exact repeats ((unrepeated isType named).1 members isUnion)
    · exact repeats ((unrepeated isType named).2 declared isDeclared possible)

/-- Two directives that give the same alias. -/
def houndDirectives : List GraphQL.Directive :=
  [⟨"alias", [("name", .string "Hound")]⟩,
    ⟨"alias", [("name", .string "Hound")]⟩]

/-- Animals, which are dogs, and a dog is a hound by two directives. -/
def houndTypes : Catalogue TypeDeclaration where
  items := [
    ⟨"Animal", .interface, Catalogue.empty, ⟨none, some "kind", []⟩⟩,
    ⟨"Dog", .object ["Animal"], Catalogue.empty,
      ⟨none, none, ["Hound", "Hound"]⟩⟩]
  distinct := by decide

/-- Hounds belong to dogs only, so that the model is built. -/
def houndModel : Model :=
  ⟨houndTypes, [("Hound", "Dog")], none⟩

theorem build_hounds :
    (⟨houndTypes, [], [], none⟩ : ModelBuilder).build = .ok houndModel := by
  rfl

theorem hounds_fail_by_repeated_alias :
    (⟨houndTypes, [], [], none⟩ : ModelBuilder).build = .ok houndModel ∧
      ∃ abstractType value first second,
        ofModel houndModel =
          .error (.duplicateDiscriminatorValue abstractType value first
            second) := by
  obtain ⟨fails, -⟩ := fails_iff_member_or_alias_repeated build_hounds
  refine ⟨build_hounds, fails.mpr (.inr ?_)⟩
  exact ⟨houndTypes.items[0], by decide, houndTypes.items[1], by decide, rfl,
    ⟨houndTypes.items[1], by decide, rfl⟩, by decide⟩

/-- No union is declared, and no registry can be made. -/
theorem hounds_fail_without_union :
    TypeDirectives.read "Dog" houndDirectives =
        .ok ⟨none, none, ["Hound", "Hound"]⟩ ∧
      (⟨houndTypes, [], [], none⟩ : ModelBuilder).build = .ok houndModel ∧
      (∀ declaration ∈ houndModel.types.items, ∀ members,
        declaration.kind ≠ .union members) ∧
      ofModel houndModel =
        .error (.duplicateDiscriminatorValue "Animal" "Hound" "Dog" "Dog") := by
  refine ⟨by rfl, build_hounds, ?_, by rfl⟩
  intro declaration isType members
  rcases List.mem_cons.mp isType with rfl | isDog
  · nofun
  · rw [List.mem_singleton.mp isDog]
    nofun

end DiscriminatorRegistry

end GraphGate
