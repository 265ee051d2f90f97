import GraphGate.Proofs.Schema.PossibleTypes
import GraphGate.Proofs.Schema.WellFormed

namespace GraphGate

/-!
# Which schemas are built

Building applies extensions, gathers aliases, resolves the query type and checks
the outcome. Each of these steps goes well exactly if the declarations have one
part of what makes a schema well-formed. So exactly the well-formed schemas are
built.
-/

namespace TypeKind

variable {kind : TypeKind} {added : List String}

theorem withInterfaces_eq_object_iff {interfaces : List String} :
    kind.withInterfaces added = .object interfaces ↔
      ∃ own, kind = .object own ∧ own ++ added = interfaces := by
  cases kind <;> simp [withInterfaces]

theorem withInterfaces_eq_interface_iff :
    kind.withInterfaces added = .interface ↔ kind = .interface := by
  cases kind <;> simp [withInterfaces]

theorem withInterfaces_eq_union_iff {members : List String} :
    kind.withInterfaces added = .union members ↔ kind = .union members := by
  cases kind <;> simp [withInterfaces]

end TypeKind

/-- The interfaces are the declared types of that kind. -/
theorem Model.isInterface_iff {model : Model} {name : String} :
    model.isInterface name = true ↔
      ∃ declaration,
        model.type? name = some declaration ∧
          declaration.kind = .interface := by
  unfold isInterface
  cases model.type? name with
  | none =>
      simp
  | some declaration =>
      cases kind : declaration.kind <;> simp [kind]

namespace ModelBuilder

open TypeDeclaration

variable {builder : ModelBuilder} {model : Model}
variable {declared type : TypeDeclaration}

theorem mem_directiveAliases_iff
    {types : Catalogue TypeDeclaration}
    {label name : String} :
    (label, name) ∈ directiveAliases types ↔
      ∃ declaration ∈ types.items,
        declaration.name = name ∧
          label ∈ declaration.directives.aliases := by
  simp [directiveAliases, and_comm]

/-! The types of the model. -/

theorem Assembled.keepsName
    (declared type : TypeDeclaration)
    (here : Assembled builder declared type) :
    Named.name type = Named.name declared :=
  here.name

theorem Assembled.exists_object_iff
    (here : Assembled builder declared type) :
    (∃ interfaces, type.kind = .object interfaces) ↔
      ∃ interfaces, declared.kind = .object interfaces := by
  rw [here.kind]
  constructor
  · rintro ⟨interfaces, isObject⟩
    obtain ⟨own, isOwn, -⟩ :=
      TypeKind.withInterfaces_eq_object_iff.mp isObject
    exact ⟨own, isOwn⟩
  · rintro ⟨own, isOwn⟩
    exact ⟨_, TypeKind.withInterfaces_eq_object_iff.mpr ⟨own, isOwn, rfl⟩⟩

theorem Assembled.isInterface_iff
    (here : Assembled builder declared type) :
    type.kind = .interface ↔ declared.kind = .interface := by
  rw [here.kind, TypeKind.withInterfaces_eq_interface_iff]

/-- A type has the aliases that are gathered for it. -/
theorem Assembled.mem_aliases_iff
    (here : Assembled builder declared type)
    (member : declared ∈ builder.types.items)
    (label : String) :
    label ∈ type.directives.aliases ↔
      (label, declared.name) ∈ builder.labels := by
  have byDirective :
      (label, declared.name) ∈ directiveAliases builder.types ↔
        label ∈ declared.directives.aliases := by
    rw [mem_directiveAliases_iff]
    constructor
    · rintro ⟨other, isOther, sameName, among⟩
      have found := Catalogue.find?_of_mem isOther
      have foundHere := Catalogue.find?_of_mem member
      have sameNames : Named.name other = Named.name declared :=
        sameName
      rw [sameNames, foundHere] at found
      cases found
      exact among
    · intro among
      exact ⟨declared, member, rfl, among⟩
  obtain ⟨added, appended, -, isAdded⟩ := here.aliases
  rw [appended, List.mem_append, isAdded, labels, List.mem_append, byDirective]
  by_cases present : label ∈ declared.directives.aliases
  · simp [present]
  · simp [present]

/-! Each check of directives asks the same of a type and of its declaration. -/

theorem Assembled.allowsStorage_iff
    (here : Assembled builder declared type) :
    (∀ storage, type.directives.storage = some storage →
        Model.allowsStorage type.kind storage.kind = true) ↔
      ∀ storage, declared.directives.storage = some storage →
        (∃ interfaces, declared.kind = .object interfaces) ∨
          declared.kind = .interface ∧ storage.kind = .document := by
  simp only [here.storage, Model.allowsStorage_iff, here.exists_object_iff,
    here.isInterface_iff]

theorem Assembled.discriminates_iff
    (here : Assembled builder declared type) :
    (type.directives.discriminator.isSome = true →
        type.kind.isAbstract = true) ↔
      (declared.directives.discriminator.isSome = true →
        declared.kind = .interface ∨
          ∃ members, declared.kind = .union members) := by
  simp only [here.discriminator, TypeKind.isAbstract_iff, here.kind,
    TypeKind.withInterfaces_eq_interface_iff,
    TypeKind.withInterfaces_eq_union_iff]

theorem Assembled.takesAliases_iff
    (here : Assembled builder declared type)
    (member : declared ∈ builder.types.items) :
    (type.directives.aliases ≠ [] →
        ∃ interfaces, type.kind = .object interfaces) ↔
      ∀ label, (label, declared.name) ∈ builder.labels →
        ∃ interfaces, declared.kind = .object interfaces := by
  rw [here.exists_object_iff]
  constructor
  · intro isObject label isLabel
    have among := (here.mem_aliases_iff member label).mpr isLabel
    exact isObject (List.ne_nil_of_mem among)
  · intro isObject someAlias
    obtain ⟨label, among⟩ := List.exists_mem_of_ne_nil _ someAlias
    exact isObject label ((here.mem_aliases_iff member label).mp among)

theorem forall₂_assembled
    {extended aliased : Catalogue TypeDeclaration}
    (isExtended : Extends builder.types builder.extensions extended)
    (isAliased : Aliases extended builder.aliases aliased) :
    List.Forall₂ (Assembled builder) builder.types.items aliased.items := by
  refine Catalogue.forall₂_trans ?_ isExtended.each isAliased.each
  intro declared middle type extendedBy aliasedBy
  obtain ⟨added, appended, distinct, isAdded⟩ := aliasedBy.aliases
  rw [extendedBy.directives] at appended isAdded
  rw [extendedBy.name] at isAdded
  exact {
    name := aliasedBy.name.trans extendedBy.name
    kind := aliasedBy.kind.trans extendedBy.kind
    fields := by
      rw [aliasedBy.fields]
      exact extendedBy.fields
    storage := by
      rw [aliasedBy.storage, extendedBy.directives]
    discriminator := by
      rw [aliasedBy.discriminator, extendedBy.directives]
    aliases := ⟨added, appended, distinct, isAdded⟩
  }

/-- Extensions bring no aliases. -/
theorem directiveAliases_of_extends
    {types extended : Catalogue TypeDeclaration}
    {extensions : List TypeExtension}
    (isExtended : Extends types extensions extended) :
    directiveAliases extended = directiveAliases types := by
  have each := isExtended.each
  unfold directiveAliases
  generalize types.items = before at each
  generalize extended.items = after at each
  induction each with
  | nil =>
      rfl
  | cons here _ inductionHypothesis =>
      rw [List.flatMap_cons, List.flatMap_cons, inductionHypothesis,
        here.directives, here.name]

section Lookups

variable
  (types : List.Forall₂ (Assembled builder) builder.types.items
    model.types.items)

include types

theorem has_assembled (name : String) :
    model.types.has name = builder.types.has name :=
  Catalogue.has_eq_of_forall₂ Assembled.keepsName types name

theorem isKnown_iff (name : String) :
    model.isKnown name = true ↔
      name ∈ builtinScalars ∨ builder.types.has name = true := by
  rw [Model.isKnown, Bool.or_eq_true, has_assembled types,
    List.contains_iff_mem]

theorem isObject_iff_declaresObject (name : String) :
    model.isObject name = true ↔ builder.DeclaresObject name := by
  rw [Model.isObject_iff]
  constructor
  · rintro ⟨type, interfaces, found, isObject⟩
    obtain ⟨declared, foundDeclared, here⟩ :=
      Catalogue.exists_find?_left Assembled.keepsName types found
    obtain ⟨member, sameName⟩ := Catalogue.find?_eq_some_iff.mp foundDeclared
    exact ⟨declared, member, sameName,
      here.exists_object_iff.mp ⟨interfaces, isObject⟩⟩
  · rintro ⟨declared, member, rfl, isObject⟩
    obtain ⟨type, found, here⟩ :=
      Catalogue.exists_find?_right Assembled.keepsName types
        (Catalogue.find?_of_mem member)
    obtain ⟨interfaces, isObject⟩ := here.exists_object_iff.mpr isObject
    exact ⟨type, interfaces, found, isObject⟩

theorem isInterface_iff_declaresInterface (name : String) :
    model.isInterface name = true ↔ builder.DeclaresInterface name := by
  rw [Model.isInterface_iff]
  constructor
  · rintro ⟨type, found, isInterface⟩
    obtain ⟨declared, foundDeclared, here⟩ :=
      Catalogue.exists_find?_left Assembled.keepsName types found
    obtain ⟨member, sameName⟩ := Catalogue.find?_eq_some_iff.mp foundDeclared
    exact ⟨declared, member, sameName, here.isInterface_iff.mp isInterface⟩
  · rintro ⟨declared, member, rfl, isInterface⟩
    obtain ⟨type, found, here⟩ :=
      Catalogue.exists_find?_right Assembled.keepsName types
        (Catalogue.find?_of_mem member)
    exact ⟨type, found, here.isInterface_iff.mpr isInterface⟩

theorem interfaces_iff_declared (here : Assembled builder declared type) :
    (∀ interfaces, type.kind = .object interfaces →
        ∀ name ∈ interfaces, model.isInterface name = true) ↔
      ∀ interfaces, declared.kind = .object interfaces →
        ∀ name ∈
            interfaces ++
              TypeExtension.interfacesFor builder.extensions declared.name,
          builder.DeclaresInterface name := by
  simp only [here.kind, TypeKind.withInterfaces_eq_object_iff,
    isInterface_iff_declaresInterface types]
  constructor
  · intro known interfaces isObject
    exact known _ ⟨interfaces, isObject, rfl⟩
  · rintro known _ ⟨own, isObject, rfl⟩
    exact known own isObject

theorem members_iff_declared (here : Assembled builder declared type) :
    (∀ members, type.kind = .union members →
        ∀ name ∈ members, model.isObject name = true) ↔
      ∀ members, declared.kind = .union members →
        ∀ name ∈ members, builder.DeclaresObject name := by
  simp only [here.kind, TypeKind.withInterfaces_eq_union_iff,
    isObject_iff_declaresObject types]

/-- A type passes its checks exactly if its declaration is well-formed. -/
theorem allowed_iff_wellFormedType
    (here : Assembled builder declared type)
    (member : declared ∈ builder.types.items) :
    Model.DirectivesAllowed type ∧ model.ReferencesAllowed type ↔
      builder.WellFormedType declared := by
  have known (field : FieldDeclaration) :=
    isKnown_iff types field.type.namedType
  constructor
  · rintro ⟨directives, references⟩
    exact {
      fieldNames := here.fields ▸ type.fields.distinct
      storage := here.allowsStorage_iff.mp directives.storage
      discriminator := here.discriminates_iff.mp directives.discriminator
      aliases := (here.takesAliases_iff member).mp directives.aliases
      indexes := here.fields ▸ here.storage ▸ directives.indexes
      fieldTypes := here.fields ▸ fun field isField =>
        (known field).mp (references.fieldTypes field isField)
      interfaces := (interfaces_iff_declared types here).mp references.interfaces
      members := (members_iff_declared types here).mp references.members
    }
  · intro wellFormed
    exact ⟨{
      storage := here.allowsStorage_iff.mpr wellFormed.storage
      discriminator := here.discriminates_iff.mpr wellFormed.discriminator
      aliases := (here.takesAliases_iff member).mpr wellFormed.aliases
      indexes := by
        rw [here.fields, here.storage]
        exact wellFormed.indexes
    }, {
      fieldTypes := by
        rw [here.fields]
        intro field isField
        exact (known field).mpr (wellFormed.fieldTypes field isField)
      interfaces :=
        (interfaces_iff_declared types here).mpr wellFormed.interfaces
      members := (members_iff_declared types here).mpr wellFormed.members
    }⟩

/-- The collections of the model are used as the declarations use them. -/
theorem exists_use_iff_uses (collection : String) (kind : CollectionKind) :
    (∃ use ∈ model.collectionUses,
        use.collection = collection ∧ use.kind = kind) ↔
      builder.Uses collection kind := by
  constructor
  · rintro ⟨use, member, rfl, rfl⟩
    rcases List.mem_append.mp member with stored | related
    · obtain ⟨type, isType, isUse⟩ := List.mem_filterMap.mp stored
      obtain ⟨storage, isStored, rfl⟩ := Option.map_eq_some_iff.mp isUse
      obtain ⟨declared, isDeclared, here⟩ :=
        Catalogue.exists_mem_left types isType
      rw [here.storage] at isStored
      exact .stored isDeclared isStored
    · obtain ⟨type, isType, isUse⟩ := List.mem_flatMap.mp related
      obtain ⟨field, isField, isUse⟩ := List.mem_filterMap.mp isUse
      obtain ⟨relation, isRelated, rfl⟩ := Option.map_eq_some_iff.mp isUse
      obtain ⟨declared, isDeclared, here⟩ :=
        Catalogue.exists_mem_left types isType
      rw [here.fields] at isField
      exact .related isDeclared isField isRelated
  · intro uses
    cases uses with
    | @stored declared collection kind isDeclared isStored =>
        obtain ⟨type, isType, here⟩ :=
          Catalogue.exists_mem_right types isDeclared
        rw [← here.storage] at isStored
        refine ⟨⟨.type type.name, collection, kind⟩, ?_, rfl, rfl⟩
        refine List.mem_append_left _ (List.mem_filterMap.mpr ?_)
        exact ⟨type, isType, Option.map_eq_some_iff.mpr ⟨_, isStored, rfl⟩⟩
    | @related declared field collection direction isDeclared isField
        isRelated =>
        obtain ⟨type, isType, here⟩ :=
          Catalogue.exists_mem_right types isDeclared
        rw [← here.fields] at isField
        refine ⟨⟨.field type.name field.name, collection, .edge⟩, ?_, rfl, rfl⟩
        refine List.mem_append_right _ (List.mem_flatMap.mpr ?_)
        refine ⟨type, isType, List.mem_filterMap.mpr ?_⟩
        exact ⟨field, isField, Option.map_eq_some_iff.mpr ⟨_, isRelated, rfl⟩⟩

theorem kindsAgree_iff :
    Model.KindsAgree model.collectionUses ↔
      ∀ collection first second,
        builder.Uses collection first →
          builder.Uses collection second → first = second := by
  constructor
  · intro agree collection first second isFirst isSecond
    obtain ⟨one, isOne, rfl, rfl⟩ :=
      (exists_use_iff_uses types collection first).mpr isFirst
    obtain ⟨other, isOther, same, rfl⟩ :=
      (exists_use_iff_uses types one.collection second).mpr isSecond
    exact agree one isOne other isOther same.symm
  · intro agree one isOne other isOther same
    refine agree one.collection one.kind other.kind ?_ ?_
    · exact (exists_use_iff_uses types _ _).mp ⟨one, isOne, rfl, rfl⟩
    · exact (exists_use_iff_uses types _ _).mp ⟨other, isOther, same.symm, rfl⟩

/-- The model passes its check exactly if the declared types are well-formed. -/
theorem check_iff_wellFormedTypes :
    model.check = .ok () ↔
      (∀ declared ∈ builder.types.items, builder.WellFormedType declared) ∧
        ∀ collection first second,
          builder.Uses collection first →
            builder.Uses collection second → first = second := by
  rw [Model.check_eq_ok_iff, kindsAgree_iff types]
  refine and_congr_left' ?_
  constructor
  · intro each declared isDeclared
    obtain ⟨type, isType, here⟩ := Catalogue.exists_mem_right types isDeclared
    exact (allowed_iff_wellFormedType types here isDeclared).mp
      (each type isType)
  · intro each type isType
    obtain ⟨declared, isDeclared, here⟩ :=
      Catalogue.exists_mem_left types isType
    exact (allowed_iff_wellFormedType types here isDeclared).mpr
      (each declared isDeclared)

end Lookups

/-- The query type is resolved exactly if the one that was set is declared. -/
theorem resolveQueryType_eq_ok_iff
    {types : Catalogue TypeDeclaration}
    {name result : Option String} :
    resolveQueryType types name = .ok result ↔
      (∀ queryType, name = some queryType → types.has queryType = true) ∧
        result =
          name.or
            (if types.has defaultQueryType then
              some defaultQueryType
            else
              none) := by
  cases name with
  | none =>
      simp only [resolveQueryType, Except.ok.injEq, Option.none_or]
      exact ⟨fun resolved => ⟨nofun, resolved.symm⟩, fun both => both.2.symm⟩
  | some queryType =>
      cases isDeclared : types.has queryType with
      | false =>
          simp [resolveQueryType, isDeclared]
      | true =>
          simp only [resolveQueryType, isDeclared, if_true, Except.ok.injEq,
            Option.some_or]
          constructor
          · rintro rfl
            refine ⟨?_, rfl⟩
            rintro other ⟨⟩
            exact isDeclared
          · rintro ⟨-, rfl⟩
            rfl

/-- What is built is well-formed, and the model holds everything declared. -/
theorem wellFormed_and_assembles_of_build
    (built : builder.build = .ok model) :
    builder.WellFormed ∧ builder.Assembles model := by
  obtain ⟨extended, applied, aliased, gathered, resolved, checked⟩ :=
    build_eq_ok_iff.mp built
  have isExtended := extends_of_applied applied
  have isAliased := aliases_of_applied aliased
  have types := forall₂_assembled isExtended isAliased
  have tabulates := tabulates_of_gathered gathered
  obtain ⟨queryType, isQueryType⟩ := resolveQueryType_eq_ok_iff.mp resolved
  obtain ⟨each, collections⟩ := (check_iff_wellFormedTypes types).mp checked
  rw [directiveAliases_of_extends isExtended] at tabulates
  simp only [has_assembled types] at queryType isQueryType
  refine ⟨?_, types, tabulates.entries, isQueryType⟩
  exact {
    extensions := isExtended.named
    types := each
    aliasTargets := fun pair member => by
      have named := isAliased.named pair member
      rwa [Catalogue.has_eq_of_forall₂
        (ExtendedBy.keepsName builder.extensions) isExtended.each] at named
    aliasNames := fun pair member => by
      have free := tabulates.free pair member
      rwa [IsFree, has_assembled types] at free
    aliasOwners := tabulates.consistent
    queryType := queryType
    collections := collections
  }

/-- What is well-formed is built. -/
theorem exists_build_of_wellFormed
    (wellFormed : builder.WellFormed) :
    ∃ model, builder.build = .ok model := by
  obtain ⟨extended, applied⟩ :=
    exists_applied_iff.mpr ⟨wellFormed.extensions,
      fun declared member => (wellFormed.types declared member).fieldNames⟩
  have isExtended := extends_of_applied applied
  obtain ⟨aliased, added⟩ :
      ∃ aliased, builder.aliases.foldlM applyAlias extended = .ok aliased := by
    refine exists_aliased_iff.mpr ?_
    intro pair member
    rw [Catalogue.has_eq_of_forall₂
      (ExtendedBy.keepsName builder.extensions) isExtended.each]
    exact wellFormed.aliasTargets pair member
  have types := forall₂_assembled isExtended (aliases_of_applied added)
  have sameNames :=
    Catalogue.has_eq_of_forall₂ Assembled.keepsName types
  obtain ⟨table, gathered⟩ :
      ∃ table,
        (directiveAliases extended ++ builder.aliases).foldlM
          (addAlias aliased) [] = .ok table := by
    rw [directiveAliases_of_extends isExtended]
    refine exists_gathered_iff.mpr ⟨?_, wellFormed.aliasOwners⟩
    intro pair member
    rw [IsFree, sameNames]
    exact wellFormed.aliasNames pair member
  obtain ⟨queryType, resolved⟩ :
      ∃ queryType,
        resolveQueryType aliased builder.queryTypeName = .ok queryType := by
    refine ⟨_, resolveQueryType_eq_ok_iff.mpr ⟨?_, rfl⟩⟩
    intro name isSet
    rw [sameNames]
    exact wellFormed.queryType name isSet
  let model : Model := ⟨aliased, table, queryType⟩
  have assembled :
      List.Forall₂ (Assembled builder) builder.types.items model.types.items :=
    types
  have checked : model.check = .ok () :=
    (check_iff_wellFormedTypes assembled).mpr
      ⟨wellFormed.types, wellFormed.collections⟩
  exact ⟨model, build_eq_ok_iff.mpr
    ⟨extended, applied, added, gathered, resolved, checked⟩⟩

/--
Whatever calls succeeded on a builder, it builds a model exactly if what they
declare is well-formed. The model then has exactly the declared types in order,
with everything that extensions and aliases bring to them.
-/
theorem build_succeeds_iff_wellFormed
    {calls : List BuilderCall}
    (performed : calls.foldlM perform empty = .ok builder) :
    Records calls builder ∧
      ((∃ model, builder.build = .ok model) ↔ builder.WellFormed) ∧
      ∀ model, builder.build = .ok model → builder.Assembles model := by
  refine ⟨records_of_performed performed, ⟨?_, exists_build_of_wellFormed⟩, ?_⟩
  · rintro ⟨model, built⟩
    exact (wellFormed_and_assembles_of_build built).1
  · intro model built
    exact (wellFormed_and_assembles_of_build built).2

/-- A field without directives. -/
def plainField (name type : String) : FieldDeclaration :=
  ⟨name, .named type, .none⟩

/-- Dogs, which are animals by an extension and hounds by a further alias. -/
def kennelCalls : List BuilderCall := [
  .declareType {
    name := "Dog"
    kind := .object []
    fields := ⟨[plainField "name" "String"], by decide⟩
    directives := ⟨some ⟨"dogs", .document⟩, none, ["Canine"]⟩ },
  .declareAlias "Hound" "Dog",
  .extendType ⟨"Dog", ["Animal"], [plainField "barks" "Boolean"]⟩,
  .declareType {
    name := "Animal"
    kind := .interface
    fields := ⟨[plainField "name" "String"], by decide⟩
    directives := ⟨none, some "kind", []⟩ },
  .declareType {
    name := "Pets"
    kind := .object []
    fields := ⟨[plainField "animals" "Animal"], by decide⟩
    directives := .none },
  .setQueryType "Pets"]

/-- The builder after these calls. -/
def kennel : ModelBuilder where
  types := ⟨kennelCalls.filterMap BuilderCall.type?, by decide⟩
  aliases := [("Hound", "Dog")]
  extensions := [⟨"Dog", ["Animal"], [plainField "barks" "Boolean"]⟩]
  queryTypeName := some "Pets"

theorem perform_kennelCalls : kennelCalls.foldlM perform empty = .ok kennel := by
  rfl

/-- The model of these calls. -/
def kennelModel : Model where
  types := {
    items := [
      { name := "Dog"
        kind := .object ["Animal"]
        fields :=
          ⟨[plainField "name" "String", plainField "barks" "Boolean"],
            by decide⟩
        directives :=
          ⟨some ⟨"dogs", .document⟩, none, ["Canine", "Hound"]⟩ },
      { name := "Animal"
        kind := .interface
        fields := ⟨[plainField "name" "String"], by decide⟩
        directives := ⟨none, some "kind", []⟩ },
      { name := "Pets"
        kind := .object []
        fields := ⟨[plainField "animals" "Animal"], by decide⟩
        directives := .none }]
    distinct := by decide }
  aliases := [("Canine", "Dog"), ("Hound", "Dog")]
  queryTypeName := some "Pets"

theorem build_kennel : kennel.build = .ok kennelModel := by
  rfl

theorem kennel_built_from_calls :
    kennelCalls.foldlM perform empty = .ok kennel ∧
      kennel.WellFormed ∧
      kennel.build = .ok kennelModel ∧
      kennel.Assembles kennelModel := by
  obtain ⟨-, accepted, assembles⟩ :=
    build_succeeds_iff_wellFormed perform_kennelCalls
  refine ⟨perform_kennelCalls, ?_, build_kennel, ?_⟩
  · exact accepted.mp ⟨kennelModel, build_kennel⟩
  · exact assembles kennelModel build_kennel

end ModelBuilder

end GraphGate
