import GraphGate.Proofs.Catalogue
import GraphGate.Proofs.Schema.Checks
import GraphGate.Schema.Builder

namespace GraphGate

/-!
# What a built model guarantees

Building checks that every name a type refers to is declared as the right kind
of type. So the type of every field is a leaf, an object type or an abstract
type, and the possible types of any of them are object types.
-/

/-- Building carries out its steps one after another. -/
theorem ModelBuilder.build_eq_ok_iff
    {builder : ModelBuilder}
    {model : Model} :
    builder.build = .ok model ↔
      ∃ extended,
        builder.extensions.foldlM applyExtension builder.types =
            .ok extended ∧
          builder.aliases.foldlM applyAlias extended = .ok model.types ∧
          (directiveAliases extended ++ builder.aliases).foldlM
              (addAlias model.types) [] =
            .ok model.aliases ∧
          resolveQueryType model.types builder.queryTypeName =
            .ok model.queryTypeName ∧
          model.check = .ok () := by
  constructor
  · intro built
    obtain ⟨extended, applied, built⟩ := Success.bind_eq_ok_iff.mp built
    obtain ⟨types, aliased, built⟩ := Success.bind_eq_ok_iff.mp built
    obtain ⟨aliases, gathered, built⟩ := Success.bind_eq_ok_iff.mp built
    obtain ⟨queryType, resolved, built⟩ := Success.bind_eq_ok_iff.mp built
    obtain ⟨⟨⟩, checked, returned⟩ := Success.bind_eq_ok_iff.mp built
    cases returned
    exact ⟨extended, applied, aliased, gathered, resolved, checked⟩
  · rintro ⟨extended, applied, aliased, gathered, resolved, checked⟩
    refine Success.bind_eq_ok_iff.mpr ⟨extended, applied, ?_⟩
    refine Success.bind_eq_ok_iff.mpr ⟨model.types, aliased, ?_⟩
    refine Success.bind_eq_ok_iff.mpr ⟨model.aliases, gathered, ?_⟩
    refine Success.bind_eq_ok_iff.mpr ⟨model.queryTypeName, resolved, ?_⟩
    exact Success.bind_eq_ok_iff.mpr ⟨(), checked, rfl⟩

namespace Model

/-- Every name that the types of a model refer to is declared as it has to be. -/
structure ReferencesDeclared (model : Model) : Prop where
  fieldType {declaration : TypeDeclaration} {field : FieldDeclaration} :
    declaration ∈ model.types.items →
      field ∈ declaration.fields.items →
        model.isKnown field.type.namedType = true
  member {declaration : TypeDeclaration} {members : List String} {name : String} :
    declaration ∈ model.types.items →
      declaration.kind = .union members →
        name ∈ members → model.isObject name = true

/-- A model that passes its check refers to declared names only. -/
theorem referencesDeclared_of_check
    {model : Model}
    (checked : model.check = .ok ()) :
    model.ReferencesDeclared := by
  obtain ⟨each, -⟩ := check_eq_ok_iff.mp checked
  exact {
    fieldType := fun declared member =>
      (each _ declared).2.fieldTypes _ member
    member := fun declared union member =>
      (each _ declared).2.members _ union _ member
  }

/-- A built model has passed its check. -/
theorem check_of_build
    {builder : ModelBuilder}
    {model : Model}
    (built : builder.build = .ok model) :
    model.check = .ok () := by
  obtain ⟨_, -, -, -, -, checked⟩ := ModelBuilder.build_eq_ok_iff.mp built
  exact checked

/-- A declared type is found under its name. -/
theorem type?_of_mem
    {model : Model}
    {declaration : TypeDeclaration}
    (declared : declaration ∈ model.types.items) :
    model.type? declaration.name = some declaration :=
  Catalogue.find?_of_mem declared

theorem typeDirectives_of_type?
    {model : Model}
    {name : String}
    {declaration : TypeDeclaration}
    (found : model.type? name = some declaration) :
    model.typeDirectives name = declaration.directives := by
  rw [typeDirectives, found, Option.map_some, Option.getD_some]

/-- The type of every declared field is known. -/
theorem ReferencesDeclared.isKnown_of_field?
    {model : Model}
    (references : model.ReferencesDeclared)
    {type name : String}
    {field : FieldDeclaration}
    (found : model.field? type name = some field) :
    model.isKnown field.type.namedType = true := by
  obtain ⟨declaration, declared, fieldFound⟩ :=
    Option.bind_eq_some_iff.mp found
  exact references.fieldType (Catalogue.mem_of_find? declared)
    (Catalogue.mem_of_find? fieldFound)

/-- The object types are the declared types of that kind. -/
theorem isObject_iff {model : Model} {name : String} :
    model.isObject name = true ↔
      ∃ declaration interfaces,
        model.type? name = some declaration ∧
          declaration.kind = .object interfaces := by
  unfold isObject
  cases found : model.type? name with
  | none =>
      simp
  | some declaration =>
      cases kind : declaration.kind <;> simp [kind]

/-- The abstract types are the declared types of such a kind. -/
theorem isAbstract_iff {model : Model} {name : String} :
    model.isAbstract name = true ↔
      ∃ declaration,
        model.type? name = some declaration ∧
          declaration.kind.isAbstract = true := by
  unfold isAbstract
  cases model.type? name <;> simp

/-- The possible types of a type are declared. -/
theorem mem_types_of_mem_possibleTypes
    {model : Model}
    {name : String}
    {declaration : TypeDeclaration}
    (possible : declaration ∈ model.possibleTypes name) :
    declaration ∈ model.types.items := by
  unfold possibleTypes at possible
  cases found : model.type? name with
  | none =>
      simp [found] at possible
  | some type =>
      cases kind : type.kind with
      | object interfaces =>
          simp only [found, kind, List.mem_singleton] at possible
          subst possible
          exact Catalogue.mem_of_find? found
      | interface =>
          simp only [found, kind, List.mem_filter] at possible
          exact possible.1
      | union members =>
          simp only [found, kind, List.mem_filterMap] at possible
          obtain ⟨member, -, memberFound⟩ := possible
          exact Catalogue.mem_of_find? memberFound
      | scalar =>
          simp [found, kind] at possible
      | enumeration =>
          simp [found, kind] at possible

/-- The possible types of a type are object types. -/
theorem isObject_of_mem_possibleTypes
    {model : Model}
    (references : model.ReferencesDeclared)
    {name : String}
    {declaration : TypeDeclaration}
    (possible : declaration ∈ model.possibleTypes name) :
    model.isObject declaration.name = true := by
  unfold possibleTypes at possible
  cases found : model.type? name with
  | none =>
      simp [found] at possible
  | some type =>
      have declared := Catalogue.mem_of_find? found
      cases kind : type.kind with
      | object interfaces =>
          simp only [found, kind, List.mem_singleton] at possible
          subst possible
          exact isObject_iff.mpr
            ⟨declaration, interfaces, type?_of_mem declared, kind⟩
      | interface =>
          simp only [found, kind, List.mem_filter] at possible
          obtain ⟨-, listed⟩ := possible
          unfold implements at listed
          cases object : (model.type? declaration.name).map
              TypeDeclaration.kind with
          | none =>
              simp [object] at listed
          | some other =>
              cases other <;> simp [object] at listed
              simp [isObject, object]
      | union members =>
          simp only [found, kind, List.mem_filterMap] at possible
          obtain ⟨member, isMember, memberFound⟩ := possible
          have sameName : declaration.name = member :=
            Catalogue.name_of_find? memberFound
          exact sameName ▸ references.member declared kind isMember
      | scalar =>
          simp [found, kind] at possible
      | enumeration =>
          simp [found, kind] at possible

/-- A known type that is neither a leaf nor abstract is an object type, and its own possible type. -/
theorem mem_possibleTypes_of_concrete
    {model : Model}
    {name : String}
    (known : model.isKnown name = true)
    (composite : model.isLeaf name = false)
    (concrete : model.isAbstract name = false) :
    ∃ declaration ∈ model.possibleTypes name, declaration.name = name := by
  simp only [isLeaf, Bool.or_eq_false_iff] at composite
  simp only [isKnown, composite.1, Bool.false_or, Catalogue.has,
    Option.isSome_iff_exists] at known
  obtain ⟨declaration, found⟩ := known
  have foundType : model.type? name = some declaration := found
  refine ⟨declaration, ?_, Catalogue.name_of_find? found⟩
  cases kind : declaration.kind with
  | object interfaces =>
      simp [possibleTypes, foundType, kind]
  | interface =>
      simp [isAbstract, foundType, kind, TypeKind.isAbstract] at concrete
  | union members =>
      simp [isAbstract, foundType, kind, TypeKind.isAbstract] at concrete
  | scalar =>
      simp [foundType, kind, TypeKind.isLeaf] at composite
  | enumeration =>
      simp [foundType, kind, TypeKind.isLeaf] at composite

end Model

end GraphGate
