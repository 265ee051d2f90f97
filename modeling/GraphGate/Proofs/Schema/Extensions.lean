import GraphGate.Proofs.Catalogue
import GraphGate.Proofs.Success
import GraphGate.Schema.Builder

namespace GraphGate

/-!
# Applying extensions

Extensions are applied one after another, each to the type that it names. In the
end a type has its own fields, followed by those of all extensions that name it.
This goes well exactly if every extension names a declared type and no type gets
two fields of one name.
-/

namespace TypeExtension

variable {passed : List TypeExtension} {extension : TypeExtension}
variable {name : String}

/-- The fields that extensions bring to the type of a name. -/
def fieldsFor
    (extensions : List TypeExtension)
    (name : String) : List FieldDeclaration :=
  (extensions.filter (·.name = name)).flatMap fields

/-- The interfaces that extensions bring to the type of a name. -/
def interfacesFor
    (extensions : List TypeExtension)
    (name : String) : List String :=
  (extensions.filter (·.name = name)).flatMap interfaces

theorem filter_append_of_eq
    (named : extension.name = name) :
    (passed ++ [extension]).filter (·.name = name) =
      passed.filter (·.name = name) ++ [extension] := by
  rw [List.filter_append, List.filter_cons_of_pos (by simpa using named),
    List.filter_nil]

theorem filter_append_of_ne
    (other : extension.name ≠ name) :
    (passed ++ [extension]).filter (·.name = name) =
      passed.filter (·.name = name) := by
  rw [List.filter_append, List.filter_cons_of_neg (by simpa using other),
    List.filter_nil, List.append_nil]

end TypeExtension

@[simp] theorem TypeKind.withInterfaces_nil (kind : TypeKind) :
    kind.withInterfaces [] = kind := by
  cases kind <;> simp [withInterfaces]

theorem TypeKind.withInterfaces_withInterfaces
    (kind : TypeKind)
    (first second : List String) :
    (kind.withInterfaces first).withInterfaces second =
      kind.withInterfaces (first ++ second) := by
  cases kind <;> simp [withInterfaces]

namespace TypeDeclaration

variable {declaration before after : TypeDeclaration}
variable {passed : List TypeExtension} {extension : TypeExtension}

/-- A declaration with further fields and interfaces, and otherwise as it was. -/
structure Adds
    (fields : List FieldDeclaration)
    (interfaces : List String)
    (before after : TypeDeclaration) : Prop where
  name : after.name = before.name
  kind : after.kind = before.kind.withInterfaces interfaces
  fields : after.fields.items = before.fields.items ++ fields
  directives : after.directives = before.directives

/-- A declaration with what the extensions bring to it. -/
def ExtendedBy
    (extensions : List TypeExtension)
    (before after : TypeDeclaration) : Prop :=
  Adds
    (TypeExtension.fieldsFor extensions before.name)
    (TypeExtension.interfacesFor extensions before.name)
    before after

theorem adds_nil (declaration : TypeDeclaration) :
    Adds [] [] declaration declaration where
  name := rfl
  kind := (TypeKind.withInterfaces_nil _).symm
  fields := (List.append_nil _).symm
  directives := rfl

theorem Adds.trans
    {first middle last : TypeDeclaration}
    {fields others : List FieldDeclaration}
    {interfaces further : List String}
    (earlier : Adds fields interfaces first middle)
    (later : Adds others further middle last) :
    Adds (fields ++ others) (interfaces ++ further) first last where
  name := later.name.trans earlier.name
  kind := by
    rw [later.kind, earlier.kind, TypeKind.withInterfaces_withInterfaces]
  fields := by
    rw [later.fields, earlier.fields, List.append_assoc]
  directives := later.directives.trans earlier.directives

theorem adds_addField
    {field : FieldDeclaration}
    (added : declaration.addField field = .ok after) :
    Adds [field] [] declaration after := by
  unfold addField at added
  split at added
  · rename_i fields isAdded
    cases added
    exact {
      name := rfl
      kind := (TypeKind.withInterfaces_nil _).symm
      fields := Catalogue.add?_eq_some_iff.mp isAdded
      directives := rfl
    }
  · cases added

theorem exists_addField
    {field : FieldDeclaration}
    (free : field.name ∉ declaration.fields.names) :
    ∃ after, declaration.addField field = .ok after := by
  obtain ⟨fields, added⟩ := Catalogue.exists_add?_iff.mpr free
  refine ⟨{ declaration with fields := fields }, ?_⟩
  simp only [addField, added]

theorem adds_extend
    (extended : declaration.extend extension = .ok after) :
    Adds extension.fields extension.interfaces declaration after := by
  obtain ⟨middle, added, returned⟩ := Success.bind_eq_ok_iff.mp extended
  cases returned
  have withFields : Adds extension.fields [] declaration middle :=
    Success.foldlM_induction
      (motive := fun passed state => Adds passed [] declaration state)
      added (adds_nil declaration)
      fun _ _ _ _ stepped earlier => earlier.trans (adds_addField stepped)
  have sameKind : middle.kind = declaration.kind := by
    rw [withFields.kind, TypeKind.withInterfaces_nil]
  exact {
    name := withFields.name
    kind := congrArg (·.withInterfaces extension.interfaces) sameKind
    fields := withFields.fields
    directives := withFields.directives
  }

theorem exists_extend
    (distinct :
      ((declaration.fields.items ++ extension.fields).map Named.name).Nodup) :
    ∃ after, declaration.extend extension = .ok after := by
  have filled :
      ∃ middle, extension.fields.foldlM addField declaration = .ok middle := by
    refine Success.exists_foldlM
      (motive := fun passed state => Adds passed [] declaration state)
      (adds_nil declaration) ?_
    intro passed field rest state isWhole earlier
    have free : field.name ∉ state.fields.names := by
      rw [← isWhole, ← List.append_assoc, ← earlier.fields, List.map_append,
        List.nodup_append] at distinct
      intro taken
      exact distinct.2.2 _ taken _ List.mem_cons_self rfl
    obtain ⟨after, added⟩ := exists_addField free
    exact ⟨after, added, earlier.trans (adds_addField added)⟩
  obtain ⟨middle, added⟩ := filled
  exact ⟨_, Success.bind_eq_ok_iff.mpr ⟨middle, added, rfl⟩⟩

theorem extendedBy_nil (declaration : TypeDeclaration) :
    ExtendedBy [] declaration declaration :=
  adds_nil declaration

theorem ExtendedBy.extend
    (earlier : ExtendedBy passed before declaration)
    (named : extension.name = before.name)
    (extended : declaration.extend extension = .ok after) :
    ExtendedBy (passed ++ [extension]) before after := by
  have later := Adds.trans earlier (adds_extend extended)
  simpa [ExtendedBy, TypeExtension.fieldsFor, TypeExtension.interfacesFor,
    TypeExtension.filter_append_of_eq named] using later

theorem ExtendedBy.skip
    (earlier : ExtendedBy passed before declaration)
    (other : extension.name ≠ before.name) :
    ExtendedBy (passed ++ [extension]) before declaration := by
  simpa [ExtendedBy, TypeExtension.fieldsFor, TypeExtension.interfacesFor,
    TypeExtension.filter_append_of_ne other] using earlier

theorem ExtendedBy.keepsName
    (extensions : List TypeExtension)
    (first second : TypeDeclaration)
    (extended : ExtendedBy extensions first second) :
    Named.name second = Named.name first :=
  extended.name

end TypeDeclaration

namespace ModelBuilder

open TypeDeclaration

variable {types before after extended : Catalogue TypeDeclaration}
variable {extensions passed : List TypeExtension} {extension : TypeExtension}

/-- The types to which some extensions have been applied. -/
def Extends
    (types : Catalogue TypeDeclaration)
    (extensions : List TypeExtension)
    (extended : Catalogue TypeDeclaration) : Prop :=
  Catalogue.ChangedBy TypeExtension.name ExtendedBy types extensions extended

theorem Extends.applyExtension
    (earlier : Extends types passed before)
    (applied : applyExtension before extension = .ok after) :
    Extends types (passed ++ [extension]) after := by
  unfold ModelBuilder.applyExtension at applied
  split at applied
  · cases applied
  · rename_i declaration found
    obtain ⟨changed, extended, returned⟩ := Success.bind_eq_ok_iff.mp applied
    cases returned
    have sameName : changed.name = declaration.name :=
      (adds_extend extended).name
    refine Catalogue.ChangedBy.put ExtendedBy.keepsName earlier found sameName
      ?_ ?_
    · intro origin named here
      exact ExtendedBy.extend here named.symm extended
    · intro origin image other here
      exact ExtendedBy.skip here (Ne.symm other)

theorem Extends.exists_applyExtension
    (earlier : Extends types passed before)
    (declared : types.has extension.name = true)
    (distinct : ∀ declaration ∈ types.items,
      ((declaration.fields.items ++
          TypeExtension.fieldsFor (passed ++ [extension])
            declaration.name).map Named.name).Nodup) :
    ∃ after, ModelBuilder.applyExtension before extension = .ok after := by
  obtain ⟨declaration, found, origin, member, isNamed, here⟩ :=
    Catalogue.ChangedBy.exists_named ExtendedBy.keepsName earlier declared
  have isFree :
      ((declaration.fields.items ++ extension.fields).map
        Named.name).Nodup := by
    have named : extension.name = origin.name :=
      isNamed.symm
    have whole := distinct origin member
    rw [TypeExtension.fieldsFor, TypeExtension.filter_append_of_eq named,
      List.flatMap_append, List.flatMap_singleton, ← List.append_assoc] at whole
    rw [here.fields]
    exact whole
  obtain ⟨changed, extended⟩ := exists_extend isFree
  refine ⟨before.put changed, ?_⟩
  simp only [ModelBuilder.applyExtension, found]
  exact Success.bind_eq_ok_iff.mpr ⟨changed, extended, rfl⟩

/-- Applying extensions gives the types extended by all of them. -/
theorem extends_of_applied
    (applied : extensions.foldlM applyExtension types = .ok extended) :
    Extends types extensions extended :=
  Success.foldlM_induction (motive := Extends types) applied
    (Catalogue.ChangedBy.nil extendedBy_nil types)
    fun _ _ _ _ stepped earlier => earlier.applyExtension stepped

/--
Extensions can be applied exactly if each names a declared type and no type gets
two fields of one name.
-/
theorem exists_applied_iff :
    (∃ extended, extensions.foldlM applyExtension types = .ok extended) ↔
      (∀ extension ∈ extensions, types.has extension.name = true) ∧
        ∀ declaration ∈ types.items,
          ((declaration.fields.items ++
              TypeExtension.fieldsFor extensions declaration.name).map
            Named.name).Nodup := by
  constructor
  · rintro ⟨extended, applied⟩
    have all := extends_of_applied applied
    refine ⟨all.named, ?_⟩
    intro declaration member
    obtain ⟨image, -, here⟩ := Catalogue.exists_mem_right all.each member
    rw [← here.fields]
    exact image.fields.distinct
  · rintro ⟨declared, distinct⟩
    refine Success.exists_foldlM (motive := Extends types)
      (Catalogue.ChangedBy.nil extendedBy_nil types) ?_
    intro passed extension rest before isWhole earlier
    have known : types.has extension.name = true := by
      refine declared extension ?_
      rw [← isWhole]
      exact List.mem_append_right _ List.mem_cons_self
    have soFar : ∀ declaration ∈ types.items,
        ((declaration.fields.items ++
            TypeExtension.fieldsFor (passed ++ [extension])
              declaration.name).map Named.name).Nodup := by
      intro declaration member
      have whole := distinct declaration member
      have split :
          TypeExtension.fieldsFor extensions declaration.name =
            TypeExtension.fieldsFor (passed ++ [extension]) declaration.name ++
              TypeExtension.fieldsFor rest declaration.name := by
        rw [← isWhole, List.append_cons, TypeExtension.fieldsFor,
          List.filter_append, List.flatMap_append]
        rfl
      rw [split, ← List.append_assoc, List.map_append] at whole
      exact (List.nodup_append.mp whole).1
    obtain ⟨after, applied⟩ := earlier.exists_applyExtension known soFar
    exact ⟨after, applied, earlier.applyExtension applied⟩

end ModelBuilder

end GraphGate
