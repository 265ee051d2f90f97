import GraphGate.Proofs.Success
import GraphGate.Schema.Model

namespace GraphGate

/-!
# What the checks of a model accept

Each check of a model accepts exactly what it is meant to: directives that sit
where they are allowed, references to types declared as the right kind, and
collections that are used with one kind each.
-/

theorem TypeKind.isAbstract_iff {kind : TypeKind} :
    kind.isAbstract = true ↔
      kind = .interface ∨ ∃ members, kind = .union members := by
  cases kind <;> simp [TypeKind.isAbstract]

namespace Model

variable {declaration : TypeDeclaration}

/-! Directives. -/

/-- The check of where the records of a type are stored. -/
def checkStorage (declaration : TypeDeclaration) : Except SchemaError Unit :=
  match declaration.directives.storage with
  | some storage =>
      if !allowsStorage declaration.kind storage.kind then
        .error (.invalidDirective (storageDirectiveName storage.kind)
          (.declaration declaration.kind declaration.name) .notAllowedHere)
      else
        .ok ()
  | none => .ok ()

/-- The check of the property that names the concrete type. -/
def checkDiscriminator (declaration : TypeDeclaration) :
    Except SchemaError Unit :=
  if declaration.directives.discriminator.isSome &&
      !declaration.kind.isAbstract then
    .error (.invalidDirective "discriminator"
      (.declaration declaration.kind declaration.name) .onlyOnAbstractTypes)
  else
    .ok ()

/-- The check of the aliases of a type. -/
def checkAliases (declaration : TypeDeclaration) : Except SchemaError Unit :=
  match declaration.kind with
  | .object _ => .ok ()
  | _ =>
      if !declaration.directives.aliases.isEmpty then
        .error (.invalidDirective "alias"
          (.declaration declaration.kind declaration.name) .onlyOnObjectTypes)
      else
        .ok ()

/-- The check of the indexes on fields. -/
def checkIndexes (declaration : TypeDeclaration) : Except SchemaError Unit :=
  if declaration.directives.storage.isNone then
    Success.refuse
      (fun field => .indexWithoutCollection declaration.name field.name)
      (declaration.fields.items.find? (·.directives.index.isSome))
  else
    .ok ()

theorem checkStorage_bind (next : Unit → Except SchemaError Unit) :
    checkStorage declaration >>= next =
      match declaration.directives.storage with
      | some storage =>
          if !allowsStorage declaration.kind storage.kind then
            throw (.invalidDirective (storageDirectiveName storage.kind)
              (.declaration declaration.kind declaration.name)
              .notAllowedHere) >>= next
          else
            next ()
      | none => next () := by
  unfold checkStorage
  split
  · split
    · rfl
    · rfl
  · rfl

theorem checkDiscriminator_bind (next : Unit → Except SchemaError Unit) :
    checkDiscriminator declaration >>= next =
      if declaration.directives.discriminator.isSome &&
          !declaration.kind.isAbstract then
        throw (.invalidDirective "discriminator"
          (.declaration declaration.kind declaration.name)
          .onlyOnAbstractTypes) >>= next
      else
        next () := by
  unfold checkDiscriminator
  split
  · rfl
  · rfl

theorem checkAliases_bind (next : Unit → Except SchemaError Unit) :
    checkAliases declaration >>= next =
      match declaration.kind with
      | .object _ => next ()
      | _ =>
          if !declaration.directives.aliases.isEmpty then
            throw (.invalidDirective "alias"
              (.declaration declaration.kind declaration.name)
              .onlyOnObjectTypes) >>= next
          else
            next () := by
  unfold checkAliases
  split
  · rfl
  · split
    · rfl
    · rfl

/-- The directives of a type are checked one kind after another. -/
theorem checkDirectives_eq (declaration : TypeDeclaration) :
    checkDirectives declaration = (do
      checkStorage declaration
      checkDiscriminator declaration
      checkAliases declaration
      checkIndexes declaration) := by
  rw [checkStorage_bind, checkDiscriminator_bind, checkAliases_bind]
  unfold checkDirectives checkIndexes
  cases declaration.fields.items.find? (·.directives.index.isSome) with
  | none =>
      rfl
  | some field =>
      rfl

theorem allowsStorage_iff {kind : TypeKind} {storage : CollectionKind} :
    allowsStorage kind storage = true ↔
      (∃ interfaces, kind = .object interfaces) ∨
        kind = .interface ∧ storage = .document := by
  cases kind with
  | interface =>
      cases storage <;> simp [allowsStorage]
  | object | union | scalar | enumeration =>
      simp [allowsStorage]

theorem checkStorage_eq_ok_iff :
    checkStorage declaration = .ok () ↔
      ∀ storage, declaration.directives.storage = some storage →
        allowsStorage declaration.kind storage.kind = true := by
  unfold checkStorage
  cases declaration.directives.storage with
  | none =>
      simp
  | some storage =>
      cases allowsStorage declaration.kind storage.kind <;> simp

theorem checkDiscriminator_eq_ok_iff :
    checkDiscriminator declaration = .ok () ↔
      (declaration.directives.discriminator.isSome = true →
        declaration.kind.isAbstract = true) := by
  unfold checkDiscriminator
  cases declaration.directives.discriminator.isSome with
  | false =>
      simp
  | true =>
      cases declaration.kind.isAbstract <;> simp

theorem checkAliases_eq_ok_iff :
    checkAliases declaration = .ok () ↔
      (declaration.directives.aliases ≠ [] →
        ∃ interfaces, declaration.kind = .object interfaces) := by
  unfold checkAliases
  cases declaration.kind with
  | object interfaces =>
      simp
  | interface | union | scalar | enumeration =>
      cases declaration.directives.aliases <;> simp

theorem checkIndexes_eq_ok_iff :
    checkIndexes declaration = .ok () ↔
      ∀ field ∈ declaration.fields.items,
        field.directives.index.isSome = true →
          declaration.directives.storage.isSome = true := by
  unfold checkIndexes
  cases declaration.directives.storage with
  | some storage =>
      simp
  | none =>
      rw [if_pos (by rfl), Success.refuse_find?_eq_ok_iff]
      simp

/-- The directives of a type sit where they are allowed. -/
structure DirectivesAllowed (declaration : TypeDeclaration) : Prop where
  storage : ∀ storage, declaration.directives.storage = some storage →
    allowsStorage declaration.kind storage.kind = true
  discriminator :
    declaration.directives.discriminator.isSome = true →
      declaration.kind.isAbstract = true
  aliases :
    declaration.directives.aliases ≠ [] →
      ∃ interfaces, declaration.kind = .object interfaces
  indexes : ∀ field ∈ declaration.fields.items,
    field.directives.index.isSome = true →
      declaration.directives.storage.isSome = true

theorem checkDirectives_eq_ok_iff :
    checkDirectives declaration = .ok () ↔ DirectivesAllowed declaration := by
  rw [checkDirectives_eq]
  constructor
  · intro checked
    obtain ⟨_, storage, checked⟩ := Success.bind_eq_ok_iff.mp checked
    obtain ⟨_, discriminator, checked⟩ := Success.bind_eq_ok_iff.mp checked
    obtain ⟨_, aliases, indexes⟩ := Success.bind_eq_ok_iff.mp checked
    exact {
      storage := checkStorage_eq_ok_iff.mp storage
      discriminator := checkDiscriminator_eq_ok_iff.mp discriminator
      aliases := checkAliases_eq_ok_iff.mp aliases
      indexes := checkIndexes_eq_ok_iff.mp indexes
    }
  · rintro ⟨storage, discriminator, aliases, indexes⟩
    rw [checkStorage_eq_ok_iff.mpr storage,
      checkDiscriminator_eq_ok_iff.mpr discriminator,
      checkAliases_eq_ok_iff.mpr aliases]
    exact checkIndexes_eq_ok_iff.mpr indexes

/-! References. -/

variable {model : Model}

/-- The check of the types of fields. -/
def checkFieldTypes
    (model : Model)
    (declaration : TypeDeclaration) : Except SchemaError Unit :=
  Success.refuse
    (fun field =>
      .unknownType field.type.namedType (.field declaration.name field.name))
    (declaration.fields.items.find? fun field =>
      !model.isKnown field.type.namedType)

/-- The check of what objects implement and of what unions consist of. -/
def checkKind
    (model : Model)
    (declaration : TypeDeclaration) : Except SchemaError Unit :=
  match declaration.kind with
  | .object interfaces =>
      Success.refuse
        (fun interface => .unknownType interface (.interfacesOf declaration.name))
        (interfaces.find? (!model.isInterface ·))
  | .union members =>
      Success.refuse
        (fun member => .unknownType member (.membersOf declaration.name))
        (members.find? (!model.isObject ·))
  | _ => .ok ()

/-- The types of fields are checked first, then what the kind refers to. -/
theorem checkReferences_eq
    (model : Model)
    (declaration : TypeDeclaration) :
    model.checkReferences declaration = (do
      model.checkFieldTypes declaration
      model.checkKind declaration) := by
  unfold checkReferences checkFieldTypes checkKind
  cases declaration.fields.items.find? fun field =>
      !model.isKnown field.type.namedType with
  | some field =>
      rfl
  | none =>
      cases declaration.kind with
      | object interfaces =>
          dsimp only
          cases interfaces.find? (!model.isInterface ·) <;> rfl
      | union members =>
          dsimp only
          cases members.find? (!model.isObject ·) <;> rfl
      | interface | scalar | enumeration =>
          rfl

/-- The types that a declaration refers to are declared as they have to be. -/
structure ReferencesAllowed
    (model : Model)
    (declaration : TypeDeclaration) : Prop where
  fieldTypes : ∀ field ∈ declaration.fields.items,
    model.isKnown field.type.namedType = true
  interfaces : ∀ interfaces, declaration.kind = .object interfaces →
    ∀ name ∈ interfaces, model.isInterface name = true
  members : ∀ members, declaration.kind = .union members →
    ∀ name ∈ members, model.isObject name = true

theorem checkFieldTypes_eq_ok_iff :
    model.checkFieldTypes declaration = .ok () ↔
      ∀ field ∈ declaration.fields.items,
        model.isKnown field.type.namedType = true := by
  rw [checkFieldTypes, Success.refuse_find?_eq_ok_iff]
  simp

theorem checkKind_eq_ok_iff :
    model.checkKind declaration = .ok () ↔
      (∀ interfaces, declaration.kind = .object interfaces →
        ∀ name ∈ interfaces, model.isInterface name = true) ∧
      (∀ members, declaration.kind = .union members →
        ∀ name ∈ members, model.isObject name = true) := by
  unfold checkKind
  cases declaration.kind with
  | object | union =>
      simp [Success.refuse_find?_eq_ok_iff]
  | interface | scalar | enumeration =>
      simp

theorem checkReferences_eq_ok_iff :
    model.checkReferences declaration = .ok () ↔
      model.ReferencesAllowed declaration := by
  rw [checkReferences_eq]
  constructor
  · intro checked
    obtain ⟨_, fieldTypes, kind⟩ := Success.bind_eq_ok_iff.mp checked
    obtain ⟨interfaces, members⟩ := checkKind_eq_ok_iff.mp kind
    exact ⟨checkFieldTypes_eq_ok_iff.mp fieldTypes, interfaces, members⟩
  · rintro ⟨fieldTypes, interfaces, members⟩
    rw [checkFieldTypes_eq_ok_iff.mpr fieldTypes]
    exact checkKind_eq_ok_iff.mpr ⟨interfaces, members⟩

/-! Collections. -/

variable {passed uses seen following : List CollectionUse}

/-- No collection is used with two kinds. -/
def KindsAgree (uses : List CollectionUse) : Prop :=
  ∀ one ∈ uses, ∀ other ∈ uses,
    one.collection = other.collection → one.kind = other.kind

/--
What is kept of some uses: for every collection one of its uses, and all uses of
the collection have its kind.
-/
structure Represents (passed seen : List CollectionUse) : Prop where
  within : ∀ use ∈ seen, use ∈ passed
  first : ∀ use ∈ passed, ∃ first,
    seen.find? (·.collection = use.collection) = some first ∧
      first.kind = use.kind

theorem represents_nil : Represents [] [] where
  within := fun _ member => member
  first := fun _ member => nomatch member

theorem Represents.kindsAgree
    (represents : Represents uses seen) :
    KindsAgree uses := by
  intro one isOne other isOther same
  obtain ⟨first, found, sameKind⟩ := represents.first one isOne
  obtain ⟨second, foundOther, otherKind⟩ := represents.first other isOther
  rw [same, foundOther] at found
  cases found
  rw [← sameKind, otherKind]

theorem Represents.checkUse
    {use : CollectionUse}
    (earlier : Represents passed seen)
    (checked : checkUse seen use = .ok following) :
    Represents (passed ++ [use]) following := by
  unfold Model.checkUse at checked
  cases found : seen.find? (·.collection = use.collection) with
  | some first =>
      simp only [found] at checked
      split at checked
      · rename_i sameKind
        cases checked
        refine ⟨?_, ?_⟩
        · intro other member
          exact List.mem_append_left _ (earlier.within other member)
        · intro other member
          rcases List.mem_append.mp member with old | new
          · exact earlier.first other old
          · rw [List.mem_singleton.mp new]
            exact ⟨first, found, sameKind⟩
      · cases checked
  | none =>
      simp only [found] at checked
      cases checked
      refine ⟨?_, ?_⟩
      · intro other member
        rcases List.mem_append.mp member with old | new
        · exact List.mem_append_left _ (earlier.within other old)
        · exact List.mem_append_right _ new
      · intro other member
        rw [List.find?_append]
        rcases List.mem_append.mp member with old | new
        · obtain ⟨first, foundFirst, sameKind⟩ := earlier.first other old
          refine ⟨first, ?_, sameKind⟩
          rw [foundFirst, Option.some_or]
        · rw [List.mem_singleton.mp new, found]
          exact ⟨use, by simp, rfl⟩

theorem Represents.exists_checkUse
    {use : CollectionUse}
    (earlier : Represents passed seen)
    (within : passed ⊆ uses)
    (member : use ∈ uses)
    (agree : KindsAgree uses) :
    ∃ following, Model.checkUse seen use = .ok following := by
  unfold Model.checkUse
  cases found : seen.find? (·.collection = use.collection) with
  | none =>
      exact ⟨_, rfl⟩
  | some first =>
      have isSeen := List.mem_of_find?_eq_some found
      have isFirst := within (earlier.within first isSeen)
      have sameCollection : first.collection = use.collection := by
        simpa using List.find?_some found
      have sameKind := agree first isFirst use member sameCollection
      exact ⟨seen, if_pos sameKind⟩

theorem exists_checkedUses_iff :
    (∃ seen, uses.foldlM Model.checkUse [] = .ok seen) ↔ KindsAgree uses := by
  constructor
  · rintro ⟨seen, checked⟩
    have represents : Represents uses seen :=
      Success.foldlM_induction (motive := Represents) checked represents_nil
        fun _ _ _ _ stepped earlier => earlier.checkUse stepped
    exact represents.kindsAgree
  · intro agree
    refine Success.exists_foldlM_of_mem (motive := Represents)
      represents_nil ?_
    intro passed use seen member within earlier
    obtain ⟨following, checked⟩ := earlier.exists_checkUse within member agree
    exact ⟨following, checked, earlier.checkUse checked⟩

theorem checkCollections_eq_ok_iff :
    model.checkCollections = .ok () ↔ KindsAgree model.collectionUses := by
  rw [← exists_checkedUses_iff, checkCollections, Success.bind_eq_ok_iff]
  constructor
  · rintro ⟨seen, checked, -⟩
    exact ⟨seen, checked⟩
  · rintro ⟨seen, checked⟩
    exact ⟨seen, checked, rfl⟩

/-- A model passes its check exactly if each of its types does and the kinds of collections agree. -/
theorem check_eq_ok_iff :
    model.check = .ok () ↔
      (∀ declaration ∈ model.types.items,
        DirectivesAllowed declaration ∧ model.ReferencesAllowed declaration) ∧
      KindsAgree model.collectionUses := by
  constructor
  · intro checked
    obtain ⟨_, directives, checked⟩ := Success.bind_eq_ok_iff.mp checked
    obtain ⟨_, references, collections⟩ := Success.bind_eq_ok_iff.mp checked
    refine ⟨?_, checkCollections_eq_ok_iff.mp collections⟩
    intro declaration member
    have allowed := Success.forM_eq_ok_iff.mp directives declaration member
    have refers := Success.forM_eq_ok_iff.mp references declaration member
    exact ⟨checkDirectives_eq_ok_iff.mp allowed,
      checkReferences_eq_ok_iff.mp refers⟩
  · rintro ⟨each, collections⟩
    have directives : model.types.items.forM checkDirectives = .ok () := by
      refine Success.forM_eq_ok_iff.mpr ?_
      intro declaration member
      exact checkDirectives_eq_ok_iff.mpr (each declaration member).1
    have references :
        model.types.items.forM model.checkReferences = .ok () := by
      refine Success.forM_eq_ok_iff.mpr ?_
      intro declaration member
      exact checkReferences_eq_ok_iff.mpr (each declaration member).2
    rw [check, directives]
    refine Success.bind_eq_ok_iff.mpr ⟨(), rfl, ?_⟩
    rw [references]
    exact checkCollections_eq_ok_iff.mpr collections

end Model

end GraphGate
