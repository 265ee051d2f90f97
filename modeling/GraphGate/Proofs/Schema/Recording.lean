import GraphGate.Proofs.Schema.Building
import GraphGate.Proofs.Schema.Directives
import GraphGate.Schema.Loading

namespace GraphGate

/-!
# Directives in schema documents

A document applies directives to types and to fields, in definitions and in
extensions. Where directives are looked at, what they say ends up in the model of
any documents that load, on the very type or field; a directive that is in the
wrong place there fails the loading. In other places they are not looked at.
-/

namespace GraphQL

/-- The fields that the body of a type lists. -/
def TypeBody.fields : TypeBody → List FieldDefinition
  | .object _ fields | .interface _ fields | .input fields => fields
  | .union _ | .scalar | .enumeration _ => []

/-- A body without the directives that nobody looks at, those of input fields. -/
def TypeBody.asRead : TypeBody → TypeBody
  | .input fields =>
      .input (fields.map fun field => { field with directives := [] })
  | other => other

/-- A type without the directives that nobody looks at. -/
def TypeDefinition.asRead (definition : TypeDefinition) : TypeDefinition where
  name := definition.name
  directives :=
    match definition.body with
    | .object _ _ | .interface _ _ | .union _ =>
        definition.directives.filter fun directive => directive.name ≠ "index"
    | .scalar | .enumeration _ | .input _ => []
  body := definition.body.asRead

/-- An extension without the directives that nobody looks at, which are all its own. -/
def TypeDefinition.asReadExtension (definition : TypeDefinition) :
    TypeDefinition where
  name := definition.name
  directives := []
  body := definition.body.asRead

namespace SchemaDefinition

/-- A definition without the directives that nobody looks at. -/
def asRead : SchemaDefinition → SchemaDefinition
  | .type definition => .type definition.asRead
  | .extension definition => .extension definition.asReadExtension
  | .schema operations => .schema operations
  | .directive name => .directive name

/-- A definition applies a directive to a type or to a field. -/
inductive Applies : SchemaDefinition → DirectiveTarget → Directive → Prop where
  | type {definition : TypeDefinition} {directive : Directive} :
      directive ∈ definition.directives →
      Applies (.type definition) (.type definition.name) directive
  | field
      {definition : TypeDefinition}
      {field : FieldDefinition}
      {directive : Directive} :
      field ∈ definition.body.fields →
      directive ∈ field.directives →
      Applies (.type definition) (.field definition.name field.name) directive
  | extension {definition : TypeDefinition} {directive : Directive} :
      directive ∈ definition.directives →
      Applies (.extension definition) (.type definition.name) directive
  | extensionField
      {definition : TypeDefinition}
      {field : FieldDefinition}
      {directive : Directive} :
      field ∈ definition.body.fields →
      directive ∈ field.directives →
      Applies (.extension definition) (.field definition.name field.name)
        directive

end SchemaDefinition

end GraphQL

open GraphQL (SchemaDefinition TypeDefinition FieldDefinition)

/-- The directives that a type of a kind can have. -/
def TypeKind.allowedDirectives : TypeKind → List String
  | .object _ => ["vertex", "edge", "alias"]
  | .interface => ["vertex", "discriminator"]
  | .union _ => ["discriminator"]
  | .scalar | .enumeration => []

/-- What a directive says is in the model, on the type or field that it is applied to. -/
inductive Model.Records (model : Model) :
    DirectiveTarget → GraphQL.Directive → Prop where
  | type {declaration : TypeDeclaration} {directive : GraphQL.Directive} :
      declaration ∈ model.types.items →
      directive.name ∈ declaration.kind.allowedDirectives →
      declaration.directives.Hold directive →
      Records model (.type declaration.name) directive
  | field
      {declaration : TypeDeclaration}
      {field : FieldDeclaration}
      {directive : GraphQL.Directive} :
      declaration ∈ model.types.items →
      field ∈ declaration.fields.items →
      (directive.name = "index" →
        declaration.directives.storage.isSome = true) →
      field.directives.Hold directive →
      Records model (.field declaration.name field.name) directive

/-- What a directive says of a type is in the model with a type of that name. -/
theorem Model.Records.exists_type
    {model : Model}
    {name : String}
    {directive : GraphQL.Directive}
    (recorded : model.Records (.type name) directive) :
    ∃ declaration ∈ model.types.items,
      declaration.name = name ∧
        directive.name ∈ declaration.kind.allowedDirectives := by
  generalize isTarget : DirectiveTarget.type name = target at recorded
  cases recorded with
  | type member allowed held =>
      cases isTarget
      exact ⟨_, member, rfl, allowed⟩
  | field member listed stored held =>
      cases isTarget

namespace ModelBuilder

variable {builder before after : ModelBuilder} {model : Model}
variable {declared declaration : TypeDeclaration} {type : String}
variable {target : DirectiveTarget} {directive : GraphQL.Directive}

/-- What a directive says has been declared, on a type or on a field. -/
inductive Knows (builder : ModelBuilder) :
    DirectiveTarget → GraphQL.Directive → Prop where
  | type {declared : TypeDeclaration} {directive : GraphQL.Directive} :
      declared ∈ builder.types.items →
      declared.directives.Hold directive →
      Knows builder (.type declared.name) directive
  | field
      {declared : TypeDeclaration}
      {field : FieldDeclaration}
      {directive : GraphQL.Directive} :
      declared ∈ builder.types.items →
      field ∈ declared.fields.items →
      field.directives.Hold directive →
      Knows builder (.field declared.name field.name) directive
  | extensionField
      {extension : TypeExtension}
      {field : FieldDeclaration}
      {directive : GraphQL.Directive} :
      extension ∈ builder.extensions →
      field ∈ extension.fields →
      field.directives.Hold directive →
      Knows builder (.field extension.name field.name) directive

/-! ## Reading one definition -/

/-- What the directives of a field say is declared with the field. -/
theorem exists_field_of_readFields
    {fields : List FieldDefinition}
    {catalogue : Catalogue FieldDeclaration}
    (wasRead : readFields type fields = .ok catalogue) :
    ∀ field ∈ fields, ∃ declaration ∈ catalogue.items,
      declaration.name = field.name ∧
        ∀ directive ∈ field.directives,
          declaration.directives.Heeds directive := by
  refine Success.foldlM_induction
    (motive := fun passed (state : Catalogue FieldDeclaration) =>
      ∀ field ∈ passed, ∃ declaration ∈ state.items,
        declaration.name = field.name ∧
          ∀ directive ∈ field.directives,
            declaration.directives.Heeds directive)
    wasRead nofun ?_
  intro passed next before after added declares field isPassed
  obtain ⟨directives, applied, added⟩ := Success.bind_eq_ok_iff.mp added
  split at added
  · rename_i catalogue isNew
    cases added
    rw [Catalogue.add?_eq_some_iff.mp isNew]
    rw [List.mem_append, List.mem_singleton] at isPassed
    rcases isPassed with isEarlier | rfl
    · obtain ⟨declaration, isThere, others⟩ := declares field isEarlier
      exact ⟨declaration, List.mem_append_left _ isThere, others⟩
    · exact ⟨_, List.mem_append_right _ List.mem_cons_self, rfl,
        FieldDirectives.heeds_of_read applied⟩
  · contradiction

/-- A type is declared as it is defined, with what its directives and those of its fields say. -/
structure DeclaredBy
    (definition : TypeDefinition)
    (declaration : TypeDeclaration) : Prop where
  name : declaration.name = definition.name
  directives : ∀ directive ∈ definition.asRead.directives,
    directive.name ∈ storageDirectives →
      declaration.directives.Hold directive
  fields : ∀ field ∈ definition.body.asRead.fields,
    ∃ declared ∈ declaration.fields.items,
      declared.name = field.name ∧
        ∀ directive ∈ field.directives, declared.directives.Heeds directive

/-- What is left of the directives of a type has been looked for. -/
theorem hold_of_read_filter
    {applied : List GraphQL.Directive}
    {directives : TypeDirectives}
    (isRead : TypeDirectives.read type applied = .ok directives) :
    ∀ directive ∈ applied.filter fun directive => directive.name ≠ "index",
      directive.name ∈ storageDirectives → directives.Hold directive := by
  intro directive isLeft isStorage
  rw [List.mem_filter, decide_eq_true_eq] at isLeft
  refine TypeDirectives.heeds_of_read isRead directive isLeft.1 ?_
  simpa [storageDirectives, TypeDirectives.names, isLeft.2] using isStorage

theorem declaredBy_of_readType?
    {definition : TypeDefinition}
    (wasRead : readType? definition = .ok (some declaration)) :
    DeclaredBy definition declaration := by
  obtain ⟨name, directives, body⟩ := definition
  cases body with
  | object interfaces fields | interface interfaces fields =>
      obtain ⟨read, isRead, wasRead⟩ := Success.bind_eq_ok_iff.mp wasRead
      obtain ⟨catalogue, areFields, wasRead⟩ := Success.bind_eq_ok_iff.mp wasRead
      cases wasRead
      exact ⟨rfl, hold_of_read_filter isRead,
        exists_field_of_readFields areFields⟩
  | union members =>
      obtain ⟨read, isRead, wasRead⟩ := Success.bind_eq_ok_iff.mp wasRead
      cases wasRead
      exact ⟨rfl, hold_of_read_filter isRead, nofun⟩
  | scalar | enumeration values =>
      cases wasRead
      exact ⟨rfl, nofun, nofun⟩
  | input fields =>
      cases wasRead

/-- An input type is not declared, and nothing that is said of it is looked at. -/
theorem not_applies_of_readType?
    {definition : TypeDefinition}
    (wasRead : readType? definition = .ok none) :
    ¬ (SchemaDefinition.type definition).asRead.Applies target directive := by
  obtain ⟨name, directives, body⟩ := definition
  cases body with
  | object interfaces fields | interface interfaces fields =>
      obtain ⟨_, _, wasRead⟩ := Success.bind_eq_ok_iff.mp wasRead
      obtain ⟨_, _, wasRead⟩ := Success.bind_eq_ok_iff.mp wasRead
      cases wasRead
  | union members =>
      obtain ⟨_, _, wasRead⟩ := Success.bind_eq_ok_iff.mp wasRead
      cases wasRead
  | scalar | enumeration values =>
      cases wasRead
  | input fields =>
      rintro (applied | ⟨listed, applied⟩)
      · cases applied
      · obtain ⟨original, _, rfl⟩ := List.mem_map.mp listed
        cases applied

/-- What is said of the fields in an extension is declared with the extension. -/
theorem exists_field_of_readExtension?
    {definition : TypeDefinition}
    {extension : TypeExtension}
    (wasRead : readExtension? definition = .ok (some extension)) :
    extension.name = definition.name ∧
      ∀ field ∈ definition.body.asRead.fields,
        ∃ declared ∈ extension.fields,
          declared.name = field.name ∧
            ∀ directive ∈ field.directives,
              declared.directives.Heeds directive := by
  obtain ⟨name, directives, body⟩ := definition
  cases body with
  | object interfaces fields | interface interfaces fields =>
      obtain ⟨catalogue, areFields, wasRead⟩ := Success.bind_eq_ok_iff.mp wasRead
      cases wasRead
      exact ⟨rfl, exists_field_of_readFields areFields⟩
  | union members | scalar | enumeration values | input fields =>
      cases wasRead

/-- Nothing that is said in an extension of another kind is looked at. -/
theorem not_applies_of_readExtension?
    {definition : TypeDefinition}
    (wasRead : readExtension? definition = .ok none) :
    ¬ (SchemaDefinition.extension definition).asRead.Applies target
      directive := by
  obtain ⟨name, directives, body⟩ := definition
  cases body with
  | object interfaces fields | interface interfaces fields =>
      obtain ⟨_, _, wasRead⟩ := Success.bind_eq_ok_iff.mp wasRead
      cases wasRead
  | union members | scalar | enumeration values =>
      rintro (applied | applied | applied | ⟨listed, applied⟩)
      · cases applied
      · cases listed
  | input fields =>
      rintro (applied | applied | applied | ⟨listed, applied⟩)
      · cases applied
      · obtain ⟨original, _, rfl⟩ := List.mem_map.mp listed
        cases applied

/-! ## Taking in a document -/

/-- More has been declared, and nothing has been taken back. -/
structure Within (before after : ModelBuilder) : Prop where
  types : before.types.items ⊆ after.types.items
  extensions : before.extensions ⊆ after.extensions

theorem Within.refl (builder : ModelBuilder) : builder.Within builder :=
  ⟨List.Subset.refl _, List.Subset.refl _⟩

theorem Within.trans
    {last : ModelBuilder}
    (first : before.Within after)
    (second : after.Within last) :
    before.Within last :=
  ⟨List.Subset.trans first.types second.types,
    List.Subset.trans first.extensions second.extensions⟩

theorem Knows.within
    (knows : before.Knows target directive)
    (within : before.Within after) :
    after.Knows target directive := by
  cases knows with
  | type member held =>
      exact .type (within.types member) held
  | field member listed held =>
      exact .field (within.types member) listed held
  | extensionField member listed held =>
      exact .extensionField (within.extensions member) listed held

/-- All that a definition says where it is looked at is declared. -/
def KnowsAllOf
    (builder : ModelBuilder)
    (definition : SchemaDefinition) : Prop :=
  ∀ target directive,
    definition.asRead.Applies target directive →
      directive.name ∈ storageDirectives →
        builder.Knows target directive

theorem KnowsAllOf.within
    {definition : SchemaDefinition}
    (known : before.KnowsAllOf definition)
    (within : before.Within after) :
    after.KnowsAllOf definition :=
  fun target directive applies isStorage =>
    (known target directive applies isStorage).within within

theorem within_of_declareType
    (declares : before.declareType declaration = .ok after) :
    before.Within after ∧ declaration ∈ after.types.items := by
  unfold declareType at declares
  split at declares
  · contradiction
  · split at declares
    · rename_i types added
      cases declares
      have appended := Catalogue.add?_eq_some_iff.mp added
      refine ⟨⟨?_, List.Subset.refl _⟩, ?_⟩
      · simp only [appended]
        exact List.subset_append_left _ _
      · simp [appended]
    · contradiction

/-- A type that is declared as it was read is all that its definition says. -/
theorem knowsAllOf_type
    {definition : TypeDefinition}
    (wasRead : readType? definition = .ok (some declaration))
    (member : declaration ∈ builder.types.items) :
    builder.KnowsAllOf (.type definition) := by
  have declares := declaredBy_of_readType? wasRead
  rintro _ directive (applied | ⟨listed, applied⟩) isStorage
  · have held := declares.directives directive applied isStorage
    have known := Knows.type member held
    rwa [declares.name] at known
  · obtain ⟨field, isField, named, held⟩ := declares.fields _ listed
    have known := Knows.field member isField (held directive applied isStorage)
    rwa [declares.name, named] at known

/-- An extension that is kept as it was read is all that its definition says. -/
theorem knowsAllOf_extension
    {definition : TypeDefinition}
    {extension : TypeExtension}
    (wasRead : readExtension? definition = .ok (some extension))
    (member : extension ∈ builder.extensions) :
    builder.KnowsAllOf (.extension definition) := by
  obtain ⟨sameName, fields⟩ := exists_field_of_readExtension? wasRead
  rintro _ directive (_ | _ | applied | ⟨listed, applied⟩) isStorage
  · cases applied
  · obtain ⟨field, isField, named, held⟩ := fields _ listed
    have known :=
      Knows.extensionField member isField (held directive applied isStorage)
    rwa [sameName, named] at known

/-- What a definition says where it is looked at is declared when it has been taken in. -/
theorem knows_of_addDefinition
    {definition : SchemaDefinition}
    (added : before.addDefinition definition = .ok after) :
    before.Within after ∧ after.KnowsAllOf definition := by
  cases definition with
  | schema operations =>
      refine ⟨?_, nofun⟩
      cases named : operations.query with
      | none =>
          simp only [addDefinition, named] at added
          cases added
          exact .refl before
      | some name =>
          simp only [addDefinition, named] at added
          cases added
          exact ⟨List.Subset.refl _, List.Subset.refl _⟩
  | directive name =>
      cases added
      exact ⟨.refl before, nofun⟩
  | type definition =>
      obtain ⟨read, wasRead, added⟩ := Success.bind_eq_ok_iff.mp added
      cases read with
      | none =>
          cases added
          exact ⟨.refl before, fun _ _ applies =>
            absurd applies (not_applies_of_readType? wasRead)⟩
      | some declaration =>
          obtain ⟨within, member⟩ := within_of_declareType added
          exact ⟨within, knowsAllOf_type wasRead member⟩
  | extension definition =>
      obtain ⟨read, wasRead, added⟩ := Success.bind_eq_ok_iff.mp added
      cases read with
      | none =>
          cases added
          exact ⟨.refl before, fun _ _ applies =>
            absurd applies (not_applies_of_readExtension? wasRead)⟩
      | some extension =>
          cases added
          refine ⟨⟨List.Subset.refl _, List.subset_append_left _ _⟩,
            knowsAllOf_extension wasRead ?_⟩
          exact List.mem_append_right _ List.mem_cons_self

/-- All that definitions say where it is looked at is declared in the end. -/
theorem knows_of_addDefinitions
    {definitions : List SchemaDefinition}
    (added : definitions.foldlM addDefinition before = .ok after) :
    before.Within after ∧
      ∀ definition ∈ definitions, after.KnowsAllOf definition := by
  constructor
  · refine Success.foldlM_induction
      (motive := fun _ state => before.Within state)
      added (.refl before) ?_
    intro _ definition first second added within
    exact within.trans (knows_of_addDefinition added).1
  · refine Success.forall_of_foldlM KnowsAllOf added ?_ ?_
    · intro definition first second added
      exact (knows_of_addDefinition added).2
    · intro definition other first second added known
      exact known.within (knows_of_addDefinition added).1

/-- A document is taken in definition by definition. -/
theorem exists_definitions_of_addFile
    {file : String × String}
    (added : before.addFile file = .ok after) :
    ∃ definitions,
      SchemaDefinition.parseAll file.2 = .ok definitions ∧
        definitions.foldlM addDefinition before = .ok after := by
  cases parsed : SchemaDefinition.parseAll file.2 with
  | error position =>
      simp only [addFile, parsed, reduceCtorEq] at added
  | ok definitions =>
      simp only [addFile, parsed] at added
      exact ⟨definitions, rfl, added⟩

/-- A document is well-formed, and all that it says where it is looked at is declared. -/
def KnowsDocument
    (builder : ModelBuilder)
    (file : String × String) : Prop :=
  ∃ definitions,
    SchemaDefinition.parseAll file.2 = .ok definitions ∧
      ∀ definition ∈ definitions, builder.KnowsAllOf definition

theorem KnowsDocument.within
    {file : String × String}
    (known : before.KnowsDocument file)
    (within : before.Within after) :
    after.KnowsDocument file := by
  obtain ⟨definitions, areDefinitions, each⟩ := known
  exact ⟨definitions, areDefinitions, fun definition isDefinition =>
    (each definition isDefinition).within within⟩

/-- All that documents say where it is looked at is declared in the end. -/
theorem knows_of_addFiles
    {files : List (String × String)}
    (added : files.foldlM addFile before = .ok after) :
    ∀ file ∈ files, after.KnowsDocument file := by
  refine Success.forall_of_foldlM KnowsDocument added ?_ ?_
  · intro file first second added
    obtain ⟨definitions, areDefinitions, added⟩ :=
      exists_definitions_of_addFile added
    exact ⟨definitions, areDefinitions, (knows_of_addDefinitions added).2⟩
  · intro file other first second added known
    obtain ⟨_, _, added⟩ := exists_definitions_of_addFile added
    exact known.within (knows_of_addDefinitions added).1

/-! ## Building -/

/-- A directive that a type has is one that its kind can have. -/
theorem allowed_of_hold
    (allowed : Model.DirectivesAllowed declaration)
    (held : declaration.directives.Hold directive) :
    directive.name ∈ declaration.kind.allowedDirectives := by
  cases held with
  | vertex named given stored =>
      rw [named]
      rcases Model.allowsStorage_iff.mp (allowed.storage _ stored) with
        ⟨interfaces, isObject⟩ | ⟨isInterface, -⟩
      · simp [isObject, TypeKind.allowedDirectives]
      · simp [isInterface, TypeKind.allowedDirectives]
  | edge named given stored =>
      rw [named]
      rcases Model.allowsStorage_iff.mp (allowed.storage _ stored) with
        ⟨interfaces, isObject⟩ | ⟨-, isDocument⟩
      · simp [isObject, TypeKind.allowedDirectives]
      · contradiction
  | discriminator named given known =>
      rw [named]
      have isAbstract := allowed.discriminator (by rw [known]; rfl)
      rcases TypeKind.isAbstract_iff.mp isAbstract with
        isInterface | ⟨members, isUnion⟩
      · simp [isInterface, TypeKind.allowedDirectives]
      · simp [isUnion, TypeKind.allowedDirectives]
  | label named given known =>
      rw [named]
      obtain ⟨interfaces, isObject⟩ :=
        allowed.aliases (List.ne_nil_of_mem known)
      simp [isObject, TypeKind.allowedDirectives]

/-- Extensions and aliases declared apart take no directive from a type. -/
theorem Assembled.grows
    {type : TypeDeclaration}
    (assembled : builder.Assembled declared type) :
    declared.directives.Grows type.directives where
  storage := by
    rw [assembled.storage]
    exact fun _ => id
  discriminator := by
    rw [assembled.discriminator]
    exact fun _ => id
  aliases := by
    obtain ⟨added, appended, -⟩ := assembled.aliases
    rw [appended]
    exact List.subset_append_left _ _

/-- What is said of a field of a type is in the model. -/
theorem records_of_mem_fieldsOf
    {field : FieldDeclaration}
    (built : builder.build = .ok model)
    (member : declared ∈ builder.types.items)
    (listed : field ∈ builder.fieldsOf declared)
    (held : field.directives.Hold directive) :
    model.Records (.field declared.name field.name) directive := by
  obtain ⟨-, assembles⟩ := wellFormed_and_assembles_of_build built
  obtain ⟨type, isType, assembled⟩ :=
    Catalogue.exists_mem_right assembles.types member
  obtain ⟨allowed, -⟩ :=
    (Model.check_eq_ok_iff.mp (Model.check_of_build built)).1 type isType
  rw [← assembled.fields] at listed
  rw [← assembled.name]
  refine .field isType listed ?_ held
  intro named
  exact allowed.indexes field listed (held.index_isSome named)

/-- What is declared is in the model that is built. -/
theorem records_of_knows
    (built : builder.build = .ok model)
    (knows : builder.Knows target directive) :
    model.Records target directive := by
  obtain ⟨wellFormed, assembles⟩ := wellFormed_and_assembles_of_build built
  cases knows with
  | type member held =>
      obtain ⟨type, isType, assembled⟩ :=
        Catalogue.exists_mem_right assembles.types member
      obtain ⟨allowed, -⟩ :=
        (Model.check_eq_ok_iff.mp (Model.check_of_build built)).1 type isType
      have isHeld := held.grows assembled.grows
      rw [← assembled.name]
      exact .type isType (allowed_of_hold allowed isHeld) isHeld
  | field member listed held =>
      exact records_of_mem_fieldsOf built member
        (List.mem_append_left _ listed) held
  | @extensionField extension field _ member listed held =>
      have named := wellFormed.extensions extension member
      rw [Catalogue.has_iff_mem] at named
      obtain ⟨declared, isDeclared, named⟩ := List.mem_map.mp named
      have sameName : declared.name = extension.name := named
      have brought :
          field ∈ TypeExtension.fieldsFor builder.extensions declared.name := by
        refine List.mem_flatMap.mpr ⟨extension, ?_, listed⟩
        rw [List.mem_filter]
        exact ⟨member, decide_eq_true sameName.symm⟩
      have known :=
        records_of_mem_fieldsOf built isDeclared
          (List.mem_append_right _ brought) held
      rwa [sameName] at known

/-! ## What is not looked at -/

/-- Directives that nobody looks at make no difference to a type. -/
theorem readType?_asRead (definition : TypeDefinition) :
    readType? definition.asRead = readType? definition := by
  obtain ⟨name, directives, body⟩ := definition
  cases body with
  | object interfaces fields | interface interfaces fields | union members =>
      simp only [TypeDefinition.asRead, GraphQL.TypeBody.asRead, readType?,
        TypeDirectives.read_filter]
  | scalar | enumeration values | input fields =>
      rfl

/-- Directives that nobody looks at make no difference to an extension. -/
theorem readExtension?_asReadExtension (definition : TypeDefinition) :
    readExtension? definition.asReadExtension = readExtension? definition := by
  obtain ⟨name, directives, body⟩ := definition
  cases body <;> rfl

/-- Directives that nobody looks at make no difference to what is taken in. -/
theorem addDefinition_asRead
    (builder : ModelBuilder)
    (definition : SchemaDefinition) :
    builder.addDefinition definition.asRead =
      builder.addDefinition definition := by
  cases definition with
  | type definition =>
      simp only [SchemaDefinition.asRead, addDefinition, readType?_asRead]
  | extension definition =>
      simp only [SchemaDefinition.asRead, addDefinition,
        readExtension?_asReadExtension]
  | schema operations | directive name =>
      rfl

end ModelBuilder

/--
If documents load, then everything that their storage directives say where it is
looked at is in the model, on the type or field that it is said of. Where it is
not looked at, a directive makes no difference.
-/
theorem Model.records_what_is_looked_at
    {files : List (String × String)}
    {model : Model}
    (loaded : Model.ofFiles files = .ok model) :
    (∀ file ∈ files, ∃ definitions,
      SchemaDefinition.parseAll file.2 = .ok definitions ∧
        ∀ definition ∈ definitions, ∀ target directive,
          definition.asRead.Applies target directive →
            directive.name ∈ storageDirectives →
              model.Records target directive) ∧
      ∀ builder definition,
        ModelBuilder.addDefinition builder definition.asRead =
          ModelBuilder.addDefinition builder definition := by
  refine ⟨?_, ModelBuilder.addDefinition_asRead⟩
  obtain ⟨builder, added, built⟩ := Success.bind_eq_ok_iff.mp loaded
  intro file isFile
  obtain ⟨definitions, areDefinitions, known⟩ :=
    ModelBuilder.knows_of_addFiles added file isFile
  refine ⟨definitions, areDefinitions, ?_⟩
  intro definition isDefinition target directive applies isStorage
  exact ModelBuilder.records_of_knows built
    (known definition isDefinition target directive applies isStorage)

/-- Days are stored with an index, and so are dates, which have no fields. -/
def calendarSchema : String :=
  "type Query\x7bnow:Date\x7d" ++
  "scalar Date@vertex(collection:\"dates\")" ++
  "type Day@vertex(collection:\"days\")\x7bat:Date@index\x7d"

/-- A directive that names a collection. -/
def storedIn (collection : String) : GraphQL.Directive :=
  ⟨"vertex", [("collection", .string collection)]⟩

/-- What is said of dates. -/
def dateDefinition : SchemaDefinition :=
  .type ⟨"Date", [storedIn "dates"], .scalar⟩

/-- What is said of the field of days. -/
def dayField : FieldDefinition :=
  ⟨"at", .named "Date", [⟨"index", []⟩]⟩

/-- What is said of days. -/
def dayDefinition : SchemaDefinition :=
  .type ⟨"Day", [storedIn "days"], .object [] [dayField]⟩

/-- The types of the calendar. -/
def calendarTypes : Catalogue TypeDeclaration where
  items := [
    ⟨"Query", .object [],
      ⟨[⟨"now", .named "Date", .none⟩], by decide⟩, .none⟩,
    .bare "Date" .scalar,
    ⟨"Day", .object [],
      ⟨[⟨"at", .named "Date", ⟨none, some ⟨.persistent, false, false⟩⟩⟩],
        by decide⟩,
      ⟨some ⟨"days", .document⟩, none, []⟩⟩]
  distinct := by decide

/-- The calendar, in which dates are not stored. -/
def calendar : Model :=
  ⟨calendarTypes, [], some "Query"⟩

theorem parseAll_calendarSchema :
    SchemaDefinition.parseAll calendarSchema =
      .ok [
        .type ⟨"Query", [], .object [] [⟨"now", .named "Date", []⟩]⟩,
        dateDefinition,
        dayDefinition] := by
  with_unfolding_all rfl

theorem ofFiles_calendarSchema :
    Model.ofFiles [("schema.graphqls", calendarSchema)] = .ok calendar := by
  decide +kernel

/-- What is said of days and of their field is in the model. -/
theorem days_recorded :
    Model.ofFiles [("schema.graphqls", calendarSchema)] = .ok calendar ∧
      calendar.Records (.type "Day") (storedIn "days") ∧
      calendar.Records (.field "Day" "at") ⟨"index", []⟩ := by
  obtain ⟨recorded, -⟩ :=
    Model.records_what_is_looked_at ofFiles_calendarSchema
  obtain ⟨definitions, parsed, recorded⟩ := recorded _ List.mem_cons_self
  cases parseAll_calendarSchema.symm.trans parsed
  have onDays := recorded dayDefinition (by simp)
  refine ⟨ofFiles_calendarSchema, ?_, ?_⟩
  · exact onDays _ _ (.type List.mem_cons_self) (by decide)
  · have applied : ⟨"index", []⟩ ∈ dayField.directives :=
      List.mem_cons_self
    exact onDays _ _ (.field List.mem_cons_self applied) (by decide)

/-- A collection is named for dates in a schema that loads, and is nowhere in the model. -/
theorem dates_not_recorded :
    Model.ofFiles [("schema.graphqls", calendarSchema)] = .ok calendar ∧
      (∃ definitions,
        SchemaDefinition.parseAll calendarSchema = .ok definitions ∧
          dateDefinition ∈ definitions) ∧
      dateDefinition.Applies (.type "Date") (storedIn "dates") ∧
      (storedIn "dates").name ∈ storageDirectives ∧
      ¬ calendar.Records (.type "Date") (storedIn "dates") := by
  refine ⟨ofFiles_calendarSchema, ⟨_, parseAll_calendarSchema, by simp⟩,
    .type List.mem_cons_self, by decide, ?_⟩
  intro recorded
  obtain ⟨declaration, member, isDate, allowed⟩ := recorded.exists_type
  have isScalar :
      ∀ declaration ∈ calendar.types.items,
        declaration.name = "Date" → declaration.kind = .scalar := by
    decide
  rw [isScalar declaration member isDate] at allowed
  cases allowed

end GraphGate
