import GraphGate.Proofs.Schema.Aliases
import GraphGate.Proofs.Schema.Extensions

namespace GraphGate

/-!
# Well-formed schemas

A schema is what a sequence of calls on a builder declares. It is well-formed if
its types, extensions and aliases fit together, as the declarations alone show.
Its model has the declared types in order, with everything that extensions and
aliases bring to them.
-/

/-- A call on a builder. -/
inductive BuilderCall where
  | declareType (declaration : TypeDeclaration)
  | declareAlias (label canonical : String)
  | extendType (extension : TypeExtension)
  | setQueryType (name : String)

namespace BuilderCall

/-- The type that a call declares. -/
def type? : BuilderCall → Option TypeDeclaration
  | .declareType declaration => some declaration
  | _ => none

/-- The alias that a call declares, with its type. -/
def alias? : BuilderCall → Option (String × String)
  | .declareAlias label canonical => some (label, canonical)
  | _ => none

/-- The extension that a call makes. -/
def extension? : BuilderCall → Option TypeExtension
  | .extendType extension => some extension
  | _ => none

/-- The query type that a call sets. -/
def queryType? : BuilderCall → Option String
  | .setQueryType name => some name
  | _ => none

variable {α : Type} {call : BuilderCall}

theorem filterMap_append_of_none
    (pick : BuilderCall → Option α)
    (calls : List BuilderCall)
    (other : pick call = none) :
    (calls ++ [call]).filterMap pick = calls.filterMap pick := by
  rw [List.filterMap_append, List.filterMap_cons_none other,
    List.filterMap_nil, List.append_nil]

theorem filterMap_append_of_some
    {item : α}
    (pick : BuilderCall → Option α)
    (calls : List BuilderCall)
    (picked : pick call = some item) :
    (calls ++ [call]).filterMap pick = calls.filterMap pick ++ [item] := by
  rw [List.filterMap_append, List.filterMap_cons_some picked,
    List.filterMap_nil]

end BuilderCall

namespace ModelBuilder

variable {builder before after : ModelBuilder}
variable {calls passed : List BuilderCall} {call : BuilderCall}

/-- Carries out a call, which only fails if it declares a type whose name is taken. -/
def perform (builder : ModelBuilder) :
    BuilderCall → Except SchemaError ModelBuilder
  | .declareType declaration => builder.declareType declaration
  | .declareAlias label canonical => .ok (builder.declareAlias label canonical)
  | .extendType extension => .ok (builder.extendType extension)
  | .setQueryType name => .ok (builder.setQueryType name)

/-- A builder that holds what some calls declare, and nothing else. -/
structure Records (calls : List BuilderCall) (builder : ModelBuilder) :
    Prop where
  types : builder.types.items = calls.filterMap BuilderCall.type?
  aliases : builder.aliases = calls.filterMap BuilderCall.alias?
  extensions : builder.extensions = calls.filterMap BuilderCall.extension?
  queryTypeName :
    builder.queryTypeName = (calls.filterMap BuilderCall.queryType?).getLast?
  notBuiltin : ∀ name ∈ builder.types.names, name ∉ builtinScalars

theorem records_nil : Records [] empty where
  types := rfl
  aliases := rfl
  extensions := rfl
  queryTypeName := rfl
  notBuiltin := fun _ member => nomatch member

theorem Records.declareType
    {declaration : TypeDeclaration}
    (earlier : Records passed before)
    (declared : before.declareType declaration = .ok after) :
    Records (passed ++ [.declareType declaration]) after := by
  unfold ModelBuilder.declareType at declared
  split at declared
  · cases declared
  · rename_i notBuiltin
    split at declared
    · rename_i types added
      cases declared
      have appended := Catalogue.add?_eq_some_iff.mp added
      refine ⟨?_, ?_, ?_, ?_, ?_⟩
      · rw [BuilderCall.filterMap_append_of_some BuilderCall.type? passed rfl,
          ← earlier.types]
        exact appended
      · rw [BuilderCall.filterMap_append_of_none BuilderCall.alias? passed rfl]
        exact earlier.aliases
      · rw [BuilderCall.filterMap_append_of_none BuilderCall.extension? passed rfl]
        exact earlier.extensions
      · rw [BuilderCall.filterMap_append_of_none BuilderCall.queryType? passed rfl]
        exact earlier.queryTypeName
      · intro name member
        rw [Catalogue.names, appended, List.map_append] at member
        rcases List.mem_append.mp member with old | new
        · exact earlier.notBuiltin name old
        · rw [List.mem_singleton.mp new]
          exact fun builtin => notBuiltin (List.contains_iff_mem.mpr builtin)
    · cases declared

theorem Records.declareAlias
    (earlier : Records passed before)
    (label canonical : String) :
    Records (passed ++ [.declareAlias label canonical])
      (before.declareAlias label canonical) := by
  refine ⟨?_, ?_, ?_, ?_, earlier.notBuiltin⟩
  · rw [BuilderCall.filterMap_append_of_none BuilderCall.type? passed rfl]
    exact earlier.types
  · rw [BuilderCall.filterMap_append_of_some BuilderCall.alias? passed rfl,
      ← earlier.aliases]
    rfl
  · rw [BuilderCall.filterMap_append_of_none BuilderCall.extension? passed rfl]
    exact earlier.extensions
  · rw [BuilderCall.filterMap_append_of_none BuilderCall.queryType? passed rfl]
    exact earlier.queryTypeName

theorem Records.extendType
    (earlier : Records passed before)
    (extension : TypeExtension) :
    Records (passed ++ [.extendType extension])
      (before.extendType extension) := by
  refine ⟨?_, ?_, ?_, ?_, earlier.notBuiltin⟩
  · rw [BuilderCall.filterMap_append_of_none BuilderCall.type? passed rfl]
    exact earlier.types
  · rw [BuilderCall.filterMap_append_of_none BuilderCall.alias? passed rfl]
    exact earlier.aliases
  · rw [BuilderCall.filterMap_append_of_some BuilderCall.extension? passed rfl,
      ← earlier.extensions]
    rfl
  · rw [BuilderCall.filterMap_append_of_none BuilderCall.queryType? passed rfl]
    exact earlier.queryTypeName

theorem Records.setQueryType
    (earlier : Records passed before)
    (name : String) :
    Records (passed ++ [.setQueryType name]) (before.setQueryType name) := by
  refine ⟨?_, ?_, ?_, ?_, earlier.notBuiltin⟩
  · rw [BuilderCall.filterMap_append_of_none BuilderCall.type? passed rfl]
    exact earlier.types
  · rw [BuilderCall.filterMap_append_of_none BuilderCall.alias? passed rfl]
    exact earlier.aliases
  · rw [BuilderCall.filterMap_append_of_none BuilderCall.extension? passed rfl]
    exact earlier.extensions
  · rw [BuilderCall.filterMap_append_of_some BuilderCall.queryType? passed rfl,
      List.getLast?_concat]
    rfl

theorem Records.perform
    (earlier : Records passed before)
    (performed : before.perform call = .ok after) :
    Records (passed ++ [call]) after := by
  cases call with
  | declareType declaration =>
      exact earlier.declareType performed
  | declareAlias label canonical =>
      cases performed
      exact earlier.declareAlias label canonical
  | extendType extension =>
      cases performed
      exact earlier.extendType extension
  | setQueryType name =>
      cases performed
      exact earlier.setQueryType name

/-- A builder holds what the calls on it declare. -/
theorem records_of_performed
    (performed : calls.foldlM ModelBuilder.perform empty = .ok builder) :
    Records calls builder :=
  Success.foldlM_induction (motive := Records) performed records_nil
    fun _ _ _ _ stepped earlier => earlier.perform stepped

/-- The fields of a type: its own ones, then those of its extensions. -/
def fieldsOf
    (builder : ModelBuilder)
    (declared : TypeDeclaration) : List FieldDeclaration :=
  declared.fields.items ++
    TypeExtension.fieldsFor builder.extensions declared.name

/-- All aliases with their types: those by directive, then those declared apart. -/
def labels (builder : ModelBuilder) : List (String × String) :=
  directiveAliases builder.types ++ builder.aliases

/-- Whether an object type of a name is declared. -/
def DeclaresObject (builder : ModelBuilder) (name : String) : Prop :=
  ∃ declared ∈ builder.types.items,
    declared.name = name ∧
      ∃ interfaces, declared.kind = .object interfaces

/-- Whether an interface of a name is declared. -/
def DeclaresInterface (builder : ModelBuilder) (name : String) : Prop :=
  ∃ declared ∈ builder.types.items,
    declared.name = name ∧ declared.kind = .interface

/-- Whether a type is stored in a collection of a kind, or a field goes along it. -/
inductive Uses (builder : ModelBuilder) : String → CollectionKind → Prop where
  | stored
      {declared : TypeDeclaration}
      {collection : String}
      {kind : CollectionKind} :
      declared ∈ builder.types.items →
      declared.directives.storage = some ⟨collection, kind⟩ →
      Uses builder collection kind
  | related
      {declared : TypeDeclaration}
      {field : FieldDeclaration}
      {collection : String}
      {direction : Direction} :
      declared ∈ builder.types.items →
      field ∈ builder.fieldsOf declared →
      field.directives.relation = some ⟨collection, direction⟩ →
      Uses builder collection .edge

/-- What is asked of a declared type. -/
structure WellFormedType
    (builder : ModelBuilder)
    (declared : TypeDeclaration) : Prop where
  fieldNames : ((builder.fieldsOf declared).map Named.name).Nodup
  storage : ∀ storage, declared.directives.storage = some storage →
    (∃ interfaces, declared.kind = .object interfaces) ∨
      declared.kind = .interface ∧ storage.kind = .document
  discriminator :
    declared.directives.discriminator.isSome = true →
      declared.kind = .interface ∨ ∃ members, declared.kind = .union members
  aliases : ∀ label, (label, declared.name) ∈ builder.labels →
    ∃ interfaces, declared.kind = .object interfaces
  indexes : ∀ field ∈ builder.fieldsOf declared,
    field.directives.index.isSome = true →
      declared.directives.storage.isSome = true
  fieldTypes : ∀ field ∈ builder.fieldsOf declared,
    field.type.namedType ∈ builtinScalars ∨
      builder.types.has field.type.namedType = true
  interfaces : ∀ interfaces, declared.kind = .object interfaces →
    ∀ name ∈
        interfaces ++
          TypeExtension.interfacesFor builder.extensions declared.name,
      builder.DeclaresInterface name
  members : ∀ members, declared.kind = .union members →
    ∀ name ∈ members, builder.DeclaresObject name

/-- What is asked of everything declared. -/
structure WellFormed (builder : ModelBuilder) : Prop where
  extensions : ∀ extension ∈ builder.extensions,
    builder.types.has extension.name = true
  types : ∀ declared ∈ builder.types.items, builder.WellFormedType declared
  aliasTargets : ∀ pair ∈ builder.aliases, builder.types.has pair.2 = true
  aliasNames : ∀ pair ∈ builder.labels, IsFree builder.types pair.1
  aliasOwners : Consistent builder.labels
  queryType : ∀ name, builder.queryTypeName = some name →
    builder.types.has name = true
  collections : ∀ collection first second,
    builder.Uses collection first →
      builder.Uses collection second → first = second

/--
A declared type with the fields and interfaces of its extensions and the aliases
that are declared apart from it.
-/
structure Assembled
    (builder : ModelBuilder)
    (declared type : TypeDeclaration) : Prop where
  name : type.name = declared.name
  kind :
    type.kind =
      declared.kind.withInterfaces
        (TypeExtension.interfacesFor builder.extensions declared.name)
  fields : type.fields.items = builder.fieldsOf declared
  storage : type.directives.storage = declared.directives.storage
  discriminator :
    type.directives.discriminator = declared.directives.discriminator
  aliases :
    ∃ added,
      type.directives.aliases = declared.directives.aliases ++ added ∧
        added.Nodup ∧
        ∀ label,
          label ∈ added ↔
            (label, declared.name) ∈ builder.aliases ∧
              label ∉ declared.directives.aliases

/-- The model of everything declared. -/
structure Assembles (builder : ModelBuilder) (model : Model) : Prop where
  types :
    List.Forall₂ (Assembled builder) builder.types.items model.types.items
  aliases : ∀ label canonical,
    model.aliases.get? label = some canonical ↔
      (label, canonical) ∈ builder.labels
  queryTypeName :
    model.queryTypeName =
      builder.queryTypeName.or
        (if builder.types.has defaultQueryType then
          some defaultQueryType
        else
          none)

end ModelBuilder

end GraphGate
