import GraphGate.Schema.Model

namespace GraphGate

/-!
# Building a model

A builder collects type declarations, further aliases, extensions and the name
of the query type in any order. Building applies the extensions, gathers the
aliases, resolves the query type and checks the result; the first defect in that
order is reported.
-/

/-- Fields and interfaces for a type that is declared somewhere. -/
structure TypeExtension where
  name : String
  interfaces : List String
  fields : List FieldDeclaration
deriving Repr, DecidableEq

/-- What has been declared so far. -/
structure ModelBuilder where
  types : Catalogue TypeDeclaration
  aliases : List (String × String)
  extensions : List TypeExtension
  queryTypeName : Option String
deriving Repr

/-- Adds interfaces to an object type; other kinds stay as they are. -/
def TypeKind.withInterfaces (kind : TypeKind) (added : List String) : TypeKind :=
  match kind with
  | .object interfaces => .object (interfaces ++ added)
  | other => other

namespace TypeDeclaration

/-- Adds a field whose name the type does not have yet. -/
def addField (declaration : TypeDeclaration) (field : FieldDeclaration) :
    Except SchemaError TypeDeclaration :=
  match declaration.fields.add? field with
  | some fields => .ok { declaration with fields := fields }
  | none => .error (.duplicateField declaration.name field.name)

/-- Adds the fields and interfaces of an extension. -/
def extend (declaration : TypeDeclaration) (extension : TypeExtension) :
    Except SchemaError TypeDeclaration := do
  let extended ← extension.fields.foldlM addField declaration
  return { extended with
    kind := extended.kind.withInterfaces extension.interfaces }

/-- Adds an alias that is not there yet. -/
def addAlias (declaration : TypeDeclaration) (label : String) :
    TypeDeclaration :=
  if declaration.directives.aliases.contains label then
    declaration
  else
    { declaration with
      directives := { declaration.directives with
        aliases := declaration.directives.aliases ++ [label] } }

end TypeDeclaration

namespace ModelBuilder

/-- The builder in which nothing is declared. -/
def empty : ModelBuilder where
  types := Catalogue.empty
  aliases := []
  extensions := []
  queryTypeName := none

instance : Inhabited ModelBuilder :=
  ⟨empty⟩

/-- Declares a type whose name is neither built in nor taken. -/
def declareType (builder : ModelBuilder) (declaration : TypeDeclaration) :
    Except SchemaError ModelBuilder :=
  if builtinScalars.contains declaration.name then
    .error (.duplicateType declaration.name)
  else
    match builder.types.add? declaration with
    | some types => .ok { builder with types := types }
    | none => .error (.duplicateType declaration.name)

/-- Makes a name an alias of a type, next to the aliases the type has itself. -/
def declareAlias (builder : ModelBuilder) (label canonical : String) :
    ModelBuilder :=
  { builder with aliases := builder.aliases ++ [(label, canonical)] }

/-- Extends a type that may be declared later. -/
def extendType (builder : ModelBuilder) (extension : TypeExtension) :
    ModelBuilder :=
  { builder with extensions := builder.extensions ++ [extension] }

/-- Names the query type. -/
def setQueryType (builder : ModelBuilder) (name : String) : ModelBuilder :=
  { builder with queryTypeName := some name }

/-- Applies an extension to the type that it names. -/
def applyExtension
    (types : Catalogue TypeDeclaration)
    (extension : TypeExtension) :
    Except SchemaError (Catalogue TypeDeclaration) :=
  match types.find? extension.name with
  | none => .error (.unknownType extension.name .typeExtension)
  | some declaration => do
      return types.put (← declaration.extend extension)

/-- The aliases that the types have by their directives, with their types. -/
def directiveAliases (types : Catalogue TypeDeclaration) :
    List (String × String) :=
  types.items.flatMap fun declaration =>
    declaration.directives.aliases.map (·, declaration.name)

/-- Gives a type an alias that was declared apart from it. -/
def applyAlias
    (types : Catalogue TypeDeclaration)
    (pair : String × String) :
    Except SchemaError (Catalogue TypeDeclaration) :=
  match types.find? pair.2 with
  | none => .error (.undeclaredAliasTarget pair.1 pair.2)
  | some declaration => .ok (types.put (declaration.addAlias pair.1))

/-- Adds an alias that is no type name and no alias of another type. -/
def addAlias
    (types : Catalogue TypeDeclaration)
    (aliases : Table String)
    (pair : String × String) : Except SchemaError (Table String) :=
  let (label, canonical) := pair
  if types.has label || builtinScalars.contains label then
    .error (.aliasConflict label canonical (.typeName label))
  else
    match aliases.get? label with
    | some existing =>
        if existing = canonical then
          .ok aliases
        else
          .error (.aliasConflict label canonical (.aliasOf existing))
    | none => .ok (aliases ++ [(label, canonical)])

/-- The name of the query type: the one that was set, or the default one. -/
def resolveQueryType
    (types : Catalogue TypeDeclaration)
    (name : Option String) : Except SchemaError (Option String) :=
  match name with
  | some name =>
      if types.has name then
        .ok (some name)
      else
        .error (.unknownType name .schemaDefinition)
  | none =>
      .ok (if types.has defaultQueryType then some defaultQueryType else none)

/-- The model of everything declared, if it has no defect. -/
def build (builder : ModelBuilder) : Except SchemaError Model := do
  let extended ← builder.extensions.foldlM applyExtension builder.types
  let types ← builder.aliases.foldlM applyAlias extended
  let pairs := directiveAliases extended ++ builder.aliases
  let aliases ← pairs.foldlM (addAlias types) []
  let queryTypeName ← resolveQueryType types builder.queryTypeName
  let model : Model := ⟨types, aliases, queryTypeName⟩
  model.check
  return model

end ModelBuilder

end GraphGate
