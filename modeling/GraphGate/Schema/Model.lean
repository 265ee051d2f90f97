import GraphGate.Schema.Error
import GraphGate.Table

namespace GraphGate

/-!
# The model

A model holds the declared types of a schema in declaration order, their aliases
and the query type, and answers what the rest of the library asks of a schema:
which object types a type stands for, where its records live, and which
collections there are.

A model is valid if directives sit where they are allowed, every name that is
referred to is declared as the right kind of type, and no collection is used
with two kinds.
-/

/-- The declared types with their aliases and the query type. -/
structure Model where
  types : Catalogue TypeDeclaration
  aliases : Table String
  queryTypeName : Option String
deriving Repr, DecidableEq

/-- The query type of a schema that names none, if it is declared. -/
def defaultQueryType : String := "Query"

namespace Model

/-- The declaration of a type. -/
def type? (model : Model) (name : String) : Option TypeDeclaration :=
  model.types.find? name

/-- The declaration of the query type. -/
def queryType? (model : Model) : Option TypeDeclaration :=
  model.queryTypeName.bind model.type?

/-- The declaration of a field. -/
def field? (model : Model) (type field : String) : Option FieldDeclaration :=
  (model.type? type).bind fun declaration => declaration.field? field

/-- The directives of a type; an unknown type has none. -/
def typeDirectives (model : Model) (name : String) : TypeDirectives :=
  ((model.type? name).map TypeDeclaration.directives).getD .none

/-- The directives of a field; an unknown field has none. -/
def fieldDirectives (model : Model) (type field : String) : FieldDirectives :=
  ((model.field? type field).map FieldDeclaration.directives).getD .none

/-- Whether a type is an interface or a union. -/
def isAbstract (model : Model) (name : String) : Bool :=
  (model.type? name).any fun declaration => declaration.kind.isAbstract

/-- Whether the values of a type have no fields: built-in and declared scalars, and enumerations. -/
def isLeaf (model : Model) (name : String) : Bool :=
  builtinScalars.contains name ||
    (model.type? name).any fun declaration => declaration.kind.isLeaf

/-- Whether an object type lists an interface among those it implements. -/
def implements (model : Model) (object interface : String) : Bool :=
  match (model.type? object).map TypeDeclaration.kind with
  | some (.object interfaces) => interfaces.contains interface
  | _ => false

/-- The object types that a value of a type can have. -/
def possibleTypes (model : Model) (name : String) : List TypeDeclaration :=
  match model.type? name with
  | none => []
  | some declaration =>
      match declaration.kind with
      | .object _ => [declaration]
      | .union members => members.filterMap model.type?
      | .interface =>
          model.types.items.filter fun other => model.implements other.name name
      | .scalar | .enumeration => []

/-- Whether a value of one type is acceptable where another is declared. -/
def isSubtype (model : Model) (concrete declared : String) : Bool :=
  concrete == declared ||
    (model.possibleTypes declared).any fun type => type.name == concrete

/-- The type that a name or an alias stands for. -/
def canonicalType? (model : Model) (name : String) : Option String :=
  if model.types.has name then some name else model.aliases.get? name

/-- The aliases of a type. -/
def aliasesOf (model : Model) (name : String) : List String :=
  (model.typeDirectives name).aliases

/--
The collection that the records of a type are stored in. An abstract type that
names none uses the one that all its possible types share, if there is one.
-/
def collectionFor? (model : Model) (name : String) : Option String :=
  match (model.typeDirectives name).collection? with
  | some collection => some collection
  | none =>
      if model.isAbstract name then
        match model.possibleTypes name with
        | [] => none
        | first :: others =>
            match first.directives.collection? with
            | none => none
            | some collection =>
                let shared :=
                  others.all fun other =>
                    other.directives.collection? = some collection
                if shared then some collection else none
      else
        none

/-- A collection together with what uses it, and as which kind. -/
structure CollectionUse where
  owner : CollectionOwner
  collection : String
  kind : CollectionKind
deriving Repr, DecidableEq

/-- The collections that types are stored in. -/
def storageUses (model : Model) : List CollectionUse :=
  model.types.items.filterMap fun declaration =>
    declaration.directives.storage.map fun storage =>
      ⟨.type declaration.name, storage.collection, storage.kind⟩

/-- The collections that the relation fields of a type go along. -/
def relationUsesOf (declaration : TypeDeclaration) : List CollectionUse :=
  declaration.fields.items.filterMap fun field =>
    field.directives.relation.map fun relation =>
      ⟨.field declaration.name field.name, relation.collection, .edge⟩

/-- Every use of a collection: those of types, then those of relation fields. -/
def collectionUses (model : Model) : List CollectionUse :=
  model.storageUses ++ model.types.items.flatMap relationUsesOf

/-- Every collection with its kind, in the order of the first uses. -/
def collections (model : Model) : Table CollectionKind :=
  model.collectionUses.foldl
    (fun table use =>
      if table.has use.collection then
        table
      else
        table ++ [(use.collection, use.kind)])
    []

/-- Whether a collection directive may sit on a type. -/
def allowsStorage (kind : TypeKind) (storage : CollectionKind) : Bool :=
  match kind, storage with
  | .object _, _ => true
  | .interface, .document => true
  | _, _ => false

/-- The directive that declares a collection of a kind. -/
def storageDirectiveName : CollectionKind → String
  | .document => "vertex"
  | .edge => "edge"

/-- Checks that the directives of one type sit where they are allowed. -/
def checkDirectives (declaration : TypeDeclaration) :
    Except SchemaError Unit := do
  let target := DirectiveTarget.declaration declaration.kind declaration.name
  let directives := declaration.directives
  match directives.storage with
  | some storage =>
      if !allowsStorage declaration.kind storage.kind then
        throw (.invalidDirective
          (storageDirectiveName storage.kind) target .notAllowedHere)
  | none => pure ()
  if directives.discriminator.isSome && !declaration.kind.isAbstract then
    throw (.invalidDirective "discriminator" target .onlyOnAbstractTypes)
  match declaration.kind with
  | .object _ => pure ()
  | _ =>
      if !directives.aliases.isEmpty then
        throw (.invalidDirective "alias" target .onlyOnObjectTypes)
  if directives.storage.isNone then
    match declaration.fields.items.find? (·.directives.index.isSome) with
    | some field => throw (.indexWithoutCollection declaration.name field.name)
    | none => pure ()

/-- Whether a name is that of a built-in scalar or of a declared type. -/
def isKnown (model : Model) (name : String) : Bool :=
  builtinScalars.contains name || model.types.has name

/-- Whether a name is that of a declared interface. -/
def isInterface (model : Model) (name : String) : Bool :=
  match (model.type? name).map TypeDeclaration.kind with
  | some .interface => true
  | _ => false

/-- Whether a name is that of a declared object type. -/
def isObject (model : Model) (name : String) : Bool :=
  match (model.type? name).map TypeDeclaration.kind with
  | some (.object _) => true
  | _ => false

/-- Checks that what one type refers to is declared as it has to be. -/
def checkReferences (model : Model) (declaration : TypeDeclaration) :
    Except SchemaError Unit := do
  let unknownField :=
    declaration.fields.items.find? fun field =>
      !model.isKnown field.type.namedType
  match unknownField with
  | some field =>
      throw (.unknownType field.type.namedType
        (.field declaration.name field.name))
  | none => pure ()
  match declaration.kind with
  | .object interfaces =>
      match interfaces.find? (!model.isInterface ·) with
      | some interface =>
          throw (.unknownType interface (.interfacesOf declaration.name))
      | none => pure ()
  | .union members =>
      match members.find? (!model.isObject ·) with
      | some member =>
          throw (.unknownType member (.membersOf declaration.name))
      | none => pure ()
  | _ => pure ()

/-- Checks that a use agrees with the first use of its collection. -/
def checkUse (seen : List CollectionUse) (use : CollectionUse) :
    Except SchemaError (List CollectionUse) :=
  match seen.find? (·.collection = use.collection) with
  | some first =>
      if first.kind = use.kind then
        .ok seen
      else
        .error (.collectionKindConflict use.collection
          first.owner first.kind use.owner use.kind)
  | none => .ok (seen ++ [use])

/-- Checks that no collection is used with two kinds. -/
def checkCollections (model : Model) : Except SchemaError Unit := do
  let _ ← model.collectionUses.foldlM checkUse []

/-- Checks a model: directives first, then references, then collections. -/
def check (model : Model) : Except SchemaError Unit := do
  model.types.items.forM checkDirectives
  model.types.items.forM model.checkReferences
  model.checkCollections

end Model

end GraphGate
