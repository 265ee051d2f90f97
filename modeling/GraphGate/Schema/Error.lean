import GraphGate.GraphQL.Token
import GraphGate.Schema.Declaration

namespace GraphGate

/-!
# Defects of a schema

What can be wrong with the type declarations. All of it is found while loading,
none of it at request time.
-/

/-- What a directive is applied to. -/
inductive DirectiveTarget where
  | type (name : String)
  | field (type : String) (field : String)
  | declaration (kind : TypeKind) (name : String)
deriving Repr, DecidableEq

/-- What is wrong with the application of a directive. -/
inductive DirectiveFault where
  | unknownArgument (argument : String)
  | missingArgument (argument : String)
  | emptyArgument (argument : String)
  | argumentNotString (argument : String)
  | argumentNotEnum (argument : String)
  | argumentNotBoolean (argument : String)
  | unknownDirection (direction : String)
  | unknownIndexKind (kind : String)
  | storedTwice
  | repeated
  | onlyOnTypes
  | notAllowedHere
  | onlyOnAbstractTypes
  | onlyOnObjectTypes
deriving Repr, DecidableEq

/-- What a collection is used by. -/
inductive CollectionOwner where
  | type (name : String)
  | field (type : String) (field : String)
deriving Repr, DecidableEq

/-- What an alias clashes with. -/
inductive AliasClash where
  | typeName (name : String)
  | aliasOf (name : String)
deriving Repr, DecidableEq

/-- What names a type that is not declared as it has to be. -/
inductive TypeReferrer where
  | field (type : String) (field : String)
  | interfacesOf (type : String)
  | membersOf (union : String)
  | typeExtension
  | schemaDefinition
deriving Repr, DecidableEq

/-- A defect of the type declarations. -/
inductive SchemaError where
  | parse (file : String) (position : GraphQL.Position)
  | duplicateType (name : String)
  | duplicateField (type : String) (field : String)
  | invalidDirective
      (directive : String)
      (target : DirectiveTarget)
      (fault : DirectiveFault)
  | collectionKindConflict
      (collection : String)
      (first : CollectionOwner)
      (firstKind : CollectionKind)
      (second : CollectionOwner)
      (secondKind : CollectionKind)
  | undeclaredAliasTarget (label : String) (canonical : String)
  | aliasConflict (label : String) (canonical : String) (clash : AliasClash)
  | unknownType (name : String) (referrer : TypeReferrer)
  | indexWithoutCollection (type : String) (field : String)
  | duplicateDiscriminatorValue
      (abstractType : String)
      (value : String)
      (first : String)
      (second : String)
deriving Repr, DecidableEq

/-- A field with its type, as it is named in messages. -/
def qualifiedField (type field : String) : String :=
  "field \"" ++ type ++ "." ++ field ++ "\""

/-- How the place of a syntax error is reported. -/
def parseErrorAt (position : GraphQL.Position) : String :=
  "Parse error at " ++ position.render

/-- The target in words. -/
def DirectiveTarget.render : DirectiveTarget → String
  | .type name => "type \"" ++ name ++ "\""
  | .field owner name => qualifiedField owner name
  | .declaration kind name => kind.describe ++ " \"" ++ name ++ "\""

/-- The fault in words. -/
def DirectiveFault.render : DirectiveFault → String
  | .unknownArgument argument => "unknown argument `" ++ argument ++ "`"
  | .missingArgument argument =>
      "missing required argument `" ++ argument ++ "`"
  | .emptyArgument argument =>
      "argument `" ++ argument ++ "` must not be empty"
  | .argumentNotString argument =>
      "argument `" ++ argument ++ "` must be a string"
  | .argumentNotEnum argument =>
      "argument `" ++ argument ++ "` must be an enum value"
  | .argumentNotBoolean argument =>
      "argument `" ++ argument ++ "` must be a boolean"
  | .unknownDirection direction =>
      "unknown direction `" ++ direction ++
        "`, expected OUTBOUND or INBOUND"
  | .unknownIndexKind kind =>
      "unknown index type `" ++ kind ++
        "`, expected PERSISTENT, FULLTEXT or GEO"
  | .storedTwice => "a type can only be stored in one collection"
  | .repeated => "the directive can only be used once"
  | .onlyOnTypes => "the directive is only allowed on types"
  | .notAllowedHere => "the directive is not allowed here"
  | .onlyOnAbstractTypes =>
      "only interfaces and unions can declare a discriminator"
  | .onlyOnObjectTypes => "only object types can have aliases"

/-- The owner in words. -/
def CollectionOwner.render : CollectionOwner → String
  | .type name => "type \"" ++ name ++ "\""
  | .field owner name => qualifiedField owner name

/-- The clash in words. -/
def AliasClash.render : AliasClash → String
  | .typeName name => "the type \"" ++ name ++ "\""
  | .aliasOf name => "an alias of \"" ++ name ++ "\""

/-- The referrer in words. -/
def TypeReferrer.render : TypeReferrer → String
  | .field owner name => qualifiedField owner name
  | .interfacesOf type => "the interfaces of \"" ++ type ++ "\""
  | .membersOf union => "the members of union \"" ++ union ++ "\""
  | .typeExtension => "a type extension"
  | .schemaDefinition => "the schema definition"

/-- The defect in words. -/
def SchemaError.message : SchemaError → String
  | .parse file position =>
      "Could not parse schema file '" ++ file ++ "': schema parse error: " ++
        parseErrorAt position
  | .duplicateType name =>
      "The type \"" ++ name ++
        "\" cannot be defined because a type with that name already exists."
  | .duplicateField type field =>
      "The field \"" ++ type ++ "." ++ field ++
        "\" is declared more than once."
  | .invalidDirective directive target fault =>
      "Error parsing directive @" ++ directive ++ " on " ++ target.render ++
        ": " ++ fault.render
  | .collectionKindConflict collection first firstKind second secondKind =>
      "The collection \"" ++ collection ++ "\" is used as " ++
        firstKind.render ++ " collection by " ++ first.render ++ " and as " ++
        secondKind.render ++ " collection by " ++ second.render ++ "."
  | .undeclaredAliasTarget label canonical =>
      "The alias \"" ++ label ++ "\" points to the undeclared type \"" ++
        canonical ++ "\"."
  | .aliasConflict label canonical clash =>
      "The alias \"" ++ label ++ "\" of \"" ++ canonical ++
        "\" clashes with " ++ clash.render ++ "."
  | .unknownType name referrer =>
      "Type \"" ++ name ++ "\" referenced by " ++ referrer.render ++
        " is neither a built-in type nor declared in the schema."
  | .indexWithoutCollection type field =>
      "The field \"" ++ type ++ "." ++ field ++
        "\" has an @index directive, but \"" ++ type ++
        "\" is not stored in a collection."
  | .duplicateDiscriminatorValue abstractType value first second =>
      "The discriminator value \"" ++ value ++ "\" of \"" ++ abstractType ++
        "\" is used by both \"" ++ first ++ "\" and \"" ++ second ++ "\"."

end GraphGate
