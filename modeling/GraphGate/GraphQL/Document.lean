import GraphGate.Decimal.Binary64
import GraphGate.TypeRef

namespace GraphGate.GraphQL

/-!
# Documents

The parsed form of query documents and of schema documents, with what the rest
of the library asks of them: names, arguments, directives and selections.
-/

/-- A value in a document. The fields of an object are sorted by name. -/
inductive Value where
  | reference (name : String)
  | integer (value : Int)
  | float (value : Binary64)
  | string (value : String)
  | boolean (value : Bool)
  | null
  | enumeration (name : String)
  | list (items : List Value)
  | object (fields : List (String × Value))
deriving Repr, Inhabited

/-- Named values, in the order they are written. -/
abbrev Arguments := List (String × Value)

/-- A directive where it is applied. -/
structure Directive where
  name : String
  arguments : Arguments
deriving Repr

/-- The value of an argument: the first of those with its name. -/
def Directive.argument? (directive : Directive) (name : String) : Option Value :=
  directive.arguments.lookup name

/-- A part of a selection set. -/
inductive Selection where
  | field
      (label : Option String)
      (name : String)
      (arguments : Arguments)
      (directives : List Directive)
      (selections : List Selection)
  | inlineFragment
      (condition : Option String)
      (directives : List Directive)
      (selections : List Selection)
  | spread
      (fragment : String)
      (directives : List Directive)
deriving Repr, Inhabited

/-- A variable that an operation declares. -/
structure VariableDefinition where
  name : String
  type : TypeRef
  defaultValue : Option Value
deriving Repr

/-- What an operation does. -/
inductive OperationKind where
  | query
  | mutation
  | subscription
deriving Repr, DecidableEq

/-- An operation of a query document. -/
structure Operation where
  kind : OperationKind
  name : Option String
  declared : List VariableDefinition
  directives : List Directive
  selections : List Selection
deriving Repr

/-- A named fragment with the type it applies to. -/
structure FragmentDefinition where
  name : String
  condition : String
  directives : List Directive
  selections : List Selection
deriving Repr

/-- A query document: its operations and its fragments, each in document order. -/
structure QueryDocument where
  operations : List Operation
  fragments : List FragmentDefinition
deriving Repr

/-- A field in a schema document. -/
structure FieldDefinition where
  name : String
  type : TypeRef
  directives : List Directive
deriving Repr

/-- What a type consists of, by kind. -/
inductive TypeBody where
  | object (interfaces : List String) (fields : List FieldDefinition)
  | interface (interfaces : List String) (fields : List FieldDefinition)
  | union (members : List String)
  | scalar
  | enumeration (values : List String)
  | input (fields : List FieldDefinition)
deriving Repr

/-- A type in a schema document. -/
structure TypeDefinition where
  name : String
  directives : List Directive
  body : TypeBody
deriving Repr

/-- The types of the three operations, where they are given. -/
structure OperationTypes where
  query : Option String
  mutation : Option String
  subscription : Option String
deriving Repr, DecidableEq

/-- A definition of a schema document. -/
inductive SchemaDefinition where
  | schema (operations : OperationTypes)
  | type (definition : TypeDefinition)
  | extension (definition : TypeDefinition)
  | directive (name : String)
deriving Repr

end GraphGate.GraphQL
