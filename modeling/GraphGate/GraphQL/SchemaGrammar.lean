import GraphGate.GraphQL.Grammar

namespace GraphGate.GraphQL

/-!
# The grammar of schema documents

A schema document holds the schema definition, types, extensions of types and
directives. A construct that is complete but wrong as a whole, such as an
extension that adds nothing, is reported where it starts.
-/

/-- Where directives may stand. -/
def directiveLocations : List String :=
  ["QUERY", "MUTATION", "SUBSCRIPTION", "FIELD", "FRAGMENT_DEFINITION",
    "FRAGMENT_SPREAD", "INLINE_FRAGMENT", "VARIABLE_DEFINITION", "SCHEMA",
    "SCALAR", "OBJECT", "FIELD_DEFINITION", "ARGUMENT_DEFINITION", "INTERFACE",
    "UNION", "ENUM", "ENUM_VALUE", "INPUT_OBJECT", "INPUT_FIELD_DEFINITION"]

/-- The types of the operations, each given at most once. -/
def operationTypes? (operations : List (String × String)) :
    Option OperationTypes :=
  let namesKnown :=
    operations.all fun operation =>
      ["query", "mutation", "subscription"].contains operation.1
  if namesKnown ∧ (operations.map Prod.fst).Nodup then
    some {
      query := operations.lookup "query"
      mutation := operations.lookup "mutation"
      subscription := operations.lookup "subscription"
    }
  else
    none

namespace Rule

/-- Whether the next token is a description, which stays in place. -/
def startsDescription (input : List Lexeme) : Bool :=
  match nextToken input with
  | .string _ => true
  | _ => false

/-- Passes over a description if there is one. -/
def description : Rule Unit := do
  let input ← Reader.peek
  if startsDescription input then
    Reader.moveTo (input.drop 1)

/-- Reads a schema definition behind its keyword, which stands at a position. -/
def schemaDefinition (start : Position) : Rule SchemaDefinition := do
  let _ ← directives
  mark '\x7b'
  let operations ← closedBy '\x7d' (labelled name)
  match operationTypes? operations with
  | some types => return .schema types
  | none => Reader.failAt fun _ => start

/-- Reads the definition of an argument or of a field of an input type. -/
def inputValue : Rule FieldDefinition := do
  description
  let (name, type) ← labelled typeRef
  let _ ← optional (startsMark '=') (do mark '='; constant)
  return ⟨name, type, ← directives⟩

/-- Reads a field with its arguments. -/
def fieldDefinition : Rule FieldDefinition := do
  description
  let name ← name
  let _ ← bracketed '(' ')' inputValue
  mark ':'
  let type ← typeRef
  return ⟨name, type, ← directives⟩

/-- Reads a value of an enumeration. -/
def enumValue : Rule String := do
  description
  let name ← name
  let _ ← directives
  return name

/-- Reads the interfaces a type implements. -/
def interfaces : Rule (List String) := do
  if startsWord "implements" (← Reader.peek) then
    word "implements"
    separatedNames '&' name
  else
    return []

/-- Reads the members of a union. -/
def unionMembers : Rule (List String) := do
  if startsMark '=' (← Reader.peek) then
    mark '='
    separatedNames '|' name
  else
    return []

/-- Reads a type behind its optional description. -/
def typeDefinition : Rule TypeDefinition := do
  match nextToken (← Reader.peek) with
  | .name "scalar" =>
      word "scalar"
      let name ← name
      return ⟨name, ← directives, .scalar⟩
  | .name "type" =>
      word "type"
      let name ← name
      let interfaces ← interfaces
      let directives ← directives
      let fields ← bracketed '\x7b' '\x7d' fieldDefinition
      return ⟨name, directives, .object interfaces fields⟩
  | .name "interface" =>
      word "interface"
      let name ← name
      let interfaces ← interfaces
      let directives ← directives
      let fields ← bracketed '\x7b' '\x7d' fieldDefinition
      return ⟨name, directives, .interface interfaces fields⟩
  | .name "union" =>
      word "union"
      let name ← name
      let directives ← directives
      return ⟨name, directives, .union (← unionMembers)⟩
  | .name "enum" =>
      word "enum"
      let name ← name
      let directives ← directives
      let values ← bracketed '\x7b' '\x7d' enumValue
      return ⟨name, directives, .enumeration values⟩
  | .name "input" =>
      word "input"
      let name ← name
      let directives ← directives
      let fields ← bracketed '\x7b' '\x7d' inputValue
      return ⟨name, directives, .input fields⟩
  | _ => unexpected

/-- Reads a place where a directive may stand. -/
def directiveLocation : Rule String := do
  let input ← Reader.peek
  match nextToken input with
  | .name text =>
      if directiveLocations.contains text then name else unexpected
  | _ => unexpected

/-- Reads the definition of a directive behind its keyword. -/
def directiveDefinition : Rule SchemaDefinition := do
  mark '@'
  let name ← name
  let _ ← bracketed '(' ')' inputValue
  let _ ← optional (startsWord "repeatable") (word "repeatable")
  word "on"
  let _ ← separatedNames '|' directiveLocation
  return .directive name

/-- Whether an extension brings anything with it. -/
def addsAnything (extension : TypeDefinition) : Bool :=
  !extension.directives.isEmpty ||
    match extension.body with
    | .object interfaces fields => !interfaces.isEmpty || !fields.isEmpty
    | .interface _ fields => !fields.isEmpty
    | .union members => !members.isEmpty
    | .scalar => false
    | .enumeration values => !values.isEmpty
    | .input fields => !fields.isEmpty

/-- Reads a type extension behind its keyword. -/
def typeExtension : Rule SchemaDefinition := do
  let start ← position
  let definition ← typeDefinition
  if addsAnything definition then
    return .extension definition
  else
    Reader.failAt fun _ => start

/-- Reads a definition of a schema document. -/
def schemaDocumentDefinition : Rule SchemaDefinition := do
  let start ← position
  match nextToken (← Reader.peek) with
  | .name "schema" =>
      word "schema"
      schemaDefinition start
  | .name "extend" =>
      word "extend"
      typeExtension
  | _ =>
      description
      if startsWord "directive" (← Reader.peek) then
        word "directive"
        directiveDefinition
      else
        return .type (← typeDefinition)

end Rule

/-- The definitions of a schema document, or the position of its first error. -/
def SchemaDefinition.parseAll (text : String) :
    Except Position (List SchemaDefinition) :=
  Rule.document Rule.schemaDocumentDefinition text

end GraphGate.GraphQL
