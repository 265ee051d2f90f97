import GraphGate.GraphQL.Document
import GraphGate.GraphQL.Token
import GraphGate.Reader

namespace GraphGate.GraphQL

/-!
# Shared grammar

A rule reads tokens off the front of a document and fails at the position of the
first token it cannot accept. Here are the rules that query documents and schema
documents have in common: names, types, values, arguments and directives.

A value holds other values to a bounded depth, because only so many brackets may
be open at once.
-/

/-- Reads tokens, and fails at a position. -/
abbrev Rule (α : Type) := Reader Lexeme Position α

/-- The next token. -/
def nextToken : List Lexeme → Token
  | lexeme :: _ => lexeme.token
  | [] => .endOfText

/-- The position of the next token. -/
def nextPosition : List Lexeme → Position
  | lexeme :: _ => lexeme.position
  | [] => Position.start

namespace Rule

/-- Fails at the next token. -/
def unexpected {α : Type} : Rule α :=
  Reader.failAt nextPosition

/-- The position of the next token, which stays in place. -/
def position : Rule Position := do
  return nextPosition (← Reader.peek)

/-- Whether the next token is a mark, which stays in place. -/
def startsMark (mark : Char) (input : List Lexeme) : Bool :=
  nextToken input = .punctuator mark

/-- Whether the next token is a given word, which stays in place. -/
def startsWord (word : String) (input : List Lexeme) : Bool :=
  nextToken input = .name word

/-- Takes any token that passes a test. -/
def takeToken (accept : Token → Bool) : Rule Unit := do
  let input ← Reader.peek
  if accept (nextToken input) then
    Reader.moveTo (input.drop 1)
  else
    unexpected

/-- Takes a mark. -/
def mark (expected : Char) : Rule Unit :=
  takeToken (· = .punctuator expected)

/-- Takes a given word. -/
def word (expected : String) : Rule Unit :=
  takeToken (· = .name expected)

/-- Takes a name. -/
def name : Rule String := do
  let input ← Reader.peek
  match nextToken input with
  | .name text =>
      Reader.moveTo (input.drop 1)
      return text
  | _ => unexpected

/-- Reads something if it starts here. -/
def optional {α : Type}
    (starts : List Lexeme → Bool)
    (rule : Rule α) : Rule (Option α) := do
  if starts (← Reader.peek) then
    return some (← rule)
  else
    return none

/-- Reads items up to a closing mark, possibly none. -/
def closedBy {α : Type} (close : Char) (item : Rule α) : Rule (List α) := do
  let items ← Reader.manyWhile (fun input => !startsMark close input) item
  mark close
  return items

/-- Reads one or more items up to a closing mark. -/
def someClosedBy {α : Type} (close : Char) (item : Rule α) : Rule (List α) := do
  let first ← item
  let others ← closedBy close item
  return first :: others

/-- Reads items between an opening and a closing mark; none without the opening mark. -/
def bracketed {α : Type} (opening close : Char) (item : Rule α) :
    Rule (List α) := do
  if startsMark opening (← Reader.peek) then
    mark opening
    someClosedBy close item
  else
    return []

/-- Reads one or more names with a mark between them, and the mark before the first if it is there. -/
def separatedNames (separator : Char) (item : Rule String) :
    Rule (List String) := do
  if startsMark separator (← Reader.peek) then
    mark separator
  let first ← item
  let others ←
    Reader.manyWhile (startsMark separator) (do mark separator; item)
  return first :: others

/-- Reads the non-null mark behind a type, if it is there. -/
def nonNullMark (inner : TypeRef) : Rule TypeRef := do
  if startsMark '!' (← Reader.peek) then
    mark '!'
    return .nonNull inner
  else
    return inner

/-- Reads a type inside at most a number of lists. -/
def typeRefWithin : Nat → Rule TypeRef
  | 0 => do
      nonNullMark (.named (← name))
  | depth + 1 => do
      if startsMark '[' (← Reader.peek) then
        mark '['
        let item ← typeRefWithin depth
        mark ']'
        nonNullMark (.list item)
      else
        nonNullMark (.named (← name))

/-- Reads a type. -/
def typeRef : Rule TypeRef :=
  typeRefWithin nestingLimit

end Rule

/-- Puts a field into a list sorted by name; an equal name is replaced. -/
def insertSorted (name : String) (value : Value) :
    List (String × Value) → List (String × Value)
  | [] => [(name, value)]
  | (other, old) :: rest =>
      if name < other then
        (name, value) :: (other, old) :: rest
      else if name = other then
        (name, value) :: rest
      else
        (other, old) :: insertSorted name value rest

/-- The fields of an object value, the last of equal names, sorted by name. -/
def sortedFields (fields : List (String × Value)) : List (String × Value) :=
  fields.foldl (fun sorted field => insertSorted field.1 field.2 sorted) []

namespace Rule

/-- Reads something with a name and a colon before it. -/
def labelled {α : Type} (rule : Rule α) : Rule (String × α) := do
  let label ← name
  mark ':'
  return (label, ← rule)

/-- Reads a value of one token. -/
def plainValue : Rule Value := do
  let input ← Reader.peek
  let value ←
    match nextToken input with
    | .name "true" => pure (Value.boolean true)
    | .name "false" => pure (Value.boolean false)
    | .name "null" => pure Value.null
    | .name text => pure (Value.enumeration text)
    | .number (.integer value) => pure (Value.integer value)
    | .number (.float value) => pure (Value.float value)
    | .string text => pure (Value.string text)
    | _ => unexpected
  Reader.moveTo (input.drop 1)
  return value

/-- Reads a value that holds others to at most a given depth. -/
def valueWithin (allowReferences : Bool) : Nat → Rule Value
  | 0 => plainValue
  | depth + 1 => do
      match nextToken (← Reader.peek) with
      | .punctuator '[' =>
          mark '['
          return .list (← closedBy ']' (valueWithin allowReferences depth))
      | .punctuator '\x7b' =>
          mark '\x7b'
          let fields ← closedBy '\x7d' (labelled (valueWithin allowReferences depth))
          return .object (sortedFields fields)
      | .punctuator '$' =>
          if allowReferences then
            mark '$'
            return .reference (← name)
          else
            unexpected
      | _ => plainValue

/-- Reads a value, in which variables may occur. -/
def value : Rule Value :=
  valueWithin true (nestingLimit + 1)

/-- Reads a value without variables. -/
def constant : Rule Value :=
  valueWithin false (nestingLimit + 1)

/-- Reads arguments in parentheses; none without parentheses. -/
def arguments : Rule Arguments :=
  bracketed '(' ')' (labelled value)

/-- Reads one directive. -/
def directive : Rule Directive := do
  mark '@'
  let name ← name
  return ⟨name, ← arguments⟩

/-- Reads directives, possibly none. -/
def directives : Rule (List Directive) :=
  Reader.manyWhile (startsMark '@') directive

/-- Reads a whole document of one or more definitions. -/
def document {α : Type} (definition : Rule α) (text : String) :
    Except Position (List α) :=
  let atEnd (input : List Lexeme) : Bool := nextToken input = .endOfText
  let rule : Rule (List α) := do
    let first ← definition
    let others ← Reader.manyWhile (fun input => !atEnd input) definition
    takeToken (· = .endOfText)
    return first :: others
  match rule (tokens text) with
  | .error position => .error position
  | .ok (definitions, _) => .ok definitions

end Rule

end GraphGate.GraphQL
