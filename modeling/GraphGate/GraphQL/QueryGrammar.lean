import GraphGate.GraphQL.Grammar

namespace GraphGate.GraphQL

/-!
# The grammar of query documents

A query document holds operations and fragments. A selection set without a
keyword before it is a query without a name.
-/

namespace Rule

/-- Reads a selection whose selection sets are nested to at most a given depth. -/
def selectionWithin : Nat → Rule Selection
  | 0 => unexpected
  | depth + 1 => do
      let nested : Rule (List Selection) := do
        mark '\x7b'
        someClosedBy '\x7d' (selectionWithin depth)
      if nextToken (← Reader.peek) = .spread then
        takeToken (· = .spread)
        match nextToken (← Reader.peek) with
        | .name "on" =>
            word "on"
            let condition ← name
            let directives ← directives
            return .inlineFragment (some condition) directives (← nested)
        | .name fragment =>
            word fragment
            return .spread fragment (← directives)
        | _ =>
            let directives ← directives
            return .inlineFragment none directives (← nested)
      else
        let first ← name
        let second ←
          optional (startsMark ':') (do mark ':'; name)
        let arguments ← arguments
        let directives ← directives
        let selections ← optional (startsMark '\x7b') nested
        return .field
          (second.map fun _ => first)
          (second.getD first)
          arguments
          directives
          (selections.getD [])

/-- Reads a selection set. -/
def selectionSet : Rule (List Selection) := do
  mark '\x7b'
  someClosedBy '\x7d' (selectionWithin nestingLimit)

/-- Reads the definition of a variable. -/
def variableDefinition : Rule VariableDefinition := do
  mark '$'
  let (name, type) ← labelled typeRef
  let defaultValue ←
    optional (startsMark '=') (do mark '='; constant)
  return ⟨name, type, defaultValue⟩

/-- Reads an operation behind its keyword. -/
def operation (kind : OperationKind) : Rule Operation := do
  let isName (input : List Lexeme) : Bool :=
    match nextToken input with
    | .name _ => true
    | _ => false
  let name ← optional isName name
  let declared ← bracketed '(' ')' variableDefinition
  let directives ← directives
  return ⟨kind, name, declared, directives, ← selectionSet⟩

/-- Reads a fragment behind its keyword. -/
def fragment : Rule FragmentDefinition := do
  let name ← name
  word "on"
  let condition ← Rule.name
  let directives ← directives
  return ⟨name, condition, directives, ← selectionSet⟩

/-- Reads an operation or a fragment. -/
def queryDefinition : Rule (Operation ⊕ FragmentDefinition) := do
  match nextToken (← Reader.peek) with
  | .punctuator '\x7b' =>
      return .inl ⟨.query, none, [], [], ← selectionSet⟩
  | .name "query" =>
      word "query"
      return .inl (← operation .query)
  | .name "mutation" =>
      word "mutation"
      return .inl (← operation .mutation)
  | .name "subscription" =>
      word "subscription"
      return .inl (← operation .subscription)
  | .name "fragment" =>
      word "fragment"
      return .inr (← fragment)
  | _ => unexpected

end Rule

/-- The query document of a text, or the position of its first error. -/
def QueryDocument.parse (text : String) : Except Position QueryDocument := do
  let definitions ← Rule.document Rule.queryDefinition text
  return {
    operations := definitions.filterMap Sum.getLeft?
    fragments := definitions.filterMap Sum.getRight?
  }

end GraphGate.GraphQL
