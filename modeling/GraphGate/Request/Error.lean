import GraphGate.GraphQL.Document
import GraphGate.Schema.Error

namespace GraphGate

/-!
# Failures of a whole request

What stops a request before any field is answered.
-/

/-- Why a request as a whole has no answer. -/
inductive RequestError where
  | parse (position : GraphQL.Position)
  | noOperation
  | unsupportedOperation (kind : GraphQL.OperationKind)
  | unknownOperation (name : String)
  | ambiguousOperation
  | unknownFragment (name : String)
  | fragmentCycle (name : String)
deriving Repr, DecidableEq

/-- The kind of an operation in words. -/
def GraphQL.OperationKind.render : GraphQL.OperationKind → String
  | .query => "query"
  | .mutation => "mutation"
  | .subscription => "subscription"

/-- The cause in words. -/
def RequestError.message : RequestError → String
  | .parse position =>
      "Error parsing GraphQL query: query parse error: " ++
        parseErrorAt position
  | .noOperation =>
      "Error parsing GraphQL query: the document contains no operation"
  | .unsupportedOperation kind =>
      "Only query operations are supported, got a " ++ kind.render ++ "."
  | .unknownOperation name =>
      "Unknown operation named \"" ++ name ++ "\"."
  | .ambiguousOperation =>
      "Must provide operation name if query contains multiple operations."
  | .unknownFragment name => "Unknown fragment \"" ++ name ++ "\"."
  | .fragmentCycle name => "Fragment \"" ++ name ++ "\" spreads itself."

end GraphGate
