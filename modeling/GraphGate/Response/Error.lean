import GraphGate.Compilation.Unsupported
import GraphGate.Response.Path
import GraphGate.Schema.Discriminator
import GraphGate.Storage.Error

namespace GraphGate

/-!
# Failures of a field

What can go wrong while a field is answered: its query fails, a record does not
tell its type, or a value is not what the schema promises. Each failure is
reported with the place in the response where it arose.
-/

/-- Why a query gave no records. -/
inductive ExecutionCause where
  | transport (cause : TransportError)
  | timeout (milliseconds : Nat)
  | unboundStartVertex
deriving Repr, DecidableEq

/-- The cause in words. -/
def ExecutionCause.render : ExecutionCause → String
  | .transport cause => cause.message
  | .timeout milliseconds =>
      "timed out after " ++ toString milliseconds ++ " ms"
  | .unboundStartVertex =>
      "the query traverses from a start vertex, but none was given"

/-- The query of a field gave no records. -/
structure ExecutionError where
  path : FieldPath
  cause : ExecutionCause
deriving Repr, DecidableEq

/-- The failure in words. -/
def ExecutionError.message (failure : ExecutionError) : String :=
  "Query for field `" ++ failure.path.render ++ "` failed: " ++
    failure.cause.render

/-- What a value should have been. -/
inductive ExpectedShape where
  | list
  | object
deriving Repr, DecidableEq

/-- The shape in words. -/
def ExpectedShape.render : ExpectedShape → String
  | .list => "a list"
  | .object => "an object"

/-- Why a field has no value. -/
inductive FetchError where
  | unresolvedType (cause : UnresolvedType)
  | unsupportedSelection (cause : UnsupportedSelection)
  | execution (cause : ExecutionError)
  | nullValue (field : String)
  | invalidValue (field : String) (expected : ExpectedShape) (found : Json)
deriving Repr

/-- The cause in words. -/
def FetchError.message : FetchError → String
  | .unresolvedType cause => cause.message
  | .unsupportedSelection cause => cause.message
  | .execution cause => cause.message
  | .nullValue field =>
      "Inconsistent query result: Field " ++ field ++
        " is required to return data, got `null` instead."
  | .invalidValue field expected found =>
      "Inconsistent query result: Field " ++ field ++ " expected " ++
        expected.render ++ ", got `" ++ found.render ++ "`."

/-- A failure with the place where it arose. -/
structure FieldError where
  cause : FetchError
  path : FieldPath
deriving Repr

/-- The failure in words. -/
def FieldError.message (failure : FieldError) : String :=
  failure.cause.message

end GraphGate
