import GraphGate.Json.Printer

namespace GraphGate

/-!
# Unsupported selections

Why a selection cannot be answered. Each cause is a defect of the schema or of
the request, found before any query runs.
-/

/-- Why a field cannot be selected. -/
inductive UnsupportedReason where
  | noQueryType
  | unknownParentType
  | noSuchField
  | noFieldsToSelect (type : String)
  | selectionRequired (type : String)
  | invalidCount (argument : String) (value : Json)
  | relationWithoutDocument
  | relationOfEmbedded
  | notFetchable
  | undiscriminated (type : String)
  | notStored (type : String)
  | storedWithoutEdge (type : String)
  | noGenerator (tried : List String)
  | neverApplies (condition : String) (type : String)
  | declaredDifferently (first : String) (second : String)
  | typenameWithoutQuery
deriving Repr

/-- The cause in words. -/
def UnsupportedReason.render : UnsupportedReason → String
  | .noQueryType => "the schema declares no query type"
  | .unknownParentType => "unknown parent type"
  | .noSuchField => "the type has no such field"
  | .noFieldsToSelect type => "\"" ++ type ++ "\" has no fields to select"
  | .selectionRequired type =>
      "a selection of the fields of \"" ++ type ++ "\" is required"
  | .invalidCount argument value =>
      "argument `" ++ argument ++
        "` must be a non-negative integer, got `" ++ value.render ++ "`"
  | .relationWithoutDocument =>
      "the field is a relation, but there is no document to traverse from"
  | .relationOfEmbedded => "relations of embedded objects cannot be traversed"
  | .notFetchable =>
      "only fields returning stored documents can be fetched here"
  | .undiscriminated type =>
      "the abstract type \"" ++ type ++ "\" declares no @discriminator"
  | .notStored type =>
      "the type \"" ++ type ++ "\" is not stored in a collection"
  | .storedWithoutEdge type =>
      "the field returns the stored type \"" ++ type ++
        "\", but has no @edge directive"
  | .noGenerator tried =>
      "no query generator applies (tried " ++ ", ".intercalate tried ++ ")"
  | .neverApplies condition type =>
      "the type condition \"" ++ condition ++ "\" can never apply to \"" ++
        type ++ "\""
  | .declaredDifferently first second =>
      "the field is declared differently on \"" ++ first ++ "\" and \"" ++
        second ++ "\""
  | .typenameWithoutQuery => "`__typename` is answered without a query"

/-- A field that cannot be selected on a type. -/
structure UnsupportedSelection where
  parentType : String
  field : String
  reason : UnsupportedReason
deriving Repr

/-- The failure in words. -/
def UnsupportedSelection.message (failure : UnsupportedSelection) : String :=
  "Cannot select field \"" ++ failure.field ++ "\" on type \"" ++
    failure.parentType ++ "\": " ++ failure.reason.render

end GraphGate
