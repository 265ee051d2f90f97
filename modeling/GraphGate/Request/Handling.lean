import GraphGate.Fetching
import GraphGate.GraphQL.QueryGrammar
import GraphGate.Json.Printer
import GraphGate.Request.Expansion

namespace GraphGate

/-!
# Answering requests

A request names a query document, an operation in it and values for variables.
Every top-level field is prepared before the first query runs, so a request that
cannot be answered runs none. The fields are then answered in order, and a null
that moves up beyond a field makes the whole answer null.
-/

/-- A query document, the operation to run and the values of its variables. -/
structure GraphQLRequest where
  query : String
  operationName : Option String
  bindings : Table Json
deriving Repr

namespace GraphQLRequest

/-- An operation name: a text, or null for none. -/
def operationName? : Json → Option (Option String)
  | .null => some none
  | .string name => some (some name)
  | _ => none

/-- Values of variables: an object. -/
def bindings? : Json → Option (Table Json)
  | .object members => some members
  | _ => none

/--
A request in JSON: an object with its parts by name, or an array with its parts
in order. All parts but the query may be left out.
-/
def ofJson? (json : Json) : Option GraphQLRequest := do
  let (query, name, bindings) ←
    match json with
    | .object members =>
        pure (Table.get? members "query",
          (Table.get? members "operationName").getD .null,
          (Table.get? members "variables").getD (.object []))
    | .array [query] => pure (some query, .null, .object [])
    | .array [query, name] => pure (some query, name, .object [])
    | .array [query, name, bindings] => pure (some query, name, bindings)
    | _ => failure
  return {
    query := ← query.bind Json.string?
    operationName := ← operationName? name
    bindings := ← bindings? bindings
  }

/-- The operation to run: the one of a given name, or the only one. -/
def selectOperation (operations : List GraphQL.Operation) :
    Option String → Except RequestError GraphQL.Operation
  | some name =>
      match operations.find? (·.name = some name) with
      | some operation => .ok operation
      | none => .error (.unknownOperation name)
  | none =>
      match operations with
      | [operation] => .ok operation
      | [] => .error .noOperation
      | _ => .error .ambiguousOperation

/-- The top-level selections of a request. -/
def selections (request : GraphQLRequest) :
    Except RequestError (List FieldSelection) :=
  match GraphQL.QueryDocument.parse request.query with
  | .error position => .error (.parse position)
  | .ok document => do
      let operation ←
        selectOperation document.operations request.operationName
      match operation.kind with
      | .query =>
          Expansion.selectionsOf document operation request.bindings
      | kind => throw (.unsupportedOperation kind)

end GraphQLRequest

/-- A failure as a response reports it. -/
inductive ResponseError where
  | request (cause : RequestError)
  | unsupported (cause : UnsupportedSelection)
  | field (failure : FieldError)
deriving Repr

namespace ResponseError

/-- The failure in words. -/
def message : ResponseError → String
  | .request cause => cause.message
  | .unsupported cause => cause.message
  | .field failure => failure.message

/-- The place of the failure, none for one of the whole request. -/
def path? : ResponseError → Option FieldPath
  | .field failure => some failure.path
  | _ => none

/-- The failure as JSON. -/
def toJson (failure : ResponseError) : Json :=
  .object <|
    ("message", .string failure.message) ::
      failure.path?.toList.map fun path => ("path", path.toJson)

end ResponseError

/-- The answer to a request. -/
structure GraphQLResponse where
  /-- The answers to the top-level fields; none if the whole answer is null. -/
  data : Option (List (String × ResultNode))
  errors : List ResponseError

namespace GraphQLResponse

/-- The answer to a request that runs no query. -/
def refusal (cause : ResponseError) : GraphQLResponse :=
  ⟨none, [cause]⟩

/-- The answer before any field is answered. -/
def empty : GraphQLResponse :=
  ⟨some [], []⟩

/-- Takes in the answer to one field. -/
def add
    (response : GraphQLResponse)
    (key : String)
    (result : FetchResult) : GraphQLResponse where
  data :=
    match response.data, result.data with
    | some data, some node => some (Table.put key node data)
    | _, _ => none
  errors := response.errors ++ result.errors.map .field

/-- The answer as JSON. -/
def toJson (response : GraphQLResponse) : Json :=
  let data :=
    match response.data with
    | some fields => .object (ResultNode.fieldsToJson fields)
    | none => .null
  let errors :=
    if response.errors.isEmpty then
      []
    else
      [("errors", Json.array (response.errors.map ResponseError.toJson))]
  .object (("data", data) :: errors)

end GraphQLResponse

namespace DataFetcher

/-- Makes all top-level fields ready to be answered, with their response keys. -/
def prepareAll
    (fetcher : DataFetcher)
    (selections : List FieldSelection) :
    Except UnsupportedSelection (List (String × PreparedField)) :=
  selections.mapM fun selection => do
    let prepared ← fetcher.prepare selection .root
    return (selection.responseKey, prepared)

/-- Answers prepared fields one after another. -/
def answerAll
    (fetcher : DataFetcher)
    (response : GraphQLResponse) :
    List (String × PreparedField) → DatabaseDialogue GraphQLResponse
  | [] => return response
  | (key, prepared) :: rest => do
      let result ← fetcher.executePrepared prepared (FieldPath.root.key key)
      fetcher.answerAll (response.add key result) rest

/-- Answers a request. -/
def handle (fetcher : DataFetcher) (request : GraphQLRequest) :
    DatabaseDialogue GraphQLResponse :=
  match request.selections with
  | .error cause => return .refusal (.request cause)
  | .ok selections =>
      match fetcher.prepareAll selections with
      | .error cause => return .refusal (.unsupported cause)
      | .ok prepared => fetcher.answerAll .empty prepared

end DataFetcher

end GraphGate
