import GraphGate.Provisioning.Plan
import GraphGate.Storage.Command
import GraphGate.Storage.Http.Client

namespace GraphGate

/-!
# Calls over HTTP

How each call to the database is sent, and how it is answered. The records of a
query come in batches. As long as there are more, the server that gave the first
batch is asked for the next one by the id that came with the last.
-/

/-- The number of records in a batch. -/
def cursorBatchSize : Nat := 1000

/-- The start of all paths in a database. -/
def databasePath (database : String) : String :=
  "/_db/" ++ database ++ "/_api/"

/-- A query as it is sent. -/
def AqlQuery.toJson (query : AqlQuery) : Json :=
  .object [
    ("query", .string query.text),
    ("bindVars", .object query.binds),
    ("batchSize", .nat cursorBatchSize)]

/-- How a call to the database is sent. -/
def Command.httpCall : Command → HttpCall
  | .createDatabase name =>
      ⟨.post, databasePath systemDatabase ++ "database",
        some (.object [("name", .string name)])⟩
  | .collectionKind database name =>
      ⟨.get, databasePath database ++ "collection/" ++ name, none⟩
  | .createCollection database name kind =>
      ⟨.post, databasePath database ++ "collection",
        some (.object [("name", .string name), ("type", .nat kind.typeCode)])⟩
  | .ensureIndex database collection index =>
      ⟨.post, databasePath database ++ "index?collection=" ++ collection,
        some index.toJson⟩
  | .query database aql _ =>
      ⟨.post, databasePath database ++ "cursor", some aql.toJson⟩

/-- The kind in the description of a collection. -/
def CollectionKind.ofDescription (name : String) (body : Json) :
    Except TransportError CollectionKind :=
  let code := ((body.member? "type").bind Json.unsigned?).getD 0
  match CollectionKind.ofTypeCode? code with
  | some kind => .ok kind
  | none =>
      .error (.invalidResponse
        ("unknown collection type " ++ toString code ++ " for `" ++ name ++ "`"))

/-- A query whose server has more records. -/
structure Cursor where
  /-- The server that holds the records. -/
  endpoint : String
  database : String
  /-- What the next batch is asked for by. -/
  id : String
  /-- The records so far. -/
  records : List Json
deriving Repr

/-- How far a query has come. -/
inductive CursorProgress where
  | finished (result : Except TransportError (List Json))
  | more (cursor : Cursor)

namespace Cursor

/-- The call for the next batch. -/
def call (cursor : Cursor) : HttpCall :=
  ⟨.put, databasePath cursor.database ++ "cursor/" ++ cursor.id, none⟩

/-- What is wrong with a body that is no batch of records. -/
def notBatch : String := "the body is no batch of records"

/-- Where a query stands after a batch, with the records of earlier ones. -/
def afterBatch
    (endpoint database : String)
    (earlier : List Json)
    (batch : CursorBatch) : CursorProgress :=
  let records := earlier ++ batch.records
  if batch.hasMore then
    match batch.id with
    | some id => .more ⟨endpoint, database, id, records⟩
    | none =>
        .finished (.error
          (.invalidResponse "cursor has more results but no id"))
  else
    .finished (.ok records)

/-- Where a query stands after an answer, with the records of earlier ones. -/
def afterBody
    (endpoint database : String)
    (earlier : List Json)
    (body : Json) : CursorProgress :=
  match CursorBatch.ofJson? body with
  | some batch => afterBatch endpoint database earlier batch
  | none => .finished (.error (.invalidResponse notBatch))

/-- Where a query stands after the first answer. -/
def start (database : String) :
    Except TransportError (String × Json) → CursorProgress
  | .ok (endpoint, body) => afterBody endpoint database [] body
  | .error cause => .finished (.error cause)

/-- Where a query stands after the answer to a call for the next batch. -/
def receive (cursor : Cursor) (outcome : HttpOutcome) : CursorProgress :=
  match HttpClient.payload cursor.endpoint outcome with
  | .ok body =>
      afterBody cursor.endpoint cursor.database cursor.records body
  | .error cause => .finished (.error cause)

end Cursor

/-- How far a call has come. -/
inductive CallProgress (α : Type) where
  | finished (reply : α)
  /-- The records are still coming; the reply depends on all of them. -/
  | draining (cursor : Cursor) (reply : Except TransportError (List Json) → α)

/-- A call that depends on the records of a query. -/
def CallProgress.ofCursor {α : Type}
    (reply : Except TransportError (List Json) → α) :
    CursorProgress → CallProgress α
  | .finished result => .finished (reply result)
  | .more cursor => .draining cursor reply

/-- What an answer means for a call. -/
def Command.progress (command : Command)
    (result : Except TransportError (String × Json)) :
    CallProgress command.Reply :=
  match command with
  | .createDatabase _ => .finished (result.map fun _ => ())
  | .collectionKind _ name =>
      .finished <|
        match result with
        | .ok (_, body) => (CollectionKind.ofDescription name body).map some
        | .error cause =>
            if cause.isNotFound then .ok none else .error cause
  | .createCollection _ _ _ => .finished (result.map fun _ => ())
  | .ensureIndex _ _ _ => .finished (result.map fun _ => ())
  | .query database _ _ => .ofCursor .finished (Cursor.start database result)

namespace HttpClient

/-- Sends a call to the database, up to the first answer. -/
def perform (client : HttpClient) (command : Command) :
    HttpDialogue (CallProgress command.Reply × HttpClient) := do
  let (result, client) ← client.send command.httpCall
  return (command.progress result, client)

/-- The request for the next batch of a cursor. -/
def nextBatch (client : HttpClient) (cursor : Cursor) : HttpRequest :=
  client.request cursor.endpoint cursor.call

end HttpClient

end GraphGate
