import GraphGate.Storage.Http.Call

namespace GraphGate

/-!
# Holding dialogues over a network

A dialogue with the database is held through a client and whoever answers its
requests. How many batches a query has is up to the servers: they are asked for
until one of them is the last. Telling the time is left to the network.
-/

/-- Whoever answers requests. -/
structure HttpNetwork (m : Type → Type) where
  answer : HttpRequest → m HttpOutcome
  /-- Gives up what takes longer than a number of milliseconds. -/
  within : {α : Type} → Nat → m α → m (Option α)

namespace HttpNetwork

variable {m : Type → Type} [Monad m] {α : Type}

/-- Asks for the next batch, and tells the cursor after it, or how the query ends. -/
def receiveBatch (network : HttpNetwork m) (client : HttpClient) (cursor : Cursor) :
    m (Cursor ⊕ Except TransportError (List Json)) := do
  match cursor.receive (← network.answer (client.nextBatch cursor)) with
  | .more cursor => return .inl cursor
  | .finished result => return .inr result

/-- Asks for batches until the last one, and gives all records. -/
def drain (network : HttpNetwork m) (client : HttpClient) (cursor : Cursor) :
    m (Except TransportError (List Json)) :=
  repeatM (network.receiveBatch client) cursor

/-- Waits for what is still to come of a call. -/
def settle (network : HttpNetwork m) (client : HttpClient) :
    CallProgress α → m α
  | .finished reply => pure reply
  | .draining cursor reply => do
      return reply (← network.drain client cursor)

/-- Makes a call to the database, however long it takes. -/
def finish (network : HttpNetwork m) (client : HttpClient) (command : Command) :
    m (command.Reply × HttpClient) := do
  let (progress, client) ← (client.perform command).runM network.answer
  return (← network.settle client progress, client)

/-- Makes a call to the database. A query may have a time limit. -/
def perform (network : HttpNetwork m) (command : Command) :
    StateT HttpClient m command.Reply :=
  fun client =>
    match command with
    | .query database aql (some limit) => do
        let query := Command.query database aql (some limit)
        match ← network.within limit (network.finish client query) with
        | some finished => return finished
        | none => return (.timedOut, client.advance)
    | command => network.finish client command

/-- Holds a dialogue with the database. -/
def converse (network : HttpNetwork m) (dialogue : DatabaseDialogue α) :
    StateT HttpClient m α :=
  dialogue.runM network.perform

end HttpNetwork

end GraphGate
