import GraphGate.Storage.Command

namespace GraphGate

/-!
# A database in memory

Databases, collections and indexes are kept as data, and a call changes them or
fails as it would with a real server. Queries are not evaluated: a script says
what they are answered with and how long that takes. Every call is recorded, and
faults can be injected, which strike after a call has had its effect.
-/

/-- A collection in a database. -/
structure StoredCollection where
  database : String
  name : String
  kind : CollectionKind
  indexes : List IndexSpec
deriving Repr, DecidableEq

/-- A call as it is recorded. -/
inductive RecordedCall where
  | createDatabase (name : String)
  | collectionKind (name : String)
  | createCollection (name : String) (kind : CollectionKind)
  | ensureIndex (collection : String) (index : IndexSpec)
  | query (text : String)
deriving Repr, DecidableEq

/-- The databases and collections there are, and all that was called. -/
structure MemoryStore where
  databases : List String
  collections : List StoredCollection
  /-- Names of collections that nobody may create. -/
  forbidden : List String
  calls : List RecordedCall
  queries : List AqlQuery
deriving Repr

/-- What a query is answered with, and after how many milliseconds. -/
structure QueryReply where
  result : Except TransportError (List Json)
  delay : Option Nat

/-- The answer to the queries whose text starts with an opening. -/
structure ScriptedReply where
  opening : String
  reply : QueryReply

/-- A call that ends in an error although it has had its effect. -/
structure InjectedFault where
  /-- Whether the fault strikes a call. -/
  strikes : RecordedCall → Bool
  error : TransportError

/-- What is prepared for the calls of a run. -/
structure MemoryScript where
  replies : List ScriptedReply
  faults : List InjectedFault

namespace MemoryStore

/-- The store of a fresh deployment. -/
def fresh : MemoryStore where
  databases := [systemDatabase]
  collections := []
  forbidden := []
  calls := []
  queries := []

/-- Adds a database that may be there already. -/
def withDatabase (store : MemoryStore) (name : String) : MemoryStore :=
  if name ∈ store.databases then
    store
  else
    { store with databases := store.databases ++ [name] }

/-- Whether a collection is a given one. -/
def isAt (database name : String) (collection : StoredCollection) : Bool :=
  collection.database = database && collection.name = name

/-- The collection of a name in a database. -/
def collection? (store : MemoryStore) (database name : String) :
    Option StoredCollection :=
  store.collections.find? (isAt database name)

/-- Adds a collection, or gives the one that is there another kind. -/
def withCollection
    (store : MemoryStore)
    (database name : String)
    (kind : CollectionKind) : MemoryStore :=
  let store := store.withDatabase database
  match store.collection? database name with
  | none =>
      { store with
        collections := store.collections ++ [⟨database, name, kind, []⟩] }
  | some _ =>
      { store with
        collections := store.collections.map fun collection =>
          if isAt database name collection then
            { collection with kind := kind }
          else
            collection }

/-- Every database with its collections, both in the order of their names. -/
def contents (store : MemoryStore) : List (String × List StoredCollection) :=
  let inOrder (first second : String) : Bool := !(second < first)
  (store.databases.mergeSort inOrder).map fun database =>
    let collections := store.collections.filter (·.database = database)
    (database,
      collections.mergeSort fun first second => inOrder first.name second.name)

/-- Forbids to create collections of a name. -/
def withForbidden (store : MemoryStore) (name : String) : MemoryStore :=
  { store with forbidden := store.forbidden ++ [name] }

/-- Records a call. -/
def record (store : MemoryStore) (call : RecordedCall) : MemoryStore :=
  { store with calls := store.calls ++ [call] }

/-- Creates a database that does not exist. -/
def createDatabase (store : MemoryStore) (name : String) :
    Except TransportError MemoryStore :=
  if name ∈ store.databases then
    .error (.duplicateName name)
  else
    .ok { store with databases := store.databases ++ [name] }

/-- The kind of a collection in a database that exists. -/
def collectionKind (store : MemoryStore) (database name : String) :
    Except TransportError (Option CollectionKind) :=
  if database ∈ store.databases then
    .ok ((store.collection? database name).map StoredCollection.kind)
  else
    .error (.databaseNotFound database)

/-- Creates a collection that does not exist and is not forbidden. -/
def createCollection
    (store : MemoryStore)
    (database name : String)
    (kind : CollectionKind) : Except TransportError MemoryStore :=
  if database ∉ store.databases then
    .error (.databaseNotFound database)
  else if name ∈ store.forbidden then
    .error .forbidden
  else if (store.collection? database name).isSome then
    .error (.duplicateName name)
  else
    .ok { store with
      collections := store.collections ++ [⟨database, name, kind, []⟩] }

/-- Creates an index, unless the collection has an identical one. -/
def ensureIndex
    (store : MemoryStore)
    (database name : String)
    (index : IndexSpec) : Except TransportError MemoryStore :=
  if database ∉ store.databases then
    .error (.databaseNotFound database)
  else if (store.collection? database name).isNone then
    .error (.collectionNotFound name)
  else
    .ok { store with
      collections := store.collections.map fun collection =>
        if isAt database name collection && !collection.indexes.contains index then
          { collection with indexes := collection.indexes ++ [index] }
        else
          collection }

/-- A call that creates something: a failure leaves the store as it is. -/
def attempt
    (store : MemoryStore)
    (change : MemoryStore → Except TransportError MemoryStore) :
    Except TransportError Unit × MemoryStore :=
  match change store with
  | .ok changed => (.ok (), changed)
  | .error cause => (.error cause, store)

end MemoryStore

namespace MemoryScript

/-- The script without replies and faults. -/
def empty : MemoryScript :=
  ⟨[], []⟩

/-- The answer to a query: that of the first opening, no records without one. -/
def replyTo (script : MemoryScript) (text : String) : QueryReply :=
  match script.replies.find? fun scripted =>
      scripted.opening.toList.isPrefixOf text.toList with
  | some scripted => scripted.reply
  | none => ⟨.ok [], none⟩

/-- What a query ends in under a time limit. -/
def outcome (timeout : Option Nat) (reply : QueryReply) : QueryOutcome :=
  match timeout, reply.delay with
  | some limit, some delay =>
      if limit < delay then .timedOut else .finished reply.result
  | _, _ => .finished reply.result

/-- Lets the first fault that strikes a call turn its success into an error. -/
def disturb
    {α : Type}
    (script : MemoryScript)
    (call : RecordedCall)
    (result : Except TransportError α) : Except TransportError α :=
  match result with
  | .error cause => .error cause
  | .ok value =>
      match script.faults.find? fun fault => fault.strikes call with
      | some fault => .error fault.error
      | none => .ok value

/-- Answers a call from a store and changes the store. -/
def answer
    (script : MemoryScript)
    (store : MemoryStore)
    (command : Command) : command.Reply × MemoryStore :=
  match command with
  | .createDatabase name =>
      let call := RecordedCall.createDatabase name
      let (result, store) :=
        (store.record call).attempt fun store => store.createDatabase name
      (script.disturb call result, store)
  | .collectionKind database name =>
      let call := RecordedCall.collectionKind name
      let store := store.record call
      (script.disturb call (store.collectionKind database name), store)
  | .createCollection database name kind =>
      let call := RecordedCall.createCollection name kind
      let (result, store) :=
        (store.record call).attempt fun store =>
          store.createCollection database name kind
      (script.disturb call result, store)
  | .ensureIndex database collection index =>
      let call := RecordedCall.ensureIndex collection index
      let (result, store) :=
        (store.record call).attempt fun store =>
          store.ensureIndex database collection index
      (script.disturb call result, store)
  | .query database query timeout =>
      let recorded := store.record (.query query.text)
      let store := { recorded with queries := recorded.queries ++ [query] }
      if database ∈ store.databases then
        (outcome timeout (script.replyTo query.text), store)
      else
        (.finished (.error (.databaseNotFound database)), store)

end MemoryScript

end GraphGate
