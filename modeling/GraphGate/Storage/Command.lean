import GraphGate.Aql.Query
import GraphGate.Storage.Collection
import GraphGate.Storage.Dialogue
import GraphGate.Storage.Error

namespace GraphGate

/-!
# Calls to the database

All that is ever asked of a database: to create databases, collections and
indexes, to tell the kind of a collection, and to answer queries. How hosts are
chosen and connections kept is the business of whoever answers.
-/

/-- A call to the database. -/
inductive Command where
  /-- Creates a database; fails with a duplicate name if it exists. -/
  | createDatabase (name : String)
  /-- Tells the kind of a collection, none if there is no such collection. -/
  | collectionKind (database : String) (name : String)
  /-- Creates a collection; fails with a duplicate name if it exists. -/
  | createCollection (database : String) (name : String) (kind : CollectionKind)
  /-- Creates an index, unless an identical one exists. -/
  | ensureIndex (database : String) (collection : String) (index : IndexSpec)
  /-- Answers a query, if need be within a number of milliseconds. -/
  | query (database : String) (query : AqlQuery) (timeout : Option Nat)
deriving Repr

/-- How a query ended. -/
inductive QueryOutcome where
  | finished (result : Except TransportError (List Json))
  | timedOut

/-- What a call is answered with. -/
def Command.Reply : Command → Type
  | .createDatabase _ => Except TransportError Unit
  | .collectionKind _ _ => Except TransportError (Option CollectionKind)
  | .createCollection _ _ _ => Except TransportError Unit
  | .ensureIndex _ _ _ => Except TransportError Unit
  | .query _ _ _ => QueryOutcome

/-- Calls to the database one after another. -/
abbrev DatabaseDialogue := Dialogue Command Command.Reply

namespace DatabaseDialogue

/-- Creates a database. -/
def createDatabase (name : String) :
    DatabaseDialogue (Except TransportError Unit) :=
  Dialogue.once (Command.createDatabase name)

/-- Tells the kind of a collection. -/
def collectionKind (database name : String) :
    DatabaseDialogue (Except TransportError (Option CollectionKind)) :=
  Dialogue.once (Command.collectionKind database name)

/-- Creates a collection. -/
def createCollection (database name : String) (kind : CollectionKind) :
    DatabaseDialogue (Except TransportError Unit) :=
  Dialogue.once (Command.createCollection database name kind)

/-- Creates an index. -/
def ensureIndex (database collection : String) (index : IndexSpec) :
    DatabaseDialogue (Except TransportError Unit) :=
  Dialogue.once (Command.ensureIndex database collection index)

/-- Answers a query. -/
def query (database : String) (query : AqlQuery) (timeout : Option Nat) :
    DatabaseDialogue QueryOutcome :=
  Dialogue.once (Command.query database query timeout)

end DatabaseDialogue

/-- The database that every deployment has, and the default one. -/
def systemDatabase : String := "_system"

end GraphGate
