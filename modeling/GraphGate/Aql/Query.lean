import GraphGate.Json.Basic
import GraphGate.Table

namespace GraphGate

/-!
# Database queries

A query is a text with placeholders and the values bound to them. A placeholder
for a collection is written with a second `@`, and its binding has one.
-/

/-- A query text with its bind variables, in the order they were first bound. -/
structure AqlQuery where
  text : String
  binds : Table Json
deriving Repr

namespace AqlQuery

/-- A query without bind variables. -/
def ofText (text : String) : AqlQuery :=
  ⟨text, []⟩

/-- Binds a value; binding a name again replaces the value in its place. -/
def bind (query : AqlQuery) (name : String) (value : Json) : AqlQuery :=
  { query with binds := Table.put name value query.binds }

/-- The name under which a collection is bound. -/
def collectionParameter (name : String) : String :=
  "@" ++ name

/-- Binds the name of a collection. -/
def bindCollection (query : AqlQuery) (name collection : String) : AqlQuery :=
  query.bind (collectionParameter name) (.string collection)

end AqlQuery

end GraphGate
