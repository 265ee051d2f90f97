namespace GraphGate

/-!
# Collections and indexes

What the database keeps: collections of documents, collections of edges, and
the indexes on them.
-/

/-- What a collection holds. -/
inductive CollectionKind where
  | document
  | edge
deriving Repr, DecidableEq, Inhabited

namespace CollectionKind

/-- The number the database has for a kind. -/
def typeCode : CollectionKind → Nat
  | .document => 2
  | .edge => 3

/-- The kind the database has a number for. -/
def ofTypeCode? : Nat → Option CollectionKind
  | 2 => some .document
  | 3 => some .edge
  | _ => none

/-- The kind in words. -/
def render : CollectionKind → String
  | .document => "document"
  | .edge => "edge"

end CollectionKind

/-- How an index finds documents. -/
inductive IndexKind where
  | persistent
  | fulltext
  | geo
deriving Repr, DecidableEq, Inhabited

/-- The index kind in words. -/
def IndexKind.render : IndexKind → String
  | .persistent => "persistent"
  | .fulltext => "fulltext"
  | .geo => "geo"

/-- An index on the documents of one collection. -/
structure IndexSpec where
  kind : IndexKind
  fields : List String
  unique : Bool
  sparse : Bool
deriving Repr, DecidableEq

/-- A persistent index that is neither unique nor sparse. -/
def IndexSpec.persistent (fields : List String) : IndexSpec where
  kind := .persistent
  fields := fields
  unique := false
  sparse := false

end GraphGate
