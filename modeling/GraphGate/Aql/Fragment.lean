import GraphGate.Json.Basic
import GraphGate.Schema.Declaration

namespace GraphGate

/-!
# Query fragments

A selection compiles to a tree of fragments, and a tree to one query. A
documents fragment loops over a collection or over the neighbours of a document;
its projection says, for each response key, which property or which inner
documents to return.

Loop variables are named after the response keys that lead to a field. Keys are
joined by an underscore, and any other character than a letter or digit inside a
key becomes `_0`, so that the name of a path never reads as that of another.
-/

/-- Where a traversal starts. -/
inductive TraversalStart where
  /-- At the document that a loop variable is bound to. -/
  | loop (name : String)
  /-- At the document whose id is bound when the query runs. -/
  | parameter
deriving Repr, DecidableEq

/-- Where documents come from. -/
inductive DocumentSource where
  | collection (name : String)
  | traversal
      (start : TraversalStart)
      (direction : Direction)
      (edges : String)
deriving Repr, DecidableEq

/-- A property has to equal a value. -/
structure Filter where
  property : String
  value : Json
deriving Repr

/-- Which part of the documents is wanted. -/
structure Pagination where
  offset : Option Nat
  limit : Option Nat
deriving Repr, DecidableEq, Inhabited

/-- Whether one document is wanted or all. -/
inductive Cardinality where
  | one
  | many
deriving Repr, DecidableEq, Inhabited

mutual

/-- What a response key stands for. -/
inductive QueryFragment where
  /-- A property of the enclosing document, given by its loop variable. -/
  | property (loop : String) (name : String)
  /-- Documents of their own. -/
  | documents (fragment : DocumentsFragment)
deriving Repr

/-- Documents that a loop variable is bound to one after another. -/
structure DocumentsFragment where
  /-- The loop variable. -/
  loop : String
  source : DocumentSource
  filters : List Filter
  pagination : Pagination
  /-- The property that names the concrete type of a document. -/
  discriminator : Option String
  /-- What is returned, by response key. -/
  projection : List (String × QueryFragment)
  cardinality : Cardinality
deriving Repr

end

/-- Whether the query expects the id of a start document. -/
def DocumentsFragment.traversesFromStart (fragment : DocumentsFragment) : Bool :=
  match fragment.source with
  | .traversal .parameter _ _ => true
  | _ => false

/-- One character of a key inside a variable name. -/
def escapeNameChar (c : Char) : List Char :=
  if c.isAlphanum then [c] else ['_', '0']

/-- A key inside a variable name. -/
def escapeName (name : String) : String :=
  String.ofList (name.toList.flatMap escapeNameChar)

/-- The loop variable of the field at a path of response keys. -/
def variableName (keys : List String) : String :=
  "v_" ++ "_".intercalate (keys.map escapeName)

end GraphGate
