namespace GraphGate

/-!
# Result types

The declared type of a field: a name inside lists and non-null marks, such as
`[Animal!]!`.
-/

/-- A declared result type. -/
inductive TypeRef where
  | named (name : String)
  | list (item : TypeRef)
  | nonNull (inner : TypeRef)
deriving Repr, DecidableEq, Inhabited

namespace TypeRef

/-- The innermost type name. -/
def namedType : TypeRef → String
  | .named name => name
  | .list item => item.namedType
  | .nonNull inner => inner.namedType

/-- Whether null is excluded. -/
def isNonNull : TypeRef → Bool
  | .nonNull _ => true
  | _ => false

/-- The type without its outer non-null mark. -/
def nullable : TypeRef → TypeRef
  | .nonNull inner => inner
  | other => other

/-- Whether values are lists, be they null or not. -/
def isList (type : TypeRef) : Bool :=
  match type.nullable with
  | .list _ => true
  | _ => false

/-- The type as it is written in a schema. -/
def render : TypeRef → String
  | .named name => name
  | .list item => "[" ++ item.render ++ "]"
  | .nonNull inner => inner.render ++ "!"

end TypeRef

end GraphGate
