import GraphGate.Json.Basic

namespace GraphGate

/-!
# Result trees

The shaped answer to a field: nulls, scalars, lists and objects that know their
concrete type.
-/

/-- A value in a shaped answer. -/
inductive ResultNode where
  | null
  | scalar (value : Json)
  | object (typeName : String) (fields : List (String × ResultNode))
  | list (items : List ResultNode)
deriving Repr, Inhabited

namespace ResultNode

/-- Whether the node is null. -/
def isNull : ResultNode → Bool
  | .null => true
  | _ => false

mutual

/-- The JSON of a node. -/
def toJson : ResultNode → Json
  | .null => .null
  | .scalar value => value
  | .object _ fields => .object (fieldsToJson fields)
  | .list items => .array (itemsToJson items)

/-- The JSON of list items. -/
def itemsToJson : List ResultNode → List Json
  | [] => []
  | item :: rest => item.toJson :: itemsToJson rest

/-- The JSON of the fields of an object. -/
def fieldsToJson : List (String × ResultNode) → List (String × Json)
  | [] => []
  | (key, node) :: rest => (key, node.toJson) :: fieldsToJson rest

end

end ResultNode

end GraphGate
