import GraphGate.Json.Basic

namespace GraphGate

/-!
# Response paths

The place of a value in a response: response keys and list positions from the
top, such as `animals.0.name`.
-/

/-- A step down into a response. -/
inductive PathSegment where
  | key (key : String)
  | index (index : Nat)
deriving Repr, DecidableEq

/-- The place of a value in a response. -/
structure FieldPath where
  segments : List PathSegment
deriving Repr, DecidableEq, Inhabited

namespace FieldPath

/-- The place of the whole response. -/
def root : FieldPath :=
  ⟨[]⟩

/-- The place of a member. -/
def key (path : FieldPath) (key : String) : FieldPath :=
  ⟨path.segments ++ [.key key]⟩

/-- The place of a list item. -/
def index (path : FieldPath) (index : Nat) : FieldPath :=
  ⟨path.segments ++ [.index index]⟩

/-- The response key of a segment, none for a list position. -/
def segmentKey? : PathSegment → Option String
  | .key key => some key
  | .index _ => none

/-- The last response key, list positions left aside. -/
def lastKey? (path : FieldPath) : Option String :=
  path.segments.reverse.findSome? segmentKey?

/-- A segment as it is written in messages. -/
def segmentText : PathSegment → String
  | .key key => key
  | .index index => toString index

/-- The path as it is written in messages. -/
def render (path : FieldPath) : String :=
  ".".intercalate (path.segments.map segmentText)

/-- A segment as JSON. -/
def segmentJson : PathSegment → Json
  | .key key => .string key
  | .index index => .nat index

/-- The path as JSON. -/
def toJson (path : FieldPath) : Json :=
  .array (path.segments.map segmentJson)

end FieldPath

end GraphGate
