import GraphGate.Json.Basic

namespace GraphGate

/-!
# Bodies of answers

Records with named members, read from an object or from an array that has the
members in order. A member with a default may be left out of an object, and a
member that is there has to have its type. An array has to have all members.
-/

/-- One batch of the records that a query gives. -/
structure CursorBatch where
  records : List Json
  /-- Whether there are further batches. -/
  hasMore : Bool
  /-- What the cursor is asked for the next batch by. -/
  id : Option String
deriving Repr, DecidableEq

namespace CursorBatch

/-- The id of a cursor: a text, or null for none. -/
def id? : Json → Option (Option String)
  | .null => some none
  | .string id => some (some id)
  | _ => none

/-- The batch with given members. -/
def ofMembers? (records hasMore id : Json) : Option CursorBatch := do
  return {
    records := ← records.array?
    hasMore := ← hasMore.bool?
    id := ← id? id
  }

/-- The batch in a body. -/
def ofJson? : Json → Option CursorBatch
  | .object members =>
      ofMembers?
        ((Table.get? members "result").getD (.array []))
        ((Table.get? members "hasMore").getD (.bool false))
        ((Table.get? members "id").getD .null)
  | .array [records, hasMore, id] => ofMembers? records hasMore id
  | _ => none

end CursorBatch

namespace ClusterReport

/-- The only member of a record. -/
def member? (name : String) : Json → Option Json
  | .object members => Table.get? members name
  | .array [value] => some value
  | _ => none

/-- The endpoints that a cluster reports, as they are written. -/
def endpoints? (body : Json) : Option (List String) := do
  let entries ← (← member? "endpoints" body).array?
  entries.mapM fun entry => (member? "endpoint" entry).bind Json.string?

end ClusterReport

end GraphGate
