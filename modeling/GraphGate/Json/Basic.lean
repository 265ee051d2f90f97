import GraphGate.Decimal.Binary64
import GraphGate.Integer64
import GraphGate.Table

namespace GraphGate

/-!
# JSON values

Records, arguments and responses are JSON. Integers and doubles are kept apart,
because `1` and `1.0` are different texts, and the members of an object keep the
order in which they arrived.
-/

/-- A JSON number: an integer, or a double. -/
inductive JsonNumber where
  | integer (value : Int)
  | float (value : Binary64)
deriving Repr, DecidableEq

/-- A JSON value. -/
inductive Json where
  | null
  | bool (value : Bool)
  | number (value : JsonNumber)
  | string (value : String)
  | array (items : List Json)
  | object (members : List (String × Json))
deriving Repr, Inhabited

namespace Json

/-- A natural number as JSON. -/
def nat (value : Nat) : Json :=
  .number (.integer value)

/-- An integer as JSON. -/
def int (value : Int) : Json :=
  .number (.integer value)

/-- A double as JSON. Infinities and undefined numbers have no text, so they are null. -/
def ofBinary64 (value : Binary64) : Json :=
  if value.isFinite then
    .number (.float value)
  else
    .null

/-- Whether the value is null. -/
def isNull : Json → Bool
  | .null => true
  | _ => false

/-- Whether the value is an object. -/
def isObject : Json → Bool
  | .object _ => true
  | _ => false

/-- The member of an object; other values have no members. -/
def member? (value : Json) (key : String) : Option Json :=
  match value with
  | .object members => Table.get? members key
  | _ => none

/-- The text of a string. -/
def string? : Json → Option String
  | .string value => some value
  | _ => none

/-- The truth value of a boolean. -/
def bool? : Json → Option Bool
  | .bool value => some value
  | _ => none

/-- The items of an array. -/
def array? : Json → Option (List Json)
  | .array items => some items
  | _ => none

/-- A non-negative integer of at most 64 bits. -/
def unsigned? : Json → Option Nat
  | .number (.integer value) =>
      if Integer64.isUnsigned value then some value.toNat else none
  | _ => none

/-- An integer of 64 bits with a sign. -/
def signed? : Json → Option Int
  | .number (.integer value) =>
      if Integer64.isSigned value then some value else none
  | _ => none

/-! ## Equality -/

mutual

/-- Whether two values are the same, part by part. -/
def isSame : Json → Json → Bool
  | .null, .null => true
  | .bool one, .bool other => one = other
  | .number one, .number other => one = other
  | .string one, .string other => one = other
  | .array items, .array others => areSame items others
  | .object members, .object others => areSameMembers members others
  | _, _ => false

/-- Whether two arrays hold the same items. -/
def areSame : List Json → List Json → Bool
  | [], [] => true
  | item :: items, other :: others => item.isSame other && areSame items others
  | _, _ => false

/-- Whether two objects have the same members in the same order. -/
def areSameMembers : List (String × Json) → List (String × Json) → Bool
  | [], [] => true
  | (key, value) :: members, (otherKey, other) :: others =>
      key = otherKey && value.isSame other && areSameMembers members others
  | _, _ => false

end

mutual

theorem isSame_iff : ∀ one other : Json, one.isSame other = true ↔ one = other
  | .null, other => by cases other <;> simp [isSame]
  | .bool _, other => by cases other <;> simp [isSame]
  | .number _, other => by cases other <;> simp [isSame]
  | .string _, other => by cases other <;> simp [isSame]
  | .array items, other => by cases other <;> simp [isSame, areSame_iff items]
  | .object members, other => by
      cases other <;> simp [isSame, areSameMembers_iff members]

theorem areSame_iff :
    ∀ items others : List Json, areSame items others = true ↔ items = others
  | [], others => by cases others <;> simp [areSame]
  | item :: items, others => by
      cases others <;> simp [areSame, isSame_iff item, areSame_iff items]

theorem areSameMembers_iff :
    ∀ members others : List (String × Json),
      areSameMembers members others = true ↔ members = others
  | [], others => by cases others <;> simp [areSameMembers]
  | (key, value) :: members, others => by
      cases others <;>
        simp [areSameMembers, isSame_iff value, areSameMembers_iff members,
          Prod.ext_iff, and_assoc]

end

instance : DecidableEq Json :=
  fun one other => decidable_of_iff _ (isSame_iff one other)

end Json

end GraphGate
