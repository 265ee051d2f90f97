import GraphGate.Json.Basic
import GraphGate.Decimal.Shortest

namespace GraphGate.Json

/-!
# JSON text

The compact text has no blanks. The indented text puts every item and member on
a line of its own, two spaces deeper than what encloses it, and leaves empty
arrays and objects on one line.

In a string only the quote, the backslash and control characters below U+0020
are escaped.
-/

/-- The text of one character inside a string. -/
def escapeChar (c : Char) : List Char :=
  match c with
  | '"' => ['\\', '"']
  | '\\' => ['\\', '\\']
  | '\n' => ['\\', 'n']
  | '\r' => ['\\', 'r']
  | '\t' => ['\\', 't']
  | _ =>
      if c.toNat = 8 then
        ['\\', 'b']
      else if c.toNat = 12 then
        ['\\', 'f']
      else if c.toNat < 32 then
        ['\\', 'u', '0', '0',
          Nat.digitChar (c.toNat / 16), Nat.digitChar (c.toNat % 16)]
      else
        [c]

/-- A string in quotes. -/
def quote (text : String) : String :=
  String.ofList ('"' :: text.toList.flatMap escapeChar ++ ['"'])

/-- The text of a number. -/
def renderNumber : JsonNumber → String
  | .integer value => toString value
  | .float value => FloatLayout.standard.render value

mutual

/-- The compact text of a value. -/
def render : Json → String
  | .null => "null"
  | .bool value => if value then "true" else "false"
  | .number value => renderNumber value
  | .string value => quote value
  | .array items => "[" ++ renderItems items ++ "]"
  | .object members => "\x7b" ++ renderMembers members ++ "\x7d"

/-- The items of an array with commas between them. -/
def renderItems : List Json → String
  | [] => ""
  | [item] => render item
  | item :: next :: rest => render item ++ "," ++ renderItems (next :: rest)

/-- The members of an object with commas between them. -/
def renderMembers : List (String × Json) → String
  | [] => ""
  | [(key, value)] => quote key ++ ":" ++ render value
  | (key, value) :: next :: rest =>
      quote key ++ ":" ++ render value ++ "," ++ renderMembers (next :: rest)

end

/-- A new line, indented by two spaces for each enclosing value. -/
def indentation (depth : Nat) : String :=
  String.ofList ('\n' :: List.replicate (2 * depth) ' ')

mutual

/-- The indented text of a value inside `depth` others. -/
def renderIndented (depth : Nat) : Json → String
  | .null => "null"
  | .bool value => if value then "true" else "false"
  | .number value => renderNumber value
  | .string value => quote value
  | .array [] => "[]"
  | .array (item :: rest) =>
      "[" ++ indentedItems (depth + 1) (item :: rest) ++
        indentation depth ++ "]"
  | .object [] => "\x7b\x7d"
  | .object (member :: rest) =>
      "\x7b" ++ indentedMembers (depth + 1) (member :: rest) ++
        indentation depth ++ "\x7d"

/-- Items, each on a line of its own. -/
def indentedItems (depth : Nat) : List Json → String
  | [] => ""
  | [item] => indentation depth ++ renderIndented depth item
  | item :: next :: rest =>
      indentation depth ++ renderIndented depth item ++ "," ++
        indentedItems depth (next :: rest)

/-- Members, each on a line of its own. -/
def indentedMembers (depth : Nat) : List (String × Json) → String
  | [] => ""
  | [(key, value)] =>
      indentation depth ++ quote key ++ ": " ++ renderIndented depth value
  | (key, value) :: next :: rest =>
      indentation depth ++ quote key ++ ": " ++ renderIndented depth value ++
        "," ++ indentedMembers depth (next :: rest)

end

end GraphGate.Json
