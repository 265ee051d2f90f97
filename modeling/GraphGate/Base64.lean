namespace GraphGate

/-!
# Base 64

Three bytes are written as four characters of six bits each. One or two bytes
left over at the end are filled up with zero bits, and the text with `=`.
-/

namespace Base64

/-- The character for six bits. -/
def digit (value : Nat) : Char :=
  if value < 26 then
    Char.ofNat ('A'.toNat + value)
  else if value < 52 then
    Char.ofNat ('a'.toNat + (value - 26))
  else if value < 62 then
    Char.ofNat ('0'.toNat + (value - 52))
  else if value = 62 then
    '+'
  else
    '/'

/-- The characters of a number of six-bit groups, the highest first. -/
def digits (groups : Nat) (value : Nat) : List Char :=
  match groups with
  | 0 => []
  | groups + 1 => digits groups (value / 64) ++ [digit (value % 64)]

/-- The text of a list of bytes. -/
def encode : List UInt8 → List Char
  | [] => []
  | [a] => digits 2 (a.toNat * 16) ++ ['=', '=']
  | [a, b] => digits 3 ((a.toNat * 256 + b.toNat) * 4) ++ ['=']
  | a :: b :: c :: rest =>
      digits 4 ((a.toNat * 256 + b.toNat) * 256 + c.toNat) ++ encode rest

/-- The text of the bytes of a text. -/
def encodeText (text : String) : String :=
  String.ofList (encode text.toUTF8.data.toList)

end Base64

end GraphGate
