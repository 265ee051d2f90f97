import GraphGate.Reader

namespace GraphGate

/-!
# Reading text

Readers over the characters of a text, for formats of which only matters whether
a text has the format, and not where it fails to. Here are the parts that such
formats share: given characters and words, runs of characters, and digits.
-/

/-- The text does not have the format. -/
inductive Malformed where
  | malformed
deriving Repr, DecidableEq

/-- Reads the characters of a text. -/
abbrev TextReader (α : Type) := Reader Char Malformed α

namespace TextReader

variable {α : Type}

/-- Refuses the text. -/
def refuse : TextReader α :=
  Reader.failAt fun _ => .malformed

/-- Takes a value that may be missing. -/
def ofOption : Option α → TextReader α
  | some value => return value
  | none => refuse

/-- Whether the next character passes a test; it stays in place. -/
def startsWith (accept : Char → Bool) (input : List Char) : Bool :=
  match input with
  | c :: _ => accept c
  | [] => false

/-- Whether the text goes on with a word; it stays in place. -/
def startsWithWord (word : List Char) (input : List Char) : Bool :=
  word.isPrefixOf input

/-- Takes one given character. -/
def takeChar (expected : Char) : TextReader Unit :=
  fun input =>
    match input with
    | c :: rest => if c = expected then .ok ((), rest) else .error .malformed
    | [] => .error .malformed

/-- Takes a given word. -/
def takeWord (word : List Char) : TextReader Unit :=
  fun input =>
    if startsWithWord word input then
      .ok ((), input.drop word.length)
    else
      .error .malformed

/-- Takes the longest run of characters that pass a test. -/
def takeRun (accept : Char → Bool) : TextReader (List Char) :=
  fun input => .ok (input.takeWhile accept, input.dropWhile accept)

/-- Takes a character if it is there, and tells whether it was. -/
def takeIf (expected : Char) : TextReader Bool := do
  if startsWith (· = expected) (← Reader.peek) then
    takeChar expected
    return true
  else
    return false

/-- Reads a whole text with nothing left over. -/
def whole? (reader : TextReader α) (text : List Char) : Option α :=
  match reader text with
  | .ok (value, []) => some value
  | _ => none

end TextReader

/-- The number written by decimal digits. -/
def digitsValue (digits : List Char) : Nat :=
  digits.foldl (fun value c => value * 10 + (c.toNat - '0'.toNat)) 0

/-- The value of a hexadecimal digit. -/
def hexDigit? (c : Char) : Option Nat :=
  if '0' ≤ c ∧ c ≤ '9' then
    some (c.toNat - '0'.toNat)
  else if 'a' ≤ c ∧ c ≤ 'f' then
    some (c.toNat - 'a'.toNat + 10)
  else if 'A' ≤ c ∧ c ≤ 'F' then
    some (c.toNat - 'A'.toNat + 10)
  else
    none

end GraphGate
