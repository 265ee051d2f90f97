import GraphGate.Json.Basic
import GraphGate.TextReader

namespace GraphGate.Json

/-!
# Reading JSON text

The text holds one value with blanks around it. Arrays and objects may be nested
to a given depth. A repeated member replaces the value of the earlier one in its
place. An integer that does not fit 64 bits, and the integer `-0`, are read as
doubles; a double too large for every finite one is refused.
-/

open TextReader

/-- The four blanks of JSON. -/
def isBlank (c : Char) : Bool :=
  c = ' ' || c = '\n' || c = '\t' || c = '\r'

/-- Passes over blanks. -/
def skipBlanks : TextReader Unit :=
  fun input => .ok ((), input.dropWhile isBlank)

/-- The value of four hexadecimal digits. -/
def hexUnit? (a b c d : Char) : Option Nat := do
  let a ← hexDigit? a
  let b ← hexDigit? b
  let c ← hexDigit? c
  let d ← hexDigit? d
  return ((a * 16 + b) * 16 + c) * 16 + d

/-- The character of a single escape letter. -/
def escapeLetter? : Char → Option Char
  | '"' => some '"'
  | '\\' => some '\\'
  | '/' => some '/'
  | 'b' => some (Char.ofNat 8)
  | 'f' => some (Char.ofNat 12)
  | 'n' => some '\n'
  | 'r' => some '\r'
  | 't' => some '\t'
  | _ => none

/--
The characters of a string after its opening quote, and the rest behind the
closing one. Characters above U+FFFF are escaped as two halves, and a half of
its own is refused.
-/
def stringBody : List Char → List Char → Except Malformed (String × List Char)
  | collected, '"' :: rest => .ok (String.ofList collected.reverse, rest)
  | collected, '\\' :: 'u' :: a :: b :: c :: d :: rest =>
      match hexUnit? a b c d with
      | none => .error .malformed
      | some unit =>
          if 0xD800 ≤ unit ∧ unit ≤ 0xDBFF then
            match rest with
            | '\\' :: 'u' :: e :: f :: g :: h :: rest =>
                match hexUnit? e f g h with
                | none => .error .malformed
                | some low =>
                    if 0xDC00 ≤ low ∧ low ≤ 0xDFFF then
                      let point :=
                        0x10000 + (unit - 0xD800) * 0x400 + (low - 0xDC00)
                      stringBody (Char.ofNat point :: collected) rest
                    else
                      .error .malformed
            | _ => .error .malformed
          else if 0xDC00 ≤ unit ∧ unit ≤ 0xDFFF then
            .error .malformed
          else
            stringBody (Char.ofNat unit :: collected) rest
  | collected, '\\' :: letter :: rest =>
      match escapeLetter? letter with
      | some c => stringBody (c :: collected) rest
      | none => .error .malformed
  | collected, c :: rest =>
      if c.toNat < 32 ∨ c = '\\' then
        .error .malformed
      else
        stringBody (c :: collected) rest
  | _, [] => .error .malformed

/-- A string with its quotes. -/
def stringText : TextReader String := do
  takeChar '"'
  fun input => stringBody [] input

/-- Digits behind a point, none without a point. -/
def fractionPart : TextReader (Option (List Char)) := do
  if startsWith (· = '.') (← Reader.peek) then
    takeChar '.'
    let digits ← takeRun Char.isDigit
    if digits.isEmpty then refuse else return some digits
  else
    return none

/-- The exponent, if there is one. -/
def exponentPart : TextReader (Option Int) := do
  if startsWith (fun c => c = 'e' || c = 'E') (← Reader.peek) then
    Reader.moveTo ((← Reader.peek).drop 1)
    let signed := startsWith (fun c => c = '+' || c = '-') (← Reader.peek)
    let negative := startsWith (· = '-') (← Reader.peek)
    if signed then
      Reader.moveTo ((← Reader.peek).drop 1)
    let digits ← takeRun Char.isDigit
    if digits.isEmpty then
      refuse
    else
      let size : Int := digitsValue digits
      return some (if negative then -size else size)
  else
    return none

/-- A finite double from its decimal parts. -/
def finiteFloat
    (negative : Bool)
    (digits : List Char)
    (exponent : Int) : TextReader JsonNumber :=
  let value := Binary64.ofDecimal negative (digitsValue digits) exponent
  if value.isFinite then return .float value else refuse

/-- A number. -/
def numberText : TextReader JsonNumber := do
  let negative := startsWith (· = '-') (← Reader.peek)
  if negative then
    takeChar '-'
  let whole ← takeRun Char.isDigit
  if whole.isEmpty || (1 < whole.length && whole.head? = some '0') then
    refuse
  else
    let fraction ← fractionPart
    let exponent ← exponentPart
    match fraction, exponent with
    | none, none =>
        let size : Int := digitsValue whole
        let value := if negative then -size else size
        let fits := Integer64.isSigned value || Integer64.isUnsigned value
        if (negative && size = 0) || !fits then
          finiteFloat negative whole 0
        else
          return .integer value
    | _, _ =>
        let places := fraction.getD []
        finiteFloat negative (whole ++ places)
          (exponent.getD 0 - places.length)

/-- Something with blanks behind it. -/
def spaced {α : Type} (reader : TextReader α) : TextReader α := do
  let value ← reader
  skipBlanks
  return value

/-- Items with commas between them, up to a closing character. -/
def commaSeparated {α : Type}
    (item : TextReader α)
    (close : Char) : TextReader (List α) := do
  if startsWith (· = close) (← Reader.peek) then
    takeChar close
    return []
  else
    let first ← spaced item
    let others ←
      Reader.manyWhile (startsWith (· = ','))
        (do spaced (takeChar ','); spaced item)
    takeChar close
    return first :: others

/-- One member of an object. -/
def memberText (value : TextReader Json) : TextReader (String × Json) := do
  let key ← spaced stringText
  spaced (takeChar ':')
  return (key, ← value)

/-- A value with at most `depth` arrays and objects inside one another. -/
def valueText : Nat → TextReader Json
  | 0 => scalarText
  | depth + 1 => do
      match (← Reader.peek).head? with
      | some '[' =>
          spaced (takeChar '[')
          return .array (← commaSeparated (valueText depth) ']')
      | some '\x7b' =>
          spaced (takeChar '\x7b')
          let members ← commaSeparated (memberText (valueText depth)) '\x7d'
          return .object (Table.ofPairs members)
      | _ => scalarText
where
  /-- A value that holds no other. -/
  scalarText : TextReader Json := do
    match (← Reader.peek).head? with
    | some '"' => return .string (← stringText)
    | some 't' => takeWord "true".toList; return .bool true
    | some 'f' => takeWord "false".toList; return .bool false
    | some 'n' => takeWord "null".toList; return .null
    | _ => return .number (← numberText)

/-- How deep arrays and objects may be nested in the texts that are received. -/
def depthLimit : Nat := 127

/-- The value of a JSON text whose nesting is at most `depth`. -/
def parseWithin? (depth : Nat) (text : String) : Option Json :=
  let document : TextReader Json := do
    skipBlanks
    spaced (valueText depth)
  whole? document text.toList

/-- The value of a JSON text. -/
def parse? (text : String) : Option Json :=
  parseWithin? depthLimit text

end GraphGate.Json
