import GraphGate.Decimal.Binary64
import GraphGate.Integer64
import GraphGate.TextReader

namespace GraphGate.GraphQL

/-!
# Number and string literals

What the text of a literal stands for. Integers have 64 bits. A float has a
whole part written like an integer, then a fraction or an exponent; the digits
of an exponent without a sign start with one of `1` to `8`. Floats too large for
every finite double are infinite.

A string in single quotes has escapes. A block string has none but the escaped
triple quote, and loses the indentation that its lines share.
-/

/-- A number as it is written: without a point or exponent it is an integer. -/
inductive NumberLiteral where
  | integer (value : Int)
  | float (value : Binary64)
deriving Repr, DecidableEq

/-- All characters are decimal digits, and there is at least one. -/
def isDigits (text : List Char) : Bool :=
  !text.isEmpty && text.all Char.isDigit

/-- A whole number without leading zeros: its sign and digits. -/
def wholePart? (text : List Char) : Option (Bool × List Char) :=
  let negative := text.head? = some '-'
  let digits := if negative then text.drop 1 else text
  if isDigits digits && (digits.length = 1 || digits.head? ≠ some '0') then
    some (negative, digits)
  else
    none

/-- The exponent behind its letter. -/
def exponentValue? : List Char → Option Int
  | [] => none
  | '-' :: digits =>
      if isDigits digits then some (-(digitsValue digits)) else none
  | '+' :: digits =>
      if isDigits digits then some (digitsValue digits) else none
  | first :: rest =>
      if '1' ≤ first ∧ first ≤ '8' ∧ rest.all Char.isDigit then
        some (digitsValue (first :: rest))
      else
        none

/-- The exponent with its letter, zero where nothing is written. -/
def exponentPart? : List Char → Option Int
  | [] => some 0
  | mark :: rest =>
      if mark = 'e' || mark = 'E' then exponentValue? rest else none

/-- The digits behind a point and what follows them. -/
def fractionPart? : List Char → Option (List Char × List Char)
  | '.' :: rest =>
      let digits := rest.takeWhile Char.isDigit
      if digits.isEmpty then
        none
      else
        some (digits, rest.drop digits.length)
  | rest => some ([], rest)

/-- The number that a whole token stands for. -/
def numberLiteral? (text : List Char) : Option NumberLiteral := do
  let isMark (c : Char) : Bool := c = '.' || c = 'e' || c = 'E'
  let whole := text.takeWhile (!isMark ·)
  let (negative, digits) ← wholePart? whole
  if whole.length = text.length then
    let size : Int := digitsValue digits
    let value := if negative then -size else size
    if Integer64.isSigned value then some (.integer value) else none
  else
    let (places, rest) ← fractionPart? (text.drop whole.length)
    let exponent ← exponentPart? rest
    some <| .float <|
      Binary64.ofDecimal negative
        (digitsValue (digits ++ places))
        (exponent - places.length)

/-- The number of four characters in base sixteen; the first may be a plus sign. -/
def unicodeUnit? : List Char → Option Nat
  | '+' :: digits => digits.foldlM step 0
  | digits => digits.foldlM step 0
where
  /-- One more digit behind a number. -/
  step (value : Nat) (c : Char) : Option Nat :=
    (hexDigit? c).map (value * 16 + ·)

/-- The character of a number, unless the number is a half of a pair. -/
def unicodeChar? (unit : Nat) : Option Char :=
  if 0xD800 ≤ unit ∧ unit ≤ 0xDFFF then none else some (Char.ofNat unit)

/-- The character that an escape letter stands for. -/
def escapeLetter? : Char → Option Char
  | '"' => some '"'
  | '\\' => some '\\'
  | '/' => some '/'
  | 'b' => some (Char.ofNat 0x10)
  | 'f' => some (Char.ofNat 0x0C)
  | 'n' => some '\n'
  | 'r' => some '\r'
  | 't' => some '\t'
  | _ => none

/-- The text between single quotes with its escapes resolved. -/
def unescape? : List Char → Option (List Char)
  | '\\' :: 'u' :: a :: b :: c :: d :: rest => do
      let unit ← unicodeUnit? [a, b, c, d]
      let char ← unicodeChar? unit
      let text ← unescape? rest
      return char :: text
  | '\\' :: letter :: rest => do
      let char ← escapeLetter? letter
      let text ← unescape? rest
      return char :: text
  | ['\\'] => none
  | c :: rest => do
      let text ← unescape? rest
      return c :: text
  | [] => some []

/-- Unicode white space. -/
def isWhiteSpace (c : Char) : Bool :=
  let code := c.toNat
  (9 ≤ code && code ≤ 13) || code = 0x20 || code = 0x85 || code = 0xA0 ||
    code = 0x1680 || (0x2000 ≤ code && code ≤ 0x200A) || code = 0x2028 ||
    code = 0x2029 || code = 0x202F || code = 0x205F || code = 0x3000

/-- The lines of a text. A line ends at a line feed, with a carriage return before it or not. -/
def lines : List Char → List (List Char)
  | [] => [[]]
  | '\r' :: '\n' :: rest => [] :: lines rest
  | '\n' :: rest => [] :: lines rest
  | c :: rest =>
      match lines rest with
      | [] => [[c]]
      | line :: others => (c :: line) :: others

/-- The size of a line in bytes. -/
def byteLength (line : List Char) : Nat :=
  line.foldl (fun size c => size + c.utf8Size) 0

/-- How many bytes of white space a line starts with; none for a blank line. -/
def indentation? (line : List Char) : Option Nat :=
  if line.all isWhiteSpace then
    none
  else
    some (byteLength (line.takeWhile isWhiteSpace))

/-- Drops a number of bytes from the front of a line. -/
def dropBytes : Nat → List Char → List Char
  | 0, line => line
  | _ + 1, [] => []
  | bytes, c :: rest => dropBytes (bytes - c.utf8Size) rest
termination_by _ line => line.length

/-- Takes the shared indentation off a line that is long enough to have it. -/
def dropIndentation (shared : Option Nat) (line : List Char) : List Char :=
  match shared with
  | some bytes => if bytes ≤ byteLength line then dropBytes bytes line else line
  | none => line

/-- Resolves the escaped triple quotes of a line. -/
def unescapeTripleQuotes : List Char → List Char
  | '\\' :: '"' :: '"' :: '"' :: rest =>
      '"' :: '"' :: '"' :: unescapeTripleQuotes rest
  | c :: rest => c :: unescapeTripleQuotes rest
  | [] => []

/-- The text of a block string from what stands between its triple quotes. -/
def blockText (raw : List Char) : List Char :=
  let isBlank (line : List Char) : Bool := line.all isWhiteSpace
  match lines raw with
  | [] => []
  | first :: others =>
      let shared := (others.filterMap indentation?).min?
      let stripped := first :: others.map (dropIndentation shared)
      let kept :=
        ((stripped.dropWhile isBlank).reverse.dropWhile isBlank).reverse
      (kept.map unescapeTripleQuotes).intersperse ['\n'] |>.flatten

end GraphGate.GraphQL
