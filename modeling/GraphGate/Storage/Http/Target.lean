namespace GraphGate

/-!
# Request targets

The path of a call is put together from names as they are. What is sent has no
tabs and line breaks, nothing behind a `#`, forward slashes only, no steps to the
same or the parent directory, and percent signs with two digits for the bytes of
characters that may not stand there. Escapes that are there already stay.
-/

namespace HttpTarget

/-- A hexadecimal digit in upper case. -/
def hexDigit (value : Nat) : Char :=
  if value < 10 then
    Char.ofNat ('0'.toNat + value)
  else
    Char.ofNat ('A'.toNat + (value - 10))

/-- The escape of a byte. -/
def escapeByte (byte : UInt8) : List Char :=
  ['%', hexDigit (byte.toNat / 16), hexDigit (byte.toNat % 16)]

/-- Whether a character is neither ASCII nor printed, or is one of some others. -/
def mustEscape (others : List Char) (c : Char) : Bool :=
  c.toNat < 0x21 || 0x7E < c.toNat || others.contains c

/-- The characters that may not stand in a path. -/
def refusedInPath : List Char :=
  ['"', '#', '<', '>', '?', '`', '\x7b', '\x7d']

/-- The characters that may not stand behind a question mark. -/
def refusedInQuery : List Char :=
  ['"', '#', '<', '>', '\'']

/-- A text with all characters escaped that may not stand there. -/
def escape (others : List Char) (text : List Char) : List Char :=
  text.flatMap fun c =>
    if mustEscape others c then
      (String.singleton c).toUTF8.data.toList.flatMap escapeByte
    else
      [c]

/-- The parts of a path between slashes of either kind. -/
def segments : List Char → List (List Char)
  | [] => [[]]
  | c :: rest =>
      if c = '/' || c = '\\' then
        [] :: segments rest
      else
        match segments rest with
        | [] => [[c]]
        | segment :: others => (c :: segment) :: others

/-- A text with its dots written as dots. -/
def plainDots : List Char → List Char
  | '%' :: '2' :: e :: rest =>
      if e = 'e' || e = 'E' then
        '.' :: plainDots rest
      else
        '%' :: plainDots ('2' :: e :: rest)
  | c :: rest => c :: plainDots rest
  | [] => []

/-- Takes the steps of a path one after another, from the segments so far. -/
def resolve (path : List (List Char)) : List (List Char) → List (List Char)
  | [] => path
  | segment :: rest =>
      match plainDots segment with
      | ['.'] => resolve (if rest.isEmpty then path ++ [[]] else path) rest
      | ['.', '.'] =>
          let parent := path.dropLast
          resolve (if rest.isEmpty then parent ++ [[]] else parent) rest
      | _ => resolve (path ++ [segment]) rest

/-- The target for the path of a call. -/
def render (path : String) : String :=
  let isBreak (c : Char) : Bool := c = '\t' || c = '\n' || c = '\r'
  let isBlank (c : Char) : Bool := c.toNat ≤ 0x20
  let trimmed := (path.toList.reverse.dropWhile isBlank).reverse
  let text := (trimmed.filter (!isBreak ·)).takeWhile (· ≠ '#')
  let path := text.takeWhile (· ≠ '?')
  let query := text.drop path.length
  let resolved := resolve [] ((segments path).drop 1)
  let written :=
    resolved.flatMap fun segment => '/' :: escape refusedInPath segment
  match query with
  | [] => String.ofList written
  | _ :: query =>
      String.ofList (written ++ '?' :: escape refusedInQuery query)

end HttpTarget

end GraphGate
