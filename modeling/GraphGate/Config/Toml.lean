import GraphGate.Decimal.Binary64
import GraphGate.Integer64
import GraphGate.Table
import GraphGate.TextReader

namespace GraphGate

/-!
# Configuration documents

A configuration document consists of tables. A table has keys with values, and
the tables whose headers go on from its own. Headers and keys may be written
with dots, values over several lines. A table that is given twice is refused; a
repeated key stays in its table, to be refused by whoever asks for it. Of dates
and times only the form is looked at, because no setting is one.
-/

/-- A value in a configuration document. -/
inductive Toml where
  | string (value : String)
  | integer (value : Int)
  | float (value : Binary64)
  | boolean (value : Bool)
  | datetime
  | array (items : List Toml)
  | table (entries : List (String × Toml))
  /-- A table that keys with dots make up, and that others may go on with. -/
  | dotted (entries : List (String × Toml))
deriving Repr, Inhabited

namespace Toml

open TextReader

/-- The blanks inside a line. -/
def isBlank (c : Char) : Bool :=
  c = ' ' || c = '\t'

/-- The characters of keys without quotes, and of numbers. -/
def isBareChar (c : Char) : Bool :=
  c.isAlphanum || c = '-' || c = '_'

/-- Characters that may stand in strings and comments as they are. -/
def isPlainChar (c : Char) : Bool :=
  c = '\t' || 32 ≤ c.toNat

/-- Passes over blanks. -/
def skipBlanks : TextReader Unit := do
  let _ ← takeRun isBlank

/-- Passes over a comment if there is one. -/
def skipComment : TextReader Unit := do
  if startsWith (· = '#') (← Reader.peek) then
    let _ ← takeRun isPlainChar

/-- Passes over a comment and the end of its line. -/
def endOfLine : TextReader Unit := do
  skipBlanks
  skipComment
  if !(← Reader.peek).isEmpty then
    takeChar '\n'

/-- Passes over blanks, comments and line ends. -/
def skipLines : TextReader Unit := do
  let starts (c : Char) : Bool := isBlank c || c = '\n' || c = '#'
  let _ ← Reader.manyWhile (startsWith starts) do
    let _ ← takeRun fun c => isBlank c || c = '\n'
    skipComment

/-- The character of a code point that is written in hexadecimal digits. -/
def codePoint? (digits : List Char) : Option Char := do
  let code ← digits.foldlM
    (fun value c => (hexDigit? c).map (value * 16 + ·)) 0
  if code < 0xD800 ∨ (0xDFFF < code ∧ code < 0x110000) then
    some (Char.ofNat code)
  else
    none

/-- Takes a code point of a number of hexadecimal digits. -/
def codePoint (length : Nat) : TextReader Char := do
  let digits := (← Reader.peek).take length
  Reader.moveTo ((← Reader.peek).drop length)
  if digits.length = length then ofOption (codePoint? digits) else refuse

/-- Passes over the blank rest of a line and all blank lines behind it. -/
def lineContinuation : TextReader Unit := do
  let _ ← takeRun isBlank
  takeChar '\n'
  let _ ← takeRun fun c => isBlank c || c = '\n'

/-- The characters of an escape behind its backslash. -/
def escape (multiline : Bool) : TextReader (List Char) := do
  let input ← Reader.peek
  let simple (c : Char) : TextReader (List Char) := do
    Reader.moveTo (input.drop 1)
    return [c]
  match input with
  | '"' :: _ => simple '"'
  | '\\' :: _ => simple '\\'
  | 'b' :: _ => simple (Char.ofNat 8)
  | 'f' :: _ => simple (Char.ofNat 12)
  | 'n' :: _ => simple '\n'
  | 'r' :: _ => simple '\r'
  | 't' :: _ => simple '\t'
  | 'u' :: rest =>
      Reader.moveTo rest
      return [← codePoint 4]
  | 'U' :: rest =>
      Reader.moveTo rest
      return [← codePoint 8]
  | _ =>
      if multiline then
        lineContinuation
        return []
      else
        refuse

/-- The next part of a string: a character, or an escape where there are any. -/
def stringPart (quote : Char) (multiline : Bool) : TextReader (List Char) := do
  match ← Reader.peek with
  | [] => refuse
  | c :: rest =>
      Reader.moveTo rest
      if c = '\\' && quote = '"' then
        escape multiline
      else if (isPlainChar c && c.toNat ≠ 127) || (multiline && c = '\n') then
        return [c]
      else
        refuse

/-- Takes a string on one line, between single quotes of a kind. -/
def lineString (quote : Char) : TextReader String := do
  takeChar quote
  let parts ←
    Reader.manyWhile (fun input => !startsWith (· = quote) input)
      (stringPart quote false)
  takeChar quote
  return String.ofList parts.flatten

/--
Takes a string of several lines, between triple quotes of a kind. A line end
behind the opening quotes is left out, and up to two quotes may stand before the
closing ones.
-/
def blockString (quote : Char) : TextReader String := do
  let marks := [quote, quote, quote]
  takeWord marks
  let _ ← takeIf '\n'
  let parts ←
    Reader.manyWhile (fun input => !startsWithWord marks input)
      (stringPart quote true)
  takeWord marks
  let fourth ← takeIf quote
  let fifth ← if fourth then takeIf quote else pure false
  let extra := fourth.toNat + fifth.toNat
  return String.ofList (parts.flatten ++ List.replicate extra quote)

/-- Takes a string of any kind. -/
def anyString (quote : Char) : TextReader String := do
  if startsWithWord [quote, quote, quote] (← Reader.peek) then
    blockString quote
  else
    lineString quote

/-- Takes one part of a key. -/
def keyPart : TextReader String := do
  match ← Reader.peek with
  | '"' :: _ => lineString '"'
  | '\'' :: _ => lineString '\''
  | _ =>
      let text ← takeRun isBareChar
      if text.isEmpty then refuse else return String.ofList text

/-- Takes a key: its parts with dots between them. -/
def key : TextReader (List String) := do
  let first ← keyPart
  skipBlanks
  let others ← Reader.manyWhile (startsWith (· = '.')) do
    takeChar '.'
    skipBlanks
    let part ← keyPart
    skipBlanks
    return part
  return first :: others

/-- Digits in which single underscores stand between others. -/
def separatedDigits? (isDigit : Char → Bool) : List Char → Option (List Char)
  | [] => none
  | [c] => if isDigit c then some [c] else none
  | c :: '_' :: rest =>
      if isDigit c then (separatedDigits? isDigit rest).map (c :: ·) else none
  | c :: next :: rest =>
      if isDigit c then
        (separatedDigits? isDigit (next :: rest)).map (c :: ·)
      else
        none

/-- The digits at the start of a text, and what follows them. -/
def leadingDigits? (text : List Char) : Option (List Char × List Char) :=
  let run := text.takeWhile fun c => c.isDigit || c = '_'
  (separatedDigits? Char.isDigit run).map (·, text.drop run.length)

/-- A whole part without idle zeros: its sign, its digits and what follows them. -/
def wholePart? (text : List Char) : Option (Bool × List Char × List Char) := do
  let negative := text.head? = some '-'
  let (digits, rest) ← leadingDigits? (if negative then text.drop 1 else text)
  if 1 < digits.length && digits.head? = some '0' then
    none
  else
    some (negative, digits, rest)

/-- An integer of 64 bits. -/
def boundedInteger? (value : Int) : Option Toml :=
  if Integer64.isSigned value then some (.integer value) else none

/-- A decimal integer. -/
def decimalInteger? (text : List Char) : Option Toml :=
  match wholePart? text with
  | some (negative, digits, []) =>
      let size : Int := digitsValue digits
      boundedInteger? (if negative then -size else size)
  | _ => none

/-- An integer in a base other than ten. -/
def radixInteger? (base : Nat) (text : List Char) : Option Toml := do
  let isDigit (c : Char) : Bool :=
    (hexDigit? c).any fun digit => digit < base
  let digits ← separatedDigits? isDigit text
  let value := digits.foldl
    (fun value c => value * base + (hexDigit? c).getD 0) 0
  boundedInteger? value

/-- Takes a run of bare characters that is not empty. -/
def bareWord : TextReader (List Char) := do
  let word ← takeRun isBareChar
  if word.isEmpty then refuse else return word

/-- All of a text as digits. -/
def allDigits? (text : List Char) : Option (List Char) :=
  match leadingDigits? text with
  | some (digits, []) => some digits
  | _ => none

/-- Takes the exponent that what follows the digits of a number starts with. -/
def restOfExponent (suffix : List Char) : TextReader Int := do
  match suffix with
  | [] => return 0
  | mark :: rest =>
      if mark = 'e' || mark = 'E' then
        if rest.isEmpty then
          let _ ← takeIf '+'
          return digitsValue (← ofOption (allDigits? (← bareWord)))
        else
          let negative := rest.head? = some '-'
          let digits ←
            ofOption (allDigits? (if negative then rest.drop 1 else rest))
          let size : Int := digitsValue digits
          return if negative then -size else size
      else
        refuse

/-- Takes the rest of a float behind its whole part and the word behind its point. -/
def restOfFloat (word : List Char) (fraction : Option (List Char)) :
    TextReader Toml := do
  let (negative, digits, suffix) ← ofOption (wholePart? word)
  let (places, suffix) ←
    match fraction with
    | none => pure ([], suffix)
    | some fraction =>
        if suffix.isEmpty then ofOption (leadingDigits? fraction) else refuse
  let exponent ← restOfExponent suffix
  let value := Binary64.ofDecimal negative (digitsValue (digits ++ places))
    (exponent - places.length)
  if value.isFinite then return .float value else refuse

/-- The infinite and undefined numbers. -/
def specialFloat? (word : List Char) : Option Toml :=
  let negative := word.head? = some '-'
  let name := if negative then word.drop 1 else word
  if name = "inf".toList then
    some (.float (.ofMagnitude negative Binary64.infinityMagnitude))
  else if name = "nan".toList then
    some (.float (.ofMagnitude negative (Binary64.infinityMagnitude + 1)))
  else
    none

/-- Takes the rest of a number behind its first word. -/
def restOfNumber (word : List Char) : TextReader Toml := do
  match word with
  | '0' :: 'x' :: digits => ofOption (radixInteger? 16 digits)
  | '0' :: 'o' :: digits => ofOption (radixInteger? 8 digits)
  | '0' :: 'b' :: digits => ofOption (radixInteger? 2 digits)
  | _ =>
      if word.any fun c => c = 'e' || c = 'E' then
        restOfFloat word none
      else if ← takeIf '.' then
        restOfFloat word (some (← bareWord))
      else
        ofOption ((specialFloat? word).or (decimalInteger? word))

/-- Takes a word if a mark stands before it. -/
def wordBehind (mark : Char) : TextReader Unit := do
  if ← takeIf mark then
    let _ ← bareWord

/-- Takes the rest of a date or time behind its first word, and a colon if one was taken. -/
def restOfDatetime (colonTaken : Bool) : TextReader Toml := do
  let input ← Reader.peek
  if startsWith (· = ' ') input && startsWith isBareChar (input.drop 1) then
    wordBehind ' '
  let timeFollows ← if colonTaken then pure true else takeIf ':'
  if timeFollows then
    let _ ← bareWord
    takeChar ':'
    let _ ← bareWord
    wordBehind '.'
    wordBehind '+'
    wordBehind ':'
  return .datetime

/-- Whether the exponent of a number has a minus sign. -/
def hasNegativeExponent : List Char → Bool
  | [] => false
  | c :: rest =>
      ((c = 'e' || c = 'E') && rest.head? = some '-') || hasNegativeExponent rest

/-- Whether a word starts a date. -/
def startsDate (word : List Char) : Bool :=
  word.any (fun c => c = 'T' || c = 't') ||
    ((word.drop 1).contains '-' && !hasNegativeExponent word)

/-- Takes a boolean, a number, a date or a time. -/
def scalar : TextReader Toml := do
  if ← takeIf '+' then
    restOfNumber (← bareWord)
  else
    let word ← bareWord
    let isNumeric :=
      startsWith (fun c => c = '-' || c.isDigit) word || (specialFloat? word).isSome
    if word = "true".toList then
      return .boolean true
    else if word = "false".toList then
      return .boolean false
    else if !isNumeric then
      refuse
    else if startsDate word then
      restOfDatetime false
    else if ← takeIf ':' then
      restOfDatetime true
    else
      restOfNumber word

/-- Puts a value under a key into a table; the dots of a key lead into inner tables. -/
def insertKey (value : Toml) :
    List String → List (String × Toml) → Option (List (String × Toml))
  | [], _ => none
  | [name], entries => some (entries ++ [(name, value)])
  | name :: next :: rest, entries =>
      match entries.lookup name with
      | none => do
          let inner ← insertKey value (next :: rest) []
          return entries ++ [(name, .dotted inner)]
      | some (.dotted inner) => do
          let inner ← insertKey value (next :: rest) inner
          return Table.put name (.dotted inner) entries
      | some _ => none

/-- Takes a key with its value. -/
def keyValue (value : TextReader Toml) : TextReader (List String × Toml) := do
  let path ← key
  takeChar '='
  skipBlanks
  let value ← value
  skipBlanks
  return (path, value)

/-- The table of several keys with their values. -/
def tableOf? (pairs : List (List String × Toml)) :
    Option (List (String × Toml)) :=
  pairs.foldlM (fun entries pair => insertKey pair.2 pair.1 entries) []

/-- Takes the items of an array behind its opening bracket. -/
def arrayItems (value : TextReader Toml) : TextReader (List Toml) := do
  let item : TextReader Toml := do
    let value ← value
    skipLines
    if !startsWith (· = ']') (← Reader.peek) then
      takeChar ','
      skipLines
    return value
  skipLines
  let items ← Reader.manyWhile (fun input => !startsWith (· = ']') input) item
  takeChar ']'
  return items

/-- Takes the keys of an inline table behind its opening brace. -/
def inlineEntries (value : TextReader Toml) :
    TextReader (List (String × Toml)) := do
  skipBlanks
  if ← takeIf '\x7d' then
    return []
  else
    let first ← keyValue value
    let others ← Reader.manyWhile (startsWith (· = ',')) do
      takeChar ','
      skipBlanks
      keyValue value
    takeChar '\x7d'
    ofOption (tableOf? (first :: others))

/-- Takes a value with at most `depth` arrays and inline tables inside one another. -/
def valueWithin : Nat → TextReader Toml
  | 0 => refuse
  | depth + 1 => do
      match ← Reader.peek with
      | '"' :: _ => return .string (← anyString '"')
      | '\'' :: _ => return .string (← anyString '\'')
      | '[' :: _ =>
          takeChar '['
          return .array (← arrayItems (valueWithin depth))
      | '\x7b' :: _ =>
          takeChar '\x7b'
          return .table (← inlineEntries (valueWithin depth))
      | _ => scalar

/-- A table as it is written: its header, whether it is one of several, and its keys. -/
structure Section where
  path : List String
  repeated : Bool
  entries : List (String × Toml)
deriving Repr

/-- Takes the keys up to the next header. -/
def sectionEntries (depth : Nat) : TextReader (List (String × Toml)) := do
  skipLines
  let pairs ←
    Reader.manyWhile
      (fun input => !input.isEmpty && !startsWith (· = '[') input)
      (do
        let pair ← keyValue (valueWithin depth)
        endOfLine
        skipLines
        return pair)
  ofOption (tableOf? pairs)

/-- Takes a header with the keys behind it. -/
def headedSection (depth : Nat) : TextReader Section := do
  takeChar '['
  let repeated ← takeIf '['
  skipBlanks
  let path ← key
  takeChar ']'
  if repeated then
    takeChar ']'
  endOfLine
  return ⟨path, repeated, ← sectionEntries depth⟩

/-- Takes all tables of a document. -/
def sections (depth : Nat) : TextReader (List Section) := do
  let entries ← sectionEntries depth
  let others ← Reader.manyWhile (startsWith (· = '[')) (headedSection depth)
  return ⟨[], false, entries⟩ :: others

/-- The tables whose headers go on with a name, seen from behind that name. -/
def sectionsBelow (name : String) (sections : List Section) : List Section :=
  sections.filterMap fun part =>
    match part.path with
    | [] => none
    | first :: rest =>
        if first = name then some { part with path := rest } else none

/-- Splits tables into runs that each start with a table of the empty header. -/
def runs : List Section → List (List Section)
  | [] => []
  | first :: rest =>
      match runs rest with
      | [] => [[first]]
      | run :: others =>
          match run with
          | next :: _ =>
              if next.path.isEmpty then
                [first] :: run :: others
              else
                (first :: run) :: others
          | [] => [first] :: others

/-- The distinct first names of headers, in order. -/
def firstNames (sections : List Section) : List String :=
  (sections.filterMap fun part => part.path.head?).eraseDups

/--
The entries of the table that some tables make up, whose headers have at most
`depth` names. The table itself may be given once; one that is repeated becomes
an array, with an item for each time it is given.
-/
def assemble : Nat → List Section → Option (List (String × Toml))
  | depth, sections => do
      let own := sections.filter fun part => part.path.isEmpty
      if 1 < own.length then
        none
      else
        let entries := own.flatMap Section.entries
        match depth with
        | 0 => return entries
        | depth + 1 => do
            let inner ← (firstNames sections).mapM fun name => do
              let below := sectionsBelow name sections
              let heads := below.filter fun part => part.path.isEmpty
              if heads.any Section.repeated then
                let startsItself := (below.head?.any fun part => part.path.isEmpty)
                if startsItself && heads.all Section.repeated then
                  let items ← (runs below).mapM (assemble depth)
                  return (name, Toml.array (items.map .table))
                else
                  none
              else
                return (name, Toml.table (← assemble depth below))
            return entries ++ inner

/-- The text without a byte order mark and with plain line ends. -/
def normalise : List Char → List Char
  | [] => []
  | '\r' :: '\n' :: rest => '\n' :: normalise rest
  | c :: rest => c :: normalise rest

/-- The entries of the outermost table of a document. -/
def parse? (text : String) : Option (List (String × Toml)) := do
  let input := normalise text.toList
  let input :=
    if startsWith (fun c => c.toNat = 0xFEFF) input then input.drop 1 else input
  let sections ← whole? (sections (input.length + 1)) input
  let longest := (sections.map fun part => part.path.length).foldl max 0
  assemble longest sections

end Toml

end GraphGate
