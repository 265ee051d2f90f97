import GraphGate.GraphQL.Literal

namespace GraphGate.GraphQL

/-!
# Tokens

A text is cut into tokens with their positions. Spaces, commas, tabs, line ends,
byte order marks and comments separate tokens. Where the text holds no token, or
opens too many brackets, there is one `invalid` token, which no rule of the
grammar accepts, so it is reported where it stands. The last token marks the end
of the text or is invalid.
-/

/-- A place in a text, both parts counted from one. -/
structure Position where
  line : Nat
  column : Nat
deriving Repr, DecidableEq, Inhabited

namespace Position

/-- Where every text starts. -/
def start : Position :=
  ⟨1, 1⟩

/-- The start of the next line. -/
def nextLine (position : Position) : Position :=
  ⟨position.line + 1, 1⟩

/-- Some columns further to the right. -/
def right (position : Position) (columns : Nat) : Position :=
  ⟨position.line, position.column + columns⟩

/-- Behind a token: one column for each character since the last line feed. -/
def afterText (position : Position) (text : List Char) : Position :=
  text.foldl
    (fun position c =>
      if c = '\n' then position.nextLine else position.right 1)
    position

/-- How a position is written in messages. -/
def render (position : Position) : String :=
  toString position.line ++ ":" ++ toString position.column

end Position

/-- The smallest parts of a document. -/
inductive Token where
  | punctuator (mark : Char)
  | spread
  | name (text : String)
  | number (value : NumberLiteral)
  | string (text : String)
  | invalid
  | endOfText
deriving Repr, DecidableEq

/-- A token with the position of its first character. -/
structure Lexeme where
  position : Position
  token : Token
deriving Repr, DecidableEq

/-- How many brackets of any kind may be open at once. -/
def nestingLimit : Nat := 50

/-- Characters a name starts with. -/
def isNameStart (c : Char) : Bool :=
  c = '_' || c.isAlpha

/-- Characters a name goes on with. -/
def isNamePart (c : Char) : Bool :=
  c = '_' || c.isAlphanum

/-- Brackets that open. -/
def isOpening (c : Char) : Bool :=
  c = '(' || c = '[' || c = '\x7b'

/-- Brackets that close. -/
def isClosing (c : Char) : Bool :=
  c = ')' || c = ']' || c = '\x7d'

/-- Tokens of one character. -/
def isPunctuator (c : Char) : Bool :=
  isOpening c || isClosing c ||
    ['!', '$', ':', '=', '@', '|', '&'].contains c

/-- Where a number ends. -/
def endsNumber (c : Char) : Bool :=
  isPunctuator c || [' ', '\n', '\r', '\t', ',', '#'].contains c

/-- What stands before the next quote that is not escaped, on the same line. -/
def quoted? : Bool → List Char → Option (List Char)
  | _, [] => none
  | escaped, c :: rest =>
      if c = '"' && !escaped then
        some []
      else if c = '\n' then
        none
      else
        (quoted? (!escaped && c = '\\') rest).map (c :: ·)

/-- What stands before the next triple quote that no backslash escapes. -/
def blockQuoted? : Bool → List Char → Option (List Char)
  | escaped, '"' :: '"' :: '"' :: rest =>
      if escaped then
        (blockQuoted? false rest).map ('"' :: '"' :: '"' :: ·)
      else
        some []
  | _, c :: rest => (blockQuoted? (c = '\\') rest).map (c :: ·)
  | _, [] => none

/-- A string token behind its first quote, and how many characters it goes on for. -/
def stringToken? (rest : List Char) : Option (Token × Nat) := do
  match rest with
  | '"' :: '"' :: rest =>
      let raw ← blockQuoted? false rest
      some (.string (String.ofList (blockText raw)), raw.length + 5)
  | _ =>
      let raw ← quoted? false rest
      let text ← unescape? raw
      some (.string (String.ofList text), raw.length + 1)

/-- The token that starts with a character, and how many characters it goes on for. -/
def token? (first : Char) (rest : List Char) : Option (Token × Nat) :=
  if isPunctuator first then
    some (.punctuator first, 0)
  else if first = '.' then
    if rest.take 2 = ['.', '.'] then some (.spread, 2) else none
  else if isNameStart first then
    let more := rest.takeWhile isNamePart
    some (.name (String.ofList (first :: more)), more.length)
  else if first = '-' || first.isDigit then
    let more := rest.takeWhile (!endsNumber ·)
    (numberLiteral? (first :: more)).map fun value =>
      (.number value, more.length)
  else if first = '"' then
    stringToken? rest
  else
    none

/-- Where a separating character leads; none for a character of a token. -/
def afterSeparator? (position : Position) (c : Char) : Option Position :=
  if c = ' ' || c = ',' then
    some (position.right 1)
  else if c = '\t' then
    some (position.right 8)
  else if c = '\n' then
    some position.nextLine
  else if c = '\r' || c.toNat = 0xFEFF then
    some position
  else
    none

/-- The number of open brackets behind a token, unless there are too many. -/
def openAfter? (opened : Nat) : Token → Option Nat
  | .punctuator mark =>
      if isOpening mark then
        if opened < nestingLimit then some (opened + 1) else none
      else if isClosing mark then
        some (opened - 1)
      else
        some opened
  | _ => some opened

/-- The tokens of the rest of a text. -/
def scan
    (opened : Nat)
    (position : Position)
    (input : List Char) : List Lexeme :=
  match input with
  | [] => [⟨position, .endOfText⟩]
  | c :: rest =>
      match afterSeparator? position c with
      | some position => scan opened position rest
      | none =>
          if c = '#' then
            let comment :=
              rest.takeWhile fun c => c ≠ '\n' && c ≠ '\r'
            let position :=
              if comment.length < rest.length then
                position.nextLine
              else
                position
            scan opened position (rest.drop (comment.length + 1))
          else
            match token? c rest with
            | none => [⟨position, .invalid⟩]
            | some (token, more) =>
                match openAfter? opened token with
                | none => [⟨position, .invalid⟩]
                | some opened =>
                    ⟨position, token⟩ ::
                      scan opened
                        (position.afterText (c :: rest.take more))
                        (rest.drop more)
termination_by input.length
decreasing_by
  all_goals simp only [List.length_cons, List.length_drop]
  all_goals omega

/-- The tokens of a text. -/
def tokens (text : String) : List Lexeme :=
  scan 0 Position.start text.toList

end GraphGate.GraphQL
