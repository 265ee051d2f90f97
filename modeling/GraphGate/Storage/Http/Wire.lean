import GraphGate.Config.Host
import GraphGate.Json.Printer
import GraphGate.Storage.Http.Exchange
import GraphGate.Storage.Http.Target

namespace GraphGate

/-!
# Messages on the wire

A request is a head of text lines, an empty line and a body. An answer likewise,
where the body has the length that the head tells, or comes in chunks that each
tell their own, or goes on to the end of the connection.
-/

namespace HttpWire

/-- The end of a line. -/
def lineEnd : String := "\r\n"

/-- The lines of a head with the empty line behind them. -/
def headText (lines : List String) : String :=
  String.join (lines.map (· ++ lineEnd)) ++ lineEnd

/-- A request as it is sent to a host. -/
def requestText (host : HostAddress) (request : HttpRequest) : String :=
  let call := request.call
  let general := [
    call.method.render ++ " " ++ HttpTarget.render call.path ++ " HTTP/1.1",
    "host: " ++ host.render,
    "authorization: " ++ request.authorization,
    "accept: */*",
    "connection: close"]
  match call.body with
  | none => headText general
  | some body =>
      let text := body.render
      headText (general ++ [
        "content-type: application/json",
        "content-length: " ++ toString text.utf8ByteSize]) ++ text

/-- The bytes up to a line end, and those behind it. -/
def takeLine : List UInt8 → Option (List UInt8 × List UInt8)
  | 13 :: 10 :: rest => some ([], rest)
  | byte :: rest =>
      (takeLine rest).map fun (line, rest) => (byte :: line, rest)
  | [] => none

/-- A line of text in lower case. -/
def lineText (line : List UInt8) : String :=
  String.ofList (line.map fun byte => (Char.ofNat byte.toNat).toLower)

/-- At most a number of lines up to an empty one, and the bytes behind it. -/
def takeLines : Nat → List UInt8 → Option (List String × List UInt8)
  | 0, _ => none
  | count + 1, bytes => do
      let (line, rest) ← takeLine bytes
      if line.isEmpty then
        return ([], rest)
      else
        let (lines, rest) ← takeLines count rest
        return (lineText line :: lines, rest)

/-- The value of a header, without blanks at its ends. -/
def header? (lines : List String) (name : String) : Option String :=
  lines.findSome? fun line =>
    if line.startsWith (name ++ ":") then
      let value := line.toList.drop (name.length + 1)
      let trimmed := value.dropWhile (· = ' ')
      some (String.ofList (trimmed.reverse.dropWhile (· = ' ')).reverse)
    else
      none

/-- The status in the first line of a head. -/
def status? (line : String) : Option Nat :=
  match line.splitOn " " with
  | version :: code :: _ =>
      if version.startsWith "http/1." then code.toNat? else none
  | _ => none

/-- The number in front of a chunk. -/
def chunkSize? (line : List UInt8) : Option Nat :=
  let digits := (lineText line).toList.takeWhile fun c => c ≠ ';' && c ≠ ' '
  if digits.isEmpty then
    none
  else
    digits.foldlM (fun size c => (hexDigit? c).map (size * 16 + ·)) 0

/-- At most a number of chunks put together. -/
def joinChunks : Nat → List UInt8 → Option (List UInt8)
  | 0, _ => none
  | count + 1, bytes => do
      let (line, rest) ← takeLine bytes
      let size ← chunkSize? line
      if size = 0 then
        return []
      else if rest.length < size then
        none
      else
        let others ← joinChunks count (rest.drop (size + 2))
        return rest.take size ++ others

/-- The bytes of a body, none if some are missing. -/
def bodyBytes? (lines : List String) (rest : List UInt8) : Option (List UInt8) :=
  if header? lines "transfer-encoding" = some "chunked" then
    joinChunks (rest.length + 1) rest
  else
    match (header? lines "content-length").bind String.toNat? with
    | some size => if rest.length < size then none else some (rest.take size)
    | none => some rest

/-- The text of a body. A body that is no text is empty, and so is not understood. -/
def bodyText (bytes : Option (List UInt8)) : String :=
  match bytes with
  | some bytes => (String.fromUTF8? ⟨bytes.toArray⟩).getD ""
  | none => ""

/-- What comes of a request that everything was read for up to the end. -/
def outcome (bytes : List UInt8) : HttpOutcome :=
  match takeLines (bytes.length + 1) bytes with
  | none => .unreachable "the answer has no head"
  | some (lines, rest) =>
      match lines.head?.bind status? with
      | some status => .answered status (bodyText (bodyBytes? lines rest))
      | none => .unreachable "the answer has no status"

end HttpWire

end GraphGate
