import GraphGate.Storage.Error
import GraphGate.TextReader

namespace GraphGate

/-!
# Host addresses

An entry of the host list is a name without colons, a colon, and a port in
decimal digits of any number.
-/

/-- A host with a port. -/
structure HostAddress where
  host : String
  port : UInt16
deriving Repr, DecidableEq

namespace HostAddress

/-- The address as it is written in settings. -/
def render (address : HostAddress) : String :=
  address.host ++ ":" ++ toString address.port.toNat

/-- The base of all URLs on a host. -/
def baseUrl (useSsl : Bool) (address : HostAddress) : String :=
  (if useSsl then "https" else "http") ++ "://" ++ address.render

/-- The port written by decimal digits, if there are any and it is in range. -/
def port? (digits : List Char) : Option UInt16 :=
  if digits.isEmpty || !digits.all Char.isDigit then
    none
  else
    let value := digitsValue digits
    if value < 65536 then some (UInt16.ofNat value) else none

/-- The address that an entry gives. -/
def parse? (text : String) : Option HostAddress :=
  let host := text.toList.takeWhile (· ≠ ':')
  match text.toList.drop host.length with
  | ':' :: digits =>
      if host.isEmpty then
        none
      else
        (port? digits).map fun port => ⟨String.ofList host, port⟩
  | _ => none

/-- The host at the start of URLs without encryption. -/
def ofUrl? (url : String) : Option HostAddress :=
  let scheme := "http://"
  if url.startsWith scheme then
    parse? (String.ofList (url.toList.drop scheme.length))
  else
    none

/-- The address that an entry gives, or the defect of the entry. -/
def parse (text : String) : Except ConfigError HostAddress :=
  match parse? text with
  | some address => .ok address
  | none => .error (.invalidHost text)

/-- The addresses of a list of entries, or the defect of the first bad one. -/
def parseAll (texts : List String) : Except ConfigError (List HostAddress) :=
  texts.mapM parse

end HostAddress

end GraphGate
