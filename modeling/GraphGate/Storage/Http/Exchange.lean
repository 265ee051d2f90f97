import GraphGate.Json.Basic
import GraphGate.Storage.Dialogue

namespace GraphGate

/-!
# Requests and their outcomes

What is sent to a server, and what comes of it. Whoever answers such questions
opens connections, keeps them and closes them.
-/

/-- What is to be done with what a path names. -/
inductive HttpMethod where
  | get
  | post
  | put
deriving Repr, DecidableEq

/-- The method as it is sent. -/
def HttpMethod.render : HttpMethod → String
  | .get => "GET"
  | .post => "POST"
  | .put => "PUT"

/-- What is asked of a server, whichever it is. -/
structure HttpCall where
  method : HttpMethod
  /-- The path and what follows it, before it is percent-encoded. -/
  path : String
  body : Option Json
deriving Repr

/-- A call for one server. -/
structure HttpRequest where
  /-- The base of all URLs on the server. -/
  endpoint : String
  /-- The header that tells who is calling. -/
  authorization : String
  /-- The milliseconds until the server counts as unreachable. -/
  timeout : Option Nat
  call : HttpCall
deriving Repr

/-- What comes of a request. -/
inductive HttpOutcome where
  /-- No connection, or none that lasts until there is an answer. -/
  | unreachable (detail : String)
  | answered (status : Nat) (body : String)
deriving Repr, DecidableEq

/-- Requests one after another. -/
abbrev HttpDialogue := Dialogue HttpRequest fun _ => HttpOutcome

end GraphGate
