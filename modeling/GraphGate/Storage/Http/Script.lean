import GraphGate.Storage.Http.Network

namespace GraphGate

/-!
# Scripted servers

Servers whose replies are written down beforehand. A server that is up takes
every request down, and gives one reply after another, then always an empty
object. Nobody else is reached, and nothing takes any time.
-/

/-- A server with the replies that it has left. -/
structure ScriptedServer where
  /-- The base of all URLs on the server. -/
  endpoint : String
  /-- Whether connections are accepted. -/
  up : Bool
  replies : List HttpOutcome
deriving Repr, DecidableEq

/-- The reply of a server that has none left. -/
def ScriptedServer.lastReply : HttpOutcome :=
  .answered 200 "\x7b\x7d"

/-- Why a server is not reached. -/
def ScriptedServer.refusal : String := "connection refused"

/-- Scripted servers, and the requests that reached them. -/
structure ScriptedNetwork where
  servers : List ScriptedServer
  /-- The requests in order, each with the place of its server. -/
  requests : List (Nat × HttpRequest)
deriving Repr

namespace ScriptedNetwork

/-- The servers with the next reply of one of them taken. -/
def takeReply (servers : List ScriptedServer) (place : Nat) :
    HttpOutcome × List ScriptedServer :=
  match servers[place]? with
  | none => (ScriptedServer.lastReply, servers)
  | some server =>
      match server.replies with
      | [] => (ScriptedServer.lastReply, servers)
      | reply :: rest =>
          (reply, servers.set place { server with replies := rest })

/-- The place of the server that accepts connections at an endpoint. -/
def placeOf? (network : ScriptedNetwork) (endpoint : String) : Option Nat :=
  network.servers.findIdx? fun server =>
    server.up && server.endpoint = endpoint

/-- Answers a request. -/
def answer (request : HttpRequest) : StateM ScriptedNetwork HttpOutcome :=
  fun network =>
    match network.placeOf? request.endpoint with
    | none => (.unreachable ScriptedServer.refusal, network)
    | some place =>
        let (reply, servers) := takeReply network.servers place
        (reply, ⟨servers, network.requests ++ [(place, request)]⟩)

/-- Answers requests from the scripts. -/
def network : HttpNetwork (StateM ScriptedNetwork) where
  answer := answer
  within := fun _ act => return some (← act)

end ScriptedNetwork

end GraphGate
