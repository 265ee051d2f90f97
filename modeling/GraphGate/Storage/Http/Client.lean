import GraphGate.Base64
import GraphGate.Config.Settings
import GraphGate.Json.Parser
import GraphGate.Storage.Http.Body
import GraphGate.Storage.Http.Exchange
import GraphGate.Storage.Http.Status

namespace GraphGate

/-!
# The client

A client knows the servers of a deployment. A request goes to one of them, chosen
by the load balancing strategy, and to the next ones in a circle as long as none
is reached. Any answer ends the search, be it an error of the server.
-/

/-- The servers of a deployment, and which of them is next. -/
structure HttpClient where
  /-- The bases of the servers' URLs. -/
  endpoints : List String
  strategy : LoadBalancing
  /-- The place of the server that is tried first where they do not take turns. -/
  primary : Nat
  /-- The number of requests so far where the servers take turns. -/
  turn : UInt64
  useSsl : Bool
  /-- The header that tells who is calling. -/
  authorization : String
  /-- The milliseconds that a request may take. -/
  timeout : Option Nat
deriving Repr

namespace HttpClient

/-- The header for a user; without a password nothing follows the colon. -/
def basicAuthorization (user : String) (password : Option String) : String :=
  "Basic " ++ Base64.encodeText (user ++ ":" ++ password.getD "")

/-- The place of the server that is tried first, from a number that was drawn. -/
def drawnPlace (strategy : LoadBalancing) (draw count : Nat) : Nat :=
  match strategy with
  | .oneRandom => draw % count
  | .none | .roundRobin => 0

/-- A client for the hosts in the settings, and a number that was drawn. -/
def ofSettings (settings : ConnectionSettings) (draw : Nat) :
    Except TransportError HttpClient :=
  match settings.hostAddresses with
  | .error cause => .error (.config cause)
  | .ok hosts => .ok {
      endpoints := hosts.map (HostAddress.baseUrl settings.useSsl)
      strategy := settings.loadBalancing
      primary := drawnPlace settings.loadBalancing draw hosts.length
      turn := 0
      useSsl := settings.useSsl
      authorization := basicAuthorization settings.user settings.password
      timeout := limitOfMilliseconds settings.timeout
    }

/-- The place of the server that the next request tries first. -/
def firstPlace (client : HttpClient) : Nat :=
  match client.strategy with
  | .roundRobin => client.turn.toNat % client.endpoints.length
  | .none | .oneRandom => client.primary

/-- The servers in a circle from a place. -/
def circle (endpoints : List String) (first : Nat) : List String :=
  (List.range endpoints.length).filterMap fun step =>
    endpoints[(first + step) % endpoints.length]?

/-- The servers in the order in which the next request tries them. -/
def attempts (client : HttpClient) : List String :=
  circle client.endpoints client.firstPlace

/-- The client after one more request. -/
def advance (client : HttpClient) : HttpClient :=
  match client.strategy with
  | .roundRobin => { client with turn := client.turn + 1 }
  | .none | .oneRandom => client

/-- The message of an error where the server gives none. -/
def standardMessage (status : Nat) : String :=
  (HttpStatus.reasonPhrase? status).getD "unknown error"

/-- The error that a server answers with. -/
def serverError (status : Nat) (body : Json) : TransportError :=
  .server status
    (((body.member? "errorNum").bind Json.signed?).getD 0)
    (((body.member? "errorMessage").bind Json.string?).getD
      (standardMessage status))

/-- What is wrong with a body that is not JSON. -/
def notJson : String := "the body is not JSON"

/-- What is wrong with a body that lists no endpoints. -/
def notEndpoints : String := "the body lists no endpoints"

/-- The body of a successful answer. -/
def payload (endpoint : String) : HttpOutcome → Except TransportError Json
  | .unreachable detail => .error (.connection endpoint detail)
  | .answered status text =>
      match Json.parse? text with
      | none => .error (.invalidResponse notJson)
      | some body =>
          if HttpStatus.isSuccess status then
            .ok body
          else
            .error (serverError status body)

/-- A call on its way to a server. -/
def request (client : HttpClient) (endpoint : String) (call : HttpCall) :
    HttpRequest where
  endpoint := endpoint
  authorization := client.authorization
  timeout := client.timeout
  call := call

/-- Sends a call to one server. -/
def sendTo (client : HttpClient) (call : HttpCall) (endpoint : String) :
    HttpDialogue (Except TransportError Json) :=
  .ask (client.request endpoint call) fun outcome =>
    .done (payload endpoint outcome)

/-- The failure where there is no server to try. -/
def noEndpoints : TransportError :=
  .invalidResponse "no endpoints configured"

/--
Sends a call to servers one after another until one is reached, and tells which.
The last failure to reach one is the failure of the whole.
-/
def sendToFirst (client : HttpClient) (call : HttpCall) (last : TransportError) :
    List String → HttpDialogue (Except TransportError (String × Json))
  | [] => return .error last
  | endpoint :: others => do
      match ← client.sendTo call endpoint with
      | .ok body => return .ok (endpoint, body)
      | .error (.connection endpoint detail) =>
          client.sendToFirst call (.connection endpoint detail) others
      | .error cause => return .error cause

/-- Sends a call, and tells which server answered. -/
def send (client : HttpClient) (call : HttpCall) :
    HttpDialogue (Except TransportError (String × Json) × HttpClient) := do
  let result ← client.sendToFirst call noEndpoints client.attempts
  return (result, client.advance)

/-! ## The servers of a cluster -/

/-- The call for the servers of a cluster. -/
def endpointsCall : HttpCall :=
  ⟨.get, "/_api/cluster/endpoints", none⟩

theorem length_sub_lt_of_isPrefixOf
    {word text : List Char}
    (starts : word ≠ [] ∧ word.isPrefixOf text = true) :
    text.length - word.length < text.length := by
  have shorter := (List.isPrefixOf_iff_prefix.1 starts.2).length_le
  have filled := List.length_pos_iff.2 starts.1
  omega

/-- A text without a word that it may start with, even more than once. -/
def stripRepeated (word : List Char) (text : List Char) : List Char :=
  if starts : word ≠ [] ∧ word.isPrefixOf text = true then
    have := length_sub_lt_of_isPrefixOf starts
    stripRepeated word (text.drop word.length)
  else
    text
termination_by text.length

/-- The schemes that reported endpoints may start with, in the order they are taken off. -/
def reportedSchemes : List String :=
  ["tcp://", "ssl://", "http://", "https://"]

/-- The address in a reported endpoint, none for one of another form. -/
def reportedAddress? (endpoint : String) : Option HostAddress :=
  let text :=
    reportedSchemes.foldl
      (fun text scheme => stripRepeated scheme.toList text)
      endpoint.toList
  HostAddress.parse? (String.ofList text)

/-- The client for reported endpoints, unchanged if none of them is understood. -/
def withReported (client : HttpClient) (reported : List String) : HttpClient :=
  match reported.filterMap reportedAddress? with
  | [] => client
  | addresses =>
      { client with
        endpoints := addresses.map (HostAddress.baseUrl client.useSsl)
        primary := 0 }

/--
Replaces the servers by those that the cluster reports. A server that is not
part of a cluster answers with an error, which changes nothing.
-/
def acquireHostList (client : HttpClient) :
    HttpDialogue (Except TransportError Unit × HttpClient) := do
  match ← client.send endpointsCall with
  | (.ok (_, body), client) =>
      match ClusterReport.endpoints? body with
      | some reported => return (.ok (), client.withReported reported)
      | none => return (.error (.invalidResponse notEndpoints), client)
  | (.error (.server _ _ _), client) => return (.ok (), client)
  | (.error cause, client) => return (.error cause, client)

/-- A client for the settings, which may say to ask for the servers of the cluster. -/
def connect (settings : ConnectionSettings) (draw : Nat) :
    HttpDialogue (Except TransportError HttpClient) :=
  match ofSettings settings draw with
  | .error cause => return .error cause
  | .ok client =>
      if settings.acquireHostList then do
        match ← client.acquireHostList with
        | (.ok (), client) => return .ok client
        | (.error cause, _) => return .error cause
      else
        return .ok client

end HttpClient

end GraphGate
