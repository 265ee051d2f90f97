import GraphGate.Proofs.Storage.Http.Searching
import GraphGate.Proofs.Success
import GraphGate.Storage.Http.Call
import Mathlib.Data.List.Perm.Subperm
import Mathlib.Data.Nat.ModEq

namespace GraphGate.HttpClient

/-!
# Failing over

A client is made from settings, and from then on sends calls and takes over the
servers that a cluster reports, in any order and whatever the servers do. All the
while it knows at least one server, the place it starts from is in range, and a
call goes round the servers in a circle, to each of them at most once, until one
is reached.
-/

open Dialogue HttpExchange

variable {settings : ConnectionSettings} {draw count : Nat}
variable {client after : HttpClient} {call : HttpCall}
variable {exchanges : List HttpExchange}
variable {result : Except TransportError (String × Json)}
variable {acquired : Except TransportError Unit}

/-! ## The circle -/

/-- The place of the server that the next request tries after a number of others. -/
def place (client : HttpClient) (step : Nat) : Nat :=
  (client.firstPlace + step) % client.endpoints.length

theorem circle_eq_rotate (endpoints : List String) (first : Nat) :
    circle endpoints first = endpoints.rotate first := by
  -- No place of the circle is out of range, so no server is passed over.
  have everyone :
      (List.range endpoints.length).map
          (fun step => endpoints[(first + step) % endpoints.length]?) =
        (endpoints.rotate first).map some := by
    apply List.ext_getElem
    · simp
    · intro step inRange _
      have isStep : step < endpoints.length := by
        simpa using inRange
      rw [List.getElem_map, List.getElem_map, List.getElem_range,
        List.getElem_rotate, Nat.add_comm first step]
      exact List.getElem?_eq_getElem _
  calc
    circle endpoints first =
        ((List.range endpoints.length).map
          (fun step =>
            endpoints[(first + step) % endpoints.length]?)).filterMap id := by
      rw [List.filterMap_map]
      rfl
    _ = endpoints.rotate first := by
      rw [everyone, List.filterMap_map]
      exact List.filterMap_some

/-- Servers are tried at the places of the circle, all of them in range. -/
theorem getElem?_attempts
    {step : Nat}
    (inRange : step < client.endpoints.length) :
    client.attempts[step]? = client.endpoints[client.place step]? := by
  rw [attempts, circle_eq_rotate, List.getElem?_rotate inRange, place,
    Nat.add_comm]

theorem length_attempts (client : HttpClient) :
    client.attempts.length = client.endpoints.length := by
  rw [attempts, circle_eq_rotate, List.length_rotate]

theorem attempts_perm (client : HttpClient) :
    client.attempts.Perm client.endpoints := by
  rw [attempts, circle_eq_rotate]
  exact List.rotate_perm _ _

/-- The circle does not come back to a place before it is closed. -/
theorem place_injective
    {first second : Nat}
    (firstInRange : first < client.endpoints.length)
    (secondInRange : second < client.endpoints.length)
    (same : client.place first = client.place second) :
    first = second := by
  have congruent : Nat.ModEq client.endpoints.length first second :=
    Nat.ModEq.add_left_cancel' client.firstPlace same
  exact Nat.ModEq.eq_of_lt_of_lt congruent firstInRange secondInRange

/-! ## One request -/

/-- How a call goes round the servers of a client. -/
structure GoesRound
    (client : HttpClient)
    (call : HttpCall)
    (exchanges : List HttpExchange)
    (result : Except TransportError (String × Json)) : Prop where
  /-- The call is sent to the server at the next place of the circle. -/
  inCircle : ∀ step exchange,
    exchanges[step]? = some exchange →
      ∃ endpoint,
        client.endpoints[client.place step]? = some endpoint ∧
          exchange.request = client.request endpoint call
  /-- It is not sent to the same place again. -/
  atMostOnce : ∀ first second,
    first < exchanges.length →
      second < exchanges.length →
        client.place first = client.place second → first = second
  /-- No server is asked more often than it is listed. -/
  withinList :
    (exchanges.map fun exchange => exchange.request.endpoint).Subperm
      client.endpoints
  /-- Another server is asked only where the ones before are not reached. -/
  unreached : ∀ exchange ∈ exchanges.dropLast, exchange.outcome.IsUnreachable
  /-- The result is that of the last server that was asked. -/
  returned : ∃ exchange,
    exchanges.getLast? = some exchange ∧ result = exchange.result
  /-- It is a failure to connect just where all servers were asked and none was reached. -/
  unreachable :
    (∃ endpoint detail, result = .error (.connection endpoint detail)) ↔
      exchanges.length = client.endpoints.length ∧
        ∀ exchange ∈ exchanges, exchange.outcome.IsUnreachable

/-- A call is sent in just the ways in which servers are searched in a circle. -/
theorem ends_send_iff :
    Ends recorded [] (client.send call) (result, after) exchanges ↔
      client.Searches call noEndpoints client.attempts exchanges result ∧
        after = client.advance := by
  change Ends recorded [] (Dialogue.bind _ fun _ => .done _) _ _ ↔ _
  simp only [ends_bind_iff, ends_done_iff, ends_sendToFirst_iff,
    List.nil_append, exists_eq_left', Prod.mk.injEq]
  constructor
  · rintro ⟨_, left, searches, ⟨rfl, isAfter⟩, rfl⟩
    exact ⟨searches, isAfter⟩
  · rintro ⟨searches, isAfter⟩
    exact ⟨result, exchanges, searches, ⟨rfl, isAfter⟩, rfl⟩

/-- Each exchange of a search is with the server at the next place of the circle. -/
theorem inCircle_of_searches
    (searches :
      client.Searches call noEndpoints client.attempts exchanges result)
    {step : Nat}
    {exchange : HttpExchange}
    (isStep : exchanges[step]? = some exchange) :
    ∃ endpoint,
      client.endpoints[client.place step]? = some endpoint ∧
        exchange.request = client.request endpoint call := by
  obtain ⟨rest, isWhole⟩ := searches.inOrder
  have inRange : step < exchanges.length :=
    (List.getElem?_eq_some_iff.mp isStep).1
  have isAttempt :
      (client.attempts.map fun endpoint => client.request endpoint call)[step]? =
        some exchange.request := by
    rw [← isWhole, List.getElem?_append_left (by simpa using inRange),
      List.getElem?_map, isStep]
    rfl
  rw [List.getElem?_map, Option.map_eq_some_iff] at isAttempt
  obtain ⟨endpoint, isThere, isRequest⟩ := isAttempt
  have attempted : step < client.attempts.length :=
    (List.getElem?_eq_some_iff.mp isThere).1
  rw [length_attempts] at attempted
  rw [getElem?_attempts attempted] at isThere
  exact ⟨endpoint, isThere, isRequest.symm⟩

/-- The servers that a search asks are the first ones that were to be tried. -/
theorem endpoints_prefix_of_searches
    (searches :
      client.Searches call noEndpoints client.attempts exchanges result) :
    (exchanges.map fun exchange => exchange.request.endpoint) <+:
      client.attempts := by
  have asked := searches.inOrder.map HttpRequest.endpoint
  rw [List.map_map, List.map_map] at asked
  have same : HttpRequest.endpoint ∘ (client.request · call) = id := rfl
  rw [same, List.map_id] at asked
  exact asked

/-- A search in the circle of its servers goes round them. -/
theorem goesRound_of_searches
    (searches :
      client.Searches call noEndpoints client.attempts exchanges result)
    (filled : client.endpoints ≠ []) :
    client.GoesRound call exchanges result := by
  have asked := endpoints_prefix_of_searches searches
  have bounded : exchanges.length ≤ client.endpoints.length := by
    have shorter := asked.length_le
    rwa [List.length_map, length_attempts] at shorter
  have someone : exchanges ≠ [] := by
    apply searches.exchanges_ne_nil
    rwa [← List.length_pos_iff, length_attempts, List.length_pos_iff]
  have isLast := List.getLast?_eq_some_getLast someone
  have returned : result = (exchanges.getLast someone).result := by
    rw [searches.returned, isLast]
    rfl
  refine {
    inCircle := fun _ _ => inCircle_of_searches searches
    atMostOnce := ?_
    withinList := asked.sublist.subperm.trans client.attempts_perm.subperm
    unreached := searches.unreached
    returned := ⟨_, isLast, returned⟩
    unreachable := ?_
  }
  · intro first second firstAsked secondAsked
    exact place_injective (by omega) (by omega)
  · constructor
    · rintro ⟨endpoint, detail, failed⟩
      rw [returned, result_eq_connection_iff] at failed
      have unreachable :
          ∀ exchange ∈ exchanges, exchange.outcome.IsUnreachable := by
        intro exchange isExchange
        rw [← List.dropLast_append_getLast someone, List.mem_append,
          List.mem_singleton] at isExchange
        rcases isExchange with isEarlier | rfl
        · exact searches.unreached exchange isEarlier
        · exact ⟨detail, failed.2⟩
      refine ⟨?_, unreachable⟩
      rw [searches.exhausted unreachable, length_attempts]
    · rintro ⟨-, unreachable⟩
      obtain ⟨detail, isUnreachable⟩ :=
        unreachable _ (List.getLast_mem someone)
      refine ⟨(exchanges.getLast someone).request.endpoint, detail, ?_⟩
      rw [returned, result_eq_connection_iff]
      exact ⟨rfl, isUnreachable⟩

/-! ## The servers of a cluster -/

/-- The addresses in an answer to the call for the servers of a cluster. -/
def reportedAddresses :
    Except TransportError (String × Json) → List HostAddress
  | .ok (_, body) =>
      ((ClusterReport.endpoints? body).getD []).filterMap reportedAddress?
  | .error _ => []

/-- What becomes of the servers of a client when it asks a cluster for them. -/
structure Acquires
    (client : HttpClient)
    (result : Except TransportError (String × Json))
    (acquired : Except TransportError Unit)
    (after : HttpClient) : Prop where
  /-- Addresses that are reported take the place of the servers, in their order. -/
  replaced :
    reportedAddresses result ≠ [] →
      after.endpoints =
          (reportedAddresses result).map (HostAddress.baseUrl client.useSsl) ∧
        after.primary = 0
  /-- Without any the servers stay as they are. -/
  unchanged :
    reportedAddresses result = [] →
      after.endpoints = client.endpoints ∧ after.primary = client.primary
  /-- No address is taken from an answer that fails. -/
  failed : (∃ cause, acquired = .error cause) → reportedAddresses result = []

@[simp] theorem endpoints_advance (client : HttpClient) :
    client.advance.endpoints = client.endpoints := by
  unfold advance
  split <;> rfl

@[simp] theorem primary_advance (client : HttpClient) :
    client.advance.primary = client.primary := by
  unfold advance
  split <;> rfl

@[simp] theorem strategy_advance (client : HttpClient) :
    client.advance.strategy = client.strategy := by
  cases balanced : client.strategy <;> simp only [advance, balanced]

@[simp] theorem useSsl_advance (client : HttpClient) :
    client.advance.useSsl = client.useSsl := by
  unfold advance
  split <;> rfl

/-- What a client makes of the answer to the call for the servers of a cluster. -/
def heed (client : HttpClient) :
    Except TransportError (String × Json) →
      Except TransportError Unit × HttpClient
  | .ok (_, body) =>
      match ClusterReport.endpoints? body with
      | some reported => (.ok (), client.withReported reported)
      | none => (.error (.invalidResponse notEndpoints), client)
  | .error (.server _ _ _) => (.ok (), client)
  | .error cause => (.error cause, client)

/-- To ask for servers is to send one call and to heed its answer. -/
theorem acquireHostList_eq (client : HttpClient) :
    client.acquireHostList =
      (client.send endpointsCall).bind fun (result, next) =>
        .done (next.heed result) := by
  change Dialogue.bind _ _ = _
  congr 1
  funext answer
  obtain ⟨result, next⟩ := answer
  rcases result with cause | ⟨endpoint, body⟩
  · cases cause <;> rfl
  · simp only [heed]
    cases ClusterReport.endpoints? body <;> rfl

theorem ends_acquireHostList_iff :
    Ends recorded [] client.acquireHostList (acquired, after) exchanges ↔
      ∃ result,
        client.Searches endpointsCall noEndpoints client.attempts exchanges
            result ∧
          client.advance.heed result = (acquired, after) := by
  rw [acquireHostList_eq, ends_bind_iff]
  constructor
  · rintro ⟨⟨result, next⟩, left, sent, ended⟩
    obtain ⟨isAnswer, rfl⟩ := ends_done_iff.mp ended
    obtain ⟨searches, rfl⟩ := ends_send_iff.mp sent
    exact ⟨result, searches, isAnswer.symm⟩
  · rintro ⟨result, searches, isAnswer⟩
    exact ⟨(result, client.advance), exchanges,
      ends_send_iff.mpr ⟨searches, rfl⟩,
      ends_done_iff.mpr ⟨isAnswer.symm, rfl⟩⟩

/-- The client for addresses that were reported, unchanged if there are none. -/
def withAddresses (client : HttpClient) : List HostAddress → HttpClient
  | [] => client
  | first :: others =>
      { client with
        endpoints := (first :: others).map (HostAddress.baseUrl client.useSsl)
        primary := 0 }

/-- Whatever the answer is, the servers change only by the addresses it reports. -/
theorem heed_snd
    (client : HttpClient)
    (result : Except TransportError (String × Json)) :
    (client.heed result).2 = client.withAddresses (reportedAddresses result) := by
  rcases result with cause | ⟨endpoint, body⟩
  · cases cause <;> rfl
  · simp only [heed, reportedAddresses]
    cases ClusterReport.endpoints? body with
    | none =>
        rfl
    | some reported =>
        simp only [withReported, Option.getD_some]
        cases reported.filterMap reportedAddress? <;> rfl

/-- An answer that is refused reports no addresses. -/
theorem reportedAddresses_of_refused
    (refused : ∃ cause, (client.heed result).1 = .error cause) :
    reportedAddresses result = [] := by
  rcases result with cause | ⟨endpoint, body⟩
  · rfl
  · simp only [heed] at refused
    cases isReport : ClusterReport.endpoints? body with
    | none =>
        simp only [reportedAddresses, isReport, Option.getD_none,
          List.filterMap_nil]
    | some reported =>
        simp [isReport] at refused

/-- An answer is heeded by taking over the servers that it reports. -/
theorem acquires_heed
    (client : HttpClient)
    (result : Except TransportError (String × Json)) :
    client.Acquires result (client.heed result).1 (client.heed result).2 := by
  refine { replaced := ?_, unchanged := ?_, failed := reportedAddresses_of_refused }
  · intro filled
    rw [heed_snd]
    cases isReported : reportedAddresses result with
    | nil =>
        exact absurd isReported filled
    | cons first others =>
        exact ⟨rfl, rfl⟩
  · intro nobody
    rw [heed_snd, nobody]
    exact ⟨rfl, rfl⟩

/-- To count a request makes no difference to the servers that are taken over. -/
theorem acquires_advance_iff :
    client.advance.Acquires result acquired after ↔
      client.Acquires result acquired after := by
  constructor
  · rintro ⟨replaced, unchanged, failed⟩
    exact ⟨by simpa using replaced, by simpa using unchanged, failed⟩
  · rintro ⟨replaced, unchanged, failed⟩
    exact ⟨by simpa using replaced, by simpa using unchanged, failed⟩

/-! ## From the settings on -/

/--
A client made from settings, after any number of requests: calls that were sent,
calls that were given up, and calls for the servers of a cluster.
-/
inductive Reached (settings : ConnectionSettings) (draw : Nat) :
    Nat → HttpClient → Prop where
  | new {client : HttpClient} :
      ofSettings settings draw = .ok client →
      Reached settings draw 0 client
  | sent
      {count : Nat}
      {client after : HttpClient}
      {call : HttpCall}
      {exchanges : List HttpExchange}
      {result : Except TransportError (String × Json)} :
      Reached settings draw count client →
      Ends recorded [] (client.send call) (result, after) exchanges →
      Reached settings draw (count + 1) after
  | givenUp {count : Nat} {client : HttpClient} :
      Reached settings draw count client →
      Reached settings draw (count + 1) client.advance
  | acquired
      {count : Nat}
      {client after : HttpClient}
      {exchanges : List HttpExchange}
      {acquired : Except TransportError Unit} :
      Reached settings draw count client →
      Ends recorded [] client.acquireHostList (acquired, after) exchanges →
      Reached settings draw (count + 1) after

/-- A call to the database is one request. -/
theorem Reached.performed
    {command : Command}
    {progress : CallProgress command.Reply}
    (reached : Reached settings draw count client)
    (ends : Ends recorded [] (client.perform command) (progress, after)
      exchanges) :
    Reached settings draw (count + 1) after := by
  change Ends recorded [] (Dialogue.bind (client.send command.httpCall) _) _ _
    at ends
  obtain ⟨⟨result, next⟩, left, sent, ended⟩ := ends_bind_iff.mp ends
  obtain ⟨same, rfl⟩ := ends_done_iff.mp ended
  cases same
  exact reached.sent sent

/-- What holds of a client after a number of requests. -/
structure Stands
    (settings : ConnectionSettings)
    (count : Nat)
    (client : HttpClient) : Prop where
  primary_lt : client.primary < client.endpoints.length
  strategy : client.strategy = settings.loadBalancing
  counted :
    settings.loadBalancing = .roundRobin → client.turn = UInt64.ofNat count

/-- There is a host for every entry of the settings, and one at least. -/
theorem hostAddresses_ne_nil
    {hosts : List HostAddress}
    (read : settings.hostAddresses = .ok hosts) :
    hosts ≠ [] := by
  unfold ConnectionSettings.hostAddresses at read
  split at read
  · cases read
    exact List.cons_ne_nil _ _
  · rename_i given
    have each := Success.mapM_eq_ok_iff.mp read
    rintro rfl
    rw [List.forall₂_nil_right_iff] at each
    simp [each] at given

/-- A new client stands at the place that was drawn, and has sent nothing. -/
theorem stands_new
    (made : ofSettings settings draw = .ok client) :
    client.Stands settings 0 := by
  unfold ofSettings at made
  cases read : settings.hostAddresses with
  | error cause =>
      simp [read] at made
  | ok hosts =>
      rw [read] at made
      cases made
      have filled : 0 < hosts.length :=
        List.length_pos_iff.mpr (hostAddresses_ne_nil read)
      refine ⟨?_, rfl, fun _ => rfl⟩
      rw [List.length_map]
      unfold drawnPlace
      cases settings.loadBalancing with
      | oneRandom =>
          exact Nat.mod_lt _ filled
      | none | roundRobin =>
          exact filled

/-- One more request is counted where the servers take turns. -/
theorem Stands.advance
    (stands : client.Stands settings count) :
    client.advance.Stands settings (count + 1) where
  primary_lt := by
    rw [primary_advance, endpoints_advance]
    exact stands.primary_lt
  strategy := by
    rw [strategy_advance, stands.strategy]
  counted := by
    intro takesTurns
    have counted := stands.counted takesTurns
    rw [← stands.strategy] at takesTurns
    simp only [HttpClient.advance, takesTurns, counted]
    exact (UInt64.ofNat_add count 1).symm

/-- Servers that are taken over are started from anew, and counted on. -/
theorem Stands.heed
    (stands : client.Stands settings count)
    (result : Except TransportError (String × Json)) :
    (client.heed result).2.Stands settings count := by
  rw [heed_snd]
  cases reportedAddresses result with
  | nil =>
      exact stands
  | cons first others =>
      refine ⟨?_, stands.strategy, stands.counted⟩
      simp [withAddresses]

/-- Whatever was sent and whatever the servers did, a client stands well. -/
theorem Reached.stands
    (reached : Reached settings draw count client) :
    client.Stands settings count := by
  induction reached with
  | new made =>
      exact stands_new made
  | sent _ ends inductionHypothesis =>
      obtain ⟨-, rfl⟩ := ends_send_iff.mp ends
      exact inductionHypothesis.advance
  | givenUp _ inductionHypothesis =>
      exact inductionHypothesis.advance
  | @acquired count client _ _ _ _ ends inductionHypothesis =>
      obtain ⟨result, -, isAnswer⟩ := ends_acquireHostList_iff.mp ends
      have heeded := inductionHypothesis.advance.heed result
      rwa [isAnswer] at heeded

/-- The place that the next request starts from is in range. -/
theorem Stands.firstPlace_lt
    (stands : client.Stands settings count) :
    client.firstPlace < client.endpoints.length := by
  have filled : 0 < client.endpoints.length :=
    Nat.zero_lt_of_lt stands.primary_lt
  unfold firstPlace
  cases client.strategy with
  | roundRobin =>
      exact Nat.mod_lt _ filled
  | none | oneRandom =>
      exact stands.primary_lt

/-- Where servers take turns, requests start from one after another, and from the first one again. -/
theorem Stands.firstPlace_eq
    (stands : client.Stands settings count) :
    client.firstPlace =
      if settings.loadBalancing = .roundRobin then
        count % 2 ^ 64 % client.endpoints.length
      else
        client.primary := by
  unfold firstPlace
  rw [stands.strategy]
  cases balanced : settings.loadBalancing with
  | roundRobin =>
      rw [if_pos rfl, stands.counted balanced, UInt64.toNat_ofNat']
  | none | oneRandom =>
      rw [if_neg nofun]

/--
Whatever is sent and whatever the servers do, a client knows at least one server,
and all places that it asks servers at are in range. A request starts from the
place that it is the turn of, counted up to the range of the counter, or from the
primary place, and goes round the servers. The servers are replaced by those that
a cluster reports, and stay as they are where it reports none.
-/
theorem goes_round_servers
    (reached : Reached settings draw count client) :
    client.endpoints ≠ [] ∧
      client.primary < client.endpoints.length ∧
      client.firstPlace < client.endpoints.length ∧
      (∀ step, client.place step < client.endpoints.length) ∧
      (client.firstPlace =
        if settings.loadBalancing = .roundRobin then
          count % 2 ^ 64 % client.endpoints.length
        else
          client.primary) ∧
      (∀ call result after exchanges,
        Ends recorded [] (client.send call) (result, after) exchanges →
          client.GoesRound call exchanges result ∧
            after.endpoints = client.endpoints ∧
            after.primary = client.primary) ∧
      (∀ acquired after exchanges,
        Ends recorded [] client.acquireHostList (acquired, after) exchanges →
          ∃ result,
            client.GoesRound endpointsCall exchanges result ∧
              client.Acquires result acquired after) := by
  have stands := reached.stands
  have filled : client.endpoints ≠ [] :=
    List.length_pos_iff.mp (Nat.zero_lt_of_lt stands.primary_lt)
  refine ⟨filled, stands.primary_lt, stands.firstPlace_lt, ?_,
    stands.firstPlace_eq, ?_, ?_⟩
  · intro step
    exact Nat.mod_lt _ (List.length_pos_iff.mpr filled)
  · intro call result after exchanges ends
    obtain ⟨searches, rfl⟩ := ends_send_iff.mp ends
    exact ⟨goesRound_of_searches searches filled, client.endpoints_advance,
      client.primary_advance⟩
  · intro acquired after exchanges ends
    obtain ⟨result, searches, isAnswer⟩ := ends_acquireHostList_iff.mp ends
    have acquires := client.advance.acquires_heed result
    rw [isAnswer] at acquires
    exact ⟨result, goesRound_of_searches searches filled,
      acquires_advance_iff.mp acquires⟩

/-- Two servers that take turns. -/
def twinSettings : ConnectionSettings :=
  { ConnectionSettings.standard with
    hosts := ["north:1", "south:2"]
    loadBalancing := .roundRobin }

/-- A client of two servers that has sent one request. -/
def twinClient : HttpClient where
  endpoints := ["http://north:1", "http://south:2"]
  strategy := .roundRobin
  primary := 0
  turn := 1
  useSsl := false
  authorization := basicAuthorization "root" none
  timeout := none

/-- Both servers are tried in vain, the second one first. -/
def twinExchanges : List HttpExchange :=
  ["http://south:2", "http://north:1"].map fun endpoint =>
    ⟨twinClient.request endpoint endpointsCall, .unreachable "down"⟩

theorem twins_start_with_the_other :
    Reached twinSettings 0 1 twinClient ∧
      twinClient.firstPlace = 1 ∧
      Ends recorded [] (twinClient.send endpointsCall)
        (.error (.connection "http://north:1" "down"), twinClient.advance)
        twinExchanges ∧
      twinClient.GoesRound endpointsCall twinExchanges
        (.error (.connection "http://north:1" "down")) := by
  have made :
      ofSettings twinSettings 0 = .ok { twinClient with turn := 0 } := rfl
  have reached : Reached twinSettings 0 1 twinClient :=
    (Reached.new made).givenUp
  have circled :
      twinClient.attempts = ["http://south:2", "http://north:1"] := rfl
  have searches :
      twinClient.Searches endpointsCall noEndpoints twinClient.attempts
        twinExchanges (.error (.connection "http://north:1" "down")) := by
    rw [circled]
    exact .onward (.onward .nobody)
  have ends := ends_send_iff.mpr ⟨searches, rfl⟩
  obtain ⟨_, _, _, _, first, sends, _⟩ := goes_round_servers reached
  exact ⟨reached, first.trans rfl, ends, (sends _ _ _ _ ends).1⟩

end GraphGate.HttpClient
