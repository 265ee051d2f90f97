import GraphGate.Proofs.Storage.Sharing
import GraphGate.Storage.Http.Client
import Mathlib.Data.List.Rotate

namespace GraphGate

/-!
# Searching for a server

A call is sent to one server after another until one of them is reached. Servers
may behave in any way, so a search is described by its exchanges: the requests in
order, each with what came of it. They determine the result, which is that of the
last exchange.
-/

/-- A request with what came of it. -/
structure HttpExchange where
  request : HttpRequest
  outcome : HttpOutcome

/-- No server was reached. -/
def HttpOutcome.IsUnreachable (outcome : HttpOutcome) : Prop :=
  ∃ detail, outcome = .unreachable detail

namespace HttpExchange

/-- Servers answer in any way, and every exchange is written down. -/
def recorded :
    Dialogue.Answering HttpRequest (fun _ => HttpOutcome) (List HttpExchange) :=
  fun earlier request outcome all => all = earlier ++ [⟨request, outcome⟩]

/-- What is returned for an exchange: who answered and what, or the failure. -/
def result (exchange : HttpExchange) : Except TransportError (String × Json) :=
  (HttpClient.payload exchange.request.endpoint exchange.outcome).map
    fun body => (exchange.request.endpoint, body)

end HttpExchange

namespace HttpClient

open Dialogue HttpExchange

variable {client : HttpClient} {call : HttpCall} {last : TransportError}
variable {endpoints : List String} {exchanges earlier all : List HttpExchange}
variable {result : Except TransportError (String × Json)}

/-- What a server answers is not a failure to connect. -/
theorem payload_answered_ne_connection
    {endpoint other detail text : String}
    {status : Nat} :
    payload endpoint (.answered status text) ≠
      .error (.connection other detail) := by
  simp only [payload, serverError]
  cases Json.parse? text with
  | none =>
      simp
  | some body =>
      cases HttpStatus.isSuccess status <;> simp

/-- Not to be reached is the only way to fail to connect. -/
theorem result_eq_connection_iff
    {exchange : HttpExchange}
    {endpoint detail : String} :
    exchange.result = .error (.connection endpoint detail) ↔
      endpoint = exchange.request.endpoint ∧
        exchange.outcome = .unreachable detail := by
  obtain ⟨request, outcome⟩ := exchange
  cases outcome with
  | unreachable cause =>
      simp only [HttpExchange.result, payload, Except.map, Except.error.injEq,
        TransportError.connection.injEq, HttpOutcome.unreachable.injEq, eq_comm]
  | answered status text =>
      have answers :=
        @payload_answered_ne_connection request.endpoint endpoint detail text
          status
      cases told : payload request.endpoint (.answered status text) with
      | ok body =>
          simp [HttpExchange.result, told, Except.map]
      | error cause =>
          rw [told] at answers
          simpa [HttpExchange.result, told, Except.map] using answers

/--
A server that is not reached leaves the search to the others, and the answer of
one that is reached is the result.
-/
theorem sendToFirst_cons
    (client : HttpClient)
    (call : HttpCall)
    (last : TransportError)
    (endpoint : String)
    (others : List String) :
    client.sendToFirst call last (endpoint :: others) =
      .ask (client.request endpoint call) fun outcome =>
        match outcome with
        | .unreachable detail =>
            client.sendToFirst call (.connection endpoint detail) others
        | .answered status text =>
            .done (HttpExchange.result
              ⟨client.request endpoint call, .answered status text⟩) := by
  change Dialogue.bind (client.sendTo call endpoint) _ = _
  simp only [sendTo, bind_ask, bind_done]
  congr 1
  funext outcome
  cases outcome with
  | unreachable detail =>
      rfl
  | answered status text =>
      have answers (other detail : String) :=
        @payload_answered_ne_connection endpoint other detail text status
      simp only [HttpExchange.result, request]
      cases told : payload endpoint (.answered status text) with
      | ok body =>
          rfl
      | error cause =>
          cases cause with
          | connection other detail =>
              exact absurd told (answers other detail)
          | config _ | server _ _ _ | invalidResponse _ =>
              rfl

/--
A call is sent to servers one after another, with these exchanges and this result.
The first failure is the one that is returned if there is no server.
-/
inductive Searches (client : HttpClient) (call : HttpCall) :
    TransportError → List String → List HttpExchange →
      Except TransportError (String × Json) → Prop where
  | nobody {last : TransportError} :
      Searches client call last [] [] (.error last)
  | reached
      {last : TransportError}
      {endpoint : String}
      {others : List String}
      {outcome : HttpOutcome} :
      ¬ outcome.IsUnreachable →
      Searches client call last (endpoint :: others)
        [⟨client.request endpoint call, outcome⟩]
        (HttpExchange.result ⟨client.request endpoint call, outcome⟩)
  | onward
      {last : TransportError}
      {endpoint detail : String}
      {others : List String}
      {exchanges : List HttpExchange}
      {result : Except TransportError (String × Json)} :
      Searches client call (.connection endpoint detail) others exchanges
        result →
      Searches client call last (endpoint :: others)
        (⟨client.request endpoint call, .unreachable detail⟩ :: exchanges)
        result

/-- The dialogue of a search is held in just the ways in which servers are searched. -/
theorem ends_sendToFirst_iff :
    Ends recorded earlier (client.sendToFirst call last endpoints) result all ↔
      ∃ exchanges,
        all = earlier ++ exchanges ∧
          Searches client call last endpoints exchanges result := by
  -- Each server that is not reached adds an exchange and is the failure so far.
  induction endpoints generalizing last earlier with
  | nil =>
      simp only [sendToFirst]
      constructor
      · rintro ⟨⟩
        exact ⟨[], (List.append_nil _).symm, .nobody⟩
      · rintro ⟨exchanges, rfl, ⟨⟩⟩
        rw [List.append_nil]
        exact .done _ _
  | cons endpoint others inductionHypothesis =>
      rw [sendToFirst_cons, ends_ask_iff]
      constructor
      · rintro ⟨outcome, left, rfl, ends⟩
        cases outcome with
        | unreachable detail =>
            obtain ⟨exchanges, rfl, searches⟩ := inductionHypothesis.1 ends
            exact ⟨_, List.append_assoc _ _ _, .onward searches⟩
        | answered status text =>
            obtain ⟨rfl, rfl⟩ := ends_done_iff.1 ends
            exact ⟨_, rfl, .reached fun ⟨_, same⟩ => by contradiction⟩
      · rintro ⟨exchanges, rfl, searches⟩
        cases searches with
        | @reached _ _ _ outcome isReached =>
            refine ⟨outcome, _, rfl, ?_⟩
            cases outcome with
            | unreachable detail =>
                exact absurd ⟨detail, rfl⟩ isReached
            | answered status text =>
                exact .done _ _
        | @onward _ _ detail _ exchanges _ searches =>
            refine ⟨.unreachable detail, _, rfl, inductionHypothesis.2 ?_⟩
            exact ⟨exchanges, (List.append_assoc _ [_] _).symm, searches⟩

/-- Servers are asked in order, and none is left out. -/
theorem Searches.inOrder
    (searches : Searches client call last endpoints exchanges result) :
    exchanges.map HttpExchange.request <+:
      endpoints.map fun endpoint => client.request endpoint call := by
  induction searches with
  | nobody =>
      exact List.prefix_rfl
  | reached =>
      exact List.prefix_append [_] _
  | onward _ inductionHypothesis =>
      exact List.cons_prefix_cons.2 ⟨rfl, inductionHypothesis⟩

/-- A search goes on only after a server that was not reached. -/
theorem Searches.unreached
    (searches : Searches client call last endpoints exchanges result) :
    ∀ exchange ∈ exchanges.dropLast, exchange.outcome.IsUnreachable := by
  induction searches with
  | nobody | reached =>
      simp
  | @onward last endpoint detail others exchanges _ _ inductionHypothesis =>
      intro exchange isEarlier
      cases exchanges with
      | nil =>
          simp at isEarlier
      | cons second rest =>
          rw [List.dropLast_cons_cons, List.mem_cons] at isEarlier
          rcases isEarlier with rfl | isLater
          · exact ⟨detail, rfl⟩
          · exact inductionHypothesis exchange isLater

/-- The result of a search is that of its last exchange. -/
theorem Searches.returned
    (searches : Searches client call last endpoints exchanges result) :
    result =
      (exchanges.getLast?.map HttpExchange.result).getD (.error last) := by
  induction searches with
  | nobody | reached =>
      rfl
  | @onward last endpoint detail others exchanges _ _ inductionHypothesis =>
      rw [inductionHypothesis]
      cases exchanges with
      | nil =>
          rfl
      | cons second rest =>
          rw [List.getLast?_cons_cons]
          simp [List.getLast?_cons]

/-- A search that reaches nobody has asked everyone. -/
theorem Searches.exhausted
    (searches : Searches client call last endpoints exchanges result)
    (unreachable : ∀ exchange ∈ exchanges, exchange.outcome.IsUnreachable) :
    exchanges.length = endpoints.length := by
  induction searches with
  | nobody =>
      rfl
  | reached isReached =>
      exact absurd (unreachable _ List.mem_cons_self) isReached
  | onward _ inductionHypothesis =>
      rw [List.length_cons, List.length_cons, inductionHypothesis]
      intro exchange isLater
      exact unreachable exchange (List.mem_cons_of_mem _ isLater)

/-- Servers that can be asked are asked. -/
theorem Searches.exchanges_ne_nil
    (searches : Searches client call last endpoints exchanges result)
    (filled : endpoints ≠ []) :
    exchanges ≠ [] := by
  cases searches with
  | nobody =>
      exact absurd rfl filled
  | reached | onward =>
      exact List.cons_ne_nil _ _

end HttpClient

end GraphGate
