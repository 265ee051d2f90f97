import GraphGate.Proofs.Storage.Http.Failover
import GraphGate.Storage.Http.Network

namespace GraphGate

/-!
# Draining cursors

How many batches a query has is up to the servers, so a query is described by the
replies to its requests, in the order in which they come. It gives records only
if every reply is a batch, and each of them but the last says how to ask for the
next. Servers that were not reached before the query was answered play no part.
-/

/-! ## Replies to a query -/

/-- The batch of records in a reply that is well formed. -/
def HttpOutcome.batch? : HttpOutcome → Option CursorBatch
  | .unreachable _ => none
  | .answered status text =>
      if HttpStatus.isSuccess status then
        (Json.parse? text).bind CursorBatch.ofJson?
      else
        none

namespace CursorBatch

/-- Batches go on up to one that is the last. -/
structure Complete (batches : List CursorBatch) : Prop where
  continued :
    ∀ batch ∈ batches.dropLast, batch.hasMore = true ∧ ∃ id, batch.id = some id
  ended : ∃ last, batches.getLast? = some last ∧ last.hasMore = false

theorem not_complete_nil : ¬ Complete [] := by
  rintro ⟨-, last, isLast, -⟩
  cases isLast

theorem complete_cons_iff {first : CursorBatch} {later : List CursorBatch} :
    Complete (first :: later) ↔
      (first.hasMore = false ∧ later = []) ∨
        (first.hasMore = true ∧ (∃ id, first.id = some id) ∧ Complete later) := by
  cases later with
  | nil =>
      constructor
      · rintro ⟨-, last, isLast, isEnd⟩
        cases isLast
        exact .inl ⟨isEnd, rfl⟩
      · rintro (⟨isEnd, -⟩ | ⟨-, -, complete⟩)
        · exact ⟨by simp, first, rfl, isEnd⟩
        · exact absurd complete not_complete_nil
  | cons second rest =>
      constructor
      · rintro ⟨continued, ended⟩
        rw [List.dropLast_cons_cons] at continued
        rw [List.getLast?_cons_cons] at ended
        obtain ⟨more, hasId⟩ := continued first List.mem_cons_self
        refine .inr ⟨more, hasId, ?_, ended⟩
        exact fun batch member =>
          continued batch (List.mem_cons_of_mem first member)
      · rintro (⟨-, isNil⟩ | ⟨more, hasId, continued, ended⟩)
        · cases isNil
        · refine ⟨?_, by rwa [List.getLast?_cons_cons]⟩
          rw [List.dropLast_cons_cons]
          exact List.forall_mem_cons.mpr ⟨⟨more, hasId⟩, continued⟩

end CursorBatch

open CursorBatch in
/-- Replies that are well formed and give these records, all batches in order. -/
def Drains (replies : List HttpOutcome) (records : List Json) : Prop :=
  ∃ batches : List CursorBatch,
    replies.map HttpOutcome.batch? = batches.map some ∧
      Complete batches ∧
      records = batches.flatMap CursorBatch.records

namespace Drains

variable {reply : HttpOutcome} {replies later : List HttpOutcome}
variable {records : List Json}

theorem not_nil : ¬ Drains [] records := by
  rintro ⟨batches, isBatches, complete, -⟩
  cases List.map_eq_nil_iff.mp isBatches.symm
  exact CursorBatch.not_complete_nil complete

/-- The first reply is the last one, or the others give the records behind its own. -/
theorem cons_iff :
    Drains (reply :: later) records ↔
      ∃ batch,
        reply.batch? = some batch ∧
          ((batch.hasMore = false ∧ later = [] ∧ records = batch.records) ∨
            (batch.hasMore = true ∧ (∃ id, batch.id = some id) ∧
              ∃ further,
                Drains later further ∧ records = batch.records ++ further)) := by
  constructor
  · rintro ⟨batches, isBatches, complete, rfl⟩
    cases batches with
    | nil =>
        exact absurd complete CursorBatch.not_complete_nil
    | cons batch rest =>
        rw [List.map_cons, List.map_cons, List.cons.injEq] at isBatches
        obtain ⟨isBatch, areLater⟩ := isBatches
        refine ⟨batch, isBatch, ?_⟩
        rcases CursorBatch.complete_cons_iff.mp complete with
          ⟨isEnd, rfl⟩ | ⟨more, hasId, complete⟩
        · exact .inl ⟨isEnd, List.map_eq_nil_iff.mp areLater, by simp⟩
        · exact .inr ⟨more, hasId, _, ⟨rest, areLater, complete, rfl⟩, by simp⟩
  · rintro ⟨batch, isBatch, ⟨isEnd, rfl, rfl⟩ |
      ⟨more, hasId, further, ⟨rest, areLater, complete, rfl⟩, rfl⟩⟩
    · exact ⟨[batch], by simp [isBatch],
        CursorBatch.complete_cons_iff.mpr (.inl ⟨isEnd, rfl⟩), by simp⟩
    · exact ⟨batch :: rest, by simp [isBatch, areLater],
        CursorBatch.complete_cons_iff.mpr (.inr ⟨more, hasId, complete⟩),
        by simp⟩

/-- A reply that is not well formed gives no records. -/
theorem exists_batch
    (drains : Drains replies records)
    (member : reply ∈ replies) :
    ∃ batch, reply.batch? = some batch := by
  obtain ⟨batches, isBatches, -, -⟩ := drains
  have isSome : reply.batch? ∈ batches.map some :=
    isBatches ▸ List.mem_map_of_mem member
  obtain ⟨batch, -, isBatch⟩ := List.mem_map.mp isSome
  exact ⟨batch, isBatch.symm⟩

/-- To end in silence does not help. -/
theorem prefix_of_prefix_concat
    {silence : String}
    (drains : Drains replies records)
    (isPrefix : replies <+: later ++ [.unreachable silence]) :
    replies <+: later := by
  rcases List.prefix_concat_iff.mp isPrefix with rfl | isPrefix
  · obtain ⟨batch, isBatch⟩ :=
      drains.exists_batch (List.mem_append_right later List.mem_cons_self)
    cases isBatch
  · exact isPrefix

end Drains

/-! ## What a reply leads to -/

namespace Cursor

variable {endpoint database id : String} {earlier records : List Json}
variable {reply : HttpOutcome} {batch : CursorBatch} {next : Cursor}
variable {replies others : List HttpOutcome} {ids : List String}
variable {result : Except TransportError (List Json)}

/-- Where a query stands after a reply, with the records of earlier ones. -/
def afterReply
    (endpoint database : String)
    (earlier : List Json)
    (reply : HttpOutcome) : CursorProgress :=
  match HttpClient.payload endpoint reply with
  | .ok body => afterBody endpoint database earlier body
  | .error cause => .finished (.error cause)

theorem receive_eq_afterReply (cursor : Cursor) (reply : HttpOutcome) :
    cursor.receive reply =
      afterReply cursor.endpoint cursor.database cursor.records reply :=
  rfl

theorem start_eq_afterReply
    (database : String)
    (request : HttpRequest)
    (reply : HttpOutcome) :
    start database (HttpExchange.result ⟨request, reply⟩) =
      afterReply request.endpoint database [] reply := by
  simp only [HttpExchange.result, afterReply]
  cases HttpClient.payload request.endpoint reply <;> rfl

theorem afterReply_of_batch (isBatch : reply.batch? = some batch) :
    afterReply endpoint database earlier reply =
      afterBatch endpoint database earlier batch := by
  cases reply with
  | unreachable detail =>
      cases isBatch
  | answered status text =>
      simp only [HttpOutcome.batch?, Option.ite_none_right_eq_some,
        Option.bind_eq_some_iff] at isBatch
      obtain ⟨succeeded, body, isBody, isBatch⟩ := isBatch
      simp only [afterReply, HttpClient.payload, isBody, succeeded, if_true,
        afterBody, isBatch]

theorem afterReply_of_no_batch (noBatch : reply.batch? = none) :
    ∃ cause,
      afterReply endpoint database earlier reply = .finished (.error cause) := by
  cases reply with
  | unreachable detail =>
      exact ⟨_, rfl⟩
  | answered status text =>
      simp only [afterReply, HttpClient.payload]
      cases isBody : Json.parse? text with
      | none =>
          exact ⟨_, rfl⟩
      | some body =>
          cases succeeded : HttpStatus.isSuccess status with
          | false =>
              exact ⟨_, rfl⟩
          | true =>
              have noRecords : CursorBatch.ofJson? body = none := by
                simpa [HttpOutcome.batch?, succeeded, isBody] using noBatch
              simp only [if_true, afterBody, noRecords]
              exact ⟨_, rfl⟩

/-- A query goes on exactly after a batch that says that there are more, and how to get them. -/
theorem afterReply_eq_more_iff :
    afterReply endpoint database earlier reply = .more next ↔
      ∃ batch id,
        reply.batch? = some batch ∧ batch.hasMore = true ∧
          batch.id = some id ∧
          next = ⟨endpoint, database, id, earlier ++ batch.records⟩ := by
  cases isBatch : reply.batch? with
  | none =>
      obtain ⟨cause, failed⟩ :=
        @afterReply_of_no_batch endpoint database earlier reply isBatch
      simp [failed]
  | some batch =>
      rw [afterReply_of_batch isBatch]
      simp only [afterBatch]
      cases more : batch.hasMore with
      | false =>
          simp [more]
      | true =>
          cases hasId : batch.id with
          | none =>
              simp [hasId]
          | some id =>
              constructor
              · rintro ⟨⟩
                exact ⟨batch, id, rfl, more, hasId, rfl⟩
              · rintro ⟨_, other, ⟨⟩, -, isId, rfl⟩
                cases hasId.symm.trans isId
                rfl

/-- A query succeeds exactly after a batch that says that it is the last. -/
theorem afterReply_eq_ok_iff :
    afterReply endpoint database earlier reply = .finished (.ok records) ↔
      ∃ batch,
        reply.batch? = some batch ∧ batch.hasMore = false ∧
          records = earlier ++ batch.records := by
  cases isBatch : reply.batch? with
  | none =>
      obtain ⟨cause, failed⟩ :=
        @afterReply_of_no_batch endpoint database earlier reply isBatch
      simp [failed]
  | some batch =>
      rw [afterReply_of_batch isBatch]
      simp only [afterBatch]
      cases more : batch.hasMore with
      | false =>
          constructor
          · rintro ⟨⟩
            exact ⟨batch, rfl, more, rfl⟩
          · rintro ⟨_, ⟨⟩, -, rfl⟩
            rfl
      | true =>
          cases hasId : batch.id with
          | none =>
              simp [more]
          | some id =>
              simp [more]

/-! ## Replies one after another -/

/--
A query with the records of earlier replies gets these replies, with which it
ends. Each of them but the last gives an id that the query goes on with.
-/
inductive Gets (endpoint database : String) :
    List Json → List HttpOutcome → List String →
      Except TransportError (List Json) → Prop where
  | last
      {earlier : List Json}
      {reply : HttpOutcome}
      {result : Except TransportError (List Json)} :
      afterReply endpoint database earlier reply = .finished result →
      Gets endpoint database earlier [reply] [] result
  | more
      {earlier : List Json}
      {reply : HttpOutcome}
      {next : Cursor}
      {replies : List HttpOutcome}
      {ids : List String}
      {result : Except TransportError (List Json)} :
      afterReply endpoint database earlier reply = .more next →
      Gets endpoint database next.records replies ids result →
      Gets endpoint database earlier (reply :: replies) (next.id :: ids) result

namespace Gets

theorem length_replies
    (gets : Gets endpoint database earlier replies ids result) :
    replies.length = ids.length + 1 := by
  induction gets with
  | last =>
      rfl
  | more _ _ inductionHypothesis =>
      rw [List.length_cons, List.length_cons, inductionHypothesis]

/-- Every id comes with the reply in its place. -/
theorem exists_batch_of_id
    (gets : Gets endpoint database earlier replies ids result)
    {place : Nat}
    (isId : ids[place]? = some id) :
    ∃ reply batch,
      replies[place]? = some reply ∧ reply.batch? = some batch ∧
        batch.hasMore = true ∧ batch.id = some id := by
  induction gets generalizing place with
  | last =>
      cases isId
  | more progress _ inductionHypothesis =>
      cases place with
      | zero =>
          obtain ⟨batch, _, isBatch, more, hasId, rfl⟩ :=
            afterReply_eq_more_iff.mp progress
          cases isId
          exact ⟨_, batch, rfl, isBatch, more, hasId⟩
      | succ place =>
          exact inductionHypothesis isId

/-- A query ends with the first reply that it can end with. -/
theorem unique
    {all : List HttpOutcome}
    {otherIds : List String}
    {otherResult : Except TransportError (List Json)}
    (gets : Gets endpoint database earlier replies ids result)
    (getsOthers : Gets endpoint database earlier others otherIds otherResult)
    (isPrefix : replies <+: all)
    (othersPrefix : others <+: all) :
    replies = others ∧ ids = otherIds ∧ result = otherResult := by
  induction gets generalizing others otherIds all with
  | last progress =>
      cases getsOthers with
      | last otherProgress =>
          obtain ⟨_, rfl⟩ := isPrefix
          cases (List.cons_prefix_cons.mp othersPrefix).1
          rw [progress] at otherProgress
          cases otherProgress
          exact ⟨rfl, rfl, rfl⟩
      | more otherProgress _ =>
          obtain ⟨_, rfl⟩ := isPrefix
          cases (List.cons_prefix_cons.mp othersPrefix).1
          rw [progress] at otherProgress
          cases otherProgress
  | more progress _ inductionHypothesis =>
      cases getsOthers with
      | last otherProgress =>
          obtain ⟨_, rfl⟩ := isPrefix
          cases (List.cons_prefix_cons.mp othersPrefix).1
          rw [progress] at otherProgress
          cases otherProgress
      | more otherProgress getsLater =>
          obtain ⟨rest, rfl⟩ := isPrefix
          obtain ⟨same, laterPrefix⟩ := List.cons_prefix_cons.mp othersPrefix
          cases same
          rw [progress] at otherProgress
          cases otherProgress
          obtain ⟨rfl, rfl, rfl⟩ :=
            inductionHypothesis getsLater (List.prefix_append _ rest) laterPrefix
          exact ⟨rfl, rfl, rfl⟩

/-- A query succeeds with replies exactly if they give records, which it returns. -/
theorem ok_iff :
    (∃ ids, Gets endpoint database earlier replies ids (.ok records)) ↔
      ∃ further, Drains replies further ∧ records = earlier ++ further := by
  induction replies generalizing earlier with
  | nil =>
      constructor
      · rintro ⟨ids, ⟨⟩⟩
      · rintro ⟨further, drains, -⟩
        exact absurd drains Drains.not_nil
  | cons reply later inductionHypothesis =>
      simp only [Drains.cons_iff]
      constructor
      · rintro ⟨ids, progress | ⟨progress, gets⟩⟩
        · obtain ⟨batch, isBatch, isEnd, rfl⟩ := afterReply_eq_ok_iff.mp progress
          exact ⟨_, ⟨batch, isBatch, .inl ⟨isEnd, rfl, rfl⟩⟩, rfl⟩
        · obtain ⟨batch, id, isBatch, more, hasId, rfl⟩ :=
            afterReply_eq_more_iff.mp progress
          obtain ⟨further, drains, rfl⟩ := inductionHypothesis.mp ⟨_, gets⟩
          exact ⟨_,
            ⟨batch, isBatch, .inr ⟨more, ⟨id, hasId⟩, further, drains, rfl⟩⟩,
            List.append_assoc ..⟩
      · rintro ⟨_, ⟨batch, isBatch, ⟨isEnd, rfl, rfl⟩ |
          ⟨more, ⟨id, hasId⟩, further, drains, rfl⟩⟩, rfl⟩
        · exact ⟨[], .last
            (afterReply_eq_ok_iff.mpr ⟨batch, isBatch, isEnd, rfl⟩)⟩
        · obtain ⟨ids, gets⟩ :=
            (@inductionHypothesis (earlier ++ batch.records)).mpr
              ⟨further, drains, (List.append_assoc ..).symm⟩
          exact ⟨_, .more
            (afterReply_eq_more_iff.mpr
              ⟨batch, id, isBatch, more, hasId, rfl⟩) gets⟩

/-- A query that succeeds has the records of its replies. -/
theorem drains (gets : Gets endpoint database [] replies ids (.ok records)) :
    Drains replies records := by
  obtain ⟨further, drains, rfl⟩ := ok_iff.mp ⟨ids, gets⟩
  exact drains

/-- If some of the first replies give records, these are the ones that a query gets. -/
theorem eq_of_drains
    {all : List HttpOutcome}
    (gets : Gets endpoint database [] replies ids result)
    (isPrefix : replies <+: all)
    (drains : Drains others records)
    (othersPrefix : others <+: all) :
    others = replies ∧ result = .ok records := by
  obtain ⟨otherIds, getsOthers⟩ := ok_iff.mpr ⟨records, drains, rfl⟩
  obtain ⟨same, -, isResult⟩ := getsOthers.unique gets othersPrefix isPrefix
  exact ⟨same, isResult.symm⟩

/-- No id comes with the reply that a query ends with. -/
theorem getElem?_of_id
    {all : List HttpOutcome}
    {final : HttpOutcome}
    {place : Nat}
    (gets : Gets endpoint database earlier replies ids result)
    (isPrefix : replies <+: all ++ [final])
    (isId : ids[place]? = some id) :
    all[place]? = replies[place]? := by
  have isLength := gets.length_replies
  have inIds : place < ids.length := (List.getElem?_eq_some_iff.mp isId).1
  have notLonger := isPrefix.length_le
  rw [List.length_append, List.length_singleton, isLength] at notLonger
  obtain ⟨rest, isAll⟩ := isPrefix
  calc
    all[place]? = (all ++ [final])[place]? :=
      (List.getElem?_append_left (by omega)).symm
    _ = (replies ++ rest)[place]? := by
      rw [isAll]
    _ = replies[place]? :=
      List.getElem?_append_left (by omega)

end Gets

end Cursor

/-! ## Servers that reply from a tape -/

/-- Replies in the order in which they come, and what was asked so far. -/
structure ReplyTape where
  upcoming : List HttpOutcome
  asked : List HttpRequest
deriving Inhabited

namespace ReplyTape

/-- Gives the next reply to whoever asks. Nobody is reached behind the last one. -/
def answer (silence : String) (request : HttpRequest) :
    StateT ReplyTape Option HttpOutcome :=
  fun tape =>
    some (tape.upcoming.headD (.unreachable silence),
      ⟨tape.upcoming.tail, tape.asked ++ [request]⟩)

/-- Servers that reply from a tape at once. -/
def network (silence : String) : HttpNetwork (StateT ReplyTape Option) where
  answer := answer silence
  within := fun _ act => some <$> act

/-- Makes a query with the replies on a tape. -/
def query
    (tape : ReplyTape)
    (silence : String)
    (client : HttpClient)
    (database : String)
    (aql : AqlQuery)
    (limit : Option Nat) :
    Option ((QueryOutcome × HttpClient) × ReplyTape) :=
  (network silence).finish client (.query database aql limit) tape

/-- A dialogue is held with the replies of its exchanges. -/
theorem runM_of_ends
    {α : Type}
    (silence : String)
    {dialogue : HttpDialogue α}
    {earlier all : List HttpExchange}
    {value : α}
    (ends : Dialogue.Ends HttpExchange.recorded earlier dialogue value all) :
    ∃ exchanges,
      all = earlier ++ exchanges ∧
        ∀ later asked,
          dialogue.runM (answer silence)
              ⟨exchanges.map HttpExchange.outcome ++ later, asked⟩ =
            some (value,
              ⟨later, asked ++ exchanges.map HttpExchange.request⟩) := by
  induction ends with
  | done =>
      exact ⟨[], by simp, fun later asked => by simp [Dialogue.runM]; rfl⟩
  | @ask _ _ _ question reply _ _ answered _ inductionHypothesis =>
      obtain ⟨exchanges, isAll, runs⟩ := inductionHypothesis
      subst answered
      refine ⟨⟨question, reply⟩ :: exchanges, by simp [isAll], fun later asked => ?_⟩
      have goesOn := runs later (asked ++ [question])
      rw [List.append_assoc] at goesOn
      exact goesOn

variable {client : HttpClient} {silence : String}

/-- To drain a cursor is to ask for the next batch, and to go on as the reply says. -/
theorem drain_eq (cursor : Cursor) (tape : ReplyTape) :
    (network silence).drain client cursor tape =
      let left : ReplyTape :=
        ⟨tape.upcoming.tail, tape.asked ++ [client.nextBatch cursor]⟩
      match cursor.receive (tape.upcoming.headD (.unreachable silence)) with
      | .more next => (network silence).drain client next left
      | .finished result => some (result, left) := by
  rw [HttpNetwork.drain, repeatM_eq_of_monadTail]
  have answered :
      (network silence).receiveBatch client cursor tape =
        some
          ((match cursor.receive (tape.upcoming.headD (.unreachable silence)) with
            | .more next => .inl next
            | .finished result => .inr result),
          ⟨tape.upcoming.tail, tape.asked ++ [client.nextBatch cursor]⟩) := by
    change (do
      match cursor.receive (tape.upcoming.headD (.unreachable silence)) with
      | .more next => return .inl next
      | .finished result => return .inr result :
        StateT ReplyTape Option (Cursor ⊕ Except TransportError (List Json)))
        ⟨tape.upcoming.tail, tape.asked ++ [client.nextBatch cursor]⟩ = _
    cases cursor.receive (tape.upcoming.headD (.unreachable silence)) <;> rfl
  change (StateT.bind _ _) tape = _
  rw [StateT.bind, answered]
  cases cursor.receive (tape.upcoming.headD (.unreachable silence)) <;> rfl

/-- Draining asks the server of the cursor for one batch after another. -/
theorem drain_gets (cursor : Cursor) (upcoming : List HttpOutcome) (asked : List HttpRequest) :
    ∃ used ids result,
      Cursor.Gets cursor.endpoint cursor.database cursor.records used ids
          result ∧
        used <+: upcoming ++ [.unreachable silence] ∧
        (network silence).drain client cursor ⟨upcoming, asked⟩ =
          some (result,
            ⟨upcoming.drop used.length,
              asked ++ (cursor.id :: ids).map fun id =>
                client.nextBatch { cursor with id }⟩) := by
  induction upcoming generalizing cursor asked with
  | nil =>
      refine ⟨[.unreachable silence], [], _, .last rfl, List.prefix_rfl, ?_⟩
      rw [drain_eq]
      rfl
  | cons reply later inductionHypothesis =>
      have received := cursor.receive_eq_afterReply reply
      cases progress :
          Cursor.afterReply cursor.endpoint cursor.database cursor.records
            reply with
      | finished result =>
          rw [progress] at received
          refine ⟨[reply], [], result, .last progress, ?_, ?_⟩
          · exact List.cons_prefix_cons.mpr ⟨rfl, List.nil_prefix⟩
          · rw [drain_eq]
            simp [received]
      | more next =>
          obtain ⟨used, ids, result, gets, isPrefix, drained⟩ :=
            inductionHypothesis next (asked ++ [client.nextBatch cursor])
          obtain ⟨batch, id, -, -, -, rfl⟩ :=
            Cursor.afterReply_eq_more_iff.mp progress
          refine ⟨reply :: used, id :: ids, result, .more progress gets, ?_, ?_⟩
          · exact List.cons_prefix_cons.mpr ⟨rfl, isPrefix⟩
          · rw [progress] at received
            rw [drain_eq]
            simp only [List.headD_cons, received, List.tail_cons, drained,
              List.length_cons, List.drop_succ_cons, List.map_cons,
              List.append_assoc, List.singleton_append]
            rfl

end ReplyTape

/-! ## Queries -/

namespace HttpClient

open Dialogue HttpExchange ReplyTape

variable {client : HttpClient} {call : HttpCall} {last : TransportError}
variable {endpoint silence : String} {others : List String}
variable {passed : List (String × String)}
variable {reply : HttpOutcome} {later : List HttpOutcome}

/-- The request that goes on with a query by an id. -/
def continuation (client : HttpClient) (endpoint database id : String) :
    HttpRequest :=
  client.request endpoint
    ⟨.put, databasePath database ++ "cursor/" ++ id, none⟩

/-- To count a request makes no difference to how the next ones are sent. -/
theorem request_advance (client : HttpClient) (endpoint : String) (call : HttpCall) :
    client.advance.request endpoint call = client.request endpoint call := by
  unfold advance
  split <;> rfl

/-- Servers are searched past those that are not reached, each for its reason. -/
theorem Searches.past
    (answered : ¬ reply.IsUnreachable) :
    Searches client call last (passed.map Prod.fst ++ endpoint :: others)
      (passed.map (fun server =>
          ⟨client.request server.1 call, .unreachable server.2⟩) ++
        [⟨client.request endpoint call, reply⟩])
      (HttpExchange.result ⟨client.request endpoint call, reply⟩) := by
  induction passed generalizing last with
  | nil =>
      exact .reached answered
  | cons server rest inductionHypothesis =>
      exact .onward inductionHypothesis

/-- A call is sent to one server after another until one is reached, which answers it. -/
theorem runM_perform
    (command : Command)
    (isAttempts : client.attempts = passed.map Prod.fst ++ endpoint :: others)
    (answered : ¬ reply.IsUnreachable) :
    (client.perform command).runM (answer silence)
        ⟨passed.map (fun server => .unreachable server.2) ++ reply :: later, []⟩ =
      some
        ((command.progress
            (HttpExchange.result
              ⟨client.request endpoint command.httpCall, reply⟩),
          client.advance),
        ⟨later,
          (passed.map Prod.fst ++ [endpoint]).map
            (client.request · command.httpCall)⟩) := by
  have searches :=
    @Searches.past client command.httpCall noEndpoints endpoint others passed
      reply answered
  rw [← isAttempts] at searches
  have performed :
      Ends recorded [] (client.perform command)
        (command.progress
            (HttpExchange.result
              ⟨client.request endpoint command.httpCall, reply⟩),
          client.advance) _ :=
    ends_bind_iff.mpr
      ⟨_, _, ends_send_iff.mpr ⟨searches, rfl⟩, ends_done_iff.mpr ⟨rfl, rfl⟩⟩
  obtain ⟨exchanges, isAll, runs⟩ := runM_of_ends silence performed
  rw [List.nil_append] at isAll
  subst isAll
  simpa [Function.comp_def] using runs later []

theorem query_of_finished
    {tape left : ReplyTape}
    {outcome : QueryOutcome}
    {database : String}
    {aql : AqlQuery}
    {limit : Option Nat}
    (performed :
      (client.perform (.query database aql limit)).runM (answer silence) tape =
        some ((.finished outcome, client.advance), left)) :
    tape.query silence client database aql limit =
      some ((outcome, client.advance), left) := by
  simp only [ReplyTape.query, HttpNetwork.finish, bind, StateT.bind, network,
    performed]
  rfl

theorem query_of_draining
    {tape left final : ReplyTape}
    {cursor : Cursor}
    {outcome : Except TransportError (List Json) → QueryOutcome}
    {result : Except TransportError (List Json)}
    {database : String}
    {aql : AqlQuery}
    {limit : Option Nat}
    (performed :
      (client.perform (.query database aql limit)).runM (answer silence) tape =
        some ((.draining cursor outcome, client.advance), left))
    (drained :
      (network silence).drain client.advance cursor left =
        some (result, final)) :
    tape.query silence client database aql limit =
      some ((outcome result, client.advance), final) := by
  rw [network] at drained
  simp only [ReplyTape.query, HttpNetwork.finish, bind, StateT.bind, network,
    performed, Option.bind_some, HttpNetwork.settle, drained]
  rfl

/-- A query is sent to one server after another, and goes on with the one that is reached. -/
theorem query_gets
    (database : String)
    (aql : AqlQuery)
    (limit : Option Nat)
    (isAttempts : client.attempts = passed.map Prod.fst ++ endpoint :: others)
    (answered : ¬ reply.IsUnreachable) :
    ∃ used ids result,
      Cursor.Gets endpoint database [] used ids result ∧
        used <+: (reply :: later) ++ [.unreachable silence] ∧
        ReplyTape.query
            ⟨passed.map (fun server => .unreachable server.2) ++
              reply :: later, []⟩
            silence client database aql limit =
          some ((.finished result, client.advance),
            ⟨(reply :: later).drop used.length,
              (passed.map Prod.fst ++ [endpoint]).map
                  (client.request · (Command.query database aql limit).httpCall) ++
                ids.map (client.continuation endpoint database)⟩) := by
  have performed :=
    @runM_perform client endpoint silence others passed reply later
      (.query database aql limit) isAttempts answered
  have isProgress :
      (Command.query database aql limit).progress
          (HttpExchange.result
            ⟨client.request endpoint
              (Command.query database aql limit).httpCall, reply⟩) =
        .ofCursor .finished (Cursor.afterReply endpoint database [] reply) :=
    congrArg (CallProgress.ofCursor QueryOutcome.finished)
      (Cursor.start_eq_afterReply database
        (client.request endpoint (Command.query database aql limit).httpCall)
        reply)
  rw [isProgress] at performed
  cases progress : Cursor.afterReply endpoint database [] reply with
  | finished result =>
      rw [progress] at performed
      refine ⟨[reply], [], result, .last progress,
        List.cons_prefix_cons.mpr ⟨rfl, List.nil_prefix⟩, ?_⟩
      simpa using query_of_finished performed
  | more cursor =>
      rw [progress] at performed
      obtain ⟨used, ids, result, gets, isPrefix, drained⟩ :=
        drain_gets cursor later
          ((passed.map Prod.fst ++ [endpoint]).map
            (client.request · (Command.query database aql limit).httpCall))
      obtain ⟨batch, id, -, -, -, rfl⟩ :=
        Cursor.afterReply_eq_more_iff.mp progress
      refine ⟨reply :: used, id :: ids, result, .more progress gets,
        List.cons_prefix_cons.mpr ⟨rfl, isPrefix⟩, ?_⟩
      rw [query_of_draining performed drained]
      simp only [List.length_cons, List.drop_succ_cons, List.map_cons,
        nextBatch, request_advance]
      rfl

/--
A query is sent to one server after another until one is reached. It succeeds
with the replies from there on exactly if they are all well formed, each before
the last says that there are more and how to ask for them, and the last that
there are no more; then it returns the records of all batches in order. It fails
if the replies do not even start like this, also if they stop too early. Every
further request asks the server that was reached for what the reply before it
named, and nobody else is asked, even if that server fails.
-/
theorem query_drains_exactly
    (silence database : String)
    (aql : AqlQuery)
    (limit : Option Nat)
    (later : List HttpOutcome)
    (isAttempts : client.attempts = passed.map Prod.fst ++ endpoint :: others)
    (answered : ¬ reply.IsUnreachable) :
    ∃ (result : Except TransportError (List Json)) (ids : List String),
      ReplyTape.query
          ⟨passed.map (fun server => .unreachable server.2) ++
            reply :: later, []⟩
          silence client database aql limit =
        some ((.finished result, client.advance),
          ⟨later.drop ids.length,
            (passed.map Prod.fst ++ [endpoint]).map
                (client.request · (Command.query database aql limit).httpCall) ++
              ids.map (client.continuation endpoint database)⟩) ∧
      (∀ records,
        result = .ok records ∧ ids.length = later.length ↔
          Drains (reply :: later) records) ∧
      ((∃ cause, result = .error cause) ↔
        ∀ replies records,
          replies <+: reply :: later → ¬ Drains replies records) ∧
      ∀ (place : Nat) (id : String),
        ids[place]? = some id →
          ∃ (before : HttpOutcome) (batch : CursorBatch),
            (reply :: later)[place]? = some before ∧
              before.batch? = some batch ∧ batch.hasMore = true ∧
                batch.id = some id := by
  obtain ⟨used, ids, result, gets, isPrefix, queried⟩ :=
    @query_gets client endpoint silence others passed reply later database aql
      limit isAttempts answered
  have isLength := gets.length_replies
  rw [isLength, List.drop_succ_cons] at queried
  have usedPrefix {records : List Json} (drains : Drains used records) :
      used <+: reply :: later :=
    drains.prefix_of_prefix_concat isPrefix
  refine ⟨result, ids, queried, fun records => ⟨?_, fun drains => ?_⟩,
    ⟨?_, fun unfit => ?_⟩, fun place id isId => ?_⟩
  · rintro ⟨rfl, sameLength⟩
    have isWhole : used = reply :: later :=
      (usedPrefix gets.drains).eq_of_length
        (by rw [isLength, sameLength, List.length_cons])
    rw [← isWhole]
    exact gets.drains
  · obtain ⟨isUsed, succeeded⟩ :=
      gets.eq_of_drains isPrefix drains (List.prefix_append _ _)
    rw [← isUsed, List.length_cons] at isLength
    exact ⟨succeeded, by omega⟩
  · rintro ⟨cause, rfl⟩ replies records repliesPrefix drains
    obtain ⟨-, succeeded⟩ :=
      gets.eq_of_drains isPrefix drains
        (repliesPrefix.trans (List.prefix_append _ _))
    cases succeeded
  · cases result with
    | error cause =>
        exact ⟨cause, rfl⟩
    | ok records =>
        exact absurd gets.drains (unfit used records (usedPrefix gets.drains))
  · obtain ⟨before, batch, isBefore, isBatch, more, hasId⟩ :=
      gets.exists_batch_of_id isId
    exact ⟨before, batch, (gets.getElem?_of_id isPrefix isId).trans isBefore,
      isBatch, more, hasId⟩

/-- A batch that is not the last. -/
def firstBatch : HttpOutcome :=
  .answered 201
    "\x7b\"result\":[\"Rex\"],\"hasMore\":true,\"id\":\"7\"\x7d"

/-- A batch that is the last. -/
def lastBatch : HttpOutcome :=
  .answered 200 "\x7b\"result\":[\"Tom\"],\"hasMore\":false\x7d"

theorem drains_batches :
    Drains [firstBatch, lastBatch] [.string "Rex", .string "Tom"] := by
  have isFirst :
      firstBatch.batch? = some ⟨[.string "Rex"], true, some "7"⟩ := by
    decide +kernel
  have isLast : lastBatch.batch? = some ⟨[.string "Tom"], false, none⟩ := by
    decide +kernel
  refine Drains.cons_iff.mpr ⟨_, isFirst, .inr ⟨rfl, ⟨"7", rfl⟩, _, ?_, rfl⟩⟩
  exact Drains.cons_iff.mpr ⟨_, isLast, .inl ⟨rfl, rfl, rfl⟩⟩

/-- A server that is down plays no part, and the other one is asked for both batches. -/
theorem twins_give_both_batches :
    twinClient.attempts = ["http://south:2", "http://north:1"] ∧
      ¬ firstBatch.IsUnreachable ∧
      ∃ asked,
        ReplyTape.query ⟨[.unreachable "down", firstBatch, lastBatch], []⟩
            "nobody is there" twinClient "zoo" ⟨"FOR a IN animals RETURN a", []⟩
            none =
          some
            ((.finished (.ok [.string "Rex", .string "Tom"]),
              twinClient.advance), ⟨[], asked⟩) ∧
        asked.map HttpRequest.endpoint =
          ["http://south:2", "http://north:1", "http://north:1"] := by
  have circled :
      twinClient.attempts = ["http://south:2", "http://north:1"] := rfl
  have answered : ¬ firstBatch.IsUnreachable := by
    rintro ⟨detail, isUnreachable⟩
    cases isUnreachable
  obtain ⟨result, ids, queried, succeeds, -, -⟩ :=
    @query_drains_exactly twinClient "http://north:1" []
      [("http://south:2", "down")] firstBatch "nobody is there" "zoo"
      ⟨"FOR a IN animals RETURN a", []⟩ none [lastBatch] circled answered
  obtain ⟨rfl, isLength⟩ := (succeeds _).mpr drains_batches
  obtain ⟨id, rfl⟩ := List.length_eq_one_iff.mp isLength
  exact ⟨circled, answered, _, queried, rfl⟩

end HttpClient

end GraphGate
