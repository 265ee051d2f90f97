import GraphGate.Proofs.Storage.Holdings
import GraphGate.Proofs.Storage.Http.Failover
import GraphGate.Proofs.Storage.Http.PlainTargets
import GraphGate.Storage.Http.Network

namespace GraphGate

/-!
# Servers that hold databases

Servers that answer calls about databases, collections and indexes as the database
documents it, over whatever state they have. What they do is assumed. How a call
is sent, which server is asked, and how the answer is read is up to the client,
and here is what comes of it.
-/

open HttpTarget

/-! ## Messages -/

/-- A request as it reaches a server. -/
structure ServerMessage where
  method : HttpMethod
  target : String
  body : Option Json

/-- What a server is sent for a call. -/
def HttpCall.message (call : HttpCall) : ServerMessage :=
  ⟨call.method, render call.path, call.body⟩

/-- A call about databases, collections and indexes with plain names. -/
def Command.IsPlain : Command → Prop
  | .createDatabase name => HttpTarget.IsPlainName name
  | .collectionKind database name
  | .createCollection database name _
  | .ensureIndex database name _ =>
      HttpTarget.IsPlainName database ∧ HttpTarget.IsPlainName name
  | .query _ _ _ => False

namespace ServerMessage

/-- The messages that servers take for calls with plain names, as documented. -/
inductive Means : ServerMessage → Command → Prop where
  | createDatabase {name : String} :
      IsPlainName name →
      Means
        ⟨.post, "/_db/_system/_api/database",
          some (.object [("name", .string name)])⟩
        (.createDatabase name)
  | collectionKind {database name : String} :
      IsPlainName database → IsPlainName name →
      Means
        ⟨.get, "/_db/" ++ database ++ "/_api/collection/" ++ name, none⟩
        (.collectionKind database name)
  | createCollection {database name : String} {kind : CollectionKind} :
      IsPlainName database → IsPlainName name →
      Means
        ⟨.post, "/_db/" ++ database ++ "/_api/collection",
          some (.object
            [("name", .string name), ("type", .nat kind.typeCode)])⟩
        (.createCollection database name kind)
  | ensureIndex {database name : String} {index : IndexSpec} :
      IsPlainName database → IsPlainName name →
      Means
        ⟨.post, "/_db/" ++ database ++ "/_api/index?collection=" ++ name,
          some (.object [
            ("type", .string index.kind.render),
            ("fields", .array (index.fields.map Json.string)),
            ("unique", .bool index.unique),
            ("sparse", .bool index.sparse)])⟩
        (.ensureIndex database name index)

end ServerMessage

/-- A path in a database of a plain name is sent as it is. -/
theorem render_databasePath
    {database tail : String}
    {names : List (List Char)}
    {query : List Char}
    (plainDatabase : IsPlainName database)
    (isTail : '/' :: tail.toList = pathOf names ++ query)
    (plain : ∀ name ∈ names, IsPlainSegment name)
    (plainQuery : IsPlainQuery query) :
    render (databasePath database ++ tail) = databasePath database ++ tail := by
  have isPath :
      (databasePath database ++ tail).toList =
        pathOf ("_db".toList :: database.toList :: "_api".toList :: names) ++
          query := by
    rw [pathOf, List.flatMap_cons, List.flatMap_cons, List.flatMap_cons, ← pathOf,
      List.append_assoc, List.append_assoc, List.append_assoc, ← isTail]
    simp [databasePath]
  refine render_of_plain isPath (List.cons_ne_nil _ _) ?_ plainQuery
  intro name member
  rcases List.mem_cons.mp member with rfl | member
  · decide
  · rcases List.mem_cons.mp member with rfl | member
    · exact plainDatabase.2
    · rcases List.mem_cons.mp member with rfl | member
      · decide
      · exact plain name member

/-- Plain names are sent as they are, so that the server knows what is meant. -/
theorem Command.IsPlain.means_message
    {command : Command}
    (plain : command.IsPlain) :
    command.httpCall.message.Means command := by
  cases command with
  | createDatabase name =>
      have target :
          render (databasePath systemDatabase ++ "database") =
            "/_db/_system/_api/database" :=
        @render_databasePath systemDatabase "database" ["database".toList] []
          (by decide) (by decide) (by decide) (.inl rfl)
      rw [HttpCall.message, httpCall, target]
      exact .createDatabase plain
  | collectionKind database name =>
      have target :
          render (databasePath database ++ "collection/" ++ name) =
            "/_db/" ++ database ++ "/_api/collection/" ++ name := by
        rw [String.append_assoc,
          @render_databasePath database ("collection/" ++ name)
            ["collection".toList, name.toList] [] plain.1 (by simp [pathOf])
            (by simpa using ⟨by decide, plain.2.2⟩) (.inl rfl)]
        exact String.toList_inj.mp (by simp [databasePath])
      rw [HttpCall.message, httpCall, target]
      exact .collectionKind plain.1 plain.2
  | createCollection database name kind =>
      have target :
          render (databasePath database ++ "collection") =
            "/_db/" ++ database ++ "/_api/collection" := by
        rw [@render_databasePath database "collection" ["collection".toList] []
            plain.1 (by decide) (by decide) (.inl rfl)]
        simp [databasePath, String.append_assoc]
      rw [HttpCall.message, httpCall, target]
      exact .createCollection plain.1 plain.2
  | ensureIndex database name index =>
      have plainQuery :
          IsPlainQuery ('?' :: ("collection".toList ++ '=' :: name.toList)) :=
        .inr ⟨_, _, rfl, by decide, plain.2.2⟩
      have target :
          render (databasePath database ++ "index?collection=" ++ name) =
            "/_db/" ++ database ++ "/_api/index?collection=" ++ name := by
        rw [String.append_assoc,
          @render_databasePath database ("index?collection=" ++ name)
            ["index".toList] _ plain.1 (by simp [pathOf]) (by decide) plainQuery]
        exact String.toList_inj.mp (by simp [databasePath])
      rw [HttpCall.message, httpCall, target]
      exact .ensureIndex plain.1 plain.2
  | query database aql limit =>
      exact plain.elim

/-! ## Servers -/

/-- An answer of success or failure, with a body. -/
def HttpOutcome.Tells
    (outcome : HttpOutcome)
    (success : Bool)
    (body : Json) : Prop :=
  ∃ status text,
    outcome = .answered status text ∧ HttpStatus.isSuccess status = success ∧
      Json.parse? text = some body

/-- The state of servers that answer messages. -/
abbrev Serving (σ : Type) : Type := σ → ServerMessage → HttpOutcome × σ

/--
Servers answer as the database documents it. What they keep besides databases,
collections and indexes is up to them, as long as there is a system database.
-/
structure Serves {σ : Type} (serve : Serving σ) (holdings : σ → Holdings) :
    Prop where
  /-- A call is refused with an error that has a number. -/
  refused {state : σ} {message : ServerMessage} {command : Command} {number : Int} :
    (holdings state).hasDatabase systemDatabase = true →
    message.Means command →
    (holdings state).refusal? command = some number →
      ∃ body,
        (serve state message).1.Tells false body ∧
          body.member? "errorNum" = some (.int number)
  /-- Else it succeeds, and the description of a collection has the code of its kind. -/
  accepted {state : σ} {message : ServerMessage} {command : Command} :
    (holdings state).hasDatabase systemDatabase = true →
    message.Means command →
    (holdings state).refusal? command = none →
      ∃ body,
        (serve state message).1.Tells true body ∧
          ∀ database name kind,
            command = .collectionKind database name →
            (holdings state).kind? database name = some kind →
              body.member? "type" = some (.nat kind.typeCode)
  kept {state : σ} {message : ServerMessage} {command : Command} :
    (holdings state).hasDatabase systemDatabase = true →
    message.Means command →
      holdings (serve state message).2 = (holdings state).after command

/-- Servers with one state, some of which are reached. -/
def deployment {σ : Type} (serve : Serving σ) (reaches : String → Bool) :
    HttpNetwork (StateM σ) where
  answer request state :=
    if reaches request.endpoint then
      serve state request.call.message
    else
      (.unreachable "nobody is there", state)
  within := fun _ act => some <$> act

namespace HttpClient

open Dialogue

variable {σ : Type} {serve : Serving σ} {reaches : String → Bool}
variable {client : HttpClient} {call : HttpCall} {last : TransportError}
variable {endpoints : List String} {state : σ} {outcome : HttpOutcome}
variable {body : Json} {success : Bool} {number : Int} {endpoint : String}

theorem payload_of_success (tells : outcome.Tells true body) :
    payload endpoint outcome = .ok body := by
  obtain ⟨status, text, rfl, succeeded, isBody⟩ := tells
  simp [payload, isBody, succeeded]

/-- An error is told by its number, if that is one of those of calls that are refused. -/
theorem payload_of_failure
    (tells : outcome.Tells false body)
    (isNumber : body.member? "errorNum" = some (.int number))
    (fits : Integer64.isSigned number = true) :
    ∃ code detail, payload endpoint outcome = .error (.server code number detail) := by
  obtain ⟨status, text, rfl, failed, isBody⟩ := tells
  refine ⟨status,
    ((body.member? "errorMessage").bind Json.string?).getD
      (standardMessage status), ?_⟩
  simp only [payload, isBody, failed, serverError, isNumber, Option.bind_some,
    Json.int, Json.signed?, fits, if_true, Option.getD_some, Bool.false_eq_true,
    if_false]

/-- A search goes on behind a server that is not reached. -/
theorem runM_sendToFirst_of_unreachable
    {answer : HttpRequest → StateM σ HttpOutcome}
    {detail : String}
    {left : σ}
    (missed :
      answer (client.request endpoint call) state = (.unreachable detail, left)) :
    (client.sendToFirst call last (endpoint :: endpoints)).runM answer state =
      (client.sendToFirst call (.connection endpoint detail) endpoints).runM
        answer left := by
  rw [sendToFirst_cons]
  simp only [Dialogue.runM, bind, StateT.bind, missed]

/-- A search ends with the answer of a server that is reached. -/
theorem runM_sendToFirst_of_answered
    {answer : HttpRequest → StateM σ HttpOutcome}
    {status : Nat}
    {text : String}
    {left : σ}
    (answered :
      answer (client.request endpoint call) state =
        (.answered status text, left)) :
    (client.sendToFirst call last (endpoint :: endpoints)).runM answer state =
      (HttpExchange.result ⟨client.request endpoint call, .answered status text⟩,
        left) := by
  rw [sendToFirst_cons]
  simp only [Dialogue.runM, bind, StateT.bind, answered]
  rfl

/-- A search among servers some of which are reached has the answer of one of these. -/
theorem runM_sendToFirst
    (reached : ∃ endpoint ∈ endpoints, reaches endpoint = true)
    (tells : (serve state call.message).1.Tells success body) :
    ∃ endpoint,
      (client.sendToFirst call last endpoints).runM
          (deployment serve reaches).answer state =
        (HttpExchange.result
            ⟨client.request endpoint call, (serve state call.message).1⟩,
          (serve state call.message).2) := by
  induction endpoints generalizing last with
  | nil =>
      obtain ⟨endpoint, isEndpoint, -⟩ := reached
      cases isEndpoint
  | cons endpoint others inductionHypothesis =>
      cases isReached : reaches endpoint with
      | true =>
          obtain ⟨status, text, tellsText, -, -⟩ := tells
          have answered :
              (deployment serve reaches).answer (client.request endpoint call)
                  state =
                (.answered status text, (serve state call.message).2) := by
            rw [← tellsText]
            exact if_pos isReached
          refine ⟨endpoint, ?_⟩
          rw [runM_sendToFirst_of_answered answered, tellsText]
      | false =>
          have missed :
              (deployment serve reaches).answer (client.request endpoint call)
                  state =
                (.unreachable "nobody is there", state) :=
            if_neg (by simp [request, isReached])
          have otherReached : ∃ endpoint ∈ others, reaches endpoint = true := by
            obtain ⟨found, isEndpoint, foundReached⟩ := reached
            rcases List.mem_cons.mp isEndpoint with rfl | isOther
            · rw [isReached] at foundReached
              cases foundReached
            · exact ⟨found, isOther, foundReached⟩
          rw [runM_sendToFirst_of_unreachable missed]
          exact inductionHypothesis otherReached

/-- A call has the answer of the servers, whichever of them is reached. -/
theorem runM_perform_deployment
    (command : Command)
    (reached : ∃ endpoint ∈ client.endpoints, reaches endpoint = true)
    (tells :
      (serve state command.httpCall.message).1.Tells success body) :
    ∃ endpoint,
      (client.perform command).runM (deployment serve reaches).answer state =
        ((command.progress
            (HttpExchange.result
              ⟨client.request endpoint command.httpCall,
                (serve state command.httpCall.message).1⟩),
          client.advance),
        (serve state command.httpCall.message).2) := by
  have attempted : ∃ endpoint ∈ client.attempts, reaches endpoint = true := by
    obtain ⟨endpoint, isEndpoint, isReached⟩ := reached
    exact ⟨endpoint, client.attempts_perm.mem_iff.mpr isEndpoint, isReached⟩
  obtain ⟨endpoint, searched⟩ :=
    @runM_sendToFirst σ serve reaches client command.httpCall noEndpoints
      client.attempts state body success attempted tells
  refine ⟨endpoint, ?_⟩
  have performed :
      client.perform command =
        ((client.sendToFirst command.httpCall noEndpoints client.attempts).bind
          fun result => .done (result, client.advance)).bind
            fun sent => .done (command.progress sent.1, sent.2) :=
    rfl
  rw [performed, Dialogue.runM_bind, Dialogue.runM_bind]
  change
    (fun ended : Except TransportError (String × Json) × σ =>
        ((command.progress ended.1, client.advance), ended.2))
      ((client.sendToFirst command.httpCall noEndpoints client.attempts).runM
        (deployment serve reaches).answer state) = _
  rw [searched]

end HttpClient

/-! ## Answers of servers -/

/-- The description of a collection tells its kind by a code. -/
theorem CollectionKind.ofDescription_of_typeCode
    {kind : CollectionKind}
    {body : Json}
    (name : String)
    (isCode : body.member? "type" = some (.nat kind.typeCode)) :
    ofDescription name body = .ok kind := by
  cases kind <;> simp [ofDescription, isCode] <;> rfl

namespace Serves

variable {σ : Type} {serve : Serving σ} {holdings : σ → Holdings}
variable {reaches : String → Bool} {client : HttpClient} {state : σ}
variable {command : Command}

/-- Servers answer every call with plain names. -/
theorem exists_tells
    (serves : Serves serve holdings)
    (hasSystem : (holdings state).hasDatabase systemDatabase = true)
    (plain : command.IsPlain) :
    ∃ success body,
      (serve state command.httpCall.message).1.Tells success body := by
  cases isRefusal : (holdings state).refusal? command with
  | some number =>
      obtain ⟨body, tells, -⟩ :=
        serves.refused hasSystem plain.means_message isRefusal
      exact ⟨false, body, tells⟩
  | none =>
      obtain ⟨body, tells, -⟩ :=
        serves.accepted hasSystem plain.means_message isRefusal
      exact ⟨true, body, tells⟩

/-- The number of a refusal is that of the error which the client gets. -/
theorem result_of_refusal
    {number : Int}
    (serves : Serves serve holdings)
    (hasSystem : (holdings state).hasDatabase systemDatabase = true)
    (plain : command.IsPlain)
    (isRefusal : (holdings state).refusal? command = some number)
    (request : HttpRequest) :
    ∃ code detail,
      HttpExchange.result
          ⟨request, (serve state command.httpCall.message).1⟩ =
        .error (.server code number detail) := by
  obtain ⟨body, tells, isNumber⟩ :=
    serves.refused hasSystem plain.means_message isRefusal
  have fits : Integer64.isSigned number = true := by
    rcases Holdings.refusal?_cases isRefusal with rfl | rfl | rfl <;> decide
  obtain ⟨code, detail, failed⟩ :=
    @HttpClient.payload_of_failure _ body number request.endpoint tells isNumber
      fits
  refine ⟨code, detail, ?_⟩
  rw [HttpExchange.result, failed]
  rfl

/-- What servers answer to a call tells how it ends. -/
theorem result_endsAs
    (serves : Serves serve holdings)
    (hasSystem : (holdings state).hasDatabase systemDatabase = true)
    (plain : command.IsPlain)
    (request : HttpRequest) :
    EndsAs ((holdings state).refusal? command)
      ((HttpExchange.result
        ⟨request, (serve state command.httpCall.message).1⟩).map fun _ => ()) := by
  cases isRefusal : (holdings state).refusal? command with
  | some number =>
      obtain ⟨code, detail, failed⟩ :=
        serves.result_of_refusal hasSystem plain isRefusal request
      rw [failed]
      exact ⟨code, detail, rfl⟩
  | none =>
      obtain ⟨body, tells, -⟩ :=
        serves.accepted hasSystem plain.means_message isRefusal
      rw [HttpExchange.result, HttpClient.payload_of_success tells]
      rfl

/-- The kind of a collection is told as it is, and none in a database that is not there. -/
theorem progress_collectionKind
    {database name : String}
    (serves : Serves serve holdings)
    (hasSystem : (holdings state).hasDatabase systemDatabase = true)
    (plain : (Command.collectionKind database name).IsPlain)
    (request : HttpRequest) :
    (Command.collectionKind database name).progress
        (HttpExchange.result
          ⟨request, (serve state
            (Command.collectionKind database name).httpCall.message).1⟩) =
      .finished (.ok
        (if (holdings state).hasDatabase database then
          (holdings state).kind? database name
        else
          none)) := by
  cases isRefusal :
      (holdings state).refusal? (.collectionKind database name) with
  | some number =>
      obtain ⟨code, detail, failed⟩ :=
        serves.result_of_refusal hasSystem plain isRefusal request
      rw [failed]
      rcases Holdings.refusal?_collectionKind_eq_some isRefusal with
        ⟨noDatabase, rfl⟩ | ⟨there, missing, rfl⟩
      · rw [noDatabase]
        rfl
      · rw [there, missing]
        rfl
  | none =>
      obtain ⟨body, tells, describes⟩ :=
        serves.accepted hasSystem plain.means_message isRefusal
      obtain ⟨there, kind, isKind⟩ :=
        Holdings.refusal?_collectionKind_eq_none isRefusal
      have described :=
        CollectionKind.ofDescription_of_typeCode name
          (describes database name kind rfl isKind)
      rw [HttpExchange.result, HttpClient.payload_of_success tells, if_pos there,
        isKind]
      simp only [Command.progress, Except.map, described]

end Serves

/-! ## A server -/

/-- The index that a body describes. -/
def IndexSpec.ofJson? : Json → Option IndexSpec
  | .object
      [("type", .string kind), ("fields", .array fields), ("unique", .bool unique),
        ("sparse", .bool sparse)] =>
      ([IndexKind.persistent, .fulltext, .geo].find? (·.render = kind)).map
        fun kind => ⟨kind, fields.filterMap Json.string?, unique, sparse⟩
  | _ => none

theorem IndexSpec.ofJson?_toJson (index : IndexSpec) :
    ofJson? index.toJson = some index := by
  obtain ⟨kind, fields, unique, sparse⟩ := index
  have isFields : (fields.map Json.string).filterMap Json.string? = fields := by
    rw [List.filterMap_map]
    exact List.filterMap_some
  cases kind <;> simp [toJson, ofJson?, IndexKind.render, isFields]

namespace ServerMessage

/-- What a server is to do in a database, from the last part of a target and a body. -/
def commandIn? (database : String) (object : List Char) (body : Json) :
    Option Command :=
  if object = "database".toList then do
    let name ← (body.member? "name").bind Json.string?
    return .createDatabase name
  else if object = "collection".toList then do
    let name ← (body.member? "name").bind Json.string?
    let code ← (body.member? "type").bind Json.unsigned?
    let kind ← CollectionKind.ofTypeCode? code
    return .createCollection database name kind
  else do
    let index ← IndexSpec.ofJson? body
    let name := object.drop "index?collection=".length
    return .ensureIndex database (String.ofList name) index

/-- What a server takes a message for. -/
def command? (message : ServerMessage) : Option Command :=
  match segments message.target.toList, message.body with
  | [_, _, database, _, object], some body =>
      commandIn? (String.ofList database) object body
  | [_, _, database, _, _, name], none =>
      some (.collectionKind (String.ofList database) (String.ofList name))
  | _, _ => none

/-- The parts of a target in a database of a plain name. -/
theorem segments_target
    {database target : String}
    {names : List (List Char)}
    (plainDatabase : IsPlainName database)
    (isPath :
      target.toList =
        pathOf ("_db".toList :: database.toList :: "_api".toList :: names))
    (areSegments : ∀ name ∈ names, IsSegment name) :
    segments target.toList =
      [] :: "_db".toList :: database.toList :: "_api".toList :: names := by
  rw [isPath, segments_pathOf (List.cons_ne_nil _ _)]
  simp only [List.forall_mem_cons]
  exact ⟨by decide, isSegment_of_plain plainDatabase.2, by decide, areSegments⟩

/-- Every message is taken for the call that it means. -/
theorem command?_of_means
    {message : ServerMessage}
    {command : Command}
    (means : message.Means command) :
    message.command? = some command := by
  cases means with
  | createDatabase plain =>
      have targetSegments :=
        @segments_target systemDatabase "/_db/_system/_api/database"
          ["database".toList] (by decide) (by decide) (by decide)
      simp only [command?, targetSegments, commandIn?]
      rfl
  | @collectionKind database name plainDatabase plainName =>
      have targetSegments :=
        @segments_target database
          ("/_db/" ++ database ++ "/_api/collection/" ++ name)
          ["collection".toList, name.toList] plainDatabase (by simp [pathOf])
          (List.forall_mem_cons.mpr
            ⟨by decide, List.forall_mem_singleton.mpr
              (isSegment_of_plain plainName.2)⟩)
      simp only [command?, targetSegments, String.ofList_toList]
  | @createCollection database name kind plainDatabase plainName =>
      have targetSegments :=
        @segments_target database ("/_db/" ++ database ++ "/_api/collection")
          ["collection".toList] plainDatabase (by simp [pathOf]) (by decide)
      simp only [command?, targetSegments, String.ofList_toList, commandIn?]
      cases kind <;> rfl
  | @ensureIndex database name index plainDatabase plainName =>
      have isSetting : IsSegment "index?collection=".toList := by
        decide
      have targetSegments :=
        @segments_target database
          ("/_db/" ++ database ++ "/_api/index?collection=" ++ name)
          ["index?collection=".toList ++ name.toList] plainDatabase
          (by simp [pathOf])
          (List.forall_mem_singleton.mpr
            (List.forall_mem_append.mpr
              ⟨isSetting, isSegment_of_plain plainName.2⟩))
      have isIndex := index.ofJson?_toJson
      rw [IndexSpec.toJson] at isIndex
      have isName :
          ("index?collection=".toList ++ name.toList).drop
              "index?collection=".length =
            name.toList := by
        rw [← String.length_toList, List.drop_left]
      simp only [command?, targetSegments, String.ofList_toList, commandIn?,
        isIndex, isName]
      rw [if_neg (by simp), if_neg (by simp)]
      rfl

end ServerMessage

/-- The answer to a call that is refused. -/
def refusal : Int → HttpOutcome
  | 1207 =>
      .answered 409 "\x7b\"error\":true,\"code\":409,\"errorNum\":1207\x7d"
  | 1203 =>
      .answered 404 "\x7b\"error\":true,\"code\":404,\"errorNum\":1203\x7d"
  | _ =>
      .answered 404 "\x7b\"error\":true,\"code\":404,\"errorNum\":1228\x7d"

/-- The answer to a call that is carried out, which may describe a collection. -/
def acceptance : Option CollectionKind → HttpOutcome
  | some .document => .answered 200 "\x7b\"error\":false,\"type\":2\x7d"
  | some .edge => .answered 200 "\x7b\"error\":false,\"type\":3\x7d"
  | none => .answered 201 "\x7b\"error\":false\x7d"

/-- The kind of the collection that a call asks about. -/
def Holdings.described? (holdings : Holdings) : Command → Option CollectionKind
  | .collectionKind database name => holdings.kind? database name
  | _ => none

/-- A server that keeps nothing but databases, collections and indexes. -/
def plainServer : Serving Holdings :=
  fun holdings message =>
    match message.command? with
    | none => (.answered 404 "\x7b\x7d", holdings)
    | some command =>
        let outcome :=
          match holdings.refusal? command with
          | some number => refusal number
          | none => acceptance (holdings.described? command)
        (outcome, holdings.after command)

/-- What is told of a call that is refused. -/
def refusalBody (status : Nat) (number : Int) : Json :=
  .object [
    ("error", .bool true), ("code", .nat status), ("errorNum", .int number)]

/-- What is told of a collection. -/
def collectionBody (kind : CollectionKind) : Json :=
  .object [("error", .bool false), ("type", .nat kind.typeCode)]

theorem tells_refusal
    {number : Int}
    (isOne : number = 1207 ∨ number = 1203 ∨ number = 1228) :
    ∃ body,
      (refusal number).Tells false body ∧
        body.member? "errorNum" = some (.int number) := by
  rcases isOne with rfl | rfl | rfl
  · exact ⟨refusalBody 409 1207, ⟨409, _, rfl, rfl, by decide +kernel⟩, rfl⟩
  · exact ⟨refusalBody 404 1203, ⟨404, _, rfl, rfl, by decide +kernel⟩, rfl⟩
  · exact ⟨refusalBody 404 1228, ⟨404, _, rfl, rfl, by decide +kernel⟩, rfl⟩

theorem tells_acceptance (kind? : Option CollectionKind) :
    ∃ body,
      (acceptance kind?).Tells true body ∧
        ∀ kind, kind? = some kind →
          body.member? "type" = some (.nat kind.typeCode) := by
  cases kind? with
  | none =>
      exact ⟨.object [("error", .bool false)],
        ⟨201, _, rfl, rfl, by decide +kernel⟩, nofun⟩
  | some kind =>
      cases kind with
      | document =>
          exact ⟨collectionBody .document,
            ⟨200, _, rfl, rfl, by decide +kernel⟩, by rintro kind ⟨⟩; rfl⟩
      | edge =>
          exact ⟨collectionBody .edge,
            ⟨200, _, rfl, rfl, by decide +kernel⟩, by rintro kind ⟨⟩; rfl⟩

/-- The server answers as the database documents it. -/
theorem serves_plainServer : Serves plainServer id where
  refused {state message command number} _ means isRefusal := by
    rw [id_eq] at isRefusal
    simp only [plainServer, ServerMessage.command?_of_means means, isRefusal]
    exact tells_refusal (Holdings.refusal?_cases isRefusal)
  accepted {state message command} _ means isAccepted := by
    rw [id_eq] at isAccepted
    simp only [plainServer, ServerMessage.command?_of_means means, isAccepted]
    obtain ⟨body, tells, describes⟩ :=
      tells_acceptance (state.described? command)
    refine ⟨body, tells, ?_⟩
    rintro database name kind rfl isKind
    exact describes kind isKind
  kept {state message command} _ means := by
    simp only [plainServer, ServerMessage.command?_of_means means]
    rfl

end GraphGate
