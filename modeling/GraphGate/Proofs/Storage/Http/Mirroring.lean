import GraphGate.Proofs.Storage.Http.Deployments

namespace GraphGate

/-!
# Servers and a store that holds the same

A store in memory stands in for a deployment of servers. Here the two are
compared: servers that hold the same databases, collections and indexes are
called through a client, and the store is called directly, one call after
another. Both end every call alike and go on holding the same, with one
exception. The kind of a collection in a database that is not there is an error
of the store, while a client of the servers is told that there is no collection.
-/

open HttpTarget

/-! ## Calls to servers and to a store -/

/-- Two calls succeed with the same value, or fail with errors that are told apart alike. -/
inductive EndAlike {α : Type} :
    Except TransportError α → Except TransportError α → Prop where
  | success (value : α) : EndAlike (.ok value) (.ok value)
  | failure {first second : TransportError} :
      first.isDuplicateName = second.isDuplicateName →
      first.isNotFound = second.isNotFound →
      EndAlike (.error first) (.error second)

theorem EndsAs.endAlike
    {refusal? : Option Int}
    {first second : Except TransportError Unit}
    (firstEnds : EndsAs refusal? first)
    (secondEnds : EndsAs refusal? second) :
    EndAlike first second := by
  cases refusal? with
  | some number =>
      obtain ⟨code, detail, rfl⟩ := firstEnds
      obtain ⟨otherCode, otherDetail, rfl⟩ := secondEnds
      exact .failure rfl rfl
  | none =>
      cases firstEnds
      cases secondEnds
      exact .success ()

/-- Two replies to a call are alike. -/
def Command.RepliesAlike :
    (command : Command) → command.Reply → command.Reply → Prop
  | .createDatabase _ | .createCollection _ _ _ | .ensureIndex _ _ _ =>
      @EndAlike Unit
  | .collectionKind _ _ => @EndAlike (Option CollectionKind)
  | .query _ _ _ => Eq

/-- A call asks about a collection in a database that is not there. -/
def MemoryStore.LacksDatabaseOf (store : MemoryStore) : Command → Prop
  | .collectionKind database _ => database ∉ store.databases
  | _ => False

section Calls

variable {σ : Type} {serve : Serving σ} {holdings : σ → Holdings}
variable {reaches : String → Bool} {called : HttpClient × σ}
variable {store : MemoryStore} {command : Command}

/-- A call through a client, with the client and the servers after it. -/
def callServers
    (serve : Serving σ)
    (reaches : String → Bool)
    (called : HttpClient × σ)
    (command : Command) : command.Reply × (HttpClient × σ) :=
  let made := (deployment serve reaches).perform command called.1 called.2
  (made.1.1, made.1.2, made.2)

/-- Servers that a client reaches, and a store that holds the same as they do. -/
structure Mirrors
    (holdings : σ → Holdings)
    (reaches : String → Bool)
    (called : HttpClient × σ)
    (store : MemoryStore) : Prop where
  same : holdings called.2 = store.holdings
  permitted : store.forbidden = []
  hasSystem : systemDatabase ∈ store.databases
  reached : ∃ endpoint ∈ called.1.endpoints, reaches endpoint = true

theorem finish_of_finished
    {network : HttpNetwork (StateM σ)}
    {client after : HttpClient}
    {state left : σ}
    {reply : command.Reply}
    (performed :
      (client.perform command).runM network.answer state =
        ((.finished reply, after), left)) :
    network.finish client command state = ((reply, after), left) := by
  simp only [HttpNetwork.finish, bind, StateT.bind, performed]
  rfl

/-- A call is answered by what the servers make of its message. -/
theorem callServers_eq
    (serves : Serves serve holdings)
    (hasSystem : (holdings called.2).hasDatabase systemDatabase = true)
    (reached : ∃ endpoint ∈ called.1.endpoints, reaches endpoint = true)
    (plain : command.IsPlain) :
    ∃ request,
      ∀ reply,
        command.progress
            (HttpExchange.result
              ⟨request, (serve called.2 command.httpCall.message).1⟩) =
          .finished reply →
        callServers serve reaches called command =
          (reply, called.1.advance,
            (serve called.2 command.httpCall.message).2) := by
  obtain ⟨success, body, tells⟩ := serves.exists_tells hasSystem plain
  obtain ⟨endpoint, performed⟩ :=
    HttpClient.runM_perform_deployment command reached tells
  refine ⟨called.1.request endpoint command.httpCall, fun reply isReply => ?_⟩
  rw [isReply] at performed
  have finished := finish_of_finished performed
  have isFinish :
      (deployment serve reaches).perform command called.1 =
        (deployment serve reaches).finish called.1 command := by
    cases command with
    | query database aql limit =>
        exact plain.elim
    | createDatabase | collectionKind | createCollection | ensureIndex =>
        rfl
  rw [callServers, isFinish, finished]

namespace Mirrors

theorem hasSystem_holdings
    (mirrors : Mirrors holdings reaches called store) :
    (holdings called.2).hasDatabase systemDatabase = true := by
  rw [mirrors.same]
  exact MemoryStore.hasDatabase_holdings.mpr mirrors.hasSystem

/-- A store ends each call as described, and holds what it should afterwards. -/
theorem holdings_answered
    (mirrors : Mirrors holdings reaches called store)
    (plain : command.IsPlain) :
    (store.answered command).2.holdings = store.holdings.after command := by
  cases command with
  | createDatabase name =>
      exact (store.createDatabase_ends name).2
  | collectionKind database name =>
      exact (store.collectionKind_ends database name).2
  | createCollection database name kind =>
      exact (MemoryStore.createCollection_ends database name kind
        mirrors.permitted).2
  | ensureIndex database name index =>
      exact (store.ensureIndex_ends database name index).2
  | query database aql limit =>
      exact plain.elim

/-- What the servers hold stays what the store holds. -/
theorem call
    (serves : Serves serve holdings)
    (mirrors : Mirrors holdings reaches called store)
    (plain : command.IsPlain) :
    Mirrors holdings reaches (callServers serve reaches called command).2
      (store.answered command).2 := by
  obtain ⟨request, answers⟩ :=
    callServers_eq serves mirrors.hasSystem_holdings mirrors.reached plain
  have isFinished :
      ∃ reply,
        command.progress
            (HttpExchange.result
              ⟨request, (serve called.2 command.httpCall.message).1⟩) =
          .finished reply := by
    cases command with
    | query database aql limit =>
        exact plain.elim
    | createDatabase | collectionKind | createCollection | ensureIndex =>
        exact ⟨_, rfl⟩
  obtain ⟨reply, isReply⟩ := isFinished
  have grows := MemoryStore.grows_answer MemoryScript.empty store command
  rw [answers reply isReply]
  refine {
    same := ?_
    permitted := grows.forbidden.trans mirrors.permitted
    hasSystem := grows.databases mirrors.hasSystem
    reached := ?_
  }
  · rw [mirrors.holdings_answered plain, ← mirrors.same]
    exact serves.kept mirrors.hasSystem_holdings plain.means_message
  · rw [HttpClient.endpoints_advance]
    exact mirrors.reached

/-- The kind of a collection comes as the store holds it, and none without its database. -/
theorem collectionKind_called
    {database name : String}
    (serves : Serves serve holdings)
    (mirrors : Mirrors holdings reaches called store)
    (plain : (Command.collectionKind database name).IsPlain) :
    (callServers serve reaches called (.collectionKind database name)).1 =
      (.ok (if database ∈ store.databases then
          store.kind? database name
        else
          none) : Except TransportError (Option CollectionKind)) := by
  obtain ⟨request, answers⟩ :=
    callServers_eq serves mirrors.hasSystem_holdings mirrors.reached plain
  have progress :=
    serves.progress_collectionKind mirrors.hasSystem_holdings plain request
  simp only [mirrors.same, MemoryStore.hasDatabase_holdings] at progress
  rw [answers _ progress]
  rfl

/-- A call is answered alike, unless it asks about a database that is not there. -/
theorem repliesAlike
    (serves : Serves serve holdings)
    (mirrors : Mirrors holdings reaches called store)
    (plain : command.IsPlain)
    (there : ¬ store.LacksDatabaseOf command) :
    command.RepliesAlike (callServers serve reaches called command).1
      (store.answered command).1 := by
  obtain ⟨request, answers⟩ :=
    callServers_eq serves mirrors.hasSystem_holdings mirrors.reached plain
  have ends :=
    serves.result_endsAs mirrors.hasSystem_holdings plain request
  rw [mirrors.same] at ends
  cases command with
  | createDatabase name =>
      rw [answers _ rfl]
      exact ends.endAlike (store.createDatabase_ends name).1
  | collectionKind database name =>
      have isThere : database ∈ store.databases := by
        simpa [MemoryStore.LacksDatabaseOf] using there
      have told :
          (store.answered (.collectionKind database name)).1 =
            (.ok (store.kind? database name) :
              Except TransportError (Option CollectionKind)) :=
        (store.collectionKind_ends database name).1.trans (if_pos isThere)
      rw [mirrors.collectionKind_called serves plain, told, if_pos isThere]
      exact .success _
  | createCollection database name kind =>
      rw [answers _ rfl]
      exact ends.endAlike
        (MemoryStore.createCollection_ends database name kind
          mirrors.permitted).1
  | ensureIndex database name index =>
      rw [answers _ rfl]
      exact ends.endAlike (store.ensureIndex_ends database name index).1
  | query database aql limit =>
      exact plain.elim

/-- In a database that is not there the servers tell no kind, and the store fails. -/
theorem replies_of_missing
    {database name : String}
    (serves : Serves serve holdings)
    (mirrors : Mirrors holdings reaches called store)
    (plain : (Command.collectionKind database name).IsPlain)
    (missing : database ∉ store.databases) :
    (callServers serve reaches called (.collectionKind database name)).1 =
        (.ok none : Except TransportError (Option CollectionKind)) ∧
      (store.answered (.collectionKind database name)).1 =
        (.error (.databaseNotFound database) :
          Except TransportError (Option CollectionKind)) := by
  rw [mirrors.collectionKind_called serves plain, if_neg missing]
  exact ⟨rfl, (store.collectionKind_ends database name).1.trans (if_neg missing)⟩

end Mirrors

/-! ## Calls one after another -/

/-- What becomes of a client and the servers in calls one after another. -/
def afterCalls
    (serve : Serving σ)
    (reaches : String → Bool)
    (called : HttpClient × σ)
    (commands : List Command) : HttpClient × σ :=
  commands.foldl
    (fun called command => (callServers serve reaches called command).2) called

/-- What becomes of a store in calls one after another. -/
def MemoryStore.afterCalls (store : MemoryStore) (commands : List Command) :
    MemoryStore :=
  commands.foldl (fun store command => (store.answered command).2) store

theorem Mirrors.calls
    {commands : List Command}
    (serves : Serves serve holdings)
    (mirrors : Mirrors holdings reaches called store)
    (arePlain : ∀ command ∈ commands, command.IsPlain) :
    Mirrors holdings reaches (afterCalls serve reaches called commands)
      (store.afterCalls commands) := by
  induction commands generalizing called store with
  | nil =>
      exact mirrors
  | cons command commands inductionHypothesis =>
      obtain ⟨isPlain, arePlain⟩ := List.forall_mem_cons.mp arePlain
      exact inductionHypothesis (mirrors.call serves isPlain) arePlain

/--
Servers and a store that hold the same go on holding the same through all calls
with plain names, and end each of them alike: with the same value, or with errors
that agree on what exists already and what does not exist. The only call that
they end differently is one for the kind of a collection in a database that is
not there: the servers' client tells that there is no such collection, and the
store that there is no such database.
-/
theorem store_mirrors_servers
    {earlier : List Command}
    (serves : Serves serve holdings)
    (mirrors : Mirrors holdings reaches called store)
    (arePlain : ∀ command ∈ earlier, command.IsPlain) :
    let calledLater := afterCalls serve reaches called earlier
    let storeLater := store.afterCalls earlier
    holdings calledLater.2 = storeLater.holdings ∧
      (∀ command : Command,
        command.IsPlain → ¬ storeLater.LacksDatabaseOf command →
          command.RepliesAlike (callServers serve reaches calledLater command).1
            (storeLater.answered command).1) ∧
      ∀ database name,
        IsPlainName database → IsPlainName name → database ∉ storeLater.databases →
          (callServers serve reaches calledLater
              (.collectionKind database name)).1 =
              (.ok none : Except TransportError (Option CollectionKind)) ∧
            (storeLater.answered (.collectionKind database name)).1 =
              (.error (.databaseNotFound database) :
                Except TransportError (Option CollectionKind)) := by
  have mirrorsLater := mirrors.calls serves arePlain
  refine ⟨mirrorsLater.same, fun command isPlain there => ?_,
    fun database name plainDatabase plainName missing => ?_⟩
  · exact mirrorsLater.repliesAlike serves isPlain there
  · exact mirrorsLater.replies_of_missing serves ⟨plainDatabase, plainName⟩
      missing

end Calls

/-- Of two servers only the second one is reached. -/
def reachesSouth (endpoint : String) : Bool :=
  endpoint = "http://south:2"

theorem mirrors_fresh :
    Mirrors id reachesSouth
      (HttpClient.twinClient, MemoryStore.fresh.holdings) MemoryStore.fresh where
  same := rfl
  permitted := rfl
  hasSystem := by decide
  reached := ⟨"http://south:2", by decide, by decide⟩

/-- A database, and a collection of edges in it. -/
def zooCalls : List Command :=
  [.createDatabase "zoo", .createCollection "zoo" "keeps" .edge]

/-- A database that was created is refused by both the second time. -/
theorem zoo_refused_by_both :
    Serves plainServer id ∧
      Mirrors id reachesSouth
        (HttpClient.twinClient, MemoryStore.fresh.holdings) MemoryStore.fresh ∧
      (∀ command ∈ zooCalls, command.IsPlain) ∧
      (Command.createDatabase "zoo").RepliesAlike
        (callServers plainServer reachesSouth
          (afterCalls plainServer reachesSouth
            (HttpClient.twinClient, MemoryStore.fresh.holdings) zooCalls)
          (.createDatabase "zoo")).1
        (.error (.duplicateName "zoo")) := by
  have plainZoo : IsPlainName "zoo" := by decide
  have arePlain : ∀ command ∈ zooCalls, command.IsPlain := by
    simp only [zooCalls, List.forall_mem_cons]
    exact ⟨plainZoo, ⟨plainZoo, by decide⟩, nofun⟩
  obtain ⟨-, alike, -⟩ :=
    store_mirrors_servers serves_plainServer mirrors_fresh arePlain
  have refused :
      ((MemoryStore.fresh.afterCalls zooCalls).answered
          (.createDatabase "zoo")).1 =
        (.error (.duplicateName "zoo") : Except TransportError Unit) :=
    rfl
  have isAlike := alike (.createDatabase "zoo") plainZoo nofun
  rw [refused] at isAlike
  exact ⟨serves_plainServer, mirrors_fresh, arePlain, isAlike⟩

/--
Asked for a collection of a database that is not there, the client tells that
there is no such collection, and the store that there is no such database.
-/
theorem animals_of_no_zoo :
    Serves plainServer id ∧
      Mirrors id reachesSouth
        (HttpClient.twinClient, MemoryStore.fresh.holdings) MemoryStore.fresh ∧
      (Command.collectionKind "zoo" "animals").IsPlain ∧
      ¬ (Command.collectionKind "zoo" "animals").RepliesAlike
        (callServers plainServer reachesSouth
          (HttpClient.twinClient, MemoryStore.fresh.holdings)
          (.collectionKind "zoo" "animals")).1
        (MemoryStore.fresh.answered (.collectionKind "zoo" "animals")).1 := by
  have plain : (Command.collectionKind "zoo" "animals").IsPlain :=
    ⟨by decide, by decide⟩
  obtain ⟨noKind, noDatabase⟩ :=
    mirrors_fresh.replies_of_missing serves_plainServer plain (by decide)
  refine ⟨serves_plainServer, mirrors_fresh, plain, ?_⟩
  rw [noKind, noDatabase]
  rintro ⟨⟩

end GraphGate
