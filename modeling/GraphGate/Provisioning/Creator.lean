import GraphGate.Provisioning.Plan
import GraphGate.Storage.Command

namespace GraphGate

/-!
# Provisioning

A creator brings a database into the state that a plan asks for, in three
phases: the database, its collections, and their indexes. What exists already is
left alone, so every phase can run again. A phase does not start before the one
before it has completed.
-/

/-- The phases of provisioning, in the only order in which they may run. -/
inductive ProvisioningPhase where
  | database
  | collections
  | indexes
deriving Repr, DecidableEq

namespace ProvisioningPhase

/-- The place of a phase in the order. -/
def rank : ProvisioningPhase → Nat
  | .database => 0
  | .collections => 1
  | .indexes => 2

/-- The phase in words. -/
def render : ProvisioningPhase → String
  | .database => "database"
  | .collections => "collections"
  | .indexes => "indexes"

/-- The phase that has to be complete before another starts. -/
def required? : ProvisioningPhase → Option ProvisioningPhase
  | .database => none
  | .collections => some .database
  | .indexes => some .collections

/-- The later of a phase that may have been reached and another. -/
def latest (reached : Option ProvisioningPhase) (phase : ProvisioningPhase) :
    ProvisioningPhase :=
  match reached with
  | none => phase
  | some reached => if reached.rank ≤ phase.rank then phase else reached

end ProvisioningPhase

/-- What a failed call was to do. -/
inductive ProvisioningStep where
  | createDatabase (name : String)
  | inspectCollection (name : String)
  | createCollection (kind : CollectionKind) (name : String)
  | createIndex (collection : String) (fields : List String)
deriving Repr, DecidableEq

/-- The step in words. -/
def ProvisioningStep.render : ProvisioningStep → String
  | .createDatabase name => "create database `" ++ name ++ "`"
  | .inspectCollection name => "inspect collection `" ++ name ++ "`"
  | .createCollection kind name =>
      "create " ++ kind.render ++ " collection `" ++ name ++ "`"
  | .createIndex collection fields =>
      "create index on `" ++ collection ++ "` (" ++
        ", ".intercalate fields ++ ")"

/-- Why a phase did not complete. -/
inductive ProvisioningError where
  | collectionKindMismatch
      (collection : String)
      (expected : CollectionKind)
      (existing : CollectionKind)
  | phaseOrder (phase : ProvisioningPhase) (required : ProvisioningPhase)
  | transport (step : ProvisioningStep) (cause : TransportError)
deriving Repr, DecidableEq

/-- The cause in words. -/
def ProvisioningError.message : ProvisioningError → String
  | .collectionKindMismatch collection expected existing =>
      "Collection `" ++ collection ++ "` exists with kind `" ++
        existing.render ++ "`, but the schema needs kind `" ++
        expected.render ++ "`."
  | .phaseOrder phase required =>
      "The " ++ phase.render ++ " phase cannot run before the " ++
        required.render ++ " phase has completed."
  | .transport step cause =>
      "Failed to " ++ step.render ++ ": " ++ cause.message

/-- Brings a database into the state that a plan asks for. -/
structure DatabaseCreator where
  database : String
  plan : ProvisioningPlan
  /-- The last phase that ran to completion. -/
  completed : Option ProvisioningPhase
deriving Repr, DecidableEq

/-- How a phase ended. -/
abbrev PhaseResult := Except ProvisioningError Unit

namespace DatabaseCreator

/-- A creator that has not run yet. -/
def ofPlan (database : String) (plan : ProvisioningPlan) : DatabaseCreator :=
  ⟨database, plan, none⟩

/-- Notes that a phase has completed. -/
def complete (creator : DatabaseCreator) (phase : ProvisioningPhase) :
    DatabaseCreator :=
  { creator with
    completed := some (ProvisioningPhase.latest creator.completed phase) }

/-- Whether the phase before another has completed. -/
def checkOrder (creator : DatabaseCreator) (phase : ProvisioningPhase) :
    PhaseResult :=
  match phase.required? with
  | none => .ok ()
  | some required =>
      match creator.completed with
      | some completed =>
          if required.rank ≤ completed.rank then
            .ok ()
          else
            .error (.phaseOrder phase required)
      | none => .error (.phaseOrder phase required)

/-- What comes of a call that may find its object there already. -/
def tolerateDuplicate (step : ProvisioningStep) :
    Except TransportError Unit → PhaseResult
  | .ok () => .ok ()
  | .error cause =>
      if cause.isDuplicateName then .ok () else .error (.transport step cause)

/-- Creates the database unless it exists. -/
def ensureDatabase (database : String) : DatabaseDialogue PhaseResult :=
  if database = systemDatabase then
    return .ok ()
  else do
    let reply ← DatabaseDialogue.createDatabase database
    return tolerateDuplicate (.createDatabase database) reply

/-- Creates a collection unless it exists with the right kind. -/
def ensureCollection (database : String) (collection : CollectionPlan) :
    DatabaseDialogue PhaseResult := do
  match ← DatabaseDialogue.collectionKind database collection.name with
  | .error cause =>
      return .error (.transport (.inspectCollection collection.name) cause)
  | .ok (some existing) =>
      if existing = collection.kind then
        return .ok ()
      else
        return .error
          (.collectionKindMismatch collection.name collection.kind existing)
  | .ok none =>
      let reply ←
        DatabaseDialogue.createCollection database collection.name
          collection.kind
      return tolerateDuplicate
        (.createCollection collection.kind collection.name) reply

/-- Creates an index unless it exists. -/
def ensureIndex (database : String) (request : String × IndexSpec) :
    DatabaseDialogue PhaseResult := do
  let (collection, index) := request
  let reply ← DatabaseDialogue.ensureIndex database collection index
  return tolerateDuplicate (.createIndex collection index.fields) reply

/-- Takes steps one after another, up to the first that fails. -/
def forEach {α : Type} (step : α → DatabaseDialogue PhaseResult) :
    List α → DatabaseDialogue PhaseResult
  | [] => return .ok ()
  | item :: rest => do
      match ← step item with
      | .error cause => return .error cause
      | .ok () => forEach step rest

/-- The indexes of a plan with their collections, in order. -/
def plannedIndexes (plan : ProvisioningPlan) : List (String × IndexSpec) :=
  plan.collections.flatMap fun collection =>
    collection.indexes.map (collection.name, ·)

/-- The calls of a phase. -/
def phaseCalls (creator : DatabaseCreator) :
    ProvisioningPhase → DatabaseDialogue PhaseResult
  | .database => ensureDatabase creator.database
  | .collections =>
      forEach (ensureCollection creator.database) creator.plan.collections
  | .indexes =>
      forEach (ensureIndex creator.database) (plannedIndexes creator.plan)

/-- Runs a phase, if the one before it has completed. -/
def runPhase (creator : DatabaseCreator) (phase : ProvisioningPhase) :
    DatabaseDialogue (PhaseResult × DatabaseCreator) :=
  match creator.checkOrder phase with
  | .error cause => return (.error cause, creator)
  | .ok () => do
      match ← creator.phaseCalls phase with
      | .error cause => return (.error cause, creator)
      | .ok () => return (.ok (), creator.complete phase)

/-- Runs phases one after another, up to the first that fails. -/
def runPhases (creator : DatabaseCreator) :
    List ProvisioningPhase → DatabaseDialogue (PhaseResult × DatabaseCreator)
  | [] => return (.ok (), creator)
  | phase :: rest => do
      match ← creator.runPhase phase with
      | (.error cause, creator) => return (.error cause, creator)
      | (.ok (), creator) => creator.runPhases rest

/-- Runs all phases in order. -/
def run (creator : DatabaseCreator) :
    DatabaseDialogue (PhaseResult × DatabaseCreator) :=
  creator.runPhases [.database, .collections, .indexes]

end DatabaseCreator

end GraphGate
