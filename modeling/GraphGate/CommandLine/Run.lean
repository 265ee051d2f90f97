import GraphGate.CommandLine.Files
import GraphGate.CommandLine.Invocation
import GraphGate.Storage.Http.Network

namespace GraphGate

/-!
# Running commands

A command reads the variables it is given, then the settings, then the schema.
Only a command that needs the database connects to it, and only with a schema
that has no defect.
-/

/-- A command whose arguments are understood. -/
inductive PreparedCommand where
  | execute (request : GraphQLRequest)
  | provision
  | plan
deriving Repr

/-- The variables in a text, none without one. -/
def variablesOfText : Option String → Except VariablesFault (Table Json)
  | none => .ok []
  | some text =>
      match Json.parse? text with
      | some (.object members) => .ok members
      | some other => .error (.notAnObject other)
      | none => .error .notJson

/-- Reads the arguments of a command. -/
def EngineCommand.prepare : EngineCommand → Except EngineError PreparedCommand
  | .execute query variableText operationName =>
      match variablesOfText variableText with
      | .ok bindings => .ok (.execute ⟨query, operationName, bindings⟩)
      | .error fault => .error (.invalidVariables fault)
  | .provision => .ok .provision
  | .plan => .ok .plan

/-- What is printed after provisioning. -/
def provisionedText (database : String) : String :=
  "Database `" ++ database ++ "` is provisioned."

/-- Answers a request with an engine that is set up for it. -/
def Engine.answerOnce
    (settings : EngineSettings)
    (model : Model)
    (request : GraphQLRequest) : DatabaseDialogue (Except EngineError String) := do
  match ← Engine.start settings model with
  | .error cause => return .error cause
  | .ok engine =>
      let response ← engine.handle request
      return .ok response.toJson.render

/-- Provisions the database, unless setting up the engine has done so. -/
def Engine.provisionOnce
    (settings : EngineSettings)
    (model : Model) : DatabaseDialogue (Except EngineError String) := do
  match ← Engine.start settings model with
  | .error cause => return .error cause
  | .ok engine =>
      if engine.provisioned then
        return .ok (provisionedText settings.connection.database)
      else
        match ← engine.creator.run with
        | (.error cause, _) => return .error (.provisioning cause)
        | (.ok (), _) =>
            return .ok (provisionedText settings.connection.database)

/-- The settings and the schema of an invocation. -/
def Invocation.load (invocation : Invocation) :
    FileDialogue (Except EngineError (EngineSettings × Model)) := do
  match ← EngineSettings.load invocation.config with
  | .error cause => return .error (.config cause)
  | .ok settings =>
      match ← Model.load (invocation.schema.getD settings.schemaLocation) with
      | .error cause => return .error cause
      | .ok model => return .ok (settings, model)

/-- The world that a command is run in. -/
structure Surroundings (m : Type → Type) where
  file : (question : FileQuestion) → m question.Answer
  network : HttpNetwork m
  /-- Draws a number. -/
  draw : m Nat

namespace Surroundings

variable {m : Type → Type} [Monad m] {α : Type}

/-- Holds a dialogue with the database that the settings name. -/
def withDatabase
    (world : Surroundings m)
    (settings : EngineSettings)
    (dialogue : DatabaseDialogue (Except EngineError α)) :
    m (Except EngineError α) := do
  let connected ←
    (HttpClient.connect settings.connection (← world.draw)).runM
      world.network.answer
  match connected with
  | .error cause => return .error (.transport cause)
  | .ok client =>
      let (result, _) ← (world.network.converse dialogue).run client
      return result

/-- Runs a command with its settings and schema, and gives what it prints. -/
def execute
    (world : Surroundings m)
    (settings : EngineSettings)
    (model : Model) : PreparedCommand → m (Except EngineError String)
  | .plan =>
      return .ok ((ProvisioningPlan.ofModel model).toJson.renderIndented 0)
  | .execute request =>
      world.withDatabase settings (Engine.answerOnce settings model request)
  | .provision =>
      world.withDatabase settings (Engine.provisionOnce settings model)

/-- Runs what is asked for, and gives what it prints. -/
def run (world : Surroundings m) (invocation : Invocation) :
    m (Except EngineError String) := do
  match invocation.command.prepare with
  | .error cause => return .error cause
  | .ok command =>
      match ← invocation.load.runM world.file with
      | .error cause => return .error cause
      | .ok (settings, model) => world.execute settings model command

end Surroundings

end GraphGate
