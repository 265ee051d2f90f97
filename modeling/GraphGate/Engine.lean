import GraphGate.Config.Settings
import GraphGate.Provisioning.Creator
import GraphGate.Request.Handling

namespace GraphGate

/-!
# The engine

An engine is set up once, before the first request: the discriminators of the
model are gathered, and the database is provisioned if the settings ask for it.
No request is answered by an engine whose provisioning failed.
-/

/-- What is wrong with variables that are given as text. -/
inductive VariablesFault where
  | notJson
  | notAnObject (value : Json)
deriving Repr

/-- The fault in words. -/
def VariablesFault.render : VariablesFault → String
  | .notJson => "the text is not JSON"
  | .notAnObject value =>
      "expected a JSON object, got `" ++ value.render ++ "`"

/-- Why a command of the engine failed. -/
inductive EngineError where
  | config (cause : ConfigError)
  | schema (cause : SchemaError)
  | schemaLocation (path : String) (cause : String)
  | emptySchemaLocation (path : String)
  | transport (cause : TransportError)
  | provisioning (cause : ProvisioningError)
  | invalidVariables (fault : VariablesFault)
deriving Repr

/-- The failure in words. -/
def EngineError.message : EngineError → String
  | .config cause => cause.message
  | .schema cause => "Error in schema: " ++ cause.message
  | .schemaLocation path cause =>
      "Could not read schema from " ++ path ++ ": " ++ cause
  | .emptySchemaLocation path =>
      "No `*.graphqls` files found in " ++ path
  | .transport cause => cause.message
  | .provisioning cause => "Provisioning failed: " ++ cause.message
  | .invalidVariables fault => "Invalid query variables: " ++ fault.render

/-- The failure as it is reported in one line. -/
def EngineError.toJson (failure : EngineError) : Json :=
  .object [
    ("is_panic", .bool false),
    ("message", .string failure.message)]

/-- An engine that is ready for requests. -/
structure Engine where
  fetcher : DataFetcher
  /-- Whether the database was provisioned at the start. -/
  provisioned : Bool

namespace Engine

/-- A creator for the plan of a model. -/
def creatorFor (settings : EngineSettings) (model : Model) : DatabaseCreator :=
  .ofPlan settings.connection.database (.ofModel model)

/-- The fetcher that answers the fields of all requests. -/
def fetcherFor
    (settings : EngineSettings)
    (model : Model)
    (registry : DiscriminatorRegistry) : DataFetcher where
  model := model
  registry := registry
  chain := .standard
  database := settings.connection.database
  timeout := limitOfMilliseconds settings.queryTimeout

/-- Sets up an engine. -/
def start (settings : EngineSettings) (model : Model) :
    DatabaseDialogue (Except EngineError Engine) :=
  match DiscriminatorRegistry.ofModel model with
  | .error cause => return .error (.schema cause)
  | .ok registry =>
      let fetcher := fetcherFor settings model registry
      if settings.autoCreate then do
        match ← (creatorFor settings model).run with
        | (.error cause, _) => return .error (.provisioning cause)
        | (.ok (), _) => return .ok ⟨fetcher, true⟩
      else
        return .ok ⟨fetcher, false⟩

/-- A fresh creator for an explicit provisioning run. -/
def creator (engine : Engine) : DatabaseCreator :=
  .ofPlan engine.fetcher.database (.ofModel engine.fetcher.model)

/-- Answers a request. -/
def handle (engine : Engine) (request : GraphQLRequest) :
    DatabaseDialogue GraphQLResponse :=
  engine.fetcher.handle request

end Engine

end GraphGate
