import GraphGate.Config.Host
import GraphGate.Config.Toml
import GraphGate.Storage.Command

namespace GraphGate

/-!
# Settings

Everything lives in the table `arangodb` of the configuration document. Settings
that are left out have defaults, keys of other names are ignored, and a setting
that is given twice or with a value of the wrong type is refused.
-/

/-- How requests are spread over the hosts. -/
inductive LoadBalancing where
  /-- The first host is always used, the others stand in for it. -/
  | none
  | roundRobin
  | oneRandom
deriving Repr, DecidableEq, Inhabited

/-- The strategy of a name. -/
def LoadBalancing.ofName? : String → Option LoadBalancing
  | "none" => some .none
  | "round_robin" => some .roundRobin
  | "one_random" => some .oneRandom
  | _ => Option.none

/-- How the database is reached. -/
structure ConnectionSettings where
  database : String
  hosts : List String
  user : String
  password : Option String
  /-- The milliseconds a connection or request may take; zero for no limit. -/
  timeout : Nat
  useSsl : Bool
  maxConnections : Nat
  /-- The milliseconds an idle connection is kept. -/
  connectionTtl : Option Nat
  /-- Whether to ask for the list of hosts at the start. -/
  acquireHostList : Bool
  loadBalancing : LoadBalancing
deriving Repr, DecidableEq

/-- All settings. -/
structure EngineSettings where
  connection : ConnectionSettings
  /-- A schema document, or a directory of schema documents. -/
  schemaLocation : String
  /-- Whether to provision the database at the start. -/
  autoCreate : Bool
  /-- The milliseconds a query may take; zero for no limit. -/
  queryTimeout : Nat
deriving Repr, DecidableEq

/-- A limit in milliseconds, none for zero. -/
def limitOfMilliseconds (milliseconds : Nat) : Option Nat :=
  if milliseconds = 0 then none else some milliseconds

namespace ConnectionSettings

/-- The settings where nothing is given. -/
def standard : ConnectionSettings where
  database := systemDatabase
  hosts := []
  user := "root"
  password := none
  timeout := 0
  useSsl := false
  maxConnections := 20
  connectionTtl := none
  acquireHostList := false
  loadBalancing := .none

/-- The server that is used where no hosts are given. -/
def localServer : HostAddress where
  host := "127.0.0.1"
  port := 8529

/-- The hosts, or the local server where none are given. -/
def hostAddresses (settings : ConnectionSettings) :
    Except ConfigError (List HostAddress) :=
  if settings.hosts.isEmpty then
    .ok [localServer]
  else
    HostAddress.parseAll settings.hosts

end ConnectionSettings

namespace Toml

/-- The value of a setting: none if it is left out, refused if it is given twice. -/
def setting? (entries : List (String × Toml)) (name : String) :
    Option (Option Toml) :=
  match entries.filter (·.1 = name) with
  | [] => some none
  | [(_, value)] => some (some value)
  | _ => none

/-- A setting read in some way, or its default where it is left out. -/
def settingOr {α : Type}
    (entries : List (String × Toml))
    (name : String)
    (standard : α)
    (read? : Toml → Option α) : Option α :=
  match setting? entries name with
  | none => none
  | some none => some standard
  | some (some value) => read? value

/-- A text. -/
def string? : Toml → Option String
  | .string value => some value
  | _ => none

/-- A truth value. -/
def bool? : Toml → Option Bool
  | .boolean value => some value
  | _ => none

/-- An integer that is not negative. -/
def nat? : Toml → Option Nat
  | .integer value => if 0 ≤ value then some value.toNat else none
  | _ => none

/-- A list of texts. -/
def strings? : Toml → Option (List String)
  | .array items => items.mapM string?
  | _ => none

/-- A table. -/
def table? : Toml → Option (List (String × Toml))
  | .table entries | .dotted entries => some entries
  | _ => none

/-- A strategy by its name. -/
def loadBalancing? (value : Toml) : Option LoadBalancing :=
  value.string?.bind LoadBalancing.ofName?

end Toml

/-- The connection settings in a table. -/
def ConnectionSettings.ofEntries? (entries : List (String × Toml)) :
    Option ConnectionSettings := do
  let standard := ConnectionSettings.standard
  return {
    database :=
      ← Toml.settingOr entries "database" standard.database Toml.string?
    hosts := ← Toml.settingOr entries "hosts" standard.hosts Toml.strings?
    user := ← Toml.settingOr entries "user" standard.user Toml.string?
    password :=
      ← Toml.settingOr entries "password" standard.password
          fun value => value.string?.map some
    timeout := ← Toml.settingOr entries "timeout_ms" standard.timeout Toml.nat?
    useSsl := ← Toml.settingOr entries "use_ssl" standard.useSsl Toml.bool?
    maxConnections :=
      ← Toml.settingOr entries "max_connections" standard.maxConnections
          Toml.nat?
    connectionTtl :=
      ← Toml.settingOr entries "connection_ttl_ms" standard.connectionTtl
          fun value => value.nat?.map some
    acquireHostList :=
      ← Toml.settingOr entries "acquire_host_list" standard.acquireHostList
          Toml.bool?
    loadBalancing :=
      ← Toml.settingOr entries "load_balancing_strategy"
          standard.loadBalancing Toml.loadBalancing?
  }

namespace EngineSettings

/-- The settings where nothing is given. -/
def standard : EngineSettings where
  connection := .standard
  schemaLocation := "."
  autoCreate := false
  queryTimeout := 0

/-- The settings in a table. -/
def ofEntries? (entries : List (String × Toml)) : Option EngineSettings := do
  return {
    connection := ← ConnectionSettings.ofEntries? entries
    schemaLocation :=
      ← Toml.settingOr entries "schema_location" standard.schemaLocation
          Toml.string?
    autoCreate :=
      ← Toml.settingOr entries "auto_create" standard.autoCreate Toml.bool?
    queryTimeout :=
      ← Toml.settingOr entries "query_timeout_ms" standard.queryTimeout
          Toml.nat?
  }

/-- The settings of a configuration document. -/
def ofText (text : String) : Except ConfigError EngineSettings :=
  let settings? : Option EngineSettings := do
    let document ← Toml.parse? text
    Toml.settingOr document "arangodb" standard fun value =>
      value.table?.bind ofEntries?
  match settings? with
  | some settings => .ok settings
  | none => .error .malformed

end EngineSettings

end GraphGate
