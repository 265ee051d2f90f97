namespace GraphGate

/-!
# Failures of the settings and of the database

A database answers with an error of its own, is not reached, or answers what
cannot be understood. Two of its errors are told apart: something that was to be
created exists, and something that was asked for does not.
-/

/-- What is wrong with the settings. -/
inductive ConfigError where
  | invalidHost (host : String)
  | unreadable (path : String) (cause : String)
  | malformed
deriving Repr, DecidableEq

/-- The defect in words. -/
def ConfigError.message : ConfigError → String
  | .invalidHost host =>
      "Could not load host '" ++ host ++
        "' from the `hosts` setting. Expected format host:port,host:port,..."
  | .unreadable path cause =>
      "Could not read configuration file '" ++ path ++ "': " ++ cause
  | .malformed => "Could not parse configuration"

/-- Why a call to the database failed. -/
inductive TransportError where
  | config (cause : ConfigError)
  | connection (endpoint : String) (detail : String)
  | server (code : Nat) (errorNumber : Int) (detail : String)
  | invalidResponse (detail : String)
deriving Repr, DecidableEq

namespace TransportError

/-- The database's number for a name that exists already. -/
def duplicateNameNumber : Int := 1207

/-- The database's number for a collection that does not exist. -/
def collectionNotFoundNumber : Int := 1203

/-- The database's number for a database that does not exist. -/
def databaseNotFoundNumber : Int := 1228

/-- The database's number for a call that is not permitted. -/
def forbiddenNumber : Int := 11

/-- What was to be created exists already. -/
def isDuplicateName : TransportError → Bool
  | .server _ number _ => number = duplicateNameNumber
  | _ => false

/-- What was asked for does not exist. -/
def isNotFound : TransportError → Bool
  | .server _ number _ =>
      number = collectionNotFoundNumber || number = databaseNotFoundNumber
  | _ => false

/-- The answer to creating what exists. -/
def duplicateName (name : String) : TransportError :=
  .server 409 duplicateNameNumber ("duplicate name: " ++ name)

/-- The answer to using a collection that does not exist. -/
def collectionNotFound (name : String) : TransportError :=
  .server 404 collectionNotFoundNumber
    ("collection or view not found: " ++ name)

/-- The answer to using a database that does not exist. -/
def databaseNotFound (name : String) : TransportError :=
  .server 404 databaseNotFoundNumber ("database not found: " ++ name)

/-- The answer to a call that is not permitted. -/
def forbidden : TransportError :=
  .server 403 forbiddenNumber "forbidden"

/-- The failure in words. -/
def message : TransportError → String
  | .config cause => cause.message
  | .connection endpoint detail =>
      "Error connecting to ArangoDB at " ++ endpoint ++ ": " ++ detail
  | .server code number detail =>
      "ArangoDB returned error " ++ toString number ++ " (HTTP " ++
        toString code ++ "): " ++ detail
  | .invalidResponse detail =>
      "Unexpected response from ArangoDB: " ++ detail

end TransportError

end GraphGate
