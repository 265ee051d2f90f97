import GraphGate.CommandLine.Form

namespace GraphGate

/-!
# Invocations

The commands of the program with their options. A defect behind the command is
reported before those of the options in front of it.
-/

/-- How log lines are written. -/
inductive LogFormat where
  | text
  | json
deriving Repr, DecidableEq

/-- The format of a name; unknown names stand for text. -/
def LogFormat.ofName : String → LogFormat
  | "json" => .json
  | _ => .text

/-- What is asked of the program. -/
inductive EngineCommand where
  /-- Answers a query document, with variables as JSON text. -/
  | execute
      (query : String)
      (variableText : Option String)
      (operationName : Option String)
  /-- Creates what the schema needs. -/
  | provision
  /-- Prints what the schema needs. -/
  | plan
deriving Repr, DecidableEq

/-- What is asked of the program, with the options for all commands. -/
structure Invocation where
  /-- The configuration file. -/
  config : Option String
  /-- A schema document or a directory of them, in place of the one in the settings. -/
  schema : Option String
  logFormat : LogFormat
  logQueries : Bool
  command : EngineCommand
deriving Repr, DecidableEq

namespace EngineCommand

/-- The options of answering a query. -/
def executeForm : CommandForm where
  options := [
    ⟨"query", some 'q', true, true, false⟩,
    ⟨"variables", none, true, false, false⟩,
    ⟨"operation-name", none, true, false, false⟩]
  commands := []

/-- The form of a command without options of its own. -/
def bareForm : CommandForm :=
  ⟨[], []⟩

/-- Reads arguments that have a form without commands. -/
def scanAll (form : CommandForm) (arguments : List String) :
    Except UsageError ScannedArguments := do
  let scanned ← form.scan arguments
  form.check scanned
  return scanned

/-- The command of a name with its arguments. -/
def ofArguments (name : String) (arguments : List String) :
    Except UsageError EngineCommand :=
  match name with
  | "execute" => do
      let scanned ← scanAll executeForm arguments
      return .execute
        ((scanned.value? "query").getD "")
        (scanned.value? "variables")
        (scanned.value? "operation-name")
  | "provision" => do
      let _ ← scanAll bareForm arguments
      return .provision
  | "plan" => do
      let _ ← scanAll bareForm arguments
      return .plan
  | other => .error (.unknownArgument other)

end EngineCommand

namespace Invocation

/-- The command that shows the help of another one. -/
def helpCommand : String := "help"

/-- The options for all commands, and the commands. -/
def form : CommandForm where
  options := [
    ⟨"config", some 'c', true, false, false⟩,
    ⟨"schema", some 's', true, false, false⟩,
    ⟨"log-format", none, true, false, true⟩,
    ⟨"log-queries", none, false, false, false⟩]
  commands := ["execute", "provision", "plan", helpCommand]

/-- What is printed where help is asked for. -/
def help : String :=
  "\n".intercalate [
    "GraphQL queries over ArangoDB graphs",
    "",
    "USAGE:",
    "    arango-graphql [FLAGS] [OPTIONS] <SUBCOMMAND>",
    "",
    "FLAGS:",
    "    -h, --help           Prints help information",
    "        --log-queries    Log the generated AQL queries",
    "    -V, --version        Prints version information",
    "",
    "OPTIONS:",
    "    -c, --config <config>            Path to the TOML configuration file",
    "        --log-format <log-format>    Set the log format [default: text]",
    "    -s, --schema <schema>            Schema file or directory of `*.graphqls` files",
    "",
    "SUBCOMMANDS:",
    "    execute      Executes a GraphQL query and prints the response",
    "    help         Prints this message",
    "    plan         Prints the collections and indexes the schema needs",
    "    provision    Creates the database, collections and indexes the schema needs"]

/-- What comes of asking for help on commands, of which none has commands of its own. -/
def helpOn : List String → UsageError
  | [] => .helpRequested
  | topic :: rest =>
      if form.commands.contains topic then
        match rest with
        | [] => .helpRequested
        | next :: _ => .unknownHelpTopic next
      else
        .unknownHelpTopic topic

/-- What is asked for by arguments. -/
def ofArguments (arguments : List String) : Except UsageError Invocation := do
  let scanned ← form.scan arguments
  match scanned.command with
  | none => throw .missingCommand
  | some (name, rest) =>
      if name = helpCommand then
        throw (helpOn rest)
      else
        let command ← EngineCommand.ofArguments name rest
        form.check scanned
        return {
          config := scanned.value? "config"
          schema := scanned.value? "schema"
          logFormat := LogFormat.ofName ((scanned.value? "log-format").getD "text")
          logQueries := scanned.has "log-queries"
          command := command
        }

end Invocation

end GraphGate
