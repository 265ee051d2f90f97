import GraphGate.CommandLine.Resemblance

namespace GraphGate

/-!
# Forms of command lines

A form lists the options that may be given, and the commands that may follow
them. An option has a long name behind two dashes, and may have a short one of a
letter behind a single dash. Its value is attached to it, or is the next argument
unless that looks like an option itself. A single dash is a value, and behind
two dashes alone nothing is an option.
-/

/-- Why arguments do not fit a form. -/
inductive UsageError where
  | helpRequested
  | versionRequested
  | missingCommand
  | unknownArgument (argument : String)
  /-- The argument is no command, but resembles one. -/
  | misspeltCommand (argument : String)
  /-- Help was asked for something that is no command. -/
  | unknownHelpTopic (topic : String)
  | missingOption (name : String)
  | emptyValue (name : String)
  | repeatedOption (name : String)
deriving Repr, DecidableEq

/-- The defect in words. -/
def UsageError.message : UsageError → String
  | .helpRequested => "help was requested"
  | .versionRequested => "the version was requested"
  | .missingCommand => "a command is required"
  | .unknownArgument argument =>
      "found argument '" ++ argument ++ "' which was not expected"
  | .misspeltCommand argument =>
      "the command '" ++ argument ++ "' was not recognized"
  | .unknownHelpTopic topic => "there is no help on '" ++ topic ++ "'"
  | .missingOption name => "the option '--" ++ name ++ "' is required"
  | .emptyValue name => "the option '--" ++ name ++ "' requires a value"
  | .repeatedOption name =>
      "the option '--" ++ name ++ "' cannot be used more than once"

/-- An option that may be given. -/
structure OptionForm where
  /-- The long name without dashes. -/
  name : String
  /-- The letter of the short name. -/
  short : Option Char
  takesValue : Bool
  required : Bool
  /-- Whether there is a value where none is given. -/
  hasDefault : Bool
deriving Repr, DecidableEq

/-- The options that may be given, and the commands that may follow. -/
structure CommandForm where
  options : List OptionForm
  commands : List String
deriving Repr, DecidableEq

/-- An option as it was given, with its value. -/
structure GivenOption where
  name : String
  value : Option String
deriving Repr, DecidableEq

/-- What arguments consist of, up to a command. -/
structure ScannedArguments where
  given : List GivenOption
  /-- The option at the end whose value would have been the next argument. -/
  awaiting : Option String
  /-- The command, and the arguments behind it. -/
  command : Option (String × List String)
deriving Repr, DecidableEq

namespace ScannedArguments

/-- All options that were given, be it without the value they need. -/
def occurrences (scanned : ScannedArguments) : List GivenOption :=
  scanned.given ++ scanned.awaiting.toList.map fun name => ⟨name, none⟩

/-- The first value of an option. -/
def value? (scanned : ScannedArguments) (name : String) : Option String :=
  scanned.given.findSome? fun given =>
    if given.name = name then given.value else none

/-- Whether an option was given. -/
def has (scanned : ScannedArguments) (name : String) : Bool :=
  scanned.occurrences.any (·.name = name)

end ScannedArguments

namespace CommandForm

/-- The option that every command has to show its help. -/
def helpOption : OptionForm :=
  ⟨"help", some 'h', false, false, false⟩

/-- The option that every command has to show its version. -/
def versionOption : OptionForm :=
  ⟨"version", some 'V', false, false, false⟩

/-- All options that may be given. -/
def allOptions (form : CommandForm) : List OptionForm :=
  form.options ++ [helpOption, versionOption]

/-- Whether an argument looks like an option. -/
def looksLikeOption (argument : String) : Bool :=
  argument.startsWith "-" && argument ≠ "-"

/-- An option with the value that is attached to it. -/
def give (option : OptionForm) (value : Option (List Char)) :
    Except UsageError GivenOption :=
  if option = helpOption then
    .error .helpRequested
  else if option = versionOption then
    .error .versionRequested
  else if option.takesValue then
    .ok ⟨option.name, value.map fun text =>
      String.ofList (text.dropWhile (· = '='))⟩
  else
    .ok ⟨option.name, none⟩

/-- The option in an argument with two dashes. -/
def readLong (form : CommandForm) (argument : String) :
    Except UsageError GivenOption :=
  let text := argument.toList.dropWhile (· = '-')
  let name := text.takeWhile (· ≠ '=')
  let rest := text.drop name.length
  match form.allOptions.find? (·.name = String.ofList name) with
  | some option => give option (if rest.isEmpty then none else some rest)
  | none => .error (.unknownArgument argument)

/-- The option in an argument with one dash. -/
def readShort (form : CommandForm) (argument : String) :
    Except UsageError GivenOption :=
  match argument.toList.dropWhile (· = '-') with
  | [] => .error (.unknownArgument argument)
  | letter :: rest =>
      match form.allOptions.find? (·.short = some letter) with
      | some option => give option (if rest.isEmpty then none else some rest)
      | none => .error (.unknownArgument argument)

/-- The option in an argument. -/
def readOption (form : CommandForm) (argument : String) :
    Except UsageError GivenOption :=
  if argument.startsWith "--" then
    form.readLong argument
  else
    form.readShort argument

/-- Whether an option needs the next argument as its value. -/
def awaitsValue (form : CommandForm) (given : GivenOption) : Bool :=
  given.value.isNone &&
    form.options.any fun option =>
      option.name = given.name && option.takesValue

/-- What is wrong with an argument that is neither option nor value nor command. -/
def refuse (form : CommandForm) (argument : String) : UsageError :=
  if form.commands.any (Resemblance.resembles argument) then
    .misspeltCommand argument
  else
    .unknownArgument argument

/-- Goes through arguments up to a command. -/
def scanFrom
    (form : CommandForm)
    (given : List GivenOption)
    (awaiting : Option String) :
    List String → Except UsageError ScannedArguments
  | [] => .ok ⟨given, awaiting, none⟩
  | argument :: rest =>
      if argument = "--" then
        match rest with
        | [] => .ok ⟨given, awaiting, none⟩
        | next :: _ => .error (form.refuse next)
      else if looksLikeOption argument then
        let given := given ++ awaiting.toList.map fun name => ⟨name, none⟩
        match form.readOption argument with
        | .error cause => .error cause
        | .ok option =>
            if form.awaitsValue option then
              form.scanFrom given (some option.name) rest
            else
              form.scanFrom (given ++ [option]) none rest
      else
        match awaiting with
        | some name => form.scanFrom (given ++ [⟨name, some argument⟩]) none rest
        | none =>
            if form.commands.contains argument then
              .ok ⟨given, none, some (argument, rest)⟩
            else
              .error (form.refuse argument)

/-- Goes through arguments up to a command. -/
def scan (form : CommandForm) (arguments : List String) :
    Except UsageError ScannedArguments :=
  form.scanFrom [] none arguments

/-- Checks that all required options were given. -/
def checkRequired (form : CommandForm) (scanned : ScannedArguments) :
    Except UsageError Unit :=
  match form.options.find? fun option =>
      option.required && !scanned.has option.name with
  | some option => .error (.missingOption option.name)
  | none => .ok ()

/-- Checks that an option has a value if it was given, and was given once. -/
def checkOption (scanned : ScannedArguments) (option : OptionForm) :
    Except UsageError Unit :=
  let occurrences := scanned.occurrences.filter (·.name = option.name)
  if option.takesValue && !option.hasDefault && !occurrences.isEmpty &&
      occurrences.all (·.value.isNone) then
    .error (.emptyValue option.name)
  else if 1 < occurrences.length then
    .error (.repeatedOption option.name)
  else
    .ok ()

/-- Checks what only shows when all arguments are known. -/
def check (form : CommandForm) (scanned : ScannedArguments) :
    Except UsageError Unit := do
  form.checkRequired scanned
  form.options.forM (checkOption scanned)

end CommandForm

end GraphGate
