import GraphGate.Engine
import GraphGate.Schema.Loading
import GraphGate.Storage.Dialogue

namespace GraphGate

/-!
# Settings and schemas in files

The settings come from one file. The schema comes from one file, or from all
schema documents right inside a directory, in the order of their names.
-/

/-- A question about files. -/
inductive FileQuestion where
  /-- Whether a path leads to a file. -/
  | isFile (path : String)
  /-- The text of a file. -/
  | read (path : String)
  /-- The names in a directory. -/
  | list (path : String)
deriving Repr, DecidableEq

/-- What a question is answered with. -/
def FileQuestion.Answer : FileQuestion → Type
  | .isFile _ => Bool
  | .read _ => Except String String
  | .list _ => Except String (List String)

/-- Questions about files one after another. -/
abbrev FileDialogue := Dialogue FileQuestion FileQuestion.Answer

namespace FileDialogue

/-- Whether a path leads to a file. -/
def isFile (path : String) : FileDialogue Bool :=
  Dialogue.once (FileQuestion.isFile path)

/-- The text of a file, or why it cannot be read. -/
def read (path : String) : FileDialogue (Except String String) :=
  Dialogue.once (FileQuestion.read path)

/-- The names in a directory, or why it cannot be listed. -/
def list (path : String) : FileDialogue (Except String (List String)) :=
  Dialogue.once (FileQuestion.list path)

end FileDialogue

/-- The extension of schema documents. -/
def schemaExtension : String := "graphqls"

/-- What stands behind the last dot of a file name, if anything stands before it. -/
def extension? (name : String) : Option String :=
  let behind := name.toList.reverse.takeWhile (· ≠ '.')
  if behind.length + 1 < name.length then
    some (String.ofList behind.reverse)
  else
    none

/-- The path of an entry of a directory. -/
def entryPath (directory name : String) : String :=
  if directory.isEmpty || directory.endsWith "/" then
    directory ++ name
  else
    directory ++ "/" ++ name

/-- The settings of a file, or the standard ones without a file. -/
def EngineSettings.load :
    Option String → FileDialogue (Except ConfigError EngineSettings)
  | none => return .ok .standard
  | some path => do
      match ← FileDialogue.read path with
      | .error cause => return .error (.unreadable path cause)
      | .ok text => return EngineSettings.ofText text

namespace SchemaFiles

/-- Reads files one after another, up to the first that cannot be read. -/
def readAll :
    List String → FileDialogue (Except EngineError (List (String × String)))
  | [] => return .ok []
  | path :: rest => do
      match ← FileDialogue.read path with
      | .error cause => return .error (.schemaLocation path cause)
      | .ok text =>
          match ← readAll rest with
          | .error cause => return .error cause
          | .ok files => return .ok ((path, text) :: files)

/-- The paths of the schema documents among the names in a directory. -/
def documentsAmong (directory : String) :
    List String → FileDialogue (List String)
  | [] => return []
  | name :: rest => do
      let path := entryPath directory name
      let isDocument ←
        if extension? name = some schemaExtension then
          FileDialogue.isFile path
        else
          pure false
      let others ← documentsAmong directory rest
      return if isDocument then path :: others else others

/-- The schema documents at a location, with their texts. -/
def collect (location : String) :
    FileDialogue (Except EngineError (List (String × String))) := do
  if ← FileDialogue.isFile location then
    readAll [location]
  else
    match ← FileDialogue.list location with
    | .error cause => return .error (.schemaLocation location cause)
    | .ok names =>
        let sorted := names.mergeSort fun first second => !(second < first)
        match ← documentsAmong location sorted with
        | [] => return .error (.emptySchemaLocation location)
        | paths => readAll paths

end SchemaFiles

/-- The model of the schema at a location. -/
def Model.load (location : String) :
    FileDialogue (Except EngineError Model) := do
  match ← SchemaFiles.collect location with
  | .error cause => return .error cause
  | .ok files =>
      match Model.ofFiles files with
      | .ok model => return .ok model
      | .error cause => return .error (.schema cause)

end GraphGate
