import GraphGate.CommandLine.Files

namespace GraphGate

/-!
# Files in memory

A tree of files answers questions about files by relative paths, as they are seen
from its top.
-/

/-- Files and directories below a working directory. -/
structure FileTree where
  /-- The texts of files by the names that lead to them. -/
  files : List (List String × String)
  /-- The directories that are there even without files. -/
  directories : List (List String)
deriving Repr

namespace FileTree

/-- The tree without files. -/
def empty : FileTree :=
  ⟨[], []⟩

/-- The names in a path, without those that stay in place. -/
def names (path : String) : List String :=
  (path.splitOn "/").filter fun name => name ≠ "" && name ≠ "."

/-- Adds a file, or an empty directory for a path that ends in a slash. -/
def add (tree : FileTree) (path text : String) : FileTree :=
  if path.endsWith "/" then
    { tree with directories := tree.directories ++ [names path] }
  else
    { tree with files := tree.files.filter (·.1 ≠ names path) ++ [(names path, text)] }

/-- The text of the file at a place. -/
def textAt? (tree : FileTree) (place : List String) : Option String :=
  tree.files.lookup place

/-- Whether there is a directory at a place. -/
def isDirectory (tree : FileTree) (place : List String) : Bool :=
  place.isEmpty ||
    tree.directories.any place.isPrefixOf ||
    tree.files.any fun file => place ≠ file.1 && place.isPrefixOf file.1

/-- Follows names from a place; every name but the last has to lead to a directory. -/
def follow (tree : FileTree) (place : List String) :
    List String → Option (List String)
  | [] => some place
  | name :: rest =>
      if !tree.isDirectory place then
        none
      else if name = ".." then
        if place.isEmpty then none else tree.follow place.dropLast rest
      else
        tree.follow (place ++ [name]) rest

/-- The place that a path leads to. Only a directory may have a slash behind it. -/
def resolve? (tree : FileTree) (path : String) : Option (List String) :=
  if path.isEmpty || path.startsWith "/" then
    none
  else
    match tree.follow [] (names path) with
    | none => none
    | some place =>
        let needsDirectory := path.endsWith "/" || path.endsWith "/."
        if needsDirectory && !tree.isDirectory place then none else some place

/-- The names right inside a directory, each once. -/
def entries (tree : FileTree) (place : List String) : List String :=
  let below (other : List String) : Option String :=
    if place.isPrefixOf other then other[place.length]? else none
  (tree.files.filterMap (below ·.1) ++ tree.directories.filterMap below).eraseDups

/-- Why a question about a path has no answer. -/
def notFound : String := "No such file or directory"

/-- Answers a question. -/
def answer (tree : FileTree) (question : FileQuestion) : question.Answer :=
  match question with
  | .isFile path =>
      (((tree.resolve? path).bind tree.textAt?).isSome : Bool)
  | .read path =>
      match (tree.resolve? path).bind tree.textAt? with
      | some text => .ok text
      | none => .error notFound
  | .list path =>
      match tree.resolve? path with
      | some place =>
          if tree.isDirectory place then
            .ok (tree.entries place)
          else
            .error notFound
      | none => .error notFound

/-- Holds a dialogue about the files of a tree. -/
def hold {α : Type} (tree : FileTree) (dialogue : FileDialogue α) : α :=
  Id.run (dialogue.runM tree.answer)

end FileTree

end GraphGate
