import GraphGate.Aql.Fragment
import GraphGate.Compilation.Unsupported
import GraphGate.Selection

namespace GraphGate

/-!
# Field arguments

The arguments `limit` and `offset` select a part of the documents; every other
argument is a filter on the property of its name. Of a repeated count the last
counts, and null means that none is given.
-/

/-- The arguments of a field, split by what they do. -/
structure CompiledArguments where
  filters : List Filter
  pagination : Pagination
deriving Repr, Inhabited

namespace CompiledArguments

/-- No arguments at all. -/
def none : CompiledArguments where
  filters := []
  pagination := ⟨.none, .none⟩

/-- The argument that limits the number of documents. -/
def limitArgument : String := "limit"

/-- The argument that passes over documents. -/
def offsetArgument : String := "offset"

/-- The count that a value gives; null gives none. -/
def count
    (parentType field argument : String)
    (value : Json) : Except UnsupportedSelection (Option Nat) :=
  if value.isNull then
    .ok .none
  else
    match value.unsigned? with
    | some count => .ok (some count)
    | .none => .error ⟨parentType, field, .invalidCount argument value⟩

/-- Takes in one argument. -/
def add
    (parentType field : String)
    (arguments : CompiledArguments)
    (argument : String × Json) :
    Except UnsupportedSelection CompiledArguments :=
  let (name, value) := argument
  if name = limitArgument then do
    let limit ← count parentType field name value
    return { arguments with
      pagination := { arguments.pagination with limit := limit } }
  else if name = offsetArgument then do
    let offset ← count parentType field name value
    return { arguments with
      pagination := { arguments.pagination with offset := offset } }
  else
    .ok { arguments with filters := arguments.filters ++ [⟨name, value⟩] }

/-- The arguments of a selection on a type. -/
def ofSelection (parentType : String) (selection : FieldSelection) :
    Except UnsupportedSelection CompiledArguments :=
  selection.arguments.foldlM (add parentType selection.name) .none

end CompiledArguments

end GraphGate
