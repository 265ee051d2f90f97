import GraphGate.Request.Error
import GraphGate.Selection
import GraphGate.Table

namespace GraphGate

/-!
# Expanding selection sets

The selection set of an operation expands to field selections: variables are
replaced by their values, parts with `@skip` or `@include` are left out, and
fragments are put in their place. A field carries the type condition of the
innermost fragment around it.

A fragment that is being expanded is not available inside itself, so expansion
ends: each spread leaves one fragment fewer.
-/

namespace GraphQL

mutual

/-- A value with its variables replaced; a variable without a value is null. -/
def Value.toJson (bindings : Table Json) : Value → Json
  | .reference name => (bindings.get? name).getD .null
  | .integer value => .int value
  | .float value => .ofBinary64 value
  | .string value => .string value
  | .boolean value => .bool value
  | .null => .null
  | .enumeration name => .string name
  | .list items => .array (itemsToJson bindings items)
  | .object fields => .object (fieldsToJson bindings fields)

/-- The items of a list with their variables replaced. -/
def itemsToJson (bindings : Table Json) : List Value → List Json
  | [] => []
  | item :: rest => item.toJson bindings :: itemsToJson bindings rest

/-- The fields of an object with their variables replaced. -/
def fieldsToJson (bindings : Table Json) :
    List (String × Value) → List (String × Json)
  | [] => []
  | (name, value) :: rest =>
      (name, value.toJson bindings) :: fieldsToJson bindings rest

end

/-- The truth value of the condition of a directive, if it has one. -/
def Directive.condition? (bindings : Table Json) (directive : Directive) :
    Option Bool :=
  (directive.argument? "if").bind fun value => (value.toJson bindings).bool?

/-- Whether a directive leaves in what it is applied to. -/
def Directive.includes (bindings : Table Json) (directive : Directive) : Bool :=
  match directive.name, directive.condition? bindings with
  | "skip", some skipped => !skipped
  | "include", some included => included
  | _, _ => true

/-- Whether all directives leave in what they are applied to. -/
def isIncluded (bindings : Table Json) (directives : List Directive) : Bool :=
  directives.all (Directive.includes bindings)

/-- The arguments of a field with their variables replaced. -/
def argumentsToJson (bindings : Table Json) (arguments : Arguments) :
    List (String × Json) :=
  arguments.map fun argument => (argument.1, argument.2.toJson bindings)

end GraphQL

/-- The fragments of a document by name, the last of those of one name. -/
structure FragmentTable where
  fragments : List GraphQL.FragmentDefinition
deriving Repr

namespace FragmentTable

/-- The fragment of a name. -/
def find? (table : FragmentTable) (name : String) :
    Option GraphQL.FragmentDefinition :=
  table.fragments.find? (·.name = name)

/-- The fragments other than those of a name. -/
def without (table : FragmentTable) (name : String) : FragmentTable :=
  ⟨table.fragments.filter (·.name ≠ name)⟩

/-- The fragments of a document, the last of those of one name. -/
def ofDefinitions (definitions : List GraphQL.FragmentDefinition) :
    FragmentTable :=
  definitions.foldl
    (fun table definition =>
      ⟨definition :: (table.without definition.name).fragments⟩)
    ⟨[]⟩

/-- Taking out a fragment leaves fewer. -/
theorem length_without_lt
    {table : FragmentTable}
    {name : String}
    {fragment : GraphQL.FragmentDefinition}
    (found : table.find? name = some fragment) :
    (table.without name).fragments.length < table.fragments.length := by
  refine List.length_filter_lt_length_iff_exists.2
    ⟨fragment, List.mem_of_find?_eq_some found, ?_⟩
  simpa using List.find?_some found

end FragmentTable

/-- What expansion depends on besides the selection set. -/
structure Expansion where
  fragments : FragmentTable
  bindings : Table Json

namespace Expansion

/-- A field selection under the type condition of the fragment around it. -/
def selectionUnder
    (condition : Option String)
    (name : String)
    (label : Option String)
    (arguments : List (String × Json))
    (nested : List FieldSelection) : FieldSelection where
  name := name
  label := label
  arguments := arguments
  conditions := condition.toList
  nested := nested

/-- What follows a selection is smaller than the two together. -/
theorem sizeOf_rest_lt
    (selection : GraphQL.Selection)
    (rest : List GraphQL.Selection) :
    sizeOf rest < sizeOf (selection :: rest) := by
  rw [List.cons.sizeOf_spec]
  omega

/-- The selections nested in a field are smaller than the field. -/
theorem sizeOf_field_nested_lt
    (label : Option String)
    (name : String)
    (arguments : GraphQL.Arguments)
    (directives : List GraphQL.Directive)
    (nested rest : List GraphQL.Selection) :
    sizeOf nested
      < sizeOf (GraphQL.Selection.field label name arguments directives nested
          :: rest) := by
  rw [List.cons.sizeOf_spec, GraphQL.Selection.field.sizeOf_spec]
  omega

/-- The selections nested in an inline fragment are smaller than it. -/
theorem sizeOf_inlineFragment_nested_lt
    (condition : Option String)
    (directives : List GraphQL.Directive)
    (nested rest : List GraphQL.Selection) :
    sizeOf nested
      < sizeOf (GraphQL.Selection.inlineFragment condition directives nested
          :: rest) := by
  rw [List.cons.sizeOf_spec, GraphQL.Selection.inlineFragment.sizeOf_spec]
  omega

/--
The field selections of a selection set under a type condition, with some of the
fragments available.
-/
def expand
    (expansion : Expansion)
    (available : FragmentTable)
    (condition : Option String)
    (selections : List GraphQL.Selection) :
    Except RequestError (List FieldSelection) :=
  match selections with
  | [] => .ok []
  | .field label name arguments directives nested :: rest =>
      if GraphQL.isIncluded expansion.bindings directives then do
        let nested ← expansion.expand available none nested
        let arguments := GraphQL.argumentsToJson expansion.bindings arguments
        let others ← expansion.expand available condition rest
        return selectionUnder condition name label arguments nested :: others
      else
        expansion.expand available condition rest
  | .inlineFragment inner directives nested :: rest =>
      if GraphQL.isIncluded expansion.bindings directives then do
        let expanded ←
          expansion.expand available (inner.or condition) nested
        let others ← expansion.expand available condition rest
        return expanded ++ others
      else
        expansion.expand available condition rest
  | .spread name directives :: rest =>
      if GraphQL.isIncluded expansion.bindings directives then
        match _found : available.find? name with
        | some fragment => do
            let expanded ←
              expansion.expand (available.without name)
                (some fragment.condition) fragment.selections
            let others ← expansion.expand available condition rest
            return expanded ++ others
        | none =>
            if (expansion.fragments.find? name).isSome then
              .error (.fragmentCycle name)
            else
              .error (.unknownFragment name)
      else
        expansion.expand available condition rest
termination_by (available.fragments.length, sizeOf selections)
decreasing_by
  · exact Prod.Lex.right _ (sizeOf_field_nested_lt _ _ _ _ _ _)
  · exact Prod.Lex.right _ (sizeOf_rest_lt _ _)
  · exact Prod.Lex.right _ (sizeOf_rest_lt _ _)
  · exact Prod.Lex.right _ (sizeOf_inlineFragment_nested_lt _ _ _ _)
  · exact Prod.Lex.right _ (sizeOf_rest_lt _ _)
  · exact Prod.Lex.right _ (sizeOf_rest_lt _ _)
  · exact Prod.Lex.left _ _ (FragmentTable.length_without_lt _found)
  · exact Prod.Lex.right _ (sizeOf_rest_lt _ _)
  · exact Prod.Lex.right _ (sizeOf_rest_lt _ _)

/-- The value of a declared variable: as given, or its default, or null. -/
def variableValue
    (given : Table Json)
    (definition : GraphQL.VariableDefinition) : Json :=
  match given.get? definition.name with
  | some value => value
  | none =>
      match definition.defaultValue with
      | some value => value.toJson []
      | none => .null

/-- The values of the declared variables. -/
def variableValues
    (given : Table Json)
    (definitions : List GraphQL.VariableDefinition) : Table Json :=
  Table.ofPairs <| definitions.map fun definition =>
    (definition.name, variableValue given definition)

/-- The merged field selections of an operation of a document. -/
def selectionsOf
    (document : GraphQL.QueryDocument)
    (operation : GraphQL.Operation)
    (given : Table Json) : Except RequestError (List FieldSelection) := do
  let fragments := FragmentTable.ofDefinitions document.fragments
  let expansion : Expansion :=
    ⟨fragments, variableValues given operation.declared⟩
  let selections ← expansion.expand fragments none operation.selections
  return FieldSelection.merge selections

end Expansion

end GraphGate
