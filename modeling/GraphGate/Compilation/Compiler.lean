import GraphGate.Aql.Rendering
import GraphGate.Compilation.Generator

namespace GraphGate

/-!
# Compiling selections

A selection compiles together with everything nested in it. What is nested in
documents goes into their projection, once for each response key; what is nested
in a property is only checked, because the property is returned as it is stored.
-/

/-- What a compilation depends on besides the selection. -/
structure Compiler where
  model : Model
  registry : DiscriminatorRegistry
  chain : GeneratorChain

namespace Compiler

/-- A declaration together with the type that has it. -/
abbrev OwnedField := String × FieldDeclaration

/--
The type that declares a nested field: the first of its type conditions that
has the field, or the result type. Every condition has to be able to apply, and
those that have the field have to agree on it.
-/
def ownerType
    (compiler : Compiler)
    (resultType : String)
    (nested : FieldSelection) : Except UnsupportedSelection String :=
  let model := compiler.model
  let refuse (reason : UnsupportedReason) : Except UnsupportedSelection String :=
    .error ⟨resultType, nested.name, reason⟩
  match nested.conditions with
  | [] => .ok resultType
  | first :: _ =>
      let foreign :=
        nested.conditions.find? fun condition =>
          !model.isSubtype condition resultType &&
            !model.isSubtype resultType condition
      match foreign with
      | some condition => refuse (.neverApplies condition resultType)
      | none =>
          let declaring : List OwnedField :=
            nested.conditions.filterMap fun condition =>
              (model.field? condition nested.name).map (condition, ·)
          match declaring with
          | [] => .ok first
          | (owner, field) :: others =>
              let differing :=
                others.find? fun other =>
                  other.2.type ≠ field.type ∨
                    other.2.directives ≠ field.directives
              match differing with
              | some (other, _) => refuse (.declaredDifferently owner other)
              | none => .ok owner

/-- Refuses fields selected on a leaf, and other results without any. -/
def checkSelected
    (compiler : Compiler)
    (parentType : String)
    (selection : FieldSelection)
    (resultType : String) : Except UnsupportedSelection Unit :=
  match compiler.model.isLeaf resultType, selection.nested.isEmpty with
  | true, false =>
      .error ⟨parentType, selection.name, .noFieldsToSelect resultType⟩
  | false, true =>
      .error ⟨parentType, selection.name, .selectionRequired resultType⟩
  | _, _ => .ok ()

/-- The fragment of a field without what is nested in it, and the declaration of the field. -/
def fieldFragment
    (compiler : Compiler)
    (parentType : String)
    (scope : Scope)
    (path : List String)
    (selection : FieldSelection) :
    Except UnsupportedSelection (FieldDeclaration × QueryFragment) := do
  match compiler.model.field? parentType selection.name with
  | none => throw ⟨parentType, selection.name, .noSuchField⟩
  | some field =>
      compiler.checkSelected parentType selection field.type.namedType
      let arguments ← CompiledArguments.ofSelection parentType selection
      let fragment ← compiler.chain.generate {
        model := compiler.model
        registry := compiler.registry
        parentType := parentType
        field := field
        fieldName := selection.name
        scope := scope
        loop := variableName path
        arguments := arguments
      }
      return (field, fragment)

mutual

/-- The fragment of a field below a path of response keys, with all that is nested in it. -/
def compileField
    (compiler : Compiler)
    (parentType : String)
    (scope : Scope)
    (keys : List String) :
    FieldSelection → Except UnsupportedSelection QueryFragment
  | ⟨name, label, arguments, conditions, nested⟩ => do
      let selection : FieldSelection :=
        ⟨name, label, arguments, conditions, nested⟩
      let path := keys ++ [selection.responseKey]
      let (field, fragment) ←
        compiler.fieldFragment parentType scope path selection
      let resultType := field.type.namedType
      match fragment with
      | .documents documents =>
          let projection ←
            compiler.compileProjection resultType documents.loop path [] nested
          return .documents { documents with projection := projection }
      | .property loop property =>
          let embedded := DocumentsFragment.propertyText loop property
          compiler.checkEmbedded resultType embedded path nested
          return .property loop property

/-- Adds the nested fields of documents to their projection. -/
def compileProjection
    (compiler : Compiler)
    (resultType loop : String)
    (path : List String)
    (projection : List (String × QueryFragment)) :
    List FieldSelection →
      Except UnsupportedSelection (List (String × QueryFragment))
  | [] => .ok projection
  | selection :: rest =>
      if selection.isTypename ∨ Table.has projection selection.responseKey then
        compiler.compileProjection resultType loop path projection rest
      else do
        let owner ← compiler.ownerType resultType selection
        let fragment ←
          compiler.compileField owner (.document loop) path selection
        compiler.compileProjection resultType loop path
          (projection ++ [(selection.responseKey, fragment)]) rest

/-- Checks the nested fields of a property. -/
def checkEmbedded
    (compiler : Compiler)
    (resultType embedded : String)
    (path : List String) :
    List FieldSelection → Except UnsupportedSelection Unit
  | [] => .ok ()
  | selection :: rest =>
      if selection.isTypename then
        compiler.checkEmbedded resultType embedded path rest
      else do
        let owner ← compiler.ownerType resultType selection
        let _ ← compiler.compileField owner (.embedded embedded) path selection
        compiler.checkEmbedded resultType embedded path rest

end

end Compiler

end GraphGate
