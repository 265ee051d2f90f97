import GraphGate.Aql.Rendering
import GraphGate.Response.Error
import GraphGate.Response.Node
import GraphGate.Selection

namespace GraphGate

/-!
# Shaping records

Records are shaped into a result tree after the declared types and the selection
they answer. A null where none is allowed moves up to the nearest place that may
be null; the failure behind it is reported once, where it arose.

A projected document has its fields under response keys and its type in its
metadata. An object stored inside a document has them under field names, and its
type in itself.
-/

/-- A value or a null that moves up, together with the failures found on the way. -/
structure Completion (α : Type) where
  /-- The value; none for a null that moves up. -/
  value : Option α
  errors : List FieldError

namespace Completion

variable {α β : Type}

/-- A value found without failures. -/
protected def pure (value : α) : Completion α :=
  ⟨some value, []⟩

/-- Goes on with a value, unless a null moves up. -/
protected def bind (first : Completion α) (next : α → Completion β) :
    Completion β :=
  match first.value with
  | none => ⟨none, first.errors⟩
  | some value =>
      let second := next value
      ⟨second.value, first.errors ++ second.errors⟩

instance : Monad Completion where
  pure := Completion.pure
  bind := Completion.bind

/-- Reports a failure and sends a null up. -/
def fail (cause : FetchError) (path : FieldPath) : Completion α :=
  ⟨none, [⟨cause, path⟩]⟩

/-- Reports a failure and goes on. -/
def report (cause : FetchError) (path : FieldPath) : Completion Unit :=
  ⟨some (), [⟨cause, path⟩]⟩

/-- A place that may be null stops a null that moves up. -/
def absorb (completion : Completion ResultNode) : Completion ResultNode :=
  ⟨some (completion.value.getD .null), completion.errors⟩

/-- A place that must not be null sends a null up. -/
def require
    (field : String)
    (path : FieldPath)
    (completion : Completion ResultNode) : Completion ResultNode :=
  completion.bind fun node =>
    if node.isNull then fail (.nullValue field) path else .pure node

/-- Shapes the items of a list, each at its own place. -/
def items
    (each : Json → FieldPath → Completion ResultNode)
    (path : FieldPath) : Nat → List Json → Completion (List ResultNode)
  | _, [] => .pure []
  | index, item :: rest => do
      let node ← each item (path.index index)
      let nodes ← items each path (index + 1) rest
      return node :: nodes

/-- Shapes a value where a list is declared. -/
def listOf
    (field : String)
    (each : Json → FieldPath → Completion ResultNode)
    (value : Json)
    (path : FieldPath) : Completion ResultNode :=
  match value with
  | .null => .pure .null
  | .array values => do
      return .list (← items each path 0 values)
  | other => fail (.invalidValue field .list other) path

/--
Shapes a value where a type is declared, without regard to whether the place
itself may be null. Named types are shaped by a given function.
-/
def attempt
    (field : String)
    (named : String → Json → FieldPath → Completion ResultNode) :
    TypeRef → Json → FieldPath → Completion ResultNode
  | .named name, value, path =>
      if value.isNull then .pure .null else named name value path
  | .list (.nonNull inner), value, path =>
      listOf field
        (fun item place =>
          require field place (attempt field named inner item place))
        value path
  | .list (.named name), value, path =>
      listOf field
        (fun item place =>
          absorb (attempt field named (.named name) item place))
        value path
  | .list (.list item), value, path =>
      listOf field
        (fun value place =>
          absorb (attempt field named (.list item) value place))
        value path
  | .nonNull inner, value, path =>
      if value.isNull then
        .pure .null
      else
        require field path (attempt field named inner value path)

/-- Shapes a value where a type is declared. -/
def complete
    (field : String)
    (named : String → Json → FieldPath → Completion ResultNode)
    (type : TypeRef)
    (value : Json)
    (path : FieldPath) : Completion ResultNode :=
  match type with
  | .nonNull inner => require field path (attempt field named inner value path)
  | nullable => absorb (attempt field named nullable value path)

/-- Where a list is declared, each item is shaped after the type of the items. -/
theorem attempt_list
    (field : String)
    (named : String → Json → FieldPath → Completion ResultNode)
    (item : TypeRef)
    (value : Json)
    (path : FieldPath) :
    attempt field named (.list item) value path =
      listOf field (complete field named item) value path := by
  cases item <;> rfl

end Completion

/-- How a record holds its fields. -/
inductive RecordSource where
  /-- A projected document: by response key. -/
  | document
  /-- An object stored inside a document: by field name. -/
  | embedded
deriving Repr, DecidableEq

/-- What shaping depends on besides the record. -/
structure Shaper where
  model : Model
  registry : DiscriminatorRegistry

namespace Shaper

/-- The part of a record that names its concrete type. -/
def typeRecord (source : RecordSource) (record : Json) : Json :=
  match source with
  | .document => (record.member? metaKey).getD record
  | .embedded => record

/--
The declaration of a selected field: on the concrete type, or else on the first
of its type conditions that has it, or else on the declared type.
-/
def declaration?
    (shaper : Shaper)
    (concrete declared : String)
    (selection : FieldSelection) : Option FieldDeclaration :=
  (concrete :: selection.conditions ++ [declared]).findSome? fun owner =>
    shaper.model.field? owner selection.name

/-- The value of a field in a record, null if the record has none. -/
def fieldValue
    (source : RecordSource)
    (record : Json)
    (key : String)
    (field : FieldDeclaration) : Json :=
  let member :=
    match source with
    | .document => key
    | .embedded => field.name
  (record.member? member).getD .null

/-- How the value of a field holds its own fields. -/
def fieldSource (source : RecordSource) (field : FieldDeclaration) :
    RecordSource :=
  match source with
  | .document =>
      if field.directives.relation.isSome then .document else .embedded
  | .embedded => .embedded

/-- Whether a selection is answered for records of a concrete type. -/
def applies (shaper : Shaper) (concrete : String) (selection : FieldSelection) :
    Bool :=
  selection.appliesTo concrete shaper.model.isSubtype

mutual

/-- Shapes a value, which is not null, where a named type is declared. -/
def completeNamed (shaper : Shaper) :
    FieldSelection → RecordSource → String → Json → FieldPath →
      Completion ResultNode
  | ⟨name, _, _, _, nested⟩, source, type, value, path =>
      if shaper.model.isLeaf type then
        .pure (.scalar value)
      else if !value.isObject then
        .fail (.invalidValue name .object value) path
      else
        match shaper.registry.concreteType type (typeRecord source value) with
        | .error cause => .fail (.unresolvedType cause) path
        | .ok concrete => do
            let fields ←
              shaper.completeFields concrete type source value path [] nested
            return .object concrete fields

/-- Shapes the selected fields of a record, each response key once. -/
def completeFields
    (shaper : Shaper)
    (concrete declared : String)
    (source : RecordSource)
    (record : Json)
    (path : FieldPath)
    (fields : List (String × ResultNode)) :
    List FieldSelection → Completion (List (String × ResultNode))
  | [] => .pure fields
  | selection :: rest =>
      let key := selection.responseKey
      let place := path.key key
      if !shaper.applies concrete selection ∨ Table.has fields key then
        shaper.completeFields concrete declared source record path fields rest
      else if selection.isTypename then
        shaper.completeFields concrete declared source record path
          (fields ++ [(key, .scalar (.string concrete))]) rest
      else
        match shaper.declaration? concrete declared selection with
        | none => do
            .report
              (.unsupportedSelection ⟨concrete, selection.name, .noSuchField⟩)
              place
            shaper.completeFields concrete declared source record path
              (fields ++ [(key, .null)]) rest
        | some field => do
            let node ←
              Completion.complete selection.name
                (shaper.completeNamed selection (fieldSource source field))
                field.type
                (fieldValue source record key field)
                place
            shaper.completeFields concrete declared source record path
              (fields ++ [(key, node)]) rest

end

/-- Shapes a value where a type is declared. -/
def complete
    (shaper : Shaper)
    (type : TypeRef)
    (value : Json)
    (selection : FieldSelection)
    (source : RecordSource)
    (path : FieldPath) : Completion ResultNode :=
  Completion.complete selection.name
    (shaper.completeNamed selection source) type value path

end Shaper

end GraphGate
