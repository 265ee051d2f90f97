import GraphGate.GraphQL.SchemaGrammar
import GraphGate.Schema.Builder
import GraphGate.Schema.Directive

namespace GraphGate

/-!
# Loading schema documents

Several schema documents make up one schema, and a type may be extended in
another document than its own. Input types only occur in arguments and are left
out, as are definitions of directives and extensions of other kinds than objects
and interfaces. Of several schema definitions the last with a query type counts.
-/

namespace ModelBuilder

/-- Reads the fields of a type, no two of one name. -/
def readFields (type : String) (fields : List GraphQL.FieldDefinition) :
    Except SchemaError (Catalogue FieldDeclaration) :=
  fields.foldlM
    (fun catalogue field => do
      let directives ← FieldDirectives.read type field.name field.directives
      match catalogue.add? ⟨field.name, field.type, directives⟩ with
      | some catalogue => return catalogue
      | none => throw (.duplicateField type field.name))
    Catalogue.empty

/-- The declaration of a type, none for an input type. -/
def readType? (definition : GraphQL.TypeDefinition) :
    Except SchemaError (Option TypeDeclaration) :=
  let name := definition.name
  match definition.body with
  | .object interfaces fields => do
      let directives ← TypeDirectives.read name definition.directives
      let fields ← readFields name fields
      return some ⟨name, .object interfaces, fields, directives⟩
  | .interface _ fields => do
      let directives ← TypeDirectives.read name definition.directives
      let fields ← readFields name fields
      return some ⟨name, .interface, fields, directives⟩
  | .union members => do
      let directives ← TypeDirectives.read name definition.directives
      return some ⟨name, .union members, Catalogue.empty, directives⟩
  | .scalar => .ok (some (.bare name .scalar))
  | .enumeration _ => .ok (some (.bare name .enumeration))
  | .input _ => .ok none

/-- The fields and interfaces that an extension adds, none for other kinds. -/
def readExtension? (definition : GraphQL.TypeDefinition) :
    Except SchemaError (Option TypeExtension) :=
  let name := definition.name
  match definition.body with
  | .object interfaces fields => do
      let fields ← readFields name fields
      return some ⟨name, interfaces, fields.items⟩
  | .interface _ fields => do
      let fields ← readFields name fields
      return some ⟨name, [], fields.items⟩
  | _ => .ok none

/-- Takes in one definition of a schema document. -/
def addDefinition
    (builder : ModelBuilder)
    (definition : GraphQL.SchemaDefinition) :
    Except SchemaError ModelBuilder :=
  match definition with
  | .schema operations =>
      match operations.query with
      | some name => .ok (builder.setQueryType name)
      | none => .ok builder
  | .type definition => do
      match ← readType? definition with
      | some declaration => builder.declareType declaration
      | none => return builder
  | .extension definition => do
      match ← readExtension? definition with
      | some extension => return builder.extendType extension
      | none => return builder
  | .directive _ => .ok builder

/-- Takes in a schema document, given by its file name and its text. -/
def addFile (builder : ModelBuilder) (file : String × String) :
    Except SchemaError ModelBuilder :=
  match GraphQL.SchemaDefinition.parseAll file.2 with
  | .error position => .error (.parse file.1 position)
  | .ok definitions => definitions.foldlM addDefinition builder

end ModelBuilder

namespace Model

/-- The model of several schema documents, given by file names and texts. -/
def ofFiles (files : List (String × String)) : Except SchemaError Model := do
  let builder ← files.foldlM ModelBuilder.addFile ModelBuilder.empty
  builder.build

/-- The model of a single schema document. -/
def ofText (text : String) : Except SchemaError Model :=
  ofFiles [("schema.graphqls", text)]

end Model

end GraphGate
