import GraphGate.Compilation.Compiler
import GraphGate.Response.Shaping
import GraphGate.Storage.Command

namespace GraphGate

/-!
# Fetching fields

A field is prepared, which needs no database: it is compiled to a fragment tree.
Executing it asks the database one query and shapes the records. The name of the
concrete type is answered without a query.
-/

namespace DocumentsFragment

/--
The records of a fragment tree, from one query. A start document is bound if the
tree expects one. A failed query is reported at a place in the response.
-/
def execute
    (fragment : DocumentsFragment)
    (database : String)
    (start : Option String)
    (timeout : Option Nat)
    (path : FieldPath) :
    DatabaseDialogue (Except ExecutionError (List Json)) :=
  let ask (query : AqlQuery) :
      DatabaseDialogue (Except ExecutionError (List Json)) := do
    match ← DatabaseDialogue.query database query timeout with
    | .finished (.ok records) => return .ok records
    | .finished (.error cause) => return .error ⟨path, .transport cause⟩
    | .timedOut => return .error ⟨path, .timeout (timeout.getD 0)⟩
  if fragment.traversesFromStart then
    match start with
    | some id => ask (fragment.render.bind startParameter (.string id))
    | none => return .error ⟨path, .unboundStartVertex⟩
  else
    ask fragment.render

end DocumentsFragment

/-- What a field is fetched for. -/
inductive FetchParent where
  /-- A field of the query type. -/
  | root
  /-- A field of a record that the caller knows by its id. -/
  | record (type : String) (id : String)
deriving Repr, DecidableEq

/-- What a field gave, with the failures found on the way. -/
structure FetchResult where
  /-- The shaped answer; none if a null has to move up beyond the field. -/
  data : Option ResultNode
  errors : List FieldError

/-- A field that is ready to be answered. -/
inductive PreparedField where
  /-- The name of the concrete type, answered without a query. -/
  | typename (type : String)
  | query
      (field : FieldDeclaration)
      (selection : FieldSelection)
      (fragment : DocumentsFragment)
      (start : Option String)

/-- Answers single fields, with everything that stays the same between requests. -/
structure DataFetcher where
  model : Model
  registry : DiscriminatorRegistry
  chain : GeneratorChain
  database : String
  /-- The milliseconds a query may take. -/
  timeout : Option Nat

namespace DataFetcher

/-- What compiling depends on. -/
def compiler (fetcher : DataFetcher) : Compiler :=
  ⟨fetcher.model, fetcher.registry, fetcher.chain⟩

/-- What shaping depends on. -/
def shaper (fetcher : DataFetcher) : Shaper :=
  ⟨fetcher.model, fetcher.registry⟩

/-- The type a field is selected on, and where the field is evaluated. -/
def resolveParent
    (fetcher : DataFetcher)
    (selection : FieldSelection) :
    FetchParent → Except UnsupportedSelection (String × Scope × Option String)
  | .root =>
      match fetcher.model.queryType? with
      | some queryType => .ok (queryType.name, .root, none)
      | none =>
          .error ⟨defaultQueryType, selection.name, .noQueryType⟩
  | .record type id =>
      let declaration? :=
        (fetcher.model.canonicalType? type).bind fetcher.model.type?
      match declaration? with
      | some declaration => .ok (declaration.name, .startVertex, some id)
      | none => .error ⟨type, selection.name, .unknownParentType⟩

/-- Makes a field ready to be answered. -/
def prepare
    (fetcher : DataFetcher)
    (selection : FieldSelection)
    (parent : FetchParent) : Except UnsupportedSelection PreparedField := do
  let (parentType, scope, start) ← fetcher.resolveParent selection parent
  if selection.isTypename then
    return .typename parentType
  else
    match ← fetcher.compiler.compileField parentType scope [] selection with
    | .property _ _ => throw ⟨parentType, selection.name, .notFetchable⟩
    | .documents fragment =>
        match fetcher.model.field? parentType selection.name with
        | some field => return .query field selection fragment start
        | none => throw ⟨parentType, selection.name, .noSuchField⟩

/-- The fragment tree that answers a field. -/
def compile
    (fetcher : DataFetcher)
    (selection : FieldSelection)
    (parent : FetchParent) :
    Except UnsupportedSelection DocumentsFragment := do
  match ← fetcher.prepare selection parent with
  | .query _ _ fragment _ => return fragment
  | .typename type => throw ⟨type, selection.name, .typenameWithoutQuery⟩

/-- The raw value of a field from the records of its query. -/
def rawValue (cardinality : Cardinality) (records : List Json) : Json :=
  match cardinality with
  | .many => .array records
  | .one => records.head?.getD .null

/-- Shapes what the query of a field gave. -/
def shape
    (fetcher : DataFetcher)
    (field : FieldDeclaration)
    (selection : FieldSelection)
    (cardinality : Cardinality)
    (path : FieldPath) :
    Except ExecutionError (List Json) → FetchResult
  | .ok records =>
      let completion :=
        fetcher.shaper.complete field.type
          (rawValue cardinality records) selection .document path
      ⟨completion.value, completion.errors⟩
  | .error cause =>
      ⟨if field.type.isNonNull then none else some .null,
        [⟨.execution cause, path⟩]⟩

/-- Answers a prepared field at a place in the response. -/
def executePrepared
    (fetcher : DataFetcher)
    (prepared : PreparedField)
    (path : FieldPath) : DatabaseDialogue FetchResult :=
  match prepared with
  | .typename type => return ⟨some (.scalar (.string type)), []⟩
  | .query field selection fragment start => do
      let records ←
        fragment.execute fetcher.database start fetcher.timeout path
      return fetcher.shape field selection fragment.cardinality path records

/-- Answers a field at the top of a response. -/
def fetch
    (fetcher : DataFetcher)
    (selection : FieldSelection)
    (parent : FetchParent) : DatabaseDialogue FetchResult :=
  let path := FieldPath.root.key selection.responseKey
  match fetcher.prepare selection parent with
  | .ok prepared => fetcher.executePrepared prepared path
  | .error cause => return ⟨none, [⟨.unsupportedSelection cause, path⟩]⟩

end DataFetcher

end GraphGate
