import GraphGate.Compilation.Arguments
import GraphGate.Schema.Discriminator

namespace GraphGate

/-!
# Query generators

A generator answers a field with a fragment, or passes. A chain tries its
generators in order, and the first fragment is taken. Relations are only ever
answered by a traversal, root fields by a scan of one collection, and whatever
is stored inside a document by one of its properties.
-/

/-- Where a selected field is evaluated. -/
inductive Scope where
  /-- On the query type. -/
  | root
  /-- On a record that is known by its id. -/
  | startVertex
  /-- On the documents bound to a loop variable. -/
  | document (loop : String)
  /-- On an object stored inside a document. -/
  | embedded (path : String)
deriving Repr, DecidableEq

/-- A field that is to be answered, with all that a generator may ask about it. -/
structure CompileContext where
  model : Model
  registry : DiscriminatorRegistry
  parentType : String
  field : FieldDeclaration
  fieldName : String
  scope : Scope
  loop : String
  arguments : CompiledArguments

namespace CompileContext

/-- The innermost name of the declared result type. -/
def resultType (context : CompileContext) : String :=
  context.field.type.namedType

/-- Whether the field is a step along edges. -/
def isRelation (context : CompileContext) : Bool :=
  context.field.directives.relation.isSome

/-- How many documents the field gives. -/
def cardinality (context : CompileContext) : Cardinality :=
  if context.field.type.isList then .many else .one

/-- The documents of a source as the field wants them, with nothing selected yet. -/
def documents (context : CompileContext) (source : DocumentSource) :
    QueryFragment :=
  .documents {
    loop := context.loop
    source := source
    filters := context.arguments.filters
    pagination := context.arguments.pagination
    discriminator :=
      (context.registry.mapping? context.resultType).map
        DiscriminatorMapping.property
    projection := []
    cardinality := context.cardinality
  }

end CompileContext

/-- The ways of answering a field. -/
inductive Generator where
  /-- A relation field: one step from the enclosing or the start document. -/
  | edgeTraversal
  /-- A root field of an abstract type: a scan of the collection its types share. -/
  | discriminatedVertex
  /-- A root field of a concrete type: a scan of its collection. -/
  | vertexLookup
  /-- A field stored inside the enclosing document. -/
  | storedProperty
deriving Repr, DecidableEq

namespace Generator

/-- The name of a generator in configurations and messages. -/
def name : Generator → String
  | .edgeTraversal => "edge_traversal"
  | .discriminatedVertex => "discriminated_vertex"
  | .vertexLookup => "vertex_lookup"
  | .storedProperty => "attribute"

/-- All generators, in the order of the default chain. -/
def all : List Generator :=
  [.edgeTraversal, .discriminatedVertex, .vertexLookup, .storedProperty]

/-- The generator of a name. -/
def ofName? (name : String) : Option Generator :=
  all.find? fun generator => generator.name = name

/-- Answers a relation field by a step from a document. -/
def traverseEdge? (context : CompileContext) : Option QueryFragment :=
  match context.field.directives.relation with
  | none => none
  | some relation =>
      let from? : Option TraversalStart :=
        match context.scope with
        | .document loop => some (.loop loop)
        | .startVertex => some .parameter
        | .root | .embedded _ => none
      from?.map fun start =>
        context.documents
          (.traversal start relation.direction relation.collection)

/-- Answers a root field of an abstract type that has a discriminator. -/
def scanAbstract? (context : CompileContext) : Option QueryFragment :=
  let type := context.resultType
  if context.scope = .root ∧ !context.isRelation ∧
      context.model.isAbstract type ∧
      context.registry.isDiscriminated type then
    (context.model.collectionFor? type).map fun collection =>
      context.documents (.collection collection)
  else
    none

/-- Answers a root field of a concrete type that is stored in a collection. -/
def scanConcrete? (context : CompileContext) : Option QueryFragment :=
  let type := context.resultType
  if context.scope = .root ∧ !context.isRelation ∧
      !context.model.isAbstract type then
    (context.model.typeDirectives type).collection?.map fun collection =>
      context.documents (.collection collection)
  else
    none

/-- Answers a field whose value is stored inside the enclosing document. -/
def readProperty? (context : CompileContext) : Option QueryFragment :=
  let inside? : Option String :=
    match context.scope with
    | .document loop => some loop
    | .embedded path => some path
    | .root | .startVertex => none
  if context.isRelation ∨
      (context.model.collectionFor? context.resultType).isSome then
    none
  else
    inside?.map fun loop => .property loop context.field.name

/-- What a generator makes of a field. -/
def generate? : Generator → CompileContext → Option QueryFragment
  | .edgeTraversal => traverseEdge?
  | .discriminatedVertex => scanAbstract?
  | .vertexLookup => scanConcrete?
  | .storedProperty => readProperty?

end Generator

/-- Generators in the order in which they are tried. -/
abbrev GeneratorChain := List Generator

namespace GeneratorChain

/-- The chain of all generators. -/
def standard : GeneratorChain :=
  Generator.all

/-- The names of the generators, in order. -/
def names (chain : GeneratorChain) : List String :=
  chain.map Generator.name

/-- Why no generator of a chain answers a field. -/
def explain (chain : GeneratorChain) (context : CompileContext) :
    UnsupportedReason :=
  let type := context.resultType
  match context.scope with
  | .root =>
      if context.isRelation then
        .relationWithoutDocument
      else if context.model.isLeaf type then
        .notFetchable
      else if context.model.isAbstract type &&
          !context.registry.isDiscriminated type then
        .undiscriminated type
      else
        .notStored type
  | .startVertex =>
      if context.isRelation then
        .relationWithoutDocument
      else if context.model.isLeaf type then
        .notFetchable
      else
        .notStored type
  | .document _ =>
      if (context.model.collectionFor? type).isSome then
        .storedWithoutEdge type
      else
        .noGenerator chain.names
  | .embedded _ =>
      if context.isRelation then
        .relationOfEmbedded
      else if (context.model.collectionFor? type).isSome then
        .storedWithoutEdge type
      else
        .noGenerator chain.names

/-- The fragment of the first generator that answers a field. -/
def generate (chain : GeneratorChain) (context : CompileContext) :
    Except UnsupportedSelection QueryFragment :=
  match chain.findSome? fun generator => generator.generate? context with
  | some fragment => .ok fragment
  | none =>
      .error ⟨context.parentType, context.fieldName, chain.explain context⟩

end GeneratorChain

end GraphGate
