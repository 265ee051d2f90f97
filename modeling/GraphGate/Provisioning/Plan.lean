import GraphGate.Json.Basic
import GraphGate.Schema.Model

namespace GraphGate

/-!
# The provisioning plan

A plan lists every collection a schema needs with its kind and its indexes, in
the order in which the schema first uses them. A collection gets an index on the
discriminator property of each abstract type stored in it, and the indexes that
the fields of the types stored in it declare. No index is listed twice.
-/

/-- A collection that is needed, with its indexes. -/
structure CollectionPlan where
  name : String
  kind : CollectionKind
  indexes : List IndexSpec
deriving Repr, DecidableEq

/-- The collections that are needed, in order. -/
structure ProvisioningPlan where
  collections : List CollectionPlan
deriving Repr, DecidableEq

/-- Adds an index, unless the collection has it already. -/
def CollectionPlan.addIndex (plan : CollectionPlan) (index : IndexSpec) :
    CollectionPlan :=
  if index ∈ plan.indexes then
    plan
  else
    { plan with indexes := plan.indexes ++ [index] }

namespace ProvisioningPlan

/-- Whether nothing is needed. -/
def isEmpty (plan : ProvisioningPlan) : Bool :=
  plan.collections.isEmpty

/-- The plan of one collection. -/
def collection? (plan : ProvisioningPlan) (name : String) :
    Option CollectionPlan :=
  plan.collections.find? (·.name = name)

/-- Adds an index to a collection of the plan. -/
def addIndex
    (plan : ProvisioningPlan)
    (request : String × IndexSpec) : ProvisioningPlan where
  collections :=
    plan.collections.map fun collection =>
      if collection.name = request.1 then
        collection.addIndex request.2
      else
        collection

/--
Where the discriminator property of a type is indexed: in the collection of the
type, or else in each of those that its possible types are stored in.
-/
def discriminatorCollections (model : Model) (name : String) : List String :=
  match model.collectionFor? name with
  | some collection => [collection]
  | none =>
      (model.possibleTypes name).filterMap fun type =>
        type.directives.collection?

/-- The indexes on discriminator properties, with their collections. -/
def discriminatorIndexes (model : Model) : List (String × IndexSpec) :=
  model.types.items.flatMap fun declaration =>
    match declaration.directives.discriminator with
    | none => []
    | some property =>
        (discriminatorCollections model declaration.name).map fun collection =>
          (collection, IndexSpec.persistent [property])

/-- The index that a field declares. -/
def fieldIndex? (field : FieldDeclaration) : Option IndexSpec :=
  field.directives.index.map fun index =>
    ⟨index.kind, [field.name], index.unique, index.sparse⟩

/-- The indexes that fields declare, with their collections. -/
def fieldIndexes (model : Model) : List (String × IndexSpec) :=
  model.types.items.flatMap fun declaration =>
    match model.collectionFor? declaration.name with
    | none => []
    | some collection =>
        (declaration.fields.items.filterMap fieldIndex?).map (collection, ·)

/-- The collections of a model without indexes. -/
def bare (model : Model) : ProvisioningPlan where
  collections := model.collections.map fun entry => ⟨entry.1, entry.2, []⟩

/-- The plan of a model. -/
def ofModel (model : Model) : ProvisioningPlan :=
  (discriminatorIndexes model ++ fieldIndexes model).foldl addIndex (bare model)

end ProvisioningPlan

/-- An index as the database takes it. -/
def IndexSpec.toJson (index : IndexSpec) : Json :=
  .object [
    ("type", .string index.kind.render),
    ("fields", .array (index.fields.map Json.string)),
    ("unique", .bool index.unique),
    ("sparse", .bool index.sparse)]

/-- A collection of a plan as it is printed. -/
def CollectionPlan.toJson (plan : CollectionPlan) : Json :=
  .object [
    ("name", .string plan.name),
    ("kind", .string plan.kind.render),
    ("indexes", .array (plan.indexes.map IndexSpec.toJson))]

/-- A plan as it is printed. -/
def ProvisioningPlan.toJson (plan : ProvisioningPlan) : Json :=
  .object [("collections", .array (plan.collections.map CollectionPlan.toJson))]

end GraphGate
