import GraphGate.Json.Printer
import GraphGate.Schema.Model

namespace GraphGate

/-!
# Discriminators

The records of an abstract type name their concrete type in a property, by the
type's own name or by one of its aliases. The registry holds, for every abstract
type with such a property, which value stands for which type. It is built once
from a model and only read afterwards.
-/

/-- How the records of one abstract type name their concrete type. -/
structure DiscriminatorMapping where
  property : String
  values : Table String
deriving Repr, DecidableEq

/-- The mappings of all abstract types, and the names of these types. -/
structure DiscriminatorRegistry where
  mappings : Table DiscriminatorMapping
  abstractTypes : List String
deriving Repr, DecidableEq

/-- Why the concrete type of a record is unknown. -/
inductive UnresolvedCause where
  | noDiscriminator
  | missingProperty (property : String)
  | unmappedValue (property : String) (value : Json)
deriving Repr

/-- The concrete type of a record of an abstract type is unknown. -/
structure UnresolvedType where
  abstractType : String
  cause : UnresolvedCause
deriving Repr

/-- The failure in words. -/
def UnresolvedType.message (failure : UnresolvedType) : String :=
  let start :=
    "Could not resolve the concrete type of \"" ++ failure.abstractType ++
      "\": "
  match failure.cause with
  | .noDiscriminator => start ++ "the type declares no @discriminator."
  | .missingProperty property =>
      start ++ "the record has no \"" ++ property ++ "\" property."
  | .unmappedValue property value =>
      start ++ "the value " ++ value.render ++ " of \"" ++ property ++
        "\" maps to no type."

namespace DiscriminatorRegistry

/-- Maps one value to a type, unless the value is mapped already. -/
def addValue
    (abstractType concreteType : String)
    (values : Table String)
    (value : String) : Except SchemaError (Table String) :=
  match values.get? value with
  | some first =>
      .error (.duplicateDiscriminatorValue abstractType value first concreteType)
  | none => .ok (values ++ [(value, concreteType)])

/-- Maps the name and the aliases of one possible type. -/
def addType
    (model : Model)
    (abstractType : String)
    (values : Table String)
    (concrete : TypeDeclaration) : Except SchemaError (Table String) :=
  (concrete.name :: model.aliasesOf concrete.name).foldlM
    (addValue abstractType concrete.name) values

/-- The values that stand for the possible types of an abstract type. -/
def valuesFor (model : Model) (abstractType : String) :
    Except SchemaError (Table String) :=
  (model.possibleTypes abstractType).foldlM (addType model abstractType) []

/-- Takes in the mapping of a type, if the type is abstract and has one. -/
def addMapping
    (model : Model)
    (registry : DiscriminatorRegistry)
    (declaration : TypeDeclaration) :
    Except SchemaError DiscriminatorRegistry :=
  if declaration.kind.isAbstract then
    let abstractTypes := registry.abstractTypes ++ [declaration.name]
    match declaration.directives.discriminator with
    | none => .ok { registry with abstractTypes := abstractTypes }
    | some property => do
        let values ← valuesFor model declaration.name
        return {
          mappings := registry.mappings ++ [(declaration.name, ⟨property, values⟩)]
          abstractTypes := abstractTypes
        }
  else
    .ok registry

/-- The registry of a model, if no value stands for two types. -/
def ofModel (model : Model) : Except SchemaError DiscriminatorRegistry :=
  model.types.items.foldlM (addMapping model) ⟨[], []⟩

/-- The mapping of an abstract type. -/
def mapping? (registry : DiscriminatorRegistry) (type : String) :
    Option DiscriminatorMapping :=
  registry.mappings.get? type

/-- Whether a type has a mapping. -/
def isDiscriminated (registry : DiscriminatorRegistry) (type : String) : Bool :=
  registry.mappings.has type

/--
The concrete type of a record where a type is declared. Types that are not
abstract stand for themselves.
-/
def concreteType
    (registry : DiscriminatorRegistry)
    (declared : String)
    (record : Json) : Except UnresolvedType String :=
  match registry.mapping? declared with
  | none =>
      if registry.abstractTypes.contains declared then
        .error ⟨declared, .noDiscriminator⟩
      else
        .ok declared
  | some mapping =>
      match record.member? mapping.property with
      | none | some .null => .error ⟨declared, .missingProperty mapping.property⟩
      | some (.string value) =>
          match mapping.values.get? value with
          | some concrete => .ok concrete
          | none =>
              .error ⟨declared, .unmappedValue mapping.property (.string value)⟩
      | some other => .error ⟨declared, .unmappedValue mapping.property other⟩

end DiscriminatorRegistry

end GraphGate
