import GraphGate.Catalogue
import GraphGate.Storage.Collection
import GraphGate.TypeRef

namespace GraphGate

/-!
# Type declarations

A declared type has a kind, fields and storage directives. The directives say
which collection its records live in, which property of a record names its
concrete type, by what other names it goes, which fields are steps along edges,
and which fields are indexed.
-/

/-- The scalars that every schema knows without declaring them. -/
def builtinScalars : List String :=
  ["Int", "Float", "String", "Boolean", "ID"]

/-- The collection that the records of a type are stored in. -/
structure CollectionDirective where
  collection : String
  kind : CollectionKind
deriving Repr, DecidableEq

/-- The storage directives of a type. -/
structure TypeDirectives where
  storage : Option CollectionDirective
  discriminator : Option String
  aliases : List String
deriving Repr, DecidableEq, Inhabited

namespace TypeDirectives

/-- No directives at all. -/
def none : TypeDirectives where
  storage := .none
  discriminator := .none
  aliases := []

/-- The name of the collection. -/
def collection? (directives : TypeDirectives) : Option String :=
  directives.storage.map CollectionDirective.collection

end TypeDirectives

/-- The direction in which an edge is followed. -/
inductive Direction where
  | outbound
  | inbound
deriving Repr, DecidableEq, Inhabited

/-- The direction in words. -/
def Direction.render : Direction → String
  | .outbound => "OUTBOUND"
  | .inbound => "INBOUND"

/-- A field that is one step along the edges of a collection. -/
structure RelationDirective where
  collection : String
  direction : Direction
deriving Repr, DecidableEq

/-- The index on a field. -/
structure IndexDirective where
  kind : IndexKind
  unique : Bool
  sparse : Bool
deriving Repr, DecidableEq

/-- The storage directives of a field. -/
structure FieldDirectives where
  relation : Option RelationDirective
  index : Option IndexDirective
deriving Repr, DecidableEq, Inhabited

/-- No directives at all. -/
def FieldDirectives.none : FieldDirectives where
  relation := .none
  index := .none

/-- A declared field. -/
structure FieldDeclaration where
  name : String
  type : TypeRef
  directives : FieldDirectives
deriving Repr, DecidableEq

instance : Named FieldDeclaration :=
  ⟨FieldDeclaration.name⟩

/-- The kinds of types, with the types that objects and unions refer to. -/
inductive TypeKind where
  | object (interfaces : List String)
  | interface
  | union (members : List String)
  | scalar
  | enumeration
deriving Repr, DecidableEq

namespace TypeKind

/-- Whether records have some other, concrete type. -/
def isAbstract : TypeKind → Bool
  | .interface => true
  | .union _ => true
  | _ => false

/-- Whether values have no fields. -/
def isLeaf : TypeKind → Bool
  | .scalar => true
  | .enumeration => true
  | _ => false

/-- The kind in words. -/
def describe : TypeKind → String
  | .object _ => "object type"
  | .interface => "interface"
  | .union _ => "union"
  | .scalar => "scalar"
  | .enumeration => "enum"

end TypeKind

/-- A declared type. -/
structure TypeDeclaration where
  name : String
  kind : TypeKind
  fields : Catalogue FieldDeclaration
  directives : TypeDirectives
deriving Repr, DecidableEq

instance : Named TypeDeclaration :=
  ⟨TypeDeclaration.name⟩

namespace TypeDeclaration

/-- A declaration without fields and directives. -/
def bare (name : String) (kind : TypeKind) : TypeDeclaration where
  name := name
  kind := kind
  fields := Catalogue.empty
  directives := TypeDirectives.none

/-- The field of a given name. -/
def field? (declaration : TypeDeclaration) (name : String) :
    Option FieldDeclaration :=
  declaration.fields.find? name

end TypeDeclaration

end GraphGate
