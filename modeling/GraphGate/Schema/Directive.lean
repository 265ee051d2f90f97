import GraphGate.GraphQL.Document
import GraphGate.Schema.Error

namespace GraphGate

/-!
# Reading storage directives

The directives of a type say where its records live (`@vertex`, `@edge`), which
property names the concrete type (`@discriminator`) and by what other names the
type goes (`@alias`). The directives of a field make it a step along edges
(`@edge`) or index it (`@index`). Directives of other names are left alone.

Of several faults the first in reading order is reported; within one directive
an unknown argument comes before a repetition, and that before a wrong value.
-/

namespace GraphQL.Directive

/-- The fault of this directive on a target. -/
def fault
    (directive : Directive)
    (target : DirectiveTarget)
    (fault : DirectiveFault) : SchemaError :=
  .invalidDirective directive.name target fault

/-- Refuses arguments other than the allowed ones. -/
def allowOnly
    (directive : Directive)
    (target : DirectiveTarget)
    (allowed : List String) : Except SchemaError Unit :=
  match directive.arguments.find? (fun argument => !allowed.contains argument.1) with
  | some (argument, _) =>
      .error (directive.fault target (.unknownArgument argument))
  | none => .ok ()

/-- Refuses a directive that was seen before. -/
def allowOnce
    (directive : Directive)
    (target : DirectiveTarget)
    (seen : Bool)
    (cause : DirectiveFault) : Except SchemaError Unit :=
  if seen then .error (directive.fault target cause) else .ok ()

/-- The text of an argument that has to be there. -/
def requiredString
    (directive : Directive)
    (target : DirectiveTarget)
    (argument : String) : Except SchemaError String :=
  match directive.argument? argument with
  | some (.string text) =>
      if text.isEmpty then
        .error (directive.fault target (.emptyArgument argument))
      else
        .ok text
  | some _ => .error (directive.fault target (.argumentNotString argument))
  | none => .error (directive.fault target (.missingArgument argument))

/-- The enumeration value of an argument that may be left out. -/
def optionalEnum
    (directive : Directive)
    (target : DirectiveTarget)
    (argument : String) : Except SchemaError (Option String) :=
  match directive.argument? argument with
  | some (.enumeration value) => .ok (some value)
  | some _ => .error (directive.fault target (.argumentNotEnum argument))
  | none => .ok none

/-- The truth value of an argument, false if it is left out. -/
def optionalBool
    (directive : Directive)
    (target : DirectiveTarget)
    (argument : String) : Except SchemaError Bool :=
  match directive.argument? argument with
  | some (.boolean value) => .ok value
  | some _ => .error (directive.fault target (.argumentNotBoolean argument))
  | none => .ok false

/-- The direction of a relation, outbound if it is left out. -/
def direction
    (directive : Directive)
    (target : DirectiveTarget) : Except SchemaError Direction := do
  match ← directive.optionalEnum target "direction" with
  | none | some "OUTBOUND" => return .outbound
  | some "INBOUND" => return .inbound
  | some other => throw (directive.fault target (.unknownDirection other))

/-- The kind of an index, persistent if it is left out. -/
def indexKind
    (directive : Directive)
    (target : DirectiveTarget) : Except SchemaError IndexKind := do
  match ← directive.optionalEnum target "type" with
  | none | some "PERSISTENT" => return .persistent
  | some "FULLTEXT" => return .fulltext
  | some "GEO" => return .geo
  | some other => throw (directive.fault target (.unknownIndexKind other))

end GraphQL.Directive

namespace TypeDirectives

/-- Adds a collection of a kind to the directives of a type. -/
def addStorage
    (target : DirectiveTarget)
    (kind : CollectionKind)
    (directives : TypeDirectives)
    (directive : GraphQL.Directive) : Except SchemaError TypeDirectives := do
  directive.allowOnly target ["collection"]
  directive.allowOnce target directives.storage.isSome .storedTwice
  let collection ← directive.requiredString target "collection"
  return { directives with storage := some ⟨collection, kind⟩ }

/-- Adds one applied directive to those of a type. -/
def add
    (target : DirectiveTarget)
    (directives : TypeDirectives)
    (directive : GraphQL.Directive) : Except SchemaError TypeDirectives :=
  match directive.name with
  | "vertex" => directives.addStorage target .document directive
  | "edge" => directives.addStorage target .edge directive
  | "discriminator" => do
      directive.allowOnly target ["property"]
      directive.allowOnce target directives.discriminator.isSome .repeated
      let property ← directive.requiredString target "property"
      return { directives with discriminator := some property }
  | "alias" => do
      directive.allowOnly target ["name"]
      let name ← directive.requiredString target "name"
      return { directives with aliases := directives.aliases ++ [name] }
  | _ => return directives

/-- The storage directives among those applied to a type. -/
def read
    (type : String)
    (applied : List GraphQL.Directive) : Except SchemaError TypeDirectives :=
  applied.foldlM (add (.type type)) .none

end TypeDirectives

namespace FieldDirectives

/-- Adds one applied directive to those of a field. -/
def add
    (target : DirectiveTarget)
    (directives : FieldDirectives)
    (directive : GraphQL.Directive) : Except SchemaError FieldDirectives :=
  match directive.name with
  | "edge" => do
      directive.allowOnly target ["collection", "direction"]
      directive.allowOnce target directives.relation.isSome .repeated
      let direction ← directive.direction target
      let collection ← directive.requiredString target "collection"
      return { directives with relation := some ⟨collection, direction⟩ }
  | "index" => do
      directive.allowOnly target ["type", "unique", "sparse"]
      directive.allowOnce target directives.index.isSome .repeated
      let kind ← directive.indexKind target
      let unique ← directive.optionalBool target "unique"
      let sparse ← directive.optionalBool target "sparse"
      return { directives with index := some ⟨kind, unique, sparse⟩ }
  | "vertex" | "discriminator" | "alias" =>
      .error (directive.fault target .onlyOnTypes)
  | _ => return directives

/-- The storage directives among those applied to a field. -/
def read
    (type field : String)
    (applied : List GraphQL.Directive) : Except SchemaError FieldDirectives :=
  applied.foldlM (add (.field type field)) .none

end FieldDirectives

end GraphGate
