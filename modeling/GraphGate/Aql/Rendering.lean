import GraphGate.Aql.Fragment
import GraphGate.Aql.Query
import GraphGate.Json.Printer

namespace GraphGate

/-!
# Rendering fragments

A fragment tree renders to one query. Inner documents become sub-queries in the
returned object of the enclosing ones. Every returned document carries a
metadata object with its id and, where the concrete type has to be found out,
its discriminator property.

The text is made from names only; every collection, filter value, offset and
limit is bound to a placeholder that is named after the loop variable.
-/

/-- The response key of the metadata object. -/
def metaKey : String := "__meta"

/-- The bind variable of the id of a start document. -/
def startParameter : String := "start"

/-- Stands for "no limit" where only an offset is given. -/
def unboundedLimit : Nat := 9007199254740991

namespace DocumentsFragment

/-- The placeholder of the collection that is looped over. -/
def collectionName (loop : String) : String :=
  loop ++ "_collection"

/-- The placeholder of the edge collection that is followed. -/
def edgesName (loop : String) : String :=
  loop ++ "_edges"

/-- The placeholder of a filter value. -/
def filterName (loop property : String) : String :=
  loop ++ "_arg_" ++ escapeName property

/-- The placeholder of the limit. -/
def limitName (loop : String) : String :=
  loop ++ "_limit"

/-- The placeholder of the offset. -/
def offsetName (loop : String) : String :=
  loop ++ "_offset"

/-- The limit where only an offset is given. -/
def defaultLimit : Cardinality → Nat
  | .one => 1
  | .many => unboundedLimit

/-- The start of a traversal in the query text. -/
def startText : TraversalStart → String
  | .loop name => name
  | .parameter => "@" ++ startParameter

/-- The clause that binds the loop variable. -/
def sourceClause (loop : String) : DocumentSource → String
  | .collection _ => "FOR " ++ loop ++ " IN @@" ++ collectionName loop
  | .traversal start direction _ =>
      "FOR " ++ loop ++ " IN 1..1 " ++ direction.render ++ " " ++
        startText start ++ " @@" ++ edgesName loop

/-- What the source binds. -/
def sourceBinds (loop : String) : DocumentSource → List (String × Json)
  | .collection name =>
      [(AqlQuery.collectionParameter (collectionName loop), .string name)]
  | .traversal _ _ edges =>
      [(AqlQuery.collectionParameter (edgesName loop), .string edges)]

/-- The clause of a filter. -/
def filterClause (loop : String) (filter : Filter) : String :=
  "FILTER " ++ loop ++ ".`" ++ filter.property ++ "` == @" ++
    filterName loop filter.property

/-- What a filter binds. -/
def filterBind (loop : String) (filter : Filter) : String × Json :=
  (filterName loop filter.property, filter.value)

/-- The clauses that select a part of the documents: one or none. -/
def limitClauses
    (loop : String)
    (cardinality : Cardinality)
    (pagination : Pagination) : List String :=
  match pagination.offset, pagination.limit with
  | none, none =>
      match cardinality with
      | .many => []
      | .one => ["LIMIT 1"]
  | none, some _ => ["LIMIT @" ++ limitName loop]
  | some _, _ => ["LIMIT @" ++ offsetName loop ++ ", @" ++ limitName loop]

/-- What the selected part binds. -/
def limitBinds
    (loop : String)
    (cardinality : Cardinality)
    (pagination : Pagination) : List (String × Json) :=
  match pagination.offset, pagination.limit with
  | none, none => []
  | none, some limit => [(limitName loop, .nat limit)]
  | some offset, limit =>
      [(offsetName loop, .nat offset),
        (limitName loop, .nat (limit.getD (defaultLimit cardinality)))]

/-- A property of the document bound to a loop variable. -/
def propertyText (loop property : String) : String :=
  loop ++ ".`" ++ property ++ "`"

/-- An entry of a returned object. -/
def entryText (key value : String) : String :=
  Json.quote key ++ ": " ++ value

/-- An object in the query text. -/
def objectText (entries : List String) : String :=
  "\x7b" ++ ", ".intercalate entries ++ "\x7d"

/-- The metadata entry of a returned document. -/
def metaEntry (loop : String) (discriminator : Option String) : String :=
  let id := "\"_id\": " ++ loop ++ "._id"
  let type :=
    discriminator.toList.map fun property =>
      entryText property (propertyText loop property)
  entryText metaKey (objectText (id :: type))

/-- A sub-query in a returned object. -/
def subqueryText (cardinality : Cardinality) (text : String) : String :=
  match cardinality with
  | .one => "FIRST(" ++ text ++ ")"
  | .many => "(" ++ text ++ ")"

mutual

/-- The query text of a fragment, with a separator between its clauses. -/
def text (separator : String) : DocumentsFragment → String
  | ⟨loop, source, filters, pagination, discriminator, projection, cardinality⟩ =>
      let returned :=
        objectText (metaEntry loop discriminator :: entryTexts projection)
      separator.intercalate
        (sourceClause loop source ::
          filters.map (filterClause loop) ++
          limitClauses loop cardinality pagination ++
          ["RETURN " ++ returned])

/-- The entries of a projection in the query text. -/
def entryTexts : List (String × QueryFragment) → List String
  | [] => []
  | (key, .property loop name) :: rest =>
      entryText key (propertyText loop name) :: entryTexts rest
  | (key, .documents fragment) :: rest =>
      entryText key (subqueryText fragment.cardinality (text " " fragment)) ::
        entryTexts rest

end

mutual

/-- What a fragment binds, in the order of the query text. -/
def bindings : DocumentsFragment → List (String × Json)
  | ⟨loop, source, filters, pagination, _, projection, cardinality⟩ =>
      sourceBinds loop source ++
        filters.map (filterBind loop) ++
        limitBinds loop cardinality pagination ++
        entryBindings projection

/-- What the entries of a projection bind. -/
def entryBindings : List (String × QueryFragment) → List (String × Json)
  | [] => []
  | (_, .property _ _) :: rest => entryBindings rest
  | (_, .documents fragment) :: rest => bindings fragment ++ entryBindings rest

end

/-- The query of a fragment tree. -/
def render (fragment : DocumentsFragment) : AqlQuery where
  text := fragment.text "\n  "
  binds := Table.ofPairs fragment.bindings

end DocumentsFragment

end GraphGate
