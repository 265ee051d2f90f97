import GraphGate.Compilation.Arguments
import GraphGate.Proofs.Response.Traversal
import GraphGate.Proofs.Store.Evaluation

namespace GraphGate

/-!
# The answer that a store has

What a selection asks for can be looked up in a store without any query. A
relation leads to the documents one step away, and any other field is a property
of its document, which is read by the name of the field at every depth. A
document tells its concrete type itself.

What is found is fitted to the declared type: a place that must not be null
hands a null on, and any other place is null where nothing fits.
-/

/-- What is found for a field. -/
inductive Found where
  | nothing
  /-- A value stored inside a document. -/
  | value (json : Json)
  /-- A document of its own. -/
  | document (json : Json)
  | documents (items : List Json)

namespace Found

/-- Whether there is no value. -/
def isNothing : Found → Bool
  | .nothing => true
  | .value json => json.isNull
  | _ => false

/-- Whether what is found is stored inside a document. -/
def isStored : Found → Bool
  | .value _ => true
  | _ => false

/-- The items of what is found, if these are several. -/
def items? : Found → Option (List Found)
  | .value (.array items) => some (items.map .value)
  | .documents items => some (items.map .document)
  | _ => none

/-- The object that fields can be selected on. -/
def record? : Found → Option Json
  | .value json => if json.isObject then some json else none
  | .document json => some json
  | _ => none

/-- The documents that are found. -/
def allDocuments : Found → List Json
  | .document json => [json]
  | .documents items => items
  | _ => []

/-- The JSON of what is found, given that of documents. -/
def toJson (ofDocument : Json → Json) : Found → Json
  | .nothing => .null
  | .value json => json
  | .document json => ofDocument json
  | .documents items => .array (items.map ofDocument)

/-- Fits what is found to a type, none for a null that is handed on. -/
def fit (named : String → Found → Option ResultNode) :
    TypeRef → Found → Option ResultNode
  | .nonNull inner, found =>
      (fit named inner found).filter fun node => !node.isNull
  | .list item, found =>
      some (((found.items?.bind fun items =>
        items.mapM (fit named item)).map .list).getD .null)
  | .named name, found =>
      if found.isNothing then
        some .null
      else
        some ((named name found).getD .null)

end Found

/-- The declaration of a field of the query type. -/
def Model.queryField? (model : Model) (field : String) :
    Option FieldDeclaration :=
  model.queryType?.bind fun declaration =>
    model.field? declaration.name field

namespace Store

variable (store : Store)

/-- Whether an argument filters documents by a property. -/
def isFilter (argument : String × Json) : Bool :=
  argument.1 ≠ CompiledArguments.limitArgument ∧
    argument.1 ≠ CompiledArguments.offsetArgument

/-- The count that a selection has as an argument. -/
def count? (selection : FieldSelection) (argument : String) : Option Nat :=
  (Table.get? selection.arguments argument).bind Json.unsigned?

/-- Whether a document passes the filters of a selection. -/
def matchesFilters (selection : FieldSelection) (document : Json) : Bool :=
  (selection.arguments.filter isFilter).all fun argument =>
    store.equal (document.property argument.1) argument.2

/--
The documents that a selection asks for among some. The count that stands for
"no limit" is a limit, if a large one.
-/
def selected (selection : FieldSelection) (documents : List Json) : List Json :=
  let matching := documents.filter (store.matchesFilters selection)
  match count? selection CompiledArguments.offsetArgument,
      count? selection CompiledArguments.limitArgument with
  | none, none => matching
  | none, some limit => matching.take limit
  | some offset, some limit => (matching.drop offset).take limit
  | some offset, none => (matching.drop offset).take unboundedLimit

/-- Among no more documents than can be counted, no limit is no limit. -/
theorem selected_eq_of_length_le
    (selection : FieldSelection)
    {documents : List Json}
    (few : documents.length ≤ unboundedLimit) :
    store.selected selection documents =
      let passed :=
        (documents.filter (store.matchesFilters selection)).drop
          ((count? selection CompiledArguments.offsetArgument).getD 0)
      match count? selection CompiledArguments.limitArgument with
      | none => passed
      | some limit => passed.take limit := by
  unfold selected
  cases count? selection CompiledArguments.offsetArgument with
  | none =>
      cases count? selection CompiledArguments.limitArgument <;> simp
  | some offset =>
      cases count? selection CompiledArguments.limitArgument with
      | some limit =>
          simp
      | none =>
          refine List.take_of_length_le ?_
          have matching :=
            documents.length_filter_le (store.matchesFilters selection)
          rw [List.length_drop]
          omega

/-- What a selection finds among documents: a list or the first one. -/
def pick
    (type : TypeRef)
    (selection : FieldSelection)
    (documents : List Json) : Found :=
  if type.isList then
    .documents (store.selected selection documents)
  else
    ((store.selected selection documents).head?.map .document).getD .nothing

/-- What a selection of a declared field finds in a record. -/
def find
    (field : FieldDeclaration)
    (selection : FieldSelection) : Found → Found
  | .document document =>
      match field.directives.relation with
      | some relation =>
          store.pick field.type selection
            (store.neighbours relation.direction relation.collection document)
      | none => .value (document.property field.name)
  | .value json => .value (json.property field.name)
  | _ => .nothing

/-- The property by which the documents of a type tell their concrete type. -/
def discriminator? (shaper : Shaper) (type : String) : Option String :=
  (shaper.registry.mapping? type).map DiscriminatorMapping.property

/--
What a document is answered with that stands where a leaf type is declared, as a
relation to a leaf type makes it stand. No field of it can be selected, so it is
the metadata without any field.
-/
def fieldless (shaper : Shaper) (type : String) (document : Json) : Json :=
  .object [(metaKey, metadata (discriminator? shaper type) document)]

/--
The answer where a leaf type is declared. Apart from documents, which only a
relation to a leaf type finds, it is what is stored.
-/
def answerLeaf (shaper : Shaper) (type : String) : Found → ResultNode
  | .nothing => .scalar .null
  | .value json => .scalar json
  | .document document => .scalar (fieldless shaper type document)
  | .documents items => .scalar (.array (items.map (fieldless shaper type)))

theorem answerLeaf_eq
    (shaper : Shaper)
    (type : String)
    (found : Found) :
    answerLeaf shaper type found =
      .scalar (found.toJson (fieldless shaper type)) := by
  cases found <;> rfl

mutual

/-- The answer to a selection for what is found where a named type is declared. -/
def answerNamed (store : Store) (shaper : Shaper) :
    FieldSelection → String → Found → Option ResultNode
  | ⟨_, _, _, _, nested⟩, type, found =>
      if shaper.model.isLeaf type then
        some (answerLeaf shaper type found)
      else
        match found.record? with
        | none => none
        | some record =>
            match shaper.registry.concreteType type record with
            | .error _ => none
            | .ok concrete =>
                (store.answerFields shaper concrete type found nested).map
                  (.object concrete)

/-- The answers to the selections that are meant for a record, by response key. -/
def answerFields
    (store : Store)
    (shaper : Shaper)
    (concrete declared : String)
    (record : Found) :
    List FieldSelection → Option (List (String × ResultNode))
  | [] => some []
  | selection :: rest =>
      if selection.IsMeantFor shaper.model concrete then
        let node? : Option ResultNode :=
          if selection.isTypename then
            some (.scalar (.string concrete))
          else
            match shaper.declaration? concrete declared selection with
            | none => some .null
            | some field =>
                Found.fit (store.answerNamed shaper selection) field.type
                  (store.find field selection record)
        node?.bind fun node =>
          (store.answerFields shaper concrete declared record rest).map
            ((selection.responseKey, node) :: ·)
      else
        store.answerFields shaper concrete declared record rest

end

/-- The documents that a field of the query type finds. -/
def root
    (model : Model)
    (field : FieldDeclaration)
    (selection : FieldSelection) : Found :=
  store.pick field.type selection
    (((model.collectionFor? field.type.namedType).map
      store.documentsIn).getD [])

/-- The answer to a selection of a field of the query type. -/
def answer (shaper : Shaper) (selection : FieldSelection) :
    Option ResultNode := do
  let field ← shaper.model.queryField? selection.name
  Found.fit (store.answerNamed shaper selection) field.type
    (store.root shaper.model field selection)

/-- A document that is visited for a selection, on the way from another one. -/
inductive Visits (store : Store) (shaper : Shaper) :
    String → FieldSelection → Json → String → FieldSelection → Json → Prop where
  | here {type : String} {selection : FieldSelection} {document : Json} :
      Visits store shaper type selection document type selection document
  | inside
      {type concrete visitedType : String}
      {selection nested visitedSelection : FieldSelection}
      {document next visited : Json}
      {field : FieldDeclaration} :
      shaper.registry.concreteType type document = .ok concrete →
      nested ∈ selection.nested →
      nested.IsMeantFor shaper.model concrete →
      nested.isTypename = false →
      shaper.declaration? concrete type nested = some field →
      next ∈ (store.find field nested (.document document)).allDocuments →
      Visits store shaper field.type.namedType nested next
        visitedType visitedSelection visited →
      Visits store shaper type selection document
        visitedType visitedSelection visited

/-- A document that is visited to answer a selection of a field of the query type. -/
def VisitsFromRoot
    (store : Store)
    (shaper : Shaper)
    (root : FieldSelection)
    (type : String)
    (selection : FieldSelection)
    (document : Json) : Prop :=
  ∃ field first,
    shaper.model.queryField? root.name = some field ∧
      first ∈ (store.root shaper.model field root).allDocuments ∧
        Visits store shaper field.type.namedType root first
          type selection document

/-- The entry of a selection in the answer for a record. -/
def answerEntry
    (store : Store)
    (shaper : Shaper)
    (concrete declared : String)
    (record : Found)
    (selection : FieldSelection) : Option (String × ResultNode) :=
  (if selection.isTypename then
    some (.scalar (.string concrete))
  else
    match shaper.declaration? concrete declared selection with
    | none => some .null
    | some field =>
        Found.fit (store.answerNamed shaper selection) field.type
          (store.find field selection record)).map
    (selection.responseKey, ·)

variable {store} {shaper : Shaper}

/-- What holds everywhere in a selection holds wherever its documents are visited. -/
theorem Visits.everywhere
    {type visitedType : String}
    {selection visited : FieldSelection}
    {document last : Json}
    {holds : FieldSelection → Prop}
    (visits :
      Visits store shaper type selection document visitedType visited last)
    (everywhere : selection.Everywhere holds) :
    visited.Everywhere holds := by
  induction visits with
  | here =>
      exact everywhere
  | inside _ member _ _ _ _ _ inductionHypothesis =>
      exact inductionHypothesis (everywhere.inside member)

/-- What is picked among documents is not stored in one. -/
theorem isStored_pick
    (type : TypeRef)
    (selection : FieldSelection)
    (documents : List Json) :
    (store.pick type selection documents).isStored = false := by
  unfold pick
  split
  · rfl
  · cases (store.selected selection documents).head? <;> rfl

/-- An answer with its key, put before the other entries. -/
theorem assemble_entry
    (node? : Option ResultNode)
    (key : String)
    (others? : Option (List (String × ResultNode))) :
    (node?.bind fun node => others?.map ((key, node) :: ·)) =
      ((node?.map (key, ·)).bind fun entry =>
        others?.bind fun others => some (entry :: others)) := by
  cases node? <;> cases others? <;> rfl

/-- The answers for a record are the entries of the selections that are meant for it. -/
theorem answerFields_eq
    (concrete declared : String)
    (record : Found)
    (nested : List FieldSelection) :
    store.answerFields shaper concrete declared record nested =
      (shaper.applying concrete nested).mapM
        (store.answerEntry shaper concrete declared record) := by
  unfold Shaper.applying
  induction nested with
  | nil =>
      simp [answerFields]
  | cons selection rest inductionHypothesis =>
      by_cases isMeant : selection.IsMeantFor shaper.model concrete
      · rw [List.filter_cons_of_pos (by simpa using isMeant), List.mapM_cons,
          ← inductionHypothesis, answerFields, if_pos isMeant, answerEntry]
        exact assemble_entry _ _ _
      · simp [answerFields, isMeant, inductionHypothesis]

end Store

end GraphGate
