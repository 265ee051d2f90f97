import GraphGate.Proofs.Response.Traversal
import GraphGate.Proofs.Schema.Resolution

namespace GraphGate.Shaper

/-!
# Shaped answers conform to the schema

Whatever a database returns, a shaped answer has the declared type: no null
where none is allowed, lists where lists are declared, scalars at leaves, and
elsewhere objects of a possible type with exactly the selected fields. A null
moves up beyond a field only if the type of the field excludes null.
-/

mutual

/-- A shaped value has a declared type, and the fields that a selection asks for. -/
inductive Conforms (shaper : Shaper) :
    TypeRef → FieldSelection → ResultNode → Prop where
  /-- Null stands wherever it is not excluded. -/
  | null {type : TypeRef} {selection : FieldSelection} :
      type.isNonNull = false →
      Conforms shaper type selection .null
  /-- A type that excludes null has the other values of the type inside. -/
  | nonNull {inner : TypeRef} {selection : FieldSelection} {node : ResultNode} :
      node.isNull = false →
      Conforms shaper inner selection node →
      Conforms shaper (.nonNull inner) selection node
  /-- A list has items of the declared type. -/
  | list {item : TypeRef} {selection : FieldSelection} {nodes : List ResultNode} :
      (∀ node ∈ nodes, Conforms shaper item selection node) →
      Conforms shaper (.list item) selection (.list nodes)
  /-- A leaf type has scalars. -/
  | scalar {name : String} {selection : FieldSelection} {value : Json} :
      shaper.model.isLeaf name = true →
      value.isNull = false →
      Conforms shaper (.named name) selection (.scalar value)
  /--
  Any other type has objects of one of its possible types. Their keys are the
  response keys of the selections that apply, each once and in order.
  -/
  | object
      {name concrete : String}
      {selection : FieldSelection}
      {fields : List (String × ResultNode)} :
      shaper.model.isLeaf name = false →
      shaper.model.isObject concrete = true →
      (∃ type ∈ shaper.model.possibleTypes name, type.name = concrete) →
      Table.keys fields =
        ((shaper.applying concrete selection.nested).map
          FieldSelection.responseKey).eraseDups →
      (∀ entry ∈ fields, ∀ nested,
        shaper.answering? concrete selection.nested entry.1 = some nested →
        EntryConforms shaper concrete name nested entry.2) →
      Conforms shaper (.named name) selection (.object concrete fields)

/-- A shaped field is what its selection asks for on a concrete type. -/
inductive EntryConforms (shaper : Shaper) :
    String → String → FieldSelection → ResultNode → Prop where
  | typename {concrete declared : String} {selection : FieldSelection} :
      selection.isTypename = true →
      EntryConforms shaper concrete declared selection
        (.scalar (.string concrete))
  | undeclared {concrete declared : String} {selection : FieldSelection} :
      selection.isTypename = false →
      shaper.declaration? concrete declared selection = none →
      EntryConforms shaper concrete declared selection .null
  | declared
      {concrete declared : String}
      {selection : FieldSelection}
      {field : FieldDeclaration}
      {node : ResultNode} :
      selection.isTypename = false →
      shaper.declaration? concrete declared selection = some field →
      Conforms shaper field.type selection node →
      EntryConforms shaper concrete declared selection node

end

variable {shaper : Shaper} {selection : FieldSelection} {field : String}
variable {named : String → Json → FieldPath → Completion ResultNode}

/-- What is found inside a type conforms to it, but for a null. -/
def ConformsInside
    (shaper : Shaper)
    (selection : FieldSelection)
    (field : String)
    (named : String → Json → FieldPath → Completion ResultNode)
    (type : TypeRef) : Prop :=
  ∀ {value path node},
    (Completion.attempt field named type value path).value = some node →
      node = .null ∨ Conforms shaper type selection node

/-- If what is found inside a type conforms, so does what is shaped after the type. -/
theorem conforms_of_complete
    {type : TypeRef}
    (inside : ConformsInside shaper selection field named type)
    {value : Json}
    {path : FieldPath}
    {node : ResultNode}
    (shaped :
      (Completion.complete field named type value path).value = some node) :
    Conforms shaper type selection node := by
  cases nonNull : type.isNonNull with
  | false =>
      rw [Completion.complete_nullable nonNull] at shaped
      cases found : (Completion.attempt field named type value path).value with
      | none =>
          simp only [Completion.value_absorb, found, Option.getD_none,
            Option.some.injEq] at shaped
          exact shaped ▸ .null nonNull
      | some shape =>
          simp only [Completion.value_absorb, found, Option.getD_some,
            Option.some.injEq] at shaped
          subst shaped
          rcases inside found with isNull | conforms
          · exact isNull ▸ .null nonNull
          · exact conforms
  | true =>
      cases type with
      | named name =>
          cases nonNull
      | list item =>
          cases nonNull
      | nonNull inner =>
          cases null : value.isNull with
          | true =>
              cases value <;> cases null
              rw [Completion.complete_nonNull_null] at shaped
              cases shaped
          | false =>
              have notNull : node.isNull = false :=
                (Completion.value_require_eq_some_iff.mp shaped).2
              rw [Completion.complete_nonNull null] at shaped
              rcases inside shaped with isNull | conforms
              · rw [isNull] at notNull
                cases notNull
              · exact conforms

/-- If named types are shaped to conforming values, so is every type around them. -/
theorem conformsInside_of_named
    {type : TypeRef}
    (namedConforms : ∀ {value path node},
      value.isNull = false →
        (named type.namedType value path).value = some node →
          Conforms shaper (.named type.namedType) selection node) :
    ConformsInside shaper selection field named type := by
  intro value path node shaped
  induction type generalizing value path node with
  | named name =>
      cases null : value.isNull with
      | true =>
          cases value <;> cases null
          rw [Completion.attempt_null] at shaped
          exact .inl (Option.some.inj shaped).symm
      | false =>
          rw [Completion.attempt_named null] at shaped
          exact .inr (namedConforms null shaped)
  | list item inductionHypothesis =>
      rw [Completion.attempt_list] at shaped
      rcases Completion.listOf_outcome field
          (Completion.complete field named item) value path with
        ⟨-, isNull⟩ | ⟨values, -, isList⟩ | ⟨-, cause, isReported⟩
      · rw [isNull] at shaped
        exact .inl (Option.some.inj shaped).symm
      · rw [isList, Completion.value_map, Option.map_eq_some_iff] at shaped
        obtain ⟨nodes, found, rfl⟩ := shaped
        refine .inr (.list fun node member => ?_)
        obtain ⟨index, present⟩ := List.mem_iff_getElem?.mp member
        obtain ⟨value, -, itemShaped, -⟩ :=
          Completion.getElem?_of_items_some found present
        exact conforms_of_complete
          (fun found => inductionHypothesis namedConforms found) itemShaped
      · rw [isReported] at shaped
        cases shaped
  | nonNull inner inductionHypothesis =>
      cases null : value.isNull with
      | true =>
          cases value <;> cases null
          rw [Completion.attempt_null] at shaped
          exact .inl (Option.some.inj shaped).symm
      | false =>
          rw [Completion.attempt_nonNull null,
            Completion.value_require_eq_some_iff] at shaped
          obtain ⟨found, notNull⟩ := shaped
          rcases inductionHypothesis namedConforms found with isNull | conforms
          · rw [isNull] at notNull
            cases notNull
          · exact .inr (.nonNull notNull conforms)

variable {concrete declared : String} {source : RecordSource} {record : Json}
variable {path : FieldPath}

/-- An entry conforms if what is found inside the type of its field does. -/
theorem entryConforms_of_completeEntry
    {entry : String × ResultNode}
    (inside : ∀ {found : FieldDeclaration},
      shaper.declaration? concrete declared selection = some found →
        ConformsInside shaper selection selection.name
          (shaper.completeNamed selection (fieldSource source found))
          found.type)
    (found :
      (shaper.completeEntry concrete declared source record path
        selection).value = some entry) :
    EntryConforms shaper concrete declared selection entry.2 := by
  rcases shaper.completeEntry_outcome concrete declared source record path
      selection with
    ⟨typename, isName⟩ | ⟨field, undeclared, cause, isNull⟩ |
    ⟨field, declaration, isDeclared, isShaped⟩
  · rw [isName] at found
    cases found
    exact .typename typename
  · rw [isNull] at found
    cases found
    exact .undeclared field undeclared
  · rw [isShaped, Completion.value_map, Option.map_eq_some_iff] at found
    obtain ⟨node, shaped, rfl⟩ := found
    exact .declared field isDeclared
      (conforms_of_complete (inside isDeclared) shaped)

/-- The declarations that a shaper finds have known types. -/
theorem isKnown_of_declaration?
    (references : shaper.model.ReferencesDeclared)
    {concrete declared : String}
    {found : FieldDeclaration}
    (isFound : shaper.declaration? concrete declared selection = some found) :
    shaper.model.isKnown found.type.namedType = true := by
  obtain ⟨owner, -, fieldFound⟩ := List.exists_of_findSome?_eq_some isFound
  exact references.isKnown_of_field? fieldFound

/-- A value of a known named type is shaped to a conforming one. -/
theorem conforms_of_completeNamed
    (references : shaper.model.ReferencesDeclared)
    (registered :
      DiscriminatorRegistry.ofModel shaper.model = .ok shaper.registry)
    (selection : FieldSelection)
    {source : RecordSource}
    {type : String}
    {value : Json}
    {path : FieldPath}
    {node : ResultNode}
    (known : shaper.model.isKnown type = true)
    (notNull : value.isNull = false)
    (shaped :
      (shaper.completeNamed selection source type value path).value =
        some node) :
    Conforms shaper (.named type) selection node := by
  induction selection using FieldSelection.tree_induction
    generalizing source type value path node with
  | node selection inductionHypothesis =>
      rcases shaper.completeNamed_outcome source path selection type value with
        ⟨leaf, isScalar⟩ | ⟨-, cause, isReported⟩ |
        ⟨composite, concrete, resolved, isObject⟩
      · rw [isScalar] at shaped
        cases shaped
        exact .scalar leaf notNull
      · rw [isReported] at shaped
        cases shaped
      · rw [isObject, Completion.value_map, Option.map_eq_some_iff] at shaped
        obtain ⟨fields, entries, rfl⟩ := shaped
        have possible :=
          DiscriminatorRegistry.mem_possibleTypes_of_concreteType registered
            known composite resolved
        refine .object composite ?_ possible (keys_of_entries entries) ?_
        · obtain ⟨object, isPossible, rfl⟩ := possible
          exact Model.isObject_of_mem_possibleTypes references isPossible
        · intro entry member nested answers
          obtain ⟨inner, isInner, answersInner, found, -⟩ :=
            entry_of_entries entries member
          cases answersInner.symm.trans answers
          refine entryConforms_of_completeEntry (fun isFound => ?_) found
          exact conformsInside_of_named fun valueNotNull valueShaped =>
            inductionHypothesis nested isInner
              (isKnown_of_declaration? references isFound)
              valueNotNull valueShaped

/--
Whatever a database returns for a declared field, its shape conforms to the
type of the field, and a null moves up from it only if the type excludes null.
-/
theorem complete_conforms
    {shaper : Shaper}
    {builder : ModelBuilder}
    (built : builder.build = .ok shaper.model)
    (registered :
      DiscriminatorRegistry.ofModel shaper.model = .ok shaper.registry)
    {owner name : String}
    {field : FieldDeclaration}
    (declared : shaper.model.field? owner name = some field)
    (value : Json)
    (selection : FieldSelection)
    (source : RecordSource)
    (path : FieldPath) :
    (∀ node,
      (shaper.complete field.type value selection source path).value =
          some node →
        Conforms shaper field.type selection node) ∧
      ((shaper.complete field.type value selection source path).value = none →
        field.type.isNonNull = true) := by
  have references :=
    Model.referencesDeclared_of_check (Model.check_of_build built)
  have known := references.isKnown_of_field? declared
  constructor
  · intro node shaped
    refine conforms_of_complete (conformsInside_of_named ?_) shaped
    intro value path node notNull named
    exact conforms_of_completeNamed references registered selection known
      notNull named
  · intro moves
    exact Completion.isNonNull_of_complete_none moves

/-- A schema with animals, all of which are dogs. -/
def petTypes : Catalogue TypeDeclaration where
  items := [
    ⟨"Query", .object [],
      ⟨[⟨"animals", .list (.nonNull (.named "Animal")), .none⟩], by decide⟩,
      .none⟩,
    ⟨"Animal", .interface,
      ⟨[⟨"name", .nonNull (.named "String"), .none⟩], by decide⟩,
      ⟨some ⟨"animals", .document⟩, some "kind", []⟩⟩,
    ⟨"Dog", .object ["Animal"],
      ⟨[⟨"name", .nonNull (.named "String"), .none⟩], by decide⟩, .none⟩]
  distinct := by decide

/-- The animals are told apart by their kind. -/
def petShaper : Shaper where
  model := ⟨petTypes, [], some "Query"⟩
  registry := ⟨[("Animal", ⟨"kind", [("Dog", "Dog")]⟩)], ["Animal"]⟩

/-- A record that tells its kind is shaped to a dog with a name. -/
theorem dog_conforms :
    Conforms petShaper (.list (.nonNull (.named "Animal")))
      ((FieldSelection.ofName "animals").withNested (.ofName "name"))
      (.list [.object "Dog" [("name", .scalar (.string "Rex"))]]) := by
  have built :
      (⟨petTypes, [], [], none⟩ : ModelBuilder).build = .ok petShaper.model := by
    rfl
  have registered :
      DiscriminatorRegistry.ofModel petShaper.model = .ok petShaper.registry := by
    rfl
  have declared :
      petShaper.model.field? "Query" "animals" =
        some ⟨"animals", .list (.nonNull (.named "Animal")), .none⟩ := by
    rfl
  have conforming :=
    complete_conforms built registered declared
      (.array [.object [
        ("__meta", .object [("kind", .string "Dog")]),
        ("name", .string "Rex")]])
      ((FieldSelection.ofName "animals").withNested (.ofName "name"))
      .document .root
  exact conforming.1 _ (by rfl)

end GraphGate.Shaper
