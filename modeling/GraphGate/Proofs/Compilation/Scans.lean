import GraphGate.Proofs.Compilation.Scoping
import GraphGate.Proofs.Provisioning.PlanOrder
import GraphGate.Proofs.Schema.Building
import GraphGate.Proofs.Store.Answer

namespace GraphGate

/-!
# Which types a scan reads

A field of the query type with an abstract result type is answered by a scan of
one collection. If the abstract type names no collection, all its possible types
are stored in the collection that is scanned. If it names one, then that one is
scanned, and a possible type that is stored elsewhere is left out: no check
compares the two.
-/

namespace Model

variable {model : Model} {name collection : String}

/-- Of the abstract types that pass the check, only interfaces name a collection. -/
theorem isInterface_of_collection?
    (checked : model.check = .ok ())
    (isAbstract : model.isAbstract name = true)
    (named : (model.typeDirectives name).collection? = some collection) :
    model.isInterface name = true := by
  obtain ⟨declaration, found, abstractKind⟩ := isAbstract_iff.mp isAbstract
  rw [typeDirectives_of_type? found] at named
  obtain ⟨storage, isStorage, -⟩ := Option.map_eq_some_iff.mp named
  obtain ⟨each, -⟩ := check_eq_ok_iff.mp checked
  have directives := (each _ (Catalogue.mem_of_find? found)).1
  rcases allowsStorage_iff.mp (directives.storage storage isStorage) with
    ⟨interfaces, isObject⟩ | ⟨isInterface, -⟩
  · rw [isObject] at abstractKind
    cases abstractKind
  · exact isInterface_iff.mpr ⟨declaration, found, isInterface⟩

end Model

namespace DocumentsFragment

/-- Whether a fragment loops over the documents of a collection, in every store. -/
def Reads (fragment : DocumentsFragment) (collection : String) : Prop :=
  ∀ (store : Store) (bindings : Bindings),
    store.documentsIn collection ⊆
      store.sourceDocuments bindings fragment.source

/-- A scan reads no collection but its own. -/
theorem reads_iff_of_collection
    {fragment : DocumentsFragment}
    {scanned : String}
    (isScan : fragment.source = .collection scanned)
    (collection : String) :
    fragment.Reads collection ↔ collection = scanned := by
  constructor
  · intro reads
    -- a store with a document in this collection, and in no other one
    let single : Store := ⟨[(collection, [.null])], [], fun _ _ => false⟩
    have looped := reads single .none
    rw [isScan] at looped
    by_contra different
    have elsewhere : single.documentsIn scanned = [] := by
      simp [single, Store.documentsIn, Table.get?_cons, different]
    have here : single.documentsIn collection = [.null] := by
      simp [single, Store.documentsIn, Table.get?_cons]
    have member : Json.null ∈ single.documentsIn scanned :=
      looped (here ▸ List.mem_singleton_self _)
    rw [elsewhere] at member
    cases member
  · rintro rfl store bindings
    rw [isScan]
    exact fun document member => member

end DocumentsFragment

namespace DataFetcher

variable {fetcher : DataFetcher} {selection : FieldSelection}
variable {fragment : DocumentsFragment} {field : FieldDeclaration}

/-- A field of the query type is answered by a scan of the collection of its result type. -/
theorem exists_scan_of_compile
    (compiled : fetcher.compile selection .root = .ok fragment)
    (declared : fetcher.model.queryField? selection.name = some field) :
    ∃ collection,
      fragment.source = .collection collection ∧
        fetcher.model.collectionFor? field.type.namedType =
          some collection := by
  obtain ⟨_, asked, start, prepared⟩ := compile_eq_ok_iff.mp compiled
  obtain ⟨-, parentType, scope, resolved, -, accepted⟩ :=
    accepted_of_prepare prepared
  obtain ⟨queryType, isQueryType, isField⟩ :=
    Option.bind_eq_some_iff.mp declared
  rw [resolveParent, isQueryType] at resolved
  cases resolved
  cases Compiler.accepts_of_compileField accepted with
  | documents isDeclared _ _ feeds _ =>
      cases isField.symm.trans isDeclared
      cases feeds with
      | traversal _ isScope =>
          cases isScope
      | traversalFromStart _ isScope =>
          cases isScope
      | scan _ _ stored =>
          exact ⟨_, rfl, stored⟩

/--
Of the possible types that are stored in a collection, a scan for an abstract
type reads just those that are stored in the collection that this type names. If
it names none, they all share the collection, so that none of them is left out.
-/
theorem scan_reads_unless_stored_elsewhere
    {builder : ModelBuilder}
    (built : builder.build = .ok fetcher.model)
    (compiled : fetcher.compile selection .root = .ok fragment)
    (declared : fetcher.model.queryField? selection.name = some field)
    (isAbstract :
      fetcher.model.isAbstract field.type.namedType = true) :
    ∃ collection,
      fragment.source = .collection collection ∧
        ((fetcher.model.typeDirectives field.type.namedType).collection? =
              some collection ∧
            fetcher.model.isInterface field.type.namedType = true ∨
          (fetcher.model.typeDirectives field.type.namedType).collection? =
              none ∧
            (∃ possible,
              possible ∈ fetcher.model.possibleTypes field.type.namedType) ∧
            ∀ possible ∈ fetcher.model.possibleTypes field.type.namedType,
              possible.directives.collection? = some collection) ∧
        ∀ possible ∈ fetcher.model.possibleTypes field.type.namedType,
          ∀ stored, possible.directives.collection? = some stored →
            (fragment.Reads stored ↔
              ∀ named,
                (fetcher.model.typeDirectives
                    field.type.namedType).collection? = some named →
                  stored = named) := by
  obtain ⟨collection, isScan, isStored⟩ :=
    exists_scan_of_compile compiled declared
  refine ⟨collection, isScan, ?_⟩
  rcases Model.collectionFor?_eq_some_iff.mp isStored with
    own | ⟨unnamed, -, inhabited, shared⟩
  · have isInterface :=
      Model.isInterface_of_collection? (Model.check_of_build built) isAbstract
        own
    refine ⟨.inl ⟨own, isInterface⟩, ?_⟩
    intro possible isPossible stored isElsewhere
    simp [DocumentsFragment.reads_iff_of_collection isScan, own]
  · refine ⟨.inr ⟨unnamed, inhabited, shared⟩, ?_⟩
    intro possible isPossible stored isElsewhere
    cases (shared possible isPossible).symm.trans isElsewhere
    simp [DocumentsFragment.reads_iff_of_collection isScan, unnamed]

/-- Dogs among the animals, and cats in a collection of their own. -/
def animalTypes : Catalogue TypeDeclaration where
  items := [
    ⟨"Query", .object [],
      .single ⟨"animals", .list (.named "Animal"), .none⟩, .none⟩,
    ⟨"Animal", .interface,
      .single ⟨"name", .named "String", .none⟩,
      ⟨some ⟨"animals", .document⟩, some "kind", []⟩⟩,
    ⟨"Dog", .object ["Animal"],
      .single ⟨"name", .named "String", .none⟩,
      ⟨some ⟨"animals", .document⟩, none, []⟩⟩,
    ⟨"Cat", .object ["Animal"],
      .single ⟨"name", .named "String", .none⟩,
      ⟨some ⟨"cats", .document⟩, none, []⟩⟩]
  distinct := by decide

/-- Answers fields of these types. -/
def animalFetcher : DataFetcher where
  model := ⟨animalTypes, [], some "Query"⟩
  registry :=
    ⟨[("Animal", ⟨"kind", [("Dog", "Dog"), ("Cat", "Cat")]⟩)], ["Animal"]⟩
  chain := .standard
  database := systemDatabase
  timeout := none

/-- The names of all animals. -/
def animalNames : FieldSelection :=
  (FieldSelection.ofName "animals").withNested (FieldSelection.ofName "name")

/-- What the names of all animals compile to. -/
def animalsFragment : DocumentsFragment where
  loop := "v_animals"
  source := .collection "animals"
  filters := []
  pagination := ⟨none, none⟩
  discriminator := some "kind"
  projection := [("name", .property "v_animals" "name")]
  cardinality := .many

theorem build_animalFetcher :
    (⟨animalTypes, [], [], none⟩ : ModelBuilder).build =
      .ok animalFetcher.model := by
  rfl

theorem compile_animalNames :
    animalFetcher.compile animalNames .root = .ok animalsFragment := by
  rfl

/-- The dogs are read, and the cats are not. -/
theorem animals_read_without_cats :
    (⟨animalTypes, [], [], none⟩ : ModelBuilder).build =
        .ok animalFetcher.model ∧
      animalFetcher.compile animalNames .root = .ok animalsFragment ∧
      animalsFragment.Reads "animals" ∧
      ¬ animalsFragment.Reads "cats" := by
  have declared :
      animalFetcher.model.queryField? animalNames.name =
        some ⟨"animals", .list (.named "Animal"), .none⟩ :=
    rfl
  obtain ⟨collection, isScan, -, reads⟩ :=
    scan_reads_unless_stored_elsewhere build_animalFetcher compile_animalNames
      declared (by rfl)
  refine ⟨build_animalFetcher, compile_animalNames, ?_, ?_⟩
  · refine (reads animalTypes.items[2] ?_ "animals" rfl).mpr ?_
    · decide
    · rintro named ⟨⟩
      rfl
  · intro readsCats
    have same :=
      (reads animalTypes.items[3] (by decide) "cats" rfl).mp readsCats
        "animals" rfl
    exact absurd same (by decide)

/-- A cat that is stored as a cat. -/
def tom : Json :=
  .object [("_id", .string "cats/1"), ("kind", .string "Cat"),
    ("name", .string "Tom")]

/-- All animals are asked for, cats are animals, and none of them is returned. -/
theorem tom_missing_among_animals :
    (⟨animalTypes, [], [], none⟩ : ModelBuilder).build =
        .ok animalFetcher.model ∧
      DiscriminatorRegistry.ofModel animalFetcher.model =
        .ok animalFetcher.registry ∧
      animalFetcher.model.isAbstract "Animal" = true ∧
      animalFetcher.compile animalNames .root = .ok animalsFragment ∧
      animalsFragment.source = .collection "animals" ∧
      (∃ cat ∈ animalFetcher.model.possibleTypes "Animal",
        cat.name = "Cat" ∧ cat.directives.collection? = some "cats") ∧
      ∀ equal : Json → Json → Bool,
        (⟨[("cats", [tom])], [], equal⟩ : Store).records .none
          animalsFragment = [] := by
  refine ⟨build_animalFetcher, by rfl, by rfl, compile_animalNames, rfl, ?_,
    fun equal => by rfl⟩
  exact ⟨animalTypes.items[3], by decide, rfl, rfl⟩

end DataFetcher

end GraphGate
