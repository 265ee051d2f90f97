import GraphGate.Proofs.Aql.ProjectionOrder
import GraphGate.Proofs.Response.Traversal

namespace GraphGate

/-!
# Shaping siblings in another order

The fields of a record are shaped one after another, each for itself, and a null
that moves up from one of them ends the run. Which failures are reported by then
depends on the order, but not whether a null moves up. So a record has the same
shape for selections that differ in the order of siblings, up to the order of
object keys, or no shape for both.
-/

/-- Nodes that differ in the order of object keys at most, at any depth. -/
inductive ResultNode.Reorders : ResultNode → ResultNode → Prop where
  | null : Reorders .null .null
  | scalar (value : Json) : Reorders (.scalar value) (.scalar value)
  | list
      {items others : List ResultNode}
      (each : List.Forall₂ Reorders items others) :
      Reorders (.list items) (.list others)
  | object
      {type : String}
      {fields middle others : List (String × ResultNode)}
      (entries : List.Forall₂ (AtOneKey Reorders) fields middle)
      (permuted : middle.Perm others) :
      Reorders (.object type fields) (.object type others)

theorem ResultNode.Reorders.isNull_eq
    {first second : ResultNode}
    (reorders : first.Reorders second) :
    first.isNull = second.isNull := by
  cases reorders <;> rfl

namespace Completion

variable {field : String} {path : FieldPath}
variable {completion other : Completion ResultNode}

/-- Completions with values that differ in the order of object keys at most. -/
def Reorders (first second : Completion ResultNode) : Prop :=
  Option.Rel ResultNode.Reorders first.value second.value

theorem Reorders.absorb (reorders : completion.Reorders other) :
    completion.absorb.Reorders other.absorb := by
  unfold Reorders at reorders ⊢
  rw [value_absorb, value_absorb]
  generalize completion.value = here, other.value = there at reorders ⊢
  cases reorders with
  | none =>
      exact .some .null
  | some same =>
      exact .some same

theorem Reorders.require (reorders : completion.Reorders other) :
    (require field path completion).Reorders (require field path other) := by
  unfold Reorders Completion.require
  rw [bind_eq, bind_eq, value_bind, value_bind]
  refine Lifted.bind reorders fun node image same => ?_
  rw [same.isNull_eq]
  split
  · exact .none
  · exact .some same

/-- Lists of the same values have shapes alike, if the values do. -/
theorem reorders_listOf
    {each image : Json → FieldPath → Completion ResultNode}
    (alike : ∀ value path, (each value path).Reorders (image value path))
    (value : Json)
    (path : FieldPath) :
    (listOf field each value path).Reorders (listOf field image value path) := by
  unfold Reorders
  cases value with
  | null =>
      exact .some .null
  | array values =>
      simp only [listOf, bind_pure_comp, value_map, items_eq_mapM, value_mapM]
      refine Lifted.map ?_ fun _ _ => ResultNode.Reorders.list
      refine Lifted.mapM (List.forall₂_same.mpr fun _ _ => rfl) ?_
      rintro item _ rfl
      exact alike _ _
  | bool | number | string | object =>
      exact .none

variable {named image : String → Json → FieldPath → Completion ResultNode}

/-- Values have shapes alike after a type, if they do inside it. -/
theorem reorders_complete
    {type : TypeRef}
    (inside : ∀ value path,
      (attempt field named type value path).Reorders
        (attempt field image type value path))
    (value : Json)
    (path : FieldPath) :
    (complete field named type value path).Reorders
      (complete field image type value path) := by
  rw [complete_eq, complete_eq]
  split
  · split
    · exact .none
    · exact inside value path
  · exact (inside value path).absorb

/-- Values have shapes alike inside every type, if those of named types do. -/
theorem reorders_attempt
    (alike : ∀ type value path,
      (named type value path).Reorders (image type value path))
    (type : TypeRef)
    (value : Json)
    (path : FieldPath) :
    (attempt field named type value path).Reorders
      (attempt field image type value path) := by
  induction type generalizing value path with
  | named name =>
      simp only [attempt]
      split
      · exact .some .null
      · exact alike name value path
  | list item inductionHypothesis =>
      rw [attempt_list, attempt_list]
      exact reorders_listOf (reorders_complete inductionHypothesis) value path
  | nonNull inner inductionHypothesis =>
      simp only [attempt]
      split
      · exact .some .null
      · exact (inductionHypothesis value path).require

end Completion

namespace Shaper

variable {shaper : Shaper} {first second : FieldSelection}
variable {concrete declared : String} {source : RecordSource} {record : Json}

theorem applies_eq
    (reorders : first.Reorders second)
    (shaper : Shaper)
    (concrete : String) :
    shaper.applies concrete first = shaper.applies concrete second := by
  simp only [applies, FieldSelection.appliesTo, reorders.sameConditions]

theorem declaration?_eq
    (reorders : first.Reorders second)
    (shaper : Shaper)
    (concrete declared : String) :
    shaper.declaration? concrete declared first =
      shaper.declaration? concrete declared second := by
  simp only [declaration?, reorders.sameName, reorders.sameConditions]

/-- The entry of a selection has a shape alike, if values of named types do. -/
theorem reorders_completeEntry
    (reorders : first.Reorders second)
    (inside : ∀ source type value path,
      (shaper.completeNamed first source type value path).Reorders
        (shaper.completeNamed second source type value path))
    (path : FieldPath) :
    Option.Rel (AtOneKey ResultNode.Reorders)
      (shaper.completeEntry concrete declared source record path first).value
      (shaper.completeEntry concrete declared source record path
        second).value := by
  simp only [completeEntry, reorders.sameTypename, reorders.sameKey,
    reorders.sameName, declaration?_eq reorders]
  split
  · exact .some (.intro (.scalar _))
  · cases shaper.declaration? concrete declared second with
    | none =>
        exact .some (.intro .null)
    | some field =>
        simp only [bind_pure_comp, Completion.value_map]
        refine Lifted.map ?_ fun _ _ => AtOneKey.intro
        exact Completion.reorders_complete
          (Completion.reorders_attempt (inside _) _) _ _

/-- A record has the same entries in some order, if each entry has a shape alike. -/
theorem paired_entries
    (reorders : first.Reorders second)
    (distinct : first.HasDistinctKeys)
    (inside : ∀ inner ∈ first.nested, ∀ image, inner.Reorders image →
      ∀ source type value path,
        (shaper.completeNamed inner source type value path).Reorders
          (shaper.completeNamed image source type value path))
    (concrete declared : String)
    (source : RecordSource)
    (record : Json)
    (path : FieldPath) :
    Option.Rel (Paired (AtOneKey ResultNode.Reorders))
      ((shaper.answered concrete [] first.nested).mapM
        (shaper.completeEntry concrete declared source record path)).value
      ((shaper.answered concrete [] second.nested).mapM
        (shaper.completeEntry concrete declared source record path)).value := by
  -- With distinct keys, whatever applies is answered, in either order.
  rw [answered_eq_applying distinct (by simp),
    answered_eq_applying (reorders.hasDistinctKeys distinct) (by simp),
    applying_eq_filter, applying_eq_filter, Completion.value_mapM,
    Completion.value_mapM]
  have answered :
      Paired (fun inner image => inner ∈ first.nested ∧ inner.Reorders image)
        (first.nested.filter (shaper.applies concrete))
        (second.nested.filter (shaper.applies concrete)) :=
    reorders.paired.of_mem.filter fun inner image nested =>
      applies_eq nested.2 shaper concrete
  refine answered.mapM ?_
  rintro inner image ⟨member, nested⟩
  exact reorders_completeEntry nested (inside inner member image nested) path

/-- Values of named types have shapes alike for selections that differ in the order of siblings. -/
theorem reorders_completeNamed
    (reorders : first.Reorders second)
    (distinct : first.Everywhere FieldSelection.HasDistinctKeys)
    (source : RecordSource)
    (type : String)
    (value : Json)
    (path : FieldPath) :
    (shaper.completeNamed first source type value path).Reorders
      (shaper.completeNamed second source type value path) := by
  induction first using FieldSelection.tree_induction
    generalizing second source type value path with
  | node first inductionHypothesis =>
      rw [completeNamed_eq, completeNamed_eq]
      split
      · exact .some (.scalar value)
      · split
        · exact .none
        · cases shaper.registry.concreteType type (typeRecord source value) with
          | error cause =>
              exact .none
          | ok concrete =>
              have entries :=
                paired_entries reorders distinct.here
                  (fun inner member image nested =>
                    inductionHypothesis inner member nested
                      (distinct.inside member))
                  concrete type source value path
              unfold Completion.Reorders
              simp only [Completion.value_map]
              refine Lifted.map entries fun fields others paired => ?_
              obtain ⟨middle, each, permuted⟩ := paired
              exact .object each permuted

/-- Values have shapes alike for selections that differ in the order of siblings. -/
theorem reorders_complete
    (reorders : first.Reorders second)
    (distinct : first.Everywhere FieldSelection.HasDistinctKeys)
    (type : TypeRef)
    (value : Json)
    (source : RecordSource)
    (path : FieldPath) :
    (shaper.complete type value first source path).Reorders
      (shaper.complete type value second source path) := by
  unfold complete
  rw [reorders.sameName]
  exact Completion.reorders_complete
    (Completion.reorders_attempt
      (reorders_completeNamed reorders distinct source) type)
    value path

end Shaper

namespace DataFetcher

variable {first second : FieldSelection}

/--
The order of siblings does not matter to a field with distinct response keys. It
compiles in any order or in none, to trees that differ in the order of
projections only and, where keys and arguments have names, bind the same values.
Records have the same shape, up to the order of object keys.
-/
theorem sibling_order_does_not_matter
    (reorders : first.Reorders second)
    (distinct : first.Everywhere FieldSelection.HasDistinctKeys)
    (fetcher : DataFetcher)
    (parent : FetchParent) :
    ((∃ fragment, fetcher.compile first parent = .ok fragment) ↔
        ∃ other, fetcher.compile second parent = .ok other) ∧
      ∀ fragment other,
        fetcher.compile first parent = .ok fragment →
          fetcher.compile second parent = .ok other →
            fragment.Reorders other ∧
              (first.Everywhere FieldSelection.HasNames →
                ∀ name,
                  Table.get? fragment.render.binds name =
                    Table.get? other.render.binds name) ∧
              ∀ field path outcome,
                Option.Rel ResultNode.Reorders
                  (fetcher.shape field first fragment.cardinality path
                    outcome).data
                  (fetcher.shape field second other.cardinality path
                    outcome).data := by
  have related := reorders_compile reorders distinct fetcher parent
  constructor
  · simp only [← Success.toOption_eq_some_iff]
    generalize (fetcher.compile first parent).toOption = compiled,
      (fetcher.compile second parent).toOption = compiledToo at related ⊢
    cases related with
    | none =>
        exact iff_of_false nofun nofun
    | some _ =>
        exact iff_of_true ⟨_, rfl⟩ ⟨_, rfl⟩
  · intro fragment other compiled compiledToo
    rw [compiled, compiledToo] at related
    cases related with
    | some same =>
        obtain ⟨-, sameOtherwise⟩ := same.paired
        have sameCardinality : other.cardinality = fragment.cardinality := by
          rw [sameOtherwise]
        refine ⟨same, fun names => ?_, fun field path outcome => ?_⟩
        · exact same.get?_binds (isScoped_of_compile names compiled)
        · rw [sameCardinality]
          cases outcome with
          | ok records =>
              exact Shaper.reorders_complete reorders distinct _ _ _ _
          | error cause =>
              simp only [shape]
              split
              · exact .none
              · exact .some .null

/-- An owner of a name, under a key. -/
def ownerUnder
    (key name : String)
    (nested : List FieldSelection) : FieldSelection where
  name := "owner"
  label := some key
  arguments := [("name", .string name)]
  conditions := []
  nested := nested

/-- The pets with their owners. -/
def petsOwnedBy (owners : List FieldSelection) : FieldSelection :=
  (FieldSelection.ofName "pets").selecting owners

/-- Two owners of all pets. -/
def bossAndMate : FieldSelection :=
  petsOwnedBy [
    ownerUnder "boss" "Ada"
      [.ofName "name", (FieldSelection.ofName "name").withLabel "label"],
    ownerUnder "mate" "Bob" [.ofName "name"]]

/-- The same owners in another order, and what is selected of the first one, too. -/
def mateAndBoss : FieldSelection :=
  petsOwnedBy [
    ownerUnder "mate" "Bob" [.ofName "name"],
    ownerUnder "boss" "Ada"
      [(FieldSelection.ofName "name").withLabel "label", .ofName "name"]]

theorem bossAndMate_reorders : bossAndMate.Reorders mateAndBoss := by
  have sameName : (FieldSelection.ofName "name").Reorders (.ofName "name") :=
    .intro rfl rfl rfl rfl .nil .nil
  have sameLabel :
      ((FieldSelection.ofName "name").withLabel "label").Reorders
        ((FieldSelection.ofName "name").withLabel "label") :=
    .intro rfl rfl rfl rfl .nil .nil
  refine .intro rfl rfl rfl rfl (.cons ?boss (.cons ?mate .nil)) (.swap _ _ _)
  case boss =>
    exact .intro rfl rfl rfl rfl (.cons sameName (.cons sameLabel .nil))
      (.swap _ _ _)
  case mate =>
    exact .intro rfl rfl rfl rfl (.cons sameName .nil) (.refl _)

/-- A dog with two owners, and one whose owners are no objects. -/
def dogsWithOwners : List Json :=
  [.object [
      ("__meta", .object [("kind", .string "Dog")]),
      ("boss", .object [("name", .string "Ada")]),
      ("mate", .object [("name", .string "Bob")])],
    .object [
      ("__meta", .object [("kind", .string "Dog")]),
      ("boss", .string "Ada"),
      ("mate", .string "Bob")]]

/-- Two orders of the owners give one answer, though the failures are reported in another order. -/
theorem owners_in_any_order :
    bossAndMate.Reorders mateAndBoss ∧
      bossAndMate.Everywhere FieldSelection.HasDistinctKeys ∧
      bossAndMate.Everywhere FieldSelection.HasNames ∧
      ∃ field fragment other first second,
        kennel.compile bossAndMate .root = .ok fragment ∧
          kennel.compile mateAndBoss .root = .ok other ∧
          fragment.Reorders other ∧
          (∀ name,
            Table.get? fragment.render.binds name =
              Table.get? other.render.binds name) ∧
          kennel.shape field bossAndMate fragment.cardinality
              (FieldPath.root.key "pets") (.ok dogsWithOwners) = first ∧
          kennel.shape field mateAndBoss other.cardinality
              (FieldPath.root.key "pets") (.ok dogsWithOwners) = second ∧
          Option.Rel ResultNode.Reorders first.data second.data ∧
          first.data =
            some (.list [
              .object "Dog" [
                ("boss", .object "Man" [
                  ("name", .scalar (.string "Ada")),
                  ("label", .scalar (.string "Ada"))]),
                ("mate", .object "Man" [("name", .scalar (.string "Bob"))])],
              .object "Dog" [("boss", .null), ("mate", .null)]]) ∧
          first.errors.map (·.path.render) = ["pets.1.boss", "pets.1.mate"] ∧
          second.errors.map (·.path.render) =
            ["pets.1.mate", "pets.1.boss"] := by
  have distinct : bossAndMate.Everywhere FieldSelection.HasDistinctKeys := by
    decide
  have names : bossAndMate.Everywhere FieldSelection.HasNames := by
    decide
  obtain ⟨fragment, other, compiled, compiledToo, isMany, isManyToo⟩ :
      ∃ fragment other,
        kennel.compile bossAndMate .root = .ok fragment ∧
          kennel.compile mateAndBoss .root = .ok other ∧
          fragment.cardinality = .many ∧ other.cardinality = .many :=
    ⟨_, _, rfl, rfl, rfl, rfl⟩
  obtain ⟨-, alike⟩ :=
    sibling_order_does_not_matter bossAndMate_reorders distinct kennel .root
  obtain ⟨sameTree, sameBinds, sameShape⟩ :=
    alike fragment other compiled compiledToo
  refine ⟨bossAndMate_reorders, distinct, names,
    ⟨"pets", .list (.named "Pet"), .none⟩, fragment, other, _, _, compiled,
    compiledToo, sameTree, sameBinds names, rfl, rfl, sameShape _ _ _, ?_⟩
  rw [isMany, isManyToo]
  exact ⟨rfl, by decide +kernel, by decide +kernel⟩

/-- Two owners of all pets, under keys that read the same inside the names of variables. -/
def ambiguousOwners : List FieldSelection :=
  [ownerUnder "on-" "Ada" [.ofName "name"],
    ownerUnder "on_" "Bob" [.ofName "name"]]

/-- Where a key is no name, the value that is bound depends on the order of siblings. -/
theorem binds_of_ambiguousOwners_differ :
    (petsOwnedBy ambiguousOwners).Everywhere FieldSelection.HasDistinctKeys ∧
      (petsOwnedBy ambiguousOwners).Reorders
        (petsOwnedBy ambiguousOwners.reverse) ∧
      ∃ fragment other,
        kennel.compile (petsOwnedBy ambiguousOwners) .root = .ok fragment ∧
          kennel.compile (petsOwnedBy ambiguousOwners.reverse) .root =
            .ok other ∧
          (Table.get? fragment.render.binds
            "v_pets_on_0_arg_name").bind Json.string? = some "Bob" ∧
          (Table.get? other.render.binds
            "v_pets_on_0_arg_name").bind Json.string? = some "Ada" := by
  have same (key name : String) :
      (ownerUnder key name [.ofName "name"]).Reorders
        (ownerUnder key name [.ofName "name"]) :=
    .intro rfl rfl rfl rfl (.cons (.intro rfl rfl rfl rfl .nil .nil) .nil)
      (.refl _)
  refine ⟨by decide, ?_, _, _, rfl, rfl, by decide +kernel, by decide +kernel⟩
  exact .intro rfl rfl rfl rfl
    (.cons (same "on-" "Ada") (.cons (same "on_" "Bob") .nil)) (.swap _ _ _)

end DataFetcher

end GraphGate
