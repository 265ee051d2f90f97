import GraphGate.Proofs.Response.Placement
import GraphGate.Proofs.Siblings
import GraphGate.Proofs.Store.Simulation

namespace GraphGate

/-!
# Failures stay inside nullable places

A null that moves up is stopped at the nearest place that may be null. So the
rest of an answer does not depend on what the database has at such a place: two
replies that differ there only are shaped to answers that differ there only, and
report the same failures elsewhere. The concrete type of a document is told by
its metadata and not by its fields, so above the place both have the same types.
-/

/-- The type behind its outer non-null marks. -/
def TypeRef.bare : TypeRef → TypeRef
  | .named name => .named name
  | .list item => .list item
  | .nonNull inner => inner.bare

/-- Values that differ at one place at most, where a member may be missing as well. -/
inductive Json.ChangedAt :
    List PathSegment → Option Json → Option Json → Prop where
  | here (first second : Option Json) :
      ChangedAt [] first second
  | item
      {before after : List Json}
      {first second : Json}
      {place : List PathSegment}
      (inside : ChangedAt place (some first) (some second)) :
      ChangedAt (.index before.length :: place)
        (some (.array (before ++ first :: after)))
        (some (.array (before ++ second :: after)))
  | field
      {members others : List (String × Json)}
      {key : String}
      {place : List PathSegment}
      (elsewhere : ∀ other, other ≠ key →
        Table.get? members other = Table.get? others other)
      (inside :
        ChangedAt place (Table.get? members key) (Table.get? others key)) :
      ChangedAt (.key key :: place) (some (.object members))
        (some (.object others))

/-- Nodes that differ at one place at most; what stands above the place is alike. -/
inductive ResultNode.AlikeOutside :
    List PathSegment → ResultNode → ResultNode → Prop where
  | here (first second : ResultNode) :
      AlikeOutside [] first second
  | same (place : List PathSegment) (node : ResultNode) :
      AlikeOutside place node node
  | item
      {before after : List ResultNode}
      {first second : ResultNode}
      {place : List PathSegment}
      (inside : AlikeOutside place first second) :
      AlikeOutside (.index before.length :: place)
        (.list (before ++ first :: after))
        (.list (before ++ second :: after))
  | field
      {type key : String}
      {before after : List (String × ResultNode)}
      {first second : ResultNode}
      {place : List PathSegment}
      (inside : AlikeOutside place first second) :
      AlikeOutside (.key key :: place)
        (.object type (before ++ (key, first) :: after))
        (.object type (before ++ (key, second) :: after))

theorem ResultNode.AlikeOutside.isNull_eq
    {segment : PathSegment}
    {place : List PathSegment}
    {first second : ResultNode}
    (alike : first.AlikeOutside (segment :: place) second) :
    first.isNull = second.isNull := by
  cases alike <;> rfl

namespace FieldPath

theorem inside_nil (path : FieldPath) : path.inside [] = path := by
  simp [inside]

theorem inside_index
    (path : FieldPath)
    (index : Nat)
    (place : List PathSegment) :
    (path.index index).inside place = path.inside (.index index :: place) := by
  simp [inside, FieldPath.index]

theorem inside_key
    (path : FieldPath)
    (key : String)
    (place : List PathSegment) :
    (path.key key).inside place = path.inside (.key key :: place) := by
  simp [inside, FieldPath.key]

end FieldPath

/-- Whether a failure is reported neither at a place nor below it. -/
def FieldError.isOutside (place : FieldPath) (failure : FieldError) : Bool :=
  !place.segments.isPrefixOf failure.path.segments

/-- Lists that are equal but for the item at a position. -/
def EqualBut
    {α : Type}
    (relation : α → α → Prop)
    (index : Nat)
    (first second : List α) : Prop :=
  ∃ before item image after,
    before.length = index ∧
      relation item image ∧
      first = before ++ item :: after ∧
      second = before ++ image :: after

namespace Completion

variable {α β : Type} {place : FieldPath}

/-- Completions with related values that report the same failures outside a place. -/
structure AlikeOutside
    (place : FieldPath)
    (relation : β → β → Prop)
    (first second : Completion β) : Prop where
  value : Option.Rel relation first.value second.value
  errors : first.errors.filter (·.isOutside place) =
    second.errors.filter (·.isOutside place)

variable {relation : α → α → Prop} {onward : β → β → Prop}

/-- What is the same for both runs has one value, if it has any. -/
theorem AlikeOutside.refl (completion : Completion α) :
    AlikeOutside place
      (fun value other => completion.value = some value ∧ value = other)
      completion completion where
  value := by
    cases completion.value with
    | none =>
        exact .none
    | some value =>
        exact .some ⟨rfl, rfl⟩
  errors := rfl

theorem AlikeOutside.bind
    {first second : Completion α}
    {next following : α → Completion β}
    (alike : AlikeOutside place relation first second)
    (each : ∀ value other,
      relation value other →
        AlikeOutside place onward (next value) (following other)) :
    AlikeOutside place onward (first >>= next) (second >>= following) where
  value := by
    rw [value_bind, value_bind]
    exact Lifted.bind alike.value fun value other related =>
      (each value other related).value
  errors := by
    have related := alike.value
    cases found : first.value with
    | none =>
        cases foundToo : second.value with
        | none =>
            rw [bind_of_none found, bind_of_none foundToo]
            exact alike.errors
        | some other =>
            rw [found, foundToo] at related
            cases related
    | some value =>
        cases foundToo : second.value with
        | none =>
            rw [found, foundToo] at related
            cases related
        | some other =>
            rw [found, foundToo] at related
            cases related with
            | some here =>
                rw [bind_of_some found, bind_of_some foundToo,
                  List.filter_append, List.filter_append, alike.errors,
                  (each value other here).errors]

theorem AlikeOutside.map
    {first second : Completion α}
    {change : α → β}
    (alike : AlikeOutside place relation first second)
    (each : ∀ value other,
      relation value other → onward (change value) (change other)) :
    AlikeOutside place onward (change <$> first) (change <$> second) := by
  rw [← bind_pure_comp, ← bind_pure_comp]
  exact alike.bind fun value other related =>
    ⟨.some (each value other related), rfl⟩

/-- Runs along a list differ at one item at most, if they do on the items. -/
theorem AlikeOutside.mapM
    {run rerun : α → Completion β}
    {before after : List α}
    {first second : α}
    (beforeSame : ∀ item ∈ before, run item = rerun item)
    (here : AlikeOutside place onward (run first) (rerun second))
    (afterSame : ∀ item ∈ after, run item = rerun item) :
    AlikeOutside place (EqualBut onward before.length)
      ((before ++ first :: after).mapM run)
      ((before ++ second :: after).mapM rerun) := by
  rw [List.mapM_append, List.mapM_append, mapM_congr beforeSame]
  refine (AlikeOutside.refl _).bind ?_
  rintro values _ ⟨found, rfl⟩
  have sameLength : values.length = before.length :=
    (forall₂_of_mapM_some found).length_eq.symm
  rw [List.mapM_cons, List.mapM_cons, bind_assoc, bind_assoc]
  refine here.bind fun value other related => ?_
  rw [mapM_congr afterSame, bind_assoc, bind_assoc]
  refine (AlikeOutside.refl _).bind ?_
  rintro rest _ ⟨-, rfl⟩
  simp only [pure_bind]
  exact ⟨.some ⟨values, value, other, rest, sameLength, related, rfl, rfl⟩, rfl⟩

variable {segment : PathSegment} {rest : List PathSegment}
variable {completion other : Completion ResultNode}

/-- Whether a null is stopped at a place does not depend on what is below it. -/
theorem AlikeOutside.absorb
    (alike : AlikeOutside place (ResultNode.AlikeOutside rest) completion other) :
    AlikeOutside place (ResultNode.AlikeOutside rest) completion.absorb
      other.absorb where
  value := by
    have related := alike.value
    rw [value_absorb, value_absorb]
    generalize completion.value = here, other.value = there at related ⊢
    cases related with
    | none =>
        exact .some (.same rest .null)
    | some same =>
        exact .some same
  errors := alike.errors

theorem AlikeOutside.require
    (alike : AlikeOutside place (ResultNode.AlikeOutside (segment :: rest))
      completion other)
    (field : String)
    (path : FieldPath) :
    AlikeOutside place (ResultNode.AlikeOutside (segment :: rest))
      (require field path completion) (require field path other) := by
  unfold Completion.require
  rw [bind_eq, bind_eq]
  refine alike.bind fun node image same => ?_
  rw [same.isNull_eq]
  split
  · exact ⟨.none, rfl⟩
  · exact ⟨.some same, rfl⟩

variable {field : String}
variable {named : String → Json → FieldPath → Completion ResultNode}
variable {value change : Json} {path : FieldPath}

/-- Marks that exclude null do not let a change through, if the value stays other than null. -/
theorem AlikeOutside.attempt
    {type : TypeRef}
    (notNull : value.isNull = false)
    (notNullToo : change.isNull = false)
    (inside : AlikeOutside place (ResultNode.AlikeOutside (segment :: rest))
      (attempt field named type.bare value path)
      (attempt field named type.bare change path)) :
    AlikeOutside place (ResultNode.AlikeOutside (segment :: rest))
      (Completion.attempt field named type value path)
      (Completion.attempt field named type change path) := by
  induction type with
  | named name =>
      exact inside
  | list item =>
      exact inside
  | nonNull inner inductionHypothesis =>
      rw [attempt_nonNull notNull path, attempt_nonNull notNullToo path]
      exact (inductionHypothesis inside).require field path

theorem AlikeOutside.complete
    {type : TypeRef}
    (notNull : value.isNull = false)
    (notNullToo : change.isNull = false)
    (inside : AlikeOutside place (ResultNode.AlikeOutside (segment :: rest))
      (Completion.attempt field named type.bare value path)
      (Completion.attempt field named type.bare change path)) :
    AlikeOutside place (ResultNode.AlikeOutside (segment :: rest))
      (Completion.complete field named type value path)
      (Completion.complete field named type change path) := by
  have around := AlikeOutside.attempt notNull notNullToo inside
  simp only [complete_eq, notNull, notNullToo, Bool.false_eq_true, if_false]
  split
  · exact around
  · exact around.absorb

/-- A change inside one item changes a list at that item at most. -/
theorem AlikeOutside.listOf
    {each : Json → FieldPath → Completion ResultNode}
    {before after : List Json}
    (inside : AlikeOutside place (ResultNode.AlikeOutside rest)
      (each value (path.index before.length))
      (each change (path.index before.length))) :
    AlikeOutside place
      (ResultNode.AlikeOutside (.index before.length :: rest))
      (Completion.listOf field each (.array (before ++ value :: after)) path)
      (Completion.listOf field each (.array (before ++ change :: after))
        path) := by
  have sameLength : (before.zipIdx 0).length = before.length :=
    List.length_zipIdx
  simp only [Completion.listOf, bind_pure_comp, items_eq_mapM,
    List.zipIdx_append, List.zipIdx_cons, Nat.zero_add]
  refine (AlikeOutside.mapM (fun _ _ => rfl) inside fun _ _ => rfl).map ?_
  rintro nodes others ⟨nodesBefore, node, image, nodesAfter, isIndex, alike,
    rfl, rfl⟩
  rw [sameLength] at isIndex
  rw [← isIndex]
  exact .item alike

end Completion

/-- The response keys of nested selections are distinct, and none is that of the metadata. -/
structure FieldSelection.HasOwnKeys (selection : FieldSelection) : Prop where
  distinct : selection.HasDistinctKeys
  noMeta : ∀ nested ∈ selection.nested, nested.responseKey ≠ metaKey

instance (selection : FieldSelection) : Decidable selection.HasOwnKeys :=
  decidable_of_iff
    (selection.HasDistinctKeys ∧
      ∀ nested ∈ selection.nested, nested.responseKey ≠ metaKey)
    ⟨fun both => ⟨both.1, both.2⟩, fun keys => ⟨keys.distinct, keys.noMeta⟩⟩

namespace Shaper

/--
A place that is reached from a value through lists and projected documents, with
the type that is declared there. The documents on the way have their metadata.
-/
inductive Reaches (shaper : Shaper) :
    FieldSelection → RecordSource → TypeRef → Option Json →
      List PathSegment → TypeRef → Prop where
  | here
      (selection : FieldSelection)
      (source : RecordSource)
      (type : TypeRef)
      (value : Option Json) :
      Reaches shaper selection source type value [] type
  | item
      {selection : FieldSelection}
      {source : RecordSource}
      {type item declared : TypeRef}
      {values : List Json}
      {value : Json}
      {index : Nat}
      {place : List PathSegment}
      (isList : type.bare = .list item)
      (present : values[index]? = some value)
      (inside : Reaches shaper selection source item (some value) place
        declared) :
      Reaches shaper selection source type (some (.array values))
        (.index index :: place) declared
  | field
      {selection inner : FieldSelection}
      {type declared : TypeRef}
      {name concrete : String}
      {members : List (String × Json)}
      {metadata : Json}
      {field : FieldDeclaration}
      {place : List PathSegment}
      (isNamed : type.bare = .named name)
      (notLeaf : shaper.model.isLeaf name = false)
      (carried : Table.get? members metaKey = some metadata)
      (resolved : shaper.registry.concreteType name metadata = .ok concrete)
      (member : inner ∈ selection.nested)
      (applies : inner.IsMeantFor shaper.model concrete)
      (isField : inner.isTypename = false)
      (found : shaper.declaration? concrete name inner = some field)
      (inside : Reaches shaper inner (fieldSource .document field) field.type
        (Table.get? members inner.responseKey) place declared) :
      Reaches shaper selection .document type (some (.object members))
        (.key inner.responseKey :: place) declared

variable {shaper : Shaper} {selection inner : FieldSelection}
variable {concrete declared : String} {members others : List (String × Json)}

/-- The entry of a field of a document depends on the member of its key only. -/
theorem completeEntry_congr
    (same : Table.get? members selection.responseKey =
      Table.get? others selection.responseKey)
    (path : FieldPath) :
    shaper.completeEntry concrete declared .document (.object members) path
        selection =
      shaper.completeEntry concrete declared .document (.object others) path
        selection := by
  simp only [completeEntry, fieldValue, Json.member?, same]

theorem completeEntry_of_declared
    {field : FieldDeclaration}
    (isField : inner.isTypename = false)
    (found : shaper.declaration? concrete declared inner = some field)
    (path : FieldPath) :
    shaper.completeEntry concrete declared .document (.object members) path
        inner =
      (inner.responseKey, ·) <$>
        shaper.complete field.type
          ((Table.get? members inner.responseKey).getD .null) inner
          (fieldSource .document field) (path.key inner.responseKey) := by
  simp only [completeEntry, isField, found, Bool.false_eq_true, if_false,
    bind_pure_comp, complete, fieldValue, Json.member?]

/-- A change inside one member changes a document at that member at most. -/
theorem alikeOutside_completeNamed
    {name : String}
    {metadata : Json}
    {place path : FieldPath}
    {rest : List PathSegment}
    (keys : selection.HasOwnKeys)
    (notLeaf : shaper.model.isLeaf name = false)
    (carried : Table.get? members metaKey = some metadata)
    (resolved : shaper.registry.concreteType name metadata = .ok concrete)
    (member : inner ∈ selection.nested)
    (applies : inner.IsMeantFor shaper.model concrete)
    (elsewhere : ∀ other, other ≠ inner.responseKey →
      Table.get? members other = Table.get? others other)
    (inside : Completion.AlikeOutside place
      (fun entry image =>
        entry.1 = inner.responseKey ∧
          image.1 = inner.responseKey ∧
          entry.2.AlikeOutside rest image.2)
      (shaper.completeEntry concrete name .document (.object members) path inner)
      (shaper.completeEntry concrete name .document (.object others) path
        inner)) :
    Completion.AlikeOutside place
      (ResultNode.AlikeOutside (.key inner.responseKey :: rest))
      (shaper.completeNamed selection .document name (.object members) path)
      (shaper.completeNamed selection .document name (.object others) path) := by
  have carriedToo : Table.get? others metaKey = some metadata := by
    rw [← elsewhere metaKey (keys.noMeta inner member).symm, carried]
  have answered : inner ∈ shaper.answered concrete [] selection.nested := by
    rw [answered_eq_applying keys.distinct (by simp)]
    exact mem_applying_iff.mpr ⟨member, applies⟩
  obtain ⟨before, after, split⟩ := List.append_of_mem answered
  have apart := shaper.nodup_keys_answered concrete [] selection.nested
  rw [split, List.map_append, List.map_cons, List.nodup_middle,
    List.nodup_cons, ← List.map_append, List.mem_map] at apart
  have sibling (item : FieldSelection) (among : item ∈ before ++ after) :
      shaper.completeEntry concrete name .document (.object members) path item =
        shaper.completeEntry concrete name .document (.object others) path
          item :=
    completeEntry_congr
      (elsewhere _ fun sameKey => apart.1 ⟨item, among, sameKey⟩) path
  rw [completeNamed_eq, completeNamed_eq]
  simp only [notLeaf, Json.isObject, typeRecord, Json.member?, carried,
    carriedToo, Option.getD_some, resolved, Bool.not_true, Bool.false_eq_true,
    if_false, split]
  have entries :=
    Completion.AlikeOutside.mapM
      (fun item among => sibling item (List.mem_append_left _ among)) inside
      (fun item among => sibling item (List.mem_append_right _ among))
  refine entries.map ?_
  rintro fields images ⟨fieldsBefore, ⟨key, node⟩, ⟨otherKey, image⟩,
    fieldsAfter, -, ⟨isKey, isKeyToo, alike⟩, rfl, rfl⟩
  cases isKey
  cases isKeyToo
  exact .field alike

/-- Nothing that is reported while a value is shaped is outside of its place. -/
theorem filter_isOutside_complete
    (shaper : Shaper)
    (type : TypeRef)
    (value : Json)
    (selection : FieldSelection)
    (source : RecordSource)
    (path : FieldPath) :
    (shaper.complete type value selection source path).errors.filter
      (·.isOutside path) = [] := by
  rw [List.filter_eq_nil_iff]
  intro failure member
  have pinned := shaper.pinned_complete type value selection source path
  obtain ⟨place, isPath, below⟩ := pinned.once.below failure member
  rw [List.mem_singleton.mp isPath] at below
  simp [FieldError.isOutside, List.isPrefixOf_iff_prefix.mpr below]

/-- A change at a reached place that may be null changes the shape at that place at most. -/
theorem alikeOutside_complete
    {source : RecordSource}
    {type declared : TypeRef}
    {value change : Option Json}
    {place : List PathSegment}
    (reaches : shaper.Reaches selection source type value place declared)
    (nullable : declared.isNonNull = false)
    (keys : selection.Everywhere FieldSelection.HasOwnKeys)
    (changed : Json.ChangedAt place value change)
    (path : FieldPath) :
    Completion.AlikeOutside (path.inside place)
      (ResultNode.AlikeOutside place)
      (shaper.complete type (value.getD .null) selection source path)
      (shaper.complete type (change.getD .null) selection source path) := by
  -- Above the place, lists and documents are lists and documents in both runs,
  -- so no null moves up there for one of them only.
  induction reaches generalizing change path with
  | here selection source type value =>
      rw [FieldPath.inside_nil]
      constructor
      · unfold complete
        rw [Completion.complete_nullable nullable,
          Completion.complete_nullable nullable]
        exact .some (.here _ _)
      · rw [filter_isOutside_complete, filter_isOutside_complete]
  | item isList present inside inductionHypothesis =>
      cases changed with
      | @item before after first second place inChanged =>
          have isFirst :
              (before ++ first :: after)[before.length]? = some first := by
            simp
          cases present.symm.trans isFirst
          have here :=
            inductionHypothesis nullable keys inChanged
              (path.index before.length)
          rw [FieldPath.inside_index] at here
          refine Completion.AlikeOutside.complete rfl rfl ?_
          rw [isList, Completion.attempt_list, Completion.attempt_list]
          exact here.listOf
  | @field selection inner type declared name concrete members metadata field
      place isNamed notLeaf carried resolved member applies isField found inside
      inductionHypothesis =>
      cases changed with
      | @field _ others _ _ elsewhere inChanged =>
          have here :=
            inductionHypothesis nullable (keys.inside member) inChanged
              (path.key inner.responseKey)
          rw [FieldPath.inside_key] at here
          refine Completion.AlikeOutside.complete rfl rfl ?_
          rw [isNamed]
          refine alikeOutside_completeNamed keys.here notLeaf carried resolved
            member applies elsewhere ?_
          rw [completeEntry_of_declared isField found,
            completeEntry_of_declared isField found]
          exact here.map fun _ _ alike => ⟨rfl, rfl, alike⟩

end Shaper

namespace DataFetcher

/--
Two replies that differ at one place that may be null, be it an item of a list
or a field of a document, are shaped to answers that differ at that place only,
and the same failures are reported for the rest of both. No null moves up beyond
the place for one of them only.
-/
theorem failures_stay_inside_nullable_places
    {fetcher : DataFetcher}
    {field : FieldDeclaration}
    {selection : FieldSelection}
    {cardinality : Cardinality}
    {records others : List Json}
    {place : List PathSegment}
    {declared : TypeRef}
    (keys : selection.Everywhere FieldSelection.HasOwnKeys)
    (reaches :
      fetcher.shaper.Reaches selection .document field.type
        (some (rawValue cardinality records)) place declared)
    (nullable : declared.isNonNull = false)
    (changed :
      Json.ChangedAt place (some (rawValue cardinality records))
        (some (rawValue cardinality others)))
    (path : FieldPath) :
    let before := fetcher.shape field selection cardinality path (.ok records)
    let after := fetcher.shape field selection cardinality path (.ok others)
    Option.Rel (ResultNode.AlikeOutside place) before.data after.data ∧
      before.errors.filter (·.isOutside (path.inside place)) =
        after.errors.filter (·.isOutside (path.inside place)) := by
  obtain ⟨value, errors⟩ :=
    Shaper.alikeOutside_complete reaches nullable keys changed path
  exact ⟨value, errors⟩

/-- The field with all pets. -/
def petsField : FieldDeclaration :=
  ⟨"pets", .nonNull (.list (.named "Pet")), .none⟩

/-- The owner of Rex, as it is selected. -/
def rexOwner : FieldSelection :=
  (FieldSelection.ofName "owner").withNested
    ((FieldSelection.ofName "name").withLabel "label")

/-- Rex with an owner, and a pet that is no document. -/
def rexAndStray (owner : Json) : List Json :=
  [.object [
      ("__meta", .object [("kind", .string "Dog")]),
      ("name", .string "Rex"),
      ("owner", owner)],
    .string "stray"]

/-- The place of the owner is reached, whatever the owner is. -/
theorem reaches_rexOwner (owner : Json) :
    shelter.shaper.Reaches rexSelection .document petsField.type
      (some (rawValue .many (rexAndStray owner)))
      [.index 0, .key rexOwner.responseKey] (.named "Man") := by
  have reached :
      shelter.shaper.Reaches rexOwner .document (.named "Man") (some owner) []
        (.named "Man") :=
    .here _ _ _ _
  refine .item rfl rfl ?_
  exact .field rfl rfl rfl rfl
    (List.mem_cons_of_mem _ List.mem_cons_self) (.inl rfl) rfl rfl reached

theorem changedAt_rexOwner (owner other : Json) :
    Json.ChangedAt [.index 0, .key rexOwner.responseKey]
      (some (rawValue .many (rexAndStray owner)))
      (some (rawValue .many (rexAndStray other))) := by
  refine @Json.ChangedAt.item [] [.string "stray"] _ _ _
    (.field (fun key different => ?_) (.here _ _))
  have otherKey : "owner" ≠ key := fun same => different same.symm
  simp [Table.get?_cons, otherKey]

/-- An owner that is no document is lost, and Rex and the failure of the other pet are kept. -/
theorem lost_owner_stays_inside :
    let owner : Json :=
      .object [("__meta", .object []), ("label", .string "Ada")]
    let place : List PathSegment := [.index 0, .key rexOwner.responseKey]
    let result (owner : Json) :=
      shelter.shape petsField rexSelection .many (FieldPath.root.key "pets")
        (.ok (rexAndStray owner))
    rexSelection.Everywhere FieldSelection.HasOwnKeys ∧
      Option.Rel (ResultNode.AlikeOutside place) (result owner).data
        (result (.string "Ada")).data ∧
      (result (.string "Ada")).data =
        some (.list [
          .object "Dog" [("name", .scalar (.string "Rex")), ("owner", .null)],
          .null]) ∧
      (result owner).errors.map (·.path.render) = ["pets.1"] ∧
      (result (.string "Ada")).errors.map (·.path.render) =
        ["pets.0.owner", "pets.1"] := by
  intro owner place result
  have keys : rexSelection.Everywhere FieldSelection.HasOwnKeys := by
    decide
  obtain ⟨alike, -⟩ :=
    failures_stay_inside_nullable_places keys (reaches_rexOwner owner) rfl
      (changedAt_rexOwner owner (.string "Ada")) (FieldPath.root.key "pets")
  exact ⟨keys, alike, rfl, by decide +kernel, by decide +kernel⟩

end DataFetcher

end GraphGate
