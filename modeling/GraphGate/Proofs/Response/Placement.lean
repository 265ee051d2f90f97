import GraphGate.Proofs.Response.Explanation
import GraphGate.Request.Handling
import Mathlib.Data.List.Nodup

namespace GraphGate

/-!
# Every failure stands at a null

A failure is reported once, at a place of its own, and the null that it leaves
behind stands at that place or above it. So no value survives where a failure
was reported, however far the null moved up and whatever else failed on the way.

The pieces of an answer report at places apart from each other: the items of a
list at their positions, the fields of an object and of the whole answer under
their response keys. That keeps all reports of an answer apart.
-/

namespace FieldPath

/-- One step further down. -/
def step (path : FieldPath) (segment : PathSegment) : FieldPath :=
  ⟨path.segments ++ [segment]⟩

/-- Whether nothing is at or below both of two places. -/
def Apart (first second : FieldPath) : Prop :=
  ∀ place : List PathSegment,
    first.segments <+: place → ¬ second.segments <+: place

theorem apart_step
    (path : FieldPath)
    {first second : PathSegment}
    (different : first ≠ second) :
    Apart (path.step first) (path.step second) := by
  intro place belowFirst belowSecond
  have sameLength :
      (path.step first).segments.length =
        (path.step second).segments.length := by
    simp [step]
  have nested :
      (path.step first).segments <+: (path.step second).segments :=
    List.prefix_of_prefix_length_le belowFirst belowSecond
      (Nat.le_of_eq sameLength)
  have same := nested.eq_of_length sameLength
  simp only [step, List.append_cancel_left_eq, List.cons.injEq,
    and_true] at same
  exact different same

end FieldPath

namespace ResultNode

/-- No object inside a node has two members of one key. -/
inductive Keyed : ResultNode → Prop where
  | null : Keyed .null
  | scalar (value : Json) : Keyed (.scalar value)
  | list {items : List ResultNode} :
      (∀ item ∈ items, Keyed item) → Keyed (.list items)
  | object {type : String} {fields : List (String × ResultNode)} :
      (Table.keys fields).Nodup →
      (∀ entry ∈ fields, Keyed entry.2) →
      Keyed (.object type fields)

/-- Where keys are distinct, one node stands at a place. -/
theorem Holds.unique
    {node first second : ResultNode}
    {place : List PathSegment}
    (keyed : node.Keyed)
    (holdsFirst : node.Holds place first)
    (holdsSecond : node.Holds place second) :
    first = second := by
  induction holdsFirst with
  | here node =>
      cases holdsSecond
      rfl
  | item present _ inductionHypothesis =>
      cases holdsSecond with
      | item presentToo inner =>
          cases present.symm.trans presentToo
          cases keyed with
          | list items =>
              exact inductionHypothesis
                (items _ (List.mem_of_getElem? present)) inner
  | field member _ inductionHypothesis =>
      generalize isPlace : PathSegment.key _ :: _ = place at holdsSecond
      cases holdsSecond with
      | here node =>
          cases isPlace
      | field memberToo inner =>
          simp only [List.cons.injEq, PathSegment.key.injEq] at isPlace
          obtain ⟨sameKey, rfl⟩ := isPlace
          cases keyed with
          | object distinct fields =>
              have same :=
                List.inj_on_of_nodup_map distinct member memberToo sameKey
              subst same
              exact inductionHypothesis (fields _ member) inner

theorem Holds.of_append
    {node inner : ResultNode}
    {above below : List PathSegment}
    (holds : node.Holds (above ++ below) inner) :
    ∃ middle, node.Holds above middle ∧ middle.Holds below inner := by
  induction above generalizing node with
  | nil =>
      exact ⟨node, .here node, holds⟩
  | cons segment rest inductionHypothesis =>
      cases holds with
      | item present inside =>
          obtain ⟨middle, upper, lower⟩ := inductionHypothesis inside
          exact ⟨middle, .item present upper, lower⟩
      | field member inside =>
          obtain ⟨middle, upper, lower⟩ := inductionHypothesis inside
          exact ⟨middle, .field member upper, lower⟩

/-- Whatever stands at a null or below it is that null. -/
theorem Holds.eq_null_of_above
    {node inner : ResultNode}
    {above place : List PathSegment}
    (keyed : node.Keyed)
    (null : node.Holds above .null)
    (below : above <+: place)
    (holds : node.Holds place inner) :
    inner = .null := by
  obtain ⟨rest, rfl⟩ := below
  obtain ⟨middle, upper, lower⟩ := holds.of_append
  cases null.unique keyed upper
  cases lower.place_of_null
  cases lower
  rfl

end ResultNode

/-- Each failure is reported at one of some places or below, no two at one place. -/
structure ReportedOnce
    (places : List FieldPath)
    (errors : List FieldError) : Prop where
  below : ∀ failure ∈ errors,
    ∃ place ∈ places, place.segments <+: failure.path.segments
  distinct : (errors.map FieldError.path).Nodup

namespace ReportedOnce

variable {places others : List FieldPath} {errors failures : List FieldError}

theorem none (places : List FieldPath) : ReportedOnce places [] where
  below _ member := nomatch member
  distinct := List.nodup_nil

theorem once (cause : FetchError) (path : FieldPath) :
    ReportedOnce [path] [⟨cause, path⟩] where
  below failure member := by
    rw [List.mem_singleton] at member
    subst member
    exact ⟨path, List.mem_singleton_self path, List.prefix_refl _⟩
  distinct := List.nodup_singleton _

/-- What is reported below some places is reported below places above them. -/
theorem widen
    (reported : ReportedOnce places errors)
    (above : ∀ place ∈ places,
      ∃ other ∈ others, other.segments <+: place.segments) :
    ReportedOnce others errors where
  below failure member := by
    obtain ⟨place, isPlace, below⟩ := reported.below failure member
    obtain ⟨other, isOther, upper⟩ := above place isPlace
    exact ⟨other, isOther, upper.trans below⟩
  distinct := reported.distinct

/-- Reports at places apart from each other stay apart. -/
theorem append
    (reported : ReportedOnce places errors)
    (more : ReportedOnce others failures)
    (apart : ∀ place ∈ places, ∀ other ∈ others, place.Apart other) :
    ReportedOnce (places ++ others) (errors ++ failures) where
  below failure member := by
    rcases List.mem_append.mp member with inFirst | inSecond
    · obtain ⟨place, isPlace, below⟩ := reported.below failure inFirst
      exact ⟨place, List.mem_append_left _ isPlace, below⟩
    · obtain ⟨place, isPlace, below⟩ := more.below failure inSecond
      exact ⟨place, List.mem_append_right _ isPlace, below⟩
  distinct := by
    rw [List.map_append, List.nodup_append]
    refine ⟨reported.distinct, more.distinct, ?_⟩
    intro path inFirst other inSecond same
    subst same
    obtain ⟨failure, isFailure, rfl⟩ := List.mem_map.mp inFirst
    obtain ⟨another, isAnother, samePath⟩ := List.mem_map.mp inSecond
    obtain ⟨place, isPlace, below⟩ := reported.below failure isFailure
    obtain ⟨other, isOther, otherBelow⟩ := more.below another isAnother
    rw [samePath] at otherBelow
    exact apart place isPlace other isOther _ below otherBelow

/-- What is reported at steps down a path is reported below the path. -/
theorem of_steps
    {segments : List PathSegment}
    {path : FieldPath}
    (reported : ReportedOnce (segments.map path.step) errors) :
    ReportedOnce [path] errors := by
  refine reported.widen fun place isPlace => ?_
  obtain ⟨segment, -, rfl⟩ := List.mem_map.mp isPlace
  exact ⟨path, List.mem_singleton_self path, List.prefix_append _ _⟩

/-- Items that report at different steps down a path report apart from each other. -/
theorem mapM
    {α β : Type}
    {each : α → Completion β}
    {path : FieldPath}
    {segment : α → PathSegment}
    {items : List α}
    (distinct : (items.map segment).Nodup)
    (reported : ∀ item ∈ items,
      ReportedOnce [path.step (segment item)] (each item).errors) :
    ReportedOnce ((items.map segment).map path.step)
      (items.mapM each).errors := by
  induction items with
  | nil =>
      exact none _
  | cons item rest inductionHypothesis =>
      obtain ⟨fresh, restDistinct⟩ := List.nodup_cons.mp distinct
      obtain ⟨first, others⟩ := List.forall_mem_cons.mp reported
      cases found : (each item).value with
      | none =>
          rw [List.mapM_cons, Completion.bind_of_none found]
          refine first.widen fun place isPlace => ?_
          rw [List.mem_singleton] at isPlace
          subst isPlace
          exact ⟨_, List.mem_cons_self, List.prefix_refl _⟩
      | some value =>
          rw [Completion.mapM_cons_of_some found]
          refine first.append (inductionHypothesis restDistinct others) ?_
          intro place isPlace other isOther
          rw [List.mem_singleton] at isPlace
          subst isPlace
          obtain ⟨step, isStep, rfl⟩ := List.mem_map.mp isOther
          refine FieldPath.apart_step path fun same => fresh ?_
          rw [same]
          exact isStep

end ReportedOnce

namespace Completion

/-- If a list has a value, every failure is one of an item that has a value. -/
theorem exists_of_mem_errors_mapM
    {α β : Type}
    {each : α → Completion β}
    {items : List α}
    {values : List β}
    (found : (items.mapM each).value = some values)
    {failure : FieldError}
    (member : failure ∈ (items.mapM each).errors) :
    ∃ (index : Nat) (item : α) (value : β),
      items[index]? = some item ∧
        values[index]? = some value ∧
        (each item).value = some value ∧
        failure ∈ (each item).errors := by
  induction items generalizing values with
  | nil =>
      cases member
  | cons item rest inductionHypothesis =>
      cases first : (each item).value with
      | none =>
          simp [List.mapM_cons, first] at found
      | some value =>
          rw [mapM_cons_of_some first] at found member
          obtain ⟨others, restFound, rfl⟩ := Option.map_eq_some_iff.mp found
          rcases List.mem_append.mp member with inFirst | inRest
          · exact ⟨0, item, value, rfl, rfl, first, inFirst⟩
          · obtain ⟨index, other, otherValue, isItem, isValue, shaped, inside⟩ :=
              inductionHypothesis restFound inRest
            exact ⟨index + 1, other, otherValue, isItem, isValue, shaped, inside⟩

/-- Where no null is found, excluding null changes nothing. -/
theorem require_of_solid
    {completion : Completion ResultNode}
    (solid : ∀ node, completion.value = some node → node.isNull = false)
    (field : String)
    (path : FieldPath) :
    require field path completion = completion := by
  cases found : completion.value with
  | none =>
      simp only [require, bind_eq, bind_of_none found]
      exact ext found.symm rfl
  | some node =>
      simp only [require, bind_eq, bind_of_some found, solid node found]
      exact ext found.symm (List.append_nil _)

variable {field : String}
variable {named : String → Json → FieldPath → Completion ResultNode}

/-- Inside a type only null itself is shaped to null, if that is so for the named types. -/
theorem solid_attempt
    (solidNamed : ∀ {name value path node},
      value.isNull = false →
        (named name value path).value = some node → node.isNull = false)
    {type : TypeRef}
    {value : Json}
    {path : FieldPath}
    {node : ResultNode}
    (notNull : value.isNull = false)
    (shaped : (attempt field named type value path).value = some node) :
    node.isNull = false := by
  cases type with
  | named name =>
      simp only [attempt, notNull, Bool.false_eq_true, if_false] at shaped
      exact solidNamed notNull shaped
  | list item =>
      rw [attempt_list] at shaped
      rcases listOf_outcome field (complete field named item) value path with
        ⟨isNull, -⟩ | ⟨values, -, isList⟩ | ⟨-, cause, isReported⟩
      · rw [isNull] at notNull
        cases notNull
      · rw [isList, value_map, Option.map_eq_some_iff] at shaped
        obtain ⟨nodes, -, rfl⟩ := shaped
        rfl
      · rw [isReported] at shaped
        cases shaped
  | nonNull inner =>
      simp only [attempt, notNull, Bool.false_eq_true, if_false,
        value_require_eq_some_iff] at shaped
      exact shaped.2

end Completion

/--
The failures of an answer at a path are reported once at the path or below it,
and each has a null of the answer at its place or above it.
-/
structure Pinned
    (path : FieldPath)
    (answer : Option ResultNode)
    (errors : List FieldError) : Prop where
  once : ReportedOnce [path] errors
  keyed {node : ResultNode} : answer = some node → node.Keyed
  nulled {node : ResultNode} {failure : FieldError} :
    answer = some node →
      failure ∈ errors →
        ∃ above,
          path.segments ++ above <+: failure.path.segments ∧
            node.Holds above .null

namespace Pinned

variable {path : FieldPath} {answer : Option ResultNode} {errors : List FieldError}

theorem of_fail (cause : FetchError) : Pinned path none [⟨cause, path⟩] where
  once := .once cause path
  keyed impossible := nomatch impossible
  nulled impossible := nomatch impossible

/-- A null at the place of its failure pins the failure. -/
theorem of_null_at (cause : FetchError) :
    Pinned path (some .null) [⟨cause, path⟩] where
  once := .once cause path
  keyed found := by
    cases found
    exact .null
  nulled found member := by
    cases found
    rw [List.mem_singleton] at member
    subst member
    exact ⟨[], by simp, .here .null⟩

/-- Where nothing is reported there is nothing to pin. -/
theorem of_unreported
    {node : ResultNode}
    (keyed : node.Keyed) :
    Pinned path (some node) [] where
  once := .none _
  keyed found := by
    cases found
    exact keyed
  nulled _ member := nomatch member

/-- A null that is stopped at a place pins all that is reported below the place. -/
theorem absorb
    {completion : Completion ResultNode}
    (pinned : Pinned path completion.value completion.errors) :
    Pinned path completion.absorb.value completion.absorb.errors where
  once := pinned.once
  keyed {node} found := by
    cases absorbed : completion.value with
    | none =>
        simp only [Completion.value_absorb, absorbed, Option.getD_none,
          Option.some.injEq] at found
        subst found
        exact .null
    | some shape =>
        simp only [Completion.value_absorb, absorbed, Option.getD_some,
          Option.some.injEq] at found
        subst found
        exact pinned.keyed absorbed
  nulled {node failure} found member := by
    cases absorbed : completion.value with
    | none =>
        simp only [Completion.value_absorb, absorbed, Option.getD_none,
          Option.some.injEq] at found
        subst found
        obtain ⟨place, isPath, below⟩ := pinned.once.below failure member
        rw [List.mem_singleton] at isPath
        subst isPath
        exact ⟨[], by simpa using below, .here .null⟩
    | some shape =>
        simp only [Completion.value_absorb, absorbed, Option.getD_some,
          Option.some.injEq] at found
        subst found
        exact pinned.nulled absorbed member

end Pinned

/-- What a function makes of any value is pinned, at any path. -/
def Pins (shape : Json → FieldPath → Completion ResultNode) : Prop :=
  ∀ value path, Pinned path (shape value path).value (shape value path).errors

namespace Completion

variable {field : String}
variable {named : String → Json → FieldPath → Completion ResultNode}

/-- If what is found inside a type is pinned, so is what is shaped after the type. -/
theorem pins_complete
    {type : TypeRef}
    (inside : Pins (attempt field named type)) :
    Pins (complete field named type) := by
  intro value path
  cases nonNull : type.isNonNull with
  | false =>
      rw [complete_nullable nonNull]
      exact (inside value path).absorb
  | true =>
      cases type with
      | named name =>
          cases nonNull
      | list item =>
          cases nonNull
      | nonNull inner =>
          cases null : value.isNull with
          | true =>
              cases value <;> cases null
              rw [complete_nonNull_null]
              exact .of_fail _
          | false =>
              rw [complete_nonNull null]
              exact inside value path

/-- If the shapes of the items of a list are pinned, so is the shape of the list. -/
theorem pins_listOf
    {each : Json → FieldPath → Completion ResultNode}
    (pins : Pins each) :
    Pins (listOf field each) := by
  intro value path
  rcases listOf_outcome field each value path with
    ⟨-, shaped⟩ | ⟨values, -, shaped⟩ | ⟨-, cause, shaped⟩
  · rw [shaped]
    exact .of_unreported .null
  · rw [shaped, value_map, errors_map]
    have apart :
        ((values.zipIdx 0).map (PathSegment.index ∘ Prod.snd)).Nodup := by
      rw [← List.map_map, List.zipIdx_map_snd]
      exact List.Nodup.map (fun _ _ => PathSegment.index.inj) List.nodup_range'
    constructor
    · rw [items_eq_mapM]
      exact (ReportedOnce.mapM apart fun item _ =>
        (pins item.1 (path.index item.2)).once).of_steps
    · intro node found
      obtain ⟨nodes, itemsFound, rfl⟩ := Option.map_eq_some_iff.mp found
      refine .list fun item member => ?_
      obtain ⟨index, present⟩ := List.mem_iff_getElem?.mp member
      obtain ⟨value, -, shape, -⟩ := getElem?_of_items_some itemsFound present
      exact (pins value (path.index index)).keyed shape
    · intro node failure found member
      obtain ⟨nodes, itemsFound, rfl⟩ := Option.map_eq_some_iff.mp found
      rw [items_eq_mapM] at itemsFound member
      obtain ⟨index, ⟨value, position⟩, item, placed, present, shape, inside⟩ :=
        exists_of_mem_errors_mapM itemsFound member
      simp only [List.getElem?_zipIdx, Option.map_eq_some_iff, Prod.mk.injEq,
        Nat.zero_add] at placed
      obtain ⟨_, -, rfl, rfl⟩ := placed
      obtain ⟨above, below, null⟩ := (pins _ _).nulled shape inside
      exact ⟨.index index :: above, by simpa [FieldPath.index] using below,
        .item present null⟩
  · rw [shaped]
    exact .of_fail cause

/-- If the shapes of named types are pinned, so is what is found inside any type. -/
theorem pins_attempt
    {type : TypeRef}
    (solidNamed : ∀ {name value path node},
      value.isNull = false →
        (named name value path).value = some node → node.isNull = false)
    (namedPinned : ∀ {value path},
      value.isNull = false →
        Pinned path (named type.namedType value path).value
          (named type.namedType value path).errors) :
    Pins (attempt field named type) := by
  induction type with
  | named name =>
      intro value path
      cases null : value.isNull with
      | true =>
          cases value <;> cases null
          rw [attempt_null]
          exact .of_unreported .null
      | false =>
          rw [attempt_named null]
          exact namedPinned null
  | list item inductionHypothesis =>
      intro value path
      rw [attempt_list]
      exact pins_listOf (pins_complete (inductionHypothesis namedPinned))
        value path
  | nonNull inner inductionHypothesis =>
      intro value path
      cases null : value.isNull with
      | true =>
          cases value <;> cases null
          rw [attempt_null]
          exact .of_unreported .null
      | false =>
          have solid :
              ∀ node,
                (attempt field named inner value path).value = some node →
                  node.isNull = false :=
            fun node shaped => solid_attempt solidNamed null shaped
          rw [attempt_nonNull null, require_of_solid solid]
          exact inductionHypothesis namedPinned value path

end Completion

namespace Shaper

variable {shaper : Shaper}

theorem solid_completeNamed
    {selection : FieldSelection}
    {source : RecordSource}
    {type : String}
    {value : Json}
    {path : FieldPath}
    {node : ResultNode}
    (shaped :
      (shaper.completeNamed selection source type value path).value =
        some node) :
    node.isNull = false := by
  rcases shaper.completeNamed_outcome source path selection type value with
    ⟨-, isScalar⟩ | ⟨-, cause, isReported⟩ | ⟨-, concrete, -, isObject⟩
  · rw [isScalar] at shaped
    cases shaped
    rfl
  · rw [isReported] at shaped
    cases shaped
  · rw [isObject, Completion.value_map, Option.map_eq_some_iff] at shaped
    obtain ⟨fields, -, rfl⟩ := shaped
    rfl

variable {concrete declared : String} {source : RecordSource} {record : Json}

/-- The entry of a selection is pinned at its response key. -/
theorem pinned_completeEntry
    {inner : FieldSelection}
    (inside : ∀ {type value source path},
      Pinned path (shaper.completeNamed inner source type value path).value
        (shaper.completeNamed inner source type value path).errors)
    (path : FieldPath) :
    Pinned (path.key inner.responseKey)
      ((shaper.completeEntry concrete declared source record path
        inner).value.map Prod.snd)
      (shaper.completeEntry concrete declared source record path
        inner).errors := by
  rcases shaper.completeEntry_outcome concrete declared source record path
      inner with
    ⟨-, isName⟩ | ⟨-, -, cause, isNull⟩ | ⟨-, field, -, shaped⟩
  · rw [isName]
    exact .of_unreported (.scalar _)
  · rw [isNull]
    exact .of_null_at cause
  · rw [shaped, Completion.value_map, Completion.errors_map, Option.map_map]
    have sameAnswer (answer : Option ResultNode) :
        answer.map (Prod.snd ∘ (inner.responseKey, ·)) = answer := by
      cases answer <;> rfl
    rw [sameAnswer]
    exact Completion.pins_complete
      (Completion.pins_attempt (fun _ => solid_completeNamed) fun _ => inside)
      _ _

/-- The response keys that a record answers are distinct. -/
theorem nodup_keys_answered
    (shaper : Shaper)
    (concrete : String)
    (taken : List String)
    (nested : List FieldSelection) :
    ((shaper.answered concrete taken nested).map
      FieldSelection.responseKey).Nodup := by
  induction nested generalizing taken with
  | nil =>
      exact List.nodup_nil
  | cons first rest inductionHypothesis =>
      rw [answered]
      split
      · exact inductionHypothesis taken
      · refine List.nodup_cons.mpr ⟨?_, inductionHypothesis _⟩
        intro repeated
        obtain ⟨inner, isAnswered, same⟩ := List.mem_map.mp repeated
        obtain ⟨free, -⟩ := answering?_of_mem_answered isAnswered
        simp [same] at free

/-- The shape of a value of a named type is pinned. -/
theorem pinned_completeNamed
    (shaper : Shaper)
    (selection : FieldSelection)
    (source : RecordSource)
    (type : String)
    (value : Json)
    (path : FieldPath) :
    Pinned path (shaper.completeNamed selection source type value path).value
      (shaper.completeNamed selection source type value path).errors := by
  induction selection using FieldSelection.tree_induction
    generalizing source type value path with
  | node selection inductionHypothesis =>
      rcases shaper.completeNamed_outcome source path selection type value with
        ⟨-, shaped⟩ | ⟨-, cause, shaped⟩ | ⟨-, concrete, -, shaped⟩
      · rw [shaped]
        exact .of_unreported (.scalar value)
      · rw [shaped]
        exact .of_fail cause
      · rw [shaped, Completion.value_map, Completion.errors_map]
        have entryPinned :
            ∀ inner ∈ shaper.answered concrete [] selection.nested,
              Pinned (path.key inner.responseKey)
                ((shaper.completeEntry concrete type source value path
                  inner).value.map Prod.snd)
                (shaper.completeEntry concrete type source value path
                  inner).errors := by
          intro inner isAnswered
          obtain ⟨-, answers⟩ := answering?_of_mem_answered isAnswered
          exact pinned_completeEntry
            (inductionHypothesis inner (mem_of_answering? answers) _ _ _ _) path
        constructor
        · have apart :
              ((shaper.answered concrete [] selection.nested).map
                (PathSegment.key ∘ FieldSelection.responseKey)).Nodup := by
            rw [← List.map_map]
            exact (shaper.nodup_keys_answered concrete [] selection.nested).map
              fun _ _ => PathSegment.key.inj
          exact (ReportedOnce.mapM apart fun inner isAnswered =>
            (entryPinned inner isAnswered).once).of_steps
        · intro node found
          obtain ⟨fields, entries, rfl⟩ := Option.map_eq_some_iff.mp found
          refine .object ?_ fun entry member => ?_
          · have distinct :=
              shaper.nodup_keys_answered concrete [] selection.nested
            rw [keys_answered] at distinct
            simpa [keys_of_entries entries] using distinct
          · obtain ⟨index, present⟩ := List.mem_iff_getElem?.mp member
            obtain ⟨inner, isAnswered, shape, -⟩ :=
              Completion.getElem?_of_mapM_some entries present
            exact (entryPinned inner (List.mem_of_getElem? isAnswered)).keyed
              (by simp [shape])
        · intro node failure found member
          obtain ⟨fields, entries, rfl⟩ := Option.map_eq_some_iff.mp found
          obtain ⟨index, inner, entry, isAnswered, present, shape, inside⟩ :=
            Completion.exists_of_mem_errors_mapM entries member
          have key := key_of_completeEntry _ _ _ _ _ _ shape
          have answer :
              (shaper.completeEntry concrete type source value path
                inner).value.map Prod.snd = some entry.2 := by
            simp [shape]
          obtain ⟨above, below, null⟩ :=
            (entryPinned inner (List.mem_of_getElem? isAnswered)).nulled answer
              inside
          refine ⟨.key entry.1 :: above, ?_,
            .field (List.mem_of_getElem? present) null⟩
          rw [key]
          simpa [FieldPath.key] using below

/-- Whatever a value is shaped to is pinned. -/
theorem pinned_complete
    (shaper : Shaper)
    (type : TypeRef)
    (value : Json)
    (selection : FieldSelection)
    (source : RecordSource)
    (path : FieldPath) :
    Pinned path (shaper.complete type value selection source path).value
      (shaper.complete type value selection source path).errors :=
  Completion.pins_complete
    (Completion.pins_attempt (fun _ => solid_completeNamed) fun _ =>
      pinned_completeNamed shaper selection source _ _ _)
    value path

end Shaper

end GraphGate
