import GraphGate.Proofs.Response.Completion
import GraphGate.Proofs.SelectionTree

namespace GraphGate

/-!
# Which selections a record answers

Of the selections nested in a field, a record answers those that apply to its
concrete type, and of those that share a response key only the first. Its shape
is the list of their entries, completed one after another.
-/

/--
A selection is meant for the records of a concrete type: it has no type
conditions, or the type is one of them or a possible type of one of them.
-/
def FieldSelection.IsMeantFor
    (selection : FieldSelection)
    (model : Model)
    (concrete : String) : Prop :=
  selection.conditions = [] ∨
    ∃ condition ∈ selection.conditions,
      concrete = condition ∨
        ∃ type ∈ model.possibleTypes condition, type.name = concrete

instance
    (selection : FieldSelection)
    (model : Model)
    (concrete : String) :
    Decidable (selection.IsMeantFor model concrete) :=
  inferInstanceAs (Decidable (_ ∨ _))

namespace Shaper

theorem applies_iff
    {shaper : Shaper}
    {concrete : String}
    {selection : FieldSelection} :
    shaper.applies concrete selection = true ↔
      selection.IsMeantFor shaper.model concrete := by
  simp [applies, FieldSelection.appliesTo, FieldSelection.IsMeantFor,
    Model.isSubtype]

variable
  (shaper : Shaper)
  (concrete declared : String)
  (source : RecordSource)
  (record : Json)
  (path : FieldPath)

/-- The selections that are meant for a concrete type. -/
def applying (nested : List FieldSelection) : List FieldSelection :=
  nested.filter fun selection => selection.IsMeantFor shaper.model concrete

/-- The selection that a record answers under a response key. -/
def answering?
    (nested : List FieldSelection)
    (key : String) : Option FieldSelection :=
  (shaper.applying concrete nested).find? (·.responseKey = key)

/-- The selections that a record answers, if some response keys are taken already. -/
def answered
    (taken : List String) : List FieldSelection → List FieldSelection
  | [] => []
  | selection :: rest =>
      if !shaper.applies concrete selection ∨ selection.responseKey ∈ taken then
        answered taken rest
      else
        selection :: answered (taken ++ [selection.responseKey]) rest

variable {shaper concrete}
variable {taken : List String} {nested : List FieldSelection} {selection : FieldSelection}

theorem mem_applying_iff :
    selection ∈ shaper.applying concrete nested ↔
      selection ∈ nested ∧ selection.IsMeantFor shaper.model concrete := by
  simp [applying]

theorem applying_eq_filter
    (shaper : Shaper)
    (concrete : String)
    (nested : List FieldSelection) :
    shaper.applying concrete nested = nested.filter (shaper.applies concrete) := by
  refine List.filter_congr fun selection _ => ?_
  rw [Bool.eq_iff_iff, decide_eq_true_iff, applies_iff]

/-- An answered selection is the one that answers its response key. -/
theorem answering?_of_mem_answered
    (member : selection ∈ shaper.answered concrete taken nested) :
    selection.responseKey ∉ taken ∧
      shaper.answering? concrete nested selection.responseKey =
        some selection := by
  induction nested generalizing taken with
  | nil =>
      simp [answered] at member
  | cons first rest inductionHypothesis =>
      simp only [answering?, applying_eq_filter] at inductionHypothesis ⊢
      by_cases applies : shaper.applies concrete first = true
      · by_cases isTaken : first.responseKey ∈ taken
        · simp only [answered, isTaken, or_true, if_true] at member
          obtain ⟨free, answers⟩ := inductionHypothesis member
          have different : first.responseKey ≠ selection.responseKey :=
            fun same => free (same ▸ isTaken)
          exact ⟨free, by simpa [applies, different] using answers⟩
        · simp only [answered, applies, isTaken, Bool.not_true,
            Bool.false_eq_true, or_self, if_false, List.mem_cons] at member
          rcases member with isFirst | inRest
          · subst isFirst
            exact ⟨isTaken, by simp [applies]⟩
          · obtain ⟨free, answers⟩ := inductionHypothesis inRest
            simp only [List.mem_append, List.mem_singleton, not_or] at free
            have different : first.responseKey ≠ selection.responseKey :=
              fun same => free.2 same.symm
            exact ⟨free.1, by simpa [applies, different] using answers⟩
      · simp only [answered, applies, Bool.not_false, true_or,
          if_true] at member
        obtain ⟨free, answers⟩ := inductionHypothesis member
        exact ⟨free, by simpa [applies] using answers⟩

/-- What answers a response key is among the selections. -/
theorem mem_of_answering?
    {key : String}
    (answers : shaper.answering? concrete nested key = some selection) :
    selection ∈ nested :=
  (mem_applying_iff.mp (List.mem_of_find?_eq_some answers)).1

/-- The answered keys are those of the applying selections, each once and in order. -/
theorem keys_answered
    (shaper : Shaper)
    (concrete : String)
    (taken : List String)
    (nested : List FieldSelection) :
    (shaper.answered concrete taken nested).map FieldSelection.responseKey =
      (((shaper.applying concrete nested).map
        FieldSelection.responseKey).filter (· ∉ taken)).eraseDups := by
  induction nested generalizing taken with
  | nil =>
      simp [answered, applying]
  | cons first rest inductionHypothesis =>
      simp only [applying_eq_filter] at inductionHypothesis ⊢
      by_cases applies : shaper.applies concrete first = true
      · by_cases isTaken : first.responseKey ∈ taken
        · simp [answered, isTaken, applies, inductionHypothesis]
        · simp only [answered, applies, isTaken, Bool.not_true,
            Bool.false_eq_true, or_self, if_false, List.map_cons,
            List.filter_cons_of_pos, not_false_eq_true, decide_true,
            List.eraseDups_cons, inductionHypothesis, List.filter_filter]
          congr 3
          funext key
          by_cases same : key = first.responseKey
          · simp [same]
          · simp [same]
      · simp [answered, applies, inductionHypothesis]

/-- With distinct response keys, every applying selection is answered. -/
theorem answered_eq_applying
    (distinct : (nested.map FieldSelection.responseKey).Nodup)
    (free : ∀ selection ∈ nested, selection.responseKey ∉ taken) :
    shaper.answered concrete taken nested = shaper.applying concrete nested := by
  induction nested generalizing taken with
  | nil =>
      simp [answered, applying]
  | cons first rest inductionHypothesis =>
      simp only [applying_eq_filter] at inductionHypothesis ⊢
      obtain ⟨fresh, restDistinct⟩ := List.nodup_cons.mp distinct
      obtain ⟨firstFree, restFree⟩ := List.forall_mem_cons.mp free
      by_cases applies : shaper.applies concrete first = true
      · have stillFree :
            ∀ selection ∈ rest,
              selection.responseKey ∉ taken ++ [first.responseKey] := by
          intro selection member
          have other : selection.responseKey ≠ first.responseKey :=
            fun same => fresh (same ▸ List.mem_map_of_mem member)
          simp [restFree selection member, other]
        simp [answered, applies, firstFree,
          inductionHypothesis restDistinct stillFree]
      · simp [answered, applies, inductionHypothesis restDistinct restFree]

variable (shaper concrete)

/-- The entry of one answered selection in the shape of a record. -/
def completeEntry (selection : FieldSelection) :
    Completion (String × ResultNode) :=
  let key := selection.responseKey
  let place := path.key key
  if selection.isTypename then
    pure (key, .scalar (.string concrete))
  else
    match shaper.declaration? concrete declared selection with
    | none => do
        .report
          (.unsupportedSelection ⟨concrete, selection.name, .noSuchField⟩)
          place
        return (key, .null)
    | some field => do
        let node ←
          Completion.complete selection.name
            (shaper.completeNamed selection (fieldSource source field))
            field.type
            (fieldValue source record key field)
            place
        return (key, node)

/-- The entry of an answered selection is appended, then the others follow. -/
theorem completeFields_cons_of_answered
    {selection : FieldSelection}
    {fields : List (String × ResultNode)}
    (applies : shaper.applies concrete selection = true)
    (free : selection.responseKey ∉ Table.keys fields)
    (rest : List FieldSelection) :
    shaper.completeFields concrete declared source record path fields
        (selection :: rest) =
      (shaper.completeEntry concrete declared source record path selection >>=
        fun entry =>
          shaper.completeFields concrete declared source record path
            (fields ++ [entry]) rest) := by
  have absent : Table.has fields selection.responseKey = false := by
    rw [Bool.eq_false_iff, ne_eq, Table.has_iff_mem_keys]
    exact free
  simp only [completeFields, completeEntry, applies, absent]
  by_cases typename : selection.isTypename
  · simp [typename]
  · cases shaper.declaration? concrete declared selection with
    | none =>
        simp [typename]
    | some field =>
        simp [typename]

/-- A selection that does not apply, or whose key is taken, is passed over. -/
theorem completeFields_cons_of_not_answered
    {selection : FieldSelection}
    {fields : List (String × ResultNode)}
    (skipped :
      shaper.applies concrete selection = false ∨
        selection.responseKey ∈ Table.keys fields)
    (rest : List FieldSelection) :
    shaper.completeFields concrete declared source record path fields
        (selection :: rest) =
      shaper.completeFields concrete declared source record path fields
        rest := by
  rw [← Table.has_iff_mem_keys] at skipped
  simp [completeFields, skipped]

/-- An entry stands under the response key of its selection. -/
theorem key_of_completeEntry
    {selection : FieldSelection}
    {entry : String × ResultNode}
    (found :
      (shaper.completeEntry concrete declared source record path
        selection).value = some entry) :
    entry.1 = selection.responseKey := by
  unfold completeEntry at found
  split at found
  · simp at found
    rw [← found]
  · split at found
    · simp at found
      rw [← found.2]
    · simp at found
      obtain ⟨node, -, rfl⟩ := found
      rfl

/-- The shape of a record is made of the entries of the selections that it answers. -/
theorem completeFields_eq
    (fields : List (String × ResultNode))
    (nested : List FieldSelection) :
    shaper.completeFields concrete declared source record path fields nested =
      (fields ++ ·) <$>
        (shaper.answered concrete (Table.keys fields) nested).mapM
          (shaper.completeEntry concrete declared source record path) := by
  induction nested generalizing fields with
  | nil =>
      simp [completeFields, answered]
  | cons selection rest inductionHypothesis =>
      by_cases skipped :
          shaper.applies concrete selection = false ∨
            selection.responseKey ∈ Table.keys fields
      · simp [completeFields_cons_of_not_answered _ _ _ _ _ _ skipped,
          inductionHypothesis, answered, skipped]
      · obtain ⟨applies, free⟩ := not_or.mp skipped
        rw [Bool.not_eq_false] at applies
        rw [completeFields_cons_of_answered _ _ _ _ _ _ applies free]
        simp only [answered, applies, free, Bool.not_true, Bool.false_eq_true,
          or_self, if_false, List.mapM_cons, map_bind]
        cases found :
            (shaper.completeEntry concrete declared source record path
              selection).value with
        | none =>
            rw [Completion.bind_of_none found, Completion.bind_of_none found]
        | some entry =>
            have key := key_of_completeEntry _ _ _ _ _ _ found
            rw [Completion.bind_of_some found, Completion.bind_of_some found,
              inductionHypothesis]
            simp [Table.keys, key]

/-- A value of a named type: a scalar as it is, an object by the entries of its concrete type. -/
theorem completeNamed_eq
    (selection : FieldSelection)
    (type : String)
    (value : Json) :
    shaper.completeNamed selection source type value path =
      if shaper.model.isLeaf type then
        pure (.scalar value)
      else if !value.isObject then
        .fail (.invalidValue selection.name .object value) path
      else
        match shaper.registry.concreteType type (typeRecord source value) with
        | .error cause => .fail (.unresolvedType cause) path
        | .ok concrete =>
            .object concrete <$>
              (shaper.answered concrete [] selection.nested).mapM
                (shaper.completeEntry concrete type source value path) := by
  have entries (concrete : String) :=
    shaper.completeFields_eq concrete type source value path []
      selection.nested
  cases selection
  simp only [completeNamed, Completion.pure_eq, entries, List.nil_append,
    id_map', bind_pure_comp]
  rfl

/--
A value of a named type is a scalar, is reported and given up, or is an object
with the entries of the selections that it answers.
-/
theorem completeNamed_outcome
    (selection : FieldSelection)
    (type : String)
    (value : Json) :
    (shaper.model.isLeaf type = true ∧
        shaper.completeNamed selection source type value path =
          pure (.scalar value)) ∨
      (shaper.model.isLeaf type = false ∧
        ∃ cause,
          shaper.completeNamed selection source type value path =
            .fail cause path) ∨
      (shaper.model.isLeaf type = false ∧
        ∃ concrete,
          shaper.registry.concreteType type (typeRecord source value) =
              .ok concrete ∧
            shaper.completeNamed selection source type value path =
              .object concrete <$>
                (shaper.answered concrete [] selection.nested).mapM
                  (shaper.completeEntry concrete type source value path)) := by
  rw [completeNamed_eq]
  cases leaf : shaper.model.isLeaf type with
  | true =>
      simp
  | false =>
      cases object : value.isObject with
      | false =>
          exact .inr (.inl
            ⟨rfl, .invalidValue selection.name .object value, by simp⟩)
      | true =>
          cases shaper.registry.concreteType type (typeRecord source value) with
          | error cause =>
              exact .inr (.inl ⟨rfl, .unresolvedType cause, by simp⟩)
          | ok concrete =>
              exact .inr (.inr ⟨rfl, concrete, rfl, by simp⟩)

/--
The entry of a selection is the name of the concrete type, is a reported null
for an undeclared field, or is shaped after the declaration of the field.
-/
theorem completeEntry_outcome (selection : FieldSelection) :
    (selection.isTypename = true ∧
        shaper.completeEntry concrete declared source record path selection =
          pure (selection.responseKey, .scalar (.string concrete))) ∨
      (selection.isTypename = false ∧
        shaper.declaration? concrete declared selection = none ∧
        ∃ cause,
          shaper.completeEntry concrete declared source record path selection =
            ⟨some (selection.responseKey, .null),
              [⟨cause, path.key selection.responseKey⟩]⟩) ∨
      (selection.isTypename = false ∧
        ∃ field,
          shaper.declaration? concrete declared selection = some field ∧
            shaper.completeEntry concrete declared source record path
                selection =
              (selection.responseKey, ·) <$>
                Completion.complete selection.name
                  (shaper.completeNamed selection (fieldSource source field))
                  field.type
                  (fieldValue source record selection.responseKey field)
                  (path.key selection.responseKey)) := by
  unfold completeEntry
  cases typename : selection.isTypename with
  | true =>
      simp
  | false =>
      cases found : shaper.declaration? concrete declared selection with
      | none =>
          refine .inr (.inl ⟨rfl, rfl, _, rfl⟩)
      | some field =>
          refine .inr (.inr ⟨rfl, field, rfl, ?_⟩)
          simp

variable {shaper concrete declared source record path}
variable {fields : List (String × ResultNode)}

/-- The entries of a record stand under the keys of the selections that apply. -/
theorem keys_of_entries
    {nested : List FieldSelection}
    (entries :
      ((shaper.answered concrete [] nested).mapM
        (shaper.completeEntry concrete declared source record path)).value =
          some fields) :
    Table.keys fields =
      ((shaper.applying concrete nested).map
        FieldSelection.responseKey).eraseDups := by
  have sameKeys :
      Table.keys fields =
        (shaper.answered concrete [] nested).map FieldSelection.responseKey := by
    have related :
        List.Forall₂ (fun selection entry => entry.1 = selection.responseKey)
          (shaper.answered concrete [] nested) fields :=
      (Completion.forall₂_of_mapM_some entries).imp
        fun _ _ entry => key_of_completeEntry _ _ _ _ _ _ entry.1
    clear entries
    generalize shaper.answered concrete [] nested = answered at related ⊢
    induction related with
    | nil =>
        rfl
    | cons key _ inductionHypothesis =>
        simp only [Table.keys] at inductionHypothesis
        simp [Table.keys, key, inductionHypothesis]
  rw [sameKeys, keys_answered]
  simp

/-- An entry of a record is the shape of the selection that answers its key. -/
theorem entry_of_entries
    {nested : List FieldSelection}
    (entries :
      ((shaper.answered concrete [] nested).mapM
        (shaper.completeEntry concrete declared source record path)).value =
          some fields)
    {entry : String × ResultNode}
    (member : entry ∈ fields) :
    ∃ selection ∈ nested,
      shaper.answering? concrete nested entry.1 = some selection ∧
        (shaper.completeEntry concrete declared source record path
          selection).value = some entry ∧
        (shaper.completeEntry concrete declared source record path
          selection).errors ⊆
          ((shaper.answered concrete [] nested).mapM
            (shaper.completeEntry concrete declared source record
              path)).errors := by
  obtain ⟨index, present⟩ := List.mem_iff_getElem?.mp member
  obtain ⟨selection, isAnswered, found, kept⟩ :=
    Completion.getElem?_of_mapM_some entries present
  obtain ⟨-, answers⟩ :=
    answering?_of_mem_answered (List.mem_of_getElem? isAnswered)
  rw [← key_of_completeEntry _ _ _ _ _ _ found] at answers
  exact ⟨selection, mem_of_answering? answers, answers, found, kept⟩

end Shaper

end GraphGate
