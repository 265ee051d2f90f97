import GraphGate.Proofs.Request.Occurrences

namespace GraphGate

/-!
# Spreads that cannot be followed

A selection set is walked in document order, parts that are left out apart, and
every spread on the way is followed into its fragment, unless the fragment is
not defined or is being expanded already. Every walk comes to an end. Expansion
fails exactly if the walk meets such a spread, and the first one says why.
-/

namespace Success

variable {ε α β : Type}

/-- Why a step fails, if it does. -/
def cause? : Except ε α → Option ε
  | .ok _ => none
  | .error cause => some cause

theorem cause?_eq_some_iff
    {result : Except ε α}
    {cause : ε} :
    cause? result = some cause ↔ result = .error cause := by
  cases result <;> simp [cause?]

theorem cause?_eq_none_iff {result : Except ε α} :
    cause? result = none ↔ ∃ value, result = .ok value := by
  cases result <;> simp [cause?]

/-- Of two steps the first one that fails says why, if the second one fails alike on every value. -/
theorem cause?_bind
    {first : Except ε α}
    {next : α → Except ε β}
    {later : Option ε}
    (onward : ∀ value, cause? (next value) = later) :
    cause? (first >>= next) = (cause? first).or later := by
  cases first with
  | error cause =>
      rfl
  | ok value =>
      exact onward value

theorem cause?_bind_pure
    (first : Except ε α)
    (change : α → β) :
    cause? (first >>= fun value => pure (change value)) = cause? first := by
  cases first <;> rfl

end Success

namespace FragmentTable

/-- Taking out a fragment leaves the others as they are. -/
theorem find?_without
    (table : FragmentTable)
    (name other : String) :
    (table.without name).find? other =
      if other = name then none else table.find? other := by
  rw [find?, without, List.find?_filter]
  split
  · rename_i same
    refine List.find?_eq_none.mpr fun fragment _ => ?_
    simp [same]
  · rename_i different
    refine congrArg (table.fragments.find? ·) (funext fun fragment => ?_)
    by_cases isOther : fragment.name = other
    · simp [isOther, different]
    · simp [isOther]

/-- Of the definitions of one name the last one counts. -/
theorem find?_ofDefinitions
    (definitions : List GraphQL.FragmentDefinition)
    (name : String) :
    (ofDefinitions definitions).find? name =
      definitions.reverse.find? (·.name = name) := by
  suffices general :
      ∀ table : FragmentTable,
        (definitions.foldl
            (fun table definition =>
              (⟨definition :: (table.without definition.name).fragments⟩ :
                FragmentTable))
            table).find? name =
          (definitions.reverse.find? (·.name = name)).or (table.find? name) by
    have none : (⟨[]⟩ : FragmentTable).find? name = Option.none := rfl
    rw [ofDefinitions, general, none, Option.or_none]
  induction definitions with
  | nil =>
      intro table
      rfl
  | cons definition rest inductionHypothesis =>
      intro table
      have added :
          (⟨definition :: (table.without definition.name).fragments⟩ :
              FragmentTable).find? name =
            if definition.name = name then
              some definition
            else
              table.find? name := by
        have others := find?_without table definition.name name
        simp only [find?] at others ⊢
        rw [List.find?_cons]
        by_cases isName : definition.name = name
        · simp [isName]
        · simp [isName, others, Ne.symm isName]
      rw [List.foldl_cons, inductionHypothesis, added, List.reverse_cons,
        List.find?_append, Option.or_assoc]
      by_cases isName : definition.name = name
      · simp [isName]
      · simp [isName]

end FragmentTable

namespace Expansion

variable {available : FragmentTable} {directives : List GraphQL.Directive}
variable {name : String}

/-! What a part that is not skipped expands to. -/

theorem expand_field
    (expansion : Expansion)
    (condition label : Option String)
    (name : String)
    (arguments : GraphQL.Arguments)
    (nested rest : List GraphQL.Selection)
    (included : ¬ GraphQL.IsLeftOut expansion.bindings directives) :
    expansion.expand available condition
        (.field label name arguments directives nested :: rest) = do
      let nested ← expansion.expand available none nested
      let others ← expansion.expand available condition rest
      return selectionUnder condition name label
        (GraphQL.argumentsToJson expansion.bindings arguments) nested ::
          others :=
  (expand.eq_def ..).trans (if_pos (GraphQL.isIncluded_iff.mpr included))

theorem expand_inlineFragment
    (expansion : Expansion)
    (condition inner : Option String)
    (nested rest : List GraphQL.Selection)
    (included : ¬ GraphQL.IsLeftOut expansion.bindings directives) :
    expansion.expand available condition
        (.inlineFragment inner directives nested :: rest) = do
      let expanded ← expansion.expand available (inner.or condition) nested
      let others ← expansion.expand available condition rest
      return expanded ++ others :=
  (expand.eq_def ..).trans (if_pos (GraphQL.isIncluded_iff.mpr included))

theorem expand_spread_of_found
    (expansion : Expansion)
    (condition : Option String)
    (rest : List GraphQL.Selection)
    (included : ¬ GraphQL.IsLeftOut expansion.bindings directives)
    {fragment : GraphQL.FragmentDefinition}
    (found : available.find? name = some fragment) :
    expansion.expand available condition (.spread name directives :: rest) = do
      let expanded ←
        expansion.expand (available.without name) (some fragment.condition)
          fragment.selections
      let others ← expansion.expand available condition rest
      return expanded ++ others := by
  rw [expand, if_pos (GraphQL.isIncluded_iff.mpr included)]
  split
  · rename_i other isFound
    cases found.symm.trans isFound
    rfl
  · rename_i missing
    cases found.symm.trans missing

theorem expand_spread_of_missing
    (expansion : Expansion)
    (condition : Option String)
    (rest : List GraphQL.Selection)
    (included : ¬ GraphQL.IsLeftOut expansion.bindings directives)
    (missing : available.find? name = none) :
    expansion.expand available condition (.spread name directives :: rest) =
      .error (if (expansion.fragments.find? name).isSome then
        .fragmentCycle name
      else
        .unknownFragment name) := by
  rw [expand, if_pos (GraphQL.isIncluded_iff.mpr included)]
  split
  · rename_i fragment isFound
    cases missing.symm.trans isFound
  · split <;> rfl

end Expansion

namespace GraphQL

/-- A spread that is met on a walk, with the fragments that are being expanded there. -/
structure MetSpread where
  name : String
  expanding : List String
deriving Repr, DecidableEq

namespace QueryDocument

/-- The definition of a fragment: the last one of its name. -/
def fragment? (document : QueryDocument) (name : String) :
    Option FragmentDefinition :=
  document.fragments.reverse.find? (·.name = name)

/-- Why a spread cannot be followed, if it cannot. -/
def fault? (document : QueryDocument) (spread : MetSpread) :
    Option RequestError :=
  if (document.fragment? spread.name).isNone then
    some (.unknownFragment spread.name)
  else if spread.name ∈ spread.expanding then
    some (.fragmentCycle spread.name)
  else
    none

/--
A walk over a selection set in document order, inside some fragments that are
being expanded, and the spreads that it meets. What is skipped is left out. A
spread that cannot be followed is passed over.
-/
inductive Walks (document : QueryDocument) (bindings : Table Json) :
    List String → List Selection → List MetSpread → Prop where
  | nil {expanding : List String} :
      Walks document bindings expanding [] []
  | skipped
      {expanding : List String}
      {selection : Selection}
      {rest : List Selection}
      {others : List MetSpread} :
      IsLeftOut bindings selection.directives →
      Walks document bindings expanding rest others →
      Walks document bindings expanding (selection :: rest) others
  | field
      {expanding : List String}
      {label : Option String}
      {name : String}
      {arguments : Arguments}
      {directives : List Directive}
      {nested rest : List Selection}
      {inner others : List MetSpread} :
      ¬ IsLeftOut bindings directives →
      Walks document bindings expanding nested inner →
      Walks document bindings expanding rest others →
      Walks document bindings expanding
        (.field label name arguments directives nested :: rest)
        (inner ++ others)
  | inlineFragment
      {expanding : List String}
      {condition : Option String}
      {directives : List Directive}
      {nested rest : List Selection}
      {inner others : List MetSpread} :
      ¬ IsLeftOut bindings directives →
      Walks document bindings expanding nested inner →
      Walks document bindings expanding rest others →
      Walks document bindings expanding
        (.inlineFragment condition directives nested :: rest)
        (inner ++ others)
  | followed
      {expanding : List String}
      {name : String}
      {directives : List Directive}
      {fragment : FragmentDefinition}
      {rest : List Selection}
      {inner others : List MetSpread} :
      ¬ IsLeftOut bindings directives →
      document.fragment? name = some fragment →
      name ∉ expanding →
      Walks document bindings (name :: expanding) fragment.selections inner →
      Walks document bindings expanding rest others →
      Walks document bindings expanding (.spread name directives :: rest)
        (⟨name, expanding⟩ :: (inner ++ others))
  | passedOver
      {expanding : List String}
      {name : String}
      {directives : List Directive}
      {rest : List Selection}
      {others : List MetSpread} :
      ¬ IsLeftOut bindings directives →
      (document.fault? ⟨name, expanding⟩).isSome = true →
      Walks document bindings expanding rest others →
      Walks document bindings expanding (.spread name directives :: rest)
        (⟨name, expanding⟩ :: others)

variable {document : QueryDocument} {bindings : Table Json}
variable {expanding : List String} {selections : List Selection}
variable {met : List MetSpread} {available : FragmentTable}

/-- What the expansion of a selection set of a document depends on. -/
def expansion (document : QueryDocument) (bindings : Table Json) :
    Expansion where
  fragments := .ofDefinitions document.fragments
  bindings := bindings

/-- The fragments that are available: those that are not being expanded. -/
def LeavesOut
    (document : QueryDocument)
    (available : FragmentTable)
    (expanding : List String) : Prop :=
  ∀ name,
    available.find? name =
      if name ∈ expanding then none else document.fragment? name

theorem leavesOut_nil (document : QueryDocument) :
    document.LeavesOut (.ofDefinitions document.fragments) [] := by
  intro name
  simp [FragmentTable.find?_ofDefinitions, fragment?]

/-- While a fragment is being expanded it is not available. -/
theorem LeavesOut.without
    (leavesOut : document.LeavesOut available expanding)
    (name : String) :
    document.LeavesOut (available.without name) (name :: expanding) := by
  intro other
  rw [FragmentTable.find?_without, leavesOut other]
  by_cases same : other = name
  · simp [same]
  · simp [same]

/-- A spread of an available fragment can be followed. -/
theorem LeavesOut.of_find?_eq_some
    {name : String}
    {fragment : FragmentDefinition}
    (leavesOut : document.LeavesOut available expanding)
    (found : available.find? name = some fragment) :
    document.fragment? name = some fragment ∧ name ∉ expanding := by
  rw [leavesOut name] at found
  by_cases isExpanding : name ∈ expanding
  · simp [isExpanding] at found
  · simpa [isExpanding] using found

/-- A spread of a fragment that is not available cannot be followed. -/
theorem LeavesOut.fault?_of_find?_eq_none
    {name : String}
    (leavesOut : document.LeavesOut available expanding)
    (missing : available.find? name = none) :
    document.fault? ⟨name, expanding⟩ =
      some (if (document.fragment? name).isSome then
        .fragmentCycle name
      else
        .unknownFragment name) := by
  rw [leavesOut name] at missing
  unfold fault?
  cases defined : document.fragment? name with
  | none =>
      simp
  | some fragment =>
      by_cases isExpanding : name ∈ expanding
      · simp [isExpanding]
      · simp [isExpanding, defined] at missing

/-- Every walk comes to an end: each spread that is followed leaves one fragment fewer. -/
theorem exists_walks
    {document : QueryDocument}
    (bindings : Table Json)
    {available : FragmentTable}
    {expanding : List String}
    (leavesOut : document.LeavesOut available expanding)
    (selections : List Selection) :
    ∃ met, document.Walks bindings expanding selections met :=
  match selections with
  | [] => ⟨[], .nil⟩
  | selection :: rest => by
      obtain ⟨others, walksOthers⟩ :=
        exists_walks bindings leavesOut rest
      by_cases included : IsLeftOut bindings selection.directives
      · exact ⟨others, .skipped included walksOthers⟩
      · cases selection with
          | field label name arguments directives nested =>
              obtain ⟨inner, walksInner⟩ :=
                exists_walks bindings leavesOut nested
              exact ⟨_, .field included walksInner walksOthers⟩
          | inlineFragment condition directives nested =>
              obtain ⟨inner, walksInner⟩ :=
                exists_walks bindings leavesOut nested
              exact ⟨_, .inlineFragment included walksInner walksOthers⟩
          | spread name directives =>
              cases found : available.find? name with
              | none =>
                  have fault := leavesOut.fault?_of_find?_eq_none found
                  exact ⟨_, .passedOver included (by simp [fault])
                    walksOthers⟩
              | some fragment =>
                  have fewer := FragmentTable.length_without_lt found
                  obtain ⟨isDefined, isFree⟩ :=
                    leavesOut.of_find?_eq_some found
                  obtain ⟨inner, walksInner⟩ :=
                    exists_walks bindings (leavesOut.without name)
                      fragment.selections
                  exact ⟨_, .followed included isDefined isFree walksInner
                    walksOthers⟩
termination_by (available.fragments.length, sizeOf selections)
decreasing_by
  · exact Prod.Lex.right _ (Expansion.sizeOf_rest_lt _ _)
  · exact Prod.Lex.right _ (Expansion.sizeOf_field_nested_lt _ _ _ _ _ _)
  · exact Prod.Lex.right _ (Expansion.sizeOf_inlineFragment_nested_lt _ _ _ _)
  · exact Prod.Lex.left _ _ fewer

/-- Expansion fails exactly if a walk meets a spread it cannot follow; the first one says why. -/
theorem Walks.cause?_expand
    (walks : document.Walks bindings expanding selections met)
    (leavesOut : document.LeavesOut available expanding)
    (condition : Option String) :
    Success.cause?
        ((document.expansion bindings).expand available condition selections) =
      met.findSome? document.fault? := by
  induction walks generalizing available condition with
  | nil =>
      rw [Expansion.expand]
      rfl
  | skipped skipped _ others =>
      rw [Expansion.expand_skipped _ _ skipped]
      exact others leavesOut condition
  | field included _ _ inside others =>
      rw [Expansion.expand_field _ _ _ _ _ _ _ included,
        List.findSome?_append, ← inside leavesOut none,
        ← others leavesOut condition]
      refine Success.cause?_bind fun nested => ?_
      exact Success.cause?_bind_pure _ _
  | @inlineFragment _ inner _ _ _ _ _ included _ _ inside others =>
      rw [Expansion.expand_inlineFragment _ _ _ _ _ included,
        List.findSome?_append, ← inside leavesOut (inner.or condition),
        ← others leavesOut condition]
      refine Success.cause?_bind fun expanded => ?_
      exact Success.cause?_bind_pure _ _
  | @followed expanding name _ fragment _ _ _ included isDefined isFree _ _
      inside others =>
      have noFault : document.fault? ⟨name, expanding⟩ = none := by
        simp [fault?, isDefined, isFree]
      have found : available.find? name = some fragment := by
        simp [leavesOut name, isFree, isDefined]
      rw [Expansion.expand_spread_of_found _ _ _ included found,
        List.findSome?_cons, noFault, List.findSome?_append,
        ← inside (leavesOut.without name) (some fragment.condition),
        ← others leavesOut condition]
      refine Success.cause?_bind fun expanded => ?_
      exact Success.cause?_bind_pure _ _
  | @passedOver expanding name _ _ _ included faulty _ _ =>
      have missing : available.find? name = none := by
        cases found : available.find? name with
        | none =>
            rfl
        | some fragment =>
            obtain ⟨isDefined, isFree⟩ := leavesOut.of_find?_eq_some found
            simp [fault?, isDefined, isFree] at faulty
      have defined :
          (document.expansion bindings).fragments.find? name =
            document.fragment? name :=
        FragmentTable.find?_ofDefinitions _ _
      rw [Expansion.expand_spread_of_missing _ _ _ included missing,
        List.findSome?_cons, leavesOut.fault?_of_find?_eq_none missing, defined]
      rfl

end QueryDocument

end GraphQL

end GraphGate
