import GraphGate.Aql.Fragment
import GraphGate.GraphQL.Token

namespace GraphGate

/-!
# Names of variables

Every key of a path stands behind an underscore, and an underscore inside a key
becomes `_0`. A key does not start with a digit, so an underscore with a zero
behind it belongs to a key and any other one starts the next key. The keys can
therefore be read off the name of a variable, and different paths have
different variables.

Keys that are no names do not always stay apart, but a variable is a word of
letters, digits and underscores whatever its path is.
-/

/-- A letter or an underscore, and then letters, digits and underscores. -/
def GraphQL.IsName (name : String) : Prop :=
  ∃ first rest,
    name.toList = first :: rest ∧
      isNameStart first = true ∧
      ∀ c ∈ rest, isNamePart c = true

namespace GraphQL

instance (name : String) : Decidable (IsName name) :=
  match shape : name.toList with
  | [] => isFalse fun ⟨_, _, isCons, _⟩ => nomatch shape.symm.trans isCons
  | first :: rest =>
      decidable_of_iff
        (isNameStart first = true ∧ rest.all isNamePart = true)
        ⟨fun ⟨start, parts⟩ =>
            ⟨first, rest, shape, start, List.all_eq_true.mp parts⟩,
          fun ⟨_, _, isCons, start, parts⟩ => by
            cases shape.symm.trans isCons
            exact ⟨start, List.all_eq_true.mpr parts⟩⟩

theorem isNamePart_of_isNameStart
    {c : Char}
    (start : isNameStart c = true) :
    isNamePart c = true := by
  simp only [isNameStart, isNamePart, Bool.or_eq_true, decide_eq_true_eq,
    Char.isAlphanum] at start ⊢
  exact start.imp_right .inl

theorem IsName.isNamePart_of_mem
    {name : String}
    (isName : IsName name)
    {c : Char}
    (member : c ∈ name.toList) :
    isNamePart c = true := by
  obtain ⟨first, rest, shape, start, parts⟩ := isName
  rw [shape] at member
  rcases List.mem_cons.mp member with isFirst | inRest
  · exact isFirst ▸ isNamePart_of_isNameStart start
  · exact parts c inRest

end GraphQL

open GraphQL

/-- Letters, digits and underscores. -/
def IsWord (text : List Char) : Prop :=
  ∀ c ∈ text, isNamePart c = true

instance (text : List Char) : Decidable (IsWord text) :=
  decidable_of_iff (text.all isNamePart = true) List.all_eq_true

theorem toList_escapeName (name : String) :
    (escapeName name).toList = name.toList.flatMap escapeNameChar := by
  simp [escapeName]

theorem escapeNameChar_of_isAlphanum
    {c : Char}
    (alphanumeric : c.isAlphanum = true) :
    escapeNameChar c = [c] := by
  simp [escapeNameChar, alphanumeric]

theorem escapeNameChar_underscore : escapeNameChar '_' = ['_', '0'] := by
  decide

theorem isAlphanum_or_underscore
    {c : Char}
    (part : isNamePart c = true) :
    c.isAlphanum = true ∨ c = '_' := by
  simp only [isNamePart, Bool.or_eq_true, decide_eq_true_eq] at part
  exact part.symm

theorem underscore_ne_of_isAlphanum
    {c : Char}
    (alphanumeric : c.isAlphanum = true) :
    c ≠ '_' := by
  rintro rfl
  revert alphanumeric
  decide

/-- Keys as they stand in a variable name. -/
def joinedKeys (keys : List String) : List Char :=
  keys.flatMap fun key => '_' :: (escapeName key).toList

theorem joinedKeys_cons (key : String) (rest : List String) :
    joinedKeys (key :: rest) =
      '_' :: ((escapeName key).toList ++ joinedKeys rest) :=
  rfl

theorem joinedKeys_append (first second : List String) :
    joinedKeys (first ++ second) = joinedKeys first ++ joinedKeys second :=
  List.flatMap_append

theorem toList_intercalate_escapeName (key : String) (rest : List String) :
    ("_".intercalate ((key :: rest).map escapeName)).toList =
      (escapeName key).toList ++ joinedKeys rest := by
  induction rest generalizing key with
  | nil =>
      simp [joinedKeys]
  | cons second rest inductionHypothesis =>
      rw [List.map_cons, List.map_cons, String.intercalate_cons_cons,
        String.toList_append, String.toList_append, ← List.map_cons,
        inductionHypothesis, joinedKeys_cons]
      simp

theorem toList_variableName
    {keys : List String}
    (present : keys ≠ []) :
    (variableName keys).toList = 'v' :: joinedKeys keys := by
  cases keys with
  | nil =>
      exact absurd rfl present
  | cons key rest =>
      rw [variableName, String.toList_append, toList_intercalate_escapeName]
      rfl

namespace IsWord

theorem escapeName (name : String) : IsWord (escapeName name).toList := by
  intro c member
  rw [toList_escapeName] at member
  obtain ⟨original, -, among⟩ := List.mem_flatMap.mp member
  unfold escapeNameChar at among
  split at among
  · rename_i alphanumeric
    cases List.mem_singleton.mp among
    simp [isNamePart, alphanumeric]
  · have escapes : IsWord ['_', '0'] := by
      decide
    exact escapes c among

theorem variableName (keys : List String) :
    IsWord (variableName keys).toList := by
  cases keys with
  | nil =>
      decide
  | cons first rest =>
      rw [toList_variableName (List.cons_ne_nil first rest)]
      refine List.forall_mem_cons.mpr ⟨by decide, ?_⟩
      intro c member
      obtain ⟨key, -, among⟩ := List.mem_flatMap.mp member
      rcases List.mem_cons.mp among with isUnderscore | inKey
      · subst isUnderscore
        decide
      · exact escapeName key c inKey

end IsWord

/-- Where a key inside a variable name ends: at the end, or where another key starts. -/
def EndsKey (text : List Char) : Prop :=
  text = [] ∨ ∃ c rest, text = '_' :: c :: rest ∧ c ≠ '0'

theorem ne_zero_of_isAlpha
    {c : Char}
    (letter : c.isAlpha = true) :
    c ≠ '0' := by
  rintro rfl
  revert letter
  decide

theorem endsKey_joinedKeys
    {keys : List String}
    (named : ∀ key ∈ keys, IsName key) :
    EndsKey (joinedKeys keys) := by
  cases keys with
  | nil =>
      exact .inl rfl
  | cons key rest =>
      obtain ⟨first, others, shape, start, -⟩ := named key List.mem_cons_self
      refine .inr ?_
      rw [joinedKeys_cons, toList_escapeName, shape, List.flatMap_cons]
      simp only [isNameStart, Bool.or_eq_true, decide_eq_true_eq] at start
      rcases start with isUnderscore | letter
      · subst isUnderscore
        rw [escapeNameChar_underscore]
        exact ⟨_, _, rfl, by decide⟩
      · have alphanumeric : first.isAlphanum = true := by
          simp [Char.isAlphanum, letter]
        rw [escapeNameChar_of_isAlphanum alphanumeric]
        exact ⟨_, _, rfl, ne_zero_of_isAlpha letter⟩

/--
The keys in a text, split at every underscore without a zero behind it. With a
zero it stands for an underscore of the key itself.
-/
def readKeys : List Char → List (List Char)
  | [] => [[]]
  | '_' :: '0' :: rest => (readKeys rest).modifyHead ('_' :: ·)
  | '_' :: rest => [] :: readKeys rest
  | c :: rest => (readKeys rest).modifyHead (c :: ·)

theorem readKeys_underscore
    {text : List Char}
    (starts : EndsKey ('_' :: text)) :
    readKeys ('_' :: text) = [] :: readKeys text := by
  rcases starts with impossible | ⟨c, rest, shape, notZero⟩
  · cases impossible
  · cases shape
    simp [readKeys, notZero]

theorem readKeys_cons_of_ne
    {c : Char}
    (noUnderscore : c ≠ '_')
    (text : List Char) :
    readKeys (c :: text) = (readKeys text).modifyHead (c :: ·) := by
  simp [readKeys, noUnderscore]

theorem readKeys_escapeNameChar_append
    {c : Char}
    (part : isNamePart c = true)
    (text : List Char) :
    readKeys (escapeNameChar c ++ text) =
      (readKeys text).modifyHead (c :: ·) := by
  rcases isAlphanum_or_underscore part with alphanumeric | isUnderscore
  · rw [escapeNameChar_of_isAlphanum alphanumeric]
    exact readKeys_cons_of_ne (underscore_ne_of_isAlphanum alphanumeric) text
  · subst isUnderscore
    rw [escapeNameChar_underscore]
    rfl

/-- A key is read off the front of what it was escaped to. -/
theorem readKeys_escaped_append
    {key : List Char}
    (parts : ∀ c ∈ key, isNamePart c = true)
    (text : List Char) :
    readKeys (key.flatMap escapeNameChar ++ text) =
      (readKeys text).modifyHead (key ++ ·) := by
  induction key with
  | nil =>
      exact (congrFun List.modifyHead_id (readKeys text)).symm
  | cons c rest inductionHypothesis =>
      obtain ⟨part, restParts⟩ := List.forall_mem_cons.mp parts
      rw [List.flatMap_cons, List.append_assoc,
        readKeys_escapeNameChar_append part, inductionHypothesis restParts,
        List.modifyHead_modifyHead]
      rfl

/-- The keys of a path are read back from where they are joined. -/
theorem readKeys_joinedKeys
    {keys : List String}
    (named : ∀ key ∈ keys, IsName key) :
    readKeys (joinedKeys keys) = [] :: keys.map String.toList := by
  induction keys with
  | nil =>
      rfl
  | cons key rest inductionHypothesis =>
      obtain ⟨keyNamed, restNamed⟩ := List.forall_mem_cons.mp named
      -- No name starts with a zero, so the first underscore is read by itself.
      have starts := endsKey_joinedKeys named
      rw [joinedKeys_cons] at starts ⊢
      rw [readKeys_underscore starts, toList_escapeName,
        readKeys_escaped_append fun c => keyNamed.isNamePart_of_mem,
        inductionHypothesis restNamed, List.modifyHead_cons, List.append_nil,
        List.map_cons]

/-- Joined names can be read in one way only. -/
theorem joinedKeys_injective
    {first second : List String}
    (named : ∀ key ∈ first, IsName key)
    (otherNamed : ∀ key ∈ second, IsName key)
    (same : joinedKeys first = joinedKeys second) :
    first = second := by
  have sameKeys := congrArg readKeys same
  rw [readKeys_joinedKeys named, readKeys_joinedKeys otherNamed,
    List.cons.injEq] at sameKeys
  exact (List.map_inj_right fun _ _ => String.toList_inj.mp).mp sameKeys.2

theorem readKeys_variableName
    {keys : List String}
    (present : keys ≠ [])
    (named : ∀ key ∈ keys, IsName key) :
    readKeys (variableName keys).toList = ['v'] :: keys.map String.toList := by
  rw [toList_variableName present, readKeys_cons_of_ne (by decide),
    readKeys_joinedKeys named, List.modifyHead_cons]

/-- A path with a name in it does not have the variable of the empty path. -/
theorem variableName_ne_variableName_nil
    {keys : List String}
    (present : keys ≠ [])
    (named : ∀ key ∈ keys, IsName key) :
    variableName keys ≠ variableName [] := by
  intro same
  have sameKeys := congrArg (fun loop => readKeys loop.toList) same
  have ofNone : readKeys (variableName []).toList = [['v'], []] := by
    decide
  simp only [readKeys_variableName present named, ofNone, List.cons.injEq,
    true_and] at sameKeys
  obtain ⟨key, rfl, isEmpty⟩ := List.map_eq_singleton_iff.mp sameKeys
  obtain ⟨first, rest, shape, -⟩ := named key List.mem_cons_self
  cases isEmpty.symm.trans shape

/-- Paths of names have the same variable only if they are the same. -/
theorem variableName_injective
    {first second : List String}
    (named : ∀ key ∈ first, IsName key)
    (otherNamed : ∀ key ∈ second, IsName key)
    (same : variableName first = variableName second) :
    first = second := by
  cases first with
  | nil =>
      cases second with
      | nil =>
          rfl
      | cons key rest =>
          exact absurd same.symm
            (variableName_ne_variableName_nil (List.cons_ne_nil key rest)
              otherNamed)
  | cons key rest =>
      have present := List.cons_ne_nil key rest
      have otherPresent : second ≠ [] := by
        rintro rfl
        exact variableName_ne_variableName_nil present named same
      have sameText := congrArg String.toList same
      rw [toList_variableName present, toList_variableName otherPresent,
        List.cons.injEq] at sameText
      exact joinedKeys_injective named otherNamed sameText.2

/--
Paths of names have different variables if they are different, and whatever a
path is made of, its variable has letters, digits and underscores only.
-/
theorem variables_tell_paths_apart :
    (∀ path other : List String,
        (∀ key ∈ path, IsName key) →
        (∀ key ∈ other, IsName key) →
          (variableName path = variableName other ↔ path = other)) ∧
      ∀ keys : List String, ∀ c ∈ (variableName keys).toList,
        c.isAlphanum = true ∨ c = '_' := by
  constructor
  · intro path other named otherNamed
    constructor
    · exact variableName_injective named otherNamed
    · exact congrArg variableName
  · intro keys c member
    exact isAlphanum_or_underscore (IsWord.variableName keys c member)

/-- Underscores at the ends of keys, and keys of underscores only, do not meet. -/
theorem underscores_kept_apart :
    (∀ key ∈ ["x_y", "_", "__"], IsName key) ∧
      (∀ key ∈ ["x", "y_", "___"], IsName key) ∧
      variableName ["x_y", "_", "__"] ≠ variableName ["x", "y_", "___"] := by
  have named : ∀ key ∈ ["x_y", "_", "__"], IsName key := by
    decide
  have otherNamed : ∀ key ∈ ["x", "y_", "___"], IsName key := by
    decide
  have apart := variables_tell_paths_apart.1 _ _ named otherNamed
  exact ⟨named, otherNamed, fun same => absurd (apart.mp same) (by decide)⟩

/-- A digit in front of a key is read as one behind an underscore. -/
example : variableName ["x", "0y"] = variableName ["x_y"] := by
  decide

end GraphGate
