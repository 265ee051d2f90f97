namespace GraphGate

/-!
# Insertion-ordered tables

A table is a list of keys with their values, in the order the keys first
arrived. Writing a key that is present replaces its value in its place, and
writing a new key appends it. Responses, bind variables and metadata are shown
in this order, so the order belongs to the data.
-/

/-- Keys with their values, in the order the keys first arrived. -/
abbrev Table (α : Type) := List (String × α)

namespace Table

variable {α : Type}

/-- The value of a key, if the key is present. -/
def get? (table : Table α) (key : String) : Option α :=
  table.lookup key

/-- Whether the key is present. -/
def has (table : Table α) (key : String) : Bool :=
  (table.get? key).isSome

/-- The keys, in order. -/
def keys (table : Table α) : List String :=
  table.map Prod.fst

/-- Replaces the value of a present key in its place, or appends a new key. -/
def put (key : String) (value : α) : Table α → Table α
  | [] => [(key, value)]
  | (other, old) :: rest =>
      if other = key then
        (key, value) :: rest
      else
        (other, old) :: put key value rest

/-- Collects pairs from the left, so the last value of a repeated key wins. -/
def ofPairs (pairs : List (String × α)) : Table α :=
  pairs.foldl (fun table pair => put pair.1 pair.2 table) []

@[simp] theorem get?_nil (key : String) :
    get? ([] : Table α) key = none :=
  rfl

theorem get?_cons (other : String) (old : α) (rest : Table α) (key : String) :
    get? ((other, old) :: rest) key =
      if other = key then some old else get? rest key := by
  by_cases same : other = key
  · subst same
    simp [get?, List.lookup_cons_self]
  · have different : (key == other) = false := by
      simpa using fun equal => same equal.symm
    simp [get?, List.lookup_cons, different, same]

theorem get?_append (table others : Table α) (key : String) :
    get? (table ++ others) key = (get? table key).or (get? others key) :=
  List.lookup_append

/-- A value that is found in a table is one of its entries. -/
theorem mem_of_get?
    {table : Table α}
    {key : String}
    {value : α}
    (found : table.get? key = some value) :
    (key, value) ∈ table := by
  induction table with
  | nil =>
      simp at found
  | cons entry rest inductionHypothesis =>
      obtain ⟨other, old⟩ := entry
      rw [Table.get?_cons] at found
      by_cases same : other = key
      · simp only [same, if_true, Option.some.injEq] at found
        simp [same, found]
      · simp only [same, if_false] at found
        exact List.mem_cons_of_mem _ (inductionHypothesis found)

/-- A key is present exactly if it is among the keys. -/
theorem has_iff_mem_keys (table : Table α) (key : String) :
    table.has key = true ↔ key ∈ keys table := by
  induction table with
  | nil =>
      simp [has, keys]
  | cons entry rest inductionHypothesis =>
      obtain ⟨other, value⟩ := entry
      simp only [has, keys] at inductionHypothesis
      by_cases same : other = key
      · simp [has, keys, get?_cons, same]
      · have unequal : ¬ key = other := fun equal => same equal.symm
        simp [has, keys, get?_cons, same, unequal, inductionHypothesis]

/-- Nothing is found exactly under what is not among the keys. -/
theorem get?_eq_none_iff (table : Table α) (key : String) :
    table.get? key = none ↔ key ∉ keys table := by
  rw [← has_iff_mem_keys, has, Bool.not_eq_true, Option.isSome_eq_false_iff,
    Option.isNone_iff_eq_none]

/-- Reading back the key just written gives the value written. -/
theorem get?_put_self (key : String) (value : α) (table : Table α) :
    get? (put key value table) key = some value := by
  induction table with
  | nil =>
      simp [put, get?_cons]
  | cons entry rest inductionHypothesis =>
      obtain ⟨other, old⟩ := entry
      by_cases same : other = key
      · simp [put, same, get?_cons]
      · simp [put, same, get?_cons, inductionHypothesis]

/-- Writing one key leaves every other key as it was. -/
theorem get?_put_of_ne {key other : String} (different : other ≠ key)
    (value : α) (table : Table α) :
    get? (put key value table) other = get? table other := by
  induction table with
  | nil =>
      simp [put, get?_cons, Ne.symm different]
  | cons entry rest inductionHypothesis =>
      obtain ⟨first, old⟩ := entry
      by_cases same : first = key
      · subst same
        simp [put, get?_cons, Ne.symm different]
      · simp [put, same, get?_cons, inductionHypothesis]

/-- The keys after a write: the same ones, with a new key at the end. -/
theorem keys_put (key : String) (value : α) (table : Table α) :
    keys (put key value table) =
      if key ∈ keys table then keys table else keys table ++ [key] := by
  induction table with
  | nil =>
      simp [put, keys]
  | cons entry rest inductionHypothesis =>
      obtain ⟨other, old⟩ := entry
      by_cases same : other = key
      · simp [put, same, keys]
      · have unequal : ¬ key = other := fun equal => same equal.symm
        simp only [keys] at inductionHypothesis
        by_cases present : key ∈ List.map Prod.fst rest
        · simp [put, same, keys, unequal, present, inductionHypothesis]
        · simp [put, same, keys, unequal, present, inductionHypothesis]

/-- A new key is appended with its value. -/
theorem put_of_not_mem_keys
    {key : String}
    {table : Table α}
    (fresh : key ∉ keys table)
    (value : α) :
    put key value table = table ++ [(key, value)] := by
  induction table with
  | nil =>
      rfl
  | cons entry rest inductionHypothesis =>
      obtain ⟨other, old⟩ := entry
      simp only [keys, List.map_cons, List.mem_cons, not_or] at fresh
      obtain ⟨different, restFresh⟩ := fresh
      rw [put, if_neg (Ne.symm different), inductionHypothesis restFresh]
      rfl

/-- The keys after a write are those before and the one written. -/
theorem mem_keys_put
    {key other : String}
    {value : α}
    {table : Table α} :
    other ∈ keys (put key value table) ↔ other ∈ keys table ∨ other = key := by
  rw [keys_put]
  by_cases present : key ∈ keys table
  · rw [if_pos present]
    constructor
    · exact .inl
    · rintro (among | rfl)
      · exact among
      · exact present
  · rw [if_neg present]
    simp

theorem mem_keys_foldl_put
    {key : String}
    {pairs : List (String × α)}
    {table : Table α} :
    key ∈ keys (pairs.foldl (fun table pair => put pair.1 pair.2 table) table) ↔
      key ∈ keys table ∨ key ∈ pairs.map Prod.fst := by
  induction pairs generalizing table with
  | nil =>
      simp
  | cons pair rest inductionHypothesis =>
      rw [List.foldl_cons, inductionHypothesis, mem_keys_put, List.map_cons,
        List.mem_cons, or_assoc]

/-- The keys of collected pairs are those of the pairs. -/
theorem mem_keys_ofPairs
    {key : String}
    {pairs : List (String × α)} :
    key ∈ keys (ofPairs pairs) ↔ key ∈ pairs.map Prod.fst := by
  rw [ofPairs, mem_keys_foldl_put]
  simp [keys]

theorem mem_of_get?_foldl_put
    {key : String}
    {value : α}
    {pairs : List (String × α)}
    {table : Table α}
    (found :
      get? (pairs.foldl (fun table pair => put pair.1 pair.2 table) table) key =
        some value) :
    (key, value) ∈ pairs ∨ get? table key = some value := by
  induction pairs generalizing table with
  | nil =>
      exact .inr found
  | cons pair rest inductionHypothesis =>
      obtain ⟨other, written⟩ := pair
      rcases inductionHypothesis found with inRest | before
      · exact .inl (List.mem_cons_of_mem _ inRest)
      · by_cases same : key = other
        · subst same
          rw [get?_put_self, Option.some.injEq] at before
          subst before
          exact .inl List.mem_cons_self
        · rw [get?_put_of_ne same] at before
          exact .inr before

/-- What is found in collected pairs was collected under that key. -/
theorem mem_of_get?_ofPairs
    {key : String}
    {value : α}
    {pairs : List (String × α)}
    (found : get? (ofPairs pairs) key = some value) :
    (key, value) ∈ pairs := by
  rcases mem_of_get?_foldl_put found with among | empty
  · exact among
  · cases empty

end Table

end GraphGate
