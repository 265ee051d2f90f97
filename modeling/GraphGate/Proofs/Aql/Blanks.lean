import GraphGate.Proofs.Aql.Nodes

namespace GraphGate

/-!
# What a query shows of its values

A fragment tree can have blanks in the place of its filter values, limits and
offsets. Its text is the same with blanks, and so are the names of what it binds,
in their order. So trees that have the same blanks have queries that differ in
the values bound at most.
-/

namespace Table

variable {α β : Type}

theorem keys_foldl_put
    (pairs : List (String × α))
    (table : Table α) :
    keys (pairs.foldl (fun table pair => put pair.1 pair.2 table) table) =
      (pairs.map Prod.fst).foldl
        (fun names name => if name ∈ names then names else names ++ [name])
        (keys table) := by
  induction pairs generalizing table with
  | nil =>
      rfl
  | cons pair rest inductionHypothesis =>
      rw [List.foldl_cons, inductionHypothesis, keys_put]
      rfl

/-- The keys of collected pairs depend on the keys of the pairs only. -/
theorem keys_ofPairs_eq
    {pairs : List (String × α)}
    {others : List (String × β)}
    (same : pairs.map Prod.fst = others.map Prod.fst) :
    keys (ofPairs pairs) = keys (ofPairs others) := by
  unfold ofPairs
  rw [keys_foldl_put, keys_foldl_put, same]
  rfl

end Table

/-- A filter with a blank for its value. -/
def Filter.blank (filter : Filter) : Filter :=
  { filter with value := .null }

/-- A blank for a count, if there is one. -/
def blankCount (count : Option Nat) : Option Nat :=
  count.map fun _ => 0

/-- A part of the documents with blanks for its counts. -/
def Pagination.blank (pagination : Pagination) : Pagination where
  offset := blankCount pagination.offset
  limit := blankCount pagination.limit

mutual

/-- What a response key stands for, with blanks for all values. -/
def QueryFragment.blank : QueryFragment → QueryFragment
  | .property loop name => .property loop name
  | .documents fragment => .documents fragment.blank

/-- A fragment tree with blanks for all values. -/
def DocumentsFragment.blank : DocumentsFragment → DocumentsFragment
  | ⟨loop, source, filters, pagination, discriminator, projection, cardinality⟩ =>
      ⟨loop, source, filters.map Filter.blank, pagination.blank, discriminator,
        DocumentsFragment.blankEntries projection, cardinality⟩

/-- The entries of a projection with blanks for all values. -/
def DocumentsFragment.blankEntries :
    List (String × QueryFragment) → List (String × QueryFragment)
  | [] => []
  | (key, fragment) :: rest =>
      (key, fragment.blank) :: DocumentsFragment.blankEntries rest

end

namespace DocumentsFragment

variable {projection further : List (String × QueryFragment)}

theorem blank_eq (fragment : DocumentsFragment) :
    fragment.blank =
      { fragment with
        filters := fragment.filters.map Filter.blank
        pagination := fragment.pagination.blank
        projection := blankEntries fragment.projection } := by
  cases fragment
  rw [blank]

theorem blankEntries_append :
    blankEntries (projection ++ further) =
      blankEntries projection ++ blankEntries further := by
  induction projection with
  | nil =>
      simp [blankEntries]
  | cons entry rest inductionHypothesis =>
      simp [blankEntries, inductionHypothesis]

theorem keys_blankEntries (projection : List (String × QueryFragment)) :
    Table.keys (blankEntries projection) = Table.keys projection := by
  induction projection with
  | nil =>
      simp [blankEntries]
  | cons entry rest inductionHypothesis =>
      simp only [Table.keys] at inductionHypothesis
      simp [blankEntries, Table.keys, inductionHypothesis]

/-! The text. -/

theorem limitClauses_blank
    (loop : String)
    (cardinality : Cardinality)
    (pagination : Pagination) :
    limitClauses loop cardinality pagination.blank =
      limitClauses loop cardinality pagination := by
  obtain ⟨offset, limit⟩ := pagination
  cases offset <;> cases limit <;> rfl

/-- Entries have the same text with blanks, if the documents in them do. -/
theorem entryTexts_blankEntries
    (inside : ∀ key inner,
      (key, QueryFragment.documents inner) ∈ projection →
        inner.blank.text " " = inner.text " ") :
    entryTexts (blankEntries projection) = entryTexts projection := by
  induction projection with
  | nil =>
      simp [blankEntries]
  | cons entry rest inductionHypothesis =>
      obtain ⟨key, value⟩ := entry
      have others :=
        inductionHypothesis fun key inner member =>
          inside key inner (List.mem_cons_of_mem _ member)
      cases value with
      | property loop name =>
          simp only [blankEntries, QueryFragment.blank, entryTexts, others]
      | documents inner =>
          have sameText := inside key inner List.mem_cons_self
          have sameCardinality :
              inner.blank.cardinality = inner.cardinality := by
            rw [blank_eq]
          simp only [blankEntries, QueryFragment.blank, entryTexts, others,
            sameText, sameCardinality]

/-- The text of a tree is the text with blanks. -/
theorem text_blank
    (separator : String)
    (fragment : DocumentsFragment) :
    fragment.blank.text separator = fragment.text separator := by
  induction fragment using tree_induction generalizing separator with
  | node fragment inductionHypothesis =>
      obtain ⟨loop, source, filters, pagination, discriminator, projection,
        cardinality⟩ := fragment
      have sameFilters :
          (filters.map Filter.blank).map (filterClause loop) =
            filters.map (filterClause loop) := by
        rw [List.map_map]
        rfl
      have sameEntries :
          entryTexts (blankEntries projection) = entryTexts projection :=
        entryTexts_blankEntries fun key inner member =>
          inductionHypothesis key inner member " "
      simp only [blank, text, sameFilters, limitClauses_blank, sameEntries]

/-! The names of what is bound. -/

theorem names_limitBinds_blank
    (loop : String)
    (cardinality : Cardinality)
    (pagination : Pagination) :
    (limitBinds loop cardinality pagination.blank).map Prod.fst =
      (limitBinds loop cardinality pagination).map Prod.fst := by
  obtain ⟨offset, limit⟩ := pagination
  cases offset <;> cases limit <;> rfl

theorem names_ownBindings_blank (fragment : DocumentsFragment) :
    fragment.blank.ownBindings.map Prod.fst =
      fragment.ownBindings.map Prod.fst := by
  have sameFilters :
      ((fragment.filters.map Filter.blank).map
          (filterBind fragment.loop)).map Prod.fst =
        (fragment.filters.map (filterBind fragment.loop)).map Prod.fst := by
    rw [List.map_map, List.map_map, List.map_map]
    rfl
  simp only [blank_eq, ownBindings, List.map_append, sameFilters,
    names_limitBinds_blank]

/-- Entries bind under the same names with blanks, if the documents in them do. -/
theorem names_entryBindings_blankEntries
    (inside : ∀ key inner,
      (key, QueryFragment.documents inner) ∈ projection →
        inner.blank.bindings.map Prod.fst = inner.bindings.map Prod.fst) :
    (entryBindings (blankEntries projection)).map Prod.fst =
      (entryBindings projection).map Prod.fst := by
  induction projection with
  | nil =>
      simp [blankEntries]
  | cons entry rest inductionHypothesis =>
      obtain ⟨key, value⟩ := entry
      have others :=
        inductionHypothesis fun key inner member =>
          inside key inner (List.mem_cons_of_mem _ member)
      cases value with
      | property loop name =>
          simp only [blankEntries, QueryFragment.blank, entryBindings, others]
      | documents inner =>
          have sameNames := inside key inner List.mem_cons_self
          simp only [blankEntries, QueryFragment.blank, entryBindings,
            List.map_append, others, sameNames]

/-- A tree binds under the same names as with blanks. -/
theorem names_bindings_blank (fragment : DocumentsFragment) :
    fragment.blank.bindings.map Prod.fst = fragment.bindings.map Prod.fst := by
  induction fragment using tree_induction with
  | node fragment inductionHypothesis =>
      have sameProjection :
          fragment.blank.projection = blankEntries fragment.projection := by
        rw [blank_eq]
      have sameEntries := names_entryBindings_blankEntries inductionHypothesis
      simp only [bindings_cons, List.map_append, names_ownBindings_blank,
        sameProjection, sameEntries]

/-- Trees with the same blanks have queries of one text, which bind under the same names. -/
theorem render_eq_of_blank_eq
    {fragment other : DocumentsFragment}
    (same : fragment.blank = other.blank) :
    fragment.render.text = other.render.text ∧
      Table.keys fragment.render.binds = Table.keys other.render.binds := by
  constructor
  · calc
      fragment.text "\n  " = fragment.blank.text "\n  " :=
        (text_blank _ fragment).symm
      _ = other.blank.text "\n  " := by rw [same]
      _ = other.text "\n  " := text_blank _ other
  · apply Table.keys_ofPairs_eq
    calc
      fragment.bindings.map Prod.fst = fragment.blank.bindings.map Prod.fst :=
        (names_bindings_blank fragment).symm
      _ = other.blank.bindings.map Prod.fst := by rw [same]
      _ = other.bindings.map Prod.fst := names_bindings_blank other

end DocumentsFragment

end GraphGate
