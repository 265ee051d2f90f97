import GraphGate.Proofs.Aql.RenderedText

namespace GraphGate

/-!
# Parts of query texts

The text of a fragment tree has every clause of every fragment of the tree as a
part, at any depth. The last clause of a fragment returns an object literal: its
metadata first, itself an object literal, and then the entries of the projection.
-/

/-- A text that another text has somewhere inside. -/
def IsPartOf (part whole : String) : Prop :=
  ∃ before after, whole = before ++ part ++ after

namespace IsPartOf

variable {part middle whole separator : String}

theorem refl (text : String) : IsPartOf text text :=
  ⟨"", "", by simp⟩

theorem trans
    (inner : IsPartOf part middle)
    (outer : IsPartOf middle whole) :
    IsPartOf part whole := by
  obtain ⟨before, after, rfl⟩ := inner
  obtain ⟨start, rest, rfl⟩ := outer
  exact ⟨start ++ before, after ++ rest, by simp only [String.append_assoc]⟩

theorem append_left
    (inner : IsPartOf part whole)
    (before : String) :
    IsPartOf part (before ++ whole) :=
  inner.trans ⟨before, "", by simp⟩

theorem append_right
    (inner : IsPartOf part whole)
    (after : String) :
    IsPartOf part (whole ++ after) :=
  inner.trans ⟨"", after, by simp⟩

/-- Texts that are put together with a separator are parts of the whole. -/
theorem intercalate
    {pieces : List String}
    (member : part ∈ pieces) :
    IsPartOf part (separator.intercalate pieces) := by
  induction pieces with
  | nil =>
      cases member
  | cons first rest inductionHypothesis =>
      cases rest with
      | nil =>
          rw [List.mem_singleton.mp member, String.intercalate_singleton]
          exact refl first
      | cons second others =>
          rw [String.intercalate_cons_cons]
          rcases List.mem_cons.mp member with isFirst | inRest
          · rw [isFirst]
            exact ((refl first).append_right separator).append_right _
          · exact (inductionHypothesis inRest).append_left _

end IsPartOf

namespace DocumentsFragment

/-- An object literal of the query text, with the texts of its values by key. -/
def literal (members : List (String × String)) : String :=
  objectText (members.map fun member => entryText member.1 member.2)

/-- The members of the metadata that is returned with a document. -/
def metadataMembers (fragment : DocumentsFragment) : List (String × String) :=
  ("_id", fragment.loop ++ "._id") ::
    fragment.discriminator.toList.map fun property =>
      (property, propertyText fragment.loop property)

/-- The text of a value in a returned object. -/
def valueText : QueryFragment → String
  | .property loop name => propertyText loop name
  | .documents inner => subqueryText inner.cardinality (inner.text " ")

/-- The members of the object that is returned for a document. -/
def returnedMembers (fragment : DocumentsFragment) : List (String × String) :=
  (metaKey, literal fragment.metadataMembers) ::
    fragment.projection.map fun entry => (entry.1, valueText entry.2)

variable {fragment : DocumentsFragment} {path : List String}

theorem entryTexts_eq (projection : List (String × QueryFragment)) :
    entryTexts projection =
      projection.map fun entry => entryText entry.1 (valueText entry.2) := by
  induction projection with
  | nil =>
      rfl
  | cons entry rest inductionHypothesis =>
      obtain ⟨key, value⟩ := entry
      cases value with
      | property loop name =>
          rw [entryTexts, inductionHypothesis]
          rfl
      | documents inner =>
          rw [entryTexts, inductionHypothesis]
          rfl

theorem metaEntry_eq (fragment : DocumentsFragment) :
    metaEntry fragment.loop fragment.discriminator =
      entryText metaKey (literal fragment.metadataMembers) := by
  have quoted : Json.quote "_id" = "\"_id\"" := by
    decide +kernel
  have isId :
      entryText "_id" (fragment.loop ++ "._id") =
        "\"_id\": " ++ fragment.loop ++ "._id" := by
    rw [entryText, quoted, ← String.append_assoc]
    rfl
  rw [metaEntry, literal, metadataMembers, List.map_cons, isId, List.map_map]
  rfl

/-- A fragment returns the object literal of its members. -/
theorem returnClause_eq (fragment : DocumentsFragment) :
    fragment.returnClause = "RETURN " ++ literal fragment.returnedMembers := by
  have members :
      (fragment.returnedMembers.map fun member => entryText member.1 member.2) =
        entryText metaKey (literal fragment.metadataMembers) ::
          entryTexts fragment.projection := by
    rw [returnedMembers, List.map_cons, List.map_map, entryTexts_eq]
    rfl
  rw [returnClause, metaEntry_eq, ← members, ← literal]

/-- Inner documents are written out in what a fragment returns. -/
theorem isPartOf_returnClause
    {key : String}
    {inner : DocumentsFragment}
    (member : (key, QueryFragment.documents inner) ∈ fragment.projection) :
    IsPartOf (inner.text " ") fragment.returnClause := by
  have inSubquery :
      IsPartOf (inner.text " ")
        (subqueryText inner.cardinality (inner.text " ")) := by
    cases inner.cardinality with
    | one =>
        exact ⟨"FIRST(", ")", rfl⟩
    | many =>
        exact ⟨"(", ")", rfl⟩
  have inEntry :
      IsPartOf (inner.text " ")
        (entryText key (valueText (.documents inner))) :=
    inSubquery.append_left (Json.quote key ++ ": ")
  have isMember :
      (key, valueText (.documents inner)) ∈ fragment.returnedMembers :=
    List.mem_cons_of_mem _ <| List.mem_map.mpr ⟨_, member, rfl⟩
  have inMembers :
      IsPartOf (entryText key (valueText (.documents inner)))
        (", ".intercalate
          (fragment.returnedMembers.map fun member =>
            entryText member.1 member.2)) :=
    .intercalate (List.mem_map.mpr ⟨_, isMember, rfl⟩)
  have inLiteral := (inMembers.append_left "\x7b").append_right "\x7d"
  rw [returnClause_eq]
  exact (inEntry.trans inLiteral).append_left "RETURN "

/-- Every clause of every fragment of a tree is part of its text. -/
theorem isPartOf_text_of_mem_nodes
    {node : FragmentNode}
    (member : node ∈ fragment.nodes path)
    {clause : String}
    (isClause :
      clause ∈ node.fragment.clauses ++ [node.fragment.returnClause])
    (separator : String) :
    IsPartOf clause (fragment.text separator) := by
  -- Inner documents have a separator of their own, so it is generalised.
  induction fragment using tree_induction generalizing path separator with
  | node fragment inductionHypothesis =>
      rw [text_eq]
      rcases mem_nodes.mp member with isRoot | ⟨key, inner, entry, below⟩
      · subst isRoot
        exact .intercalate isClause
      · have inInner := inductionHypothesis key inner entry below " "
        have returned :
            fragment.returnClause ∈
              fragment.clauses ++ [fragment.returnClause] :=
          List.mem_append_right _ (List.mem_singleton_self _)
        exact (inInner.trans (isPartOf_returnClause entry)).trans
          (.intercalate returned)

/-! Keys of the object literals. -/

theorem nodup_keys_metadataMembers_iff (fragment : DocumentsFragment) :
    (Table.keys fragment.metadataMembers).Nodup ↔
      fragment.discriminator ≠ some "_id" := by
  unfold metadataMembers
  cases fragment.discriminator with
  | none =>
      simp [Table.keys]
  | some property =>
      simp [Table.keys, eq_comm]

theorem keys_returnedMembers (fragment : DocumentsFragment) :
    Table.keys fragment.returnedMembers =
      metaKey :: Table.keys fragment.projection := by
  simp [returnedMembers, Table.keys]

/-- With distinct keys, only the metadata has the key of the metadata. -/
theorem mem_returnedMembers_metaKey_iff
    (distinct : (Table.keys fragment.returnedMembers).Nodup)
    (value : String) :
    (metaKey, value) ∈ fragment.returnedMembers ↔
      value = literal fragment.metadataMembers := by
  rw [keys_returnedMembers, List.nodup_cons] at distinct
  unfold returnedMembers
  rw [List.mem_cons]
  constructor
  · rintro (isMetadata | inProjection)
    · exact (Prod.mk.inj isMetadata).2
    · obtain ⟨entry, member, same⟩ := List.mem_map.mp inProjection
      have isKey := (Prod.mk.inj same).1
      exact (distinct.1 (isKey ▸ List.mem_map_of_mem member)).elim
  · rintro rfl
    exact .inl rfl

end DocumentsFragment

end GraphGate
