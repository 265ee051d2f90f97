import GraphGate.Proofs.Aql.Placeholders

namespace GraphGate

open GraphQL

/-!
# The placeholders of a rendered tree

The text of a fragment tree is read clause by clause. Each clause has the
placeholders that its part of the fragment binds, in the same order, and a
source that starts at a known document has one more.
-/

/-- A name that can stand between marks as it is. -/
def IsUnbroken (name : String) : Prop :=
  ∀ c ∈ name.toList, c ≠ '\\' ∧ c ≠ '\x60'

instance (name : String) : Decidable (IsUnbroken name) :=
  decidable_of_iff
    (name.toList.all (fun c => c ≠ '\\' ∧ c ≠ '\x60') = true)
    (by simp [IsUnbroken])

theorem isUnbroken_of_isName
    {name : String}
    (isName : IsName name) :
    IsUnbroken name := by
  intro c member
  have part := isName.isNamePart_of_mem member
  constructor
  · rintro rfl
    revert part
    decide
  · rintro rfl
    revert part
    decide

namespace IsWord

theorem append
    {first second : List Char}
    (isWord : IsWord first)
    (alsoWord : IsWord second) :
    IsWord (first ++ second) :=
  List.forall_mem_append.mpr ⟨isWord, alsoWord⟩

theorem append_text
    {text : String}
    (isWord : IsWord text.toList)
    {more : String}
    (alsoWord : IsWord more.toList) :
    IsWord (text ++ more).toList := by
  rw [String.toList_append]
  exact isWord.append alsoWord

theorem isPlaceholder
    {word : List Char}
    (isWord : IsWord word) :
    IsPlaceholder word :=
  ⟨word, isWord, .inl rfl⟩

theorem isPlaceholder_collectionParameter
    {word : String}
    (isWord : IsWord word.toList) :
    IsPlaceholder (AqlQuery.collectionParameter word).toList :=
  ⟨word.toList, isWord, .inr (by simp [AqlQuery.collectionParameter])⟩

end IsWord

/-- Several texts, each of which is read for itself. -/
inductive ReadsAll : List String → List String → Prop where
  | nil : ReadsAll [] []
  | cons {text : String} {texts names others : List String} :
      Reads text.toList names → ReadsAll texts others →
      ReadsAll (text :: texts) (names ++ others)

namespace ReadsAll

variable {texts more names others : List String}

theorem append
    (reads : ReadsAll texts names)
    (moreReads : ReadsAll more others) :
    ReadsAll (texts ++ more) (names ++ others) := by
  induction reads with
  | nil =>
      exact moreReads
  | cons first _ inductionHypothesis =>
      rw [List.append_assoc]
      exact .cons first inductionHypothesis

theorem singleton
    {text : String}
    (reads : Reads text.toList names) :
    ReadsAll [text] names := by
  have all := cons reads nil
  rwa [List.append_nil] at all

theorem map
    {α : Type}
    {render name : α → String}
    {items : List α}
    (each : ∀ item ∈ items, Reads (render item).toList [name item]) :
    ReadsAll (items.map render) (items.map name) := by
  induction items with
  | nil =>
      exact .nil
  | cons item rest inductionHypothesis =>
      obtain ⟨first, others⟩ := List.forall_mem_cons.mp each
      exact .cons first (inductionHypothesis others)

end ReadsAll

/-- What can stand between two clauses or entries. -/
structure IsSeparator (separator : List Char) : Prop where
  plain : IsPlainText separator
  ends : ∃ c rest,
    separator = c :: rest ∧ isNamePart c = false ∧ c ≠ '@'

/-- Texts are read one after the other if they are kept apart. -/
theorem ReadsAll.intercalate
    {separator : String}
    (separates : IsSeparator separator.toList)
    {texts names : List String}
    (reads : ReadsAll texts names) :
    Reads (separator.intercalate texts).toList names := by
  induction reads with
  | nil =>
      exact .nil
  | cons first others inductionHypothesis =>
      cases others with
      | nil =>
          simpa using first
      | cons second rest =>
          rw [String.intercalate_cons_cons, String.toList_append,
            String.toList_append, List.append_assoc]
          refine first.append
            ((Reads.of_isPlainText separates.plain).append_of_no_names
              inductionHypothesis) ?_
          obtain ⟨c, tail, shape, noPart, noAt⟩ := separates.ends
          rw [shape]
          exact endsWord_cons noPart noAt _

namespace DocumentsFragment

/-- What the text of a fragment itself is made from can be read back. -/
structure IsReadable (fragment : DocumentsFragment) : Prop where
  loop : IsWord fragment.loop.toList
  start : ∀ name direction edges,
    fragment.source = .traversal (.loop name) direction edges →
      IsWord name.toList
  filters : ∀ filter ∈ fragment.filters, IsUnbroken filter.property
  properties : ∀ key loop name,
    (key, QueryFragment.property loop name) ∈ fragment.projection →
      IsWord loop.toList ∧ IsUnbroken name
  discriminator : ∀ property,
    fragment.discriminator = some property → IsUnbroken property

variable {loop property : String}

theorem reads_propertyText
    (isWord : IsWord loop.toList)
    (isUnbroken : IsUnbroken property) :
    Reads (propertyText loop property).toList [] := by
  have shape :
      (propertyText loop property).toList =
        loop.toList ++
          '.' :: '\x60' :: (property.toList ++ ['\x60']) := by
    simp [propertyText]
  rw [shape]
  exact (Reads.of_isWord isWord).append_of_no_names
    (.plain (by decide) (.quoted (by decide) (.of_forall isUnbroken) .nil))

theorem reads_entryText
    {key value : String}
    {names : List String}
    (reads : Reads value.toList names) :
    Reads (entryText key value).toList names := by
  have shape :
      (entryText key value).toList =
        (Json.quote key).toList ++ ([':', ' '] ++ value.toList) := by
    simp [entryText]
  rw [shape]
  exact (reads_quote key).append_of_no_names
    ((Reads.of_isPlainText (by decide)).append_of_no_names reads)

theorem reads_objectText
    {entries names : List String}
    (reads : ReadsAll entries names) :
    Reads (objectText entries).toList names := by
  have shape :
      (objectText entries).toList =
        ['\x7b'] ++ ((", ".intercalate entries).toList ++ ['\x7d']) := by
    simp [objectText]
  have separates : IsSeparator (", ").toList :=
    ⟨by decide, ',', [' '], by decide, by decide, by decide⟩
  rw [shape]
  refine (Reads.of_isPlainText (by decide)).append_of_no_names ?_
  exact (reads.intercalate separates).append_singleton (by decide) (by decide)

theorem reads_metaEntry
    (isWord : IsWord loop.toList)
    {discriminator : Option String}
    (isUnbroken : ∀ property,
      discriminator = some property → IsUnbroken property) :
    Reads (metaEntry loop discriminator).toList [] := by
  have id : Reads ("\"_id\": " ++ loop ++ "._id").toList [] := by
    have shape :
        ("\"_id\": " ++ loop ++ "._id").toList =
          '"' :: (['_', 'i', 'd'] ++ '"' ::
            ([':', ' '] ++ (loop.toList ++ ['.', '_', 'i', 'd']))) := by
      simp
    rw [shape]
    refine .quoted (by decide) (.of_forall (by simp)) ?_
    refine (Reads.of_isPlainText (by decide)).append_of_no_names ?_
    exact (Reads.of_isWord isWord).append_of_no_names
      (Reads.of_isPlainText (by decide))
  have type :
      ReadsAll
        (discriminator.toList.map fun property =>
          entryText property (propertyText loop property)) [] := by
    cases isDiscriminator : discriminator with
    | none =>
        exact .nil
    | some property =>
        exact .singleton (reads_entryText
          (reads_propertyText isWord (isUnbroken property isDiscriminator)))
  exact reads_entryText (reads_objectText (.cons id type))

theorem reads_subqueryText
    {cardinality : Cardinality}
    {text : String}
    {names : List String}
    (reads : Reads text.toList names) :
    Reads (subqueryText cardinality text).toList names := by
  have closed : Reads (text.toList ++ [')']) names :=
    reads.append_singleton (by decide) (by decide)
  cases cardinality with
  | one =>
      have shape :
          (subqueryText .one text).toList =
            "FIRST(".toList ++ (text.toList ++ [')']) := by
        simp [subqueryText]
      rw [shape]
      exact (Reads.of_isPlainText (by decide)).append_of_no_names closed
  | many =>
      have shape :
          (subqueryText .many text).toList =
            ['('] ++ (text.toList ++ [')']) := by
        simp [subqueryText]
      rw [shape]
      exact (Reads.of_isPlainText (by decide)).append_of_no_names closed

/-- The placeholders of a source; that of a start document comes first. -/
def startNames : DocumentSource → List String
  | .traversal .parameter _ _ => [startParameter]
  | _ => []

/-- The placeholders of a fragment itself, in the order of its clauses. -/
def ownNames (fragment : DocumentsFragment) : List String :=
  startNames fragment.source ++ fragment.ownBindings.map Prod.fst

theorem reads_loopText
    (isWord : IsWord loop.toList)
    {text : List Char}
    {names : List String}
    (reads : Reads text names) :
    Reads ("FOR ".toList ++ (loop.toList ++ text)) names := by
  refine (Reads.of_isPlainText (by decide)).append_of_no_names ?_
  exact (Reads.of_isWord isWord).append_of_no_names reads

theorem reads_startText
    {start : TraversalStart}
    (isWord : ∀ name, start = .loop name → IsWord name.toList)
    (direction : Direction)
    (edges : String) :
    Reads (startText start).toList
      (startNames (.traversal start direction edges)) := by
  cases start with
  | loop name =>
      exact .of_isWord (isWord name rfl)
  | parameter =>
      have shape : (startText .parameter).toList = '@' :: startParameter.toList := by
        simp [startText]
      have isName : IsWord startParameter.toList := by
        decide
      rw [shape]
      exact .of_isPlaceholder isName.isPlaceholder

theorem reads_sourceClause
    (isWord : IsWord loop.toList)
    {source : DocumentSource}
    (start : ∀ name direction edges,
      source = .traversal (.loop name) direction edges → IsWord name.toList) :
    Reads (sourceClause loop source).toList
      (startNames source ++ (sourceBinds loop source).map Prod.fst) := by
  cases source with
  | collection name =>
      have shape :
          (sourceClause loop (.collection name)).toList =
            "FOR ".toList ++ (loop.toList ++ (" IN ".toList ++
              '@' :: (AqlQuery.collectionParameter
                (collectionName loop)).toList)) := by
        simp [sourceClause, AqlQuery.collectionParameter]
      have isName : IsWord (collectionName loop).toList :=
        isWord.append_text (by decide)
      rw [shape]
      refine reads_loopText isWord ?_
      refine (Reads.of_isPlainText (by decide)).append_of_no_names ?_
      exact .of_isPlaceholder isName.isPlaceholder_collectionParameter
  | traversal begin direction edges =>
      have shape :
          (sourceClause loop (.traversal begin direction edges)).toList =
            "FOR ".toList ++ (loop.toList ++ (" IN 1..1 ".toList ++
              (direction.render.toList ++ ([' '] ++
                ((startText begin).toList ++ ([' '] ++
                  '@' :: (AqlQuery.collectionParameter
                    (edgesName loop)).toList)))))) := by
        simp [sourceClause, AqlQuery.collectionParameter]
      have isDirection : IsPlainText direction.render.toList := by
        cases direction <;> decide
      have isName : IsWord (edgesName loop).toList :=
        isWord.append_text (by decide)
      have isEdges :
          Reads ('@' :: (AqlQuery.collectionParameter (edgesName loop)).toList)
            [AqlQuery.collectionParameter (edgesName loop)] :=
        .of_isPlaceholder isName.isPlaceholder_collectionParameter
      rw [shape]
      refine reads_loopText isWord ?_
      refine (Reads.of_isPlainText (by decide)).append_of_no_names ?_
      refine (Reads.of_isPlainText isDirection).append_of_no_names ?_
      refine (Reads.of_isPlainText (by decide)).append_of_no_names ?_
      have isStart :
          Reads (startText begin).toList
            (startNames (.traversal begin direction edges)) :=
        reads_startText
          (fun name isLoop => start name direction edges (by rw [isLoop]))
          direction edges
      exact isStart.append
        ((Reads.of_isPlainText (by decide)).append_of_no_names isEdges)
        (endsWord_cons (by decide) (by decide) _)

theorem isWord_filterName
    (isWord : IsWord loop.toList)
    (property : String) :
    IsWord (filterName loop property).toList :=
  (isWord.append_text (by decide)).append_text (IsWord.escapeName property)

theorem reads_filterClause
    (isWord : IsWord loop.toList)
    {filter : Filter}
    (isUnbroken : IsUnbroken filter.property) :
    Reads (filterClause loop filter).toList
      [(filterBind loop filter).1] := by
  have shape :
      (filterClause loop filter).toList =
        "FILTER ".toList ++ ((propertyText loop filter.property).toList ++
          (" == ".toList ++
            '@' :: (filterName loop filter.property).toList)) := by
    simp [filterClause, propertyText]
  rw [shape]
  refine (Reads.of_isPlainText (by decide)).append_of_no_names ?_
  refine (reads_propertyText isWord isUnbroken).append_of_no_names ?_
  refine (Reads.of_isPlainText (by decide)).append_of_no_names ?_
  exact .of_isPlaceholder (isWord_filterName isWord filter.property).isPlaceholder

theorem reads_limitClauses
    (isWord : IsWord loop.toList)
    (cardinality : Cardinality)
    (pagination : Pagination) :
    ReadsAll (limitClauses loop cardinality pagination)
      ((limitBinds loop cardinality pagination).map Prod.fst) := by
  have limitIsWord : IsWord (limitName loop).toList :=
    isWord.append_text (by decide)
  have offsetIsWord : IsWord (offsetName loop).toList :=
    isWord.append_text (by decide)
  have limitReads : Reads ('@' :: (limitName loop).toList) [limitName loop] :=
    .of_isPlaceholder limitIsWord.isPlaceholder
  have offsetReads :
      Reads ('@' :: (offsetName loop).toList) [offsetName loop] :=
    .of_isPlaceholder offsetIsWord.isPlaceholder
  obtain ⟨offset, limit⟩ := pagination
  cases offset with
  | some offset =>
      have shape :
          ("LIMIT @" ++ offsetName loop ++ ", @" ++ limitName loop).toList =
            "LIMIT ".toList ++ ('@' :: (offsetName loop).toList ++
              ([',', ' '] ++ '@' :: (limitName loop).toList)) := by
        simp
      refine .singleton ?_
      rw [shape]
      refine (Reads.of_isPlainText (by decide)).append_of_no_names ?_
      exact offsetReads.append
        ((Reads.of_isPlainText (by decide)).append_of_no_names limitReads)
        (endsWord_cons (by decide) (by decide) _)
  | none =>
      cases limit with
      | some limit =>
          have shape :
              ("LIMIT @" ++ limitName loop).toList =
                "LIMIT ".toList ++ '@' :: (limitName loop).toList := by
            simp
          refine .singleton ?_
          rw [shape]
          exact (Reads.of_isPlainText (by decide)).append_of_no_names limitReads
      | none =>
          cases cardinality with
          | one =>
              exact .singleton (Reads.of_isPlainText (by decide))
          | many =>
              exact .nil

/-- The clauses of a fragment, without what it returns. -/
def clauses (fragment : DocumentsFragment) : List String :=
  sourceClause fragment.loop fragment.source ::
    fragment.filters.map (filterClause fragment.loop) ++
    limitClauses fragment.loop fragment.cardinality fragment.pagination

/-- What a fragment returns. -/
def returnClause (fragment : DocumentsFragment) : String :=
  "RETURN " ++
    objectText
      (metaEntry fragment.loop fragment.discriminator ::
        entryTexts fragment.projection)

theorem text_eq
    (separator : String)
    (fragment : DocumentsFragment) :
    fragment.text separator =
      separator.intercalate (fragment.clauses ++ [fragment.returnClause]) := by
  cases fragment
  rw [text]
  rfl

theorem reads_clauses
    {fragment : DocumentsFragment}
    (readable : fragment.IsReadable) :
    ReadsAll fragment.clauses fragment.ownNames := by
  have source := reads_sourceClause readable.loop readable.start
  have filters :
      ReadsAll (fragment.filters.map (filterClause fragment.loop))
        (fragment.filters.map fun filter =>
          (filterBind fragment.loop filter).1) :=
    .map fun filter member =>
      reads_filterClause readable.loop (readable.filters filter member)
  have page :=
    reads_limitClauses readable.loop fragment.cardinality fragment.pagination
  have all := (ReadsAll.cons source filters).append page
  simpa [clauses, ownNames, ownBindings, Function.comp_def] using all

theorem reads_entryTexts
    {path : List String}
    {projection : List (String × QueryFragment)}
    (properties : ∀ key loop name,
      (key, QueryFragment.property loop name) ∈ projection →
        IsWord loop.toList ∧ IsUnbroken name)
    (inside : ∀ key inner,
      (key, QueryFragment.documents inner) ∈ projection →
        Reads (inner.text " ").toList
          ((inner.nodes (path ++ [key])).flatMap fun node =>
            node.fragment.ownNames)) :
    ReadsAll (entryTexts projection)
      ((entryNodes path projection).flatMap fun node =>
        node.fragment.ownNames) := by
  induction projection with
  | nil =>
      rw [entryTexts, entryNodes]
      exact .nil
  | cons entry rest inductionHypothesis =>
      obtain ⟨key, value⟩ := entry
      have others :=
        inductionHypothesis
          (fun key loop name member =>
            properties key loop name (List.mem_cons_of_mem _ member))
          (fun key inner member =>
            inside key inner (List.mem_cons_of_mem _ member))
      cases value with
      | property loop name =>
          obtain ⟨isWord, isUnbroken⟩ :=
            properties key loop name List.mem_cons_self
          rw [entryTexts, entryNodes]
          exact .cons (reads_entryText (reads_propertyText isWord isUnbroken))
            others
      | documents inner =>
          rw [entryTexts, entryNodes, List.flatMap_append]
          exact .cons
            (reads_entryText (reads_subqueryText
              (inside key inner List.mem_cons_self)))
            others

/-- The text of a tree has the placeholders of its fragments, one after another. -/
theorem reads_text
    {path : List String}
    {fragment : DocumentsFragment}
    (readable : ∀ node ∈ fragment.nodes path, node.fragment.IsReadable)
    {separator : String}
    (separates : IsSeparator separator.toList) :
    Reads (fragment.text separator).toList
      ((fragment.nodes path).flatMap fun node => node.fragment.ownNames) := by
  -- Inner documents have a separator of their own, so it is generalised.
  induction fragment using tree_induction generalizing path separator with
  | node fragment inductionHypothesis =>
      have root := readable ⟨path, fragment⟩ (mem_nodes.mpr (.inl rfl))
      have blank : IsSeparator " ".toList :=
        ⟨by decide, ' ', [], by decide, by decide, by decide⟩
      have entries :=
        reads_entryTexts root.properties fun key inner member =>
          inductionHypothesis key inner member
            (fun node below => readable node
              (mem_nodes.mpr (.inr ⟨key, inner, member, below⟩)))
            blank
      have returned :
          Reads fragment.returnClause.toList
            ((entryNodes path fragment.projection).flatMap fun node =>
              node.fragment.ownNames) := by
        rw [returnClause, String.toList_append]
        refine (Reads.of_isPlainText (by decide)).append_of_no_names ?_
        exact reads_objectText
          (.cons (reads_metaEntry root.loop root.discriminator) entries)
      rw [text_eq, nodes_eq, List.flatMap_cons]
      exact ((reads_clauses root).append (.singleton returned)).intercalate
        separates

/-- The query of a tree has the placeholders of its fragments. -/
theorem placeholders_render
    {path : List String}
    {fragment : DocumentsFragment}
    (readable : ∀ node ∈ fragment.nodes path, node.fragment.IsReadable) :
    placeholders fragment.render.text =
      (fragment.nodes path).flatMap fun node => node.fragment.ownNames :=
  (reads_text readable
    ⟨by decide, '\n', [' ', ' '], by decide, by decide, by decide⟩).names_eq

end DocumentsFragment

end GraphGate
