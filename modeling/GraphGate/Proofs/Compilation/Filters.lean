import GraphGate.Proofs.Aql.ProjectionOrder
import GraphGate.Proofs.Aql.QueryParts
import GraphGate.Proofs.Compilation.Sources

namespace GraphGate

/-!
# The values that documents are filtered by

Every argument of a documents field that is no count has a clause of its own in
the query text. The placeholder of the clause is named after the field and the
argument, so no other field of the tree binds it; but two arguments of one name
share it, and what is bound last is kept. So the documents are filtered by the
last value of every argument, and by all values exactly if they are the same.
-/

namespace Table

variable {α : Type} {pairs others : List (String × α)} {key : String}

/-- The values that stand under a key, in order. -/
def valuesOf (pairs : List (String × α)) (key : String) : List α :=
  (pairs.filter fun pair => pair.1 = key).map Prod.snd

theorem valuesOf_append :
    valuesOf (pairs ++ others) key = valuesOf pairs key ++ valuesOf others key := by
  rw [valuesOf, List.filter_append, List.map_append, valuesOf, valuesOf]

theorem mem_valuesOf_iff {value : α} :
    value ∈ valuesOf pairs key ↔ (key, value) ∈ pairs := by
  simp [valuesOf]

/-- Of the values under a key, the last one is kept. -/
theorem get?_ofPairs (pairs : List (String × α)) (key : String) :
    get? (ofPairs pairs) key = (valuesOf pairs key).getLast? := by
  induction pairs using List.reverseRecOn with
  | nil =>
      rfl
  | append_singleton rest pair inductionHypothesis =>
      obtain ⟨other, value⟩ := pair
      have single :
          get? (ofPairs [(other, value)]) key =
            (valuesOf [(other, value)] key).getLast? := by
        by_cases same : other = key
        · simp [ofPairs, put, get?_cons, valuesOf, same]
        · simp [ofPairs, put, get?_cons, valuesOf, same]
      rw [get?_ofPairs_append, valuesOf_append, List.getLast?_append,
        inductionHypothesis, single]

/-- What stands under a key of one list is not replaced from lists without the key. -/
theorem get?_ofPairs_flatten_of_mem
    {blocks : List (List (String × α))}
    (apart : blocks.Pairwise KeysApart)
    {block : List (String × α)}
    (member : block ∈ blocks)
    (present : key ∈ keys block) :
    get? (ofPairs blocks.flatten) key = get? (ofPairs block) key := by
  obtain ⟨before, after, rfl⟩ := List.append_of_mem member
  have inFront :
      (before ++ block :: after).Perm (block :: (before ++ after)) :=
    List.perm_middle
  have apartInFront := inFront.pairwise apart KeysApart.symm
  have absent : key ∉ keys (before ++ after).flatten := by
    intro among
    obtain ⟨pair, inFlat, isKey⟩ := List.mem_map.mp among
    obtain ⟨other, isOther, inOther⟩ := List.mem_flatten.mp inFlat
    exact List.rel_of_pairwise_cons apartInFront isOther key present
      (isKey ▸ List.mem_map_of_mem inOther)
  rw [get?_ofPairs_flatten inFront apart, List.flatten_cons,
    get?_ofPairs_append, get?_ofPairs_eq_none absent, Option.none_or]

end Table

namespace DocumentsFragment

/-- The filters of a fragment, with the values that are bound for them. -/
def boundFilters
    (fragment : DocumentsFragment)
    (binds : Table Json) : List Filter :=
  fragment.filters.map fun filter =>
    ⟨filter.property,
      (binds.get? (filterName fragment.loop filter.property)).getD .null⟩

variable {registry : DiscriminatorRegistry} {path : List String}
variable {fragment : DocumentsFragment}

/-- What a fragment binds for filters on a property are the values of these filters. -/
theorem filter_kinds_eq
    (fragment : DocumentsFragment)
    (property : String) :
    (fragment.kinds.filter fun entry => entry.1 = .filter property) =
      (fragment.filters.filter fun filter =>
        filter.property = property).map fun filter =>
          (.filter filter.property, filter.value) := by
  have noSource :
      ((sourceKind fragment.source).1 = .filter property) = False := by
    cases fragment.source <;> simp [sourceKind]
  have noPage :
      (pageKinds fragment.cardinality fragment.pagination).filter
          (fun entry => entry.1 = .filter property) = [] := by
    unfold pageKinds
    split <;> simp
  rw [kinds, List.filter_append, noPage, List.append_nil,
    List.filter_cons_of_neg (by simp [noSource]), List.filter_map]
  simp [Function.comp_def]

/-- A fragment binds the values of its filters on a property under one placeholder. -/
theorem valuesOf_ownBindings
    (inScope : ∀ node ∈ fragment.nodes path, node.IsScoped registry)
    {node : FragmentNode}
    (member : node ∈ fragment.nodes path)
    {filter : Filter}
    (isFilter : filter ∈ node.fragment.filters) :
    Table.valuesOf node.fragment.ownBindings
        (filterName node.fragment.loop filter.property) =
      (node.fragment.filters.filter fun other =>
        other.property = filter.property).map Filter.value := by
  have isScoped := inScope node member
  have siteNamed (kind : BindKind) (value : Json)
      (ofNode : (kind, value) ∈ node.fragment.kinds) :
      BindSite.IsNamed ⟨node.path, kind⟩ :=
    isNamed_of_mem_sites inScope
      (mem_sites.mpr ⟨node, member, List.mem_map_of_mem ofNode⟩)
  have ofFilter :
      (BindKind.filter filter.property, filter.value) ∈ node.fragment.kinds :=
    List.mem_append_left _ <| List.mem_cons_of_mem _ <|
      List.mem_map_of_mem isFilter
  -- the placeholders of a fragment tell the kinds apart
  have sameKinds :
      (node.fragment.kinds.filter fun entry =>
          BindSite.name ⟨node.path, entry.1⟩ =
            filterName node.fragment.loop filter.property) =
        node.fragment.kinds.filter fun entry =>
          entry.1 = .filter filter.property := by
    refine List.filter_congr fun entry ofNode => decide_eq_decide.mpr ?_
    rw [isScoped.loop]
    constructor
    · intro sameName
      have sameSite :=
        BindSite.name_injective (siteNamed entry.1 entry.2 ofNode)
          (siteNamed _ _ ofFilter) sameName
      exact congrArg BindSite.kind sameSite
    · intro sameKind
      rw [sameKind]
      rfl
  rw [Table.valuesOf, FragmentNode.ownBindings_eq isScoped.loop,
    FragmentNode.sites, List.map_map, List.filter_map, List.map_map]
  refine (congrArg (List.map _) (sameKinds.trans
    (filter_kinds_eq node.fragment filter.property))).trans ?_
  rw [List.map_map]
  rfl

/-- Under the placeholder of a filter, the last value that its fragment has for it is bound. -/
theorem get?_binds_filterName
    (inScope : ∀ node ∈ fragment.nodes path, node.IsScoped registry)
    {node : FragmentNode}
    (member : node ∈ fragment.nodes path)
    {filter : Filter}
    (isFilter : filter ∈ node.fragment.filters) :
    Table.get? fragment.render.binds
        (filterName node.fragment.loop filter.property) =
      ((node.fragment.filters.filter fun other =>
        other.property = filter.property).map Filter.value).getLast? := by
  have ofNode : node.fragment.ownBindings ∈ fragment.blocks path :=
    List.mem_map_of_mem member
  have bound :
      filterBind node.fragment.loop filter ∈ node.fragment.ownBindings :=
    List.mem_append_left _ <| List.mem_append_right _ <|
      List.mem_map_of_mem isFilter
  have present :
      filterName node.fragment.loop filter.property ∈
        Table.keys node.fragment.ownBindings :=
    List.mem_map.mpr ⟨_, bound, rfl⟩
  have inTree :
      Table.get? fragment.render.binds
          (filterName node.fragment.loop filter.property) =
        Table.get? (Table.ofPairs node.fragment.ownBindings)
          (filterName node.fragment.loop filter.property) := by
    rw [render, bindings_eq_flatten path]
    exact Table.get?_ofPairs_flatten_of_mem (pairwise_blocks inScope) ofNode
      present
  rw [inTree, Table.get?_ofPairs, valuesOf_ownBindings inScope member isFilter]

end DocumentsFragment

namespace FieldSelection

/-- The last of the values that are given for an argument. -/
def lastValue? (selection : FieldSelection) (argument : String) : Option Json :=
  (Table.valuesOf selection.arguments argument).getLast?

/-- Whether no filter is given with two values. -/
def FiltersAgree (selection : FieldSelection) : Prop :=
  ∀ argument ∈ selection.arguments, Store.isFilter argument = true →
    ∀ value, (argument.1, value) ∈ selection.arguments →
      value = argument.2

variable {selection : FieldSelection} {argument : String × Json}

theorem exists_lastValue?
    (given : argument ∈ selection.arguments) :
    ∃ last,
      selection.lastValue? argument.1 = some last ∧
        (argument.1, last) ∈ selection.arguments := by
  have present : argument.2 ∈ Table.valuesOf selection.arguments argument.1 :=
    Table.mem_valuesOf_iff.mpr given
  obtain ⟨last, isLast⟩ :=
    Option.isSome_iff_exists.mp
      (List.getLast?_isSome.mpr (List.ne_nil_of_mem present))
  exact ⟨last, isLast,
    Table.mem_valuesOf_iff.mp (List.mem_of_getLast? isLast)⟩

/-- Each filter has the last value of its name exactly if none is given with two values. -/
theorem forall_lastValue?_iff :
    (∀ argument ∈ selection.arguments, Store.isFilter argument = true →
        selection.lastValue? argument.1 = some argument.2) ↔
      selection.FiltersAgree := by
  constructor
  · intro isLast argument given isFilter value givenToo
    have first := isLast argument given isFilter
    have second := isLast (argument.1, value) givenToo isFilter
    exact Option.some.inj (second.symm.trans first)
  · intro agree argument given isFilter
    obtain ⟨last, isLast, givenLast⟩ := exists_lastValue? given
    rw [isLast, agree argument given isFilter last givenLast]

end FieldSelection

namespace Compiler

variable {compiler : Compiler} {parentType : String} {scope : Scope}
variable {keys : List String} {selection : FieldSelection}
variable {fragment : DocumentsFragment}

/-- The filters of accepted documents are the arguments of their field that are no counts. -/
theorem Accepts.filters_eq
    (accepts :
      compiler.Accepts parentType scope keys selection (.documents fragment)) :
    fragment.filters =
      (selection.arguments.filter Store.isFilter).map fun argument =>
        ⟨argument.1, argument.2⟩ := by
  cases accepts with
  | documents _ _ argued _ _ =>
      exact CompiledArguments.filters_of_ofSelection argued

theorem Accepts.mem_filters
    (accepts :
      compiler.Accepts parentType scope keys selection (.documents fragment))
    {argument : String × Json}
    (given : argument ∈ selection.arguments)
    (isFilter : Store.isFilter argument = true) :
    ⟨argument.1, argument.2⟩ ∈ fragment.filters := by
  rw [accepts.filters_eq]
  exact List.mem_map_of_mem (List.mem_filter.mpr ⟨given, isFilter⟩)

/-- The filters on a property have the values that are given for the argument of its name. -/
theorem Accepts.filterValues_eq
    (accepts :
      compiler.Accepts parentType scope keys selection (.documents fragment))
    {argument : String × Json}
    (isFilter : Store.isFilter argument = true) :
    (fragment.filters.filter fun filter =>
        filter.property = argument.1).map Filter.value =
      Table.valuesOf selection.arguments argument.1 := by
  have kept :
      (selection.arguments.filter fun other =>
          decide (other.1 = argument.1) && Store.isFilter other) =
        selection.arguments.filter fun other => other.1 = argument.1 := by
    refine List.filter_congr fun other _ => ?_
    by_cases same : other.1 = argument.1
    · have sameTest : Store.isFilter other = Store.isFilter argument := by
        rw [Store.isFilter, Store.isFilter, same]
      simp [same, sameTest, isFilter]
    · simp [same]
  rw [accepts.filters_eq, List.filter_map, List.map_map, Table.valuesOf, ← kept,
    ← List.filter_filter]
  rfl

end Compiler

namespace DataFetcher

variable {fetcher : DataFetcher} {selection : FieldSelection}
variable {parent : FetchParent} {fragment : DocumentsFragment}

/--
At any depth of an accepted tree, every argument of a field of documents that is
no count has its clause in the query. Under the placeholder of the clause the
last value of that argument is bound, whatever else is in the tree. So every
clause has the value of its argument exactly if no filter is given with two
values, and the documents that pass are those that have the last ones.
-/
theorem documents_filtered_by_last_values
    (compiled : fetcher.compile selection parent = .ok fragment)
    {node : FragmentNode}
    (member : node ∈ fragment.nodes [selection.responseKey]) :
    ∃ field,
      selection.Occurs node.path field ∧
        (∀ argument ∈ field.arguments, Store.isFilter argument = true →
          IsPartOf
            (DocumentsFragment.filterClause node.fragment.loop
              ⟨argument.1, argument.2⟩)
            fragment.render.text) ∧
        (selection.Everywhere FieldSelection.HasNames →
          (∀ argument ∈ field.arguments, Store.isFilter argument = true →
            Table.get? fragment.render.binds
                (DocumentsFragment.filterName node.fragment.loop argument.1) =
              field.lastValue? argument.1) ∧
          ((∀ argument ∈ field.arguments, Store.isFilter argument = true →
              Table.get? fragment.render.binds
                  (DocumentsFragment.filterName node.fragment.loop
                    argument.1) =
                some argument.2) ↔
            field.FiltersAgree) ∧
          ∀ (store : Store) (document : Json),
            store.passes (node.fragment.boundFilters fragment.render.binds)
                document = true ↔
              ∀ argument ∈ field.arguments, Store.isFilter argument = true →
                ∀ last, field.lastValue? argument.1 = some last →
                  store.equal (document.property argument.1) last = true) := by
  obtain ⟨field, owner, scope, above, occurs, -, -, accepts⟩ :=
    exists_answers_of_compile compiled member
  refine ⟨field, occurs, ?_, ?_⟩
  · intro argument given isFilter
    have isClause :
        DocumentsFragment.filterClause node.fragment.loop
            ⟨argument.1, argument.2⟩ ∈ node.fragment.clauses := by
      apply List.mem_append_left
      apply List.mem_cons_of_mem
      exact List.mem_map_of_mem (accepts.mem_filters given isFilter)
    exact DocumentsFragment.isPartOf_text_of_mem_nodes member
      (List.mem_append_left _ isClause) "\n  "
  · intro names
    have bound :
        ∀ argument ∈ field.arguments, Store.isFilter argument = true →
          Table.get? fragment.render.binds
              (DocumentsFragment.filterName node.fragment.loop argument.1) =
            field.lastValue? argument.1 := by
      intro argument given isFilter
      rw [DocumentsFragment.get?_binds_filterName
        (isScoped_of_compile names compiled) member
        (accepts.mem_filters given isFilter),
        accepts.filterValues_eq isFilter]
      rfl
    refine ⟨bound, ?_, ?_⟩
    · rw [← FieldSelection.forall_lastValue?_iff]
      exact forall₃_congr fun argument given isFilter => by
        rw [bound argument given isFilter]
    · intro store document
      rw [Store.passes, DocumentsFragment.boundFilters, accepts.filters_eq,
        List.map_map, List.all_map, List.all_filter, List.all_eq_true]
      refine forall₂_congr fun argument given => ?_
      obtain ⟨last, isLast, -⟩ := FieldSelection.exists_lastValue? given
      cases isFilter : Store.isFilter argument with
      | false =>
          simp
      | true =>
          have boundHere := bound argument given isFilter
          simp [boundHere, isLast]

/-- The name that pets are filtered by is bound, though inner owners have it in their placeholders. -/
theorem pets_filtered_by_name :
    argSelection.Everywhere FieldSelection.HasNames ∧
      ∃ fragment,
        kennel.compile argSelection .root = .ok fragment ∧
          Table.get? fragment.render.binds "v_pets_arg_name" =
            some (.string "Rex") := by
  obtain ⟨fragment, compiled⟩ :
      ∃ fragment, kennel.compile argSelection .root = .ok fragment :=
    ⟨_, rfl⟩
  have outermost : (⟨["pets"], fragment⟩ : FragmentNode) ∈
      fragment.nodes [argSelection.responseKey] :=
    DocumentsFragment.mem_nodes.mpr (.inl rfl)
  obtain ⟨field, occurs, -, bound⟩ :=
    documents_filtered_by_last_values compiled outermost
  have isPets : field = argSelection := occurs.eq_of_singleton
  have isLoop : fragment.loop = "v_pets" :=
    (isSourced_of_compile compiled _ outermost).loop
  subst isPets
  have ofName :=
    (bound argSelection_names).1 ("name", .string "Rex") (by simp [argSelection])
      (by decide)
  rw [isLoop] at ofName
  exact ⟨argSelection_names, fragment, compiled, ofName⟩

/-- Pets that are asked for by two names at once. -/
def renamedSelection : FieldSelection :=
  { petsSelection with
    arguments := [("name", .string "Ada"), ("name", .string "Bob")] }

/-- A pet. -/
def bob : Json :=
  .object [("_id", .string "pets/1"), ("name", .string "Bob")]

/-- No pet has two names, and still one of them is found: the first name is not asked for. -/
theorem first_name_not_enforced :
    (⟨kennelTypes, [], [], none⟩ : ModelBuilder).build = .ok kennel.model ∧
      renamedSelection.Everywhere FieldSelection.HasNames ∧
      ∃ fragment,
        kennel.compile renamedSelection .root = .ok fragment ∧
          fragment.filters =
            [⟨"name", .string "Ada"⟩, ⟨"name", .string "Bob"⟩] ∧
          Table.get? fragment.render.binds
              (DocumentsFragment.filterName fragment.loop "name") =
            some (.string "Bob") ∧
          ∀ store : Store,
            store.equal (.string "Bob") (.string "Bob") = true →
            store.equal (.string "Bob") (.string "Ada") = false →
              store.passes (fragment.boundFilters fragment.render.binds) bob =
                  true ∧
                store.passes fragment.filters bob = false := by
  have isBound (fragment : DocumentsFragment)
      (compiled : kennel.compile renamedSelection .root = .ok fragment) :
      fragment.boundFilters fragment.render.binds =
        [⟨"name", .string "Bob"⟩, ⟨"name", .string "Bob"⟩] := by
    cases compiled
    rfl
  refine ⟨by rfl, by decide, _, rfl, rfl, rfl, ?_⟩
  intro store same different
  rw [isBound _ rfl]
  have isBob : bob.property "name" = .string "Bob" := rfl
  constructor
  · simp [Store.passes, isBob, same]
  · simp [Store.passes, isBob, different]

end DataFetcher

end GraphGate
