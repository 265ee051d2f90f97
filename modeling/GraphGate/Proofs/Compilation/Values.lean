import GraphGate.Proofs.Aql.Blanks
import GraphGate.Proofs.Compilation.Agreement

namespace GraphGate

/-!
# Values do not reach the query text

Two selections that differ in the values of arguments only compile to trees that
differ in values only, provided that the same counts are null. Which generator
answers a field, and with which source, does not depend on its arguments. So no
value changes the text of a query or the names that it binds.
-/

/-- Two arguments of one name. A count is null in both or in neither. -/
def CompiledArguments.SameSlot (first second : String × Json) : Prop :=
  first.1 = second.1 ∧
    (first.1 = limitArgument ∨ first.1 = offsetArgument →
      first.2.isNull = second.2.isNull)

/-- Two selections that differ in the values of arguments at most, here or in what is nested. -/
inductive FieldSelection.DiffersInValues :
    FieldSelection → FieldSelection → Prop where
  | intro {first second : FieldSelection}
      (name : first.name = second.name)
      (label : first.label = second.label)
      (arguments :
        List.Forall₂ CompiledArguments.SameSlot
          first.arguments second.arguments)
      (conditions : first.conditions = second.conditions)
      (nested : List.Forall₂ DiffersInValues first.nested second.nested) :
      DiffersInValues first second

namespace CompiledArguments

variable {parentType field : String}

/-- The arguments of a field with blanks for all values. -/
def blank (arguments : CompiledArguments) : CompiledArguments where
  filters := arguments.filters.map Filter.blank
  pagination := arguments.pagination.blank

theorem eq_of_blank_eq
    {arguments others : CompiledArguments}
    (alike : arguments.blank = others.blank) :
    arguments.filters.map Filter.blank = others.filters.map Filter.blank ∧
      arguments.pagination.blank = others.pagination.blank :=
  ⟨congrArg CompiledArguments.filters alike,
    congrArg CompiledArguments.pagination alike⟩

/-- There is a count unless the value is null. -/
theorem blankCount_of_count
    {argument : String}
    {value : Json}
    {result : Option Nat}
    (counted : count parentType field argument value = .ok result) :
    blankCount result = if value.isNull then .none else some 0 := by
  unfold count at counted
  by_cases isNull : value.isNull = true
  · rw [if_pos isNull] at counted
    cases counted
    rw [if_pos isNull]
    rfl
  · rw [if_neg isNull] at counted
    rw [if_neg isNull]
    cases number : value.unsigned? with
    | none =>
        simp [number] at counted
    | some found =>
        simp only [number, Except.ok.injEq] at counted
        rw [← counted]
        rfl

/-- Arguments that are alike add the same to what is the same but for values. -/
theorem blank_add
    {before after otherBefore otherAfter : CompiledArguments}
    {argument other : String × Json}
    (same : SameSlot argument other)
    (alike : before.blank = otherBefore.blank)
    (added : add parentType field before argument = .ok after)
    (addedToo : add parentType field otherBefore other = .ok otherAfter) :
    after.blank = otherAfter.blank := by
  obtain ⟨name, value⟩ := argument
  obtain ⟨otherName, otherValue⟩ := other
  obtain ⟨sameName, sameNull⟩ := same
  dsimp only at sameName sameNull
  subst sameName
  obtain ⟨sameFilters, samePart⟩ := eq_of_blank_eq alike
  have sameOffset := congrArg Pagination.offset samePart
  have sameLimit := congrArg Pagination.limit samePart
  simp only [Pagination.blank] at sameOffset sameLimit
  unfold add at added addedToo
  by_cases isLimit : name = limitArgument
  · simp only [if_pos isLimit] at added addedToo
    obtain ⟨limit, counted, returned⟩ := Success.bind_eq_ok_iff.mp added
    obtain ⟨otherLimit, countedToo, returnedToo⟩ :=
      Success.bind_eq_ok_iff.mp addedToo
    cases returned
    cases returnedToo
    simp only [blank, Pagination.blank, sameFilters, sameOffset,
      blankCount_of_count counted, blankCount_of_count countedToo,
      sameNull (.inl isLimit)]
  · simp only [if_neg isLimit] at added addedToo
    by_cases isOffset : name = offsetArgument
    · simp only [if_pos isOffset] at added addedToo
      obtain ⟨offset, counted, returned⟩ := Success.bind_eq_ok_iff.mp added
      obtain ⟨otherOffset, countedToo, returnedToo⟩ :=
        Success.bind_eq_ok_iff.mp addedToo
      cases returned
      cases returnedToo
      simp only [blank, Pagination.blank, sameFilters, sameLimit,
        blankCount_of_count counted, blankCount_of_count countedToo,
        sameNull (.inr isOffset)]
    · simp only [if_neg isOffset] at added addedToo
      cases added
      cases addedToo
      simp only [blank, Pagination.blank, List.map_append, sameFilters,
        sameOffset, sameLimit]
      rfl

/-- Arguments one after another. -/
theorem blank_foldlM
    {arguments others : List (String × Json)}
    {before after otherBefore otherAfter : CompiledArguments}
    (same : List.Forall₂ SameSlot arguments others)
    (alike : before.blank = otherBefore.blank)
    (folded : arguments.foldlM (add parentType field) before = .ok after)
    (foldedToo :
      others.foldlM (add parentType field) otherBefore = .ok otherAfter) :
    after.blank = otherAfter.blank := by
  induction same generalizing before otherBefore with
  | nil =>
      cases folded
      cases foldedToo
      exact alike
  | cons here _ inductionHypothesis =>
      rw [List.foldlM_cons] at folded foldedToo
      obtain ⟨next, added, folded⟩ := Success.bind_eq_ok_iff.mp folded
      obtain ⟨otherNext, addedToo, foldedToo⟩ :=
        Success.bind_eq_ok_iff.mp foldedToo
      exact inductionHypothesis (blank_add here alike added addedToo) folded
        foldedToo

end CompiledArguments

namespace FieldSelection.DiffersInValues

variable {first second : FieldSelection}

theorem sameName (differs : first.DiffersInValues second) :
    first.name = second.name := by
  cases differs with
  | intro name label arguments conditions nested =>
      exact name

theorem sameKey (differs : first.DiffersInValues second) :
    first.responseKey = second.responseKey := by
  cases differs with
  | intro name label arguments conditions nested =>
      simp only [responseKey, name, label]

theorem sameNested (differs : first.DiffersInValues second) :
    List.Forall₂ DiffersInValues first.nested second.nested := by
  cases differs with
  | intro name label arguments conditions nested =>
      exact nested

theorem sameTypename (differs : first.DiffersInValues second) :
    first.isTypename = second.isTypename := by
  simp only [isTypename, differs.sameName]

theorem sameOwner
    (differs : first.DiffersInValues second)
    (compiler : Compiler)
    (resultType : String) :
    compiler.ownerType resultType first =
      compiler.ownerType resultType second := by
  cases differs with
  | intro name label arguments conditions nested =>
      simp only [Compiler.ownerType, name, conditions]

/-- What arguments compile to differs in values only. -/
theorem blank_arguments
    {parentType : String}
    {arguments otherArguments : CompiledArguments}
    (differs : first.DiffersInValues second)
    (argued : CompiledArguments.ofSelection parentType first = .ok arguments)
    (arguedToo :
      CompiledArguments.ofSelection parentType second = .ok otherArguments) :
    arguments.blank = otherArguments.blank := by
  cases differs with
  | intro name label same conditions nested =>
      unfold CompiledArguments.ofSelection at argued arguedToo
      rw [← name] at arguedToo
      exact CompiledArguments.blank_foldlM same rfl argued arguedToo

end FieldSelection.DiffersInValues

/-- A field has its documents from one source, whatever its arguments are. -/
theorem CompileContext.Feeds.unique
    {context other : CompileContext}
    {source otherSource : DocumentSource}
    (feeds : context.Feeds source)
    (feedsToo : other.Feeds otherSource)
    (sameModel : context.model = other.model)
    (sameField : context.field = other.field)
    (sameScope : context.scope = other.scope) :
    source = otherSource := by
  cases feeds with
  | traversal isRelation isScope =>
      rw [sameField] at isRelation
      rw [sameScope] at isScope
      cases feedsToo with
      | traversal isRelationToo isScopeToo =>
          cases isRelation.symm.trans isRelationToo
          cases isScope.symm.trans isScopeToo
          rfl
      | traversalFromStart _ isScopeToo =>
          cases isScope.symm.trans isScopeToo
      | scan _ isScopeToo _ =>
          cases isScope.symm.trans isScopeToo
  | traversalFromStart isRelation isScope =>
      rw [sameField] at isRelation
      rw [sameScope] at isScope
      cases feedsToo with
      | traversal _ isScopeToo =>
          cases isScope.symm.trans isScopeToo
      | traversalFromStart isRelationToo isScopeToo =>
          cases isRelation.symm.trans isRelationToo
          rfl
      | scan _ isScopeToo _ =>
          cases isScope.symm.trans isScopeToo
  | scan _ isScope stored =>
      rw [sameScope] at isScope
      have sameResult : context.resultType = other.resultType := by
        simp only [CompileContext.resultType, sameField]
      rw [sameModel, sameResult] at stored
      cases feedsToo with
      | traversal _ isScopeToo =>
          cases isScope.symm.trans isScopeToo
      | traversalFromStart _ isScopeToo =>
          cases isScope.symm.trans isScopeToo
      | scan _ _ storedToo =>
          cases stored.symm.trans storedToo
          rfl

/-- A field that has documents is not stored inside another document. -/
theorem CompileContext.Feeds.not_inside
    {context : CompileContext}
    {source : DocumentSource}
    {loop : String}
    (feeds : context.Feeds source)
    (notRelation : context.field.directives.relation = none)
    (inside : context.scope = .document loop ∨ context.scope = .embedded loop) :
    False := by
  cases feeds with
  | traversal isRelation _ =>
      cases isRelation.symm.trans notRelation
  | traversalFromStart isRelation _ =>
      cases isRelation.symm.trans notRelation
  | scan _ isRoot _ =>
      rcases inside with isDocument | isEmbedded
      · cases isRoot.symm.trans isDocument
      · cases isRoot.symm.trans isEmbedded

/-- Fields of one document, or of one object in it, are read from the same place. -/
theorem Scope.eq_of_inside
    {scope : Scope}
    {loop other : String}
    (inside : scope = .document loop ∨ scope = .embedded loop)
    (insideToo : scope = .document other ∨ scope = .embedded other) :
    loop = other := by
  rcases inside with rfl | rfl
  · rcases insideToo with isDocument | isEmbedded
    · exact Scope.document.inj isDocument
    · cases isEmbedded
  · rcases insideToo with isDocument | isEmbedded
    · cases isDocument
    · exact Scope.embedded.inj isEmbedded

namespace Compiler

variable {compiler : Compiler} {parentType : String} {scope : Scope}
variable {keys path : List String} {first second : FieldSelection}

/-- Projections of selections that differ in values differ in values, if their entries do. -/
theorem blankEntries_of_compileProjection
    {resultType loop : String}
    {nested others : List FieldSelection}
    {projection otherProjection result otherResult :
      List (String × QueryFragment)}
    (differ : List.Forall₂ FieldSelection.DiffersInValues nested others)
    (each : ∀ inner ∈ nested, ∀ other owner fragment otherFragment,
      inner.DiffersInValues other →
        compiler.compileField owner (.document loop) path inner =
            .ok fragment →
          compiler.compileField owner (.document loop) path other =
              .ok otherFragment →
            fragment.blank = otherFragment.blank)
    (alike :
      DocumentsFragment.blankEntries projection =
        DocumentsFragment.blankEntries otherProjection)
    (projected :
      compiler.compileProjection resultType loop path projection nested =
        .ok result)
    (projectedToo :
      compiler.compileProjection resultType loop path otherProjection others =
        .ok otherResult) :
    DocumentsFragment.blankEntries result =
      DocumentsFragment.blankEntries otherResult := by
  replace projected := projects_of_compileProjection projected
  replace projectedToo := projects_of_compileProjection projectedToo
  induction differ generalizing projection otherProjection with
  | nil =>
      cases projected
      cases projectedToo
      exact alike
  | @cons inner other rest otherRest here _ inductionHypothesis =>
      obtain ⟨eachHere, eachOther⟩ := List.forall_mem_cons.mp each
      have sameKeys : Table.keys projection = Table.keys otherProjection := by
        have keys := congrArg Table.keys alike
        simpa only [DocumentsFragment.keys_blankEntries] using keys
      have samePass :
          (inner.isTypename = true ∨
              Table.has projection inner.responseKey = true) ↔
            (other.isTypename = true ∨
              Table.has otherProjection other.responseKey = true) := by
        rw [here.sameTypename, here.sameKey, Table.has_iff_mem_keys,
          Table.has_iff_mem_keys, sameKeys]
      cases projected with
      | passed passedOver onward =>
          cases projectedToo with
          | passed _ onwardToo =>
              exact inductionHypothesis eachOther alike onward onwardToo
          | added notTypename notTaken _ _ =>
              exact absurd (samePass.mp passedOver)
                (by simp [notTypename, notTaken])
      | added notTypename notTaken accepted onward =>
          cases projectedToo with
          | passed passedOver _ =>
              exact absurd (samePass.mpr passedOver)
                (by simp [notTypename, notTaken])
          | added _ _ acceptedToo onwardToo =>
              obtain ⟨owner, owned, compiled⟩ := accepted
              obtain ⟨otherOwner, ownedToo, compiledToo⟩ := acceptedToo
              rw [here.sameOwner, ownedToo] at owned
              cases owned
              have sameFragment :=
                eachHere other _ _ _ here compiled compiledToo
              refine inductionHypothesis eachOther ?_ onward onwardToo
              simp only [DocumentsFragment.blankEntries_append, alike,
                DocumentsFragment.blankEntries, here.sameKey, sameFragment]

/-- Selections that differ in values compile to fragments that differ in values. -/
theorem blank_eq_of_compileField
    {fragment otherFragment : QueryFragment}
    (differs : first.DiffersInValues second)
    (compiled :
      compiler.compileField parentType scope keys first = .ok fragment)
    (compiledToo :
      compiler.compileField parentType scope keys second =
        .ok otherFragment) :
    fragment.blank = otherFragment.blank := by
  -- Both runs find one declaration, and by it and the scope one source.
  induction first using FieldSelection.tree_induction
    generalizing second parentType scope keys fragment otherFragment with
  | node first inductionHypothesis =>
      have accepts := accepts_of_compileField compiled
      have acceptsToo := accepts_of_compileField compiledToo
      cases accepts with
      | documents declared _ argued feeds projected =>
          cases acceptsToo with
          | documents declaredToo _ arguedToo feedsToo projectedToo =>
              rw [← differs.sameName, declared] at declaredToo
              cases declaredToo
              obtain ⟨sameFilters, samePart⟩ :=
                CompiledArguments.eq_of_blank_eq
                  (differs.blank_arguments argued arguedToo)
              have sameSource := feeds.unique feedsToo rfl rfl rfl
              rw [← differs.sameKey] at projectedToo
              have sameProjection :=
                blankEntries_of_compileProjection differs.sameNested
                  (fun inner member _ _ _ _ => inductionHypothesis inner member)
                  rfl projected projectedToo
              simp only [QueryFragment.blank, DocumentsFragment.blank_eq,
                CompileContext.fragment, context, differs.sameKey, sameSource,
                sameFilters, samePart, sameProjection]
              rfl
          | property declaredToo _ _ notRelation inside _ =>
              rw [← differs.sameName, declared] at declaredToo
              cases declaredToo
              exact (feeds.not_inside notRelation inside).elim
      | property declared _ _ notRelation inside _ =>
          cases acceptsToo with
          | documents declaredToo _ _ feeds _ =>
              rw [← differs.sameName, declared] at declaredToo
              cases declaredToo
              exact (feeds.not_inside notRelation inside).elim
          | property declaredToo _ _ _ insideToo _ =>
              rw [← differs.sameName, declared] at declaredToo
              cases declaredToo
              rw [Scope.eq_of_inside inside insideToo]

end Compiler

namespace DataFetcher

variable {fetcher : DataFetcher} {parent : FetchParent}
variable {first second : FieldSelection}
variable {fragment other : DocumentsFragment}

theorem resolveParent_eq
    (sameName : first.name = second.name)
    (fetcher : DataFetcher)
    (parent : FetchParent) :
    fetcher.resolveParent first parent =
      fetcher.resolveParent second parent := by
  cases parent with
  | root =>
      simp only [resolveParent, sameName]
  | record type id =>
      simp only [resolveParent, sameName]

/--
Two selections that differ in the values of arguments only, where the same counts
are null, have queries of the same text that bind under the same names, if both
compile for a parent. Their fragment trees differ in values only.
-/
theorem values_do_not_reach_query_text
    (differs : first.DiffersInValues second)
    (compiled : fetcher.compile first parent = .ok fragment)
    (compiledToo : fetcher.compile second parent = .ok other) :
    fragment.render.text = other.render.text ∧
      Table.keys fragment.render.binds = Table.keys other.render.binds ∧
      fragment.blank = other.blank := by
  obtain ⟨_, _, start, prepared⟩ := compile_eq_ok_iff.mp compiled
  obtain ⟨_, _, otherStart, preparedToo⟩ := compile_eq_ok_iff.mp compiledToo
  obtain ⟨rfl, parentType, scope, resolved, -, accepted⟩ :=
    accepted_of_prepare prepared
  obtain ⟨rfl, otherType, otherScope, resolvedToo, -, acceptedToo⟩ :=
    accepted_of_prepare preparedToo
  rw [← resolveParent_eq differs.sameName, resolved] at resolvedToo
  cases resolvedToo
  have sameFragment :
      (QueryFragment.documents fragment).blank =
        (QueryFragment.documents other).blank :=
    Compiler.blank_eq_of_compileField differs accepted acceptedToo
  simp only [QueryFragment.blank, QueryFragment.documents.injEq]
    at sameFragment
  obtain ⟨sameText, sameNames⟩ :=
    DocumentsFragment.render_eq_of_blank_eq sameFragment
  exact ⟨sameText, sameNames, sameFragment⟩

/-- Some pets of a name, each with an owner of a name. -/
def searchSelection (limit : Nat) (pet owner : String) : FieldSelection where
  name := "pets"
  label := none
  arguments := [("limit", .nat limit), ("name", .string pet)]
  conditions := []
  nested := [{
    name := "owner"
    label := none
    arguments := [("name", .string owner)]
    conditions := []
    nested := [.ofName "name"] }]

theorem searchSelection_differs
    (limit otherLimit : Nat)
    (pet otherPet owner otherOwner : String) :
    (searchSelection limit pet owner).DiffersInValues
      (searchSelection otherLimit otherPet otherOwner) := by
  have sameLeaf :
      (FieldSelection.ofName "name").DiffersInValues (.ofName "name") :=
    .intro rfl rfl .nil rfl .nil
  refine .intro rfl rfl ?_ rfl ?_
  · exact .cons ⟨rfl, fun _ => rfl⟩ (.cons ⟨rfl, fun _ => rfl⟩ .nil)
  · refine .cons (.intro rfl rfl ?_ rfl ?_) .nil
    · exact .cons ⟨rfl, fun _ => rfl⟩ .nil
    · exact .cons sameLeaf .nil

/-- A name that looks like a piece of a query is only ever bound. -/
theorem search_text_keeps_its_shape :
    let usual := searchSelection 2 "Rex" "Ada"
    let hostile := searchSelection 9 "\" || true RETURN pet //" "` == 1 @start"
    usual.DiffersInValues hostile ∧
      ∃ fragment other,
        kennel.compile usual .root = .ok fragment ∧
          kennel.compile hostile .root = .ok other ∧
          fragment.render.text = other.render.text ∧
          Table.keys other.render.binds =
            ["@v_pets_collection", "v_pets_arg_name", "v_pets_limit",
              "@v_pets_owner_edges", "v_pets_owner_arg_name"] := by
  intro usual hostile
  have differs : usual.DiffersInValues hostile :=
    searchSelection_differs _ _ _ _ _ _
  obtain ⟨fragment, other, compiled, compiledToo, names⟩ :
      ∃ fragment other,
        kennel.compile usual .root = .ok fragment ∧
          kennel.compile hostile .root = .ok other ∧
          Table.keys other.render.binds =
            ["@v_pets_collection", "v_pets_arg_name", "v_pets_limit",
              "@v_pets_owner_edges", "v_pets_owner_arg_name"] :=
    ⟨_, _, rfl, rfl, by decide +kernel⟩
  obtain ⟨sameText, -, -⟩ :=
    values_do_not_reach_query_text differs compiled compiledToo
  exact ⟨differs, fragment, other, compiled, compiledToo, sameText, names⟩

end DataFetcher

end GraphGate
