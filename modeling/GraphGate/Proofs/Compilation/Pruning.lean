import GraphGate.Proofs.Compilation.ChainOrder
import GraphGate.Proofs.Compilation.Owners
import GraphGate.Proofs.Pruning
import GraphGate.Proofs.Request.Answers

namespace GraphGate

/-!
# Compiling selections with some left out

Whether a merged field is accepted depends on the declaration it is compiled by,
on its arguments, and on whether anything is nested in it. If each selection
could stand on its own, with one declaration for each response key, then leaving
some out changes nothing but the last: a field is refused exactly if all that is
nested in it has been left out.
-/

namespace CompiledArguments

variable {parentType field : String} {arguments compiled : CompiledArguments}

/-- Whether a count can be read does not depend on the type around the field. -/
theorem count_eq_ok
    {argument : String}
    {value : Json}
    {found : Option Nat}
    (counted : count parentType field argument value = .ok found)
    (other : String) :
    count other field argument value = .ok found := by
  unfold count at counted ⊢
  split at counted
  · rename_i isNull
    rw [if_pos isNull]
    exact counted
  · rename_i notNull
    rw [if_neg notNull]
    split at counted
    · exact counted
    · cases counted

theorem add_eq_ok
    {argument : String × Json}
    (added : add parentType field arguments argument = .ok compiled)
    (other : String) :
    add other field arguments argument = .ok compiled := by
  unfold add at added ⊢
  dsimp only at added ⊢
  split at added
  · rename_i isLimit
    rw [if_pos isLimit]
    obtain ⟨limit, counted, added⟩ := Success.bind_eq_ok_iff.mp added
    exact Success.bind_eq_ok_iff.mpr ⟨limit, count_eq_ok counted other, added⟩
  · rename_i notLimit
    rw [if_neg notLimit]
    split at added
    · rename_i isOffset
      rw [if_pos isOffset]
      obtain ⟨offset, counted, added⟩ := Success.bind_eq_ok_iff.mp added
      exact Success.bind_eq_ok_iff.mpr
        ⟨offset, count_eq_ok counted other, added⟩
    · rename_i notOffset
      rw [if_neg notOffset]
      exact added

/-- What the arguments of a selection compile to does not depend on the type around it. -/
theorem ofSelection_eq_ok
    {selection : FieldSelection}
    (argued : ofSelection parentType selection = .ok compiled)
    (other : String) :
    ofSelection other selection = .ok compiled := by
  unfold ofSelection at argued ⊢
  generalize none = start at argued ⊢
  generalize selection.arguments = given at argued ⊢
  induction given generalizing start with
  | nil =>
      exact argued
  | cons argument rest inductionHypothesis =>
      rw [List.foldlM_cons] at argued ⊢
      obtain ⟨next, added, argued⟩ := Success.bind_eq_ok_iff.mp argued
      exact Success.bind_eq_ok_iff.mpr
        ⟨next, add_eq_ok added other, inductionHypothesis next argued⟩

end CompiledArguments

/-- What is inside a field is evaluated in one scope, whatever its arguments are. -/
theorem Generator.innerScope_generate?
    (generator : Generator)
    (context : CompileContext)
    (parentType fieldName : String)
    (arguments : CompiledArguments) :
    (generator.generate? { context with
        parentType := parentType
        fieldName := fieldName
        arguments := arguments }).map Compiler.innerScope =
      (generator.generate? context).map Compiler.innerScope := by
  cases generator with
  | edgeTraversal =>
      simp only [generate?, traverseEdge?]
      cases context.field.directives.relation with
      | none =>
          rfl
      | some relation =>
          simp only [Option.map_map]
          rfl
  | discriminatedVertex =>
      simp only [generate?, scanAbstract?, apply_ite (Option.map _),
        Option.map_map]
      rfl
  | vertexLookup =>
      simp only [generate?, scanConcrete?, apply_ite (Option.map _),
        Option.map_map]
      rfl
  | storedProperty =>
      rfl

/-- A chain that answers a field does so whatever its arguments are, with one scope inside it. -/
theorem GeneratorChain.exists_generate
    {chain : GeneratorChain}
    {context : CompileContext}
    {fragment : QueryFragment}
    (generated : chain.generate context = .ok fragment)
    (parentType fieldName : String)
    (arguments : CompiledArguments) :
    ∃ other,
      chain.generate { context with
          parentType := parentType
          fieldName := fieldName
          arguments := arguments } = .ok other ∧
        Compiler.innerScope other = Compiler.innerScope fragment := by
  obtain ⟨generator, member, answered⟩ := generate_eq_ok_iff.mp generated
  have sameScope :=
    generator.innerScope_generate? context parentType fieldName arguments
  rw [answered, Option.map_some] at sameScope
  obtain ⟨other, isOther, scope⟩ := Option.map_eq_some_iff.mp sameScope
  exact ⟨other, generate_eq_ok_iff.mpr ⟨generator, member, isOther⟩, scope⟩

namespace Compiler

variable {compiler : Compiler} {parentType resultType : String}
variable {scope inside : Scope} {path : List String}
variable {selection nested : FieldSelection} {field : FieldDeclaration}

/-- A field is answered in a scope, and what is inside it is evaluated in another one. -/
def Opens
    (compiler : Compiler)
    (field : FieldDeclaration)
    (scope : Scope)
    (path : List String)
    (inside : Scope) : Prop :=
  ∃ parentType selection arguments fragment,
    compiler.chain.generate
        (compiler.context parentType scope path selection field arguments) =
      .ok fragment ∧
    innerScope fragment = inside

/-- A field that is answered at all is answered under any name and arguments. -/
theorem Opens.exists_generate
    (opens : compiler.Opens field scope path inside)
    (parentType : String)
    (selection : FieldSelection)
    (arguments : CompiledArguments) :
    ∃ fragment,
      compiler.chain.generate
          (compiler.context parentType scope path selection field arguments) =
        .ok fragment ∧
      innerScope fragment = inside := by
  obtain ⟨_, _, _, fragment, generated, isInside⟩ := opens
  obtain ⟨other, isOther, sameScope⟩ :=
    GeneratorChain.exists_generate generated parentType selection.name arguments
  exact ⟨other, isOther, sameScope.trans isInside⟩

theorem Opens.unique
    {other : Scope}
    (opens : compiler.Opens field scope path inside)
    (opensToo : compiler.Opens field scope path other) :
    inside = other := by
  obtain ⟨parentType, selection, arguments, fragment, generated, isOther⟩ :=
    opensToo
  obtain ⟨same, isSame, isInside⟩ :=
    opens.exists_generate parentType selection arguments
  cases generated.symm.trans isSame
  exact isInside.symm.trans isOther

/-- All fields nested at a place are accepted there. -/
def AcceptsAll
    (compiler : Compiler)
    (resultType : String)
    (scope : Scope)
    (path : List String)
    (selections : List FieldSelection) : Prop :=
  ∀ nested ∈ selections,
    nested.isTypename = false →
      ∃ compiled, compiler.AcceptsNested resultType scope path nested compiled

theorem exists_entries_iff {selections : List FieldSelection} :
    (∃ entries,
        (selections.filter (!·.isTypename)).mapM
            (compiler.compileNested resultType scope path) =
          .ok entries) ↔
      compiler.AcceptsAll resultType scope path selections := by
  rw [Success.exists_mapM_iff]
  constructor
  · intro each nested member isField
    obtain ⟨entry, compiled⟩ :=
      each nested (List.mem_filter.mpr ⟨member, by simp [isField]⟩)
    obtain ⟨owner, owned, compiled⟩ := Success.bind_eq_ok_iff.mp compiled
    obtain ⟨fragment, isCompiled, -⟩ := Success.bind_eq_ok_iff.mp compiled
    exact ⟨fragment, owner, owned, isCompiled⟩
  · intro accepts nested isMember
    obtain ⟨member, isField⟩ := List.mem_filter.mp isMember
    obtain ⟨fragment, owner, owned, isCompiled⟩ :=
      accepts nested member (by simpa using isField)
    refine ⟨(nested.responseKey, fragment), ?_⟩
    refine Success.bind_eq_ok_iff.mpr ⟨owner, owned, ?_⟩
    exact Success.bind_eq_ok_iff.mpr ⟨fragment, isCompiled, rfl⟩

/-- A field compiles if it has a fragment and all that is nested in it is accepted inside. -/
theorem exists_compileField_iff
    {keys : List String}
    (distinct : selection.HasDistinctKeys) :
    (∃ compiled,
        compiler.compileField parentType scope keys selection =
          .ok compiled) ↔
      ∃ field fragment,
        compiler.fieldFragment parentType scope
            (keys ++ [selection.responseKey]) selection =
          .ok (field, fragment) ∧
        compiler.AcceptsAll field.type.namedType (innerScope fragment)
          (keys ++ [selection.responseKey]) selection.nested := by
  rw [compileField_eq]
  constructor
  · intro compiles
    rcases compiles with ⟨compiled, isCompiled⟩
    obtain ⟨⟨field, fragment⟩, found, isCompiled⟩ :=
      Success.bind_eq_ok_iff.mp isCompiled
    refine ⟨field, fragment, found, exists_entries_iff.mp ?_⟩
    cases fragment with
    | documents documents =>
        obtain ⟨projection, projected, -⟩ :=
          Success.bind_eq_ok_iff.mp isCompiled
        rw [compileProjection_nested distinct] at projected
        exact ⟨projection, projected⟩
    | property loop property =>
        obtain ⟨⟨⟩, checked, -⟩ := Success.bind_eq_ok_iff.mp isCompiled
        rw [checkEmbedded_eq] at checked
        obtain ⟨entries, areEntries, -⟩ := Success.bind_eq_ok_iff.mp checked
        exact ⟨entries, areEntries⟩
  · intro hasFragment
    rcases hasFragment with ⟨field, fragment, found, accepts⟩
    obtain ⟨entries, areEntries⟩ := exists_entries_iff.mpr accepts
    cases fragment with
    | documents documents =>
        refine ⟨.documents { documents with projection := entries }, ?_⟩
        refine Success.bind_eq_ok_iff.mpr ⟨_, found, ?_⟩
        dsimp only
        rw [compileProjection_nested distinct]
        exact Success.bind_eq_ok_iff.mpr ⟨entries, areEntries, rfl⟩
    | property loop property =>
        refine ⟨.property loop property, ?_⟩
        refine Success.bind_eq_ok_iff.mpr ⟨_, found, ?_⟩
        dsimp only
        rw [checkEmbedded_eq]
        refine Success.bind_eq_ok_iff.mpr ⟨(), ?_, rfl⟩
        exact Success.bind_eq_ok_iff.mpr ⟨entries, areEntries, rfl⟩

/-- Whether a field with a declaration and readable arguments is accepted. -/
theorem exists_acceptsNested_iff
    (distinct : selection.HasDistinctKeys)
    (uses : compiler.Uses resultType selection field)
    (counted :
      ∃ arguments,
        CompiledArguments.ofSelection resultType selection = .ok arguments) :
    (∃ compiled,
        compiler.AcceptsNested resultType scope path selection compiled) ↔
      compiler.model.isLeaf field.type.namedType = selection.nested.isEmpty ∧
        ∃ inside,
          compiler.Opens field scope (path ++ [selection.responseKey]) inside ∧
            compiler.AcceptsAll field.type.namedType inside
              (path ++ [selection.responseKey]) selection.nested := by
  obtain ⟨owner, owned, declared⟩ := uses
  constructor
  · intro accepted
    rcases accepted with ⟨compiled, other, otherOwned, isCompiled⟩
    cases owned.symm.trans otherOwned
    obtain ⟨found, fragment, hasFragment, accepts⟩ :=
      (exists_compileField_iff distinct).mp ⟨compiled, isCompiled⟩
    obtain ⟨isDeclared, selected, arguments, -, generated⟩ :=
      fieldFragment_eq_ok_iff.mp hasFragment
    cases declared.symm.trans isDeclared
    exact ⟨checkSelected_eq_ok_iff.mp selected, innerScope fragment,
      ⟨owner, selection, arguments, fragment, generated, rfl⟩, accepts⟩
  · intro opened
    rcases opened with ⟨selected, inside, opens, accepts⟩
    obtain ⟨arguments, argued⟩ := counted
    obtain ⟨fragment, generated, isInside⟩ :=
      opens.exists_generate owner selection arguments
    have hasFragment :=
      fieldFragment_eq_ok_iff.mpr ⟨declared, checkSelected_eq_ok_iff.mpr selected,
        arguments, CompiledArguments.ofSelection_eq_ok argued owner, generated⟩
    obtain ⟨compiled, isCompiled⟩ :=
      (exists_compileField_iff distinct).mpr
        ⟨field, fragment, hasFragment, isInside ▸ accepts⟩
    exact ⟨compiled, owner, owned, isCompiled⟩

/--
Selections each of which could stand on its own: it is compiled by the
declaration of its response key, and its arguments can be read.
-/
structure Fits
    (compiler : Compiler)
    (resultType : String)
    (declaration : String → FieldDeclaration)
    (selections : List FieldSelection) : Prop where
  sameKind {first second : FieldSelection} :
    first ∈ selections →
      second ∈ selections →
        first.responseKey = second.responseKey →
          first.isTypename = second.isTypename
  uses {selection : FieldSelection} :
    selection ∈ selections →
      selection.isTypename = false →
        compiler.Uses resultType selection
          (declaration selection.responseKey)
  counted {selection : FieldSelection} :
    selection ∈ selections →
      selection.isTypename = false →
        ∃ arguments,
          CompiledArguments.ofSelection resultType selection = .ok arguments

/-- A selection that could stand on its own fits by itself. -/
theorem fits_singleton
    (uses :
      selection.isTypename = false → compiler.Uses resultType selection field)
    (counted :
      selection.isTypename = false →
        ∃ arguments,
          CompiledArguments.ofSelection resultType selection = .ok arguments) :
    compiler.Fits resultType (fun _ => field) [selection] where
  sameKind := by
    intro first second isFirst isSecond _
    rw [List.mem_singleton.mp isFirst, List.mem_singleton.mp isSecond]
  uses := by
    intro other member
    cases List.mem_singleton.mp member
    exact uses
  counted := by
    intro other member
    cases List.mem_singleton.mp member
    exact counted

variable {declaration : String → FieldDeclaration}
variable {selections kept all : List FieldSelection} {merged : FieldSelection}

/-- What is left of selections that fit still fits. -/
theorem Fits.pruned
    (fits : compiler.Fits resultType declaration all)
    (prunes : FieldSelection.Prunes kept all) :
    compiler.Fits resultType declaration kept where
  sameKind := by
    intro first second isFirst isSecond sameKey
    obtain ⟨original, isOriginal, _, rfl⟩ := prunes.exists_original isFirst
    obtain ⟨other, isOther, _, rfl⟩ := prunes.exists_original isSecond
    have sameKind := fits.sameKind isOriginal isOther
    exact sameKind sameKey
  uses := by
    intro selection member isField
    obtain ⟨original, isOriginal, _, rfl⟩ := prunes.exists_original member
    have uses := fits.uses isOriginal
    exact uses isField
  counted := by
    intro selection member isField
    obtain ⟨original, isOriginal, _, rfl⟩ := prunes.exists_original member
    have counted := fits.counted isOriginal
    exact counted isField

/-- The selections of one response key fit together when they are merged. -/
theorem Fits.exists_of_mem_merge
    (fits : compiler.Fits resultType declaration selections)
    (member : merged ∈ FieldSelection.merge selections) :
    ∃ first ∈ selections,
      first.responseKey = merged.responseKey ∧
        first.isTypename = merged.isTypename ∧
        (merged.isTypename = false →
          compiler.Uses resultType merged (declaration merged.responseKey) ∧
            ∃ arguments,
              CompiledArguments.ofSelection resultType merged =
                .ok arguments) := by
  obtain ⟨first, rest, sharing, isMerged⟩ :=
    FieldSelection.exists_of_mem_merge member
  have shared (other : FieldSelection) (isShared : other ∈ first :: rest) :
      other ∈ selections ∧ other.responseKey = merged.responseKey :=
    FieldSelection.mem_ofKey.mp (sharing ▸ isShared)
  obtain ⟨isFirst, firstKey⟩ := shared first List.mem_cons_self
  obtain ⟨name, arguments⟩ := FieldSelection.asked_foldl_combine first rest
  have sameKind : first.isTypename = merged.isTypename := by
    rw [isMerged, FieldSelection.isTypename, FieldSelection.isTypename,
      FieldSelection.selecting, name]
  refine ⟨first, isFirst, firstKey, sameKind, fun isField => ⟨?_, ?_⟩⟩
  · have usesShared (other : FieldSelection) (isShared : other ∈ first :: rest) :
        compiler.Uses resultType other (declaration merged.responseKey) := by
      obtain ⟨isSelected, sameKey⟩ := shared other isShared
      have otherIsField : other.isTypename = false := by
        rw [fits.sameKind isSelected isFirst (sameKey.trans firstKey.symm),
          sameKind, isField]
      exact sameKey ▸ fits.uses isSelected otherIsField
    have together :=
      (usesShared first List.mem_cons_self).foldl_combine fun other isOther =>
        usesShared other (List.mem_cons_of_mem _ isOther)
    generalize declaration merged.responseKey = field at together ⊢
    rw [isMerged]
    exact together
  · obtain ⟨compiled, argued⟩ :=
      fits.counted isFirst (sameKind.trans isField)
    refine ⟨compiled, ?_⟩
    rw [CompiledArguments.ofSelection] at argued ⊢
    rw [isMerged, FieldSelection.selecting, name, arguments]
    exact argued

/-- Selections that fit, at every depth, where each response key has one declaration. -/
inductive Agrees (compiler : Compiler) :
    String → List FieldSelection → Prop where
  | intro
      {resultType : String}
      {selections : List FieldSelection}
      (declaration : String → FieldDeclaration)
      (fits : compiler.Fits resultType declaration selections)
      (inside : ∀ selection ∈ selections,
        selection.isTypename = false →
          Agrees compiler (declaration selection.responseKey).type.namedType
            (FieldSelection.nestedUnder selection.responseKey selections)) :
      Agrees compiler resultType selections

/-- A merged field is accepted depending on what is selected under its response key. -/
theorem Fits.exists_accepts_iff
    {key : String}
    (fits : compiler.Fits resultType declaration selections)
    (member : merged ∈ FieldSelection.merge selections)
    (isField : merged.isTypename = false)
    (isKey : merged.responseKey = key) :
    (∃ compiled,
        compiler.AcceptsNested resultType scope path merged compiled) ↔
      compiler.model.isLeaf (declaration key).type.namedType =
          (FieldSelection.nestedUnder key selections).isEmpty ∧
        ∃ inside,
          compiler.Opens (declaration key) scope (path ++ [key]) inside ∧
            compiler.AcceptsAll (declaration key).type.namedType inside
              (path ++ [key])
              (FieldSelection.merge
                (FieldSelection.nestedUnder key selections)) := by
  subst isKey
  obtain ⟨_, -, -, -, facts⟩ := fits.exists_of_mem_merge member
  obtain ⟨uses, counted⟩ := facts isField
  have nested := FieldSelection.nested_of_mem_merge member
  have distinct : merged.HasDistinctKeys := by
    unfold FieldSelection.HasDistinctKeys
    rw [nested]
    exact FieldSelection.nodup_merge _
  rw [exists_acceptsNested_iff distinct uses counted, nested,
    FieldSelection.isEmpty_merge]

/-- A selection and the merged one of its response key are of one kind. -/
theorem Fits.exists_mem_merge
    (fits : compiler.Fits resultType declaration selections)
    (member : selection ∈ selections) :
    ∃ merged ∈ FieldSelection.merge selections,
      merged.responseKey = selection.responseKey ∧
        merged.isTypename = selection.isTypename := by
  obtain ⟨merged, isMerged, sameKey⟩ := FieldSelection.exists_mem_merge member
  obtain ⟨first, isFirst, firstKey, firstKind, -⟩ :=
    fits.exists_of_mem_merge isMerged
  refine ⟨merged, isMerged, sameKey, ?_⟩
  rw [← firstKind, fits.sameKind isFirst member (firstKey.trans sameKey)]

/-- Wherever all selections are accepted, what is left is accepted unless a field is emptied. -/
def PrunedAcceptably
    (compiler : Compiler)
    (resultType : String)
    (kept all : List FieldSelection) : Prop :=
  ∀ (scope : Scope) (path : List String),
    compiler.AcceptsAll resultType scope path (FieldSelection.merge all) →
      (compiler.AcceptsAll resultType scope path (FieldSelection.merge kept) ↔
        ¬ FieldSelection.Emptied kept all)

/-- A field that is left is accepted unless all that is selected in it is left out, or inside it. -/
theorem Fits.exists_accepts_pruned_iff
    (fits : compiler.Fits resultType declaration all)
    (prunes : FieldSelection.Prunes kept all)
    (accepts :
      compiler.AcceptsAll resultType scope path (FieldSelection.merge all))
    (inside : ∀ selection ∈ all,
      selection.isTypename = false →
        compiler.PrunedAcceptably
          (declaration selection.responseKey).type.namedType
          (FieldSelection.nestedUnder selection.responseKey kept)
          (FieldSelection.nestedUnder selection.responseKey all))
    (merged : FieldSelection)
    (member : merged ∈ FieldSelection.merge kept)
    (isField : merged.isTypename = false) :
    (∃ compiled,
        compiler.AcceptsNested resultType scope path merged compiled) ↔
      ¬ FieldSelection.EmptiedAt merged.responseKey kept all := by
  have keptFits := fits.pruned prunes
  obtain ⟨first, isFirst, firstKey, firstKind, -⟩ :=
    keptFits.exists_of_mem_merge member
  obtain ⟨original, isOriginal, _, rfl⟩ := prunes.exists_original isFirst
  have originalKey : original.responseKey = merged.responseKey := firstKey
  have originalIsField : original.isTypename = false := firstKind.trans isField
  obtain ⟨whole, isWhole, wholeKey, wholeKind⟩ :=
    fits.exists_mem_merge isOriginal
  have wholeIsField := wholeKind.trans originalIsField
  obtain ⟨wholeSelected, scopeInside, opens, innerAccepted⟩ :=
    (fits.exists_accepts_iff isWhole wholeIsField
      (wholeKey.trans originalKey)).mp (accepts whole isWhole wholeIsField)
  have insideIff := inside original isOriginal originalIsField
  rw [originalKey] at insideIff
  have innerIff := insideIff _ _ innerAccepted
  rw [keptFits.exists_accepts_iff member isField rfl]
  constructor
  · intro left emptied
    rcases left with ⟨selected, otherScope, opensToo, leftAccepted⟩
    cases opens.unique opensToo
    rcases emptied with ⟨nothing, something⟩ | emptiedInside
    · have sameEmpty := wholeSelected.symm.trans selected
      rw [Bool.eq_iff_iff, List.isEmpty_iff, List.isEmpty_iff] at sameEmpty
      exact something (sameEmpty.mpr nothing)
    · exact innerIff.mp leftAccepted emptiedInside
  · intro notEmptied
    obtain ⟨notHere, notInside⟩ := not_or.mp notEmptied
    refine ⟨?_, scopeInside, opens, innerIff.mpr notInside⟩
    rw [wholeSelected, Bool.eq_iff_iff, List.isEmpty_iff, List.isEmpty_iff]
    constructor
    · intro nothing
      have leftPrunes := prunes.nestedUnder merged.responseKey
      rw [nothing] at leftPrunes
      exact leftPrunes.eq_nil
    · intro nothing
      exact not_not.mp fun something => notHere ⟨nothing, something⟩

/--
Where all selections are accepted and each of them could stand on its own, those
that are left are accepted exactly if none of them is left with nothing selected
in it where something was.
-/
theorem Agrees.prunedAcceptably
    (agrees : compiler.Agrees resultType all)
    (prunes : FieldSelection.Prunes kept all) :
    compiler.PrunedAcceptably resultType kept all := by
  induction agrees generalizing kept with
  | @intro resultType all declaration fits _ inductionHypothesis =>
      intro scope path accepts
      have keptFits := fits.pruned prunes
      have each :=
        fits.exists_accepts_pruned_iff prunes accepts
          fun selection member isField =>
            inductionHypothesis selection member isField
              (prunes.nestedUnder selection.responseKey)
      constructor
      · intro keptAccepted emptied
        obtain ⟨selection, member, isField, cause⟩ :=
          FieldSelection.emptied_iff.mp emptied
        obtain ⟨merged, isMerged, sameKey, sameKind⟩ :=
          keptFits.exists_mem_merge member
        have mergedIsField := sameKind.trans isField
        refine (each merged isMerged mergedIsField).mp
          (keptAccepted merged isMerged mergedIsField) ?_
        rw [sameKey]
        exact cause
      · intro notEmptied merged isMerged isField
        refine (each merged isMerged isField).mpr fun cause => notEmptied ?_
        obtain ⟨first, isFirst, firstKey, firstKind, -⟩ :=
          keptFits.exists_of_mem_merge isMerged
        rw [← firstKey] at cause
        exact FieldSelection.emptied_iff.mpr
          ⟨first, isFirst, firstKind.trans isField, cause⟩

end Compiler

end GraphGate
