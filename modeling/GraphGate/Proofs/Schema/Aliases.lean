import GraphGate.Proofs.Catalogue
import GraphGate.Proofs.Success
import GraphGate.Schema.Builder

namespace GraphGate

/-!
# Gathering aliases

Aliases that are declared apart from a type are added to those it has by its
directives. All of them make up a table, which finds for every alias the type
that has it. This goes well exactly if every alias is declared for a type that
is there, has a name that is still free, and belongs to one type only.
-/

namespace TypeDeclaration

variable {before declaration : TypeDeclaration}
variable {passed : List (String × String)} {pair : String × String}

/--
A declaration with the aliases that are declared for it apart, and otherwise as
it was. An alias that it has already is not added again.
-/
structure AliasedBy
    (pairs : List (String × String))
    (before after : TypeDeclaration) : Prop where
  name : after.name = before.name
  kind : after.kind = before.kind
  fields : after.fields = before.fields
  storage : after.directives.storage = before.directives.storage
  discriminator :
    after.directives.discriminator = before.directives.discriminator
  aliases :
    ∃ added,
      after.directives.aliases = before.directives.aliases ++ added ∧
        added.Nodup ∧
        ∀ label,
          label ∈ added ↔
            (label, before.name) ∈ pairs ∧
              label ∉ before.directives.aliases

theorem AliasedBy.keepsName
    (pairs : List (String × String))
    (before after : TypeDeclaration)
    (aliased : AliasedBy pairs before after) :
    Named.name after = Named.name before :=
  aliased.name

/-- The aliases are those by directive and those declared apart. -/
theorem AliasedBy.mem_aliases_iff
    {pairs : List (String × String)}
    {after : TypeDeclaration}
    (aliased : AliasedBy pairs before after)
    (label : String) :
    label ∈ after.directives.aliases ↔
      label ∈ before.directives.aliases ∨ (label, before.name) ∈ pairs := by
  obtain ⟨added, appended, -, isAdded⟩ := aliased.aliases
  rw [appended, List.mem_append, isAdded]
  by_cases present : label ∈ before.directives.aliases
  · simp [present]
  · simp [present]

theorem aliasedBy_nil (declaration : TypeDeclaration) :
    AliasedBy [] declaration declaration where
  name := rfl
  kind := rfl
  fields := rfl
  storage := rfl
  discriminator := rfl
  aliases := ⟨[], (List.append_nil _).symm, List.nodup_nil, by simp⟩

theorem name_addAlias (declaration : TypeDeclaration) (label : String) :
    (declaration.addAlias label).name = declaration.name := by
  unfold addAlias
  split
  · rfl
  · rfl

theorem AliasedBy.add
    (earlier : AliasedBy passed before declaration)
    (named : pair.2 = before.name) :
    AliasedBy (passed ++ [pair]) before (declaration.addAlias pair.1) := by
  obtain ⟨label, canonical⟩ := pair
  subst named
  obtain ⟨added, appended, distinct, isAdded⟩ := earlier.aliases
  unfold addAlias
  by_cases present : label ∈ declaration.directives.aliases
  · rw [if_pos (List.contains_iff_mem.mpr present)]
    refine { earlier with aliases := ⟨added, appended, distinct, ?_⟩ }
    intro other
    rw [isAdded, List.mem_append, List.mem_singleton, Prod.mk.injEq]
    have known := (earlier.mem_aliases_iff label).mp present
    constructor
    · rintro ⟨among, fresh⟩
      exact ⟨.inl among, fresh⟩
    · rintro ⟨among | ⟨rfl, -⟩, fresh⟩
      · exact ⟨among, fresh⟩
      · exact ⟨known.resolve_left fresh, fresh⟩
  · have absent := present
    rw [appended, List.mem_append, not_or] at absent
    obtain ⟨notOwn, notAdded⟩ := absent
    rw [if_neg (by simpa using present)]
    refine { earlier with aliases := ⟨added ++ [label], ?_, ?_, ?_⟩ }
    · rw [appended, List.append_assoc]
    · rw [List.nodup_append]
      refine ⟨distinct, by simp, ?_⟩
      intro other member last isLast same
      rw [List.mem_singleton.mp isLast] at same
      exact notAdded (same ▸ member)
    · intro other
      rw [List.mem_append, isAdded, List.mem_singleton, List.mem_append,
        List.mem_singleton, Prod.mk.injEq]
      constructor
      · rintro (⟨among, fresh⟩ | rfl)
        · exact ⟨.inl among, fresh⟩
        · exact ⟨.inr ⟨rfl, rfl⟩, notOwn⟩
      · rintro ⟨among | ⟨rfl, -⟩, fresh⟩
        · exact .inl ⟨among, fresh⟩
        · exact .inr rfl

theorem AliasedBy.skip
    (earlier : AliasedBy passed before declaration)
    (other : pair.2 ≠ before.name) :
    AliasedBy (passed ++ [pair]) before declaration := by
  obtain ⟨added, appended, distinct, isAdded⟩ := earlier.aliases
  refine { earlier with aliases := ⟨added, appended, distinct, ?_⟩ }
  intro label
  have different : (label, before.name) ≠ pair := by
    rintro rfl
    exact other rfl
  rw [isAdded, List.mem_append, List.mem_singleton]
  simp [different]

end TypeDeclaration

namespace ModelBuilder

open TypeDeclaration

variable {types before after aliased : Catalogue TypeDeclaration}
variable {pairs passed : List (String × String)} {pair : String × String}
variable {table following : Table String}

/-! The aliases of the types. -/

/-- The types to which aliases have been added. -/
def Aliases
    (types : Catalogue TypeDeclaration)
    (pairs : List (String × String))
    (aliased : Catalogue TypeDeclaration) : Prop :=
  Catalogue.ChangedBy Prod.snd AliasedBy types pairs aliased

theorem Aliases.applyAlias
    (earlier : Aliases types passed before)
    (applied : applyAlias before pair = .ok after) :
    Aliases types (passed ++ [pair]) after := by
  unfold ModelBuilder.applyAlias at applied
  split at applied
  · cases applied
  · rename_i declaration found
    cases applied
    have sameName : (declaration.addAlias pair.1).name = declaration.name :=
      name_addAlias declaration pair.1
    refine Catalogue.ChangedBy.put AliasedBy.keepsName earlier found sameName
      ?_ ?_
    · intro origin named here
      exact AliasedBy.add here named.symm
    · intro origin image other here
      exact AliasedBy.skip here (Ne.symm other)

theorem aliases_of_applied
    (applied : pairs.foldlM applyAlias types = .ok aliased) :
    Aliases types pairs aliased :=
  Success.foldlM_induction (motive := Aliases types) applied
    (Catalogue.ChangedBy.nil aliasedBy_nil types)
    fun _ _ _ _ stepped earlier => earlier.applyAlias stepped

/-- Aliases can be added exactly if each is declared for a type that is there. -/
theorem exists_aliased_iff :
    (∃ aliased, pairs.foldlM applyAlias types = .ok aliased) ↔
      ∀ pair ∈ pairs, types.has pair.2 = true := by
  constructor
  · rintro ⟨aliased, applied⟩
    exact (aliases_of_applied applied).named
  · intro declared
    refine Success.exists_foldlM_of_mem (motive := Aliases types)
      (Catalogue.ChangedBy.nil aliasedBy_nil types) ?_
    intro passed pair before member _ earlier
    have named : types.has pair.2 = true :=
      declared pair member
    obtain ⟨declaration, found, -⟩ :=
      Catalogue.ChangedBy.exists_named AliasedBy.keepsName earlier named
    have applied :
        applyAlias before pair =
          .ok (before.put (declaration.addAlias pair.1)) := by
      simp only [applyAlias, found]
    exact ⟨_, applied, earlier.applyAlias applied⟩

/-! The table of all aliases. -/

/-- Whether neither a declared type nor a built-in scalar has a name. -/
def IsFree (types : Catalogue TypeDeclaration) (name : String) : Prop :=
  types.has name = false ∧ name ∉ builtinScalars

/-- The table of some aliases, none of which is the name of a type. -/
structure Tabulates
    (types : Catalogue TypeDeclaration)
    (pairs : List (String × String))
    (table : Table String) : Prop where
  free : ∀ pair ∈ pairs, IsFree types pair.1
  entries : ∀ label canonical,
    table.get? label = some canonical ↔ (label, canonical) ∈ pairs

/-- No two of the pairs give one alias to different types. -/
def Consistent (pairs : List (String × String)) : Prop :=
  ∀ label first second,
    (label, first) ∈ pairs → (label, second) ∈ pairs → first = second

theorem Tabulates.consistent
    (tabulates : Tabulates types pairs table) :
    Consistent pairs := by
  intro label first second isFirst isSecond
  have foundFirst := (tabulates.entries label first).mpr isFirst
  have foundSecond := (tabulates.entries label second).mpr isSecond
  rw [foundFirst] at foundSecond
  exact Option.some.inj foundSecond

theorem Tabulates.addAlias
    (earlier : Tabulates types passed table)
    (added : addAlias types table pair = .ok following) :
    Tabulates types (passed ++ [pair]) following := by
  obtain ⟨label, canonical⟩ := pair
  simp only [ModelBuilder.addAlias] at added
  split at added
  · cases added
  · rename_i unused
    rw [Bool.or_eq_true, not_or, Bool.not_eq_true, List.contains_iff_mem]
      at unused
    refine ⟨?_, ?_⟩
    · intro other member
      rcases List.mem_append.mp member with old | new
      · exact earlier.free other old
      · rw [List.mem_singleton.mp new]
        exact unused
    · intro other type
      rw [List.mem_append, List.mem_singleton, Prod.mk.injEq,
        ← earlier.entries]
      split at added
      · rename_i existing found
        split at added
        · rename_i same
          cases added
          constructor
          · exact .inl
          · rintro (among | ⟨rfl, rfl⟩)
            · exact among
            · rw [found, same]
        · cases added
      · rename_i missing
        cases added
        rw [Table.get?_append, Table.get?_cons, Table.get?_nil]
        by_cases isLabel : label = other
        · subst isLabel
          rw [if_pos rfl, missing]
          simp [eq_comm]
        · rw [if_neg isLabel, Option.or_none]
          simp [Ne.symm isLabel]

theorem tabulates_nil (types : Catalogue TypeDeclaration) :
    Tabulates types [] [] where
  free := fun _ member => nomatch member
  entries := fun _ _ => by simp

theorem tabulates_of_gathered
    (gathered : pairs.foldlM (addAlias types) [] = .ok table) :
    Tabulates types pairs table :=
  Success.foldlM_induction (motive := Tabulates types) gathered
    (tabulates_nil types)
    fun _ _ _ _ stepped earlier => earlier.addAlias stepped

/-- The aliases make up a table exactly if their names are free and each belongs to one type. -/
theorem exists_gathered_iff :
    (∃ table, pairs.foldlM (addAlias types) [] = .ok table) ↔
      (∀ pair ∈ pairs, IsFree types pair.1) ∧ Consistent pairs := by
  constructor
  · rintro ⟨table, gathered⟩
    have tabulates := tabulates_of_gathered gathered
    exact ⟨tabulates.free, tabulates.consistent⟩
  · rintro ⟨free, consistent⟩
    refine Success.exists_foldlM_of_mem (motive := Tabulates types)
      (tabulates_nil types) ?_
    intro passed pair table member within earlier
    suffices progress : ∃ following, addAlias types table pair = .ok following by
      obtain ⟨following, added⟩ := progress
      exact ⟨following, added, earlier.addAlias added⟩
    obtain ⟨label, canonical⟩ := pair
    obtain ⟨undeclared, notBuiltin⟩ := free _ member
    have unused :
        ¬ (types.has label || builtinScalars.contains label) = true := by
      rw [Bool.or_eq_true, not_or, Bool.not_eq_true, List.contains_iff_mem]
      exact ⟨undeclared, notBuiltin⟩
    simp only [addAlias, if_neg unused]
    cases found : table.get? label with
    | none =>
        exact ⟨_, rfl⟩
    | some existing =>
        have among := within ((earlier.entries label existing).mp found)
        have same := consistent label existing canonical among member
        exact ⟨table, if_pos same⟩

end ModelBuilder

end GraphGate
