import GraphGate.Proofs.Schema.Building

namespace GraphGate

/-!
# Declarations in another order

The calls on a builder can be made in any order: whether they go well depends on
the names that they declare, and the builder then holds the same declarations in
another order. Whether these are well-formed does not depend on their order.
-/

namespace TypeExtension

variable {first second : List TypeExtension}

theorem perm_fieldsFor
    (permutation : first.Perm second)
    (name : String) :
    (fieldsFor first name).Perm (fieldsFor second name) :=
  (permutation.filter _).flatMap_right _

theorem perm_interfacesFor
    (permutation : first.Perm second)
    (name : String) :
    (interfacesFor first name).Perm (interfacesFor second name) :=
  (permutation.filter _).flatMap_right _

end TypeExtension

namespace ModelBuilder

variable {builder first second : ModelBuilder}
variable {calls others : List BuilderCall}
variable {declared : TypeDeclaration}

/-- Calls go well exactly if they declare no type twice and none that is built in. -/
theorem exists_performed_iff :
    (∃ builder, calls.foldlM perform empty = .ok builder) ↔
      ((calls.filterMap BuilderCall.type?).map Named.name).Nodup ∧
        ∀ declaration ∈ calls.filterMap BuilderCall.type?,
          declaration.name ∉ builtinScalars := by
  constructor
  · rintro ⟨builder, performed⟩
    have records := records_of_performed performed
    rw [← records.types]
    refine ⟨builder.types.distinct, ?_⟩
    intro declaration member
    exact records.notBuiltin _ (List.mem_map_of_mem member)
  · rintro ⟨distinct, notBuiltin⟩
    refine Success.exists_foldlM (motive := Records) records_nil ?_
    intro passed call rest before isWhole earlier
    suffices progress : ∃ after, before.perform call = .ok after by
      obtain ⟨after, performed⟩ := progress
      exact ⟨after, performed, earlier.perform performed⟩
    cases call with
    | declareAlias label canonical =>
        exact ⟨_, rfl⟩
    | extendType extension =>
        exact ⟨_, rfl⟩
    | setQueryType name =>
        exact ⟨_, rfl⟩
    | declareType declaration =>
        have whole :
            calls.filterMap BuilderCall.type? =
              before.types.items ++
                declaration :: rest.filterMap BuilderCall.type? := by
          rw [← isWhole, List.filterMap_append, ← earlier.types]
          rfl
        rw [whole] at distinct notBuiltin
        have free : Named.name declaration ∉ before.types.names := by
          rw [List.map_append, List.nodup_append] at distinct
          intro taken
          exact distinct.2.2 _ taken _ List.mem_cons_self rfl
        have own : ¬ builtinScalars.contains declaration.name = true := by
          rw [List.contains_iff_mem]
          exact notBuiltin declaration
            (List.mem_append_right _ List.mem_cons_self)
        obtain ⟨types, added⟩ := Catalogue.exists_add?_iff.mpr free
        refine ⟨{ before with types := types }, ?_⟩
        show before.declareType declaration = _
        rw [declareType, if_neg own, added]

/-- Whether calls go well does not depend on their order. -/
theorem exists_performed_iff_of_perm
    (permutation : calls.Perm others) :
    (∃ builder, calls.foldlM perform empty = .ok builder) ↔
      ∃ builder, others.foldlM perform empty = .ok builder := by
  have types := permutation.filterMap BuilderCall.type?
  rw [exists_performed_iff, exists_performed_iff,
    (types.map Named.name).nodup_iff]
  simp only [types.mem_iff]

/-- Two builders that hold the same declarations in different orders. -/
structure Rearranges (first second : ModelBuilder) : Prop where
  types : first.types.items.Perm second.types.items
  aliases : first.aliases.Perm second.aliases
  extensions : first.extensions.Perm second.extensions
  queryTypeName : first.queryTypeName = second.queryTypeName

theorem getLast?_eq_of_perm
    {α : Type}
    {items rearranged : List α}
    (permutation : items.Perm rearranged)
    (single : items.length ≤ 1) :
    items.getLast? = rearranged.getLast? := by
  cases items with
  | nil =>
      rw [permutation.nil_eq]
  | cons item rest =>
      have alone : rest = [] := by
        rw [List.length_cons] at single
        exact List.length_eq_zero_iff.mp (by omega)
      subst alone
      rw [List.singleton_perm.mp permutation]

/-- Calls in another order leave the same declarations in another order. -/
theorem rearranges_of_performed
    (permutation : calls.Perm others)
    (single : (calls.filterMap BuilderCall.queryType?).length ≤ 1)
    (performed : calls.foldlM perform empty = .ok first)
    (performedToo : others.foldlM perform empty = .ok second) :
    Rearranges first second := by
  have records := records_of_performed performed
  have recordsToo := records_of_performed performedToo
  refine ⟨?_, ?_, ?_, ?_⟩
  · rw [records.types, recordsToo.types]
    exact permutation.filterMap _
  · rw [records.aliases, recordsToo.aliases]
    exact permutation.filterMap _
  · rw [records.extensions, recordsToo.extensions]
    exact permutation.filterMap _
  · rw [records.queryTypeName, recordsToo.queryTypeName]
    exact getLast?_eq_of_perm (permutation.filterMap _) single

namespace Rearranges

variable (rearranges : Rearranges first second)

include rearranges

theorem symm : Rearranges second first where
  types := rearranges.types.symm
  aliases := rearranges.aliases.symm
  extensions := rearranges.extensions.symm
  queryTypeName := rearranges.queryTypeName.symm

theorem has_eq (name : String) :
    first.types.has name = second.types.has name := by
  rw [Bool.eq_iff_iff, Catalogue.has_iff_mem, Catalogue.has_iff_mem]
  exact (rearranges.types.map Named.name).mem_iff

theorem fieldsOf (declared : TypeDeclaration) :
    (first.fieldsOf declared).Perm (second.fieldsOf declared) :=
  (TypeExtension.perm_fieldsFor rearranges.extensions _).append_left _

theorem labels : first.labels.Perm second.labels :=
  (rearranges.types.flatMap_right _).append rearranges.aliases

theorem declaresObject_iff (name : String) :
    first.DeclaresObject name ↔ second.DeclaresObject name := by
  simp only [DeclaresObject, rearranges.types.mem_iff]

theorem declaresInterface_iff (name : String) :
    first.DeclaresInterface name ↔ second.DeclaresInterface name := by
  simp only [DeclaresInterface, rearranges.types.mem_iff]

theorem isFree_iff (name : String) :
    IsFree first.types name ↔ IsFree second.types name := by
  rw [IsFree, IsFree, rearranges.has_eq]

theorem uses
    {collection : String}
    {kind : CollectionKind}
    (uses : first.Uses collection kind) :
    second.Uses collection kind := by
  cases uses with
  | stored isDeclared isStored =>
      exact .stored (rearranges.types.mem_iff.mp isDeclared) isStored
  | related isDeclared isField isRelated =>
      exact .related (rearranges.types.mem_iff.mp isDeclared)
        ((rearranges.fieldsOf _).mem_iff.mp isField) isRelated

/-- What is asked of a type is asked of the same declarations in any order. -/
theorem wellFormedType
    (wellFormed : first.WellFormedType declared) :
    second.WellFormedType declared := by
  have fields := rearranges.fieldsOf declared
  have interfaces :=
    TypeExtension.perm_interfacesFor rearranges.extensions declared.name
  refine ⟨?_, wellFormed.storage, wellFormed.discriminator, ?_, ?_, ?_, ?_, ?_⟩
  · exact (fields.map Named.name).nodup_iff.mp wellFormed.fieldNames
  · intro label isLabel
    exact wellFormed.aliases label (rearranges.labels.mem_iff.mpr isLabel)
  · intro field isField
    exact wellFormed.indexes field (fields.mem_iff.mpr isField)
  · intro field isField
    rw [← rearranges.has_eq]
    exact wellFormed.fieldTypes field (fields.mem_iff.mpr isField)
  · intro own isObject name among
    rw [← rearranges.declaresInterface_iff]
    exact wellFormed.interfaces own isObject name
      ((interfaces.append_left own).mem_iff.mpr among)
  · intro members isUnion name among
    rw [← rearranges.declaresObject_iff]
    exact wellFormed.members members isUnion name among

/-- Declarations that are well-formed are so in any order. -/
theorem wellFormed
    (wellFormed : first.WellFormed) :
    second.WellFormed := by
  refine ⟨?_, ?_, ?_, ?_, ?_, ?_, ?_⟩
  · intro extension member
    rw [← rearranges.has_eq]
    exact wellFormed.extensions extension
      (rearranges.extensions.mem_iff.mpr member)
  · intro declared isDeclared
    exact rearranges.wellFormedType
      (wellFormed.types declared (rearranges.types.mem_iff.mpr isDeclared))
  · intro pair member
    rw [← rearranges.has_eq]
    exact wellFormed.aliasTargets pair (rearranges.aliases.mem_iff.mpr member)
  · intro pair member
    rw [← rearranges.isFree_iff]
    exact wellFormed.aliasNames pair (rearranges.labels.mem_iff.mpr member)
  · intro label one other isOne isOther
    exact wellFormed.aliasOwners label one other
      (rearranges.labels.mem_iff.mpr isOne)
      (rearranges.labels.mem_iff.mpr isOther)
  · intro name isSet
    rw [← rearranges.has_eq]
    exact wellFormed.queryType name (rearranges.queryTypeName.trans isSet)
  · intro collection one other isOne isOther
    exact wellFormed.collections collection one other
      (rearranges.symm.uses isOne) (rearranges.symm.uses isOther)

end Rearranges

/-- Whether a model is built does not depend on the order of the declarations. -/
theorem Rearranges.exists_build_iff
    (rearranges : Rearranges first second) :
    (∃ model, first.build = .ok model) ↔ ∃ model, second.build = .ok model := by
  constructor
  · rintro ⟨model, built⟩
    exact exists_build_of_wellFormed
      (rearranges.wellFormed (wellFormed_and_assembles_of_build built).1)
  · rintro ⟨model, built⟩
    exact exists_build_of_wellFormed
      (rearranges.symm.wellFormed (wellFormed_and_assembles_of_build built).1)

end ModelBuilder

end GraphGate
