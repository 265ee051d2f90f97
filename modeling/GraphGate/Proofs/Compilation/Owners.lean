import GraphGate.Proofs.Compilation.Scoping
import GraphGate.Proofs.Compilation.TypeConditions
import GraphGate.Proofs.Merging

namespace GraphGate

/-!
# The declaration that a nested field is compiled by

Without type conditions a nested field is compiled by its declaration on the
result type. Under type conditions it is compiled by the declaration that all of
them which have the field agree on. So selections that are each compiled by one
declaration are compiled by it when they are put together.
-/

namespace Compiler

variable {compiler : Compiler} {resultType : String}
variable {nested : FieldSelection} {field : FieldDeclaration}

/-- A type condition can apply, and it has the field by a declaration if it has it at all. -/
structure Permits
    (compiler : Compiler)
    (resultType name : String)
    (field : FieldDeclaration)
    (condition : String) : Prop where
  joined : compiler.model.isApart condition resultType = false
  agrees {other : FieldDeclaration} :
    compiler.model.field? condition name = some other → other = field

/-- The declarations of a field by types that have it, each with its type. -/
def declaring
    (compiler : Compiler)
    (name : String)
    (conditions : List String) : List OwnedField :=
  conditions.filterMap fun condition =>
    (compiler.model.field? condition name).map (condition, ·)

theorem mem_declaring
    {name condition : String}
    {conditions : List String} :
    (condition, field) ∈ compiler.declaring name conditions ↔
      condition ∈ conditions ∧
        compiler.model.field? condition name = some field := by
  unfold declaring
  rw [List.mem_filterMap]
  constructor
  · intro declares
    rcases declares with ⟨other, member, found⟩
    obtain ⟨declared, isDeclared, same⟩ := Option.map_eq_some_iff.mp found
    cases same
    exact ⟨member, isDeclared⟩
  · intro declares
    rcases declares with ⟨member, declared⟩
    exact ⟨condition, member, by rw [declared]; rfl⟩

theorem declared_of_declaring_eq_cons
    {name owner : String}
    {conditions : List String}
    {others : List OwnedField}
    (isDeclaring :
      compiler.declaring name conditions = (owner, field) :: others) :
    owner ∈ conditions ∧ compiler.model.field? owner name = some field := by
  have declares : (owner, field) ∈ compiler.declaring name conditions := by
    rw [isDeclaring]
    exact List.mem_cons_self
  exact mem_declaring.mp declares

/-- Declarations of one field name are the same if they agree on type and directives. -/
theorem eq_of_field?
    {name type otherType : String}
    {other : FieldDeclaration}
    (declared : compiler.model.field? type name = some field)
    (declaredToo : compiler.model.field? otherType name = some other)
    (sameType : other.type = field.type)
    (sameDirectives : other.directives = field.directives) :
    other = field := by
  have sameName :=
    (Model.name_of_field? declaredToo).trans (Model.name_of_field? declared).symm
  cases field
  cases other
  cases sameName
  cases sameType
  cases sameDirectives
  rfl

/-- Under type conditions the owner is looked for among the types that have the field. -/
theorem ownerType_of_conditions
    {first : String}
    {rest : List String}
    (conditions : nested.conditions = first :: rest) :
    compiler.ownerType resultType nested =
      match (first :: rest).find? (compiler.model.isApart · resultType) with
      | some condition =>
          .error ⟨resultType, nested.name, .neverApplies condition resultType⟩
      | none =>
          match compiler.declaring nested.name (first :: rest) with
          | [] => .ok first
          | (owner, field) :: others =>
              match others.find? fun other =>
                  other.2.type ≠ field.type ∨
                    other.2.directives ≠ field.directives with
              | some (other, _) =>
                  .error ⟨resultType, nested.name,
                    .declaredDifferently owner other⟩
              | none => .ok owner := by
  unfold ownerType
  rw [conditions]
  rfl

/-- Under type conditions, the owner is that of the first of the declarations, which all agree. -/
theorem ownerType_eq_ok_iff
    {first owner : String}
    {rest : List String}
    (conditions : nested.conditions = first :: rest) :
    compiler.ownerType resultType nested = .ok owner ↔
      (first :: rest).find? (compiler.model.isApart · resultType) = none ∧
        (compiler.declaring nested.name (first :: rest) = [] ∧ owner = first ∨
          ∃ field others,
            compiler.declaring nested.name (first :: rest) =
                (owner, field) :: others ∧
              ∀ other ∈ others,
                other.2.type = field.type ∧
                  other.2.directives = field.directives) := by
  rw [ownerType_of_conditions conditions]
  cases (first :: rest).find? (compiler.model.isApart · resultType) with
  | some condition =>
      simp
  | none =>
      cases compiler.declaring nested.name (first :: rest) with
      | nil =>
          simp only [Except.ok.injEq, true_and, reduceCtorEq, false_and,
            exists_false, or_false]
          exact eq_comm
      | cons owned others =>
          obtain ⟨type, field⟩ := owned
          dsimp only
          cases differing :
              others.find? fun other =>
                other.2.type ≠ field.type ∨
                  other.2.directives ≠ field.directives with
          | some other =>
              have differs := List.find?_some differing
              have member := List.mem_of_find?_eq_some differing
              constructor
              · intro refused
                cases refused
              · intro determined
                rcases determined with ⟨_, cause⟩
                rcases cause with ⟨nothing, -⟩ | ⟨declared, more, same, agree⟩
                · cases nothing
                · cases same
                  simp [agree other member] at differs
          | none =>
              have agree := List.find?_eq_none.mp differing
              constructor
              · intro found
                cases found
                refine ⟨rfl, .inr ⟨field, others, rfl, ?_⟩⟩
                intro other member
                simpa using agree other member
              · intro determined
                rcases determined with ⟨_, cause⟩
                rcases cause with ⟨nothing, -⟩ | ⟨declared, more, same, -⟩
                · cases nothing
                · cases same
                  rfl

/-- An owner that type conditions determine is one of them, and all of them permit its declaration. -/
theorem permits_of_owned
    {first owner : String}
    {rest : List String}
    (conditions : nested.conditions = first :: rest)
    (owned : compiler.ownerType resultType nested = .ok owner)
    (declared : compiler.model.field? owner nested.name = some field) :
    owner ∈ first :: rest ∧
      ∀ condition ∈ first :: rest,
        compiler.Permits resultType nested.name field condition := by
  obtain ⟨joined, cause⟩ := (ownerType_eq_ok_iff conditions).mp owned
  rcases cause with ⟨nothing, isFirst⟩ | ⟨found, others, isDeclaring, agree⟩
  · have declares :
        (owner, field) ∈ compiler.declaring nested.name (first :: rest) :=
      mem_declaring.mpr ⟨by simp [isFirst], declared⟩
    rw [nothing] at declares
    cases declares
  · obtain ⟨isCondition, isFound⟩ := declared_of_declaring_eq_cons isDeclaring
    cases declared.symm.trans isFound
    refine ⟨isCondition, fun condition member => ⟨?_, ?_⟩⟩
    · simpa using List.find?_eq_none.mp joined condition member
    · intro other otherDeclared
      have otherDeclares := mem_declaring.mpr ⟨member, otherDeclared⟩
      rw [isDeclaring] at otherDeclares
      rcases List.mem_cons.mp otherDeclares with isFirst | inRest
      · cases isFirst
        rfl
      · obtain ⟨sameType, sameDirectives⟩ := agree _ inRest
        exact eq_of_field? declared otherDeclared sameType sameDirectives

/-- A declaration that all type conditions permit, and one of them has, is that of an owner. -/
theorem exists_owned_of_permits
    {first condition : String}
    {rest : List String}
    (conditions : nested.conditions = first :: rest)
    (permits : ∀ condition ∈ first :: rest,
      compiler.Permits resultType nested.name field condition)
    (member : condition ∈ first :: rest)
    (declared : compiler.model.field? condition nested.name = some field) :
    ∃ owner,
      compiler.ownerType resultType nested = .ok owner ∧
        compiler.model.field? owner nested.name = some field := by
  have joined :
      (first :: rest).find? (compiler.model.isApart · resultType) = none := by
    refine List.find?_eq_none.mpr fun other isOther => ?_
    rw [(permits other isOther).joined]
    exact Bool.false_ne_true
  have each :
      ∀ owned ∈ compiler.declaring nested.name (first :: rest),
        owned.2 = field := by
    intro owned isOwned
    obtain ⟨isCondition, isDeclared⟩ := mem_declaring.mp isOwned
    exact (permits _ isCondition).agrees isDeclared
  have declares := mem_declaring.mpr ⟨member, declared⟩
  cases isDeclaring : compiler.declaring nested.name (first :: rest) with
  | nil =>
      rw [isDeclaring] at declares
      cases declares
  | cons owned others =>
      rw [isDeclaring] at each
      obtain ⟨owner, found⟩ := owned
      obtain ⟨isField, othersAgree⟩ := List.forall_mem_cons.mp each
      cases isField
      have agree :
          ∀ other ∈ others,
            other.2.type = found.type ∧
              other.2.directives = found.directives := by
        intro other isOther
        rw [othersAgree other isOther]
        exact ⟨rfl, rfl⟩
      exact ⟨owner,
        (ownerType_eq_ok_iff conditions).mpr
          ⟨joined, .inr ⟨found, others, isDeclaring, agree⟩⟩,
        (declared_of_declaring_eq_cons isDeclaring).2⟩

/--
The declaration that a nested field is compiled by: that of the result type, or
under type conditions the one that all of them which have the field agree on.
-/
theorem uses_iff :
    compiler.Uses resultType nested field ↔
      nested.conditions = [] ∧
          compiler.model.field? resultType nested.name = some field ∨
        (∀ condition ∈ nested.conditions,
            compiler.Permits resultType nested.name field condition) ∧
          ∃ condition ∈ nested.conditions,
            compiler.model.field? condition nested.name = some field := by
  unfold Uses
  cases conditions : nested.conditions with
  | nil =>
      simp [ownerType, conditions]
  | cons first rest =>
      simp only [reduceCtorEq, false_and, false_or]
      constructor
      · rintro ⟨owner, owned, declared⟩
        obtain ⟨isCondition, permits⟩ :=
          permits_of_owned conditions owned declared
        exact ⟨permits, owner, isCondition, declared⟩
      · rintro ⟨permits, condition, member, declared⟩
        exact exists_owned_of_permits conditions permits member declared

/-- A field is compiled by a declaration of its name. -/
theorem Uses.name_eq (uses : compiler.Uses resultType nested field) :
    field.name = nested.name := by
  obtain ⟨owner, -, declared⟩ := uses
  exact Model.name_of_field? declared

/-- Two selections that are compiled by one declaration are compiled by it together. -/
theorem Uses.combine
    {first second : FieldSelection}
    (uses : compiler.Uses resultType first field)
    (usesToo : compiler.Uses resultType second field) :
    compiler.Uses resultType (first.combine second) field := by
  have sameName : second.name = first.name :=
    usesToo.name_eq.symm.trans uses.name_eq
  have name : (first.combine second).name = first.name := rfl
  have conditions :
      (first.combine second).conditions =
        FieldSelection.mergeConditions first.conditions second.conditions :=
    rfl
  rw [uses_iff] at uses usesToo ⊢
  rw [name, conditions]
  rw [sameName] at usesToo
  rcases uses with ⟨missing, declared⟩ | ⟨permits, condition, member, declared⟩
  · exact .inl
      ⟨FieldSelection.mergeConditions_eq_nil (.inl missing), declared⟩
  · rcases usesToo with
      ⟨missing, declaredToo⟩ | ⟨permitsToo, other, otherMember, -⟩
    · exact .inl
        ⟨FieldSelection.mergeConditions_eq_nil (.inr missing), declaredToo⟩
    · have joined (type : String) :
          type ∈ FieldSelection.mergeConditions first.conditions
              second.conditions ↔
            type ∈ first.conditions ∨ type ∈ second.conditions :=
        FieldSelection.mem_mergeConditions (List.ne_nil_of_mem member)
          (List.ne_nil_of_mem otherMember)
      refine .inr ⟨fun type isCondition => ?_,
        condition, (joined condition).mpr (.inl member), declared⟩
      rcases (joined type).mp isCondition with inFirst | inSecond
      · exact permits type inFirst
      · exact permitsToo type inSecond

theorem Uses.foldl_combine
    {first : FieldSelection}
    {rest : List FieldSelection}
    (uses : compiler.Uses resultType first field)
    (others : ∀ other ∈ rest, compiler.Uses resultType other field) :
    compiler.Uses resultType (rest.foldl FieldSelection.combine first) field := by
  induction rest generalizing first with
  | nil =>
      exact uses
  | cons second rest inductionHypothesis =>
      obtain ⟨usesToo, following⟩ := List.forall_mem_cons.mp others
      exact inductionHypothesis (uses.combine usesToo) following

end Compiler

end GraphGate
