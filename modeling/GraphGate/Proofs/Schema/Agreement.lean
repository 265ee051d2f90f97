import GraphGate.Proofs.Provisioning.PlanOrder
import GraphGate.Proofs.Schema.Registering

namespace GraphGate

/-!
# Schemas do not depend on order

The calls that declare a schema can come in any order, as from files that are
read one after another. Either all orders go through, or none does, and whatever
is asked of the models has the same answer.
-/

/-- Models that answer alike whatever is asked of them. -/
structure Model.AgreesWith (first second : Model) : Prop where
  types : ∀ name,
    Option.Rel TypeDeclaration.Resembles (first.type? name)
      (second.type? name)
  fields : ∀ type name, first.field? type name = second.field? type name
  queryType : first.queryTypeName = second.queryTypeName
  subtypes : ∀ concrete declared,
    first.isSubtype concrete declared = second.isSubtype concrete declared
  leaves : ∀ name, first.isLeaf name = second.isLeaf name
  canonicalTypes : ∀ name,
    first.canonicalType? name = second.canonicalType? name
  storage : ∀ name, first.collectionFor? name = second.collectionFor? name
  possibleTypes : ∀ name,
    ((first.possibleTypes name).map TypeDeclaration.name).Perm
      ((second.possibleTypes name).map TypeDeclaration.name)
  collections : ∀ name,
    first.collections.get? name = second.collections.get? name
  plan :
    (ProvisioningPlan.ofModel first).Within (.ofModel second) ∧
      (ProvisioningPlan.ofModel second).Within (.ofModel first)
  registry :
    (∃ registry, DiscriminatorRegistry.ofModel first = .ok registry) ↔
      ∃ registry, DiscriminatorRegistry.ofModel second = .ok registry
  resolution : ∀ registry other,
    DiscriminatorRegistry.ofModel first = .ok registry →
      DiscriminatorRegistry.ofModel second = .ok other →
        (∀ name,
          Option.Rel DiscriminatorMapping.Resembles (registry.mapping? name)
            (other.mapping? name)) ∧
          ∀ declared record,
            registry.concreteType declared record =
              other.concreteType declared record

namespace ModelBuilder

variable {builder otherBuilder : ModelBuilder} {first second model : Model}
variable {calls others : List BuilderCall}

/-- Built models that resemble each other answer alike. -/
theorem agreesWith_of_resembles
    (resembles : first.Resembles second)
    (built : builder.build = .ok first)
    (builtToo : otherBuilder.build = .ok second) :
    first.AgreesWith second where
  types := resembles.type?_rel
  fields := resembles.field?_eq
  queryType := resembles.queryTypeName
  subtypes := resembles.isSubtype_eq
  leaves := resembles.isLeaf_eq
  canonicalTypes := resembles.canonicalType?_eq
  storage := resembles.collectionFor?_eq
  possibleTypes := fun name =>
    (resembles.possibleTypes name).map fun _ _ here => here.name
  collections := by
    obtain ⟨-, agree⟩ := Model.check_eq_ok_iff.mp (Model.check_of_build built)
    exact resembles.get?_collections_eq agree
  plan := by
    obtain ⟨-, agree⟩ := Model.check_eq_ok_iff.mp (Model.check_of_build built)
    have collections := resembles.get?_collections_eq agree
    have indexes := ProvisioningPlan.perm_requestedIndexes resembles
    exact ⟨ProvisioningPlan.within_ofModel collections indexes,
      ProvisioningPlan.within_ofModel (fun name => (collections name).symm)
        indexes.symm⟩
  registry := by
    constructor
    · exact DiscriminatorRegistry.exists_ofModel_of_resembles resembles
    · exact DiscriminatorRegistry.exists_ofModel_of_resembles resembles.symm
  resolution := by
    intro registry other registered registeredToo
    constructor
    · exact DiscriminatorRegistry.mapping?_rel resembles built builtToo
        registered registeredToo
    · exact DiscriminatorRegistry.concreteType_eq resembles built builtToo
        registered registeredToo

/-- The model of all that some calls declare. -/
def buildFrom (calls : List BuilderCall) : Except SchemaError Model := do
  let builder ← calls.foldlM perform empty
  builder.build

theorem buildFrom_eq_ok_iff :
    buildFrom calls = .ok model ↔
      ∃ builder,
        calls.foldlM perform empty = .ok builder ∧
          builder.build = .ok model :=
  Success.bind_eq_ok_iff

/-- What goes through in one order goes through in any other. -/
theorem exists_buildFrom_of_perm
    (permutation : calls.Perm others)
    (single : (calls.filterMap BuilderCall.queryType?).length ≤ 1)
    (built : ∃ model, buildFrom calls = .ok model) :
    ∃ model, buildFrom others = .ok model := by
  obtain ⟨model, built⟩ := built
  obtain ⟨builder, performed, built⟩ := buildFrom_eq_ok_iff.mp built
  obtain ⟨other, performedToo⟩ :=
    (exists_performed_iff_of_perm permutation).mp ⟨builder, performed⟩
  have rearranges :=
    rearranges_of_performed permutation single performed performedToo
  obtain ⟨image, builtToo⟩ := rearranges.exists_build_iff.mp ⟨model, built⟩
  exact ⟨image, buildFrom_eq_ok_iff.mpr ⟨other, performedToo, builtToo⟩⟩

/--
The order of the calls that declare a schema does not matter, if they set no more
than one query type: in both orders they go through and a model is built, or in
neither, and the two models answer alike.
-/
theorem buildFrom_agrees_of_perm
    (permutation : calls.Perm others)
    (single : (calls.filterMap BuilderCall.queryType?).length ≤ 1) :
    ((∃ model, buildFrom calls = .ok model) ↔
        ∃ model, buildFrom others = .ok model) ∧
      ∀ first second,
        buildFrom calls = .ok first →
          buildFrom others = .ok second → first.AgreesWith second := by
  constructor
  · constructor
    · exact exists_buildFrom_of_perm permutation single
    · apply exists_buildFrom_of_perm permutation.symm
      rw [← (permutation.filterMap BuilderCall.queryType?).length_eq]
      exact single
  · intro first second built builtToo
    obtain ⟨builder, performed, built⟩ := buildFrom_eq_ok_iff.mp built
    obtain ⟨other, performedToo, builtToo⟩ := buildFrom_eq_ok_iff.mp builtToo
    have rearranges :=
      rearranges_of_performed permutation single performed performedToo
    have resembles :=
      rearranges.resembles (wellFormed_and_assembles_of_build built).2
        (wellFormed_and_assembles_of_build builtToo).2
    exact agreesWith_of_resembles resembles built builtToo

/-- The calls that declare the kennel, in the opposite order. -/
theorem kennel_built_backwards :
    ∃ model,
      buildFrom kennelCalls.reverse = .ok model ∧
        kennelModel.AgreesWith model := by
  have permutation : kennelCalls.Perm kennelCalls.reverse :=
    (List.reverse_perm kennelCalls).symm
  have single : (kennelCalls.filterMap BuilderCall.queryType?).length ≤ 1 := by
    decide
  have built : buildFrom kennelCalls = .ok kennelModel :=
    buildFrom_eq_ok_iff.mpr ⟨kennel, perform_kennelCalls, build_kennel⟩
  obtain ⟨accepted, agree⟩ := buildFrom_agrees_of_perm permutation single
  obtain ⟨model, builtToo⟩ := accepted.mp ⟨kennelModel, built⟩
  exact ⟨model, builtToo, agree kennelModel model built builtToo⟩

end ModelBuilder

end GraphGate
