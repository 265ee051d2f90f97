import GraphGate.Proofs.Compilation.Sources
import GraphGate.Proofs.Provisioning.CompletedPhases

namespace GraphGate

/-!
# Queries and the plan

The plan of a model lists all collections that queries can refer to, and lists
those whose edges are followed with the kind of edges: queries find collections
by the uses that the plan is made of, and in a model that was built all uses of a
collection agree on its kind. So a database that was provisioned has them.
-/

namespace DatabaseCreator

open MemoryStore

variable {database : String} {plan : ProvisioningPlan}
variable {creator : DatabaseCreator} {tasks : List CreatorCall}
variable {start store left later : MemoryStore}
variable {ended : PhaseResult × DatabaseCreator}

/-- After a run that went well the planned collections are there, and stay there. -/
theorem kind?_of_run
    (calls :
      Calls (Disturbed True) (ofPlan database plan) start tasks creator store)
    (ends : Dialogue.Ends (Disturbed True) store creator.run ended left)
    (succeeded : ended.1 = .ok ())
    (grows : Grows left later)
    {planned : CollectionPlan}
    (isPlanned : planned ∈ plan.collections) :
    database ∈ later.databases ∧
      later.kind? database planned.name = some planned.kind := by
  have run :
      Dialogue.Ends (Disturbed True) store (creator.carryOut .run) ended left :=
    ends
  have outcome := (confined_carryOut creator .run).of_ends run
  have completed : ended.2.HasCompleted .collections :=
    outcome.completed succeeded .collections (by simp [CreatorCall.phases])
  have onTheWay : OnTheWay database plan start creator store :=
    OnTheWay.calls calls (onTheWay_start database plan start)
  obtain ⟨endsOnTheWay, -⟩ := onTheWay.carryOut run
  have meets :=
    endsOnTheWay.informed.meets .collections completed (.collection planned)
      (List.mem_map_of_mem isPlanned)
  exact meets.grows grows

end DatabaseCreator

namespace DataFetcher

open MemoryStore

variable {fetcher : DataFetcher} {builder : ModelBuilder}
variable {selection : FieldSelection} {parent : FetchParent}
variable {fragment : DocumentsFragment}

/--
In the query of a field that compiles for a model that was built, every fragment
has a collection of the plan bound, which is planned as edges if its edges are
followed; and nothing else is bound as a collection. Once a run of a creator for
the plan has gone well, whatever came before it, these collections exist with
their kinds from then on.
-/
theorem compiled_queries_use_planned_collections
    (built : builder.build = .ok fetcher.model)
    (compiled : fetcher.compile selection parent = .ok fragment) :
    let plan := ProvisioningPlan.ofModel fetcher.model
    let unused := DatabaseCreator.ofPlan fetcher.database plan
    (∀ node ∈ fragment.nodes [selection.responseKey],
      ∃ planned ∈ plan.collections,
        Table.get? fragment.render.binds node.fragment.sourceParameter =
            some (.string planned.name) ∧
          (node.fragment.source.isTraversal = true → planned.kind = .edge) ∧
          ∀ start tasks creator store ended left later,
            DatabaseCreator.Calls (Disturbed True) unused start tasks creator
                store →
              Dialogue.Ends (Disturbed True) store creator.run ended left →
                ended.1 = .ok () →
                  Grows left later →
                    fetcher.database ∈ later.databases ∧
                      later.kind? fetcher.database planned.name =
                        some planned.kind) ∧
      ∀ name,
        AqlQuery.collectionParameter name ∈ Table.keys fragment.render.binds →
          ∃ node ∈ fragment.nodes [selection.responseKey],
            node.fragment.sourceParameter =
              AqlQuery.collectionParameter name := by
  intro plan unused
  have sourced := isSourced_of_compile compiled
  have agree : Model.KindsAgree fetcher.model.collectionUses :=
    (Model.check_eq_ok_iff.mp (Model.check_of_build built)).2
  constructor
  · intro node isNode
    obtain ⟨use, isUse, isBound, isEdge⟩ :=
      DocumentsFragment.exists_use_bound sourced isNode
    obtain ⟨planned, isPlanned, sameName, sameKind⟩ :=
      (ProvisioningPlan.exists_planned_iff agree).mpr ⟨use, isUse, rfl, rfl⟩
    refine ⟨planned, isPlanned, sameName ▸ isBound, ?_, ?_⟩
    · intro isTraversal
      exact sameKind.trans (isEdge isTraversal)
    · intro start tasks creator store ended left later calls ends succeeded
        grows
      exact DatabaseCreator.kind?_of_run calls ends succeeded grows isPlanned
  · intro name isKey
    obtain ⟨entry, isBinding, isName⟩ :=
      List.mem_map.mp (Table.mem_keys_ofPairs.mp isKey)
    obtain ⟨key, value⟩ := entry
    dsimp only at isName
    subst isName
    obtain ⟨node, isNode, sameName, -⟩ :=
      DocumentsFragment.exists_node_of_mem_bindings sourced isBinding
    exact ⟨node, isNode, sameName⟩

/-- The declarations of the kennel. -/
def kennelBuilder : ModelBuilder where
  types := kennelTypes
  aliases := []
  extensions := []
  queryTypeName := none

/-- The owners of pets are found along edges that are provisioned as such. -/
theorem pets_query_uses_planned_collections :
    kennelBuilder.build = .ok kennel.model ∧
      ∃ (fragment : DocumentsFragment) (left : MemoryStore),
        kennel.compile petsSelection .root = .ok fragment ∧
          (∀ node ∈ fragment.nodes ["pets"],
            ∃ (name : String) (kind : CollectionKind),
              Table.get? fragment.render.binds node.fragment.sourceParameter =
                  some (.string name) ∧
                (node.fragment.source.isTraversal = true → kind = .edge) ∧
                left.kind? kennel.database name = some kind) ∧
          left.kind? kennel.database "pets" = some .document ∧
          left.kind? kennel.database "has" = some .edge := by
  have built : kennelBuilder.build = .ok kennel.model := by
    rfl
  obtain ⟨fragment, compiled⟩ :
      ∃ fragment, kennel.compile petsSelection .root = .ok fragment :=
    ⟨_, rfl⟩
  let creator :=
    DatabaseCreator.ofPlan kennel.database
      (ProvisioningPlan.ofModel kennel.model)
  let run := Dialogue.run answered fresh creator.run
  have succeeded : run.1.1 = .ok () := by
    decide +kernel
  have ends :
      Dialogue.Ends (Disturbed True) fresh creator.run run.1 run.2 :=
    DatabaseCreator.ends_run_answered _ _
  refine ⟨built, fragment, run.2, compiled, ?_, by decide +kernel,
    by decide +kernel⟩
  intro node isNode
  obtain ⟨planned, -, isBound, isEdge, exist⟩ :=
    (compiled_queries_use_planned_collections built compiled).1 node isNode
  exact ⟨planned.name, planned.kind, isBound, isEdge,
    (exist fresh [] creator fresh run.1 run.2 run.2 (.none _ _) ends succeeded
      (.refl _)).2⟩

end DataFetcher

end GraphGate
