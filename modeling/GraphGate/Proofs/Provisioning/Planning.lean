import GraphGate.Provisioning.Plan
import Mathlib.Data.List.Nodup

namespace GraphGate

/-!
# What a plan lists

A plan lists the collections of a model, each under one name with one kind, and
for each of them the indexes that are requested for it.
-/

namespace Model

variable {model : Model} {name : String} {kind : CollectionKind}

/-- One use after another enters the table of collections. -/
def enterUse
    (table : Table CollectionKind)
    (use : CollectionUse) : Table CollectionKind :=
  if table.has use.collection then
    table
  else
    table ++ [(use.collection, use.kind)]

theorem collections_eq (model : Model) :
    model.collections = model.collectionUses.foldl enterUse [] :=
  rfl

/-- No collection is entered twice. -/
theorem nodup_keys_foldl_enterUse
    {uses : List CollectionUse}
    {table : Table CollectionKind}
    (distinct : table.keys.Nodup) :
    (uses.foldl enterUse table).keys.Nodup := by
  induction uses generalizing table with
  | nil =>
      exact distinct
  | cons use rest inductionHypothesis =>
      apply inductionHypothesis
      unfold enterUse
      by_cases present : table.has use.collection = true
      · rw [if_pos present]
        exact distinct
      · rw [if_neg present]
        rw [Table.has_iff_mem_keys] at present
        rw [Table.keys, List.map_append]
        apply distinct.append (List.nodup_singleton _)
        rw [List.disjoint_right]
        intro key inNew
        rw [List.mem_singleton.mp inNew]
        exact present

theorem nodup_keys_collections (model : Model) :
    model.collections.keys.Nodup :=
  nodup_keys_foldl_enterUse List.nodup_nil

/-- A collection is entered with the kind of its first use. -/
theorem get?_foldl_enterUse
    {uses : List CollectionUse}
    {table : Table CollectionKind} :
    (uses.foldl enterUse table).get? name =
      (table.get? name).or
        ((uses.find? (·.collection = name)).map CollectionUse.kind) := by
  induction uses generalizing table with
  | nil =>
      simp
  | cons use rest inductionHypothesis =>
      rw [List.foldl_cons, inductionHypothesis, List.find?_cons]
      unfold enterUse
      by_cases present : table.has use.collection = true
      · rw [if_pos present]
        by_cases same : use.collection = name
        · subst same
          obtain ⟨kind, found⟩ := Option.isSome_iff_exists.mp present
          simp [found]
        · simp [same]
      · rw [if_neg present, Table.get?_append, Table.get?_cons]
        by_cases same : use.collection = name
        · subst same
          have absent : table.get? use.collection = none := by
            rw [Table.has, Option.isSome_iff_ne_none, not_not] at present
            exact present
          simp [absent]
        · simp [same]

theorem get?_collections (model : Model) (name : String) :
    model.collections.get? name =
      (model.collectionUses.find? (·.collection = name)).map
        CollectionUse.kind := by
  rw [collections_eq, get?_foldl_enterUse]
  rfl

end Model

namespace CollectionPlan

variable {plan : CollectionPlan} {request : String × IndexSpec}
variable {requests : List (String × IndexSpec)} {index : IndexSpec}

/-- A collection with an index that is requested for it. -/
def take
    (plan : CollectionPlan)
    (request : String × IndexSpec) : CollectionPlan :=
  if plan.name = request.1 then plan.addIndex request.2 else plan

/-- A request adds no more than an index. -/
theorem take_eq (plan : CollectionPlan) (request : String × IndexSpec) :
    (plan.take request).name = plan.name ∧
      (plan.take request).kind = plan.kind := by
  unfold take addIndex
  split
  · split
    · exact ⟨rfl, rfl⟩
    · exact ⟨rfl, rfl⟩
  · exact ⟨rfl, rfl⟩

theorem mem_indexes_take :
    index ∈ (plan.take request).indexes ↔
      index ∈ plan.indexes ∨ request = (plan.name, index) := by
  obtain ⟨collection, requested⟩ := request
  unfold take addIndex
  by_cases same : plan.name = collection
  · subst same
    by_cases present : requested ∈ plan.indexes
    · simp only [if_true, if_pos present, Prod.mk.injEq, true_and]
      constructor
      · exact .inl
      · rintro (old | rfl)
        · exact old
        · exact present
    · simp [present, eq_comm]
  · have other : ¬ collection = plan.name := fun equal => same equal.symm
    simp [same, other]

theorem foldl_take_eq
    (requests : List (String × IndexSpec))
    (plan : CollectionPlan) :
    (requests.foldl take plan).name = plan.name ∧
      (requests.foldl take plan).kind = plan.kind := by
  induction requests generalizing plan with
  | nil =>
      exact ⟨rfl, rfl⟩
  | cons request rest inductionHypothesis =>
      obtain ⟨sameName, sameKind⟩ := inductionHypothesis (plan.take request)
      obtain ⟨tookName, tookKind⟩ := plan.take_eq request
      exact ⟨sameName.trans tookName, sameKind.trans tookKind⟩

/-- A collection gets the indexes that are requested for it. -/
theorem mem_indexes_foldl_take :
    index ∈ (requests.foldl take plan).indexes ↔
      index ∈ plan.indexes ∨ (plan.name, index) ∈ requests := by
  induction requests generalizing plan with
  | nil =>
      simp
  | cons request rest inductionHypothesis =>
      rw [List.foldl_cons, inductionHypothesis, mem_indexes_take,
        (plan.take_eq request).1, List.mem_cons, or_assoc,
        eq_comm (a := (plan.name, index))]

end CollectionPlan

namespace ProvisioningPlan

variable {model : Model} {collection : CollectionPlan} {index : IndexSpec}

/-- All indexes that are requested for a model, with their collections. -/
def requestedIndexes (model : Model) : List (String × IndexSpec) :=
  discriminatorIndexes model ++ fieldIndexes model

/-- Requests enter a plan collection by collection. -/
theorem collections_foldl_addIndex
    (requests : List (String × IndexSpec))
    (plan : ProvisioningPlan) :
    (requests.foldl addIndex plan).collections =
      plan.collections.map (requests.foldl CollectionPlan.take) := by
  induction requests generalizing plan with
  | nil =>
      simp
  | cons request rest inductionHypothesis =>
      rw [List.foldl_cons, inductionHypothesis]
      show (plan.collections.map (·.take request)).map _ = _
      rw [List.map_map]
      rfl

/-- The plan of a model, collection by collection. -/
theorem collections_ofModel (model : Model) :
    (ofModel model).collections =
      model.collections.map fun entry =>
        (requestedIndexes model).foldl CollectionPlan.take
          ⟨entry.1, entry.2, []⟩ := by
  rw [ofModel, collections_foldl_addIndex]
  exact List.map_map

/--
A collection is planned exactly if it is one of the model, with its kind, and the
plan lists the indexes that are requested for it.
-/
theorem exists_mem_ofModel_iff
    {name : String}
    {kind : CollectionKind} :
    (∃ collection ∈ (ofModel model).collections,
        collection.name = name ∧ collection.kind = kind) ↔
      (name, kind) ∈ model.collections := by
  rw [collections_ofModel]
  constructor
  · rintro ⟨collection, member, rfl, rfl⟩
    obtain ⟨entry, isEntry, rfl⟩ := List.mem_map.mp member
    obtain ⟨sameName, sameKind⟩ :=
      CollectionPlan.foldl_take_eq (requestedIndexes model)
        ⟨entry.1, entry.2, []⟩
    rw [sameName, sameKind]
    exact isEntry
  · intro isEntry
    exact ⟨_, List.mem_map_of_mem isEntry,
      CollectionPlan.foldl_take_eq _ ⟨name, kind, []⟩⟩

theorem mem_indexes_iff_of_mem_ofModel
    (member : collection ∈ (ofModel model).collections) :
    index ∈ collection.indexes ↔
      (collection.name, index) ∈ requestedIndexes model := by
  rw [collections_ofModel] at member
  obtain ⟨entry, -, rfl⟩ := List.mem_map.mp member
  rw [CollectionPlan.mem_indexes_foldl_take,
    (CollectionPlan.foldl_take_eq _ _).1]
  simp

/-- No collection is listed with two kinds. -/
def Consistent (plan : ProvisioningPlan) : Prop :=
  ∀ first ∈ plan.collections, ∀ second ∈ plan.collections,
    first.name = second.name → first.kind = second.kind

/-- The names of a plan are those of the collections of the model. -/
theorem names_ofModel (model : Model) :
    (ofModel model).collections.map CollectionPlan.name =
      model.collections.keys := by
  rw [collections_ofModel, List.map_map, Table.keys]
  apply List.map_congr_left
  intro entry _
  exact (CollectionPlan.foldl_take_eq _ _).1

/-- The plan of a model lists no collection twice. -/
theorem consistent_ofModel (model : Model) : (ofModel model).Consistent := by
  have distinct :
      ((ofModel model).collections.map CollectionPlan.name).Nodup := by
    rw [names_ofModel]
    exact model.nodup_keys_collections
  intro first isFirst second isSecond sameName
  rw [List.inj_on_of_nodup_map distinct isFirst isSecond sameName]

/-- A plan of one collection with an index. -/
def kennel : ProvisioningPlan :=
  ⟨[⟨"dogs", .document, [IndexSpec.persistent ["name"]]⟩]⟩

end ProvisioningPlan

end GraphGate
