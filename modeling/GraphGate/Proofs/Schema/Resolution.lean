import GraphGate.Proofs.Schema.PossibleTypes
import GraphGate.Schema.Discriminator

namespace GraphGate.DiscriminatorRegistry

/-!
# What a registry resolves

The registry of a model knows every abstract type, and maps the values of an
abstract type to its possible types only. So the concrete type of a record is
always an object type that the declared type allows.
-/

variable {model : Model} {registry : DiscriminatorRegistry}

/-- The name and the aliases of a type, each with the name. -/
def namesOf (model : Model) (type : TypeDeclaration) : Table String :=
  (type.name :: model.aliasesOf type.name).map (·, type.name)

theorem mem_namesOf_iff
    {type : TypeDeclaration}
    {value concrete : String} :
    (value, concrete) ∈ namesOf model type ↔
      type.name = concrete ∧
        (value = type.name ∨ value ∈ model.aliasesOf type.name) := by
  simp only [namesOf, List.mem_map, List.mem_cons, Prod.mk.injEq]
  constructor
  · rintro ⟨label, isName, rfl, same⟩
    exact ⟨same, isName⟩
  · rintro ⟨same, isName⟩
    exact ⟨value, isName, rfl, same⟩

theorem eq_append_of_addValue
    {abstractType concrete value : String}
    {values following : Table String}
    (added : addValue abstractType concrete values value = .ok following) :
    following = values ++ [(value, concrete)] := by
  unfold addValue at added
  split at added
  · cases added
  · cases added
    rfl

theorem eq_append_of_addValues
    {abstractType concrete : String}
    {names : List String}
    {values following : Table String}
    (added :
      names.foldlM (addValue abstractType concrete) values = .ok following) :
    following = values ++ names.map (·, concrete) := by
  refine Success.foldlM_induction
    (motive := fun passed state => state = values ++ passed.map (·, concrete))
    added (List.append_nil _).symm ?_
  intro passed value state next stepped earlier
  rw [eq_append_of_addValue stepped, earlier, List.map_append,
    List.append_assoc]
  rfl

theorem eq_append_of_addType
    {abstractType : String}
    {type : TypeDeclaration}
    {values following : Table String}
    (added : addType model abstractType values type = .ok following) :
    following = values ++ namesOf model type :=
  eq_append_of_addValues added

theorem eq_flatMap_of_addTypes
    {abstractType : String}
    {types : List TypeDeclaration}
    {values : Table String}
    (added : types.foldlM (addType model abstractType) [] = .ok values) :
    values = types.flatMap (namesOf model) := by
  refine Success.foldlM_induction
    (motive := fun passed state => state = passed.flatMap (namesOf model))
    added rfl ?_
  intro passed type state next stepped earlier
  rw [eq_append_of_addType stepped, earlier, List.flatMap_append,
    List.flatMap_singleton]

/-- The values of an abstract type are the names of its possible types. -/
theorem eq_flatMap_of_valuesFor
    {abstractType : String}
    {values : Table String}
    (read : valuesFor model abstractType = .ok values) :
    values = (model.possibleTypes abstractType).flatMap (namesOf model) :=
  eq_flatMap_of_addTypes read

/-- The values of an abstract type stand for its possible types. -/
theorem exists_possible_of_mem_values
    {abstractType : String}
    {values : Table String}
    (read : valuesFor model abstractType = .ok values)
    {entry : String × String}
    (member : entry ∈ values) :
    ∃ type ∈ model.possibleTypes abstractType, type.name = entry.2 := by
  rw [eq_flatMap_of_valuesFor read] at member
  obtain ⟨type, possible, isName⟩ := List.mem_flatMap.mp member
  exact ⟨type, possible, (mem_namesOf_iff.mp isName).1⟩

/-- What a registry holds when some types have been taken in. -/
structure Covers
    (model : Model)
    (types : List TypeDeclaration)
    (registry : DiscriminatorRegistry) : Prop where
  values {type : String} {mapping : DiscriminatorMapping} :
    (type, mapping) ∈ registry.mappings →
      valuesFor model type = .ok mapping.values
  abstract {declaration : TypeDeclaration} :
    declaration ∈ types →
      declaration.kind.isAbstract = true →
        declaration.name ∈ registry.abstractTypes

theorem covers_addMapping
    {types : List TypeDeclaration}
    {declaration : TypeDeclaration}
    {before after : DiscriminatorRegistry}
    (added : addMapping model before declaration = .ok after)
    (covers : Covers model types before) :
    Covers model (types ++ [declaration]) after := by
  unfold addMapping at added
  split at added
  · split at added
    · cases added
      exact {
        values := covers.values
        abstract := fun member isAbstract => by
          rcases List.mem_append.mp member with old | new
          · exact List.mem_append_left _ (covers.abstract old isAbstract)
          · simp [List.mem_singleton.mp new]
      }
    · obtain ⟨values, read, returned⟩ := Success.bind_eq_ok_iff.mp added
      cases returned
      exact {
        values := fun member => by
          rcases List.mem_append.mp member with old | new
          · exact covers.values old
          · cases List.mem_singleton.mp new
            exact read
        abstract := fun member isAbstract => by
          rcases List.mem_append.mp member with old | new
          · exact List.mem_append_left _ (covers.abstract old isAbstract)
          · simp [List.mem_singleton.mp new]
      }
  · rename_i concrete
    cases added
    exact {
      values := covers.values
      abstract := fun member isAbstract => by
        rcases List.mem_append.mp member with old | new
        · exact covers.abstract old isAbstract
        · rw [List.mem_singleton.mp new] at isAbstract
          exact (concrete isAbstract).elim
    }

/-- The registry of a model covers all its types. -/
theorem covers_ofModel
    (registered : ofModel model = .ok registry) :
    Covers model model.types.items registry :=
  Success.foldlM_induction (motive := Covers model) registered
    { values := fun member => nomatch member
      abstract := fun member => nomatch member }
    fun _ _ _ _ stepped covers => covers_addMapping stepped covers

/--
The concrete type of a record is one of the possible types of the declared
type. The declared type has to be known and to have fields.
-/
theorem mem_possibleTypes_of_concreteType
    (registered : ofModel model = .ok registry)
    {declared concrete : String}
    {record : Json}
    (known : model.isKnown declared = true)
    (composite : model.isLeaf declared = false)
    (resolved : registry.concreteType declared record = .ok concrete) :
    ∃ declaration ∈ model.possibleTypes declared,
      declaration.name = concrete := by
  have covers := covers_ofModel registered
  unfold concreteType at resolved
  cases mapped : registry.mapping? declared with
  | none =>
      simp only [mapped] at resolved
      split at resolved
      · cases resolved
      · rename_i notAbstract
        cases resolved
        refine Model.mem_possibleTypes_of_concrete known composite ?_
        rw [Bool.eq_false_iff]
        intro isAbstract
        obtain ⟨declaration, found, abstract⟩ :=
          Model.isAbstract_iff.mp isAbstract
        have listed := covers.abstract (Catalogue.mem_of_find? found) abstract
        have name : declaration.name = declared :=
          Catalogue.name_of_find? found
        exact notAbstract (List.contains_iff_mem.mpr (name ▸ listed))
  | some mapping =>
      simp only [mapped] at resolved
      have read := covers.values (Table.mem_of_get? mapped)
      split at resolved
      · cases resolved
      · cases resolved
      · split at resolved
        · rename_i found
          cases resolved
          exact exists_possible_of_mem_values read (Table.mem_of_get? found)
        · cases resolved
      · cases resolved

end GraphGate.DiscriminatorRegistry
