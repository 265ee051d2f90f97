namespace GraphGate

/-!
# Catalogues

A catalogue lists named things in declaration order, no two of one name. The
declared types of a schema and the fields of a type are catalogues.
-/

/-- Things that carry their own name. -/
class Named (α : Type) where
  name : α → String

/-- Named things in declaration order, no two of one name. -/
structure Catalogue (α : Type) [Named α] where
  items : List α
  distinct : (items.map Named.name).Nodup
deriving Repr, DecidableEq

namespace Catalogue

variable {α : Type} [Named α]

/-- The names, in declaration order. -/
def names (catalogue : Catalogue α) : List String :=
  catalogue.items.map Named.name

/-- The thing of a given name. -/
def find? (catalogue : Catalogue α) (name : String) : Option α :=
  catalogue.items.find? fun item => Named.name item = name

/-- Whether a name is taken. -/
def has (catalogue : Catalogue α) (name : String) : Bool :=
  (catalogue.find? name).isSome

/-- The catalogue without entries. -/
def empty : Catalogue α :=
  ⟨[], List.nodup_nil⟩

instance : Inhabited (Catalogue α) :=
  ⟨empty⟩

theorem find?_eq_none_iff {catalogue : Catalogue α} {name : String} :
    catalogue.find? name = none ↔ name ∉ catalogue.names := by
  simp [find?, names, List.find?_eq_none]

theorem has_iff_mem {catalogue : Catalogue α} {name : String} :
    catalogue.has name = true ↔ name ∈ catalogue.names := by
  have absent : catalogue.find? name = none ↔ name ∉ catalogue.names :=
    find?_eq_none_iff
  cases found : catalogue.find? name with
  | none =>
      simp [has, found, absent.1 found]
  | some item =>
      simp only [has, found, Option.isSome_some, true_iff]
      refine Decidable.not_not.1 fun missing => ?_
      simp [absent.2 missing] at found

/-- What is found under a name has that name. -/
theorem name_of_find? {catalogue : Catalogue α} {name : String} {item : α}
    (found : catalogue.find? name = some item) :
    Named.name item = name := by
  simpa using List.find?_some found

theorem mem_of_find? {catalogue : Catalogue α} {name : String} {item : α}
    (found : catalogue.find? name = some item) :
    item ∈ catalogue.items :=
  List.mem_of_find?_eq_some found

/-- Appends an item whose name is free. -/
def append
    (catalogue : Catalogue α)
    (item : α)
    (free : Named.name item ∉ catalogue.names) :
    Catalogue α where
  items := catalogue.items ++ [item]
  distinct := by
    rw [List.map_append, List.nodup_append]
    refine ⟨catalogue.distinct, by simp, ?_⟩
    intro name present other isItem equal
    simp only [List.map_cons, List.map_nil, List.mem_singleton] at isItem
    exact free (isItem ▸ equal ▸ present)

/-- Appends an item, unless its name is taken. -/
def add? (catalogue : Catalogue α) (item : α) : Option (Catalogue α) :=
  if free : Named.name item ∉ catalogue.names then
    some (catalogue.append item free)
  else
    none

/-- Replaces every item by one of the same name. -/
def replace
    (catalogue : Catalogue α)
    (change : α → α)
    (keepsName : ∀ item, Named.name (change item) = Named.name item) :
    Catalogue α where
  items := catalogue.items.map change
  distinct := by
    have same : (Named.name ∘ change : α → String) = Named.name :=
      funext keepsName
    simpa [List.map_map, same] using catalogue.distinct

/-- Replaces the item of the same name in its place, or appends a new one. -/
def put (catalogue : Catalogue α) (item : α) : Catalogue α :=
  if free : Named.name item ∉ catalogue.names then
    catalogue.append item free
  else
    catalogue.replace
      (fun old => if Named.name old = Named.name item then item else old)
      (fun old => by
        by_cases same : Named.name old = Named.name item
        · simp [same]
        · simp [same])

end Catalogue

end GraphGate
