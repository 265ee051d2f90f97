import GraphGate.Catalogue
import Mathlib.Data.List.Forall2
import Mathlib.Data.List.Nodup

namespace GraphGate.Catalogue

/-!
# Entries of catalogues

An entry of a catalogue is what is found under its name. Catalogues whose entries
are related one for one, without a change of names, find related entries under
every name; putting a new entry in the place of an old one changes the relation
in that place only. So it can be followed through changes made one after another,
each to the entry that it names.
-/

variable {α β : Type}

section Lists

variable {relation : α → β → Prop} {first : List α} {second : List β}

theorem exists_mem_left
    (related : List.Forall₂ relation first second)
    {item : β}
    (member : item ∈ second) :
    ∃ origin ∈ first, relation origin item := by
  induction related with
  | nil =>
      cases member
  | @cons origin image _ _ here _ inductionHypothesis =>
      rcases List.mem_cons.mp member with rfl | inRest
      · exact ⟨origin, List.mem_cons_self, here⟩
      · obtain ⟨other, isOther, there⟩ := inductionHypothesis inRest
        exact ⟨other, List.mem_cons_of_mem _ isOther, there⟩

theorem exists_mem_right
    (related : List.Forall₂ relation first second)
    {item : α}
    (member : item ∈ first) :
    ∃ image ∈ second, relation item image := by
  have flipped : List.Forall₂ (flip relation) second first :=
    related.flip
  exact exists_mem_left flipped member

theorem forall₂_trans
    {γ : Type}
    {next : β → γ → Prop}
    {whole : α → γ → Prop}
    {third : List γ}
    (compose : ∀ origin middle image,
      relation origin middle → next middle image → whole origin image)
    (related : List.Forall₂ relation first second)
    (onward : List.Forall₂ next second third) :
    List.Forall₂ whole first third := by
  induction related generalizing third with
  | nil =>
      cases onward
      exact .nil
  | cons here _ inductionHypothesis =>
      cases onward with
      | cons there others =>
          exact .cons (compose _ _ _ here there) (inductionHypothesis others)

/-- What is related to one list behind another is one list behind another, too. -/
theorem exists_append_of_forall₂_append
    {whole : List β}
    {further : List α}
    (related : List.Forall₂ relation (first ++ further) whole) :
    ∃ left right,
      whole = left ++ right ∧
        List.Forall₂ relation first left ∧
        List.Forall₂ relation further right := by
  refine ⟨whole.take first.length, whole.drop first.length,
    (List.take_append_drop _ _).symm, ?_, ?_⟩
  · simpa using List.forall₂_take first.length related
  · simpa using List.forall₂_drop first.length related

end Lists

variable [Named α]

/-- The catalogue with one entry. -/
def single (item : α) : Catalogue α where
  items := [item]
  distinct := List.nodup_singleton _

section Entries

variable {catalogue after : Catalogue α} {item : α}

/-- An entry of a catalogue is what is found under its name. -/
theorem find?_of_mem (member : item ∈ catalogue.items) :
    catalogue.find? (Named.name item) = some item := by
  cases found : catalogue.find? (Named.name item) with
  | none =>
      exact (Catalogue.find?_eq_none_iff.mp found
        (List.mem_map_of_mem member)).elim
  | some other =>
      have same : other = item :=
        List.inj_on_of_nodup_map catalogue.distinct
          (Catalogue.mem_of_find? found) member
          (Catalogue.name_of_find? found)
      rw [same]

theorem find?_eq_some_iff {name : String} :
    catalogue.find? name = some item ↔
      item ∈ catalogue.items ∧ Named.name item = name := by
  constructor
  · intro found
    exact ⟨mem_of_find? found, name_of_find? found⟩
  · rintro ⟨member, rfl⟩
    exact find?_of_mem member

theorem eq_of_items_eq
    (same : after.items = catalogue.items) :
    after = catalogue := by
  cases after
  cases catalogue
  cases same
  rfl

/-- An item is added exactly if its name is free, and then at the end. -/
theorem add?_eq_some_iff :
    catalogue.add? item = some after ↔
      after.items = catalogue.items ++ [item] := by
  unfold add?
  by_cases free : Named.name item ∉ catalogue.names
  · rw [dif_pos free, Option.some.injEq]
    constructor
    · rintro rfl
      rfl
    · intro appended
      exact (eq_of_items_eq appended).symm
  · rw [dif_neg free]
    refine ⟨nofun, fun appended => (free ?_).elim⟩
    have distinct := after.distinct
    rw [appended, List.map_append, List.nodup_append] at distinct
    intro taken
    exact distinct.2.2 _ taken _ (by simp) rfl

theorem exists_add?_iff :
    (∃ after, catalogue.add? item = some after) ↔
      Named.name item ∉ catalogue.names := by
  unfold add?
  by_cases free : Named.name item ∉ catalogue.names
  · simp [free]
  · simp [free]

/-- Putting an entry in the place of an old one leaves the relation of the others as it is. -/
theorem forall₂_put
    {before : List β}
    {old new : α}
    {earlier later : β → α → Prop}
    (found : catalogue.find? (Named.name new) = some old)
    (related : List.Forall₂ earlier before catalogue.items)
    (replaced : ∀ first, earlier first old → later first new)
    (kept : ∀ first other,
      Named.name other ≠ Named.name new →
      earlier first other →
      later first other) :
    List.Forall₂ later before (catalogue.put new).items := by
  have present : ¬ Named.name new ∉ catalogue.names := by
    rw [← find?_eq_none_iff, found]
    simp
  obtain ⟨sameLength, each⟩ := List.forall₂_iff_zip.mp related
  rw [put, dif_neg present]
  refine List.forall₂_map_right_iff.mpr ?_
  refine List.forall₂_iff_zip.mpr ⟨sameLength, ?_⟩
  intro first other paired
  have member := (List.of_mem_zip paired).2
  by_cases same : Named.name other = Named.name new
  · have isOld : other = old := by
      have foundOther := find?_of_mem member
      rw [same, found] at foundOther
      exact (Option.some.inj foundOther).symm
    rw [if_pos same]
    exact replaced first (isOld ▸ each paired)
  · rw [if_neg same]
    exact kept first other same (each paired)

end Entries

section Correspondence

variable [Named β]
variable {relation : α → β → Prop} {before : Catalogue α} {after : Catalogue β}

/-- Entries related without a change of names have the same names, in the same order. -/
theorem names_eq_of_forall₂
    (keepsName : ∀ origin image,
      relation origin image → Named.name image = Named.name origin)
    (related : List.Forall₂ relation before.items after.items) :
    after.names = before.names := by
  have sameNames :
      List.Forall₂ (· = ·)
        (after.items.map Named.name) (before.items.map Named.name) := by
    rw [List.forall₂_map_left_iff, List.forall₂_map_right_iff]
    have flipped := related.imp keepsName
    exact flipped.flip
  rwa [List.forall₂_eq_eq_eq] at sameNames

theorem has_eq_of_forall₂
    (keepsName : ∀ origin image,
      relation origin image → Named.name image = Named.name origin)
    (related : List.Forall₂ relation before.items after.items)
    (name : String) :
    after.has name = before.has name := by
  rw [Bool.eq_iff_iff, has_iff_mem, has_iff_mem,
    names_eq_of_forall₂ keepsName related]

/-- What is found after was found before, under the same name. -/
theorem exists_find?_left
    (keepsName : ∀ origin image,
      relation origin image → Named.name image = Named.name origin)
    (related : List.Forall₂ relation before.items after.items)
    {name : String}
    {image : β}
    (found : after.find? name = some image) :
    ∃ origin, before.find? name = some origin ∧ relation origin image := by
  obtain ⟨member, isName⟩ := find?_eq_some_iff.mp found
  obtain ⟨origin, isOrigin, here⟩ := exists_mem_left related member
  refine ⟨origin, find?_eq_some_iff.mpr ⟨isOrigin, ?_⟩, here⟩
  rw [← keepsName origin image here, isName]

/-- What was found before has something to be found after, under the same name. -/
theorem exists_find?_right
    (keepsName : ∀ origin image,
      relation origin image → Named.name image = Named.name origin)
    (related : List.Forall₂ relation before.items after.items)
    {name : String}
    {origin : α}
    (found : before.find? name = some origin) :
    ∃ image, after.find? name = some image ∧ relation origin image := by
  obtain ⟨member, isName⟩ := find?_eq_some_iff.mp found
  obtain ⟨image, isImage, here⟩ := exists_mem_right related member
  refine ⟨image, find?_eq_some_iff.mpr ⟨isImage, ?_⟩, here⟩
  rw [keepsName origin image here, isName]

end Correspondence

section Changes

variable {ι : Type} {target : ι → String} {relation : List ι → α → α → Prop}
variable {start before : Catalogue α} {passed : List ι} {change : ι}
variable {old new : α}

/--
The entries of a catalogue after changes, each made to the entry that it names.
Every change has named an entry, and every entry is as all changes leave it.
-/
structure ChangedBy
    (target : ι → String)
    (relation : List ι → α → α → Prop)
    (start : Catalogue α)
    (changes : List ι)
    (after : Catalogue α) : Prop where
  named : ∀ change ∈ changes, start.has (target change) = true
  each : List.Forall₂ (relation changes) start.items after.items

theorem ChangedBy.nil
    (unchanged : ∀ item, relation [] item item)
    (start : Catalogue α) :
    ChangedBy target relation start [] start where
  named := fun _ member => nomatch member
  each := List.forall₂_same.mpr fun item _ => unchanged item

variable
  (keepsName : ∀ changes origin image,
    relation changes origin image → Named.name image = Named.name origin)

include keepsName

/-- One more change, which puts a new entry in the place of the one it names. -/
theorem ChangedBy.put
    (earlier : ChangedBy target relation start passed before)
    (found : before.find? (target change) = some old)
    (sameName : Named.name new = Named.name old)
    (changed : ∀ origin,
      Named.name origin = target change →
      relation passed origin old →
      relation (passed ++ [change]) origin new)
    (skipped : ∀ origin image,
      Named.name origin ≠ target change →
      relation passed origin image →
      relation (passed ++ [change]) origin image) :
    ChangedBy target relation start (passed ++ [change]) (before.put new) := by
  have isOld : Named.name old = target change :=
    name_of_find? found
  have isNew : Named.name new = target change :=
    sameName.trans isOld
  refine ⟨?_, ?_⟩
  · intro other member
    rcases List.mem_append.mp member with before | isChange
    · exact earlier.named other before
    · rw [List.mem_singleton.mp isChange,
        ← has_eq_of_forall₂ (keepsName passed) earlier.each, has, found,
        Option.isSome_some]
  · refine forall₂_put (isNew ▸ found) earlier.each ?_ ?_
    · intro origin here
      refine changed origin ?_ here
      rw [← keepsName passed origin old here, isOld]
    · intro origin image different here
      refine skipped origin image ?_ here
      rw [← keepsName passed origin image here]
      exact fun same => different (same.trans isNew.symm)

/-- A change that names an entry finds it as the earlier changes left it. -/
theorem ChangedBy.exists_named
    (earlier : ChangedBy target relation start passed before)
    (named : start.has (target change) = true) :
    ∃ old,
      before.find? (target change) = some old ∧
        ∃ origin ∈ start.items,
          Named.name origin = target change ∧ relation passed origin old := by
  rw [← has_eq_of_forall₂ (keepsName passed) earlier.each, has,
    Option.isSome_iff_exists] at named
  obtain ⟨old, found⟩ := named
  obtain ⟨origin, foundOrigin, here⟩ :=
    exists_find?_left (keepsName passed) earlier.each found
  obtain ⟨member, isNamed⟩ := find?_eq_some_iff.mp foundOrigin
  exact ⟨old, found, origin, member, isNamed, here⟩

end Changes

end GraphGate.Catalogue
