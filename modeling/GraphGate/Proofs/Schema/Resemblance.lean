import GraphGate.Proofs.Schema.Rearrangement
import Mathlib.Data.List.Perm.Basic

namespace GraphGate

/-!
# Models that resemble each other

Declarations in another order give a model whose types are related one for one to
those of the first, in some order: they differ in the order of fields, interfaces
and aliases only. Nothing that is asked of a model depends on such an order.
-/

/-- Two lists whose items are related one for one, in some order. -/
def Paired
    {α β : Type}
    (relation : α → β → Prop)
    (first : List α)
    (second : List β) : Prop :=
  ∃ middle, List.Forall₂ relation first middle ∧ middle.Perm second

namespace Paired

variable {α β γ : Type} {relation : α → β → Prop}
variable {first : List α} {second : List β}

theorem exists_right
    (paired : Paired relation first second)
    {item : α}
    (member : item ∈ first) :
    ∃ image ∈ second, relation item image := by
  obtain ⟨middle, related, permutation⟩ := paired
  obtain ⟨image, isImage, here⟩ := Catalogue.exists_mem_right related member
  exact ⟨image, permutation.mem_iff.mp isImage, here⟩

theorem exists_left
    (paired : Paired relation first second)
    {image : β}
    (member : image ∈ second) :
    ∃ item ∈ first, relation item image := by
  obtain ⟨middle, related, permutation⟩ := paired
  exact Catalogue.exists_mem_left related (permutation.mem_iff.mpr member)

theorem symm
    {converse : β → α → Prop}
    (paired : Paired relation first second)
    (flipped : ∀ item image, relation item image → converse image item) :
    Paired converse second first := by
  obtain ⟨middle, related, permutation⟩ := paired
  have backwards : List.Forall₂ converse middle first :=
    (related.imp flipped).flip
  exact List.perm_comp_forall₂ permutation.symm backwards

theorem flatMap
    (paired : Paired relation first second)
    {list : α → List γ}
    {other : β → List γ}
    (each : ∀ item image, relation item image → (list item).Perm (other image)) :
    (first.flatMap list).Perm (second.flatMap other) := by
  obtain ⟨middle, related, permutation⟩ := paired
  refine List.Perm.trans ?_ (permutation.flatMap_right other)
  induction related generalizing second with
  | nil =>
      exact .nil
  | cons here _ inductionHypothesis =>
      rw [List.flatMap_cons, List.flatMap_cons]
      exact (each _ _ here).append (inductionHypothesis (.refl _))

theorem map
    (paired : Paired relation first second)
    {value : α → γ}
    {other : β → γ}
    (each : ∀ item image, relation item image → value item = other image) :
    (first.map value).Perm (second.map other) := by
  rw [List.map_eq_flatMap, List.map_eq_flatMap]
  apply paired.flatMap
  intro item image here
  rw [each item image here]

theorem filterMap
    (paired : Paired relation first second)
    {value : α → Option γ}
    {other : β → Option γ}
    (each : ∀ item image, relation item image → value item = other image) :
    (first.filterMap value).Perm (second.filterMap other) := by
  rw [List.filterMap_eq_flatMap_toList, List.filterMap_eq_flatMap_toList]
  apply paired.flatMap
  intro item image here
  rw [each item image here]

theorem filter
    (paired : Paired relation first second)
    {test : α → Bool}
    {other : β → Bool}
    (each : ∀ item image, relation item image → test item = other image) :
    Paired relation (first.filter test) (second.filter other) := by
  obtain ⟨middle, related, permutation⟩ := paired
  refine ⟨middle.filter other, ?_, permutation.filter other⟩
  apply List.rel_filter ?_ related
  intro item image here
  show test item = true ↔ other image = true
  rw [each item image here]

theorem any_eq
    (paired : Paired relation first second)
    {test : α → Bool}
    {other : β → Bool}
    (each : ∀ item image, relation item image → test item = other image) :
    first.any test = second.any other := by
  rw [Bool.eq_iff_iff, List.any_eq_true, List.any_eq_true]
  constructor
  · rintro ⟨item, member, holds⟩
    obtain ⟨image, isImage, here⟩ := paired.exists_right member
    exact ⟨image, isImage, (each item image here).symm.trans holds⟩
  · rintro ⟨image, member, holds⟩
    obtain ⟨item, isItem, here⟩ := paired.exists_left member
    exact ⟨item, isItem, (each item image here).trans holds⟩

end Paired

/-- Kinds that differ in the order of interfaces at most. -/
inductive TypeKind.Resembles : TypeKind → TypeKind → Prop where
  | object {interfaces others : List String} :
      interfaces.Perm others → Resembles (.object interfaces) (.object others)
  | same (kind : TypeKind) : Resembles kind kind

namespace TypeKind.Resembles

variable {first second : TypeKind}

theorem isAbstract_eq (resembles : first.Resembles second) :
    first.isAbstract = second.isAbstract := by
  cases resembles with
  | object _ =>
      rfl
  | same =>
      rfl

theorem isLeaf_eq (resembles : first.Resembles second) :
    first.isLeaf = second.isLeaf := by
  cases resembles with
  | object _ =>
      rfl
  | same =>
      rfl

theorem symm (resembles : first.Resembles second) : second.Resembles first := by
  cases resembles with
  | object permutation =>
      exact .object permutation.symm
  | same =>
      exact .same _

theorem withInterfaces
    {added others : List String}
    (permutation : added.Perm others)
    (kind : TypeKind) :
    (kind.withInterfaces added).Resembles (kind.withInterfaces others) := by
  cases kind with
  | object own =>
      exact .object (permutation.append_left own)
  | interface | union | scalar | enumeration =>
      exact .same _

end TypeKind.Resembles

/-- Declarations that differ in the order of fields, interfaces and aliases at most. -/
structure TypeDeclaration.Resembles (first second : TypeDeclaration) : Prop where
  name : first.name = second.name
  kind : first.kind.Resembles second.kind
  fields : first.fields.items.Perm second.fields.items
  storage : first.directives.storage = second.directives.storage
  discriminator :
    first.directives.discriminator = second.directives.discriminator
  aliases : first.directives.aliases.Perm second.directives.aliases

theorem TypeDeclaration.Resembles.symm
    {first second : TypeDeclaration}
    (resembles : first.Resembles second) :
    second.Resembles first where
  name := resembles.name.symm
  kind := resembles.kind.symm
  fields := resembles.fields.symm
  storage := resembles.storage.symm
  discriminator := resembles.discriminator.symm
  aliases := resembles.aliases.symm

/-- Fields in another order are found under the same names. -/
theorem TypeDeclaration.Resembles.field?_eq
    {first second : TypeDeclaration}
    (resembles : first.Resembles second)
    (name : String) :
    first.field? name = second.field? name := by
  ext field
  rw [TypeDeclaration.field?, TypeDeclaration.field?,
    Catalogue.find?_eq_some_iff, Catalogue.find?_eq_some_iff,
    resembles.fields.mem_iff]

/-- Models whose types resemble each other, with the same aliases and query type. -/
structure Model.Resembles (first second : Model) : Prop where
  types :
    Paired TypeDeclaration.Resembles first.types.items second.types.items
  aliases : ∀ label, first.aliases.get? label = second.aliases.get? label
  queryTypeName : first.queryTypeName = second.queryTypeName

namespace ModelBuilder

variable {first second : ModelBuilder} {model other : Model}
variable {declared type image : TypeDeclaration}

/-- What becomes of one declaration does not depend on the order of the others. -/
theorem Rearranges.resembles_of_assembled
    (rearranges : Rearranges first second)
    (here : Assembled first declared type)
    (there : Assembled second declared image) :
    type.Resembles image where
  name := here.name.trans there.name.symm
  kind := by
    rw [here.kind, there.kind]
    exact .withInterfaces
      (TypeExtension.perm_interfacesFor rearranges.extensions _) _
  fields := by
    rw [here.fields, there.fields]
    exact rearranges.fieldsOf declared
  storage := here.storage.trans there.storage.symm
  discriminator := here.discriminator.trans there.discriminator.symm
  aliases := by
    obtain ⟨added, appended, distinct, isAdded⟩ := here.aliases
    obtain ⟨others, appendedThere, distinctThere, isOther⟩ := there.aliases
    rw [appended, appendedThere]
    apply List.Perm.append_left
    rw [List.perm_ext_iff_of_nodup distinct distinctThere]
    intro label
    rw [isAdded, isOther, rearranges.aliases.mem_iff]

/-- Models of the same declarations in different orders resemble each other. -/
theorem Rearranges.resembles
    (rearranges : Rearranges first second)
    (assembles : first.Assembles model)
    (assemblesToo : second.Assembles other) :
    model.Resembles other where
  types := by
    obtain ⟨middle, related, permutation⟩ :=
      List.perm_comp_forall₂ rearranges.types assemblesToo.types
    have flipped :
        List.Forall₂ (flip first.Assembled) model.types.items
          first.types.items :=
      assembles.types.flip
    have compose : ∀ type declared image,
        flip first.Assembled type declared →
          second.Assembled declared image → type.Resembles image :=
      fun _ _ _ here there => rearranges.resembles_of_assembled here there
    exact ⟨middle, Catalogue.forall₂_trans compose flipped related,
      permutation⟩
  aliases := by
    intro label
    ext canonical
    rw [assembles.aliases, assemblesToo.aliases, rearranges.labels.mem_iff]
  queryTypeName := by
    rw [assembles.queryTypeName, assemblesToo.queryTypeName,
      rearranges.queryTypeName, rearranges.has_eq]

end ModelBuilder

namespace Model.Resembles

variable {first second : Model} (resembles : first.Resembles second)

include resembles

theorem symm : second.Resembles first where
  types := resembles.types.symm fun _ _ => TypeDeclaration.Resembles.symm
  aliases := fun label => (resembles.aliases label).symm
  queryTypeName := resembles.queryTypeName.symm

/-! What is found under a name. -/

theorem type?_cases (name : String) :
    (first.type? name = none ∧ second.type? name = none) ∨
      ∃ declaration image,
        first.type? name = some declaration ∧
          second.type? name = some image ∧
          declaration.Resembles image := by
  have known {declaration : TypeDeclaration} {model : Model} :
      model.type? name = some declaration ↔
        declaration ∈ model.types.items ∧ declaration.name = name :=
    Catalogue.find?_eq_some_iff
  cases found : first.type? name with
  | some declaration =>
      right
      obtain ⟨member, isNamed⟩ := known.mp found
      obtain ⟨image, isImage, here⟩ := resembles.types.exists_right member
      exact ⟨declaration, image, rfl,
        known.mpr ⟨isImage, here.name.symm.trans isNamed⟩, here⟩
  | none =>
      left
      refine ⟨rfl, ?_⟩
      cases foundToo : second.type? name with
      | none =>
          rfl
      | some image =>
          obtain ⟨member, isNamed⟩ := known.mp foundToo
          obtain ⟨item, isItem, here⟩ := resembles.types.exists_left member
          rw [known.mpr ⟨isItem, here.name.trans isNamed⟩] at found
          cases found

/-- A type is found in both models or in neither. -/
theorem type?_rel (name : String) :
    Option.Rel TypeDeclaration.Resembles (first.type? name)
      (second.type? name) := by
  obtain ⟨missing, missingToo⟩ | ⟨declaration, image, found, foundToo, here⟩ :=
    resembles.type?_cases name
  · rw [missing, missingToo]
    exact .none
  · rw [found, foundToo]
    exact .some here

theorem has_eq (name : String) :
    first.types.has name = second.types.has name := by
  show (first.type? name).isSome = (second.type? name).isSome
  obtain ⟨missing, missingToo⟩ | ⟨declaration, image, found, foundToo, -⟩ :=
    resembles.type?_cases name
  · rw [missing, missingToo]
  · rw [found, foundToo]
    rfl

theorem field?_eq (type name : String) :
    first.field? type name = second.field? type name := by
  unfold Model.field?
  obtain ⟨missing, missingToo⟩ | ⟨declaration, image, found, foundToo, here⟩ :=
    resembles.type?_cases type
  · rw [missing, missingToo]
  · rw [found, foundToo]
    exact here.field?_eq name

theorem canonicalType?_eq (name : String) :
    first.canonicalType? name = second.canonicalType? name := by
  rw [Model.canonicalType?, Model.canonicalType?, resembles.has_eq,
    resembles.aliases]

theorem isAbstract_eq (name : String) :
    first.isAbstract name = second.isAbstract name := by
  unfold Model.isAbstract
  obtain ⟨missing, missingToo⟩ | ⟨declaration, image, found, foundToo, here⟩ :=
    resembles.type?_cases name
  · rw [missing, missingToo]
  · rw [found, foundToo]
    exact here.kind.isAbstract_eq

theorem isLeaf_eq (name : String) :
    first.isLeaf name = second.isLeaf name := by
  unfold Model.isLeaf
  obtain ⟨missing, missingToo⟩ | ⟨declaration, image, found, foundToo, here⟩ :=
    resembles.type?_cases name
  · rw [missing, missingToo]
  · rw [found, foundToo, Option.any_some, Option.any_some, here.kind.isLeaf_eq]

theorem implements_eq (object interface : String) :
    first.implements object interface = second.implements object interface := by
  unfold Model.implements
  obtain ⟨missing, missingToo⟩ | ⟨declaration, image, found, foundToo, here⟩ :=
    resembles.type?_cases object
  · rw [missing, missingToo]
  · rw [found, foundToo, Option.map_some, Option.map_some]
    have sameKind := here.kind
    generalize declaration.kind = kind at sameKind ⊢
    generalize image.kind = other at sameKind ⊢
    cases sameKind with
    | same =>
        rfl
    | object permutation =>
        rw [Bool.eq_iff_iff, List.contains_iff_mem, List.contains_iff_mem]
        exact permutation.mem_iff

theorem aliasesOf (name : String) :
    (first.aliasesOf name).Perm (second.aliasesOf name) := by
  unfold Model.aliasesOf typeDirectives
  obtain ⟨missing, missingToo⟩ | ⟨declaration, image, found, foundToo, here⟩ :=
    resembles.type?_cases name
  · rw [missing, missingToo]
  · rw [found, foundToo]
    exact here.aliases

theorem collection?_eq (name : String) :
    (first.typeDirectives name).collection? =
      (second.typeDirectives name).collection? := by
  unfold typeDirectives
  obtain ⟨missing, missingToo⟩ | ⟨declaration, image, found, foundToo, here⟩ :=
    resembles.type?_cases name
  · rw [missing, missingToo]
  · rw [found, foundToo]
    exact congrArg (Option.map CollectionDirective.collection) here.storage

/-! Possible types. -/

/-- The possible types of a type resemble each other one for one. -/
theorem possibleTypes (name : String) :
    Paired TypeDeclaration.Resembles (first.possibleTypes name)
      (second.possibleTypes name) := by
  unfold Model.possibleTypes
  obtain ⟨missing, missingToo⟩ | ⟨declaration, image, found, foundToo, here⟩ :=
    resembles.type?_cases name
  · rw [missing, missingToo]
    exact ⟨[], .nil, .refl _⟩
  · rw [found, foundToo]
    have sameKind := here.kind
    dsimp only
    generalize declaration.kind = kind at sameKind ⊢
    generalize image.kind = other at sameKind ⊢
    cases sameKind with
    | object permutation =>
        exact ⟨[image], .cons here .nil, .refl _⟩
    | same =>
        cases kind with
        | object interfaces =>
            exact ⟨[image], .cons here .nil, .refl _⟩
        | interface =>
            apply resembles.types.filter
            intro item other related
            rw [resembles.implements_eq, related.name]
        | union members =>
            have sameMembers : List.Forall₂ (· = ·) members members :=
              List.forall₂_refl members
            refine ⟨_, List.rel_filterMap ?_ sameMembers, .refl _⟩
            rintro member _ rfl
            exact resembles.type?_rel member
        | scalar | enumeration =>
            exact ⟨[], .nil, .refl _⟩

/-- Whether a type is acceptable for another one does not depend on any order. -/
theorem isSubtype_eq (concrete declared : String) :
    first.isSubtype concrete declared = second.isSubtype concrete declared := by
  unfold Model.isSubtype
  congr 1
  apply (resembles.possibleTypes declared).any_eq
  intro item image here
  rw [here.name]

end Model.Resembles

end GraphGate
