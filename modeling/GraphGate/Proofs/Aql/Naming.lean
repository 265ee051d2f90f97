import GraphGate.Aql.Rendering
import GraphGate.Compilation.Arguments
import GraphGate.Proofs.Aql.Variables

namespace GraphGate

/-!
# Names of placeholders

A placeholder is named like the variable of a longer path: the path of its
fragment with one or two more keys for what it holds. Those of collections are
marked by an `@`, and no filter is on `limit` or `offset`, so the longer paths
tell the placeholders of a query apart, as they tell variables apart.
-/

open GraphQL

/-- What a placeholder holds. -/
inductive BindKind where
  | collection
  | edges
  | filter (property : String)
  | offset
  | limit
deriving Repr, DecidableEq

/-- A place in a query where a value is bound: a fragment, by its path, and a kind. -/
structure BindSite where
  path : List String
  kind : BindKind
deriving Repr, DecidableEq

namespace BindSite

/-- The name under which the value is bound. -/
def name (site : BindSite) : String :=
  let loop := variableName site.path
  match site.kind with
  | .collection =>
      AqlQuery.collectionParameter (DocumentsFragment.collectionName loop)
  | .edges => AqlQuery.collectionParameter (DocumentsFragment.edgesName loop)
  | .filter property => DocumentsFragment.filterName loop property
  | .offset => DocumentsFragment.offsetName loop
  | .limit => DocumentsFragment.limitName loop

/-- The keys that stand for a kind behind those of the path. -/
def suffix : BindKind → List String
  | .collection => ["collection"]
  | .edges => ["edges"]
  | .filter property => ["arg", property]
  | .offset => ["offset"]
  | .limit => ["limit"]

/-- What marks the placeholders of collections. -/
def mark : BindKind → List Char
  | .collection | .edges => ['@']
  | .filter _ | .offset | .limit => []

/-- A path of names, and a kind that arguments can have. -/
structure IsNamed (site : BindSite) : Prop where
  present : site.path ≠ []
  path : ∀ key ∈ site.path, IsName key
  filter : ∀ property, site.kind = .filter property →
    IsName property ∧
      property ≠ CompiledArguments.limitArgument ∧
      property ≠ CompiledArguments.offsetArgument

theorem isName_of_mem_suffix
    {site : BindSite}
    (isNamed : site.IsNamed)
    {key : String}
    (member : key ∈ suffix site.kind) :
    IsName key := by
  obtain ⟨path, kind⟩ := site
  cases kind with
  | filter property =>
      rcases List.mem_cons.mp member with isArgument | isProperty
      · subst isArgument
        decide
      · cases List.mem_singleton.mp isProperty
        exact (isNamed.filter key rfl).1
  | collection =>
      cases List.mem_singleton.mp member
      decide
  | edges =>
      cases List.mem_singleton.mp member
      decide
  | offset =>
      cases List.mem_singleton.mp member
      decide
  | limit =>
      cases List.mem_singleton.mp member
      decide

/-- A placeholder is named like the variable of a longer path. -/
theorem toList_name
    {site : BindSite}
    (present : site.path ≠ []) :
    site.name.toList =
      mark site.kind ++ 'v' :: joinedKeys (site.path ++ suffix site.kind) := by
  obtain ⟨path, kind⟩ := site
  have loop := toList_variableName present
  rw [joinedKeys_append]
  cases kind with
  | filter property =>
      simp only [name, DocumentsFragment.filterName, String.toList_append, loop]
      simp [mark, suffix, joinedKeys, escapeName, escapeNameChar]
  | collection =>
      simp only [name, AqlQuery.collectionParameter,
        DocumentsFragment.collectionName, String.toList_append, loop]
      simp [mark, suffix, joinedKeys]
      decide
  | edges =>
      simp only [name, AqlQuery.collectionParameter,
        DocumentsFragment.edgesName, String.toList_append, loop]
      simp [mark, suffix, joinedKeys]
      decide
  | offset =>
      simp only [name, DocumentsFragment.offsetName, String.toList_append, loop]
      simp [mark, suffix, joinedKeys]
      decide
  | limit =>
      simp only [name, DocumentsFragment.limitName, String.toList_append, loop]
      simp [mark, suffix, joinedKeys]
      decide

theorem mark_eq (kind : BindKind) : mark kind = [] ∨ mark kind = ['@'] := by
  cases kind <;> simp [mark]

theorem mark_append_v_cancel
    {kind other : BindKind}
    {text otherText : List Char}
    (same : mark kind ++ 'v' :: text = mark other ++ 'v' :: otherText) :
    mark kind = mark other ∧ text = otherText := by
  rcases mark_eq kind with unmarked | marked <;>
    rcases mark_eq other with otherUnmarked | otherMarked
  · rw [unmarked, otherUnmarked] at same ⊢
    exact ⟨rfl, (List.cons.inj same).2⟩
  · rw [unmarked, otherMarked] at same
    exact absurd (List.cons.inj same).1 (by decide)
  · rw [marked, otherUnmarked] at same
    exact absurd (List.cons.inj same).1 (by decide)
  · rw [marked, otherMarked] at same ⊢
    exact ⟨rfl, (List.cons.inj (List.cons.inj same).2).2⟩

/-- With the marks, the last of the longer path tells the kind. -/
theorem kind_eq
    {site other : BindSite}
    (isNamed : site.IsNamed)
    (otherNamed : other.IsNamed)
    (sameMark : mark site.kind = mark other.kind)
    (sameLast :
      (suffix site.kind).getLast? = (suffix other.kind).getLast?) :
    site.kind = other.kind := by
  have unpaged := isNamed.filter
  have otherUnpaged := otherNamed.filter
  cases kind : site.kind <;> cases otherKind : other.kind <;>
    simp_all [suffix, mark, CompiledArguments.limitArgument,
      CompiledArguments.offsetArgument]

/-- Different sites have different placeholders. -/
theorem name_injective
    {site other : BindSite}
    (isNamed : site.IsNamed)
    (otherNamed : other.IsNamed)
    (same : site.name = other.name) :
    site = other := by
  have keysNamed :
      ∀ site : BindSite, site.IsNamed →
        ∀ key ∈ site.path ++ suffix site.kind, IsName key := by
    intro site isNamed key member
    rcases List.mem_append.mp member with inPath | inSuffix
    · exact isNamed.path key inPath
    · exact isName_of_mem_suffix isNamed inSuffix
  have sameText := congrArg String.toList same
  rw [toList_name isNamed.present, toList_name otherNamed.present] at sameText
  obtain ⟨sameMark, sameJoined⟩ := mark_append_v_cancel sameText
  have sameKeys :=
    joinedKeys_injective (keysNamed site isNamed) (keysNamed other otherNamed)
      sameJoined
  have sameLast :
      (suffix site.kind).getLast? = (suffix other.kind).getLast? := by
    have last := congrArg List.getLast? sameKeys
    have suffixLast :
        ∀ site : BindSite,
          (site.path ++ suffix site.kind).getLast? =
            (suffix site.kind).getLast? := by
      intro site
      cases site.kind <;> simp [suffix, List.getLast?_append]
    rwa [suffixLast, suffixLast] at last
  have sameKind := kind_eq isNamed otherNamed sameMark sameLast
  rw [sameKind] at sameKeys
  have samePath := List.append_cancel_right sameKeys
  cases site
  cases other
  simp_all

/-- No site takes the placeholder of the start document. -/
theorem name_ne_startParameter
    {site : BindSite}
    (present : site.path ≠ []) :
    site.name ≠ startParameter := by
  intro same
  have sameText := congrArg String.toList same
  have start : startParameter.toList = ['s', 't', 'a', 'r', 't'] := by
    decide
  rw [toList_name present, start] at sameText
  cases kind : site.kind <;> simp [kind, mark] at sameText

end BindSite

end GraphGate
