import GraphGate.Proofs.Success
import GraphGate.Schema.Directive

namespace GraphGate

/-!
# Directives that were read

Directives are read one after another. What one of them says is there as soon as
it has been read, and is not taken back by the ones after it. Fields take two
directives and refuse those that belong to types; types leave the one that
belongs to fields alone.
-/

/-- The directives that say how records are stored. -/
def storageDirectives : List String :=
  ["vertex", "edge", "discriminator", "alias", "index"]

/-- How a kind of index is written in a schema. -/
def IndexKind.written : IndexKind → String
  | .persistent => "PERSISTENT"
  | .fulltext => "FULLTEXT"
  | .geo => "GEO"

namespace GraphQL.Directive

variable {directive : Directive} {target : DirectiveTarget}
variable {argument : String} {cause : DirectiveFault}

/-- What is allowed once was not known before. -/
theorem eq_none_of_allowOnce
    {α : Type}
    {known : Option α}
    (first : directive.allowOnce target known.isSome cause = .ok ()) :
    known = none := by
  cases known with
  | none =>
      rfl
  | some value =>
      simp [allowOnce] at first

theorem argument?_of_requiredString
    {text : String}
    (required : directive.requiredString target argument = .ok text) :
    directive.argument? argument = some (.string text) := by
  unfold requiredString at required
  split at required
  · rename_i found given
    split at required
    · contradiction
    · cases required
      exact given
  · contradiction
  · contradiction

/-- A value that may be left out is the one that is written, or its default. -/
theorem argument?_of_optionalEnum
    {value : Option String}
    (optional : directive.optionalEnum target argument = .ok value) :
    directive.argument? argument = value.map Value.enumeration := by
  unfold optionalEnum at optional
  split at optional
  · rename_i given
    cases optional
    exact given
  · contradiction
  · rename_i given
    cases optional
    exact given

theorem argument?_of_optionalBool
    {value : Bool}
    (optional : directive.optionalBool target argument = .ok value) :
    (directive.argument? argument).getD (.boolean false) = .boolean value := by
  unfold optionalBool at optional
  split at optional
  · rename_i given
    cases optional
    rw [given]
    rfl
  · contradiction
  · rename_i given
    cases optional
    rw [given]
    rfl

theorem argument?_of_direction
    {direction : Direction}
    (read : directive.direction target = .ok direction) :
    (directive.argument? "direction").getD (.enumeration "OUTBOUND") =
      .enumeration direction.render := by
  obtain ⟨value, optional, known⟩ := Success.bind_eq_ok_iff.mp read
  rw [argument?_of_optionalEnum optional]
  split at known
  · cases known
    rfl
  · cases known
    rfl
  · cases known
    rfl
  · contradiction

theorem argument?_of_indexKind
    {kind : IndexKind}
    (read : directive.indexKind target = .ok kind) :
    (directive.argument? "type").getD (.enumeration "PERSISTENT") =
      .enumeration kind.written := by
  obtain ⟨value, optional, known⟩ := Success.bind_eq_ok_iff.mp read
  rw [argument?_of_optionalEnum optional]
  split at known
  · cases known
    rfl
  · cases known
    rfl
  · cases known
    rfl
  · cases known
    rfl
  · contradiction

end GraphQL.Directive

namespace TypeDirectives

variable {type : String} {target : DirectiveTarget}
variable {before after directives : TypeDirectives}
variable {directive : GraphQL.Directive} {applied : List GraphQL.Directive}

/-- The directives that are looked for on a type. -/
def names : List String :=
  ["vertex", "edge", "discriminator", "alias"]

/-- What a directive of a type says is among what is known of the type. -/
inductive Hold
    (directives : TypeDirectives)
    (directive : GraphQL.Directive) : Prop where
  | vertex {collection : String} :
      directive.name = "vertex" →
      directive.argument? "collection" = some (.string collection) →
      directives.storage = some ⟨collection, .document⟩ →
      Hold directives directive
  | edge {collection : String} :
      directive.name = "edge" →
      directive.argument? "collection" = some (.string collection) →
      directives.storage = some ⟨collection, .edge⟩ →
      Hold directives directive
  | discriminator {property : String} :
      directive.name = "discriminator" →
      directive.argument? "property" = some (.string property) →
      directives.discriminator = some property →
      Hold directives directive
  | label {label : String} :
      directive.name = "alias" →
      directive.argument? "name" = some (.string label) →
      label ∈ directives.aliases →
      Hold directives directive

/-- A directive is held if it is one that is looked for on a type. -/
def Heeds (directives : TypeDirectives) (directive : GraphQL.Directive) : Prop :=
  directive.name ∈ names → directives.Hold directive

/-- More is known of a type, and nothing has been taken back. -/
structure Grows (before after : TypeDirectives) : Prop where
  storage : ∀ storage, before.storage = some storage →
    after.storage = some storage
  discriminator : ∀ property, before.discriminator = some property →
    after.discriminator = some property
  aliases : before.aliases ⊆ after.aliases

theorem Grows.refl (directives : TypeDirectives) : directives.Grows directives :=
  ⟨fun _ => id, fun _ => id, List.Subset.refl _⟩

theorem Hold.grows
    (held : before.Hold directive)
    (grows : before.Grows after) :
    after.Hold directive := by
  cases held with
  | vertex named given stored =>
      exact .vertex named given (grows.storage _ stored)
  | edge named given stored =>
      exact .edge named given (grows.storage _ stored)
  | discriminator named given known =>
      exact .discriminator named given (grows.discriminator _ known)
  | label named given known =>
      exact .label named given (grows.aliases known)

/-- A collection is added where there is none yet. -/
theorem grows_of_addStorage
    {kind : CollectionKind}
    (added : before.addStorage target kind directive = .ok after) :
    before.Grows after ∧
      ∃ collection,
        directive.argument? "collection" = some (.string collection) ∧
          after.storage = some ⟨collection, kind⟩ := by
  obtain ⟨_, _, added⟩ := Success.bind_eq_ok_iff.mp added
  obtain ⟨_, first, added⟩ := Success.bind_eq_ok_iff.mp added
  obtain ⟨collection, required, added⟩ := Success.bind_eq_ok_iff.mp added
  cases added
  have notStored := GraphQL.Directive.eq_none_of_allowOnce first
  refine ⟨⟨?_, fun _ => id, List.Subset.refl _⟩, collection,
    GraphQL.Directive.argument?_of_requiredString required, rfl⟩
  simp [notStored]

/-- A directive that is read is heeded, and what was known before is kept. -/
theorem grows_of_add
    (added : before.add target directive = .ok after) :
    before.Grows after ∧ after.Heeds directive := by
  unfold add at added
  split at added
  case h_1 named =>
    obtain ⟨grows, collection, given, stored⟩ := grows_of_addStorage added
    exact ⟨grows, fun _ => .vertex named given stored⟩
  case h_2 named =>
    obtain ⟨grows, collection, given, stored⟩ := grows_of_addStorage added
    exact ⟨grows, fun _ => .edge named given stored⟩
  case h_3 named =>
    obtain ⟨_, _, added⟩ := Success.bind_eq_ok_iff.mp added
    obtain ⟨_, first, added⟩ := Success.bind_eq_ok_iff.mp added
    obtain ⟨property, required, added⟩ := Success.bind_eq_ok_iff.mp added
    cases added
    have notKnown := GraphQL.Directive.eq_none_of_allowOnce first
    refine ⟨⟨fun _ => id, ?_, List.Subset.refl _⟩, fun _ => ?_⟩
    · simp [notKnown]
    · exact .discriminator named
        (GraphQL.Directive.argument?_of_requiredString required) rfl
  case h_4 named =>
    obtain ⟨_, _, added⟩ := Success.bind_eq_ok_iff.mp added
    obtain ⟨label, required, added⟩ := Success.bind_eq_ok_iff.mp added
    cases added
    refine ⟨⟨fun _ => id, fun _ => id, List.subset_append_left _ _⟩, fun _ => ?_⟩
    exact .label named
      (GraphQL.Directive.argument?_of_requiredString required)
      (List.mem_append_right _ List.mem_cons_self)
  case h_5 notVertex notEdge notDiscriminator notAlias =>
    -- What is left alone has none of the names that are looked for.
    cases added
    refine ⟨.refl before, fun named => ?_⟩
    simp only [names, List.mem_cons, List.not_mem_nil, or_false] at named
    rcases named with named | named | named | named
    exacts [(notVertex named).elim, (notEdge named).elim,
      (notDiscriminator named).elim, (notAlias named).elim]

/-- All directives that are looked for on a type are held. -/
theorem heeds_of_read
    (wasRead : read type applied = .ok directives) :
    ∀ directive ∈ applied, directives.Heeds directive := by
  refine Success.forall_of_foldlM Heeds wasRead ?_ ?_
  · intro directive before after added
    exact (grows_of_add added).2
  · intro directive other before after added held named
    exact (held named).grows (grows_of_add added).1

/-- An index belongs to a field, so it is left alone on a type. -/
theorem add_of_name_eq_index
    (target : DirectiveTarget)
    (directives : TypeDirectives)
    (isIndex : directive.name = "index") :
    directives.add target directive = .ok directives := by
  simp only [add, isIndex]
  rfl

/-- What is left alone need not be there. -/
theorem read_filter
    (type : String)
    (applied : List GraphQL.Directive) :
    read type (applied.filter fun directive => directive.name ≠ "index") =
      read type applied := by
  unfold read
  generalize TypeDirectives.none = start
  induction applied generalizing start with
  | nil =>
      rfl
  | cons directive rest inductionHypothesis =>
      by_cases isIndex : directive.name = "index"
      · rw [List.filter_cons_of_neg (by simpa using isIndex),
          List.foldlM_cons, add_of_name_eq_index _ _ isIndex,
          inductionHypothesis]
        rfl
      · rw [List.filter_cons_of_pos (by simpa using isIndex),
          List.foldlM_cons, List.foldlM_cons]
        congr 1
        funext next
        exact inductionHypothesis next

end TypeDirectives

namespace FieldDirectives

variable {type field : String} {target : DirectiveTarget}
variable {before after directives : FieldDirectives}
variable {directive : GraphQL.Directive} {applied : List GraphQL.Directive}

/-- What a directive of a field says is among what is known of the field. -/
inductive Hold
    (directives : FieldDirectives)
    (directive : GraphQL.Directive) : Prop where
  | edge {collection : String} {direction : Direction} :
      directive.name = "edge" →
      directive.argument? "collection" = some (.string collection) →
      (directive.argument? "direction").getD (.enumeration "OUTBOUND") =
        .enumeration direction.render →
      directives.relation = some ⟨collection, direction⟩ →
      Hold directives directive
  | index {kind : IndexKind} {unique sparse : Bool} :
      directive.name = "index" →
      (directive.argument? "type").getD (.enumeration "PERSISTENT") =
        .enumeration kind.written →
      (directive.argument? "unique").getD (.boolean false) = .boolean unique →
      (directive.argument? "sparse").getD (.boolean false) = .boolean sparse →
      directives.index = some ⟨kind, unique, sparse⟩ →
      Hold directives directive

/-- A directive is held if it says anything about storage. -/
def Heeds (directives : FieldDirectives) (directive : GraphQL.Directive) : Prop :=
  directive.name ∈ storageDirectives → directives.Hold directive

/-- More is known of a field, and nothing has been taken back. -/
structure Grows (before after : FieldDirectives) : Prop where
  relation : ∀ relation, before.relation = some relation →
    after.relation = some relation
  index : ∀ index, before.index = some index → after.index = some index

theorem Hold.grows
    (held : before.Hold directive)
    (grows : before.Grows after) :
    after.Hold directive := by
  cases held with
  | edge named given directed known =>
      exact .edge named given directed (grows.relation _ known)
  | index named kind unique sparse known =>
      exact .index named kind unique sparse (grows.index _ known)

/-- A directive that is read is heeded, and what was known before is kept. -/
theorem grows_of_add
    (added : before.add target directive = .ok after) :
    before.Grows after ∧ after.Heeds directive := by
  unfold add at added
  split at added
  case h_1 named =>
    obtain ⟨_, _, added⟩ := Success.bind_eq_ok_iff.mp added
    obtain ⟨_, first, added⟩ := Success.bind_eq_ok_iff.mp added
    obtain ⟨direction, directed, added⟩ := Success.bind_eq_ok_iff.mp added
    obtain ⟨collection, required, added⟩ := Success.bind_eq_ok_iff.mp added
    cases added
    have notKnown := GraphQL.Directive.eq_none_of_allowOnce first
    refine ⟨⟨?_, fun _ => id⟩, fun _ => ?_⟩
    · simp [notKnown]
    · exact .edge named
        (GraphQL.Directive.argument?_of_requiredString required)
        (GraphQL.Directive.argument?_of_direction directed) rfl
  case h_2 named =>
    obtain ⟨_, _, added⟩ := Success.bind_eq_ok_iff.mp added
    obtain ⟨_, first, added⟩ := Success.bind_eq_ok_iff.mp added
    obtain ⟨kind, isKind, added⟩ := Success.bind_eq_ok_iff.mp added
    obtain ⟨unique, isUnique, added⟩ := Success.bind_eq_ok_iff.mp added
    obtain ⟨sparse, isSparse, added⟩ := Success.bind_eq_ok_iff.mp added
    cases added
    have notKnown := GraphQL.Directive.eq_none_of_allowOnce first
    refine ⟨⟨fun _ => id, ?_⟩, fun _ => ?_⟩
    · simp [notKnown]
    · exact .index named
        (GraphQL.Directive.argument?_of_indexKind isKind)
        (GraphQL.Directive.argument?_of_optionalBool isUnique)
        (GraphQL.Directive.argument?_of_optionalBool isSparse) rfl
  case h_6 notEdge notIndex notVertex notDiscriminator notAlias =>
    cases added
    refine ⟨⟨fun _ => id, fun _ => id⟩, fun named => ?_⟩
    simp only [storageDirectives, List.mem_cons, List.not_mem_nil, or_false] at named
    rcases named with named | named | named | named | named
    exacts [(notVertex named).elim, (notEdge named).elim,
      (notDiscriminator named).elim, (notAlias named).elim,
      (notIndex named).elim]
  all_goals contradiction

/-- All storage directives of a field are held, as those that belong to types are refused. -/
theorem heeds_of_read
    (wasRead : read type field applied = .ok directives) :
    ∀ directive ∈ applied, directives.Heeds directive := by
  refine Success.forall_of_foldlM Heeds wasRead ?_ ?_
  · intro directive before after added
    exact (grows_of_add added).2
  · intro directive other before after added held named
    exact (held named).grows (grows_of_add added).1

/-- Only an index is called one. -/
theorem Hold.index_isSome
    (held : directives.Hold directive)
    (named : directive.name = "index") :
    directives.index.isSome = true := by
  cases held with
  | edge other _ _ _ =>
      rw [named] at other
      contradiction
  | index _ _ _ _ known =>
      rw [known]
      rfl

end FieldDirectives

end GraphGate
