import GraphGate.Proofs.Merging
import GraphGate.Proofs.Response.Placement
import GraphGate.Proofs.Success

namespace GraphGate

/-!
# Failures in the answer to a request

The top-level fields of a request have distinct response keys, so their failures
are reported apart from each other. A null that moves up beyond a field makes
the whole answer null, and stands above everything that was reported.
-/

/-- What stands at a place in an answer; the whole answer is null if it has no data. -/
inductive GraphQLResponse.Holds (response : GraphQLResponse) :
    List PathSegment → ResultNode → Prop where
  | missing :
      response.data = none →
      Holds response [] .null
  | field
      {data : List (String × ResultNode)}
      {entry : String × ResultNode}
      {place : List PathSegment}
      {node : ResultNode} :
      response.data = some data →
      entry ∈ data →
      entry.2.Holds place node →
      Holds response (.key entry.1 :: place) node

/-- An answer to the fields of some response keys, and the failures in it. -/
structure GraphQLResponse.Collects
    (response : GraphQLResponse)
    (keys : List String)
    (errors : List FieldError) : Prop where
  reported : response.errors = errors.map .field
  once : ReportedOnce ((keys.map PathSegment.key).map FieldPath.root.step) errors
  keys {data : List (String × ResultNode)} :
    response.data = some data → Table.keys data = keys
  keyed {data : List (String × ResultNode)} :
    response.data = some data → ∀ entry ∈ data, entry.2.Keyed
  nulled : ∀ failure ∈ errors,
    ∃ above, above <+: failure.path.segments ∧ response.Holds above .null

namespace GraphQLResponse

variable {response : GraphQLResponse} {keys : List String} {errors : List FieldError}
variable {key : String} {result : FetchResult}

theorem collects_empty : Collects .empty [] [] where
  reported := rfl
  once := .none _
  keys found := by
    cases found
    rfl
  keyed found := by
    cases found
    exact fun _ member => nomatch member
  nulled _ member := nomatch member

/-- With the answer to one more field there is data exactly if there was, and the field has some. -/
theorem data_add_eq_some_iff
    (collects : response.Collects keys errors)
    (fresh : key ∉ keys)
    {after : List (String × ResultNode)} :
    (response.add key result).data = some after ↔
      ∃ before node,
        response.data = some before ∧
          result.data = some node ∧ before ++ [(key, node)] = after := by
  cases before : response.data with
  | none =>
      simp [add, before]
  | some data =>
      have absent : key ∉ Table.keys data := by
        rw [collects.keys before]
        exact fresh
      cases answered : result.data with
      | none =>
          simp [add, before, answered]
      | some node =>
          simp [add, before, answered, Table.put_of_not_mem_keys absent]

/-- What stands in an answer with data still does where more data follows. -/
theorem Holds.of_subset
    {larger : GraphQLResponse}
    {place : List PathSegment}
    {node : ResultNode}
    {before after : List (String × ResultNode)}
    (holds : response.Holds place node)
    (isBefore : response.data = some before)
    (isAfter : larger.data = some after)
    (kept : before ⊆ after) :
    larger.Holds place node := by
  cases holds with
  | missing missing =>
      cases isBefore.symm.trans missing
  | field isData inData inside =>
      cases isBefore.symm.trans isData
      exact .field isAfter (kept inData) inside

/-- The answer to one more field brings its failures in, at nulls of their own. -/
theorem Collects.add
    (collects : response.Collects keys errors)
    (fresh : key ∉ keys)
    (pinned : Pinned (FieldPath.root.key key) result.data result.errors) :
    (response.add key result).Collects (keys ++ [key])
      (errors ++ result.errors) := by
  constructor
  · simp [GraphQLResponse.add, collects.reported]
  · rw [List.map_append, List.map_append]
    refine collects.once.append pinned.once ?_
    intro place isPlace other isOther
    obtain ⟨segment, isSegment, rfl⟩ := List.mem_map.mp isPlace
    obtain ⟨earlier, isEarlier, rfl⟩ := List.mem_map.mp isSegment
    cases List.mem_singleton.mp isOther
    refine FieldPath.apart_step FieldPath.root fun same => fresh ?_
    cases same
    exact isEarlier
  · intro after found
    obtain ⟨before, node, isBefore, -, rfl⟩ :=
      (data_add_eq_some_iff collects fresh).mp found
    simp only [Table.keys, List.map_append, List.map_cons, List.map_nil]
    rw [← collects.keys isBefore]
    rfl
  · intro after found entry member
    obtain ⟨before, node, isBefore, isNode, rfl⟩ :=
      (data_add_eq_some_iff collects fresh).mp found
    rcases List.mem_append.mp member with inBefore | isNew
    · exact collects.keyed isBefore entry inBefore
    · rw [List.mem_singleton] at isNew
      subst isNew
      exact pinned.keyed isNode
  · intro failure member
    cases after : (response.add key result).data with
    | none =>
        exact ⟨[], List.nil_prefix, .missing after⟩
    | some entries =>
        obtain ⟨before, node, isBefore, isNode, rfl⟩ :=
          (data_add_eq_some_iff collects fresh).mp after
        rcases List.mem_append.mp member with earlier | new
        · obtain ⟨above, isAbove, null⟩ := collects.nulled failure earlier
          exact ⟨above, isAbove, null.of_subset isBefore after
            (List.subset_append_left before _)⟩
        · obtain ⟨above, isAbove, null⟩ := pinned.nulled isNode new
          refine ⟨.key key :: above,
            by simpa [FieldPath.key, FieldPath.root] using isAbove, ?_⟩
          exact .field after
            (List.mem_append_right before (List.mem_singleton_self (key, node)))
            null

/-- Where response keys are distinct, whatever stands at a null or below it is that null. -/
theorem Collects.eq_null_of_above
    (collects : response.Collects keys errors)
    (distinct : keys.Nodup)
    {above place : List PathSegment}
    {node : ResultNode}
    (null : response.Holds above .null)
    (below : above <+: place)
    (holds : response.Holds place node) :
    node = .null := by
  cases holds with
  | missing _ =>
      rfl
  | field isData member inside =>
      cases null with
      | missing missing =>
          rw [isData] at missing
          cases missing
      | field isDataToo memberToo null =>
          rw [isData] at isDataToo
          cases isDataToo
          obtain ⟨sameKey, innerBelow⟩ := List.cons_prefix_cons.mp below
          have same :=
            List.inj_on_of_nodup_map
              (f := Prod.fst) (by
                change (Table.keys _).Nodup
                rw [collects.keys isData]
                exact distinct)
              memberToo member (PathSegment.key.inj sameKey)
          subst same
          exact null.eq_null_of_above (collects.keyed isData _ member)
            innerBelow inside

end GraphQLResponse

namespace DataFetcher

variable {σ : Type}

/-- What the query of a field gave is pinned, records or not. -/
theorem pinned_shape
    (fetcher : DataFetcher)
    (field : FieldDeclaration)
    (selection : FieldSelection)
    (cardinality : Cardinality)
    (path : FieldPath)
    (records : Except ExecutionError (List Json)) :
    Pinned path
      (fetcher.shape field selection cardinality path records).data
      (fetcher.shape field selection cardinality path records).errors := by
  cases records with
  | error cause =>
      simp only [shape]
      split
      · exact .of_fail (.execution cause)
      · exact .of_null_at (.execution cause)
  | ok records =>
      exact Shaper.pinned_complete _ _ _ _ _ _

/-- The answer to a prepared field is pinned, whoever answers its query. -/
theorem pinned_executePrepared
    (fetcher : DataFetcher)
    (prepared : PreparedField)
    (path : FieldPath)
    (answer : σ → (command : Command) → command.Reply × σ)
    (state : σ) :
    let result :=
      (Dialogue.run answer state (fetcher.executePrepared prepared path)).1
    Pinned path result.data result.errors := by
  cases prepared with
  | typename type =>
      exact .of_unreported (.scalar _)
  | query field selection fragment start =>
      rw [run_executePrepared]
      exact pinned_shape _ _ _ _ _ _

/-- A whole answer collects the failures of all its fields. -/
theorem collects_answerAll
    (fetcher : DataFetcher)
    (answer : σ → (command : Command) → command.Reply × σ)
    {prepared : List (String × PreparedField)}
    {keys : List String}
    {errors : List FieldError}
    {response : GraphQLResponse}
    (state : σ)
    (collects : response.Collects keys errors)
    (distinct : (keys ++ prepared.map Prod.fst).Nodup) :
    ∃ all,
      (Dialogue.run answer state
        (fetcher.answerAll response prepared)).1.Collects
          (keys ++ prepared.map Prod.fst) all := by
  induction prepared generalizing keys errors response state with
  | nil =>
      refine ⟨errors, ?_⟩
      rw [List.map_nil, List.append_nil]
      exact collects
  | cons first rest inductionHypothesis =>
      obtain ⟨key, field⟩ := first
      have fresh : key ∉ keys := by
        intro taken
        have apart := (List.nodup_append.mp distinct).2.2
        exact apart key taken key (by simp) rfl
      have pinned :=
        fetcher.pinned_executePrepared field (FieldPath.root.key key) answer
          state
      have onward :=
        inductionHypothesis
          (Dialogue.run answer state
            (fetcher.executePrepared field (FieldPath.root.key key))).2
          (collects.add fresh pinned) (by simpa using distinct)
      have continued :
          Dialogue.run answer state
              (fetcher.answerAll response ((key, field) :: rest)) =
            Dialogue.run answer state
              (Dialogue.bind
                (fetcher.executePrepared field (FieldPath.root.key key))
                fun result =>
                  fetcher.answerAll (response.add key result) rest) :=
        rfl
      rw [continued, Dialogue.run_bind]
      simpa using onward

/-- Fields are prepared under the response keys of their selections. -/
theorem keys_of_prepareAll
    {fetcher : DataFetcher}
    {selections : List FieldSelection}
    {prepared : List (String × PreparedField)}
    (succeeds : fetcher.prepareAll selections = .ok prepared) :
    prepared.map Prod.fst = selections.map FieldSelection.responseKey := by
  unfold prepareAll at succeeds
  induction selections generalizing prepared with
  | nil =>
      cases succeeds
      rfl
  | cons selection rest inductionHypothesis =>
      rw [List.mapM_cons, Success.bind_eq_ok_iff] at succeeds
      obtain ⟨first, isFirst, succeeds⟩ := succeeds
      obtain ⟨field, -, paired⟩ := Success.bind_eq_ok_iff.mp isFirst
      obtain ⟨others, areOthers, together⟩ := Success.bind_eq_ok_iff.mp succeeds
      cases paired
      cases together
      rw [List.map_cons, List.map_cons, inductionHypothesis areOthers]

end DataFetcher

/-- The top-level selections of a request have distinct response keys. -/
theorem GraphQLRequest.nodup_selections
    {request : GraphQLRequest}
    {selections : List FieldSelection}
    (expanded : request.selections = .ok selections) :
    (selections.map FieldSelection.responseKey).Nodup := by
  unfold GraphQLRequest.selections at expanded
  split at expanded
  · cases expanded
  · obtain ⟨operation, -, expanded⟩ := Success.bind_eq_ok_iff.mp expanded
    split at expanded
    · obtain ⟨all, -, merged⟩ := Success.bind_eq_ok_iff.mp expanded
      cases merged
      exact FieldSelection.nodup_merge all
    · cases expanded

namespace DataFetcher

variable {σ : Type}

/--
Whoever answers the queries of a request, no two failures of the answer have the
same place, and each failure that has a place has a null of the answer there or
above. Whatever else is asked for at such a place or below it is null as well.
-/
theorem handle_reports_at_nulls
    (fetcher : DataFetcher)
    (request : GraphQLRequest)
    (answer : σ → (command : Command) → command.Reply × σ)
    (state : σ) :
    let response := (Dialogue.run answer state (fetcher.handle request)).1
    (response.errors.filterMap ResponseError.path?).Nodup ∧
      ∀ failure ∈ response.errors, ∀ path, failure.path? = some path →
        (∃ above, above <+: path.segments ∧ response.Holds above .null) ∧
          ∀ place node,
            path.segments <+: place →
              response.Holds place node → node = .null := by
  unfold handle
  cases expanded : request.selections with
  | error cause =>
      refine ⟨List.nodup_nil, fun failure member path placed => ?_⟩
      cases List.mem_singleton.mp member
      cases placed
  | ok selections =>
      cases ready : fetcher.prepareAll selections with
      | error cause =>
          simp only [ready]
          refine ⟨List.nodup_nil, fun failure member path placed => ?_⟩
          cases List.mem_singleton.mp member
          cases placed
      | ok prepared =>
          simp only [ready]
          have distinct : (prepared.map Prod.fst).Nodup := by
            rw [keys_of_prepareAll ready]
            exact request.nodup_selections expanded
          obtain ⟨errors, collects⟩ :=
            fetcher.collects_answerAll answer state
              GraphQLResponse.collects_empty distinct
          generalize
            (Dialogue.run answer state
              (fetcher.answerAll .empty prepared)).1 = response at collects ⊢
          rw [List.nil_append] at collects
          constructor
          · have places :
                response.errors.filterMap ResponseError.path? =
                  errors.map FieldError.path := by
              rw [collects.reported, List.filterMap_map, ← List.filterMap_eq_map]
              rfl
            rw [places]
            exact collects.once.distinct
          · intro failure member path placed
            rw [collects.reported] at member
            obtain ⟨fieldFailure, isFailure, rfl⟩ := List.mem_map.mp member
            cases placed
            obtain ⟨above, isAbove, null⟩ :=
              collects.nulled fieldFailure isFailure
            refine ⟨⟨above, isAbove, null⟩, fun place node below holds => ?_⟩
            exact collects.eq_null_of_above distinct null
              (isAbove.trans below) holds

end DataFetcher

end GraphGate
