import GraphGate.Fetching

namespace GraphGate

/-!
# Runs of prepared fields

A field that is ready to be queried asks the database once. Whoever answers, the
field gives the shape of what its query gave.
-/

variable {σ : Type}

namespace DocumentsFragment

/-- A tree that expects no start document gives the records that it is answered with. -/
theorem run_execute
    {fragment : DocumentsFragment}
    {database : String}
    {timeout : Option Nat}
    {answer : σ → (command : Command) → command.Reply × σ}
    {state : σ}
    {records : List Json}
    (closed : fragment.traversesFromStart = false)
    (answered :
      (answer state (.query database fragment.render timeout)).1 =
        .finished (.ok records))
    (start : Option String)
    (path : FieldPath) :
    (Dialogue.run answer state
      (fragment.execute database start timeout path)).1 = .ok records := by
  simp only [execute, closed, Bool.false_eq_true, if_false]
  change
    (Dialogue.run answer state
      (Dialogue.bind (DatabaseDialogue.query database fragment.render timeout)
        _)).1 = _
  rw [Dialogue.run_bind]
  simp only [DatabaseDialogue.query, Dialogue.once, Dialogue.run, answered]
  rfl

end DocumentsFragment

namespace DataFetcher

/-- A prepared field gives the shape of what its query gave. -/
theorem run_executePrepared
    (fetcher : DataFetcher)
    (field : FieldDeclaration)
    (selection : FieldSelection)
    (fragment : DocumentsFragment)
    (start : Option String)
    (path : FieldPath)
    (answer : σ → (command : Command) → command.Reply × σ)
    (state : σ) :
    (Dialogue.run answer state
      (fetcher.executePrepared (.query field selection fragment start)
        path)).1 =
      fetcher.shape field selection fragment.cardinality path
        (Dialogue.run answer state
          (fragment.execute fetcher.database start fetcher.timeout path)).1 := by
  change (Dialogue.run answer state (Dialogue.bind _ _)).1 = _
  rw [Dialogue.run_bind]
  rfl

end DataFetcher

end GraphGate
