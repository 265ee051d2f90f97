namespace GraphGate

/-!
# Readers

A reader takes a value off the front of a list and hands back the rest, or says
why it cannot. Every repetition stops when an item takes nothing, so each
reader ends on every input.
-/

/-- Takes a value off the front of a list, or says why it cannot. -/
def Reader (σ ε α : Type) : Type :=
  List σ → Except ε (α × List σ)

namespace Reader

variable {σ ε α β : Type}

/-- Takes nothing and gives the value. -/
protected def pure (value : α) : Reader σ ε α :=
  fun input => .ok (value, input)

/-- Reads one value, then what it calls for. -/
protected def bind (first : Reader σ ε α) (next : α → Reader σ ε β) :
    Reader σ ε β :=
  fun input =>
    match first input with
    | .error cause => .error cause
    | .ok (value, rest) => next value rest

instance : Monad (Reader σ ε) where
  pure := Reader.pure
  bind := Reader.bind

/-- The rest of the input, left in place. -/
def peek : Reader σ ε (List σ) :=
  fun input => .ok (input, input)

/-- Gives up for a cause found in the rest of the input. -/
def failAt (cause : List σ → ε) : Reader σ ε α :=
  fun input => .error (cause input)

/-- Moves on to a given rest of the input. -/
def moveTo (rest : List σ) : Reader σ ε Unit :=
  fun _ => .ok ((), rest)

/--
Reads items for as long as the input starts one. An item that takes nothing is
the last one.
-/
def manyWhile (starts : List σ → Bool) (item : Reader σ ε α) :
    Reader σ ε (List α) :=
  fun input =>
    if starts input then
      match item input with
      | .error cause => .error cause
      | .ok (value, rest) =>
          if rest.length < input.length then
            match manyWhile starts item rest with
            | .error cause => .error cause
            | .ok (values, rest) => .ok (value :: values, rest)
          else
            .ok ([value], rest)
    else
      .ok ([], input)
termination_by input => input.length

end Reader

end GraphGate
