namespace GraphGate

/-!
# Resemblance of words

Two words resemble each other if they share most of their characters in about
the same places, those at the front counting more. The measure is that of Jaro
with the supplement of Winkler, and the words resemble each other above four
fifths.
-/

namespace Resemblance

/-- The characters of a second word that are taken by those of a first one. -/
structure Pairing where
  /-- The places that are taken, the latest first. -/
  places : List Nat
  /-- How often a place lies before the one taken just before. -/
  crossings : Nat

/-- How far apart the places of a shared character may be. -/
def reach (first second : List Char) : Nat :=
  max first.length second.length / 2 - 1

/-- Takes the first free place in reach that has a character. -/
def pair
    (second : List Char)
    (reach : Nat)
    (pairing : Pairing)
    (entry : Char × Nat) : Pairing :=
  let (c, place) := entry
  let free? :=
    (List.range second.length).find? fun other =>
      place ≤ other + reach && other ≤ place + reach &&
        second[other]? = some c && !pairing.places.contains other
  match free? with
  | none => pairing
  | some other =>
      let crosses := pairing.places.head?.any (other < ·)
      ⟨other :: pairing.places,
        if crosses then pairing.crossings + 1 else pairing.crossings⟩

/-- All pairs of two words. -/
def pairing (first second : List Char) : Pairing :=
  first.zipIdx.foldl (pair second (reach first second)) ⟨[], 0⟩

/-- The number of characters that two words start with. -/
def sharedStart : List Char → List Char → Nat
  | a :: first, b :: second => if a = b then sharedStart first second + 1 else 0
  | _, _ => 0

/--
Whether two words resemble each other. With `part / whole` the mean of the
shared parts of both words and of the pairs that do not cross, every character
at the front adds a tenth of what is missing to one.
-/
def resembles (first second : String) : Bool :=
  let first := first.toList
  let second := second.toList
  let pairing := pairing first second
  let shared := pairing.places.length
  let whole := 3 * first.length * second.length * shared
  let part :=
    shared * shared * (first.length + second.length) +
      (shared - pairing.crossings) * first.length * second.length
  8 * whole < 10 * part + sharedStart first second * (whole - part)

end Resemblance

end GraphGate
