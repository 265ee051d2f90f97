import GraphGate.Proofs.Aql.Nodes

namespace GraphGate

open GraphQL

/-!
# Placeholders in a query text

In a query text, strings and names may stand in quotes, and inside of quotes a
backslash escapes what follows. Elsewhere an `@` starts a placeholder, or two of
them one for a collection. What the text of a fragment tree has there are the
names that the tree binds and, before them, that of the start document.

This holds only if every quoted name ends where it should. Response keys are
escaped, and names have nothing to escape, but the property of a discriminator
is written between the marks as it is.
-/

/-- The characters between which a string or a name is quoted. -/
def quoteMarks : List Char :=
  ['"', '\x27', '\x60']

/-- Where the reader of a query text is. -/
inductive Reading where
  /-- Outside of everything quoted. -/
  | code
  /-- Inside of quotes. -/
  | quoted (mark : Char)
  /-- Behind a backslash inside of quotes. -/
  | escaped (mark : Char)
  /-- In a placeholder, with what has been read of its name. -/
  | placeholder (name : List Char)
deriving Repr, DecidableEq

namespace Reading

/-- Where a reader is behind a character outside of everything quoted. -/
def afterCode (c : Char) : Reading :=
  if c = '@' then
    .placeholder []
  else if c ∈ quoteMarks then
    .quoted c
  else
    .code

/-- The names of the placeholders in what is still to be read. -/
def names : Reading → List Char → List String
  | .placeholder name, [] => [String.ofList name]
  | _, [] => []
  | .code, c :: rest => (afterCode c).names rest
  | .quoted mark, c :: rest =>
      if c = '\\' then
        (escaped mark).names rest
      else if c = mark then
        code.names rest
      else
        (quoted mark).names rest
  | .escaped mark, _ :: rest => (quoted mark).names rest
  | .placeholder name, c :: rest =>
      if isNamePart c ∨ c = '@' ∧ name = [] then
        (placeholder (name ++ [c])).names rest
      else
        String.ofList name :: (afterCode c).names rest

end Reading

/-- The placeholders of a query text, by the names that their values are bound under. -/
def placeholders (text : String) : List String :=
  Reading.code.names text.toList

/-- What can stand between two marks. -/
inductive Quotes (mark : Char) : List Char → Prop where
  | nil : Quotes mark []
  | plain {c : Char} {body : List Char} :
      c ≠ '\\' → c ≠ mark → Quotes mark body → Quotes mark (c :: body)
  | escaped {c : Char} {body : List Char} :
      Quotes mark body → Quotes mark ('\\' :: c :: body)

/-- A character that neither starts a placeholder nor quotes anything. -/
def IsPlain (c : Char) : Prop :=
  c ≠ '@' ∧ c ∉ quoteMarks

instance (c : Char) : Decidable (IsPlain c) :=
  inferInstanceAs (Decidable (_ ∧ _))

/-- A text that neither starts a placeholder nor quotes anything. -/
def IsPlainText (text : List Char) : Prop :=
  ∀ c ∈ text, IsPlain c

instance (text : List Char) : Decidable (IsPlainText text) :=
  decidable_of_iff (text.all (IsPlain ·) = true) (by simp [IsPlainText])

/-- Where the name of a placeholder ends. -/
def EndsWord (text : List Char) : Prop :=
  ∀ c rest, text = c :: rest → isNamePart c = false ∧ c ≠ '@'

/-- The name of a placeholder, with a mark in front for a collection. -/
def IsPlaceholder (name : List Char) : Prop :=
  ∃ word, IsWord word ∧ (name = word ∨ name = '@' :: word)

/-- A text in which everything quoted ends, with the names of its placeholders. -/
inductive Reads : List Char → List String → Prop where
  | nil : Reads [] []
  | plain {c : Char} {text : List Char} {names : List String} :
      IsPlain c → Reads text names → Reads (c :: text) names
  | quoted {mark : Char} {body text : List Char} {names : List String} :
      mark ∈ quoteMarks → Quotes mark body → Reads text names →
      Reads (mark :: (body ++ mark :: text)) names
  | placeholder {name text : List Char} {names : List String} :
      IsPlaceholder name → EndsWord text → Reads text names →
      Reads ('@' :: (name ++ text)) (String.ofList name :: names)

theorem isPlain_of_isNamePart
    {c : Char}
    (part : isNamePart c = true) :
    IsPlain c := by
  constructor
  · rintro rfl
    revert part
    decide
  · intro isMark
    simp only [quoteMarks, List.mem_cons, List.not_mem_nil, or_false] at isMark
    rcases isMark with rfl | rfl | rfl <;> (revert part; decide)

theorem ne_at_of_mem_quoteMarks
    {mark : Char}
    (isMark : mark ∈ quoteMarks) :
    mark ≠ '@' := by
  rintro rfl
  revert isMark
  decide

theorem afterCode_of_isPlain
    {c : Char}
    (plain : IsPlain c) :
    Reading.afterCode c = .code := by
  rw [Reading.afterCode, if_neg plain.1, if_neg plain.2]

/-- A reader gets out of quotes where they end. -/
theorem names_quoted
    {mark : Char}
    (isMark : mark ∈ quoteMarks)
    {body : List Char}
    (quotes : Quotes mark body)
    (text : List Char) :
    (Reading.quoted mark).names (body ++ mark :: text) =
      Reading.code.names text := by
  have noBackslash : mark ≠ '\\' := by
    rintro rfl
    revert isMark
    decide
  induction quotes with
  | nil =>
      rw [List.nil_append, Reading.names, if_neg noBackslash, if_pos rfl]
  | plain notBackslash notMark _ inductionHypothesis =>
      rw [List.cons_append, Reading.names, if_neg notBackslash,
        if_neg notMark, inductionHypothesis]
  | escaped _ inductionHypothesis =>
      rw [List.cons_append, List.cons_append, Reading.names, if_pos rfl,
        Reading.names, inductionHypothesis]

theorem names_placeholder_of_isWord
    {word : List Char}
    (isWord : IsWord word)
    {text : List Char}
    (ends : EndsWord text)
    (start : List Char) :
    (Reading.placeholder start).names (word ++ text) =
      String.ofList (start ++ word) :: Reading.code.names text := by
  induction word generalizing start with
  | nil =>
      cases text with
      | nil =>
          simp [Reading.names]
      | cons c rest =>
          obtain ⟨noPart, noAt⟩ := ends c rest rfl
          simp [Reading.names, noPart, noAt]
  | cons c rest inductionHypothesis =>
      obtain ⟨part, restWord⟩ := List.forall_mem_cons.mp isWord
      rw [List.cons_append, Reading.names, if_pos (.inl part),
        inductionHypothesis restWord, List.append_assoc]
      rfl

/-- A reader gets out of a placeholder where its name ends. -/
theorem names_placeholder
    {name : List Char}
    (isPlaceholder : IsPlaceholder name)
    {text : List Char}
    (ends : EndsWord text) :
    (Reading.placeholder []).names (name ++ text) =
      String.ofList name :: Reading.code.names text := by
  obtain ⟨word, isWord, isName | isMarked⟩ := isPlaceholder
  · rw [isName, names_placeholder_of_isWord isWord ends, List.nil_append]
  · rw [isMarked, List.cons_append, Reading.names, if_pos (.inr ⟨rfl, rfl⟩),
      List.nil_append, names_placeholder_of_isWord isWord ends]
    rfl

/-- A reader finds the placeholders of a text in which everything quoted ends. -/
theorem Reads.names_eq
    {text : List Char}
    {names : List String}
    (reads : Reads text names) :
    Reading.code.names text = names := by
  induction reads with
  | nil =>
      rfl
  | plain plain _ inductionHypothesis =>
      rw [Reading.names, afterCode_of_isPlain plain, inductionHypothesis]
  | quoted isMark quotes _ inductionHypothesis =>
      rw [Reading.names, Reading.afterCode, if_neg (ne_at_of_mem_quoteMarks isMark),
        if_pos isMark, names_quoted isMark quotes, inductionHypothesis]
  | placeholder isPlaceholder ends _ inductionHypothesis =>
      rw [Reading.names, Reading.afterCode, if_pos rfl,
        names_placeholder isPlaceholder ends, inductionHypothesis]

example :
    placeholders "FOR v IN @@all FILTER v.`at @home` == @x RETURN \"@y\"" =
      ["@all", "x"] := by
  decide +kernel

theorem EndsWord.append
    {text more : List Char}
    (ends : EndsWord text)
    (moreEnds : EndsWord more) :
    EndsWord (text ++ more) := by
  cases text with
  | nil =>
      exact moreEnds
  | cons c rest =>
      intro first others isCons
      cases isCons
      exact ends c rest rfl

theorem endsWord_nil : EndsWord [] := by
  intro first others isCons
  cases isCons

theorem endsWord_cons
    {c : Char}
    (noPart : isNamePart c = false)
    (noAt : c ≠ '@')
    (rest : List Char) :
    EndsWord (c :: rest) := by
  intro first others isCons
  cases isCons
  exact ⟨noPart, noAt⟩

namespace Reads

variable {text more : List Char} {names others : List String}

/-- Two texts read one after the other, unless the second prolongs a placeholder. -/
theorem append
    (reads : Reads text names)
    (moreReads : Reads more others)
    (ends : EndsWord more) :
    Reads (text ++ more) (names ++ others) := by
  induction reads with
  | nil =>
      exact moreReads
  | plain plain _ inductionHypothesis =>
      exact .plain plain inductionHypothesis
  | quoted isMark quotes _ inductionHypothesis =>
      rw [List.cons_append, List.append_assoc]
      exact .quoted isMark quotes inductionHypothesis
  | placeholder isPlaceholder endsName _ inductionHypothesis =>
      rw [List.cons_append, List.append_assoc]
      exact .placeholder isPlaceholder (endsName.append ends)
        inductionHypothesis

/-- Anything can stand behind a text without placeholders. -/
theorem append_of_no_names
    (reads : Reads text [])
    (moreReads : Reads more others) :
    Reads (text ++ more) others := by
  generalize none : ([] : List String) = names at reads
  induction reads with
  | nil =>
      exact moreReads
  | plain plain _ inductionHypothesis =>
      exact .plain plain (inductionHypothesis none)
  | quoted isMark quotes _ inductionHypothesis =>
      rw [List.cons_append, List.append_assoc]
      exact .quoted isMark quotes (inductionHypothesis none)
  | placeholder _ _ _ _ =>
      cases none

theorem of_isPlainText
    (plain : IsPlainText text) :
    Reads text [] := by
  induction text with
  | nil =>
      exact .nil
  | cons c rest inductionHypothesis =>
      obtain ⟨first, others⟩ := List.forall_mem_cons.mp plain
      exact .plain first (inductionHypothesis others)

theorem append_singleton
    {c : Char}
    (reads : Reads text names)
    (plain : IsPlain c)
    (noPart : isNamePart c = false) :
    Reads (text ++ [c]) names := by
  have closed :=
    reads.append (.plain plain .nil) (endsWord_cons noPart plain.1 [])
  rwa [List.append_nil] at closed

theorem of_isWord
    (isWord : IsWord text) :
    Reads text [] :=
  of_isPlainText fun c member => isPlain_of_isNamePart (isWord c member)

theorem of_isPlaceholder
    {name : String}
    (isPlaceholder : IsPlaceholder name.toList) :
    Reads ('@' :: name.toList) [name] := by
  have reads := placeholder isPlaceholder endsWord_nil nil
  rwa [List.append_nil, String.ofList_toList] at reads

end Reads

namespace Quotes

variable {mark : Char} {body more : List Char}

theorem append
    (quotes : Quotes mark body)
    (moreQuotes : Quotes mark more) :
    Quotes mark (body ++ more) := by
  induction quotes with
  | nil =>
      exact moreQuotes
  | plain notBackslash notMark _ inductionHypothesis =>
      exact .plain notBackslash notMark inductionHypothesis
  | escaped _ inductionHypothesis =>
      exact .escaped inductionHypothesis

/-- Where nothing ends the quotes and nothing is escaped, any text can be quoted. -/
theorem of_forall
    (unbroken : ∀ c ∈ body, c ≠ '\\' ∧ c ≠ mark) :
    Quotes mark body := by
  induction body with
  | nil =>
      exact .nil
  | cons c rest inductionHypothesis =>
      obtain ⟨⟨notBackslash, notMark⟩, others⟩ := List.forall_mem_cons.mp unbroken
      exact .plain notBackslash notMark (inductionHypothesis others)

theorem digitChar
    {digit : Nat}
    (small : digit < 16)
    (quotes : Quotes '"' body) :
    Quotes '"' (Nat.digitChar digit :: body) := by
  have harmless :
      ∀ digit < 16,
        Nat.digitChar digit ≠ '\\' ∧ Nat.digitChar digit ≠ '"' := by
    decide
  exact .plain (harmless digit small).1 (harmless digit small).2 quotes

theorem escapeChar (c : Char) : Quotes '"' (Json.escapeChar c) := by
  unfold Json.escapeChar
  split
  · exact .escaped .nil
  · exact .escaped .nil
  · exact .escaped .nil
  · exact .escaped .nil
  · exact .escaped .nil
  · rename_i notQuote notBackslash _ _ _
    split
    · exact .escaped .nil
    · split
      · exact .escaped .nil
      · split
        · rename_i control
          have high : c.toNat / 16 < 16 := by omega
          have low : c.toNat % 16 < 16 := by omega
          exact .escaped (.plain (by decide) (by decide)
            (.plain (by decide) (by decide)
              (.digitChar high (.digitChar low .nil))))
        · exact .plain notBackslash notQuote .nil

theorem flatMap_escapeChar (text : List Char) :
    Quotes '"' (text.flatMap Json.escapeChar) := by
  induction text with
  | nil =>
      exact .nil
  | cons c rest inductionHypothesis =>
      rw [List.flatMap_cons]
      exact (escapeChar c).append inductionHypothesis

end Quotes

/-- Any string in quotes reads as a string. -/
theorem reads_quote (text : String) : Reads (Json.quote text).toList [] := by
  rw [Json.quote, String.toList_ofList]
  exact .quoted (by decide) (Quotes.flatMap_escapeChar text.toList) .nil

end GraphGate
