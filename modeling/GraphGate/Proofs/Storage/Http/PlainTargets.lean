import GraphGate.Storage.Http.Target
import Mathlib.Data.List.Basic
import Mathlib.Data.List.TakeWhile

namespace GraphGate.HttpTarget

/-!
# Targets of plain names

A path that is put together from plain names is sent as it is: nothing is cut
off, no step goes to another directory, and no character has to be escaped.
-/

variable {c other : Char} {name : List Char} {names : List (List Char)}
variable {others text : List Char}

/-! ## Plain characters -/

/-- A letter or digit of ASCII, an underscore or a dash. -/
def isPlainChar (c : Char) : Bool :=
  c.isAlphanum || c = '_' || c = '-'

/-- A text of plain characters. -/
def IsPlainSegment (text : List Char) : Prop :=
  ∀ c ∈ text, isPlainChar c = true

instance (text : List Char) : Decidable (IsPlainSegment text) :=
  decidable_of_iff (text.all isPlainChar = true) List.all_eq_true

/-- A name of plain characters. -/
def IsPlainName (name : String) : Prop :=
  name.toList ≠ [] ∧ IsPlainSegment name.toList

instance (name : String) : Decidable (IsPlainName name) :=
  inferInstanceAs (Decidable (_ ∧ _))

theorem ne_of_isPlainChar
    (plain : isPlainChar c = true)
    (odd : isPlainChar other = false) :
    c ≠ other := by
  rintro rfl
  rw [plain] at odd
  cases odd

theorem toNat_of_isPlainChar (plain : isPlainChar c = true) :
    0x21 ≤ c.toNat ∧ c.toNat ≤ 0x7E := by
  have isNumber : c.toNat = c.val.toNat := rfl
  have byCode :
      (decide (c.val ≥ 'A'.val ∧ c.val ≤ 'Z'.val) ||
        c.val ≥ 'a'.val && c.val ≤ 'z'.val ||
        c.val ≥ '0'.val && c.val ≤ '9'.val || c = '_' || c = '-') = true :=
    plain
  simp only [Bool.or_eq_true, Bool.and_eq_true, decide_eq_true_eq, ge_iff_le,
    UInt32.le_iff_toNat_le] at byCode
  rcases byCode with (((⟨low, high⟩ | ⟨low, high⟩) | ⟨low, high⟩) | rfl) | rfl
  · simp at low high
    omega
  · simp at low high
    omega
  · simp at low high
    omega
  · decide
  · decide

theorem mustEscape_of_isPlainChar
    (plain : isPlainChar c = true)
    (odd : others.any isPlainChar = false) :
    mustEscape others c = false := by
  obtain ⟨low, high⟩ := toNat_of_isPlainChar plain
  have notRefused : c ∉ others :=
    fun refused => List.any_eq_false.mp odd c refused plain
  simp only [mustEscape, Bool.or_eq_false_iff, decide_eq_false_iff_not,
    List.contains_eq_mem]
  exact ⟨⟨by omega, by omega⟩, notRefused⟩

theorem escape_of_kept
    (kept : ∀ c ∈ text, mustEscape others c = false) :
    escape others text = text := by
  have each : ∀ c ∈ text,
      (if mustEscape others c then
          (String.singleton c).toUTF8.data.toList.flatMap escapeByte
        else
          [c]) = [c] := by
    intro c member
    rw [kept c member]
    rfl
  rw [escape, List.flatMap_congr each]
  exact List.flatMap_singleton' text

/-! ## Segments -/

/-- A text that is within one segment. -/
def IsSegment (text : List Char) : Prop :=
  ∀ c ∈ text, c ≠ '/' ∧ c ≠ '\\'

instance (text : List Char) : Decidable (IsSegment text) :=
  decidable_of_iff (text.all fun c => c ≠ '/' ∧ c ≠ '\\') (by simp [IsSegment])

theorem isSegment_of_plain (plain : IsPlainSegment name) :
    IsSegment name :=
  fun c member =>
    ⟨ne_of_isPlainChar (plain c member) (by decide),
      ne_of_isPlainChar (plain c member) (by decide)⟩

theorem segments_cons
    (noSlash : c ≠ '/' ∧ c ≠ '\\')
    (rest : List Char) :
    segments (c :: rest) =
      match segments rest with
      | [] => [[c]]
      | segment :: others => (c :: segment) :: others := by
  rw [segments]
  exact if_neg (by simp [noSlash])

theorem segments_append_slash
    (isSegment : IsSegment name)
    (rest : List Char) :
    segments (name ++ '/' :: rest) = name :: segments rest := by
  induction name with
  | nil =>
      rfl
  | cons c name inductionHypothesis =>
      obtain ⟨noSlash, isSegment⟩ := List.forall_mem_cons.mp isSegment
      rw [List.cons_append, segments_cons noSlash, inductionHypothesis isSegment]

theorem segments_of_isSegment (isSegment : IsSegment name) :
    segments name = [name] := by
  induction name with
  | nil =>
      rfl
  | cons c name inductionHypothesis =>
      obtain ⟨noSlash, isSegment⟩ := List.forall_mem_cons.mp isSegment
      rw [segments_cons noSlash, inductionHypothesis isSegment]

/-- A path of names. -/
def pathOf (names : List (List Char)) : List Char :=
  names.flatMap ('/' :: ·)

theorem segments_append_pathOf
    (isSegment : IsSegment name)
    (areSegments : ∀ name ∈ names, IsSegment name) :
    segments (name ++ pathOf names) = name :: names := by
  induction names generalizing name with
  | nil =>
      rw [pathOf, List.flatMap_nil, List.append_nil,
        segments_of_isSegment isSegment]
  | cons next names inductionHypothesis =>
      obtain ⟨isNext, areSegments⟩ := List.forall_mem_cons.mp areSegments
      rw [pathOf, List.flatMap_cons, List.cons_append,
        segments_append_slash isSegment, ← pathOf,
        inductionHypothesis isNext areSegments]

/-- The names of a path are its segments, behind an empty one. -/
theorem segments_pathOf
    (filled : names ≠ [])
    (areSegments : ∀ name ∈ names, IsSegment name) :
    segments (pathOf names) = [] :: names := by
  cases names with
  | nil =>
      exact absurd rfl filled
  | cons name names =>
      obtain ⟨isSegment, areSegments⟩ := List.forall_mem_cons.mp areSegments
      rw [pathOf, List.flatMap_cons, List.cons_append,
        ← List.nil_append ('/' :: _), segments_append_slash (by simp [IsSegment]),
        ← pathOf, segments_append_pathOf isSegment areSegments]

theorem plainDots_of_plain (plain : IsPlainSegment name) :
    plainDots name = name := by
  induction name with
  | nil =>
      rfl
  | cons c name inductionHypothesis =>
      obtain ⟨isPlain, plain⟩ := List.forall_mem_cons.mp plain
      have noEscape :=
        ne_of_isPlainChar isPlain (by decide : isPlainChar '%' = false)
      rw [plainDots.eq_def]
      split
      · rename_i same
        cases same
        exact absurd rfl noEscape
      · rename_i same
        cases same
        rw [inductionHypothesis plain]
      · rename_i same
        cases same

/-- Plain names take no steps to other directories. -/
theorem resolve_of_plain
    (plain : ∀ name ∈ names, IsPlainSegment name)
    (path : List (List Char)) :
    resolve path names = path ++ names := by
  induction names generalizing path with
  | nil =>
      rw [resolve, List.append_nil]
  | cons name names inductionHypothesis =>
      obtain ⟨plainName, plainNames⟩ := List.forall_mem_cons.mp plain
      have noDot (member : '.' ∈ name) : False :=
        ne_of_isPlainChar (plainName '.' member)
          (by decide : isPlainChar '.' = false) rfl
      rw [resolve, plainDots_of_plain plainName]
      split
      · exact (noDot List.mem_cons_self).elim
      · exact (noDot List.mem_cons_self).elim
      · rw [inductionHypothesis plainNames, List.append_assoc,
          List.singleton_append]

/-! ## Targets -/

/-- Characters that are neither left out nor the end of a path. -/
def IsPrinted (text : List Char) : Prop :=
  ∀ c ∈ text, 0x20 < c.toNat ∧ c ≠ '#'

theorem trim_of_printed (printed : IsPrinted text) :
    (text.reverse.dropWhile fun c => c.toNat ≤ 0x20).reverse = text := by
  rw [List.dropWhile_eq_self_iff.mpr, List.reverse_reverse]
  intro inRange
  have isLast := List.mem_reverse.mp (List.getElem_mem inRange)
  simp only [decide_eq_true_eq]
  exact Nat.not_le.mpr (printed _ isLast).1

theorem filter_of_printed (printed : IsPrinted text) :
    (text.filter fun c => !(c = '\t' || c = '\n' || c = '\r')) = text := by
  refine List.filter_eq_self.mpr fun c member => ?_
  have isPrinted := (printed c member).1
  simp only [Bool.not_eq_true', Bool.or_eq_false_iff, decide_eq_false_iff_not]
  refine ⟨⟨?_, ?_⟩, ?_⟩
  · rintro rfl
    exact absurd isPrinted (by decide)
  · rintro rfl
    exact absurd isPrinted (by decide)
  · rintro rfl
    exact absurd isPrinted (by decide)

theorem takeWhile_of_printed (printed : IsPrinted text) :
    text.takeWhile (· ≠ '#') = text :=
  List.takeWhile_eq_self_iff.mpr fun c member => by
    simpa using (printed c member).2

theorem mem_pathOf
    (plain : ∀ name ∈ names, IsPlainSegment name)
    (member : c ∈ pathOf names) :
    isPlainChar c = true ∨ c = '/' := by
  obtain ⟨name, isName, member⟩ := List.mem_flatMap.mp member
  rcases List.mem_cons.mp member with rfl | inName
  · exact .inr rfl
  · exact .inl (plain name isName c inName)

/-- Behind the path of a call there is nothing, or one plain setting. -/
def IsPlainQuery (query : List Char) : Prop :=
  query = [] ∨
    ∃ key value,
      query = '?' :: (key ++ '=' :: value) ∧
        IsPlainSegment key ∧ IsPlainSegment value

/-- A key and its value, with a sign between them. -/
theorem mem_setting
    {key value : List Char}
    (plainKey : IsPlainSegment key)
    (plainValue : IsPlainSegment value)
    (member : c ∈ key ++ '=' :: value) :
    isPlainChar c = true ∨ c = '=' := by
  rcases List.mem_append.mp member with inKey | inRest
  · exact .inl (plainKey c inKey)
  · rcases List.mem_cons.mp inRest with rfl | inValue
    · exact .inr rfl
    · exact .inl (plainValue c inValue)

theorem isPrinted_of_plain
    {query : List Char}
    (plain : ∀ name ∈ names, IsPlainSegment name)
    (plainQuery : IsPlainQuery query) :
    IsPrinted (pathOf names ++ query) := by
  intro c member
  have isOne : isPlainChar c = true ∨ c = '/' ∨ c = '?' ∨ c = '=' := by
    rcases List.mem_append.mp member with inPath | inQuery
    · exact (mem_pathOf plain inPath).imp_right .inl
    · rcases plainQuery with rfl | ⟨key, value, rfl, plainKey, plainValue⟩
      · cases inQuery
      · rcases List.mem_cons.mp inQuery with rfl | inSetting
        · exact .inr (.inr (.inl rfl))
        · exact (mem_setting plainKey plainValue inSetting).imp_right
            fun same => .inr (.inr same)
  rcases isOne with isPlain | rfl | rfl | rfl
  · exact ⟨(toNat_of_isPlainChar isPlain).1,
      ne_of_isPlainChar isPlain (by decide)⟩
  · decide
  · decide
  · decide

theorem takeWhile_path
    {query : List Char}
    (plain : ∀ name ∈ names, IsPlainSegment name)
    (plainQuery : IsPlainQuery query) :
    (pathOf names ++ query).takeWhile (· ≠ '?') = pathOf names := by
  rw [List.takeWhile_append_of_pos]
  · rcases plainQuery with rfl | ⟨key, value, rfl, -⟩
    · exact List.append_nil _
    · simp
  · intro c member
    rcases mem_pathOf plain member with isPlain | rfl
    · simpa using ne_of_isPlainChar isPlain (by decide : isPlainChar '?' = false)
    · decide

/-- A path of plain names is sent as it is. -/
theorem render_of_plain
    {path : String}
    {query : List Char}
    (isPath : path.toList = pathOf names ++ query)
    (filled : names ≠ [])
    (plain : ∀ name ∈ names, IsPlainSegment name)
    (plainQuery : IsPlainQuery query) :
    render path = path := by
  have printed : IsPrinted (pathOf names ++ query) :=
    isPrinted_of_plain plain plainQuery
  have areSegments : ∀ name ∈ names, IsSegment name :=
    fun name isName => isSegment_of_plain (plain name isName)
  have written :
      (names.flatMap fun segment => '/' :: escape refusedInPath segment) =
        pathOf names :=
    List.flatMap_congr fun name isName =>
      congrArg ('/' :: ·) (escape_of_kept fun c member =>
        mustEscape_of_isPlainChar (plain name isName c member) (by decide))
  simp only [render, isPath, trim_of_printed printed, filter_of_printed printed,
    takeWhile_of_printed printed, takeWhile_path plain plainQuery,
    List.drop_left, segments_pathOf filled areSegments, List.drop_one,
    List.tail_cons, resolve_of_plain plain, List.nil_append, written]
  rw [← @String.ofList_toList path, isPath]
  rcases plainQuery with rfl | ⟨key, value, rfl, plainKey, plainValue⟩
  · rw [List.append_nil]
  · have kept :
        escape refusedInQuery (key ++ '=' :: value) = key ++ '=' :: value := by
      refine escape_of_kept fun c member => ?_
      rcases mem_setting plainKey plainValue member with isPlain | rfl
      · exact mustEscape_of_isPlainChar isPlain (by decide)
      · decide
    show
      String.ofList
          (pathOf names ++ '?' :: escape refusedInQuery (key ++ '=' :: value)) =
        _
    rw [kept]

end GraphGate.HttpTarget
