import GraphGate.Config.Host
import GraphGate.Proofs.Success
import Mathlib.Data.List.Induction
import Mathlib.Data.List.TakeWhile
import Mathlib.Data.Nat.Digits.Defs

namespace GraphGate

/-!
# Entries of the host list

An entry is a host without colons, a colon, and decimal digits that stand for a
port. Such a text is read, and no other one; an address is written as a text that
is read as the same address. A list of entries is read in order, or fails with
the first text that is no entry.
-/

/-- The number that decimal digits stand for, each of them counted by its place. -/
def decimalValue (digits : List Char) : Nat :=
  Nat.ofDigits 10 (digits.reverse.map fun c => c.toNat - '0'.toNat)

/-- The value of one more digit behind others. -/
theorem decimalValue_concat (digits : List Char) (c : Char) :
    decimalValue (digits ++ [c]) =
      decimalValue digits * 10 + (c.toNat - '0'.toNat) := by
  rw [decimalValue, List.reverse_concat, List.map_cons, Nat.ofDigits_cons,
    ← decimalValue]
  exact (Nat.add_comm _ _).trans
    (congrArg (· + _) (Nat.mul_comm 10 (decimalValue digits)))

theorem digitsValue_concat (digits : List Char) (c : Char) :
    digitsValue (digits ++ [c]) =
      digitsValue digits * 10 + (c.toNat - '0'.toNat) := by
  rw [digitsValue, List.foldl_concat, ← digitsValue]

/-- Digits are read from the left, and stand for their number by places. -/
theorem digitsValue_eq_decimalValue (digits : List Char) :
    digitsValue digits = decimalValue digits := by
  induction digits using List.reverseRecOn with
  | nil =>
      rfl
  | append_singleton digits c inductionHypothesis =>
      rw [digitsValue_concat, decimalValue_concat, inductionHypothesis]

/-- The digits of a number stand for it. -/
theorem digitsValue_toDigits (number : Nat) :
    digitsValue (Nat.toDigits 10 number) = number := by
  have sameFold :
      digitsValue (Nat.toDigits 10 number) =
        Nat.ofDigitChars 10 (Nat.toDigits 10 number) 0 := by
    rw [digitsValue, Nat.ofDigitChars_eq_foldl]
    congr 1
    funext value c
    rw [Nat.mul_comm]
  rw [sameFold, Nat.ofDigitChars_ten_toDigits]

namespace HostAddress

variable {text host : String} {digits : List Char}
variable {address : HostAddress} {port : UInt16}

/-- A text in the form of an entry: a host, a colon, and digits. -/
structure IsEntry (text host : String) (digits : List Char) : Prop where
  whole : text.toList = host.toList ++ ':' :: digits
  named : host ≠ ""
  withoutColon : ':' ∉ host.toList
  written : digits ≠ []
  decimal : ∀ c ∈ digits, c.isDigit = true

/-- Digits give a port exactly if there are any and their value is the port. -/
theorem port?_eq_some_iff :
    port? digits = some port ↔
      digits ≠ [] ∧ (∀ c ∈ digits, c.isDigit = true) ∧
        decimalValue digits = port.toNat := by
  rw [← digitsValue_eq_decimalValue, port?]
  by_cases refused : (digits.isEmpty || !digits.all Char.isDigit) = true
  · rw [if_pos refused]
    simp only [Bool.or_eq_true, List.isEmpty_iff, Bool.not_eq_true',
      List.all_eq_false] at refused
    refine ⟨nofun, ?_⟩
    rintro ⟨written, decimal, -⟩
    rcases refused with missing | ⟨c, member, other⟩
    · exact absurd missing written
    · exact absurd (decimal c member) other
  · rw [if_neg refused]
    simp only [Bool.or_eq_true, List.isEmpty_iff, Bool.not_eq_true',
      not_or, Bool.not_eq_false, List.all_eq_true] at refused
    obtain ⟨written, decimal⟩ := refused
    have inRange : port.toNat < 65536 := port.toNat_lt
    simp only [ne_eq, written, not_false_eq_true, true_and]
    rw [and_iff_right decimal]
    constructor
    · intro read
      split at read
      · rename_i small
        cases read
        exact (UInt16.toNat_ofNat_of_lt' small).symm
      · cases read
    · intro isValue
      rw [isValue, if_pos inRange, UInt16.ofNat_toNat]

/-- A text is read by what stands before its first colon, and the digits behind it. -/
theorem parse?_of_split
    {before : List Char}
    (split : text.toList = before ++ ':' :: digits)
    (withoutColon : ':' ∉ before) :
    parse? text =
      if before.isEmpty then
        none
      else
        (port? digits).map fun port => ⟨String.ofList before, port⟩ := by
  have isBefore : text.toList.takeWhile (· ≠ ':') = before := by
    rw [split, List.takeWhile_append_of_pos]
    · simp
    · intro c member
      rw [decide_eq_true_eq]
      rintro rfl
      exact withoutColon member
  simp only [parse?, isBefore]
  rw [split, List.drop_left]
  rfl

/-- A text without a colon is not read. -/
theorem parse?_of_no_colon
    (withoutColon : ':' ∉ text.toList) :
    parse? text = none := by
  have isWhole : text.toList.takeWhile (· ≠ ':') = text.toList := by
    rw [List.takeWhile_eq_self_iff]
    intro c member
    rw [decide_eq_true_eq]
    rintro rfl
    exact withoutColon member
  simp only [parse?, isWhole, List.drop_length]

/-- A text is read exactly if it is an entry with a port, and then as its host and its port. -/
theorem parse?_eq_some_iff :
    parse? text = some address ↔
      ∃ digits,
        IsEntry text address.host digits ∧
          decimalValue digits = address.port.toNat := by
  constructor
  · intro read
    by_cases hasColon : ':' ∈ text.toList
    · obtain ⟨before, digits, split, withoutColon⟩ :=
        List.eq_append_cons_of_mem hasColon
      rw [parse?_of_split split withoutColon] at read
      split at read
      · cases read
      · rename_i named
        obtain ⟨port, isPort, rfl⟩ := Option.map_eq_some_iff.mp read
        obtain ⟨written, decimal, isValue⟩ := port?_eq_some_iff.mp isPort
        have sameHost : (String.ofList before).toList = before :=
          String.toList_ofList
        refine ⟨digits, ⟨?_, ?_, ?_, written, decimal⟩, isValue⟩
        · rw [sameHost, split]
        · intro isEmpty
          have nothing : (String.ofList before).toList = "".toList :=
            congrArg String.toList isEmpty
          rw [sameHost] at nothing
          exact named (by rw [nothing]; rfl)
        · rwa [sameHost]
    · rw [parse?_of_no_colon hasColon] at read
      cases read
  · rintro ⟨digits, isEntry, isValue⟩
    have isPort : port? digits = some address.port :=
      port?_eq_some_iff.mpr ⟨isEntry.written, isEntry.decimal, isValue⟩
    have named : ¬ address.host.toList.isEmpty = true := by
      simpa [String.toList_eq_nil_iff] using isEntry.named
    rw [parse?_of_split isEntry.whole isEntry.withoutColon, if_neg named,
      isPort, String.ofList_toList]
    rfl

/-- Reading an entry tells its address, or which text is no entry. -/
theorem parse_eq_ok_iff :
    parse text = .ok address ↔ parse? text = some address := by
  unfold parse
  cases parse? text with
  | none =>
      simp
  | some read =>
      simp

theorem parse_eq_error_iff
    {cause : ConfigError} :
    parse text = .error cause ↔
      parse? text = none ∧ cause = .invalidHost text := by
  unfold parse
  cases parse? text with
  | none =>
      simp [eq_comm]
  | some read =>
      simp

/-- An address with a host that can stand in an entry is written as an entry. -/
theorem isEntry_render
    (named : address.host ≠ "")
    (withoutColon : ':' ∉ address.host.toList) :
    IsEntry address.render address.host
      (Nat.toDigits 10 address.port.toNat) where
  whole := by
    rw [render, String.toList_append, String.toList_append,
      Nat.toString_eq_ofList_toDigits, String.toList_ofList]
    simp
  named := named
  withoutColon := withoutColon
  written := Nat.toDigits_ne_nil
  decimal := fun _ member =>
    Nat.isDigit_of_mem_toDigits (by decide) (by decide) member

/-- An address that was read is written as a text that is read as the same address. -/
theorem parse?_render
    (read : parse? text = some address) :
    parse? address.render = some address := by
  obtain ⟨digits, isEntry, -⟩ := parse?_eq_some_iff.mp read
  refine parse?_eq_some_iff.mpr
    ⟨_, isEntry_render isEntry.named isEntry.withoutColon, ?_⟩
  rw [← digitsValue_eq_decimalValue, digitsValue_toDigits]

/-- A list of entries fails with the first text that is not read. -/
theorem parseAll_eq_error_iff
    {texts : List String}
    {cause : ConfigError} :
    parseAll texts = .error cause ↔
      ∃ earlier text later,
        texts = earlier ++ text :: later ∧
          (∀ other ∈ earlier, ∃ address, parse? other = some address) ∧
          parse? text = none ∧
          cause = .invalidHost text := by
  simp only [parseAll, Success.mapM_eq_error_iff, parse_eq_ok_iff,
    parse_eq_error_iff]

/--
A text is read exactly if it is a host that is not empty and has no colon, a
colon, and decimal digits, one at least, of a value of 65535 at most. It is read
as this host and this value, and every other text is named by the failure. An
address that was read is written as a text that is read as the same address. All
entries of a list are read in order, or the first that is not read is named.
-/
theorem entries_read_exactly :
    (∀ text,
      (∃ address, parse text = .ok address) ↔
        ∃ host digits,
          IsEntry text host digits ∧ decimalValue digits ≤ 65535) ∧
    (∀ text address,
      parse text = .ok address ↔
        ∃ digits,
          IsEntry text address.host digits ∧
            decimalValue digits = address.port.toNat) ∧
    (∀ text,
      (¬ ∃ address, parse text = .ok address) ↔
        parse text = .error (.invalidHost text)) ∧
    (∀ text address,
      parse text = .ok address → parse address.render = .ok address) ∧
    (∀ texts addresses,
      parseAll texts = .ok addresses ↔
        List.Forall₂ (fun text address => parse text = .ok address)
          texts addresses) ∧
    (∀ texts cause,
      parseAll texts = .error cause ↔
        ∃ earlier text later,
          texts = earlier ++ text :: later ∧
            (∀ other ∈ earlier, ∃ address, parse other = .ok address) ∧
            (¬ ∃ address, parse text = .ok address) ∧
            cause = .invalidHost text) := by
  have unread (text : String) :
      parse? text = none ↔ ¬ ∃ address, parse? text = some address := by
    rw [← Option.isSome_iff_exists, Option.not_isSome_iff_eq_none]
  refine ⟨?_, ?_, ?_, ?_, ?_, ?_⟩
  · intro text
    simp only [parse_eq_ok_iff, parse?_eq_some_iff]
    constructor
    · rintro ⟨address, digits, isEntry, isValue⟩
      have inRange : address.port.toNat < 65536 := address.port.toNat_lt
      exact ⟨_, digits, isEntry, by omega⟩
    · rintro ⟨host, digits, isEntry, inRange⟩
      have small : decimalValue digits < 65536 := by omega
      exact ⟨⟨host, UInt16.ofNat (decimalValue digits)⟩, digits, isEntry,
        (UInt16.toNat_ofNat_of_lt' small).symm⟩
  · intro text address
    rw [parse_eq_ok_iff, parse?_eq_some_iff]
  · intro text
    simp only [parse_eq_ok_iff, parse_eq_error_iff, and_true, unread]
  · intro text address read
    rw [parse_eq_ok_iff] at read ⊢
    exact parse?_render read
  · intro texts addresses
    exact Success.mapM_eq_ok_iff
  · intro texts cause
    simp only [parseAll_eq_error_iff, parse_eq_ok_iff, unread]

/-- A port may be written with any number of leading zeros. -/
theorem paddedPort_read :
    IsEntry "localhost:00000000008529" "localhost" "00000000008529".toList ∧
      parse "localhost:00000000008529" = .ok ⟨"localhost", 8529⟩ ∧
      parse (render ⟨"localhost", 8529⟩) = .ok ⟨"localhost", 8529⟩ := by
  have isEntry :
      IsEntry "localhost:00000000008529" "localhost"
        "00000000008529".toList :=
    ⟨by decide, by decide, by decide, by decide,
      List.all_eq_true.mp (by decide)⟩
  obtain ⟨-, reads, -, writes, -⟩ := entries_read_exactly
  have read : parse "localhost:00000000008529" = .ok ⟨"localhost", 8529⟩ :=
    (reads _ _).mpr ⟨_, isEntry, by decide⟩
  exact ⟨isEntry, read, writes _ _ read⟩

end HostAddress

end GraphGate
