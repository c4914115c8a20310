import ItemTable.Json.Reader
import ItemTable.Number.Layout
import ItemTable.Proofs.Number
import ItemTable.Text.Quoted
import Mathlib.Data.List.TakeWhile

/-!
# Reading back quoted texts and integers

A quoted text is read character by character: every character has one spelling inside the
quotes, and each spelling is one piece.  An integer is read as its digits, which stop where a
comma or a closing bracket follows.  Whatever stands behind a token is left unread.
-/

namespace ItemTable

namespace Json

section Strings

variable {c letter : Char} {rest : List Char}

theorem hexValue?_hexDigit :
    ∀ value < 16, hexValue? (Text.hexDigit value) = some value := by
  decide

theorem readPieces_numeric {code : Nat} (small : code < 256) :
    readPieces ('\\' :: 'u' :: '0' :: '0' :: Text.hexDigit (code / 16) ::
        Text.hexDigit (code % 16) :: rest) =
      (readPieces rest).map fun (pieces, rest) => (.unit code :: pieces, rest) := by
  have zero : hexValue? '0' = some 0 := by decide
  have upper := hexValue?_hexDigit (code / 16) (by omega)
  have lower := hexValue?_hexDigit (code % 16) (by omega)
  have sum : ((0 * 16 + 0) * 16 + code / 16) * 16 + code % 16 = code := by omega
  rw [readPieces, zero, upper, lower]
  simp only [sum]

theorem readPieces_letter (notNumeric : letter ≠ 'u') (escaped : escapedChar? letter = some c) :
    readPieces ('\\' :: letter :: rest) =
      (readPieces rest).map fun (pieces, rest) => (.char c :: pieces, rest) := by
  rw [readPieces.eq_def]
  split <;> grind

/-- A character that stands for itself. -/
theorem readPieces_self (notQuote : c ≠ '"') (notEscape : c ≠ '\\') (visible : ¬ c.toNat < 0x20) :
    readPieces (c :: rest) =
      (readPieces rest).map fun (pieces, rest) => (.char c :: pieces, rest) := by
  rw [readPieces.eq_def]
  split <;> grind

/-- The piece that the spelling of a character is read as. -/
def pieceOf (c : Char) : StringPiece :=
  if c.toNat < 0x20 ∧ c.toNat ∉ [0x08, 0x09, 0x0A, 0x0C, 0x0D] then .unit c.toNat else .char c

/-- A control character that has a letter of its own. -/
theorem readPieces_lettered {code : Nat} (same : (c.toNat == code) = true)
    (lettered : code ∈ [0x08, 0x09, 0x0A, 0x0C, 0x0D]) (notNumeric : letter ≠ 'u')
    (escaped : escapedChar? letter = some (Char.ofNat code)) :
    readPieces ('\\' :: letter :: rest) =
      (readPieces rest).map fun (pieces, rest) => (pieceOf c :: pieces, rest) := by
  rw [beq_iff_eq] at same
  rw [← same, Char.ofNat_toNat] at escaped
  have piece : pieceOf c = .char c := by
    rw [pieceOf, if_neg]
    rintro ⟨-, unlettered⟩
    exact unlettered (same ▸ lettered)
  rw [piece]
  exact readPieces_letter notNumeric escaped

theorem readPieces_jsonChar (c : Char) (rest : List Char) :
    readPieces (Text.jsonChar c ++ rest) =
      (readPieces rest).map fun (pieces, rest) => (pieceOf c :: pieces, rest) := by
  unfold Text.jsonChar
  split
  · next quote =>
      rw [eq_of_beq quote]
      exact readPieces_letter (by decide) rfl
  split
  · next escape =>
      rw [eq_of_beq escape]
      exact readPieces_letter (by decide) rfl
  split
  · next same => exact readPieces_lettered same (by decide) (by decide) rfl
  split
  · next same => exact readPieces_lettered same (by decide) (by decide) rfl
  split
  · next same => exact readPieces_lettered same (by decide) (by decide) rfl
  split
  · next same => exact readPieces_lettered same (by decide) (by decide) rfl
  split
  · next same => exact readPieces_lettered same (by decide) (by decide) rfl
  split
  · next control =>
      have piece : pieceOf c = .unit c.toNat := by
        rw [pieceOf, if_pos]
        simp_all
      rw [piece]
      exact readPieces_numeric (by omega)
  · next notQuote notEscape _ _ _ _ _ visible =>
      have piece : pieceOf c = .char c := by
        rw [pieceOf, if_neg]
        exact fun control => visible control.1
      rw [piece]
      exact readPieces_self (by simpa using notQuote) (by simpa using notEscape) visible

theorem joinPieces_unit {code : Nat} (control : code < 0x20) (pieces : List StringPiece) :
    joinPieces (.unit code :: pieces) = (joinPieces pieces).map (Char.ofNat code :: ·) := by
  have noHigh : ¬ 0xD800 ≤ code := by omega
  have noLow : ¬ 0xDC00 ≤ code := by omega
  rw [joinPieces.eq_def]
  split <;> grind

theorem joinPieces_pieceOf (c : Char) (pieces : List StringPiece) :
    joinPieces (pieceOf c :: pieces) = (joinPieces pieces).map (c :: ·) := by
  rw [pieceOf]
  split
  · next control => rw [joinPieces_unit control.1, Char.ofNat_toNat]
  · rw [joinPieces]

theorem joinPieces_map_pieceOf (text : List Char) :
    joinPieces (text.map pieceOf) = some text := by
  induction text with
  | nil => rfl
  | cons c text induction => rw [List.map_cons, joinPieces_pieceOf, induction, Option.map_some]

theorem readPieces_flatMap_jsonChar (text rest : List Char) :
    readPieces (text.flatMap Text.jsonChar ++ '"' :: rest) = some (text.map pieceOf, rest) := by
  induction text with
  | nil => rfl
  | cons c text induction =>
      rw [List.flatMap_cons, List.append_assoc, readPieces_jsonChar, induction]
      rfl

/-- A quoted text is read back, and what follows the closing quote is left. -/
theorem readString_flatMap_jsonChar (text rest : List Char) :
    readString (text.flatMap Text.jsonChar ++ '"' :: rest) =
      some (some (String.ofList text), rest) := by
  rw [readString, readPieces_flatMap_jsonChar, Option.map_some]
  simp only [joinPieces_map_pieceOf, Option.map_some]

end Strings

end Json

namespace NumberLexeme

variable {value : Int}

/-- The digits of a natural number, as values. -/
def digitsOf (value : Nat) : List Nat :=
  (Nat.toDigits 10 value).map fun c => c.toNat - '0'.toNat

/-- The lexeme that an integer is written as. -/
def ofInt (value : Int) : NumberLexeme :=
  { negative := decide (value < 0)
    integer := digitsOf value.natAbs
    fraction := none
    exponent := none }

theorem natOf_digitsOf (value : Nat) : natOf (digitsOf value) = value := by
  have denoted := Nat.ofDigitChars_ten_toDigits (n := value)
  rw [Nat.ofDigitChars_eq_foldl] at denoted
  rw [natOf, digitsOf, List.foldl_map]
  simpa only [Nat.mul_comm] using denoted

theorem digitsOf_ne_nil (value : Nat) : digitsOf value ≠ [] := by
  rw [digitsOf, ne_eq, List.map_eq_nil_iff]
  exact Nat.toDigits_ne_nil

theorem digitsOf_of_lt {value : Nat} (single : value < 10) : digitsOf value = [value] := by
  have digit : ∀ value < 10, (Nat.digitChar value).toNat - '0'.toNat = value := by decide
  rw [digitsOf, Nat.toDigits_of_lt_base single, List.map_singleton, digit value single]

/-- Only zero starts with a zero. -/
theorem head?_digitsOf {value : Nat} (positive : 0 < value) :
    (digitsOf value).head? ≠ some 0 := by
  induction value using Nat.strongRecOn with
  | ind value induction =>
      by_cases single : value < 10
      · rw [digitsOf_of_lt single]
        simpa using Nat.ne_of_gt positive
      · have shorter := induction (value / 10) (by omega) (by omega)
        have split : digitsOf value =
            digitsOf (value / 10) ++ [(Nat.digitChar (value % 10)).toNat - '0'.toNat] := by
          rw [digitsOf, Nat.toDigits_of_base_le (by decide) (by omega), List.map_append, digitsOf,
            List.map_singleton]
        obtain ⟨first, later, same⟩ := List.exists_cons_of_ne_nil (digitsOf_ne_nil (value / 10))
        rw [same] at shorter split
        rw [split]
        exact shorter

/-- Appending digits does not make a number smaller. -/
theorem le_foldl (digits : List Nat) (start : Nat) :
    start ≤ digits.foldl (fun value digit => value * 10 + digit) start := by
  induction digits generalizing start with
  | nil => exact Nat.le_refl start
  | cons digit digits induction =>
      have grown : start ≤ start * 10 + digit := by omega
      exact Nat.le_trans grown (induction (start * 10 + digit))

/-- Digits that stay within the limit are all gathered. -/
theorem gather_of_le {significand : Nat} {digits : List Nat}
    (fits : digits.foldl (fun value digit => value * 10 + digit) significand ≤ significandLimit) :
    gather significand digits =
      (digits.foldl (fun value digit => value * 10 + digit) significand, []) := by
  induction digits generalizing significand with
  | nil => rfl
  | cons digit digits induction =>
      rw [List.foldl_cons] at fits
      have next := Nat.le_trans (le_foldl digits (significand * 10 + digit)) fits
      rw [gather]
      simp only [next, if_true]
      exact induction fits

theorem integer?_ofInt (value : Int) : (ofInt value).integer? = some value := by
  have magnitude := natOf_digitsOf value.natAbs
  rw [ofInt, integer?]
  simp only [magnitude, decide_eq_true_eq, Option.some.injEq]
  split <;> omega

/-- An integer that binary64 holds is read without rounding. -/
theorem scaled?_ofInt (small : value.natAbs < Nat.pow 2 53) :
    (ofInt value).scaled? = some (Number.ofInt value) := by
  have limit : Nat.pow 2 53 ≤ significandLimit := by decide
  have magnitude := natOf_digitsOf value.natAbs
  have gathered : gather 0 (digitsOf value.natAbs) = (value.natAbs, []) := by
    have fits : natOf (digitsOf value.natAbs) ≤ significandLimit := by omega
    rw [gather_of_le fits, ← natOf, magnitude]
  simp only [scaled?, ofInt, gathered, gather, Option.getD_none, Option.isNone_none,
    List.isEmpty_nil, Bool.and_true, if_true, Option.map_some, Option.some.injEq,
    decide_eq_true_eq]
  simp only [Number.ofInt, dif_pos small, Int.natAbs_natCast]
  split
  · next negative => simp [Number.negate, negative]
  · next positive => simp [positive]

end NumberLexeme

namespace Json

section Numbers

variable {rest : List Char}

/-- What follows a tree: nothing, a comma, or the bracket that closes its container. -/
def IsDelimited (rest : List Char) : Prop :=
  ∀ c ∈ rest.head?, c = ',' ∨ c = ']' ∨ c = '\x7d'

theorem readDigits_toDigits (value : Nat) (delimited : IsDelimited rest) :
    readDigits (Nat.toDigits 10 value ++ rest) = (NumberLexeme.digitsOf value, rest) := by
  have digits : ∀ c ∈ Nat.toDigits 10 value, c.isDigit = true := fun c member =>
    Nat.isDigit_of_mem_toDigits (by decide) (by decide) member
  have stops : rest.takeWhile Char.isDigit = [] ∧ rest.dropWhile Char.isDigit = rest := by
    cases rest with
    | nil => exact ⟨rfl, rfl⟩
    | cons c rest =>
        have noDigit : c.isDigit = false := by
          rcases delimited c rfl with rfl | rfl | rfl <;> rfl
        simp [noDigit]
  rw [readDigits, List.takeWhile_append_of_pos digits, List.dropWhile_append_of_pos digits,
    stops.1, stops.2, List.append_nil, NumberLexeme.digitsOf]

theorem readFraction_of_isDelimited (delimited : IsDelimited rest) :
    readFraction rest = some (none, rest) := by
  cases rest with
  | nil => rfl
  | cons c rest => rcases delimited c rfl with rfl | rfl | rfl <;> rfl

theorem readExponent_of_isDelimited (delimited : IsDelimited rest) :
    readExponent rest = some (none, rest) := by
  cases rest with
  | nil => rfl
  | cons c rest => rcases delimited c rfl with rfl | rfl | rfl <;> rfl

/-- An integer is read back, and what follows its digits is left. -/
theorem readNumber_integerText (value : Int) (delimited : IsDelimited rest) :
    readNumber (Number.integerText value ++ rest) = some (.ofInt value, rest) := by
  have read := readDigits_toDigits value.natAbs delimited
  have filled : (NumberLexeme.digitsOf value.natAbs).isEmpty = false := by
    simpa using NumberLexeme.digitsOf_ne_nil value.natAbs
  have leading : ((NumberLexeme.digitsOf value.natAbs).head? == some 0 &&
      (NumberLexeme.digitsOf value.natAbs).length != 1) = false := by
    rcases Nat.eq_zero_or_pos value.natAbs with zero | positive
    · rw [zero]
      rfl
    · simp [NumberLexeme.head?_digitsOf positive]
  rw [Number.integerText]
  split
  · next negative =>
      simp [readNumber, read, filled, leading, readFraction_of_isDelimited delimited,
        readExponent_of_isDelimited delimited, NumberLexeme.ofInt, negative]
  · next positive =>
      have unsigned : ∀ after, Nat.toDigits 10 value.natAbs ++ rest ≠ '-' :: after := by
        intro after same
        rw [same, readDigits] at read
        rw [← (Prod.mk.inj read).1] at filled
        exact Bool.noConfusion filled
      unfold readNumber
      split
      next signed =>
        split at signed
        · next same => exact absurd same (unsigned _)
        · cases signed
          simp [read, filled, leading, readFraction_of_isDelimited delimited,
            readExponent_of_isDelimited delimited, NumberLexeme.ofInt, positive]

end Numbers

end Json

end ItemTable
