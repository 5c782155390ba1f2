/-
# ASCII text helpers (`a2a/core/string_utils.h`).
-/
import A2A.Foundation.Bytes
import Mathlib.Data.List.DropRight

namespace A2A.Core

open A2A.Foundation List

/-- `std::isspace`. -/
def isSpace (b : UInt8) : Bool := b = 32 || (9 ≤ b && b ≤ 13)

/-- `std::tolower`. -/
def toLower (b : UInt8) : UInt8 := if 65 ≤ b ∧ b ≤ 90 then b + 32 else b

/-- `ToLowerAscii`. -/
def toLowerAscii (value : Bytes) : Bytes := value.map toLower

/-- `TrimAsciiWhitespace`. -/
def trimAsciiWhitespace (value : Bytes) : Bytes := (value.dropWhile isSpace).rdropWhile isSpace

/-- `EqualsAsciiCaseInsensitive`. -/
def equalsAsciiCaseInsensitive (lhs rhs : Bytes) : Bool := toLowerAscii lhs = toLowerAscii rhs

/-- The parts of a text between white space. -/
def words (text : Bytes) : List Bytes := (text.splitOnP isSpace).filter (· ≠ [])

/-- `std::from_chars` for an unsigned type with the given number of values. -/
def fromCharsUnsigned (values : Nat) (text : Bytes) : Except Errc (Nat × Bytes) :=
  let digits := text.takeWhile isDigitByte
  if digits.isEmpty then .error .invalidArgument
  else if decimalValue digits < values then .ok (decimalValue digits, text.drop digits.length)
  else .error .resultOutOfRange

/-! ## Lemmas -/

variable {p : UInt8 → Bool} {text word : Bytes} {values : Nat}

theorem dropWhile_eq_self_of_forall (h : ∀ b ∈ text, p b = false) : text.dropWhile p = text := by
  cases text with
  | nil => rfl
  | cons b text => exact dropWhile_cons_of_neg (by simp [h b])

theorem trim_congr {q : UInt8 → Bool} (h : ∀ b ∈ text, p b = q b) :
    (text.dropWhile p).rdropWhile p = (text.dropWhile q).rdropWhile q := by
  have hdrop : ∀ text : Bytes, (∀ b ∈ text, p b = q b) → text.dropWhile p = text.dropWhile q := by
    intro text h
    induction text with
    | nil => rfl
    | cons b text ih =>
      rw [dropWhile_cons, dropWhile_cons, h b (mem_cons_self ..), ih fun c hc => h c (mem_cons_of_mem _ hc)]
  rw [hdrop text h, List.rdropWhile, List.rdropWhile, hdrop]
  intro b hb
  apply h
  exact (dropWhile_suffix q).subset (mem_reverse.mp hb)

theorem trimAsciiWhitespace_of_noSpace (h : ∀ b ∈ text, isSpace b = false) : trimAsciiWhitespace text = text := by
  rw [trimAsciiWhitespace, dropWhile_eq_self_of_forall h, rdropWhile_eq_self_iff]
  intro hne
  simp [h _ (getLast_mem hne)]

theorem words_append_cons (hne : word ≠ []) (h : ∀ b ∈ word, isSpace b = false) {sep : UInt8}
    (hsep : isSpace sep) (rest : Bytes) : words (word ++ sep :: rest) = word :: words rest := by
  rw [words, splitOnP_append_cons_of_forall_mem h sep hsep, filter_cons_of_pos (by simpa using hne)]
  rfl

theorem words_singleton (hne : word ≠ []) (h : ∀ b ∈ word, isSpace b = false) : words word = [word] := by
  rw [words, splitOnP_eq_singleton h]
  simp [hne]

theorem fromCharsUnsigned_digits {digits : Bytes} (hne : digits ≠ []) (hdigits : ∀ b ∈ digits, isDigitByte b)
    (hvalue : decimalValue digits < values) : fromCharsUnsigned values digits = .ok (decimalValue digits, []) := by
  have hall : digits.takeWhile isDigitByte = digits := takeWhile_eq_self_iff.mpr hdigits
  simp only [fromCharsUnsigned, hall, List.isEmpty_iff, hne, hvalue, if_false, if_true, drop_length]

theorem fromCharsUnsigned_eq_ok {n : Nat} (h : fromCharsUnsigned values text = .ok (n, [])) :
    text ≠ [] ∧ (∀ b ∈ text, isDigitByte b) ∧ decimalValue text = n := by
  unfold fromCharsUnsigned at h
  dsimp only at h
  split_ifs at h with hempty hvalue
  obtain ⟨hn, hrest⟩ := Prod.mk.inj (Except.ok.inj h)
  have hall : text.takeWhile isDigitByte = text := by
    apply (List.takeWhile_prefix _).eq_of_length_le
    exact drop_eq_nil_iff.mp hrest
  rw [hall] at hempty hn
  exact ⟨mt List.isEmpty_iff.mpr hempty, takeWhile_eq_self_iff.mp hall, hn⟩

theorem isSpace_of_lt {b : UInt8} (h : 32 < b) : isSpace b = false := by
  have hhigh : ¬ b ≤ 13 := not_le_of_gt (lt_trans (by decide) h)
  simp [isSpace, ne_of_gt h, hhigh]

theorem isSpace_of_isDigitByte {b : UInt8} (h : isDigitByte b) : isSpace b = false := by
  simp only [isDigitByte, Bool.and_eq_true, decide_eq_true_eq] at h
  exact isSpace_of_lt (lt_of_lt_of_le (by decide) h.1)

end A2A.Core
