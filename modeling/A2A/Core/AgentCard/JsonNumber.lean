/-
# How numbers are written in a signing payload (`agent_card_json.cpp`).
-/
import A2A.Foundation.Json
import Mathlib.Data.List.TakeWhile
import Mathlib.Data.Nat.Digits.Lemmas
import Mathlib.Data.Rat.Lemmas
import Mathlib.Tactic.Ring

namespace A2A.Core.AgentCard

open A2A.Foundation List

/-- A finite nonzero value by the digits and the exponent of its scientific text. -/
@[ext]
structure Scientific where
  negative : Bool
  first : Fin 10
  more : List (Fin 10)
  exponent : Int
  first_ne : first ≠ 0
  more_trimmed : more.getLast? ≠ some 0
  deriving DecidableEq

/-- A number in shortest scientific form. -/
inductive JsonNumber where
  | zero
  | scientific (value : Scientific)
  deriving DecidableEq

def JsonNumber.ten : JsonNumber := .scientific ⟨false, 1, [], 1, by decide, by decide⟩

def digit (d : Fin 10) : Char := Char.ofNat (48 + d.val)

def Scientific.digits (value : Scientific) : Text := (value.first :: value.more).map digit

/-- `std::to_string` of an exponent. -/
def exponentText (z : Int) : Text :=
  if z < 0 then '-' :: Nat.toDigits 10 z.natAbs else Nat.toDigits 10 z.toNat

def kSmallestDecimalExponent : Int := -6
def kLargestDecimalExponent : Int := 21
def kCanonicalZero : Text := ['0']
def kDecimalFractionPrefix : Text := ['0', '.']

def exponentLayout (digits : Text) (exponent : Int) : Text :=
  (digits.take 1 ++ if digits.length > 1 then '.' :: digits.drop 1 else []) ++
    'e' :: ((if exponent ≥ 0 then ['+'] else []) ++ exponentText exponent)

/-- A number below one, without exponent. -/
def fractionLayout (digits : Text) (exponent : Int) : Text :=
  kDecimalFractionPrefix ++ (List.replicate ((-exponent).toNat - 1) '0' ++ digits)

def decimalLayout (digits : Text) (exponent : Int) : Text :=
  let decimalAt := exponent.toNat + 1
  if decimalAt ≥ digits.length then digits ++ List.replicate (decimalAt - digits.length) '0'
  else digits.take decimalAt ++ '.' :: digits.drop decimalAt

/-- `Number`, for the magnitude. -/
def magnitude (digits : Text) (exponent : Int) : Text :=
  if exponent < kSmallestDecimalExponent ∨ exponent ≥ kLargestDecimalExponent then
    exponentLayout digits exponent
  else if exponent < 0 then fractionLayout digits exponent
  else decimalLayout digits exponent

/-- `Number`. -/
def number : JsonNumber → Text
  | .zero => kCanonicalZero
  | .scientific value =>
    (if value.negative then ['-'] else []) ++ magnitude value.digits value.exponent

/-! ## Digits -/

theorem digit_injective : Function.Injective digit := by
  intro a b h
  revert a b
  decide

theorem isDigit_digit (d : Fin 10) : (digit d).isDigit := by
  revert d
  decide

/-- Digits of a scientific text: the first is not zero, and no zeros at the end. -/
structure Digits (text : Text) : Prop where
  isDigit : ∀ c ∈ text, c.isDigit = true
  first : ∃ c rest, text = c :: rest ∧ c ≠ '0'
  last : text.getLast? ≠ some '0'

theorem Scientific.getLast_ne (value : Scientific) : (value.first :: value.more).getLast? ≠ some 0 := by
  rw [List.getLast?_cons]
  intro hlast
  cases hmore : value.more.getLast? with
  | none =>
    rw [hmore] at hlast
    exact value.first_ne (Option.some.inj hlast)
  | some last =>
    rw [hmore] at hlast
    exact value.more_trimmed (hmore.trans hlast)

theorem Scientific.digits_ok (value : Scientific) : Digits value.digits := by
  have hzero : ∀ d : Fin 10, digit d = '0' → d = 0 := fun d hd => digit_injective (hd.trans rfl)
  refine ⟨?_, ⟨digit value.first, value.more.map digit, rfl, ?_⟩, ?_⟩
  · intro c hc
    obtain ⟨d, -, rfl⟩ := mem_map.mp hc
    exact isDigit_digit d
  · intro hfirst
    exact value.first_ne (hzero _ hfirst)
  · intro hlast
    rw [Scientific.digits, List.getLast?_map] at hlast
    obtain ⟨d, hd, hd0⟩ := Option.map_eq_some_iff.mp hlast
    exact value.getLast_ne (hzero d hd0 ▸ hd)

/-! ## What a text denotes -/

def digitsValue (digits : Text) : Nat := Nat.ofDigitChars 10 digits 0

def exponentValue : Text → Int
  | '+' :: digits => digitsValue digits
  | '-' :: digits => -digitsValue digits
  | digits => digitsValue digits

def mantissaValue (text : Text) : ℚ :=
  let fraction := (text.dropWhile (· ≠ '.')).tail
  digitsValue (text.takeWhile (· ≠ '.') ++ fraction) / 10 ^ fraction.length

def magnitudeValue (text : Text) : ℚ :=
  mantissaValue (text.takeWhile (· ≠ 'e')) * 10 ^ exponentValue (text.dropWhile (· ≠ 'e')).tail

def textValue : Text → ℚ
  | '-' :: text => -magnitudeValue text
  | text => magnitudeValue text

def Scientific.coefficient (value : Scientific) : Nat :=
  Nat.ofDigits 10 ((value.first :: value.more).map Fin.val).reverse

def Scientific.signed (value : Scientific) : Int := if value.negative then -value.coefficient else value.coefficient

/-- The value that the sign, the digits and the exponent stand for. -/
def JsonNumber.value : JsonNumber → ℚ
  | .zero => 0
  | .scientific value => value.signed * 10 ^ (value.exponent - value.more.length)

theorem digitsValue_map_digit (digits : List (Fin 10)) :
    digitsValue (digits.map digit) = Nat.ofDigits 10 (digits.map Fin.val).reverse := by
  induction digits using List.reverseRecOn with
  | nil => rfl
  | append_singleton digits d ih =>
    have hdigit : (digit d).toNat - '0'.toNat = d.val := by
      revert d
      decide
    rw [digitsValue] at ih ⊢
    rw [map_append, map_append, Nat.ofDigitChars_append, ih, reverse_append]
    show 10 * _ + ((digit d).toNat - '0'.toNat) = Nat.ofDigits 10 (d.val :: _)
    rw [hdigit, Nat.ofDigits_cons, Nat.add_comm]
    rfl

theorem digitsValue_append_zeros (digits : Text) (m : Nat) :
    digitsValue (digits ++ List.replicate m '0') = digitsValue digits * 10 ^ m := by
  induction m with
  | zero => simp
  | succ m ih =>
    rw [replicate_succ', ← append_assoc, digitsValue, Nat.ofDigitChars_append, ← digitsValue, ih, pow_succ,
      ← Nat.mul_assoc, Nat.mul_comm _ 10]
    rfl

theorem digitsValue_zeros_append (m : Nat) (digits : Text) :
    digitsValue (List.replicate m '0' ++ digits) = digitsValue digits := by
  induction m with
  | zero => rfl
  | succ m ih => exact ih

section Cut

variable {symbol : Char} {text : Text} (h : ∀ c ∈ text, c ≠ symbol)

include h

theorem cut_of_free : text.takeWhile (· ≠ symbol) = text ∧ text.dropWhile (· ≠ symbol) = [] := by
  have hfree : ∀ c ∈ text, decide (c ≠ symbol) := fun c hc => decide_eq_true (h c hc)
  exact ⟨takeWhile_eq_self_iff.mpr hfree, dropWhile_eq_nil_iff.mpr hfree⟩

theorem cut_append (rest : Text) : (text ++ symbol :: rest).takeWhile (· ≠ symbol) = text ∧
    (text ++ symbol :: rest).dropWhile (· ≠ symbol) = symbol :: rest := by
  have hfree : ∀ c ∈ text, decide (c ≠ symbol) := fun c hc => decide_eq_true (h c hc)
  rw [takeWhile_append_of_pos hfree, dropWhile_append_of_pos hfree]
  simp

end Cut

theorem mantissaValue_of_free {text : Text} (h : ∀ c ∈ text, c ≠ '.') : mantissaValue text = digitsValue text := by
  obtain ⟨hwhole, hfraction⟩ := cut_of_free h
  rw [mantissaValue, hwhole, hfraction]
  simp

theorem mantissaValue_append {text : Text} (h : ∀ c ∈ text, c ≠ '.') (fraction : Text) :
    mantissaValue (text ++ '.' :: fraction) = digitsValue (text ++ fraction) / 10 ^ fraction.length := by
  obtain ⟨hwhole, hfraction⟩ := cut_append h fraction
  rw [mantissaValue, hwhole, hfraction]
  rfl

theorem magnitudeValue_of_free {text : Text} (h : ∀ c ∈ text, c ≠ 'e') : magnitudeValue text = mantissaValue text := by
  obtain ⟨hmantissa, hexponent⟩ := cut_of_free h
  rw [magnitudeValue, hmantissa, hexponent]
  exact mul_one _

theorem magnitudeValue_append {text : Text} (h : ∀ c ∈ text, c ≠ 'e') (tail : Text) :
    magnitudeValue (text ++ 'e' :: tail) = mantissaValue text * 10 ^ exponentValue tail := by
  obtain ⟨hmantissa, hexponent⟩ := cut_append h tail
  rw [magnitudeValue, hmantissa, hexponent]
  rfl

theorem signed_exponentText (z : Int) : (if z ≥ 0 then ['+'] else []) ++ exponentText z =
    (if 0 ≤ z then '+' else '-') :: Nat.toDigits 10 z.natAbs := by
  unfold exponentText
  by_cases hpos : 0 ≤ z
  · have hneg : ¬ z < 0 := by omega
    rw [if_pos hpos, if_pos hpos, if_neg hneg, show z.natAbs = z.toNat by omega]
    rfl
  · have hneg : z < 0 := by omega
    rw [if_neg hpos, if_neg hpos, if_pos hneg]
    rfl

theorem exponentValue_signed (z : Int) :
    exponentValue ((if 0 ≤ z then '+' else '-') :: Nat.toDigits 10 z.natAbs) = z := by
  have hread : digitsValue (Nat.toDigits 10 z.natAbs) = z.natAbs := Nat.ofDigitChars_toDigits (by omega) (by omega)
  split_ifs
  · show ((digitsValue _ : Nat) : Int) = z
    omega
  · show -((digitsValue _ : Nat) : Int) = z
    omega

/-! ## The layouts -/

section Layouts

variable {digits : Text} {exponent : Int} (hd : Digits digits)

theorem forall_mem_decimalLayout {P : Char → Prop} (hdigits : ∀ c ∈ digits, P c) (hzero : P '0') (hpoint : P '.') :
    ∀ c ∈ decimalLayout digits exponent, P c := by
  intro c hc
  unfold decimalLayout at hc
  dsimp only at hc
  split_ifs at hc
  · rcases mem_append.mp hc with h | h
    · exact hdigits c h
    · rw [eq_of_mem_replicate h]
      exact hzero
  · rcases mem_append.mp hc with h | h
    · exact hdigits c (mem_of_mem_take h)
    · rcases mem_cons.mp h with rfl | h
      · exact hpoint
      · exact hdigits c (mem_of_mem_drop h)

theorem forall_mem_fractionLayout {P : Char → Prop} (hdigits : ∀ c ∈ digits, P c) (hzero : P '0') (hpoint : P '.') :
    ∀ c ∈ fractionLayout digits exponent, P c := by
  intro c hc
  simp only [fractionLayout, kDecimalFractionPrefix, mem_append, mem_cons, not_mem_nil, or_false, mem_replicate] at hc
  rcases hc with (rfl | rfl) | ⟨-, rfl⟩ | h
  · exact hzero
  · exact hpoint
  · exact hzero
  · exact hdigits c h

def wholePart (digits : Text) (exponent : Int) : Text :=
  digits.take (exponent.toNat + 1) ++ List.replicate (exponent.toNat + 1 - digits.length) '0'

/-- The point and what stands behind it, if anything. -/
def pointPart (digits : Text) (exponent : Int) : Text :=
  if exponent.toNat + 1 ≥ digits.length then [] else '.' :: digits.drop (exponent.toNat + 1)

theorem decimalLayout_eq (digits : Text) (exponent : Int) :
    decimalLayout digits exponent = wholePart digits exponent ++ pointPart digits exponent := by
  unfold decimalLayout wholePart pointPart
  dsimp only
  split_ifs with hlong
  · rw [append_nil, take_of_length_le hlong]
  · rw [Nat.sub_eq_zero_of_le (by omega), replicate_zero, append_nil]

include hd in
theorem ne_of_mem_digits {symbol : Char} (hsymbol : symbol.isDigit = false) : ∀ c ∈ digits, c ≠ symbol := by
  rintro c hc rfl
  exact Bool.false_ne_true (hsymbol.symm.trans (hd.isDigit _ hc))

include hd in
/-- In front of its exponent a number is written as one between one and ten. -/
theorem exponentLayout_eq : exponentLayout digits exponent =
    decimalLayout digits 0 ++ 'e' :: ((if exponent ≥ 0 then ['+'] else []) ++ exponentText exponent) := by
  obtain ⟨c, rest, rfl, -⟩ := hd.first
  cases rest with
  | nil | cons => rfl

include hd in
theorem mantissaValue_fractionLayout (hneg : exponent < 0) : mantissaValue (fractionLayout digits exponent) =
    digitsValue digits * (10 : ℚ) ^ (exponent - (digits.length - 1 : Nat)) := by
  obtain ⟨c, rest, rfl, -⟩ := hd.first
  have hlength : exponent - ((c :: rest).length - 1 : Nat) =
      -((List.replicate ((-exponent).toNat - 1) '0' ++ c :: rest).length : Nat) := by
    simp
    omega
  rw [hlength, zpow_neg, zpow_natCast, ← div_eq_mul_inv, ← digitsValue_zeros_append ((-exponent).toNat - 1 + 1)]
  exact @mantissaValue_append ['0'] (by simp) _

include hd in
theorem mantissaValue_decimalLayout (hpos : 0 ≤ exponent) : mantissaValue (decimalLayout digits exponent) =
    digitsValue digits * (10 : ℚ) ^ (exponent - (digits.length - 1 : Nat)) := by
  have hpoint : ∀ c ∈ digits, c ≠ '.' := ne_of_mem_digits hd rfl
  have hne : 0 < digits.length := by
    obtain ⟨c, rest, rfl, -⟩ := hd.first
    exact Nat.succ_pos _
  unfold decimalLayout
  dsimp only
  split_ifs with hlong
  · -- zeros behind the digits
    have hzeros : exponent - (digits.length - 1 : Nat) = ((exponent.toNat + 1 - digits.length : Nat) : Int) := by omega
    rw [mantissaValue_of_free, digitsValue_append_zeros, hzeros, zpow_natCast]
    · push_cast
      rfl
    · intro c hc
      rcases mem_append.mp hc with h | h
      · exact hpoint c h
      · rw [eq_of_mem_replicate h]
        decide
  · -- a point between them
    have hfraction : exponent - (digits.length - 1 : Nat) = -((digits.drop (exponent.toNat + 1)).length : Int) := by
      rw [length_drop]
      omega
    rw [mantissaValue_append fun c hc => hpoint c (mem_of_mem_take hc), take_append_drop, hfraction, zpow_neg,
      zpow_natCast, div_eq_mul_inv]

include hd in
theorem magnitudeValue_magnitude : magnitudeValue (magnitude digits exponent) =
    digitsValue digits * (10 : ℚ) ^ (exponent - (digits.length - 1 : Nat)) := by
  have hletter : ∀ c ∈ digits, c ≠ 'e' := ne_of_mem_digits hd rfl
  unfold magnitude
  split_ifs with hlarge hneg
  · rw [exponentLayout_eq hd, magnitudeValue_append (forall_mem_decimalLayout hletter (by decide) (by decide)),
      mantissaValue_decimalLayout hd (le_refl 0), signed_exponentText, exponentValue_signed, mul_assoc,
      ← zpow_add₀ (by norm_num)]
    congr 2
    omega
  · rw [magnitudeValue_of_free (forall_mem_fractionLayout hletter (by decide) (by decide))]
    exact mantissaValue_fractionLayout hd hneg
  · rw [magnitudeValue_of_free (forall_mem_decimalLayout hletter (by decide) (by decide))]
    exact mantissaValue_decimalLayout hd (by omega)

include hd in
theorem magnitude_lead (exponent : Int) : ∃ c rest, magnitude digits exponent = c :: rest ∧ c.isDigit := by
  obtain ⟨c, rest, hdigits, -⟩ := hd.first
  have hdigit : c.isDigit := hd.isDigit c (by rw [hdigits]; exact mem_cons_self)
  unfold magnitude
  split_ifs
  · exact ⟨c, _, by rw [exponentLayout, hdigits]; rfl, hdigit⟩
  · exact ⟨'0', _, rfl, by decide⟩
  · rw [decimalLayout_eq, hdigits]
    exact ⟨c, _, rfl, hdigit⟩

end Layouts

/-! ## The symbols of a number -/

def NumberSymbol (c : Char) : Prop := c.isDigit = true ∨ c = '.' ∨ c = 'e' ∨ c = '+' ∨ c = '-'

theorem numberSymbol_exponentText (z : Int) : ∀ c ∈ exponentText z, NumberSymbol c := by
  have hdigits : ∀ n, ∀ c ∈ Nat.toDigits 10 n, NumberSymbol c :=
    fun n c hc => .inl (Nat.isDigit_of_mem_toDigits (by omega) (by omega) hc)
  unfold exponentText
  split_ifs
  · intro c hc
    rcases mem_cons.mp hc with rfl | hc
    · simp [NumberSymbol]
    · exact hdigits _ c hc
  · exact hdigits _

theorem numberSymbol_magnitude {digits : Text} (hd : Digits digits) (exponent : Int) :
    ∀ c ∈ magnitude digits exponent, NumberSymbol c := by
  have hdigits : ∀ c ∈ digits, NumberSymbol c := fun c hc => .inl (hd.isDigit c hc)
  have hpoint : NumberSymbol '.' := .inr (.inl rfl)
  unfold magnitude
  split_ifs
  · rw [exponentLayout_eq hd]
    intro c hc
    rcases mem_append.mp hc with h | h
    · exact forall_mem_decimalLayout hdigits (.inl rfl) hpoint c h
    · rcases mem_cons.mp h with rfl | h
      · simp [NumberSymbol]
      · rcases mem_append.mp h with h | h
        · split_ifs at h
          · rw [mem_singleton.mp h]
            simp [NumberSymbol]
          · cases h
        · exact numberSymbol_exponentText _ c h
  · exact forall_mem_fractionLayout hdigits (.inl rfl) hpoint
  · exact forall_mem_decimalLayout hdigits (.inl rfl) hpoint

/-! ## All values -/

theorem number_scientific (value : Scientific) :
    number (.scientific value) =
      (if value.negative then ['-'] else []) ++ magnitude value.digits value.exponent := rfl

/-- What is written denotes the value. -/
theorem textValue_number (n : JsonNumber) : textValue (number n) = n.value := by
  cases n with
  | zero =>
    show magnitudeValue ['0'] = 0
    rw [magnitudeValue_of_free (by simp), mantissaValue_of_free (by simp)]
    rfl
  | scientific value =>
    have hvalue := @magnitudeValue_magnitude _ value.exponent value.digits_ok
    rw [Scientific.digits, digitsValue_map_digit, length_map, length_cons, Nat.add_sub_cancel,
      ← Scientific.digits, ← Scientific.coefficient] at hvalue
    rw [number_scientific, JsonNumber.value, Scientific.signed]
    split_ifs with hnegative
    · show -magnitudeValue (magnitude value.digits value.exponent) = _
      rw [hvalue]
      push_cast
      exact (neg_mul _ _).symm
    · obtain ⟨c, rest, hmagnitude, hdigit⟩ := magnitude_lead value.digits_ok value.exponent
      have hread : textValue (c :: rest) = magnitudeValue (c :: rest) := by
        unfold textValue
        split
        · next heq =>
            rw [(List.cons.inj heq).1] at hdigit
            exact absurd hdigit (by decide)
        · rfl
      rw [nil_append, hmagnitude, hread, ← hmagnitude, hvalue]
      push_cast
      rfl

/-! ## One normal form for each value -/

theorem Scientific.digits_coefficient (value : Scientific) :
    Nat.digits 10 value.coefficient = ((value.first :: value.more).map Fin.val).reverse := by
  refine Nat.digits_ofDigits 10 (by omega) _ ?_ ?_
  · intro d hd
    obtain ⟨d, -, rfl⟩ := mem_map.mp (mem_reverse.mp hd)
    exact d.isLt
  · intro _
    rw [getLast_reverse]
    exact fun h => value.first_ne (Fin.ext h)

theorem Scientific.coefficient_pos (value : Scientific) : 0 < value.coefficient := by
  refine Nat.pos_of_ne_zero fun hzero => ?_
  have hdigits := value.digits_coefficient
  rw [hzero] at hdigits
  simp at hdigits

theorem Scientific.not_dvd_signed (value : Scientific) : ¬ (10 : Int) ∣ value.signed := by
  intro hdvd
  have hmod : value.coefficient % 10 = 0 := by
    unfold Scientific.signed at hdvd
    split_ifs at hdvd
    · omega
    · omega
  have hlast : (Nat.digits 10 value.coefficient).head? ≠ some 0 := by
    rw [value.digits_coefficient, List.head?_reverse, List.getLast?_map]
    intro h
    obtain ⟨d, hd, hd0⟩ := Option.map_eq_some_iff.mp h
    exact value.getLast_ne ((Fin.ext hd0 : d = 0) ▸ hd)
  rw [Nat.digits_def' (by omega) value.coefficient_pos, hmod] at hlast
  exact hlast rfl

/-- Coefficients that ten does not divide differ from their multiples by powers of ten. -/
theorem eq_of_mul_zpow {c c' a a' : Int} (hc : ¬ 10 ∣ c) (hc' : ¬ 10 ∣ c') (h : (c : ℚ) * 10 ^ a = c' * 10 ^ a') :
    c = c' ∧ a = a' := by
  wlog hle : a ≤ a' generalizing c c' a a'
  · obtain ⟨hcoefficient, hexponent⟩ := this hc' hc h.symm (by omega)
    exact ⟨hcoefficient.symm, hexponent.symm⟩
  obtain ⟨k, rfl⟩ := Int.le.dest hle
  rw [zpow_add₀ (by norm_num), mul_comm ((10 : ℚ) ^ a), ← mul_assoc] at h
  have hcancel := mul_right_cancel₀ (zpow_ne_zero a (by norm_num)) h
  rw [zpow_natCast] at hcancel
  have hint : c = c' * 10 ^ k := by exact_mod_cast hcancel
  cases k with
  | zero => exact ⟨by simpa using hint, by simp⟩
  | succ k => exact absurd ⟨c' * 10 ^ k, by rw [hint]; ring⟩ hc

theorem Scientific.of_signed {value value' : Scientific} (h : value.signed = value'.signed) :
    value.negative = value'.negative ∧ value.coefficient = value'.coefficient := by
  have hpos := value.coefficient_pos
  have hpos' := value'.coefficient_pos
  unfold Scientific.signed at h
  split_ifs at h with hneg hneg' hneg'
  · exact ⟨hneg.trans hneg'.symm, by omega⟩
  · omega
  · omega
  · exact ⟨Bool.eq_iff_iff.mpr (iff_of_false hneg hneg'), by omega⟩

/-- Different numbers are written differently. -/
theorem number_injective : Function.Injective number := by
  intro n n' h
  have hvalue : n.value = n'.value := by rw [← textValue_number, h, textValue_number]
  have hne : ∀ value : Scientific, JsonNumber.value (.scientific value) ≠ 0 := by
    intro value
    refine mul_ne_zero (Int.cast_ne_zero.mpr fun hzero => ?_) (zpow_ne_zero _ (by norm_num))
    exact value.not_dvd_signed (hzero ▸ dvd_zero 10)
  cases n with
  | zero =>
    cases n' with
    | zero => rfl
    | scientific value' => exact absurd hvalue.symm (hne value')
  | scientific value =>
    cases n' with
    | zero => exact absurd hvalue (hne value)
    | scientific value' =>
      obtain ⟨hsigned, hexponent⟩ := eq_of_mul_zpow value.not_dvd_signed value'.not_dvd_signed hvalue
      obtain ⟨hnegative, hcoefficient⟩ := Scientific.of_signed hsigned
      have hdigits := congrArg (Nat.digits 10) hcoefficient
      rw [value.digits_coefficient, value'.digits_coefficient] at hdigits
      have hall := map_injective_iff.mpr Fin.val_injective (reverse_injective hdigits)
      obtain ⟨hfirst, hmore⟩ := List.cons.inj hall
      rw [hmore] at hexponent
      refine congrArg _ (Scientific.ext hnegative hfirst hmore ?_)
      omega

theorem numberSymbol_number (n : JsonNumber) : ∀ c ∈ number n, NumberSymbol c := by
  cases n with
  | zero =>
    intro c hc
    rw [mem_singleton.mp hc]
    exact .inl rfl
  | scientific value =>
    intro c hc
    rw [number_scientific] at hc
    rcases mem_append.mp hc with h | h
    · split_ifs at h
      · rw [mem_singleton.mp h]
        simp [NumberSymbol]
      · cases h
    · exact numberSymbol_magnitude value.digits_ok _ c h

theorem number_ne_nil (n : JsonNumber) : number n ≠ [] := by
  cases n with
  | zero => exact cons_ne_nil _ _
  | scientific value =>
    obtain ⟨c, rest, hmagnitude, -⟩ := magnitude_lead value.digits_ok value.exponent
    rw [number_scientific, hmagnitude]
    exact append_ne_nil_of_right_ne_nil _ (cons_ne_nil _ _)

/-! ## The form that JCS asks for -/

/-- `Number::toString` of ECMAScript, for the digits `s` of the value `s × 10 ^ (n - s.length)`. -/
def ecmaScriptText (s : Text) (n : Int) : Text :=
  if s.length ≤ n ∧ n ≤ 21 then s ++ List.replicate (n - s.length).toNat '0'
  else if 0 < n ∧ n ≤ 21 then s.take n.toNat ++ '.' :: s.drop n.toNat
  else if -6 < n ∧ n ≤ 0 then '0' :: '.' :: (List.replicate (-n).toNat '0' ++ s)
  else
    (s.take 1 ++ if s.length = 1 then [] else '.' :: s.drop 1) ++
      'e' :: (if 0 ≤ n - 1 then '+' else '-') :: Nat.toDigits 10 (n - 1).natAbs

/-- The layouts are those of `Number::toString` in ECMAScript. -/
theorem magnitude_eq_ecmaScriptText {digits : Text} (hd : Digits digits) (exponent : Int) :
    magnitude digits exponent = ecmaScriptText digits (exponent + 1) := by
  have hne : 0 < digits.length := by
    obtain ⟨c, rest, rfl, -⟩ := hd.first
    exact Nat.succ_pos _
  unfold magnitude
  split_ifs with hlarge hneg
  · have hlarge : exponent < -6 ∨ exponent ≥ 21 := hlarge
    have hmantissa : (if digits.length > 1 then '.' :: digits.drop 1 else []) =
        if digits.length = 1 then [] else '.' :: digits.drop 1 := by
      split_ifs
      · omega
      · rfl
      · rfl
      · omega
    rw [ecmaScriptText, if_neg (by omega), if_neg (by omega), if_neg (by omega), Int.add_sub_cancel, exponentLayout,
      hmantissa, signed_exponentText]
  · have hlarge : ¬ (exponent < -6 ∨ exponent ≥ 21) := hlarge
    rw [ecmaScriptText, if_neg (by omega), if_neg (by omega), if_pos (by omega), fractionLayout,
      show (-(exponent + 1)).toNat = (-exponent).toNat - 1 by omega]
    rfl
  · have hlarge : ¬ (exponent < -6 ∨ exponent ≥ 21) := hlarge
    rw [ecmaScriptText, decimalLayout, show (exponent + 1).toNat = exponent.toNat + 1 by omega,
      show (exponent + 1 - digits.length).toNat = exponent.toNat + 1 - digits.length by omega]
    by_cases hlong : exponent.toNat + 1 ≥ digits.length
    · rw [if_pos hlong, if_pos (by omega)]
    · rw [if_neg hlong, if_neg (by omega), if_pos (by omega)]

/-- What `Number` writes denotes the value of the sign, the digits and the exponent, and is what ECMAScript writes for
it; zero is written as one digit. -/
theorem number_is_ecmascript : number .zero = "0".toList ∧ ∀ value : Scientific,
    textValue (number (.scientific value)) = JsonNumber.value (.scientific value) ∧ number (.scientific value) =
        (if value.negative then ['-'] else []) ++ ecmaScriptText value.digits (value.exponent + 1) := by
  refine ⟨rfl, fun value => ⟨textValue_number _, ?_⟩⟩
  rw [number_scientific, magnitude_eq_ecmaScriptText value.digits_ok]

end A2A.Core.AgentCard
