/-
# Byte strings, fixed-width integers, and decimal text.
-/
import Mathlib.Order.Lex
import Mathlib.Data.List.Lex
import Mathlib.Data.List.TakeWhile
import Mathlib.Tactic.IntervalCases

namespace A2A.Foundation

open List

/-! ## Byte strings -/

/-- `std::string`, which holds arbitrary bytes. -/
abbrev Bytes := List UInt8

def bytes (s : String) : Bytes := s.toUTF8.data.toList

instance : Coe String Bytes := ⟨bytes⟩

instance instLinearOrderUInt8 : LinearOrder UInt8 where
  le_refl := UInt8.le_refl
  le_trans := fun _ _ _ => UInt8.le_trans
  le_antisymm := fun _ _ => UInt8.le_antisymm
  le_total := UInt8.le_total
  lt_iff_le_not_ge := by
    intro a b
    rw [UInt8.lt_iff_toNat_lt, UInt8.le_iff_toNat_le, UInt8.le_iff_toNat_le]
    omega
  toDecidableLE := inferInstance
  toDecidableEq := inferInstance
  toDecidableLT := inferInstance

instance instLawfulBEqUInt8 : LawfulBEq UInt8 := inferInstance

instance instLawfulBEqBytes : LawfulBEq Bytes := inferInstance

/-! ## 64-bit integers -/

instance instLinearOrderInt64 : LinearOrder Int64 where
  le_refl := Int64.le_refl
  le_trans := fun _ _ _ => Int64.le_trans
  le_antisymm := fun _ _ => Int64.le_antisymm
  le_total := Int64.le_total
  lt_iff_le_not_ge := by
    intro a b
    rw [Int64.lt_iff_toInt_lt, Int64.le_iff_toInt_le, Int64.le_iff_toInt_le]
    omega
  toDecidableLE := inferInstance
  toDecidableEq := inferInstance
  toDecidableLT := inferInstance

variable {a : Int64} {n : Nat} {c : Char}

theorem int64_toInt_succ (h : a ≠ Int64.maxValue) : (a + 1).toInt = a.toInt + 1 := by
  have hmax : a.toInt ≠ 2 ^ 63 - 1 := by
    intro hEq
    exact h (Int64.toInt_inj.mp (by rw [hEq, Int64.toInt_maxValue]))
  have hlo := a.le_toInt
  have hhi := a.toInt_lt
  rw [Int64.toInt_add]
  have hone : (1 : Int64).toInt = 1 := rfl
  rw [hone]
  apply Int.bmod_eq_of_le <;> omega

theorem int64_lt_succ (h : a ≠ Int64.maxValue) : a < a + 1 := by
  rw [Int64.lt_iff_toInt_lt, int64_toInt_succ h]
  omega

theorem uint64_toNat_succ {a : UInt64} (h : a.toNat + 1 < 2 ^ 64) : (a + 1).toNat = a.toNat + 1 := by
  rw [UInt64.toNat_add, UInt64.toNat_one]
  exact Nat.mod_eq_of_lt h

/-! ## Decimal text -/

def charByte (c : Char) : UInt8 := UInt8.ofNat c.toNat

def byteChar (b : UInt8) : Char := Char.ofNat b.toNat

def isDigitByte (b : UInt8) : Bool := decide (48 ≤ b) && decide (b ≤ 57)

def decimal (n : Nat) : Bytes := (Nat.toDigits 10 n).map charByte

def decimalValue (ds : Bytes) : Nat := Nat.ofDigitChars 10 (ds.map byteChar) 0

/-- Decimal text of a signed integer, as `std::to_string` writes it. -/
def toDecimal (z : Int) : Bytes :=
  if z < 0 then charByte '-' :: decimal z.natAbs else decimal z.toNat

/-- `std::errc`, as far as `std::from_chars` returns it. -/
inductive Errc where
  | invalidArgument
  | resultOutOfRange
  deriving Repr, DecidableEq

/-- `std::from_chars` for a signed 64-bit value: the value and the unread rest. -/
def fromChars (text : Bytes) : Except Errc (Int64 × Bytes) :=
  let negative := text.head? = some (charByte '-')
  let unsignedText := if negative then text.tail else text
  let digits := unsignedText.takeWhile isDigitByte
  if digits.isEmpty then .error .invalidArgument
  else
    let magnitude : Int := decimalValue digits
    let value := if negative then -magnitude else magnitude
    if Int64.minValue.toInt ≤ value ∧ value ≤ Int64.maxValue.toInt then
      .ok (Int64.ofInt value, unsignedText.drop digits.length)
    else .error .resultOutOfRange

theorem isDigit_of_mem_decimal (h : c ∈ Nat.toDigits 10 n) : 48 ≤ c.toNat ∧ c.toNat ≤ 57 := by
  have hdigit := Nat.isDigit_of_mem_toDigits (by omega) (by omega) h
  simp only [Char.isDigit, Bool.and_eq_true, decide_eq_true_eq] at hdigit
  exact ⟨UInt32.le_iff_toNat_le.mp hdigit.1, UInt32.le_iff_toNat_le.mp hdigit.2⟩

theorem byteChar_charByte (h : c.toNat ≤ 57) : byteChar (charByte c) = c := by
  have hsmall : (UInt8.ofNat c.toNat).toNat = c.toNat := by
    rw [UInt8.toNat_ofNat']
    omega
  rw [byteChar, charByte, hsmall, Char.ofNat_toNat]

theorem decimal_ne_nil (n : Nat) : decimal n ≠ [] := by
  simp [decimal, Nat.toDigits_ne_nil]

theorem isDigitByte_of_mem_decimal {b : UInt8} (h : b ∈ decimal n) : isDigitByte b = true := by
  obtain ⟨c, hc, rfl⟩ := mem_map.mp h
  obtain ⟨hlo, hhi⟩ := isDigit_of_mem_decimal hc
  have hsmall : (UInt8.ofNat c.toNat).toNat = c.toNat := by
    rw [UInt8.toNat_ofNat']
    omega
  simp only [isDigitByte, charByte, Bool.and_eq_true, decide_eq_true_eq, UInt8.le_iff_toNat_le,
    hsmall]
  exact ⟨hlo, hhi⟩

@[simp] theorem decimalValue_decimal (n : Nat) : decimalValue (decimal n) = n := by
  have hback : (decimal n).map byteChar = Nat.toDigits 10 n := by
    rw [decimal, map_map]
    refine (map_congr_left fun c hc => ?_).trans (map_id _)
    exact byteChar_charByte (isDigit_of_mem_decimal hc).2
  rw [decimalValue, hback, Nat.ofDigitChars_ten_toDigits]

/-- The digits of a representable value are read back, with nothing left over. -/
theorem fromChars_decimal (h : (n : Int) ≤ Int64.maxValue.toInt) : fromChars (decimal n) = .ok (Int64.ofInt n, []) := by
  have hdigits : (decimal n).takeWhile isDigitByte = decimal n :=
    takeWhile_eq_self_iff.mpr fun b hb => isDigitByte_of_mem_decimal hb
  have hsign : (decimal n).head? ≠ some (charByte '-') := by
    intro hhead
    have hmem : charByte '-' ∈ decimal n := mem_of_head? hhead
    exact absurd (isDigitByte_of_mem_decimal hmem) (by decide)
  have hmin : Int64.minValue.toInt ≤ 0 := by decide
  have hrange : Int64.minValue.toInt ≤ (n : Int) ∧ (n : Int) ≤ Int64.maxValue.toInt :=
    ⟨by omega, h⟩
  simp only [fromChars, hsign, if_false, hdigits, decimalValue_decimal, drop_length,
    List.isEmpty_iff, decimal_ne_nil, hrange, and_self, if_true]

theorem toDecimal_of_nonneg {z : Int} (h : 0 ≤ z) : toDecimal z = decimal z.toNat := by
  rw [toDecimal, if_neg (by omega)]

end A2A.Foundation
