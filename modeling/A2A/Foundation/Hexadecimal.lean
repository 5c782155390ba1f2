/-
# Hexadecimal text.
-/
import A2A.Foundation.Bytes
import Mathlib.Data.Nat.Digits.Lemmas

namespace A2A.Foundation

open List

def hexDigit (d : Nat) : UInt8 := if d < 10 then UInt8.ofNat (48 + d) else UInt8.ofNat (87 + d)

/-- The value of a digit in either case. -/
def hexDigitValue (b : UInt8) : Option Nat :=
  if 48 ≤ b ∧ b ≤ 57 then some (b.toNat - 48)
  else if 97 ≤ b ∧ b ≤ 102 then some (b.toNat - 87)
  else if 65 ≤ b ∧ b ≤ 70 then some (b.toNat - 55)
  else none

def hexadecimal (n : Nat) : Bytes := if n = 0 then [hexDigit 0] else (Nat.digits 16 n).reverse.map hexDigit

def hexValue (text : Bytes) : Option Nat :=
  if text.isEmpty then none else (text.mapM hexDigitValue).map fun digits => Nat.ofDigits 16 digits.reverse

theorem hexDigitValue_hexDigit {d : Nat} (h : d < 16) : hexDigitValue (hexDigit d) = some d := by
  interval_cases d <;> rfl

theorem mapM_hexDigitValue_map {digits : List Nat} (h : ∀ d ∈ digits, d < 16) :
    (digits.map hexDigit).mapM hexDigitValue = some digits := by
  induction digits with
  | nil => rfl
  | cons d digits ih =>
    rw [map_cons, mapM_cons, hexDigitValue_hexDigit (h d (mem_cons_self ..)),
      ih fun d hd => h d (mem_cons_of_mem _ hd)]
    rfl

theorem hexadecimal_ne_nil (n : Nat) : hexadecimal n ≠ [] := by
  unfold hexadecimal
  split_ifs with hzero
  · exact cons_ne_nil _ _
  · simpa using Nat.digits_ne_nil_iff_ne_zero.mpr hzero

theorem hexValue_hexadecimal (n : Nat) : hexValue (hexadecimal n) = some n := by
  have hne : ¬ (hexadecimal n).isEmpty = true := mt List.isEmpty_iff.mp (hexadecimal_ne_nil n)
  rw [hexValue, if_neg hne, hexadecimal]
  split_ifs with hzero
  · rw [hzero]
    rfl
  · rw [mapM_hexDigitValue_map]
    · rw [Option.map_some, reverse_reverse, Nat.ofDigits_digits]
    · intro d hd
      exact Nat.digits_lt_base (by omega) (mem_reverse.mp hd)

theorem hexDigitValue_isSome_of_mem {n : Nat} {b : UInt8} (h : b ∈ hexadecimal n) :
    (hexDigitValue b).isSome = true := by
  unfold hexadecimal at h
  split_ifs at h with hzero
  · rw [mem_singleton.mp h]
    rfl
  · obtain ⟨d, hd, rfl⟩ := mem_map.mp h
    rw [hexDigitValue_hexDigit (Nat.digits_lt_base (by omega) (mem_reverse.mp hd))]
    rfl

end A2A.Foundation
