import Mathlib.Data.Nat.Init
import Mathlib.Logic.Function.Basic
import UmatiDashboard.Util.PrefixCode

/-!
# Numbers in digits

The digits of a number, as a text without leading zeros, in bases up to sixteen. They are read
back by Horner's scheme, so different numbers have different texts; and numbers that are each
followed by a separator that is no digit can be written one after the other.
-/

namespace UmatiDashboard

namespace HexDigits

/-- The digits of all bases up to sixteen. -/
def digits : List Char := (List.range 16).map Nat.digitChar

/-- The value of a digit. -/
def digitValue (c : Char) : ℕ := digits.idxOf c

theorem digitValue_digitChar {d : ℕ} (h : d < 16) : digitValue d.digitChar = d := by
  revert h
  revert d
  decide

/-- Horner's scheme. -/
def ofDigits (b : ℕ) (text : List Char) : ℕ := text.foldl (fun n c => b * n + digitValue c) 0

variable {b : ℕ} (hb : 1 < b) (hb' : b ≤ 16)

include hb hb'

theorem ofDigits_toDigits (n : ℕ) : ofDigits b (Nat.toDigits b n) = n := by
  induction n using Nat.strong_induction_on with
  | _ n ih =>
    rw [Nat.toDigits_eq_if hb]
    split_ifs with hlt
    · simp [ofDigits, digitValue_digitChar (Nat.lt_of_lt_of_le hlt hb')]
    · have hmod : n % b < 16 := Nat.lt_of_lt_of_le (Nat.mod_lt n (by omega)) hb'
      have hdiv : ofDigits b (Nat.toDigits b (n / b)) = n / b :=
        ih _ (Nat.div_lt_self (by omega) hb)
      rw [ofDigits] at hdiv
      rw [ofDigits, List.foldl_append, hdiv, List.foldl_cons, List.foldl_nil,
        digitValue_digitChar hmod, Nat.div_add_mod]

theorem mem_digits_of_mem_toDigits {c : Char} (n : ℕ) (hc : c ∈ Nat.toDigits b n) :
    c ∈ digits := by
  have hdigit : ∀ d < b, d.digitChar ∈ digits := fun d hd =>
    List.mem_map_of_mem (List.mem_range.mpr (Nat.lt_of_lt_of_le hd hb'))
  induction n using Nat.strong_induction_on with
  | _ n ih =>
    rw [Nat.toDigits_eq_if hb] at hc
    split_ifs at hc with hlt
    · rw [List.mem_singleton.mp hc]
      exact hdigit n hlt
    · rcases List.mem_append.mp hc with hfront | hlast
      · exact ih _ (Nat.div_lt_self (by omega) hb) hfront
      · rw [List.mem_singleton.mp hlast]
        exact hdigit _ (Nat.mod_lt n (by omega))

/-- Numbers that are followed by a separator make a prefix code. -/
theorem prefixFree_toDigits {sep : Char} (hsep : sep ∉ digits) :
    PrefixCode.PrefixFree fun n => Nat.toDigits b n ++ [sep] := by
  refine PrefixCode.prefixFree_of_read
    (fun text => some (ofDigits b (text.takeWhile (· ≠ sep)))) fun n rest => ?_
  have hdigits : ∀ c ∈ Nat.toDigits b n, decide (c ≠ sep) = true := by
    intro c hc
    have hmem := mem_digits_of_mem_toDigits hb hb' n hc
    exact decide_eq_true fun heq => hsep (heq ▸ hmem)
  rw [List.append_assoc, List.takeWhile_append_of_pos hdigits]
  simp [ofDigits_toDigits hb hb']

end HexDigits

end UmatiDashboard
