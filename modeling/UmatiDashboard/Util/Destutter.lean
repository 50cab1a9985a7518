import Mathlib.Data.List.Destutter

/-!
# Consecutive repetitions

`List.destutter (· ≠ ·)` removes the consecutive repetitions of a list. A stream that grows at its
end keeps its list without repetitions if the new element is the last one, and appends to it
otherwise; so two streams that grow by the same elements, one of them with further repetitions of
its last element, stay equal but for repetitions (`destutter_concat_congr`).
-/

namespace UmatiDashboard

variable {α : Type} [DecidableEq α]

theorem destutter'_concat (l : List α) (a b : α) :
    (l ++ [b]).destutter' (· ≠ ·) a =
      if l.getLastD a = b then l.destutter' (· ≠ ·) a else l.destutter' (· ≠ ·) a ++ [b] := by
  induction l generalizing a with
  | nil =>
    rw [List.nil_append, List.destutter'_singleton, List.getLastD_nil]
    by_cases h : a = b
    · simp [h]
    · simp [h]
  | cons c l ih =>
    rw [List.cons_append, List.getLastD_cons]
    by_cases h : a = c
    · rw [List.destutter'_cons_neg _ (not_not.mpr h), List.destutter'_cons_neg _ (not_not.mpr h),
        ih, h]
    · rw [List.destutter'_cons_pos _ h, List.destutter'_cons_pos _ h, ih]
      split_ifs
      · rfl
      · rfl

/-- One more element at the end. -/
theorem destutter_concat (l : List α) (b : α) :
    (l ++ [b]).destutter (· ≠ ·) =
      if l.getLast? = some b then l.destutter (· ≠ ·) else l.destutter (· ≠ ·) ++ [b] := by
  cases l with
  | nil => simp
  | cons a l =>
    rw [List.cons_append, List.destutter_cons', List.destutter_cons', destutter'_concat]
    simp only [List.getLast?_cons, Option.some_inj, List.getLastD_eq_getLast?]

/-- Two lists that are equal but for repetitions and end alike stay so with one more element. -/
theorem destutter_concat_congr {l l' : List α} (h : l.destutter (· ≠ ·) = l'.destutter (· ≠ ·))
    (hlast : l.getLast? = l'.getLast?) (b : α) :
    (l ++ [b]).destutter (· ≠ ·) = (l' ++ [b]).destutter (· ≠ ·) := by
  rw [destutter_concat, destutter_concat, h, hlast]

/-- A repetition of the last element. -/
theorem destutter_concat_last {l : List α} {b : α} (h : l.getLast? = some b) :
    (l ++ [b]).destutter (· ≠ ·) = l.destutter (· ≠ ·) := by
  rw [destutter_concat, if_pos h]

end UmatiDashboard
