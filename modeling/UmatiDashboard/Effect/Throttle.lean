import Mathlib.Data.Int.Notation
import Mathlib.Data.List.Induction
import UmatiDashboard.Util.Destutter

/-!
# Throttled streams

A stream of values, each with the time at which it is given, is throttled: a value is let through
if it differs from the one that was let through last, or if that is longer ago than the window.
The times may be any. But for repetitions nothing is lost (`destutter_throttle`), a value that was
given has been let through within the window (`exists_getLast?_throttle`), and a repetition that
is let through comes after the window (`isChain_throttle`).
-/

namespace UmatiDashboard

namespace Throttle

variable {α : Type} [DecidableEq α] (window : ℤ)

/-- The value is let through, given the one that was let through last. -/
def due (x : α × ℤ) : Option (α × ℤ) → Bool
  | none => true
  | some last => decide (x.1 ≠ last.1) || decide (x.2 - last.2 > window)

/-- What is let through. -/
def throttle (xs : List (α × ℤ)) : List (α × ℤ) :=
  xs.foldl (fun sent x => if due window x sent.getLast? then sent ++ [x] else sent) []

variable {window} {xs : List (α × ℤ)} {x : α × ℤ}

@[simp] theorem throttle_nil : throttle window ([] : List (α × ℤ)) = [] := rfl

theorem throttle_concat (xs : List (α × ℤ)) (x : α × ℤ) :
    throttle window (xs ++ [x]) =
      if due window x (throttle window xs).getLast? then throttle window xs ++ [x]
      else throttle window xs := by
  rw [throttle, List.foldl_append]
  rfl

theorem throttle_concat_of_due (h : due window x (throttle window xs).getLast? = true) :
    throttle window (xs ++ [x]) = throttle window xs ++ [x] := by
  rw [throttle_concat, if_pos h]

theorem throttle_concat_of_not (h : ¬ due window x (throttle window xs).getLast? = true) :
    throttle window (xs ++ [x]) = throttle window xs := by
  rw [throttle_concat, if_neg h]

/-- A value that is held back was let through last, within the window. -/
theorem exists_of_not_due {last : Option (α × ℤ)} (h : ¬ due window x last = true) :
    ∃ t, last = some (x.1, t) ∧ x.2 - t ≤ window := by
  cases last with
  | none => exact absurd rfl h
  | some last =>
    simp only [due, Bool.or_eq_true, decide_eq_true_eq, not_or, not_not] at h
    obtain ⟨hsame, hsoon⟩ := h
    exact ⟨last.2, by rw [hsame], by omega⟩

/-- **A value that was given was let through within the window.** -/
theorem exists_getLast?_throttle (hwindow : 0 ≤ window) (xs : List (α × ℤ)) (x : α × ℤ) :
    ∃ t, (throttle window (xs ++ [x])).getLast? = some (x.1, t) ∧ x.2 - t ≤ window := by
  by_cases hdue : due window x (throttle window xs).getLast? = true
  · refine ⟨x.2, ?_, by omega⟩
    rw [throttle_concat_of_due hdue, List.getLast?_concat]
  · rw [throttle_concat_of_not hdue]
    exact exists_of_not_due hdue

/-- **A repetition that is let through comes after the window.** -/
theorem isChain_throttle (xs : List (α × ℤ)) :
    (throttle window xs).IsChain fun x y => y.1 ≠ x.1 ∨ y.2 - x.2 > window := by
  induction xs using List.reverseRecOn with
  | nil => exact List.isChain_nil
  | append_singleton xs x ih =>
    by_cases hdue : due window x (throttle window xs).getLast? = true
    · rw [throttle_concat_of_due hdue, List.isChain_append]
      refine ⟨ih, List.isChain_singleton x, fun last hlast y hy => ?_⟩
      obtain rfl : x = y := by simpa using hy
      rw [Option.mem_def.mp hlast] at hdue
      simpa [due] using hdue
    · rw [throttle_concat_of_not hdue]
      exact ih

/-- **But for repetitions nothing is lost.** -/
theorem destutter_throttle (xs : List (α × ℤ)) :
    ((throttle window xs).map Prod.fst).destutter (· ≠ ·) =
      (xs.map Prod.fst).destutter (· ≠ ·) ∧
    ((throttle window xs).map Prod.fst).getLast? = (xs.map Prod.fst).getLast? := by
  induction xs using List.reverseRecOn with
  | nil => exact ⟨rfl, rfl⟩
  | append_singleton xs x ih =>
    obtain ⟨hstream, hlast⟩ := ih
    by_cases hdue : due window x (throttle window xs).getLast? = true
    · rw [throttle_concat_of_due hdue, List.map_append, List.map_append, List.map_singleton,
        List.getLast?_concat, List.getLast?_concat]
      exact ⟨destutter_concat_congr hstream hlast x.1, rfl⟩
    · obtain ⟨t, hsame, -⟩ := exists_of_not_due hdue
      have hvalue : (xs.map Prod.fst).getLast? = some x.1 := by
        rw [← hlast, List.getLast?_map, hsame]
        rfl
      rw [throttle_concat_of_not hdue, List.map_append, List.map_singleton,
        destutter_concat_last hvalue, List.getLast?_concat, hstream, hlast]
      exact ⟨rfl, hvalue⟩

end Throttle

end UmatiDashboard
