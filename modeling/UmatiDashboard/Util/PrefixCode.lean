import Mathlib.Data.List.Basic
import Mathlib.Logic.Function.Basic

/-!
# Prefix codes

A code gives every letter a word. If no word is a prefix of another one, then words that are
written one after the other can be told apart again, whatever their lengths.
-/

namespace UmatiDashboard

namespace PrefixCode

variable {α β : Type*} {code : α → List β}

/-- No word is a prefix of another one. -/
def PrefixFree (code : α → List β) : Prop := ∀ a b, code a <+: code b → a = b

/-- A code whose letters can be read off the front of any text is prefix free. -/
theorem prefixFree_of_read (read : List β → Option α)
    (hread : ∀ a rest, read (code a ++ rest) = some a) : PrefixFree code := by
  rintro a b ⟨rest, hab⟩
  have ha := hread a rest
  have hb := hread b []
  rw [List.append_nil] at hb
  rw [hab, hb] at ha
  exact (Option.some.inj ha).symm

/-- The first word of a text is determined. -/
theorem PrefixFree.append_inj (h : PrefixFree code) {a b : α} {u v : List β}
    (heq : code a ++ u = code b ++ v) : a = b ∧ u = v := by
  have hab : a = b := by
    rcases List.prefix_or_prefix_of_prefix (List.prefix_append (code a) u)
      (heq ▸ List.prefix_append (code b) v) with hprefix | hprefix
    · exact h a b hprefix
    · exact (h b a hprefix).symm
  subst hab
  exact ⟨rfl, List.append_cancel_left heq⟩

/-- **A prefix code without an empty word is uniquely decodable.** -/
theorem PrefixFree.flatMap_injective (h : PrefixFree code) (hne : ∀ a, code a ≠ []) :
    Function.Injective (List.flatMap code) := by
  intro as
  induction as with
  | nil =>
    intro bs heq
    cases bs with
    | nil => rfl
    | cons b bs =>
      rw [List.flatMap_nil, List.flatMap_cons] at heq
      exact absurd (List.append_eq_nil_iff.mp heq.symm).1 (hne b)
  | cons a as ih =>
    intro bs heq
    cases bs with
    | nil =>
      rw [List.flatMap_nil, List.flatMap_cons] at heq
      exact absurd (List.append_eq_nil_iff.mp heq).1 (hne a)
    | cons b bs =>
      rw [List.flatMap_cons, List.flatMap_cons] at heq
      obtain ⟨rfl, hrest⟩ := h.append_inj heq
      rw [ih hrest]

end PrefixCode

end UmatiDashboard
