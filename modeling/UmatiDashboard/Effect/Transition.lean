import Mathlib.Logic.Basic
import Mathlib.Data.List.Basic

/-!
# Properties along a run

A run of a deterministic system is its list of steps. `Throughout step P s ks` says that `P`
holds in every state of the run from `s`, and `Along step C s ks` that every step of it meets
the condition `C`, which may depend on the state before the step. When a condition on the steps
is exactly what keeps a property alive, it is so for whole runs: `throughout_iff_along`.
-/

namespace UmatiDashboard

namespace Transition

variable {σ κ : Type} (step : σ → κ → σ)

/-- The state that a run ends in. -/
def run (s : σ) (ks : List κ) : σ := ks.foldl step s

/-- Every state of the run, from the first to the last, satisfies `P`. -/
def Throughout (P : σ → Prop) : σ → List κ → Prop
  | s, [] => P s
  | s, k :: ks => P s ∧ Throughout P (step s k) ks

/-- Every step of the run meets `C` in the state before it. -/
def Along (C : σ → κ → Prop) : σ → List κ → Prop
  | _, [] => True
  | s, k :: ks => C s k ∧ Along C (step s k) ks

variable {step} {P I : σ → Prop} {A C : σ → κ → Prop} {s : σ} {k : κ} {ks : List κ}

/-- What every step keeps holds after every run. -/
theorem run_of_invariant (hstep : ∀ s k, I s → I (step s k)) (hs : I s) : I (run step s ks) := by
  induction ks generalizing s with
  | nil => exact hs
  | cons k ks ih => exact ih (hstep s k hs)

theorem Throughout.head (h : Throughout step P s ks) : P s := by
  cases ks with
  | nil => exact h
  | cons k ks => exact h.1

theorem along_true : ∀ {s : σ} {ks : List κ}, Along step (fun _ _ => True) s ks
  | _, [] => trivial
  | _, _ :: _ => ⟨trivial, along_true⟩

/-- The property holds in the state after every initial part of the run. -/
theorem throughout_iff_forall_prefix :
    Throughout step P s ks ↔ ∀ pre, pre <+: ks → P (run step s pre) := by
  induction ks generalizing s with
  | nil =>
    refine ⟨fun h pre hpre => ?_, fun h => h [] List.prefix_rfl⟩
    rw [List.prefix_nil.mp hpre]
    exact h
  | cons k ks ih =>
    constructor
    · rintro ⟨hs, hrest⟩ pre hpre
      rcases List.prefix_cons_iff.mp hpre with rfl | ⟨pre', rfl, hpre'⟩
      · exact hs
      · exact ih.mp hrest pre' hpre'
    · intro h
      refine ⟨h [] List.nil_prefix, ih.mpr fun pre hpre => ?_⟩
      exact h (k :: pre) ((List.prefix_cons_inj k).mpr hpre)

/-- **From steps to runs.** `A` is what the environment is assumed to do. If a step that meets
`C` keeps the property and its invariant, and a step after which the property holds has met
`C`, then the property holds throughout exactly the runs whose steps meet `C`. -/
theorem throughout_iff_along
    (hkeep : ∀ s k, I s → P s → A s k → C s k → I (step s k) ∧ P (step s k))
    (hneed : ∀ s k, I s → P s → A s k → P (step s k) → C s k)
    (hI : I s) (hP : P s) (hA : Along step A s ks) :
    Throughout step P s ks ↔ Along step C s ks := by
  induction ks generalizing s with
  | nil => exact iff_of_true hP trivial
  | cons k ks ih =>
    obtain ⟨hAk, hAks⟩ := hA
    constructor
    · rintro ⟨-, hrest⟩
      have hC : C s k := hneed s k hI hP hAk hrest.head
      have hnext := hkeep s k hI hP hAk hC
      exact ⟨hC, (ih hnext.1 hnext.2 hAks).mp hrest⟩
    · rintro ⟨hC, hrest⟩
      have hnext := hkeep s k hI hP hAk hC
      exact ⟨hP, (ih hnext.1 hnext.2 hAks).mpr hrest⟩

end Transition

end UmatiDashboard
