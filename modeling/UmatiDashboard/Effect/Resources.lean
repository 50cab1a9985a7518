import Mathlib.Algebra.BigOperators.Group.List.Basic
import Mathlib.Algebra.Order.Sub.Basic
import Mathlib.Data.List.Induction
import Mathlib.Data.Multiset.AddSub
import Mathlib.Algebra.Order.Group.Multiset

/-!
# Acquiring and releasing resources

A log of acquisitions and releases determines which resources are held: an acquisition adds one
occurrence, a release takes some away. The log is **sound** if no release takes away what is not
held at that point. Of a sound log nothing is lost: every acquired resource has been released or
is held, each occurrence once.
-/

namespace UmatiDashboard

/-- An event in the life of resources. -/
inductive ResourceEvent (ρ : Type) where
  | acquire (r : ρ)
  | release (rs : Multiset ρ)

namespace ResourceEvent

variable {ρ : Type}

def acquires : ResourceEvent ρ → Multiset ρ
  | acquire r => {r}
  | release _ => 0

def releases : ResourceEvent ρ → Multiset ρ
  | acquire _ => 0
  | release rs => rs

/-- What a log acquires. -/
def acquired (es : List (ResourceEvent ρ)) : Multiset ρ := (es.map acquires).sum

/-- What a log releases. -/
def released (es : List (ResourceEvent ρ)) : Multiset ρ := (es.map releases).sum

variable [DecidableEq ρ]

/-- What is held at the end of a log. -/
def held (es : List (ResourceEvent ρ)) : Multiset ρ :=
  es.foldl (fun rs e => e.acquires + (rs - e.releases)) 0

/-- Nothing is released that is not held. -/
def Sound (es : List (ResourceEvent ρ)) : Prop :=
  ∀ pre e post, es = pre ++ e :: post → e.releases ≤ held pre

@[simp] theorem held_nil : held ([] : List (ResourceEvent ρ)) = 0 := rfl

theorem held_concat (es : List (ResourceEvent ρ)) (e : ResourceEvent ρ) :
    held (es ++ [e]) = e.acquires + (held es - e.releases) := by
  rw [held, List.foldl_append]
  rfl

@[simp] theorem sound_nil : Sound ([] : List (ResourceEvent ρ)) := by
  intro pre e post h
  simp at h

/-- A log is extended soundly by an event that releases only what is held. -/
theorem sound_concat {es : List (ResourceEvent ρ)} {e : ResourceEvent ρ} :
    Sound (es ++ [e]) ↔ Sound es ∧ e.releases ≤ held es := by
  constructor
  · intro h
    refine ⟨fun pre e' post hes => ?_, h es e [] rfl⟩
    exact h pre e' (post ++ [e]) (by rw [hes, List.append_assoc]; rfl)
  · rintro ⟨hes, he⟩ pre e' post h
    rcases List.eq_nil_or_concat post with rfl | ⟨post', last, rfl⟩
    · obtain ⟨rfl, hlast⟩ := List.append_inj' h rfl
      obtain rfl := List.singleton_inj.mp hlast
      exact he
    · have hsplit : es ++ [e] = (pre ++ e' :: post') ++ [last] := by
        rw [h]
        simp
      obtain ⟨hpre, -⟩ := List.append_inj' hsplit rfl
      exact hes pre e' post' hpre

/-- **Conservation.** What a sound log has acquired it has released, or holds. -/
theorem acquired_eq {es : List (ResourceEvent ρ)} (h : Sound es) :
    acquired es = released es + held es := by
  induction es using List.reverseRecOn with
  | nil => rfl
  | append_singleton es e ih =>
    obtain ⟨hes, he⟩ := sound_concat.mp h
    have hacquired : acquired (es ++ [e]) = acquired es + e.acquires := by simp [acquired]
    have hreleased : released (es ++ [e]) = released es + e.releases := by simp [released]
    rw [hacquired, hreleased, held_concat, ih hes]
    -- what is released was held
    calc released es + held es + e.acquires
        = released es + (e.releases + (held es - e.releases)) + e.acquires := by
          rw [add_tsub_cancel_of_le he]
      _ = released es + e.releases + (e.acquires + (held es - e.releases)) := by
          rw [add_comm e.acquires]
          simp only [add_assoc]

end ResourceEvent

end UmatiDashboard
