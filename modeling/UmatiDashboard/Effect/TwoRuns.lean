import UmatiDashboard.Effect.Prog

/-!
# Two runs side by side

`EndAlike p s q t Q` says that the run of `p` from `s` and the run of `q` from `t` end in the same
way: both return, with values and states that satisfy `Q`, or both get stuck for the same reason.
It is meant for programs none of whose calls fails, so an exception is not among the ends.

A step may also be taken on one side alone, when its run is known (`EndAlike.bind_left`).
-/

namespace UmatiDashboard

namespace Prog

variable {ε σ τ α β α' β' : Type}

/-- Both runs return, with `Q`, or both get stuck for the same reason. -/
def EndAlike (p : Prog ε σ α) (s : σ) (q : Prog ε τ β) (t : τ) (Q : α → σ → β → τ → Prop) : Prop :=
  (∃ a s' b t', p.run s = (.ok a, s') ∧ q.run t = (.ok b, t') ∧ Q a s' b t') ∨
    ∃ w s' t', p.run s = (.stuck w, s') ∧ q.run t = (.stuck w, t')

namespace EndAlike

variable {p : Prog ε σ α} {s : σ} {q : Prog ε τ β} {t : τ} {Q R : α → σ → β → τ → Prop}

theorem mono (h : EndAlike p s q t Q) (hQ : ∀ a s' b t', Q a s' b t' → R a s' b t') :
    EndAlike p s q t R := by
  rcases h with ⟨a, s', b, t', hp, hq, h⟩ | h
  · exact Or.inl ⟨a, s', b, t', hp, hq, hQ _ _ _ _ h⟩
  · exact Or.inr h

/-- What is known about the returns of one side alone may be added. -/
theorem and_left {P : α → σ → Prop} (h : EndAlike p s q t Q)
    (hp : ∀ a s', p.run s = (.ok a, s') → P a s') :
    EndAlike p s q t fun a s' b t' => Q a s' b t' ∧ P a s' := by
  rcases h with ⟨a, s', b, t', hrun, hq, h⟩ | h
  · exact Or.inl ⟨a, s', b, t', hrun, hq, h, hp a s' hrun⟩
  · exact Or.inr h

theorem and_right {P : β → τ → Prop} (h : EndAlike p s q t Q)
    (hq : ∀ b t', q.run t = (.ok b, t') → P b t') :
    EndAlike p s q t fun a s' b t' => Q a s' b t' ∧ P b t' := by
  rcases h with ⟨a, s', b, t', hp, hrun, h⟩ | h
  · exact Or.inl ⟨a, s', b, t', hp, hrun, h, hq b t' hrun⟩
  · exact Or.inr h

theorem ret {a : α} {b : β} (h : Q a s b t) :
    EndAlike (pure a : Prog ε σ α) s (pure b : Prog ε τ β) t Q :=
  Or.inl ⟨a, s, b, t, rfl, rfl, h⟩

theorem stuck {w : Stuck} :
    EndAlike (Prog.stuck w : Prog ε σ α) s (Prog.stuck w : Prog ε τ β) t Q :=
  Or.inr ⟨w, s, t, rfl, rfl⟩

theorem bind {f : α → Prog ε σ α'} {g : β → Prog ε τ β'} {R : α' → σ → β' → τ → Prop}
    (h : EndAlike p s q t Q)
    (hf : ∀ a s' b t', Q a s' b t' → EndAlike (f a) s' (g b) t' R) :
    EndAlike (p >>= f) s (q >>= g) t R := by
  rcases h with ⟨a, s', b, t', hp, hq, h⟩ | ⟨w, s', t', hp, hq⟩
  · have hnext := hf a s' b t' h
    simpa only [EndAlike, run_bind, hp, hq] using hnext
  · exact Or.inr ⟨w, s', t', by rw [run_bind, hp], by rw [run_bind, hq]⟩

theorem map {f : α → α'} {g : β → β'} {R : α' → σ → β' → τ → Prop}
    (h : EndAlike p s q t fun a s' b t' => R (f a) s' (g b) t') :
    EndAlike (f <$> p) s (g <$> q) t R :=
  h.bind fun _ _ _ _ h => ret h

/-- A step of the first side alone. -/
theorem bind_left {f : α → Prog ε σ α'} {q : Prog ε τ β} {R : α' → σ → β → τ → Prop} {a : α}
    {s' : σ} (hp : p.run s = (.ok a, s')) (h : EndAlike (f a) s' q t R) :
    EndAlike (p >>= f) s q t R := by
  have hrun : (p >>= f).run s = (f a).run s' := by rw [run_bind, hp]
  simpa only [EndAlike, hrun] using h

/-- A handler plays no part, since nothing is thrown. -/
theorem catching {h : ε → Prog ε σ α} {k : ε → Prog ε τ β} (hpq : EndAlike p s q t Q) :
    EndAlike (p.catching h) s (q.catching k) t Q := by
  rcases hpq with ⟨a, s', b, t', hp, hq, hQ⟩ | ⟨w, s', t', hp, hq⟩
  · exact Or.inl ⟨a, s', b, t', by rw [run_catching, hp], by rw [run_catching, hq], hQ⟩
  · exact Or.inr ⟨w, s', t', by rw [run_catching, hp], by rw [run_catching, hq]⟩

/-- Two loops over the same list; the invariant speaks of the elements still to come. -/
theorem foldEach {γ : Type} {f : α → γ → Prog ε σ α} {g : β → γ → Prog ε τ β}
    (I : List γ → α → σ → β → τ → Prop)
    (step : ∀ x xs a s b t, I (x :: xs) a s b t → EndAlike (f a x) s (g b x) t (I xs)) :
    ∀ (xs : List γ) {a : α} {s : σ} {b : β} {t : τ}, I xs a s b t →
      EndAlike (Prog.foldEach f a xs) s (Prog.foldEach g b xs) t (I [])
  | [], _, _, _, _, h => ret h
  | x :: xs, a, s, b, t, h =>
    (step x xs a s b t h).bind fun _ _ _ _ h' => foldEach I step xs h'

/-- The outcomes agree up to the values. -/
theorem fst_run_eq {q : Prog ε τ α} {Q : α → σ → α → τ → Prop} (h : EndAlike p s q t Q)
    (hQ : ∀ a s' b t', Q a s' b t' → a = b) : (p.run s).1 = (q.run t).1 := by
  rcases h with ⟨a, s', b, t', hp, hq, h⟩ | ⟨w, s', t', hp, hq⟩
  · rw [hp, hq, hQ _ _ _ _ h]
  · rw [hp, hq]

end EndAlike

end Prog

end UmatiDashboard
