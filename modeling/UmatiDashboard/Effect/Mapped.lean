import UmatiDashboard.Effect.Keeps

/-!
# Programs that return more

A program with further information in the values it returns is related to the one without by a map
over its values. The map passes through handlers and loops, so the relation of two programs follows
their text; and the two throw the same exceptions.
-/

namespace UmatiDashboard

namespace Prog

variable {ε σ α β γ δ : Type}

theorem map_catching (f : α → β) (p : Prog ε σ α) (h : ε → Prog ε σ α) :
    f <$> p.catching h = (f <$> p).catching fun e => f <$> h e := by
  funext s
  change (f <$> p.catching h).run s = ((f <$> p).catching fun e => f <$> h e).run s
  simp only [map_eq_pure_bind, run_bind, run_catching]
  rcases p.run s with ⟨a | e | w, s'⟩ <;> rfl

/-- A loop over bodies that are related is related to the other loop. -/
theorem map_foldEach {f : β → α → Prog ε σ β} {g : γ → α → Prog ε σ γ} {m : β → γ}
    (h : ∀ b x, m <$> f b x = g (m b) x) :
    ∀ (b : β) (xs : List α), m <$> foldEach f b xs = foldEach g (m b) xs
  | _, [] => rfl
  | b, x :: xs => by
    rw [foldEach_cons, foldEach_cons, map_bind, ← h b x, seq_bind_eq]
    exact congrArg (f b x >>= ·) (funext fun b' => map_foldEach h b' xs)

theorem run_map (f : α → β) (p : Prog ε σ α) (s : σ) :
    (f <$> p).run s = match p.run s with
      | (.ok a, s') => (.ok (f a), s')
      | (.throw e, s') => (.throw e, s')
      | (.stuck w, s') => (.stuck w, s') := by
  rw [map_eq_pure_bind, run_bind]
  rfl

/-- The related program returns what the other one does, with the same effect. -/
theorem run_map_eq_ok {f : α → β} {p : Prog ε σ α} {s s' : σ} {b : β} :
    (f <$> p).run s = (.ok b, s') ↔ ∃ a, p.run s = (.ok a, s') ∧ f a = b := by
  rw [run_map]
  rcases p.run s with ⟨a | e | w, s₁⟩
  · constructor
    · intro h
      cases h
      exact ⟨a, rfl, rfl⟩
    · rintro ⟨a', ha', rfl⟩
      cases ha'
      rfl
  · simp
  · simp

theorem raises_map_iff {f : α → β} {p : Prog ε σ α} {R : ε → Prop} :
    (f <$> p).Raises R ↔ p.Raises R := by
  refine ⟨fun h s e he => ?_, Raises.map⟩
  refine h s e ?_
  rw [run_map]
  rcases hp : p.run s with ⟨a | e' | w, s₁⟩
  · rw [hp] at he
    cases he
  · rw [hp] at he
    cases he
    rfl
  · rw [hp] at he
    cases he

end Prog

end UmatiDashboard
