import UmatiDashboard.Effect.Prog

/-!
# Approximation by fuel

A recursion with fuel is a family of programs, and more fuel only helps: from every state the
program with less fuel either runs out of fuel, or runs as the one with more fuel does. That is
`Approximates`. It is a congruence for all combinators, so a function that hands its fuel to a
recursive call is monotone in it by an induction that follows the text of the function.
-/

namespace UmatiDashboard

namespace Prog

variable {ε σ τ α β : Type}

/-- From every state `p` runs out of fuel, or runs as `q` does. -/
def Approximates (p q : Prog ε σ α) : Prop :=
  ∀ s, (p.run s).1 = .stuck .outOfFuel ∨ p.run s = q.run s

namespace Approximates

variable {p q : Prog ε σ α}

protected theorem refl (p : Prog ε σ α) : p.Approximates p := fun _ => .inr rfl

/-- A program that is out of fuel approximates every other one. -/
theorem outOfFuel : (stuck .outOfFuel : Prog ε σ α).Approximates q := fun _ => .inl rfl

/-- A run that does not run out of fuel is the run of the better program. -/
theorem run_eq (h : p.Approximates q) {s : σ} (hs : (p.run s).1 ≠ .stuck .outOfFuel) :
    q.run s = p.run s :=
  ((h s).resolve_left hs).symm

theorem bind {f g : α → Prog ε σ β} (h : p.Approximates q) (hf : ∀ a, (f a).Approximates (g a)) :
    (p >>= f).Approximates (q >>= g) := by
  intro s
  rw [run_bind, run_bind]
  rcases h s with h | h
  · rcases hrun : p.run s with ⟨a | e | w, s'⟩ <;> simp_all
  · rw [← h]
    rcases p.run s with ⟨a | e | w, s'⟩
    · exact hf a s'
    · exact .inr rfl
    · exact .inr rfl

theorem map {f : α → β} (h : p.Approximates q) : (f <$> p).Approximates (f <$> q) :=
  h.bind fun _ => .refl _

theorem catching {f g : ε → Prog ε σ α} (h : p.Approximates q)
    (hf : ∀ e, (f e).Approximates (g e)) : (p.catching f).Approximates (q.catching g) := by
  intro s
  rw [run_catching, run_catching]
  rcases h s with h | h
  · rcases hrun : p.run s with ⟨a | e | w, s'⟩ <;> simp_all
  · rw [← h]
    rcases p.run s with ⟨a | e | w, s'⟩
    · exact .inr rfl
    · exact hf e s'
    · exact .inr rfl

theorem zoom {get : σ → τ} {set : τ → σ → σ} {p q : Prog ε τ α} (h : p.Approximates q) :
    (p.zoom get set).Approximates (q.zoom get set) := fun s =>
  (h (get s)).imp id fun h => by
    have hp : (p.zoom get set).run s = ((p.run (get s)).1, set (p.run (get s)).2 s) := rfl
    rw [hp, h]
    rfl

theorem forEach {f g : α → Prog ε σ Unit} (h : ∀ x, (f x).Approximates (g x)) :
    ∀ xs, (Prog.forEach f xs).Approximates (Prog.forEach g xs)
  | [] => .refl _
  | x :: xs => (h x).bind fun _ => forEach h xs

theorem foldEach {f g : β → α → Prog ε σ β} (h : ∀ b x, (f b x).Approximates (g b x)) :
    ∀ xs b, (Prog.foldEach f b xs).Approximates (Prog.foldEach g b xs)
  | [], _ => .refl _
  | x :: xs, b => (h b x).bind fun b' => foldEach h xs b'

end Approximates

end Prog

end UmatiDashboard
