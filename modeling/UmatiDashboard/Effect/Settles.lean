import UmatiDashboard.Effect.Keeps

/-!
# How a program may get stuck

`p.Settles s J W Q` adds to `p.Leaves s J Q` a statement about programs that get stuck: `W`
relates the reason to the state in which this has happened. A program that is not to run out of
fuel has a `W` that does not admit this reason.
-/

namespace UmatiDashboard

namespace Prog

variable {ε σ α β : Type} {J : σ → Prop} {W : Stuck → σ → Prop} {Q Q' : α → σ → Prop}
  {R : β → σ → Prop} {s : σ}

/-- The program ends in a state with `J`, with `W` if it gets stuck and with `Q` if it returns. -/
structure Settles (p : Prog ε σ α) (s : σ) (J : σ → Prop) (W : Stuck → σ → Prop)
    (Q : α → σ → Prop) : Prop where
  leaves : p.Leaves s J Q
  stuck : p.Ends s fun o s' => ∀ w, o = .stuck w → W w s'

theorem Settles.mono {p : Prog ε σ α} (h : p.Settles s J W Q)
    (hQ : ∀ a s', J s' → Q a s' → Q' a s') : p.Settles s J W Q' :=
  ⟨h.leaves.mono hQ, h.stuck⟩

theorem Settles.weaken {p : Prog ε σ α} {J' : σ → Prop} (h : p.Settles s J W Q)
    (hJ : ∀ s', J s' → J' s') : p.Settles s J' W Q :=
  ⟨h.leaves.weaken hJ, h.stuck⟩

theorem settles_pure {a : α} (hJ : J s) (hQ : Q a s) :
    (pure a : Prog ε σ α).Settles s J W Q :=
  ⟨leaves_pure hJ hQ, fun _ h => by cases h⟩

theorem settles_throw {e : ε} (hJ : J s) : (throw e : Prog ε σ α).Settles s J W Q :=
  ⟨leaves_throw hJ, fun _ h => by cases h⟩

theorem settles_modify {f : σ → σ} {Q : Unit → σ → Prop} (hJ : J (f s)) (hQ : Q () (f s)) :
    (modify f : Prog ε σ Unit).Settles s J W Q :=
  ⟨leaves_modify hJ hQ, fun _ h => by cases h⟩

/-- The access to an empty list is the one reason. -/
theorem settles_front {l : List α} (hJ : J s) (hW : l = [] → W .undefined s)
    (hQ : ∀ a ∈ l, Q a s) : (front l : Prog ε σ α).Settles s J W Q := by
  cases l with
  | nil =>
    refine ⟨⟨hJ, fun _ h => by cases h⟩, fun w h => ?_⟩
    cases h
    exact hW rfl
  | cons a rest => exact settles_pure hJ (hQ a List.mem_cons_self)

theorem Settles.bind {p : Prog ε σ α} {f : α → Prog ε σ β} (hp : p.Settles s J W Q)
    (hf : ∀ a s', J s' → Q a s' → (f a).Settles s' J W R) : (p >>= f).Settles s J W R := by
  refine ⟨hp.leaves.bind fun a s' hJ hQ => (hf a s' hJ hQ).leaves, ?_⟩
  rw [ends_bind]
  refine (hp.leaves.and hp.stuck).mono fun o s' ho => ?_
  cases o with
  | ok a => exact (hf a s' ho.1.1 (ho.1.2 a rfl)).stuck
  | throw e => exact fun w h => by cases h
  | stuck w =>
    intro w' h
    obtain rfl := Outcome.stuck.inj h
    exact ho.2 w rfl

theorem Settles.map {p : Prog ε σ α} {f : α → β} (hp : p.Settles s J W Q)
    (hf : ∀ a s', J s' → Q a s' → R (f a) s') : (f <$> p).Settles s J W R :=
  hp.bind fun a s' hJ hQ => settles_pure hJ (hf a s' hJ hQ)

theorem Settles.catching {p : Prog ε σ α} {h : ε → Prog ε σ α} (hp : p.Settles s J W Q)
    (hh : ∀ e s', J s' → (h e).Settles s' J W Q) : (p.catching h).Settles s J W Q := by
  refine ⟨hp.leaves.catching fun e s' hJ => (hh e s' hJ).leaves, ?_⟩
  rw [ends_catching]
  refine (hp.leaves.and hp.stuck).mono fun o s' ho => ?_
  cases o with
  | ok a => exact ho.2
  | throw e => exact (hh e s' ho.1.1).stuck
  | stuck w => exact ho.2

/-- **Invariant rule for accumulating loops.** -/
theorem settles_foldEach {f : β → α → Prog ε σ β} (I : List α → β → σ → Prop)
    (step : ∀ x xs b s, J s → I (x :: xs) b s → (f b x).Settles s J W fun b' s' => I xs b' s') :
    ∀ (xs : List α) {b : β} {s : σ}, J s → I xs b s →
      (foldEach f b xs).Settles s J W fun b' s' => I [] b' s'
  | [], _, _, hJ, h => settles_pure hJ h
  | x :: xs, b, s, hJ, h =>
    (step x xs b s hJ h).bind fun _ _ hJ' h' => settles_foldEach I step xs hJ' h'

end Prog

end UmatiDashboard
