import UmatiDashboard.Effect.Accounts

/-!
# Programs with a determined answer

A program whose state is only there to save work answers the same from every state that is in
order. `p.Determined I excused answer` says that `p`, run from a state with the invariant `I`,
ends with `answer`, a value or an exception, in a state with `I` again. It may also end with an
exception that is `excused`; it does not get stuck.

There is one rule for each combinator, and the answers are put together in `Except ε`. So a
stateful program is compared with a pure computation along its own text.
-/

namespace UmatiDashboard

namespace Prog

variable {ε σ τ α β : Type}

/-- From every state with `I` the program ends with the answer, or with an excused exception, and
in a state with `I`. -/
def Determined (I : σ → Prop) (excused : ε → Prop) (p : Prog ε σ α) (answer : Except ε α) : Prop :=
  ∀ s, I s → p.Ends s fun out s' =>
    I s' ∧ (out = .ofExcept answer ∨ ∃ e, excused e ∧ out = .throw e)

variable {I : σ → Prop} {excused : ε → Prop} {p : Prog ε σ α} {answer : Except ε α}

theorem determined_pure (a : α) : (pure a : Prog ε σ α).Determined I excused (.ok a) :=
  fun _ hs => ⟨hs, .inl rfl⟩

theorem determined_throw (e : ε) : (throw e : Prog ε σ α).Determined I excused (.error e) :=
  fun _ hs => ⟨hs, .inl rfl⟩

theorem determined_modify {f : σ → σ} (hf : ∀ s, I s → I (f s)) :
    (modify f : Prog ε σ Unit).Determined I excused (.ok ()) :=
  fun s hs => ⟨hf s hs, .inl rfl⟩

theorem determined_front (a : α) (rest : List α) :
    (front (a :: rest) : Prog ε σ α).Determined I excused (.ok a) :=
  determined_pure a

/-- The second program is asked about only if the first one has an answer to hand over. -/
theorem Determined.bind {f : α → Prog ε σ β} {next : α → Except ε β}
    (hp : p.Determined I excused answer)
    (hf : ∀ a, answer = .ok a → (f a).Determined I excused (next a)) :
    (p >>= f).Determined I excused (answer >>= next) := by
  intro s hs
  rw [ends_bind]
  refine (hp s hs).mono ?_
  rintro out s' ⟨hs', rfl | ⟨e, he, rfl⟩⟩
  · cases answer with
    | ok a => exact hf a rfl s' hs'
    | error e => exact ⟨hs', .inl rfl⟩
  · exact ⟨hs', .inr ⟨e, he, rfl⟩⟩

/-- A first program that is sure to return. -/
theorem Determined.bind_ok {f : α → Prog ε σ β} {a : α} {answer : Except ε β}
    (hp : p.Determined I excused (.ok a)) (hf : (f a).Determined I excused answer) :
    (p >>= f).Determined I excused answer := by
  have h : (p >>= f).Determined I excused (Except.ok a >>= fun _ => answer) :=
    hp.bind fun b hb => by
      cases hb
      exact hf
  exact h

/-- A program that is sure to end with an excused exception has every answer. -/
theorem Determined.excuse {e : ε} (hp : p.Determined I excused answer) (h : answer = .error e)
    (he : excused e) (answer' : Except ε α) : p.Determined I excused answer' := by
  subst h
  intro s hs
  refine (hp s hs).mono ?_
  rintro out s' ⟨hs', rfl | ⟨e', he', rfl⟩⟩
  · exact ⟨hs', .inr ⟨e, he, rfl⟩⟩
  · exact ⟨hs', .inr ⟨e', he', rfl⟩⟩

/-- A program that reads the state first. -/
theorem determined_get_bind {f : σ → Prog ε σ α}
    (hf : ∀ s, I s → (f s).Determined I excused answer) :
    (get >>= f).Determined I excused answer :=
  fun s hs => hf s hs s hs

/-- A loop runs through the answers of its rounds. -/
theorem determined_foldEach {f : β → α → Prog ε σ β} {next : β → α → Except ε β}
    (hf : ∀ b a, (f b a).Determined I excused (next b a)) :
    ∀ (b : β) (as : List α), (foldEach f b as).Determined I excused (as.foldlM next b)
  | b, [] => determined_pure b
  | b, a :: as => (hf b a).bind fun b' _ => determined_foldEach hf b' as

/-- A program on a part of the state. -/
theorem Determined.zoom {J : τ → Prop} {get : τ → σ} {set : σ → τ → τ}
    (hp : p.Determined I excused answer) (hget : ∀ t, J t → I (get t))
    (hset : ∀ t s, J t → I s → J (set s t)) :
    (p.zoom get set).Determined J excused answer := fun t ht => by
  rw [ends_zoom]
  exact (hp (get t) (hget t ht)).mono fun _ s' h => ⟨hset t s' ht h.1, h.2⟩

end Prog

end UmatiDashboard
