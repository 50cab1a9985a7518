import UmatiDashboard.Effect.Prog

/-!
# Loops that skip what fails

A loop that lets an exception through ends at the first element that throws, with whatever the
elements before it and this element have done to the state. `foldSkipping` is the loop that goes on
instead: an element that throws leaves the accumulator as it was, and what it has done to the state
is taken back by a given `undo`.

Up to the **first failure** the two loops run alike; so a loop that does not throw is its own
skipping version, and one that throws can be compared with it from the first failure on.
-/

namespace UmatiDashboard

namespace Prog

variable {ε σ α β : Type}

/-- Run `p`; an exception is replaced by a value, and `undo` makes of the states before and after
`p` the state to go on from. -/
def attempt (undo : σ → σ → σ) (p : Prog ε σ α) (a : α) : Prog ε σ α := do
  let s ← get
  p.catching fun _ => do
    modify (undo s)
    pure a

/-- Run `f` on every element of a list, skipping those for which it throws. -/
def foldSkipping (undo : σ → σ → σ) (f : β → α → Prog ε σ β) : β → List α → Prog ε σ β :=
  foldEach fun b x => (f b x).attempt undo b

/-- The loop comes to the element `x` with the accumulator `b'` and the state `s'`, and the element
throws. -/
def FirstFailure (f : β → α → Prog ε σ β) (b : β) (xs : List α) (s : σ) (b' : β) (x : α) (s' : σ) :
    Prop :=
  ∃ before after, xs = before ++ x :: after ∧ (foldEach f b before).run s = (.ok b', s') ∧
    ∃ e, ((f b' x).run s').1 = .throw e

variable {f : β → α → Prog ε σ β} {undo : σ → σ → σ} {b b' : β} {x : α} {xs : List α} {s s' : σ}

/-! ### One element -/

theorem run_attempt (p : Prog ε σ α) (a : α) (s : σ) :
    (p.attempt undo a).run s = (p.catching fun _ => do modify (undo s); pure a).run s := rfl

theorem run_attempt_of_ok {p : Prog ε σ α} {a a' : α} (h : p.run s = (.ok a', s')) :
    (p.attempt undo a).run s = (.ok a', s') := by
  rw [run_attempt, run_catching, h]

theorem run_attempt_of_stuck {p : Prog ε σ α} {a : α} {w : Stuck} (h : p.run s = (.stuck w, s')) :
    (p.attempt undo a).run s = (.stuck w, s') := by
  rw [run_attempt, run_catching, h]

/-- An attempt returns if the program throws. -/
theorem ends_attempt {p : Prog ε σ α} {a : α} {Q : Outcome ε α → σ → Prop} :
    (p.attempt undo a).Ends s Q ↔
      p.Ends s (Outcome.rescue Q fun _ s' => Q (.ok a) (undo s s')) := by
  rw [attempt, ends_bind, ends_get, Outcome.follow_ok, ends_catching]
  rfl

/-! ### Loops -/

theorem foldEach_append (f : β → α → Prog ε σ β) :
    ∀ (b : β) (xs ys : List α),
      foldEach f b (xs ++ ys) = (foldEach f b xs >>= fun b' => foldEach f b' ys)
  | _, [], _ => rfl
  | b, x :: xs, ys => by
    rw [List.cons_append, foldEach_cons, foldEach_cons, bind_assoc]
    exact congrArg (f b x >>= ·) (funext fun b' => foldEach_append f b' xs ys)

/-- The part of a loop that returns. -/
theorem run_foldEach_append {ys : List α} (h : (foldEach f b xs).run s = (.ok b', s')) :
    (foldEach f b (xs ++ ys)).run s = (foldEach f b' ys).run s' := by
  rw [foldEach_append, run_bind, h]

/-- The loop over `xs`, started with `b` in the state `s`, comes to the element `x` with the
accumulator `b'` in the state `s'`. -/
def Reaches (f : β → α → Prog ε σ β) (b : β) (xs : List α) (s : σ) (x : α) (b' : β) (s' : σ) :
    Prop :=
  ∃ before after, xs = before ++ x :: after ∧ (foldEach f b before).run s = (.ok b', s')

theorem reaches_head : Reaches f b (x :: xs) s x b s := ⟨[], xs, rfl, rfl⟩

theorem FirstFailure.cons {y : α} {b₁ : β} {s₁ : σ} (hy : (f b y).run s = (.ok b₁, s₁))
    (h : FirstFailure f b₁ xs s₁ b' x s') : FirstFailure f b (y :: xs) s b' x s' := by
  obtain ⟨before, after, rfl, hrun, hthrow⟩ := h
  refine ⟨y :: before, after, rfl, ?_, hthrow⟩
  rw [foldEach_cons, run_bind, hy]
  exact hrun

/-- **A loop throws** what its first failure throws. -/
theorem exists_firstFailure : ∀ {xs : List α} {b : β} {s : σ} {e : ε} {s' : σ},
    (foldEach f b xs).run s = (.throw e, s') →
      ∃ b' x s₁, FirstFailure f b xs s b' x s₁ ∧ (f b' x).run s₁ = (.throw e, s')
  | [], _, _, _, _, h => by
    rw [foldEach_nil] at h
    exact absurd (congrArg Prod.fst h) (Outcome.ok_ne_throw _ _)
  | x :: xs, b, s, e, s', h => by
    rw [foldEach_cons, run_bind] at h
    rcases hx : (f b x).run s with ⟨b₁ | e₁ | w, s₁⟩
    · rw [hx] at h
      obtain ⟨b', y, s₂, hfirst, hy⟩ := exists_firstFailure h
      exact ⟨b', y, s₂, hfirst.cons hx, hy⟩
    · rw [hx] at h
      have hthrow : (f b x).run s = (.throw e, s') := hx.trans h
      exact ⟨b, x, s, ⟨[], xs, rfl, rfl, e, by rw [hthrow]⟩, hthrow⟩
    · rw [hx] at h
      exact absurd (congrArg Prod.fst h) (Outcome.stuck_ne_throw _ _)

theorem FirstFailure.run_eq (h : FirstFailure f b xs s b' x s') :
    (foldEach f b xs).run s = (f b' x).run s' := by
  obtain ⟨before, after, rfl, hrun, e, he⟩ := h
  rw [run_foldEach_append hrun, foldEach_cons, run_bind]
  rcases hx : (f b' x).run s' with ⟨b₁ | e₁ | w, s₁⟩
  · rw [hx] at he
    exact absurd he (Outcome.ok_ne_throw _ _)
  · rfl
  · rfl

theorem FirstFailure.throws (h : FirstFailure f b xs s b' x s') :
    ∃ e, ((foldEach f b xs).run s).1 = .throw e := by
  rw [h.run_eq]
  obtain ⟨_, _, -, -, he⟩ := h
  exact he

/-- **A loop that does not throw** skips nothing. -/
theorem run_foldSkipping : ∀ {xs : List α} {b : β} {s : σ},
    (∀ e, ((foldEach f b xs).run s).1 ≠ .throw e) →
      (foldSkipping undo f b xs).run s = (foldEach f b xs).run s
  | [], _, _, _ => rfl
  | x :: xs, b, s, h => by
    rw [foldEach_cons, run_bind] at h
    rw [foldSkipping, foldEach_cons, foldEach_cons, run_bind, run_bind]
    rcases hx : (f b x).run s with ⟨b₁ | e | w, s₁⟩
    · rw [hx] at h
      rw [run_attempt_of_ok hx]
      exact run_foldSkipping h
    · rw [hx] at h
      exact absurd rfl (h e)
    · rw [run_attempt_of_stuck hx]

/-- Up to the first failure nothing is skipped. -/
theorem FirstFailure.run_foldSkipping (h : FirstFailure f b xs s b' x s') (undo : σ → σ → σ) :
    ∃ after, (foldSkipping undo f b xs).run s =
      (foldSkipping undo f b' (x :: after)).run s' := by
  obtain ⟨before, after, rfl, hrun, -⟩ := h
  refine ⟨after, run_foldEach_append ?_⟩
  rw [← hrun]
  refine Prog.run_foldSkipping fun e => ?_
  rw [hrun]
  exact Outcome.ok_ne_throw _ _

end Prog

end UmatiDashboard
