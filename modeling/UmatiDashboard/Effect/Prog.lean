import Mathlib.Logic.Basic
import Mathlib.Data.List.Basic

/-!
# Stateful programs with exceptions

`Prog ε σ α` is a computation over a state `σ` that ends in one of three ways: it returns
a value, it throws an exception of type `ε`, or it gets **stuck**. A thrown exception keeps
the state reached so far (there is no rollback) and may be caught; a stuck computation is
never caught, and stands for the ways in which a program of the modelled kind leaves the
language's semantics: undefined behaviour, and a recursion that outruns its fuel.

Programs are reasoned about through `Prog.Ends p s Q`, the statement that running `p` from
`s` ends in an outcome and a state that satisfy `Q`. Every combinator has one rewriting
lemma for it, so a symbolic run is a `simp`, and the two loops have an invariant rule each.
-/

namespace UmatiDashboard

/-- The ways of leaving the language's semantics. -/
inductive Stuck where
  /-- a recursion used up its fuel -/
  | outOfFuel
  /-- undefined behaviour: an access outside of a container -/
  | undefined
  /-- undefined behaviour: an access to memory that was freed -/
  | freed
  deriving DecidableEq

/-- How a computation ends. -/
inductive Outcome (ε α : Type) where
  | ok (a : α)
  | throw (e : ε)
  | stuck (why : Stuck)
  deriving DecidableEq

namespace Outcome

variable {ε α β σ : Type}

/-- The outcome of an operation that returns or throws. -/
def ofExcept : Except ε α → Outcome ε α
  | .ok a => .ok a
  | .error e => .throw e

/-- The computation ended by returning. -/
def Returns : Outcome ε α → Prop
  | ok _ => True
  | _ => False

@[simp] theorem returns_ok (a : α) : (ok a : Outcome ε α).Returns := trivial

@[simp] theorem not_returns_throw (e : ε) : ¬ (throw e : Outcome ε α).Returns := id

@[simp] theorem not_returns_stuck (w : Stuck) : ¬ (stuck w : Outcome ε α).Returns := id

theorem returns_iff {o : Outcome ε α} : o.Returns ↔ ∃ a, o = ok a := by
  cases o with
  | ok a => exact ⟨fun _ => ⟨a, rfl⟩, fun _ => trivial⟩
  | throw e => simp
  | stuck w => simp

theorem ok_ne_throw (a : α) (e : ε) : (ok a : Outcome ε α) ≠ throw e := by simp

theorem stuck_ne_throw (w : Stuck) (e : ε) : (stuck w : Outcome ε α) ≠ throw e := by simp

instance : DecidablePred (Returns : Outcome ε α → Prop)
  | ok _ => .isTrue trivial
  | throw _ => .isFalse id
  | stuck _ => .isFalse id

/-- The postcondition of a first computation whose value is handed to a second one: the
continuation takes over a returned value, the other outcomes are those of the whole. -/
def follow (Q : Outcome ε β → σ → Prop) (k : α → σ → Prop) : Outcome ε α → σ → Prop
  | ok a, s => k a s
  | throw e, s => Q (throw e) s
  | stuck w, s => Q (stuck w) s

/-- The postcondition of a guarded computation: the handler takes over an exception. -/
def rescue (Q : Outcome ε α → σ → Prop) (k : ε → σ → Prop) : Outcome ε α → σ → Prop
  | ok a, s => Q (ok a) s
  | throw e, s => k e s
  | stuck w, s => Q (stuck w) s

section Simp

variable (Q : Outcome ε β → σ → Prop) (R : Outcome ε α → σ → Prop) (k : α → σ → Prop)
  (k' : ε → σ → Prop) (s : σ)

@[simp] theorem follow_ok (a : α) : follow Q k (ok a) s = k a s := rfl
@[simp] theorem follow_throw (e : ε) : follow Q k (throw e) s = Q (throw e) s := rfl
@[simp] theorem follow_stuck (w : Stuck) : follow Q k (stuck w) s = Q (stuck w) s := rfl
@[simp] theorem rescue_ok (a : α) : rescue R k' (ok a) s = R (ok a) s := rfl
@[simp] theorem rescue_throw (e : ε) : rescue R k' (throw e) s = k' e s := rfl
@[simp] theorem rescue_stuck (w : Stuck) : rescue R k' (stuck w) s = R (stuck w) s := rfl

end Simp

end Outcome

/-- A computation over the state `σ` that may throw an `ε`. -/
def Prog (ε σ α : Type) : Type := σ → Outcome ε α × σ

namespace Prog

variable {ε σ τ α β : Type}

/-- Run a program from a state. -/
def run (p : Prog ε σ α) (s : σ) : Outcome ε α × σ := p s

instance : Monad (Prog ε σ) where
  pure a := fun s => (.ok a, s)
  bind p f := fun s =>
    match p s with
    | (.ok a, s') => f a s'
    | (.throw e, s') => (.throw e, s')
    | (.stuck w, s') => (.stuck w, s')

private theorem id_map_prog (p : Prog ε σ α) : id <$> p = p := by
  funext s
  have hrun : (id <$> p : Prog ε σ α) s = match p s with
      | (.ok a, s') => (.ok a, s')
      | (.throw e, s') => (.throw e, s')
      | (.stuck w, s') => (.stuck w, s') := rfl
  rw [hrun]
  rcases p s with ⟨a | e | w, s'⟩ <;> rfl

private theorem bind_assoc_prog {γ : Type} (p : Prog ε σ α) (f : α → Prog ε σ β)
    (g : β → Prog ε σ γ) : p >>= f >>= g = p >>= fun a => f a >>= g := by
  funext s
  simp only [bind]
  rcases p s with ⟨a | e | w, s'⟩ <;> rfl

instance : LawfulMonad (Prog ε σ) :=
  LawfulMonad.mk' (Prog ε σ) id_map_prog (fun _ _ => rfl) bind_assoc_prog

/-- Throw an exception. -/
def throw (e : ε) : Prog ε σ α := fun s => (.throw e, s)

/-- Leave the semantics of the language. -/
def stuck (w : Stuck) : Prog ε σ α := fun s => (.stuck w, s)

/-- Read the state. -/
def get : Prog ε σ σ := fun s => (.ok s, s)

/-- Update the state. -/
def modify (f : σ → σ) : Prog ε σ Unit := fun s => (.ok (), f s)

/-- Run `p`, and the handler `h` on an exception of `p`, in the state `p` has left. -/
def catching (p : Prog ε σ α) (h : ε → Prog ε σ α) : Prog ε σ α := fun s =>
  match p s with
  | (.throw e, s') => h e s'
  | r => r

/-- An operation that is described by what it returns or throws and the state it leaves. -/
def call (f : σ → Except ε α × σ) : Prog ε σ α := fun s =>
  match f s with
  | (.ok a, s') => (.ok a, s')
  | (.error e, s') => (.throw e, s')

/-- `front()`: the first element of a list; the access to an empty list is undefined. -/
def front : List α → Prog ε σ α
  | [] => stuck .undefined
  | a :: _ => pure a

/-- Run a program on a part of a larger state. -/
def zoom (get : σ → τ) (set : τ → σ → σ) (p : Prog ε τ α) : Prog ε σ α := fun s =>
  ((p (get s)).1, set (p (get s)).2 s)

/-! ### Reasoning about runs -/

/-- Running `p` from `s` ends in an outcome and a state that satisfy `Q`. -/
def Ends (p : Prog ε σ α) (s : σ) (Q : Outcome ε α → σ → Prop) : Prop :=
  Q (p.run s).1 (p.run s).2

section Rules

variable {p : Prog ε σ α} {s : σ} {Q R : Outcome ε α → σ → Prop}

theorem run_bind (p : Prog ε σ α) (f : α → Prog ε σ β) (s : σ) :
    (p >>= f).run s = match p.run s with
      | (.ok a, s') => (f a).run s'
      | (.throw e, s') => (.throw e, s')
      | (.stuck w, s') => (.stuck w, s') := rfl

/-- A sequence that returns has returned from both of its parts. -/
theorem run_bind_eq_ok {f : α → Prog ε σ β} {b : β} {s' : σ} :
    (p >>= f).run s = (.ok b, s') ↔
      ∃ a s₁, p.run s = (.ok a, s₁) ∧ (f a).run s₁ = (.ok b, s') := by
  rw [run_bind]
  rcases p.run s with ⟨a | e | w, s₁⟩
  · exact ⟨fun h => ⟨a, s₁, rfl, h⟩, by rintro ⟨_, _, ⟨⟩, h⟩; exact h⟩
  · exact ⟨fun h => by simp at h, by rintro ⟨_, _, ⟨⟩, -⟩⟩
  · exact ⟨fun h => by simp at h, by rintro ⟨_, _, ⟨⟩, -⟩⟩

theorem run_catching (p : Prog ε σ α) (h : ε → Prog ε σ α) (s : σ) :
    (p.catching h).run s = match p.run s with
      | (.throw e, s') => (h e).run s'
      | r => r := rfl

theorem fst_run_map {f : α → β} {a : α} {s' : σ} (h : p.run s = (.ok a, s')) :
    ((f <$> p).run s).1 = .ok (f a) := by
  rw [map_eq_pure_bind, run_bind, h]
  rfl

theorem ends_iff_run : p.Ends s Q ↔ Q (p.run s).1 (p.run s).2 := Iff.rfl

theorem Ends.mono (h : p.Ends s Q) (hQ : ∀ o s', Q o s' → R o s') : p.Ends s R :=
  hQ _ _ h

theorem Ends.and (h : p.Ends s Q) (h' : p.Ends s R) : p.Ends s fun o s' => Q o s' ∧ R o s' :=
  ⟨h, h'⟩

@[simp] theorem ends_pure {a : α} : (pure a : Prog ε σ α).Ends s Q ↔ Q (.ok a) s := Iff.rfl

@[simp] theorem ends_throw {e : ε} : (throw e : Prog ε σ α).Ends s Q ↔ Q (.throw e) s := Iff.rfl

@[simp] theorem ends_stuck {w : Stuck} : (stuck w : Prog ε σ α).Ends s Q ↔ Q (.stuck w) s :=
  Iff.rfl

@[simp] theorem ends_get {Q : Outcome ε σ → σ → Prop} :
    (get : Prog ε σ σ).Ends s Q ↔ Q (.ok s) s := Iff.rfl

@[simp] theorem ends_modify {f : σ → σ} {Q : Outcome ε Unit → σ → Prop} :
    (modify f : Prog ε σ Unit).Ends s Q ↔ Q (.ok ()) (f s) := Iff.rfl

@[simp] theorem ends_bind {f : α → Prog ε σ β} {Q : Outcome ε β → σ → Prop} :
    (p >>= f).Ends s Q ↔ p.Ends s (Outcome.follow Q fun a s' => (f a).Ends s' Q) := by
  simp only [Ends, run, bind]
  rcases p s with ⟨a | e | w, s'⟩ <;> rfl

@[simp] theorem ends_map {f : α → β} {Q : Outcome ε β → σ → Prop} :
    (f <$> p).Ends s Q ↔ p.Ends s (Outcome.follow Q fun a s' => Q (.ok (f a)) s') :=
  ends_bind

@[simp] theorem ends_catching {h : ε → Prog ε σ α} :
    (p.catching h).Ends s Q ↔ p.Ends s (Outcome.rescue Q fun e s' => (h e).Ends s' Q) := by
  simp only [Ends, run, catching]
  rcases p s with ⟨a | e | w, s'⟩ <;> rfl

theorem ends_call {f : σ → Except ε α × σ} :
    (call f).Ends s Q ↔
      (∀ a s', f s = (.ok a, s') → Q (.ok a) s') ∧
        ∀ e s', f s = (.error e, s') → Q (.throw e) s' := by
  simp only [Ends, run, call]
  rcases f s with ⟨e | a, s'⟩ <;> simp

theorem ends_front {l : List α} :
    (front l : Prog ε σ α).Ends s Q ↔
      (∀ a rest, l = a :: rest → Q (.ok a) s) ∧ (l = [] → Q (.stuck .undefined) s) := by
  cases l with
  | nil => simp [front]
  | cons a rest => simp [front]

@[simp] theorem ends_zoom {get : σ → τ} {set : τ → σ → σ} {p : Prog ε τ α} :
    (p.zoom get set).Ends s Q ↔ p.Ends (get s) fun o t => Q o (set t s) := Iff.rfl

end Rules

/-! ### Loops -/

/-- Run `f` on every element of a list, in order. -/
def forEach (f : α → Prog ε σ Unit) : List α → Prog ε σ Unit
  | [] => pure ()
  | x :: xs => do f x; forEach f xs

/-- Run `f` on every element of a list, in order, handing on an accumulator. -/
def foldEach (f : β → α → Prog ε σ β) (b : β) : List α → Prog ε σ β
  | [] => pure b
  | x :: xs => do
    let b' ← f b x
    foldEach f b' xs

@[simp] theorem forEach_nil (f : α → Prog ε σ Unit) : forEach f [] = pure () := rfl

@[simp] theorem forEach_cons (f : α → Prog ε σ Unit) (x : α) (xs : List α) :
    forEach f (x :: xs) = (f x >>= fun _ => forEach f xs) := rfl

@[simp] theorem foldEach_nil (f : β → α → Prog ε σ β) (b : β) : foldEach f b [] = pure b := rfl

@[simp] theorem foldEach_cons (f : β → α → Prog ε σ β) (b : β) (x : α) (xs : List α) :
    foldEach f b (x :: xs) = (f b x >>= fun b' => foldEach f b' xs) := rfl

theorem forEach_append (f : α → Prog ε σ Unit) (xs ys : List α) :
    forEach f (xs ++ ys) = (forEach f xs >>= fun _ => forEach f ys) := by
  induction xs with
  | nil => rfl
  | cons x xs ih => rw [List.cons_append, forEach_cons, forEach_cons, ih, bind_assoc]

/-- **Invariant rule for loops.** The invariant `I` speaks of the elements still to come. -/
theorem ends_forEach {f : α → Prog ε σ Unit} {Q : Outcome ε Unit → σ → Prop}
    (I : List α → σ → Prop)
    (step : ∀ x xs s, I (x :: xs) s → (f x).Ends s (Outcome.follow Q fun _ s' => I xs s'))
    (done : ∀ s, I [] s → Q (.ok ()) s) :
    ∀ (xs : List α) {s : σ}, I xs s → (forEach f xs).Ends s Q
  | [], s, h => done s h
  | x :: xs, s, h => by
    rw [forEach_cons, ends_bind]
    refine (step x xs s h).mono fun o s' ho => ?_
    cases o with
    | ok _ => exact ends_forEach I step done xs ho
    | throw e => exact ho
    | stuck w => exact ho

/-- **Invariant rule for accumulating loops.** -/
theorem ends_foldEach {f : β → α → Prog ε σ β} {Q : Outcome ε β → σ → Prop}
    (I : List α → β → σ → Prop)
    (step : ∀ x xs b s, I (x :: xs) b s →
      (f b x).Ends s (Outcome.follow Q fun b' s' => I xs b' s'))
    (done : ∀ b s, I [] b s → Q (.ok b) s) :
    ∀ (xs : List α) {b : β} {s : σ}, I xs b s → (foldEach f b xs).Ends s Q
  | [], b, s, h => done b s h
  | x :: xs, b, s, h => by
    rw [foldEach_cons, ends_bind]
    refine (step x xs b s h).mono fun o s' ho => ?_
    cases o with
    | ok b' => exact ends_foldEach I step done xs ho
    | throw e => exact ho
    | stuck w => exact ho

end Prog

end UmatiDashboard
