import UmatiDashboard.Effect.Prog

/-!
# Kept invariants

`p.Leaves s J Q` says that the program `p`, run from `s`, ends in a state with `J` however it
ends, and in a state with `Q` if it returns: `J` is what an exception may rely on.

`p.Keeps J V` says that the program `p` keeps the invariant `J` of the state, however it ends,
and that every value it returns satisfies `V`. It is the notion for programs of which little
more is needed than a frame: one rule for each combinator, by which the proof for a program
follows the program's text.

`p.Raises R` says that every exception `p` throws is in `R`, from whatever state it is run. A
handler answers for all exceptions of the program it guards, so nothing needs to be known of
these.
-/

namespace UmatiDashboard

namespace Prog

variable {ε σ τ α β : Type}

section Leaves

variable {J : σ → Prop} {Q Q' : α → σ → Prop} {R : β → σ → Prop} {s : σ}

/-- The program ends in a state with `J`; if it returns, the value and the state satisfy `Q`. -/
def Leaves (p : Prog ε σ α) (s : σ) (J : σ → Prop) (Q : α → σ → Prop) : Prop :=
  p.Ends s fun o s' => J s' ∧ ∀ a, o = .ok a → Q a s'

theorem Leaves.mono {p : Prog ε σ α} (h : p.Leaves s J Q) (hQ : ∀ a s', J s' → Q a s' → Q' a s') :
    p.Leaves s J Q' :=
  Ends.mono h fun _ s' ho => ⟨ho.1, fun a ha => hQ a s' ho.1 (ho.2 a ha)⟩

/-- An exception may rely on less. -/
theorem Leaves.weaken {p : Prog ε σ α} {J' : σ → Prop} (h : p.Leaves s J Q)
    (hJ : ∀ s', J s' → J' s') : p.Leaves s J' Q :=
  Ends.mono h fun _ s' ho => ⟨hJ s' ho.1, ho.2⟩

/-- What follows may rely on all of it, an exception on nothing. -/
theorem Leaves.returned {p : Prog ε σ α} (h : p.Leaves s J Q) :
    p.Leaves s (fun _ => True) fun a s' => J s' ∧ Q a s' :=
  (h.mono fun _ _ => And.intro).weaken fun _ _ => trivial

theorem leaves_pure {a : α} (hJ : J s) (hQ : Q a s) : (pure a : Prog ε σ α).Leaves s J Q :=
  ⟨hJ, fun _ h => by cases h; exact hQ⟩

theorem leaves_throw {e : ε} (hJ : J s) : (throw e : Prog ε σ α).Leaves s J Q :=
  ⟨hJ, fun _ h => by cases h⟩

theorem leaves_modify {f : σ → σ} {Q : Unit → σ → Prop} (hJ : J (f s)) (hQ : Q () (f s)) :
    (modify f : Prog ε σ Unit).Leaves s J Q :=
  ⟨hJ, fun _ h => by cases h; exact hQ⟩

theorem Leaves.bind {p : Prog ε σ α} {f : α → Prog ε σ β} (hp : p.Leaves s J Q)
    (hf : ∀ a s', J s' → Q a s' → (f a).Leaves s' J R) : (p >>= f).Leaves s J R := by
  rw [Leaves, ends_bind]
  refine Ends.mono hp fun o s' ho => ?_
  cases o with
  | ok a => exact hf a s' ho.1 (ho.2 a rfl)
  | throw e => exact ⟨ho.1, fun _ h => by cases h⟩
  | stuck w => exact ⟨ho.1, fun _ h => by cases h⟩

theorem Leaves.catching {p : Prog ε σ α} {h : ε → Prog ε σ α} (hp : p.Leaves s J Q)
    (hh : ∀ e s', J s' → (h e).Leaves s' J Q) : (p.catching h).Leaves s J Q := by
  rw [Leaves, ends_catching]
  refine Ends.mono hp fun o s' ho => ?_
  cases o with
  | ok a => exact ho
  | throw e => exact hh e s' ho.1
  | stuck w => exact ⟨ho.1, fun _ h => by cases h⟩

/-- **Invariant rule for loops**, with the elements still to come. -/
theorem leaves_forEach {f : α → Prog ε σ Unit} (I : List α → σ → Prop)
    (step : ∀ x xs s, J s → I (x :: xs) s → (f x).Leaves s J fun _ s' => I xs s') :
    ∀ (xs : List α) {s : σ}, J s → I xs s → (forEach f xs).Leaves s J fun _ s' => I [] s'
  | [], _, hJ, h => leaves_pure hJ h
  | x :: xs, s, hJ, h =>
    (step x xs s hJ h).bind fun _ _ hJ' h' => leaves_forEach I step xs hJ' h'

/-- **Invariant rule for accumulating loops.** -/
theorem leaves_foldEach {f : β → α → Prog ε σ β} (I : List α → β → σ → Prop)
    (step : ∀ x xs b s, J s → I (x :: xs) b s → (f b x).Leaves s J fun b' s' => I xs b' s') :
    ∀ (xs : List α) {b : β} {s : σ}, J s → I xs b s →
      (foldEach f b xs).Leaves s J fun b' s' => I [] b' s'
  | [], _, _, hJ, h => leaves_pure hJ h
  | x :: xs, b, s, hJ, h =>
    (step x xs b s hJ h).bind fun _ _ hJ' h' => leaves_foldEach I step xs hJ' h'

end Leaves

variable {J : σ → Prop} {V V' : α → Prop} {W : β → Prop}

/-- Started in a state with `J`, the program ends in a state with `J`; a returned value
satisfies `V`. -/
def Keeps (J : σ → Prop) (p : Prog ε σ α) (V : α → Prop) : Prop :=
  ∀ s, J s → p.Leaves s J fun a _ => V a

theorem Keeps.mono {p : Prog ε σ α} (h : p.Keeps J V) (hV : ∀ a, V a → V' a) :
    p.Keeps J V' := fun s hs =>
  (h s hs).mono fun a _ _ ha => hV a ha

/-- What is returned satisfies `True`. -/
theorem Keeps.trivial {p : Prog ε σ α} (h : p.Keeps J V) : p.Keeps J fun _ => True :=
  h.mono fun _ _ => True.intro

theorem keeps_pure {a : α} (ha : V a) : (pure a : Prog ε σ α).Keeps J V := fun _ hs =>
  ⟨hs, fun _ h => by cases h; exact ha⟩

theorem keeps_throw {e : ε} : (throw e : Prog ε σ α).Keeps J V := fun _ hs =>
  ⟨hs, fun _ h => by cases h⟩

theorem keeps_stuck {w : Stuck} : (stuck w : Prog ε σ α).Keeps J V := fun _ hs =>
  ⟨hs, fun _ h => by cases h⟩

theorem keeps_get : (get : Prog ε σ σ).Keeps J J := fun _ hs =>
  ⟨hs, fun _ h => by cases h; exact hs⟩

theorem keeps_modify {f : σ → σ} (h : ∀ s, J s → J (f s)) :
    (modify f : Prog ε σ Unit).Keeps J fun _ => True := fun s hs =>
  ⟨h s hs, fun _ _ => True.intro⟩

theorem keeps_front {l : List α} : (front l : Prog ε σ α).Keeps J (· ∈ l) := by
  cases l with
  | nil => exact keeps_stuck
  | cons a rest => exact keeps_pure List.mem_cons_self

theorem Keeps.bind {p : Prog ε σ α} {f : α → Prog ε σ β} (hp : p.Keeps J V)
    (hf : ∀ a, V a → (f a).Keeps J W) : (p >>= f).Keeps J W := fun s hs =>
  (hp s hs).bind fun a s' hs' ha => hf a ha s' hs'

theorem Keeps.map {p : Prog ε σ α} {f : α → β} (hp : p.Keeps J V) (hf : ∀ a, V a → W (f a)) :
    (f <$> p).Keeps J W :=
  hp.bind fun a ha => keeps_pure (hf a ha)

theorem Keeps.catching {p : Prog ε σ α} {h : ε → Prog ε σ α} (hp : p.Keeps J V)
    (hh : ∀ e, (h e).Keeps J V) : (p.catching h).Keeps J V := fun s hs => by
  rw [Leaves, ends_catching]
  refine Ends.mono (hp s hs) fun o s' ho => ?_
  cases o with
  | ok a => exact ho
  | throw e => exact hh e s' ho.1
  | stuck w => exact ⟨ho.1, fun _ h => by cases h⟩

theorem Keeps.forEach {f : α → Prog ε σ Unit} {xs : List α}
    (h : ∀ x ∈ xs, (f x).Keeps J fun _ => True) : (forEach f xs).Keeps J fun _ => True := by
  induction xs with
  | nil => exact keeps_pure True.intro
  | cons x xs ih =>
    exact (h x List.mem_cons_self).bind fun _ _ =>
      ih fun y hy => h y (List.mem_cons_of_mem x hy)

theorem Keeps.foldEach {f : β → α → Prog ε σ β} {xs : List α}
    (h : ∀ b, ∀ x ∈ xs, W b → (f b x).Keeps J W) {b : β} (hb : W b) :
    (foldEach f b xs).Keeps J W := by
  induction xs generalizing b with
  | nil => exact keeps_pure hb
  | cons x xs ih =>
    exact (h b x List.mem_cons_self hb).bind fun b' hb' =>
      ih (fun b y hy => h b y (List.mem_cons_of_mem x hy)) hb'

/-! ### Exceptions -/

section Raises

variable {R R' : ε → Prop}

/-- Every exception that the program throws is in `R`. -/
def Raises (R : ε → Prop) (p : Prog ε σ α) : Prop :=
  ∀ s, p.Ends s fun out _ => ∀ e, out = .throw e → R e

theorem raises_pure {a : α} : (pure a : Prog ε σ α).Raises R := fun _ _ h => by cases h

theorem raises_throw {e : ε} (he : R e) : (throw e : Prog ε σ α).Raises R := fun _ _ h => by
  cases h
  exact he

theorem raises_stuck {w : Stuck} : (stuck w : Prog ε σ α).Raises R := fun _ _ h => by cases h

theorem raises_modify {f : σ → σ} : (modify f : Prog ε σ Unit).Raises R := fun _ _ h => by cases h

theorem Raises.bind {p : Prog ε σ α} {f : α → Prog ε σ β} (hp : p.Raises R)
    (hf : ∀ a, (f a).Raises R) : (p >>= f).Raises R := by
  intro s
  rw [ends_bind]
  refine Ends.mono (hp s) fun out s' ho => ?_
  cases out with
  | ok a => exact hf a s'
  | throw e => exact fun e' he' => ho e' (by cases he'; rfl)
  | stuck w => exact fun _ h => by cases h

theorem Raises.map {p : Prog ε σ α} {f : α → β} (hp : p.Raises R) : (f <$> p).Raises R :=
  hp.bind fun _ => raises_pure

/-- What a guarded program throws is what its handler throws. -/
theorem Raises.catching {p : Prog ε σ α} {h : ε → Prog ε σ α} (hp : p.Raises R')
    (hh : ∀ e, R' e → (h e).Raises R) : (p.catching h).Raises R := by
  intro s
  rw [ends_catching]
  refine Ends.mono (hp s) fun out s' ho => ?_
  cases out with
  | ok a => exact fun _ h => by cases h
  | throw e => exact hh e (ho e rfl) s'
  | stuck w => exact fun _ h => by cases h

/-- Of a program whose handler takes everything, nothing needs to be known. -/
theorem raises_any {p : Prog ε σ α} : p.Raises fun _ => True := fun _ _ _ => True.intro

theorem Raises.foldEach {f : β → α → Prog ε σ β} (h : ∀ b x, (f b x).Raises R) :
    ∀ xs b, (Prog.foldEach f b xs).Raises R
  | [], _ => raises_pure
  | x :: xs, b => (h b x).bind fun b' => foldEach h xs b'

end Raises

end Prog

end UmatiDashboard
