import UmatiDashboard.Effect.Prog

/-!
# Keeping account of failures

A state may keep a **ledger**: a list of what a program has asked its environment, with the
answers. `p.Accounts L raised fatal k` says that the program `p` gives an account of how it ends
by the entries it adds to the ledger `L`: it ends in a fatal exception or in undefined behaviour
exactly when one of its entries is bad, every exception it throws is among those in `raised`,
and it has added at least `k` entries when it runs out of fuel.

So a run whose entries are known, and fewer than its fuel, is known to return or to fail. There
is one rule for each combinator; a handler may change what counts as fatal.
-/

namespace UmatiDashboard

/-- The entries that a state holds, and which of them are bad. -/
structure Ledger (σ κ : Type) where
  entries : σ → List κ
  bad : κ → Prop

namespace Outcome

variable {ε α : Type}

/-- The computation ended in a fatal exception or in undefined behaviour. -/
def Fails (fatal : ε → Prop) : Outcome ε α → Prop
  | .ok _ => False
  | .throw e => fatal e
  | .stuck .outOfFuel => False
  | .stuck _ => True

theorem fails_stuck_iff {fatal : ε → Prop} (w : Stuck) :
    (stuck w : Outcome ε α).Fails fatal ↔ w ≠ .outOfFuel := by
  cases w <;> simp [Fails]

end Outcome

namespace Prog

variable {ε σ τ κ α β : Type}

/-- The entries `cs` account for the outcome. -/
structure Account (bad : κ → Prop) (raised fatal : ε → Prop) (k : ℕ) (cs : List κ)
    (out : Outcome ε α) : Prop where
  fails : (∃ c ∈ cs, bad c) ↔ out.Fails fatal
  raised : ∀ e, out = .throw e → raised e
  fuel : out = .stuck .outOfFuel → k ≤ cs.length

/-- The program gives account of how it ends by the entries it adds. -/
def Accounts (L : Ledger σ κ) (raised fatal : ε → Prop) (k : ℕ) (p : Prog ε σ α) : Prop :=
  ∀ s, p.Ends s fun out s' =>
    ∃ cs, L.entries s' = L.entries s ++ cs ∧ Account L.bad raised fatal k cs out

/-- The program adds one entry, with the answer that it returns or throws. -/
def Asks (L : Ledger σ κ) (raised : ε → Prop) (entry : Except ε α → κ) (p : Prog ε σ α) : Prop :=
  ∀ s, p.Ends s fun out s' => ∃ answer, L.entries s' = L.entries s ++ [entry answer] ∧
    out = .ofExcept answer ∧ ∀ e, answer = .error e → raised e

/-- The program adds nothing to the ledger; it returns, or throws an exception in `raised`. -/
def Silent (L : Ledger σ κ) (raised : ε → Prop) (p : Prog ε σ α) : Prop :=
  ∀ s, p.Ends s fun out s' => L.entries s' = L.entries s ∧
    ∃ answer, out = .ofExcept answer ∧ ∀ e, answer = .error e → raised e

variable {L : Ledger σ κ} {raised raised' fatal fatal' : ε → Prop} {k k' : ℕ} {p : Prog ε σ α}

namespace Account

variable {bad : κ → Prop} {cs ds : List κ} {out : Outcome ε α}

theorem ofOk {a : α} (h : ¬ ∃ c ∈ cs, bad c) :
    Account bad raised fatal k cs (.ok a : Outcome ε α) where
  fails := iff_of_false h id
  raised _ he := by cases he
  fuel ho := by cases ho

theorem ofThrow {e : ε} (he : raised e) (h : (∃ c ∈ cs, bad c) ↔ fatal e) :
    Account bad raised fatal k cs (.throw e : Outcome ε α) where
  fails := h
  raised _ he' := by cases he'; exact he
  fuel ho := by cases ho

theorem ofStuck {w : Stuck} (hw : w ≠ .outOfFuel) (h : ∃ c ∈ cs, bad c) :
    Account bad raised fatal k cs (.stuck w : Outcome ε α) where
  fails := iff_of_true h ((Outcome.fails_stuck_iff w).mpr hw)
  raised _ he := by cases he
  fuel ho := absurd (Outcome.stuck.inj ho) hw

theorem ofOutOfFuel (h : ¬ ∃ c ∈ cs, bad c) (hk : k ≤ cs.length) :
    Account bad raised fatal k cs (.stuck .outOfFuel : Outcome ε α) where
  fails := iff_of_false h id
  raised _ he := by cases he
  fuel _ := hk

theorem mono (h : Account bad raised fatal k cs out) (hk : k' ≤ k)
    (hraised : ∀ e, raised e → raised' e) (hfatal : ∀ e, raised e → (fatal e ↔ fatal' e)) :
    Account bad raised' fatal' k' cs out where
  fails := by
    rw [h.fails]
    match out with
    | .ok a => exact Iff.rfl
    | .throw e => exact hfatal e (h.raised e rfl)
    | .stuck w => exact (Outcome.fails_stuck_iff w).trans (Outcome.fails_stuck_iff w).symm
  raised e he := hraised e (h.raised e he)
  fuel ho := Nat.le_trans hk (h.fuel ho)

/-- Entries without a bad one may come first. -/
theorem append (h : Account bad raised fatal k ds out) (hcs : ¬ ∃ c ∈ cs, bad c) :
    Account bad raised fatal (cs.length + k) (cs ++ ds) out where
  fails := by
    rw [← h.fails]
    constructor
    · rintro ⟨c, hc, hbad⟩
      rcases List.mem_append.mp hc with hc | hc
      · exact absurd ⟨c, hc, hbad⟩ hcs
      · exact ⟨c, hc, hbad⟩
    · rintro ⟨c, hc, hbad⟩
      exact ⟨c, List.mem_append_right cs hc, hbad⟩
  raised := h.raised
  fuel ho := by
    have := h.fuel ho
    rw [List.length_append]
    omega

/-- A computation that got stuck is stuck whatever it should have returned. -/
theorem stuck {w : Stuck} (h : Account bad raised fatal k cs (.stuck w : Outcome ε α)) :
    Account bad raised' fatal' k cs (.stuck w : Outcome ε β) := by
  by_cases hw : w = .outOfFuel
  · subst hw
    exact ofOutOfFuel (h.fails.not.mpr id) (h.fuel rfl)
  · exact ofStuck hw (h.fails.mpr ((Outcome.fails_stuck_iff w).mpr hw))

end Account

/-! ### The rules -/

theorem Accounts.mono (h : p.Accounts L raised fatal k) (hk : k' ≤ k)
    (hraised : ∀ e, raised e → raised' e) (hfatal : ∀ e, raised e → (fatal e ↔ fatal' e)) :
    p.Accounts L raised' fatal' k' := fun s =>
  Ends.mono (h s) fun _ _ ⟨cs, hcs, hacc⟩ => ⟨cs, hcs, hacc.mono hk hraised hfatal⟩

theorem Accounts.le (h : p.Accounts L raised fatal k) (hk : k' ≤ k) :
    p.Accounts L raised fatal k' :=
  h.mono hk (fun _ => id) fun _ _ => Iff.rfl

theorem Silent.accounts (h : p.Silent L raised) (hfatal : ∀ e, raised e → ¬ fatal e) :
    p.Accounts L raised fatal k := fun s => by
  refine Ends.mono (h s) fun out s' ho => ?_
  obtain ⟨hentries, answer, rfl, hraised⟩ := ho
  refine ⟨[], by simpa using hentries, ?_⟩
  cases answer with
  | ok a => exact .ofOk (by simp)
  | error e =>
    have he := hraised e rfl
    exact .ofThrow he (iff_of_false (by simp) (hfatal e he))

/-- A program that adds nothing and always returns. -/
theorem Silent.quiet (h : p.Silent L fun _ => False) : p.Accounts L raised fatal k := fun s => by
  refine Ends.mono (h s) fun out s' ho => ?_
  obtain ⟨hentries, answer, rfl, hraised⟩ := ho
  refine ⟨[], by simpa using hentries, ?_⟩
  cases answer with
  | ok a => exact .ofOk (by simp)
  | error e => exact (hraised e rfl).elim

theorem silent_get : (get : Prog ε σ σ).Silent L raised := fun s =>
  ⟨rfl, .ok s, rfl, fun _ h => by cases h⟩

theorem silent_modify {f : σ → σ} (hf : ∀ s, L.entries (f s) = L.entries s) :
    (modify f : Prog ε σ Unit).Silent L raised := fun s =>
  ⟨hf s, .ok (), rfl, fun _ h => by cases h⟩

theorem accounts_pure {a : α} : (pure a : Prog ε σ α).Accounts L raised fatal k := fun _ =>
  ⟨[], (List.append_nil _).symm, .ofOk (by simp)⟩

theorem accounts_throw {e : ε} (he : raised e) (hfatal : ¬ fatal e) :
    (throw e : Prog ε σ α).Accounts L raised fatal k := fun _ =>
  ⟨[], (List.append_nil _).symm, .ofThrow he (iff_of_false (by simp) hfatal)⟩

/-- Without fuel nothing is owed. -/
theorem accounts_outOfFuel : (stuck .outOfFuel : Prog ε σ α).Accounts L raised fatal 0 := fun _ =>
  ⟨[], (List.append_nil _).symm, .ofOutOfFuel (by simp) (Nat.le_refl _)⟩

theorem Accounts.bind {f : α → Prog ε σ β} (hp : p.Accounts L raised fatal k)
    (hf : ∀ a, (f a).Accounts L raised fatal k) : (p >>= f).Accounts L raised fatal k := by
  intro s
  rw [ends_bind]
  refine Ends.mono (hp s) fun out s₁ h₁ => ?_
  obtain ⟨cs, hcs, hacc⟩ := h₁
  cases out with
  | throw e => exact ⟨cs, hcs, .ofThrow (hacc.raised e rfl) hacc.fails⟩
  | stuck w => exact ⟨cs, hcs, hacc.stuck⟩
  | ok a =>
    rw [Outcome.follow_ok]
    refine Ends.mono (hf a s₁) fun out s₂ h₂ => ?_
    obtain ⟨ds, hds, hacc₂⟩ := h₂
    have hgood : ¬ ∃ c ∈ cs, L.bad c := hacc.fails.not.mpr id
    refine ⟨cs ++ ds, by rw [hds, hcs, List.append_assoc], ?_⟩
    exact (hacc₂.append hgood).mono (by omega) (fun _ => id) fun _ _ => Iff.rfl

theorem Accounts.map {f : α → β} (hp : p.Accounts L raised fatal k) :
    (f <$> p).Accounts L raised fatal k :=
  hp.bind fun _ => accounts_pure

/-- **Asking.** An answer that is a bad entry is a fatal exception, or a value that the rest of
the program has no defined behaviour for. The rest of the program owes one entry less. -/
theorem Asks.bind {entry : Except ε α → κ} {f : α → Prog ε σ β} (hp : p.Asks L raised entry)
    (herror : ∀ e, raised e → (L.bad (entry (.error e)) ↔ fatal e))
    (hbad : ∀ a, L.bad (entry (.ok a)) → f a = .stuck .undefined)
    (hf : ∀ a, ¬ L.bad (entry (.ok a)) → (f a).Accounts L raised fatal k) :
    (p >>= f).Accounts L raised fatal (k + 1) := by
  intro s
  rw [ends_bind]
  refine Ends.mono (hp s) fun out s₁ h₁ => ?_
  obtain ⟨answer, hentries, rfl, hraised⟩ := h₁
  cases answer with
  | error e =>
    have he := hraised e rfl
    exact ⟨_, hentries, .ofThrow he (by simpa using herror e he)⟩
  | ok a =>
    rw [Outcome.ofExcept, Outcome.follow_ok]
    by_cases ha : L.bad (entry (.ok a))
    · rw [hbad a ha]
      exact ⟨_, hentries, .ofStuck (by decide) (by simpa using ha)⟩
    · refine Ends.mono (hf a ha s₁) fun out s₂ h₂ => ?_
      obtain ⟨ds, hds, hacc⟩ := h₂
      have hgood : ¬ ∃ c ∈ [entry (.ok a)], L.bad c := by simpa using ha
      refine ⟨entry (.ok a) :: ds, by rw [hds, hentries, List.append_assoc]; rfl, ?_⟩
      exact (hacc.append hgood).mono (by rw [List.length_singleton]; omega) (fun _ => id)
        fun _ _ => Iff.rfl

/-- A handler throws a fatal exception on, and deals with every other one. -/
theorem Accounts.catching {h : ε → Prog ε σ α} (hp : p.Accounts L raised' fatal' k)
    (hfatal : ∀ e, raised' e → fatal' e → ∃ e', h e = .throw e' ∧ raised e' ∧ fatal e')
    (hcaught : ∀ e, raised' e → ¬ fatal' e → (h e).Accounts L raised fatal k) :
    (p.catching h).Accounts L raised fatal k := by
  intro s
  rw [ends_catching]
  refine Ends.mono (hp s) fun out s₁ h₁ => ?_
  obtain ⟨cs, hcs, hacc⟩ := h₁
  cases out with
  | ok a => exact ⟨cs, hcs, .ofOk (hacc.fails.not.mpr id)⟩
  | stuck w => exact ⟨cs, hcs, hacc.stuck⟩
  | throw e =>
    have he := hacc.raised e rfl
    rw [Outcome.rescue_throw]
    by_cases hf : fatal' e
    · obtain ⟨e', hthrow, hraised, hf'⟩ := hfatal e he hf
      rw [hthrow]
      exact ⟨cs, hcs, .ofThrow hraised (iff_of_true (hacc.fails.mpr hf) hf')⟩
    · refine Ends.mono (hcaught e he hf s₁) fun out s₂ h₂ => ?_
      obtain ⟨ds, hds, hacc₂⟩ := h₂
      refine ⟨cs ++ ds, by rw [hds, hcs, List.append_assoc], ?_⟩
      exact (hacc₂.append (hacc.fails.not.mpr hf)).mono (by omega) (fun _ => id)
        fun _ _ => Iff.rfl

/-- A handler where no exception is fatal. -/
theorem Accounts.catchingAll {h : ε → Prog ε σ α} (hp : p.Accounts L raised' (fun _ => False) k)
    (hh : ∀ e, raised' e → (h e).Accounts L raised fatal k) :
    (p.catching h).Accounts L raised fatal k :=
  hp.catching (fun _ _ hf => hf.elim) fun e he _ => hh e he

/-- A handler that deals with everything. -/
theorem Accounts.catchingAny {h : ε → Prog ε σ α}
    (hp : p.Accounts L (fun _ => True) (fun _ => False) k)
    (hh : ∀ e, (h e).Accounts L raised fatal k) : (p.catching h).Accounts L raised fatal k :=
  hp.catchingAll fun e _ => hh e

/-- A guarded handler, which throws on what it does not deal with. -/
theorem Accounts.catchingIf {c : ε → Bool} {q : Prog ε σ α}
    (hp : p.Accounts L raised' fatal' k)
    (hrest : ∀ e, raised' e → c e = false → raised e ∧ (fatal' e ↔ fatal e))
    (hfatal : ∀ e, raised' e → fatal' e → c e = false)
    (hq : q.Accounts L raised fatal k) :
    (p.catching fun e => if c e then q else .throw e).Accounts L raised fatal k := by
  refine hp.catching (fun e he hf => ?_) fun e he hf => ?_
  · have hc := hfatal e he hf
    have hr := hrest e he hc
    exact ⟨e, by simp [hc], hr.1, hr.2.mp hf⟩
  · cases hc : c e with
    | true => exact hq
    | false =>
      have hr := hrest e he hc
      exact accounts_throw hr.1 (hr.2.not.mp hf)

theorem Accounts.zoom {get : σ → τ} {set : τ → σ → σ} {L' : Ledger τ κ} {p : Prog ε τ α}
    (hp : p.Accounts L' raised fatal k) (hbad : L'.bad = L.bad)
    (hget : ∀ s, L'.entries (get s) = L.entries s)
    (hset : ∀ t s, L.entries (set t s) = L'.entries t) :
    (p.zoom get set).Accounts L raised fatal k := fun s => by
  rw [ends_zoom]
  refine Ends.mono (hp (get s)) fun out t h => ?_
  obtain ⟨cs, hcs, hacc⟩ := h
  exact ⟨cs, by rw [hset, hcs, hget], hbad ▸ hacc⟩

theorem Accounts.forEach {f : α → Prog ε σ Unit} (h : ∀ x, (f x).Accounts L raised fatal k) :
    ∀ xs, (Prog.forEach f xs).Accounts L raised fatal k
  | [] => accounts_pure
  | x :: xs => (h x).bind fun _ => forEach h xs

theorem Accounts.foldEach {f : β → α → Prog ε σ β}
    (h : ∀ b x, (f b x).Accounts L raised fatal k) :
    ∀ xs b, (Prog.foldEach f b xs).Accounts L raised fatal k
  | [], _ => accounts_pure
  | x :: xs, b => (h b x).bind fun b' => foldEach h xs b'

end Prog

end UmatiDashboard
