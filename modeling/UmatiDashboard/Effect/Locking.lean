import Mathlib.Data.Set.Insert
import Mathlib.Logic.Function.Basic

/-!
# Threads that lock mutexes

A `LockProgram` is a program, as far as its mutexes and threads are concerned: which scopes hold
which mutex, and which scopes have another thread running beside them. Everything else is left
open. A loop may run any number of times, and what is left of a scope may be skipped at any point,
as by a condition, an early return or an exception; leaving a scope always unlocks its mutex.

If every scope takes a mutex that ranks above those its thread holds already, or a recursive one
that the thread holds itself, then no interleaving of the threads ends in a deadlock
(`not_deadlocked`): of the threads that wait for a mutex, the one whose mutex ranks highest would
wait for a thread that waits for one above.
-/

namespace UmatiDashboard

/-- A program over the mutexes `μ` and the threads `τ`. -/
inductive LockProgram (μ τ : Type) where
  | skip
  | seq (p q : LockProgram μ τ)
  | loop (p : LockProgram μ τ)
  | choose (p : ℕ → LockProgram μ τ)
  /-- the scope `p` with the mutex locked -/
  | hold (m : μ) (p : LockProgram μ τ)
  /-- the scope `p` with the thread running, which is joined at its end -/
  | beside (t : τ) (p : LockProgram μ τ)

/-- Programs one after the other. -/
def LockProgram.block {μ τ : Type} (ps : List (LockProgram μ τ)) : LockProgram μ τ :=
  ps.foldr .seq .skip

/-- What a thread has still to do. -/
inductive LockFrame (μ τ : Type) where
  | run (p : LockProgram μ τ)
  | unlock (m : μ)
  | join (t : τ)

namespace LockFrame

variable {μ τ : Type}

/-- The mutex that is locked until this frame is reached. -/
def mutex? : LockFrame μ τ → Option μ
  | unlock m => some m
  | _ => none

/-- The mutexes a thread holds, by what it has still to do. -/
def held (k : List (LockFrame μ τ)) : List μ := k.filterMap mutex?

@[simp] theorem held_nil : held ([] : List (LockFrame μ τ)) = [] := rfl

@[simp] theorem held_run (p : LockProgram μ τ) (k : List (LockFrame μ τ)) :
    held (run p :: k) = held k := rfl

@[simp] theorem held_unlock (m : μ) (k : List (LockFrame μ τ)) :
    held (unlock m :: k) = m :: held k := rfl

@[simp] theorem held_join (t : τ) (k : List (LockFrame μ τ)) :
    held (join t :: k) = held k := rfl

/-- The steps of a thread that depend on no other thread. -/
inductive Local : List (LockFrame μ τ) → List (LockFrame μ τ) → Prop where
  | seq (p q k) : Local (run (.seq p q) :: k) (run p :: run q :: k)
  | again (p k) : Local (run (.loop p) :: k) (run p :: run (.loop p) :: k)
  | pick (p i k) : Local (run (.choose p) :: k) (run (p i) :: k)
  | leave (p k) : Local (run p :: k) k
  | unlock (m k) : Local (unlock m :: k) k

variable {k k' : List (LockFrame μ τ)}

/-- Such a step locks nothing. -/
theorem Local.held_subset (h : Local k k') : held k' ⊆ held k := by
  cases h with
  | unlock m => exact List.subset_cons_self m _
  | _ => exact List.Subset.refl _

/-- Such a step starts and joins no thread. -/
theorem Local.join_mem_iff (h : Local k k') (t : τ) : join t ∈ k' ↔ join t ∈ k := by
  cases h <;> simp

end LockFrame

/-! ### Pools of threads -/

/-- What each thread has still to do; the thread `none` is the main one. -/
abbrev LockPool (μ τ : Type) := Option τ → List (LockFrame μ τ)

namespace LockPool

open LockFrame

variable {μ τ : Type}

section Semantics

variable (recursive : μ → Prop) (s : LockPool μ τ)

/-- A thread can lock the mutex: no other thread holds it, nor does the thread itself, unless the
mutex is recursive. -/
def Free (t : Option τ) (m : μ) : Prop :=
  (∀ u, u ≠ t → m ∉ held (s u)) ∧ (m ∈ held (s t) → recursive m)

/-- The thread cannot go on before another one has. -/
inductive Waiting (t : Option τ) : Prop where
  | lock {m p k} (h : s t = run (.hold m p) :: k) (hfree : ¬ s.Free recursive t m)
  | join {u k} (h : s t = join u :: k) (hu : s (some u) ≠ [])
  | spawn {u p k} (h : s t = run (.beside u p) :: k) (hu : s (some u) ≠ [])

/-- Some thread is not done, and every such thread waits. -/
def Deadlocked : Prop := (∃ t, s t ≠ []) ∧ ∀ t, s t ≠ [] → s.Waiting recursive t

variable [DecidableEq τ] (program : τ → LockProgram μ τ)

/-- One thread makes a step. -/
inductive Step : LockPool μ τ → LockPool μ τ → Prop where
  | move {s : LockPool μ τ} {t k} (h : Local (s t) k) : Step s (Function.update s t k)
  | lock {s : LockPool μ τ} {t m p k} (h : s t = run (.hold m p) :: k)
      (hfree : s.Free recursive t m) : Step s (Function.update s t (run p :: unlock m :: k))
  | spawn {s : LockPool μ τ} {t u p k} (h : s t = run (.beside u p) :: k)
      (hu : s (some u) = []) :
      Step s (Function.update (Function.update s t (run p :: join u :: k)) (some u)
        [run (program u)])
  | join {s : LockPool μ τ} {t u k} (h : s t = join u :: k) (hu : s (some u) = []) :
      Step s (Function.update s t k)

/-- The main thread at the beginning of its program. -/
def start (main : LockProgram μ τ) : LockPool μ τ
  | none => [run main]
  | some _ => []

/-- What comes about when the threads make steps in any order. -/
inductive Reachable (main : LockProgram μ τ) : LockPool μ τ → Prop where
  | start : Reachable main (start main)
  | step {s s' : LockPool μ τ} (hs : Reachable main s) (h : Step recursive program s s') :
      Reachable main s'

end Semantics

end LockPool

/-! ### The order of the mutexes -/

section Order

variable {μ τ : Type} (rank : μ → ℕ) (recursive : μ → Prop)

/-- Run by a thread that holds the mutexes `H`, the program locks in the order of the ranks. It
starts threads only where no mutex is held, and none of `J`, which may be running. -/
def LockProgram.Ordered : List μ → Set τ → LockProgram μ τ → Prop
  | _, _, .skip => True
  | H, J, .seq p q => p.Ordered H J ∧ q.Ordered H J
  | H, J, .loop p => p.Ordered H J
  | H, J, .choose p => ∀ i, (p i).Ordered H J
  | H, J, .hold m p => ((m ∈ H ∧ recursive m) ∨ ∀ h ∈ H, rank h < rank m) ∧ p.Ordered (m :: H) J
  | H, J, .beside t p => H = [] ∧ t ∉ J ∧ p.Ordered [] (insert t J)

namespace LockFrame

/-- The threads that may be running beside a thread. -/
def joins (J : Set τ) (k : List (LockFrame μ τ)) : Set τ := J ∪ {t | join t ∈ k}

/-- What a thread has still to do keeps to the order. -/
def Ordered (J : Set τ) : List (LockFrame μ τ) → Prop
  | [] => True
  | run p :: k => p.Ordered rank recursive (held k) (joins J k) ∧ Ordered J k
  | unlock _ :: k => Ordered J k
  | join t :: k => (held k = [] ∧ t ∉ joins J k) ∧ Ordered J k

variable {J : Set τ} {k k' : List (LockFrame μ τ)}

@[simp] theorem joins_run (p : LockProgram μ τ) : joins J (run p :: k) = joins J k := by
  simp [joins]

@[simp] theorem joins_unlock (m : μ) : joins J (unlock m :: k) = joins J k := by
  simp [joins]

@[simp] theorem joins_join (t : τ) : joins J (join t :: k) = insert t (joins J k) := by
  ext u
  simp only [joins, Set.mem_union, Set.mem_ofPred_eq, List.mem_cons, join.injEq, Set.mem_insert_iff]
  exact or_left_comm

variable {rank recursive}

theorem Ordered.tail {f : LockFrame μ τ} (h : Ordered rank recursive J (f :: k)) :
    Ordered rank recursive J k := by
  cases f with
  | run p => exact h.2
  | unlock m => exact h
  | join t => exact h.2

theorem Ordered.move (h : Ordered rank recursive J k) (hk : Local k k') :
    Ordered rank recursive J k' := by
  cases hk with
  | seq p q k =>
    obtain ⟨⟨hp, hq⟩, hk⟩ := h
    exact ⟨by simpa using hp, hq, hk⟩
  | again p k =>
    obtain ⟨hp, hk⟩ := h
    exact ⟨by simpa [LockProgram.Ordered] using hp, hp, hk⟩
  | pick p i k => exact ⟨h.1 i, h.2⟩
  | leave p k => exact h.2
  | unlock m k => exact h

end LockFrame

end Order

/-! ### What holds in every interleaving -/

namespace LockPool

open LockFrame

variable {μ τ : Type} {rank : μ → ℕ} {recursive : μ → Prop} {s s' : LockPool μ τ}

/-- The invariant: every thread keeps to the order, no mutex is held twice, and a thread that the
main thread has started is joined before the main thread is done. -/
structure Sorted (rank : μ → ℕ) (recursive : μ → Prop) (s : LockPool μ τ) : Prop where
  main : LockFrame.Ordered rank recursive ∅ (s none)
  worker : ∀ t, LockFrame.Ordered rank recursive Set.univ (s (some t))
  exclusive : ∀ t u m, m ∈ held (s t) → m ∈ held (s u) → t = u
  joined : ∀ t, s (some t) ≠ [] → join t ∈ s none

namespace Sorted

theorem ordered (h : Sorted rank recursive s) (t : Option τ) :
    ∃ J, LockFrame.Ordered rank recursive J (s t) := by
  cases t with
  | none => exact ⟨_, h.main⟩
  | some t => exact ⟨_, h.worker t⟩

/-- A mutex that a thread is about to lock, and that it holds, is recursive; any other one ranks
above those it holds. -/
theorem hold (h : Sorted rank recursive s) {t : Option τ} {m : μ} {p : LockProgram μ τ}
    {k : List (LockFrame μ τ)} (ht : s t = run (.hold m p) :: k) :
    (m ∈ held (s t) ∧ recursive m) ∨ ∀ h ∈ held (s t), rank h < rank m := by
  obtain ⟨J, hJ⟩ := h.ordered t
  rw [ht] at hJ ⊢
  exact hJ.1.1

/-- A thread that joins another one, or starts one, holds no mutex. -/
theorem join (h : Sorted rank recursive s) {t : Option τ} {u : τ} {k : List (LockFrame μ τ)}
    (ht : s t = LockFrame.join u :: k) : held (s t) = [] := by
  obtain ⟨J, hJ⟩ := h.ordered t
  rw [ht] at hJ ⊢
  exact hJ.1.1

theorem spawn (h : Sorted rank recursive s) {t : Option τ} {u : τ} {p : LockProgram μ τ}
    {k : List (LockFrame μ τ)} (ht : s t = run (.beside u p) :: k) : held (s t) = [] := by
  obtain ⟨J, hJ⟩ := h.ordered t
  rw [ht] at hJ ⊢
  exact hJ.1.1

/-- Only the main thread starts threads, -/
theorem spawn_main (h : Sorted rank recursive s) {t : Option τ} {u : τ} {p : LockProgram μ τ}
    {k : List (LockFrame μ τ)} (ht : s t = run (.beside u p) :: k) :
    t = none ∧ s (some u) = [] := by
  cases t with
  | none =>
    refine ⟨rfl, ?_⟩
    by_contra hu
    have hmem := h.joined u hu
    have hord := h.main
    rw [ht] at hmem hord
    -- it starts no thread that it has not joined
    exact hord.1.2.1 (.inr (by simpa using hmem))
  | some t =>
    have hord := h.worker t
    rw [ht] at hord
    exact absurd (.inl trivial) hord.1.2.1

/-- and joins them. -/
theorem join_main (h : Sorted rank recursive s) {t : Option τ} {u : τ} {k : List (LockFrame μ τ)}
    (ht : s t = LockFrame.join u :: k) : t = none := by
  cases t with
  | none => rfl
  | some t =>
    have hord := h.worker t
    rw [ht] at hord
    exact absurd (.inl trivial) hord.1.2

/-- The invariant holds at the beginning. -/
theorem start {main : LockProgram μ τ} (hmain : main.Ordered rank recursive [] ∅) :
    Sorted rank recursive (start main : LockPool μ τ) where
  main := ⟨by simpa [joins] using hmain, trivial⟩
  worker _ := trivial
  exclusive t u m ht := by cases t <;> simp [LockPool.start] at ht
  joined t ht := absurd rfl ht

section Steps

variable [DecidableEq τ]

/-- The frames of one thread are exchanged for others that lock no mutex and keep the joins. -/
theorem update (h : Sorted rank recursive s) {t : Option τ}
    {k : List (LockFrame μ τ)}
    (hord : ∀ J, LockFrame.Ordered rank recursive J (s t) → LockFrame.Ordered rank recursive J k)
    (hheld : ∀ m ∈ held k, m ∈ held (s t) ∨ ∀ u, u ≠ t → m ∉ held (s u))
    (hjoin : ∀ u, s (some u) ≠ [] → LockFrame.join u ∈ s t → LockFrame.join u ∈ k)
    (hdone : s t = [] → k = []) : Sorted rank recursive (Function.update s t k) := by
  have hself : Function.update s t k t = k := Function.update_self ..
  have hother : ∀ u, u ≠ t → Function.update s t k u = s u := fun u hu =>
    Function.update_of_ne hu ..
  have hwork : ∀ u, Function.update s t k u ≠ [] → s u ≠ [] := by
    intro u hu hnil
    by_cases hut : u = t
    · subst hut
      exact hu (by rw [hself, hdone hnil])
    · exact hu (by rw [hother u hut, hnil])
  refine ⟨?_, fun u => ?_, fun u v m hu hv => ?_, fun u hu => ?_⟩
  · by_cases ht : none = t
    · subst ht
      rw [hself]
      exact hord _ h.main
    · rw [hother _ ht]
      exact h.main
  · by_cases ht : some u = t
    · subst ht
      rw [hself]
      exact hord _ (h.worker u)
    · rw [hother _ ht]
      exact h.worker u
  · -- a mutex of the new stack was held by the thread, or by no other
    by_cases hut : u = t
    · by_cases hvt : v = t
      · rw [hut, hvt]
      rw [hut, hself] at hu
      rw [hother v hvt] at hv
      rcases hheld m hu with hm | hm
      · rw [hut]
        exact h.exclusive t v m hm hv
      · exact absurd hv (hm v hvt)
    · rw [hother u hut] at hu
      by_cases hvt : v = t
      · rw [hvt, hself] at hv
        rcases hheld m hv with hm | hm
        · rw [hvt]
          exact h.exclusive u t m hu hm
        · exact absurd hu (hm u hut)
      · rw [hother v hvt] at hv
        exact h.exclusive u v m hu hv
  · have hjoined : LockFrame.join u ∈ s none := h.joined u (hwork _ hu)
    by_cases ht : none = t
    · subst ht
      rw [hself]
      exact hjoin u (hwork _ hu) hjoined
    · rw [hother _ ht]
      exact hjoined

/-- A thread begins that will be joined. -/
theorem begin (h : Sorted rank recursive s) {u : τ} {p : LockProgram μ τ}
    (hu : s (some u) = []) (hjoin : LockFrame.join u ∈ s none)
    (hp : p.Ordered rank recursive [] Set.univ) :
    Sorted rank recursive (Function.update s (some u) [run p]) := by
  have hheld : ∀ t, held (Function.update s (some u) [run p] t) = held (s t) := by
    intro t
    by_cases ht : t = some u
    · subst ht
      rw [Function.update_self, hu]
      rfl
    · rw [Function.update_of_ne ht]
  have hmain : Function.update s (some u) [run p] none = s none :=
    Function.update_of_ne (by simp) ..
  refine ⟨by rw [hmain]; exact h.main, fun t => ?_, fun t v m ht hv => ?_, fun t ht => ?_⟩
  · by_cases htu : t = u
    · subst htu
      rw [Function.update_self]
      exact ⟨by simpa [joins] using hp, trivial⟩
    · rw [Function.update_of_ne (by simpa using htu)]
      exact h.worker t
  · rw [hheld] at ht hv
    exact h.exclusive t v m ht hv
  · rw [hmain]
    by_cases htu : t = u
    · rw [htu]
      exact hjoin
    · rw [Function.update_of_ne (by simpa using htu)] at ht
      exact h.joined t ht

variable {program : τ → LockProgram μ τ}

/-- **Every step keeps the invariant.** -/
theorem step (h : Sorted rank recursive s)
    (hprogram : ∀ t, (program t).Ordered rank recursive [] Set.univ)
    (hs : Step recursive program s s') : Sorted rank recursive s' := by
  cases hs with
  | @move t k hk =>
    refine h.update (fun J hJ => hJ.move hk) (fun m hm => .inl (hk.held_subset hm))
      (fun u _ hu => (hk.join_mem_iff u).mpr hu) fun hnil => ?_
    rw [hnil] at hk
    cases hk
  | @lock t m p k ht hfree =>
    refine h.update (fun J hJ => ?_) (fun m' hm' => ?_) (fun u _ hu => ?_) fun hnil => ?_
    · rw [ht] at hJ
      obtain ⟨⟨-, hp⟩, hk⟩ := hJ
      exact ⟨by simpa using hp, hk⟩
    · rw [held_run, held_unlock] at hm'
      rcases List.mem_cons.mp hm' with rfl | hm'
      · exact .inr hfree.1
      · exact .inl (by rw [ht]; exact hm')
    · rw [ht] at hu
      simpa using hu
    · rw [ht] at hnil
      cases hnil
  | @spawn t u p k ht hu =>
    obtain ⟨rfl, -⟩ := h.spawn_main ht
    have hheld : held k = [] := by simpa [ht] using h.spawn ht
    have hmain : Sorted rank recursive
        (Function.update s none (run p :: LockFrame.join u :: k)) := by
      refine h.update (fun J hJ => ?_) (fun m hm => ?_) (fun v _ hv => ?_) fun hnil => ?_
      · rw [ht] at hJ
        obtain ⟨⟨-, hfresh, hp⟩, hk⟩ := hJ
        exact ⟨by simpa [hheld] using hp, ⟨hheld, hfresh⟩, hk⟩
      · simp [hheld] at hm
      · rw [ht] at hv
        simpa using .inr (by simpa using hv)
      · rw [ht] at hnil
        cases hnil
    refine hmain.begin ?_ ?_ (hprogram u)
    · rw [Function.update_of_ne (by simp)]
      exact hu
    · simp
  | @join t u k ht hu =>
    refine h.update (fun J hJ => ?_) (fun m hm => ?_) (fun v hv hmem => ?_) fun hnil => ?_
    · rw [ht] at hJ
      exact hJ.tail
    · exact .inl (by rw [ht]; exact hm)
    · rw [ht] at hmem
      rcases List.mem_cons.mp hmem with heq | hmem
      · obtain rfl := LockFrame.join.inj heq
        exact absurd hu hv
      · exact hmem
    · rw [ht] at hnil
      cases hnil

/-- **Every interleaving keeps the invariant.** -/
theorem of_reachable {main : LockProgram μ τ} (hmain : main.Ordered rank recursive [] ∅)
    (hprogram : ∀ t, (program t).Ordered rank recursive [] Set.univ)
    (hs : Reachable recursive program main s) : Sorted rank recursive s := by
  induction hs with
  | start => exact Sorted.start hmain
  | step _ hstep ih => exact ih.step hprogram hstep

end Steps

/-- Where all threads that are not done wait, a thread that waits for a mutex waits for one that
waits for a mutex of a higher rank. -/
theorem exists_higher (h : Sorted rank recursive s) (hdead : s.Deadlocked recursive) {t : Option τ}
    {m : μ} {p : LockProgram μ τ} {k : List (LockFrame μ τ)} (ht : s t = run (.hold m p) :: k)
    (hfree : ¬ s.Free recursive t m) :
    ∃ t' m' p' k', s t' = run (.hold m' p') :: k' ∧ ¬ s.Free recursive t' m' ∧
      rank m < rank m' := by
  have hself : m ∈ held (s t) → recursive m := by
    intro hm
    rcases h.hold ht with ⟨-, hrec⟩ | hlt
    · exact hrec
    · exact absurd (hlt m hm) (Nat.lt_irrefl _)
  -- so it is another thread that holds the mutex
  obtain ⟨u, -, hu⟩ : ∃ u, u ≠ t ∧ m ∈ held (s u) := by
    by_contra hnone
    exact hfree ⟨fun u hut hmem => hnone ⟨u, hut, hmem⟩, hself⟩
  have hnotdone : s u ≠ [] := fun hnil => by simp [hnil] at hu
  cases hdead.2 u hnotdone with
  | @lock m' p' k' hu' hfree' =>
    refine ⟨u, m', p', k', hu', hfree', ?_⟩
    rcases h.hold hu' with ⟨hm', hrec⟩ | hlt
    · -- it holds the mutex that it waits for, so nothing is in its way
      refine absurd ⟨fun v hvu hv => hvu (h.exclusive v u m' hv hm'), fun _ => hrec⟩ hfree'
    · exact hlt m hu
  | join hu' => simp [h.join hu'] at hu
  | spawn hu' => simp [h.spawn hu'] at hu

/-- **No deadlock.** -/
theorem not_deadlocked (h : Sorted rank recursive s) {bound : ℕ} (hbound : ∀ m, rank m ≤ bound) :
    ¬ s.Deadlocked recursive := by
  intro hdead
  -- by induction on how far a mutex is from the highest rank, nothing waits for it
  have hfree : ∀ n t m p k, bound - rank m ≤ n → s t = run (.hold m p) :: k →
      s.Free recursive t m := by
    intro n
    induction n with
    | zero =>
      intro t m p k hn ht
      by_contra hfree
      obtain ⟨t', m', p', k', -, -, hlt⟩ := h.exists_higher hdead ht hfree
      have hm' := hbound m'
      omega
    | succ n ih =>
      intro t m p k hn ht
      by_contra hfree
      obtain ⟨t', m', p', k', ht', hfree', hlt⟩ := h.exists_higher hdead ht hfree
      have hm' := hbound m'
      exact hfree' (ih t' m' p' k' (by omega) ht')
  have hwait : ∀ t, s t ≠ [] → t = none ∧ ∃ u, s (some u) ≠ [] := by
    intro t ht
    cases hdead.2 t ht with
    | @lock m p k hk hnot => exact absurd (hfree _ t m p k (Nat.le_refl _) hk) hnot
    | join hk hu => exact ⟨h.join_main hk, _, hu⟩
    | spawn hk hu => exact absurd (h.spawn_main hk).2 hu
  obtain ⟨t, ht⟩ := hdead.1
  obtain ⟨-, u, hu⟩ := hwait t ht
  exact absurd (hwait (some u) hu).1 (by simp)

end Sorted

end LockPool

end UmatiDashboard
