import Mathlib.Data.Set.Finite.Basic
import Mathlib.Data.Fintype.Pigeonhole
import Mathlib.Logic.Relation
import Mathlib.Order.WellFounded

/-!
# Searches that call themselves

The search of a place goes through a list of steps. A step is done at once, or it ends the whole
search, or it is the search of another place. Nothing remembers the places, so the recursion has
no measure of its own, and `ending` runs it with fuel.

One place **leads** to another if its search comes to the search of the other one, that is if no
step before ends the search. With enough fuel a search comes to an end exactly if its place is
accessible for this relation (`exists_ending_iff`); if the places form a finite set, exactly if no
place that it comes to leads back to itself (`acc_iff_of_finite`).
-/

namespace UmatiDashboard

namespace NestedSearch

variable {α : Type*}

/-- One step of the search of a place. -/
inductive Step (α : Type*) where
  | done
  | abort
  | nested (place : α)

/-- How a search ends. -/
inductive Ending where
  | returned
  | aborted
  /-- the fuel was used up -/
  | unfinished
  deriving DecidableEq

/-- Go through a list of steps. -/
def runSteps (search : α → Ending) : List (Step α) → Ending
  | [] => .returned
  | .done :: rest => runSteps search rest
  | .abort :: _ => .aborted
  | .nested y :: rest =>
    match search y with
    | .returned => runSteps search rest
    | e => e

/-- How one step ends. -/
def Step.ending (search : α → Ending) : Step α → Ending
  | .done => .returned
  | .abort => .aborted
  | .nested y => search y

/-- An upper bound for the number of steps of a search within one step. -/
def Step.effort (search : α → ℕ) : Step α → ℕ
  | .nested y => 1 + search y
  | _ => 1

theorem Step.one_le_effort (search : α → ℕ) (step : Step α) : 1 ≤ step.effort search := by
  cases step with
  | done => exact le_rfl
  | abort => exact le_rfl
  | nested y => exact Nat.le_add_right 1 _

/-- An upper bound for the number of steps in a list, with those of the searches among them. -/
def countSteps (search : α → ℕ) : List (Step α) → ℕ
  | [] => 0
  | step :: rest => step.effort search + countSteps search rest

variable (steps : α → List (Step α))

/-- Search a place. -/
def ending : ℕ → α → Ending
  | 0, _ => .unfinished
  | fuel + 1, x => runSteps (ending fuel) (steps x)

/-- An upper bound for the number of places and steps of a search. -/
def effort : ℕ → α → ℕ
  | 0, _ => 0
  | fuel + 1, x => 1 + countSteps (effort fuel) (steps x)

/-- A step that ends the whole search, if it comes to an end. -/
inductive Aborts : Step α → Prop where
  | abort : Aborts .abort
  | nested {x : α} {step : Step α} (hmem : step ∈ steps x) (h : Aborts step) : Aborts (.nested x)

/-- The search of `x` comes to the search of `y`. -/
def Leads (x y : α) : Prop :=
  ∃ before after, steps x = before ++ .nested y :: after ∧ ∀ step ∈ before, ¬ Aborts steps step

/-! ### Lists of steps -/

section Steps

variable {search search' : α → Ending} {before rest : List (Step α)}

theorem runSteps_nested (y : α) : runSteps search (.nested y :: rest) =
    if search y = .returned then runSteps search rest else search y := by
  rw [runSteps]
  cases search y <;> rfl

theorem runSteps_cons (step : Step α) : runSteps search (step :: rest) =
    if step.ending search = .returned then runSteps search rest else step.ending search := by
  cases step with
  | done => rfl
  | abort => rfl
  | nested y => exact runSteps_nested y

/-- Steps that end the search do not let it return. -/
theorem runSteps_ne_returned {step : Step α}
    (habort : step = .abort ∨ ∃ y, step = .nested y ∧ search y ≠ .returned) :
    ∀ {l : List (Step α)}, step ∈ l → runSteps search l ≠ .returned
  | [], hmem => absurd hmem List.not_mem_nil
  | first :: l, hmem => by
    rcases List.mem_cons.mp hmem with rfl | hmem
    · rcases habort with rfl | ⟨y, rfl, hy⟩
      · simp [runSteps]
      · rw [runSteps_nested, if_neg hy]
        exact hy
    · have ih := runSteps_ne_returned habort hmem
      cases first with
      | done => exact ih
      | abort => simp [runSteps]
      | nested y =>
        rw [runSteps_nested]
        split_ifs with hy
        · exact ih
        · exact hy

/-- A list of steps that was aborted has a step that did it. -/
theorem exists_of_runSteps_eq_aborted : ∀ {l : List (Step α)}, runSteps search l = .aborted →
    ∃ step ∈ l, step = .abort ∨ ∃ y, step = .nested y ∧ search y = .aborted
  | [], h => by cases h
  | .done :: l, h => by
    obtain ⟨step, hmem, hstep⟩ := exists_of_runSteps_eq_aborted (l := l) h
    exact ⟨step, List.mem_cons_of_mem _ hmem, hstep⟩
  | .abort :: l, _ => ⟨.abort, List.mem_cons_self, .inl rfl⟩
  | .nested y :: l, h => by
    rw [runSteps_nested] at h
    split_ifs at h with hy
    · obtain ⟨step, hmem, hstep⟩ := exists_of_runSteps_eq_aborted h
      exact ⟨step, List.mem_cons_of_mem _ hmem, hstep⟩
    · exact ⟨.nested y, List.mem_cons_self, .inr ⟨y, rfl, h⟩⟩

/-- A search with more fuel goes through a list in the same way, unless the fuel is used up. -/
theorem runSteps_congr (hsearch : ∀ y, search y ≠ .unfinished → search' y = search y) :
    ∀ {l : List (Step α)}, runSteps search l ≠ .unfinished → runSteps search' l = runSteps search l
  | [], _ => rfl
  | .done :: l, h => runSteps_congr hsearch (l := l) h
  | .abort :: _, _ => rfl
  | .nested y :: l, h => by
    rw [runSteps_nested] at h
    by_cases hy : search y = .unfinished
    · rw [hy] at h
      exact absurd rfl h
    · rw [runSteps_nested, runSteps_nested, hsearch y hy]
      split_ifs at h ⊢ with hreturned
      · exact runSteps_congr hsearch h
      · rfl

/-- Steps that are not aborted are gone through. -/
theorem runSteps_append (hbefore : runSteps search before = .returned) :
    runSteps search (before ++ rest) = runSteps search rest := by
  induction before with
  | nil => rfl
  | cons first before ih =>
    cases first with
    | done => exact ih hbefore
    | abort => cases hbefore
    | nested y =>
      rw [runSteps_nested] at hbefore
      rw [List.cons_append, runSteps_nested]
      split_ifs at hbefore ⊢ with hy
      · exact ih hbefore
      · exact absurd hbefore hy

/-- The rest of a list is not come to if a step before does not return. -/
theorem runSteps_append_of_ne (hbefore : runSteps search before ≠ .returned) :
    runSteps search (before ++ rest) = runSteps search before := by
  induction before with
  | nil => exact absurd rfl hbefore
  | cons first before ih =>
    cases first with
    | done => exact ih hbefore
    | abort => rfl
    | nested y =>
      rw [runSteps_nested] at hbefore
      rw [List.cons_append, runSteps_nested, runSteps_nested]
      split_ifs at hbefore ⊢ with hy
      · exact ih hbefore
      · rfl

end Steps

/-! ### When a search comes to an end -/

variable {steps} {x y : α} {fuel fuel' : ℕ}

theorem ending_mono (hle : fuel ≤ fuel') (h : ending steps fuel x ≠ .unfinished) :
    ending steps fuel' x = ending steps fuel x := by
  induction fuel generalizing fuel' x with
  | zero => exact absurd rfl h
  | succ fuel ih =>
    obtain ⟨fuel', rfl⟩ : ∃ k, fuel' = k + 1 := ⟨fuel' - 1, by omega⟩
    exact runSteps_congr (fun y hy => ih (by omega) hy) h

/-- A place with a step that ends the search does not let it return. -/
theorem Aborts.ending_ne_returned {step : Step α} (h : Aborts steps step) :
    step = .abort ∨ ∃ y, step = .nested y ∧ ∀ fuel, ending steps fuel y ≠ .returned := by
  induction h with
  | abort => exact .inl rfl
  | @nested x step hmem _ ih =>
    refine .inr ⟨x, rfl, fun fuel => ?_⟩
    cases fuel with
    | zero => simp [ending]
    | succ fuel =>
      refine runSteps_ne_returned ?_ hmem
      exact ih.imp_right fun ⟨y, hy, hne⟩ => ⟨y, hy, hne fuel⟩

/-- A search that was aborted has come to a step that did it. -/
theorem aborts_of_ending (h : ending steps fuel x = .aborted) : Aborts steps (.nested x) := by
  induction fuel generalizing x with
  | zero => cases h
  | succ fuel ih =>
    obtain ⟨step, hmem, rfl | ⟨y, rfl, hy⟩⟩ := exists_of_runSteps_eq_aborted h
    · exact .nested hmem .abort
    · exact .nested hmem (ih hy)

/-- If no step ends the whole search, it comes to all of them. -/
theorem leads_of_mem (hsteps : ∀ step ∈ steps x, ¬ Aborts steps step)
    (hmem : .nested y ∈ steps x) : Leads steps x y := by
  obtain ⟨before, after, heq⟩ := List.append_of_mem hmem
  exact ⟨before, after, heq, fun step hstep => hsteps step (by simp [heq, hstep])⟩

/-- Steps that do not end a search are gone through, or use up its fuel. -/
theorem runSteps_of_not_aborts (fuel : ℕ) {before : List (Step α)}
    (hbefore : ∀ step ∈ before, ¬ Aborts steps step) :
    runSteps (ending steps fuel) before = .returned ∨
      runSteps (ending steps fuel) before = .unfinished := by
  cases hrun : runSteps (ending steps fuel) before with
  | returned => exact .inl rfl
  | unfinished => exact .inr rfl
  | aborted =>
    obtain ⟨step, hmem, rfl | ⟨y, rfl, hy⟩⟩ := exists_of_runSteps_eq_aborted hrun
    · exact absurd .abort (hbefore _ hmem)
    · exact absurd (aborts_of_ending hy) (hbefore _ hmem)

/-- A search that comes to an end has finished the searches it has come to. -/
theorem ending_of_leads (h : ending steps (fuel + 1) x ≠ .unfinished) (hleads : Leads steps x y) :
    ending steps fuel y ≠ .unfinished := by
  obtain ⟨before, after, hsteps, hbefore⟩ := hleads
  rw [ending, hsteps] at h
  rcases runSteps_of_not_aborts fuel hbefore with hrun | hrun
  · intro hy
    rw [runSteps_append hrun, runSteps_nested, hy] at h
    exact h rfl
  · rw [runSteps_append_of_ne (by simp [hrun])] at h
    exact absurd hrun h

theorem acc_of_ending (h : ending steps fuel x ≠ .unfinished) :
    Acc (fun y x => Leads steps x y) x := by
  induction fuel generalizing x with
  | zero => exact absurd rfl h
  | succ fuel ih => exact ⟨x, fun y hleads => ih (ending_of_leads h hleads)⟩

/-- The steps that are left, if the searches among them come to an end. -/
theorem exists_runSteps
    (hnested : ∀ y, Leads steps x y → ∃ fuel, ending steps fuel y ≠ .unfinished) :
    ∀ (rest before : List (Step α)), steps x = before ++ rest →
      (∀ step ∈ before, ¬ Aborts steps step) →
      ∃ fuel, runSteps (ending steps fuel) rest ≠ .unfinished
  | [], _, _, _ => ⟨0, by simp [runSteps]⟩
  | first :: rest, before, hsteps, hbefore => by
    by_cases hfirst : Aborts steps first
    · rcases hfirst.ending_ne_returned with rfl | ⟨y, rfl, hy⟩
      · exact ⟨0, by simp [runSteps]⟩
      · obtain ⟨fuel, hfuel⟩ := hnested y ⟨before, rest, hsteps, hbefore⟩
        refine ⟨fuel, ?_⟩
        rw [runSteps_nested, if_neg (hy fuel)]
        exact hfuel
    · have hbefore' : ∀ step ∈ before ++ [first], ¬ Aborts steps step := by
        simpa [or_imp, forall_and] using ⟨hbefore, hfirst⟩
      obtain ⟨fuel, hfuel⟩ := exists_runSteps hnested rest (before ++ [first])
        (by simpa using hsteps) hbefore'
      cases first with
      | done => exact ⟨fuel, hfuel⟩
      | abort => exact absurd .abort hfirst
      | nested y =>
        obtain ⟨fuel₁, hfuel₁⟩ := hnested y ⟨before, rest, hsteps, hbefore⟩
        have hmono := fun z (hz : ending steps fuel z ≠ .unfinished) =>
          ending_mono (Nat.le_max_right fuel₁ fuel) hz
        refine ⟨max fuel₁ fuel, ?_⟩
        rw [runSteps_nested, ending_mono (Nat.le_max_left fuel₁ fuel) hfuel₁]
        split_ifs
        · rw [runSteps_congr hmono hfuel]
          exact hfuel
        · exact hfuel₁

/-- **A search comes to an end** exactly if its place is accessible: no infinite chain of places
each of which leads to the next one begins there. -/
theorem exists_ending_iff :
    (∃ fuel, ending steps fuel x ≠ .unfinished) ↔ Acc (fun y x => Leads steps x y) x := by
  refine ⟨fun ⟨_, h⟩ => acc_of_ending h, fun h => ?_⟩
  induction h with
  | intro x _ ih =>
    obtain ⟨fuel, hfuel⟩ := exists_runSteps (x := x) ih (steps x) [] rfl (by simp)
    exact ⟨fuel + 1, hfuel⟩

/-! ### Finitely many places -/

section Finite

variable {r : α → α → Prop}

theorem acc_of_reflTransGen (h : Acc (fun y x => r x y) x) (hreach : Relation.ReflTransGen r x y) :
    Acc (fun y x => r x y) y := by
  induction hreach with
  | refl => exact h
  | tail _ hstep ih => exact ih.inv hstep

theorem not_transGen_of_acc (h : Acc (fun y x => r x y) x) : ¬ Relation.TransGen r x x := by
  intro hcycle
  have hswap : Relation.TransGen (fun y x => r x y) x x := Relation.transGen_swap.mpr hcycle
  have hacc := h.transGen
  clear h hcycle
  induction hacc with
  | intro z _ ih => exact ih z hswap hswap

/-- In a relation with finitely many targets an infinite chain runs in a circle. -/
theorem acc_iff_of_finite {U : Set α} (hU : U.Finite) (hin : ∀ x y, r x y → y ∈ U) :
    Acc (fun y x => r x y) x ↔
      ∀ y, Relation.ReflTransGen r x y → ¬ Relation.TransGen r y y := by
  constructor
  · exact fun hacc y hreach => not_transGen_of_acc (acc_of_reflTransGen hacc hreach)
  · intro hcycle
    by_contra hacc
    obtain ⟨chain, rfl, hchain⟩ := not_acc_iff_exists_descending_chain.mp hacc
    -- every element of the chain but the first one lies in the finite set
    have hmem : ∀ n, chain (n + 1) ∈ U := fun n => hin _ _ (hchain n)
    have : Finite U := hU
    have hreach : ∀ i n, Relation.ReflTransGen r (chain i) (chain (i + n)) := by
      intro i n
      induction n with
      | zero => exact .refl
      | succ n ih => exact ih.tail (hchain (i + n))
    have hcircle : ∀ i j, i < j → chain (i + 1) ≠ chain (j + 1) := by
      intro i j hlt heq
      obtain ⟨n, rfl⟩ := Nat.exists_eq_add_of_lt hlt
      have hlater : Relation.TransGen r (chain (i + 1)) (chain (i + n + 1 + 1)) := by
        have hle := hreach (i + 1) n
        rw [Nat.add_right_comm] at hle
        exact .tail' hle (hchain _)
      refine hcycle (chain (i + 1)) (by simpa using hreach 0 (i + 1)) ?_
      rwa [← heq] at hlater
    obtain ⟨i, j, hne, heq⟩ :=
      Finite.exists_ne_map_eq_of_infinite fun n : ℕ => (⟨chain (n + 1), hmem n⟩ : U)
    have heq' : chain (i + 1) = chain (j + 1) := congrArg Subtype.val heq
    rcases Nat.lt_or_gt_of_ne hne with hlt | hlt
    · exact hcircle i j hlt heq'
    · exact hcircle j i hlt heq'.symm

end Finite

end NestedSearch

end UmatiDashboard
