import UmatiDashboard.MachineObserver.Accounting
import UmatiDashboard.MachineObserver.Fuel
import UmatiDashboard.MachineObserver.Runs

/-!
# Which answers a cycle survives

A cycle **survives** if it returns, and leaves the tables unchanged if the browse of the machine
list fails. What decides this are the answers of the data client: a plain `UmatiException` in
the search, or an empty answer where a first element is taken, ends the update thread; and a
search that fails late has entered machines into the table of parents already.
-/

namespace UmatiDashboard

namespace Observer

variable {ω : Type} (o : Observer ω) (fuel : ℕ) (s : ObserverState ω)

/-! ### The conversation of a cycle -/

/-- The search of a cycle from `s`. -/
def search : Outcome Exception (Option (List BrowseResult)) × ObserverState ω :=
  (canBrowseMachineList o fuel).run s.forget

/-- What a cycle does with the list that its search has found. -/
def processSearch (t : ObserverTables) : Option (List BrowseResult) → ObserverM ω Unit
  | none => pure ()
  | some l => processMachineList o fuel (knownNodeIds t) (removeDuplicates l)

/-- The browse of the machine list fails. -/
def SearchFailed : Prop := (o.search fuel s).1 = .ok none

/-- The calls of a cycle, with their answers. -/
def calls : List ClientCall := (o.cycle fuel s).2.world.calls

/-- The calls of the search. -/
def searchCalls : List ClientCall := (o.search fuel s).2.world.calls

/-- The calls after the search. -/
def laterCalls : List ClientCall := (o.calls fuel s).drop (o.searchCalls fuel s).length

/-- The cycle returns, and a failed search leaves the tables as they are. -/
def Survives : Prop :=
  (o.cycle fuel s).1 = .ok () ∧ (o.SearchFailed fuel s → (o.cycle fuel s).2.tables = s.tables)

/-- **The answers that a cycle survives.** -/
structure Answered : Prop where
  /-- the client is asked a finite number of times -/
  few : (o.calls fuel s).length < fuel
  /-- no answer of the search is an exception that nothing catches, or lacks a type definition -/
  search : ∀ c ∈ o.searchCalls fuel s, c.escapes = false
  /-- no instance of a placeholder of a new machine lacks an interface -/
  later : ∀ c ∈ o.laterCalls fuel s, c.lacksInterface = false
  /-- a search that fails has come across machines only whose parents are known -/
  entered : o.SearchFailed fuel s → ∀ n : NodeId,
    .entering n ∈ (o.search fuel s).2.events → n ∈ s.tables.parentOfMachine

variable {o fuel s}

/-- **A cycle is a search**, and the processing of the list that it finds. -/
theorem cycle_eq_bind : o.cycle fuel s =
    (canBrowseMachineList o fuel >>= processSearch o fuel s.tables).run s.forget := rfl

theorem cycle_of_ok {r : Option (List BrowseResult)} {s₁ : ObserverState ω}
    (h : o.search fuel s = (.ok r, s₁)) :
    o.cycle fuel s = (processSearch o fuel s.tables r).run s₁ := by
  rw [cycle_eq_bind, Prog.run_bind, ← search, h]

theorem cycle_of_throw {e : Exception} {s₁ : ObserverState ω}
    (h : o.search fuel s = (.throw e, s₁)) : o.cycle fuel s = (.throw e, s₁) := by
  rw [cycle_eq_bind, Prog.run_bind, ← search, h]

theorem cycle_of_stuck {w : Stuck} {s₁ : ObserverState ω}
    (h : o.search fuel s = (.stuck w, s₁)) : o.cycle fuel s = (.stuck w, s₁) := by
  rw [cycle_eq_bind, Prog.run_bind, ← search, h]

theorem cycle_of_searchFailed (h : o.SearchFailed fuel s) :
    o.cycle fuel s = (.ok (), (o.search fuel s).2) :=
  cycle_of_ok (Prod.ext h rfl)

/-- The search of a cycle that returns has not run out of fuel. -/
theorem search_ne_outOfFuel (h : (o.cycle fuel s).1 = .ok ()) :
    (o.search fuel s).1 ≠ .stuck .outOfFuel := fun hstuck => by
  rw [cycle_of_stuck (Prod.ext hstuck rfl)] at h
  cases h

/-- Cycles with different fuel are the same, unless one of them runs out of it. -/
theorem Survives.of_ne {fuel₀ : ℕ} (h : o.Survives fuel s)
    (h₀ : (o.cycle fuel₀ s).1 ≠ .stuck .outOfFuel) : o.Survives fuel₀ s := by
  obtain ⟨hok, hsame⟩ := h
  obtain ⟨top, hle, hle₀⟩ : ∃ top, fuel ≤ top ∧ fuel₀ ≤ top :=
    ⟨max fuel fuel₀, by omega, by omega⟩
  have hcycle : o.cycle top s = o.cycle fuel s :=
    (approximates_updateMachines o hle).run_eq (s := s.forget) (by rw [← cycle, hok]; simp)
  have hcycle₀ : o.cycle top s = o.cycle fuel₀ s :=
    (approximates_updateMachines o hle₀).run_eq (s := s.forget) h₀
  have hok₀ : (o.cycle fuel₀ s).1 = .ok () := by rw [← hcycle₀, hcycle, hok]
  have hsearch : o.search top s = o.search fuel s :=
    (approximates_canBrowseMachineList o hle).run_eq (search_ne_outOfFuel hok)
  have hsearch₀ : o.search top s = o.search fuel₀ s :=
    (approximates_canBrowseMachineList o hle₀).run_eq (search_ne_outOfFuel hok₀)
  refine ⟨hok₀, fun hfailed => ?_⟩
  rw [← hcycle₀, hcycle]
  refine hsame ?_
  rw [SearchFailed, ← hsearch, hsearch₀]
  exact hfailed

/-! ### The account of a cycle -/

theorem search_account (hraises : o.client.RaisesOnly) (fuel : ℕ) (s : ObserverState ω) :
    Prog.Account (fun c : ClientCall => c.escapes = true) (fun e => e.isPlainUmatiException = true)
      (fun e => e.isPlainUmatiException = true) fuel (o.searchCalls fuel s)
      (o.search fuel s).1 := by
  obtain ⟨cs, hcs, hacc⟩ := searches_canBrowseMachineList hraises fuel s.forget
  have hcalls : o.searchCalls fuel s = cs := hcs
  rw [hcalls]
  exact hacc

/-- The calls after a search that has found a list account for the end of the cycle. -/
theorem later_account {l : List BrowseResult} (hl : (o.search fuel s).1 = .ok (some l)) :
    o.calls fuel s = o.searchCalls fuel s ++ o.laterCalls fuel s ∧
      Prog.Account (fun c : ClientCall => c.lacksInterface = true) (fun _ => False)
        (fun _ => False) fuel (o.laterCalls fuel s) (o.cycle fuel s).1 := by
  have hcycle : o.cycle fuel s = (processMachineList o fuel (knownNodeIds s.tables)
      (removeDuplicates l)).run (o.search fuel s).2 := cycle_of_ok (Prod.ext hl rfl)
  obtain ⟨ds, hds, hacc⟩ := processes_processMachineList fuel (knownNodeIds s.tables)
    (removeDuplicates l) (o.search fuel s).2
  rw [← hcycle] at hds hacc
  have hcalls : o.calls fuel s = o.searchCalls fuel s ++ ds := hds
  have hlater : o.laterCalls fuel s = ds := by
    rw [laterCalls, hcalls, List.drop_left]
  rw [hlater]
  exact ⟨hcalls, hacc⟩

/-- Without a list the cycle ends with the search. -/
theorem calls_eq_of_search {out : Outcome Exception Unit}
    (h : o.cycle fuel s = (out, (o.search fuel s).2)) :
    o.calls fuel s = o.searchCalls fuel s ∧ o.laterCalls fuel s = [] := by
  have hcalls : o.calls fuel s = o.searchCalls fuel s := by rw [calls, h, searchCalls]
  exact ⟨hcalls, by rw [laterCalls, hcalls, List.drop_length]⟩

theorem not_bad_iff {p : ClientCall → Bool} {cs : List ClientCall} :
    (¬ ∃ c ∈ cs, p c = true) ↔ ∀ c ∈ cs, p c = false := by
  simp

/-- A cycle returns if the client is asked less than the fuel, and answers well. -/
theorem returns_of_answers (hraises : o.client.RaisesOnly)
    (hfew : (o.calls fuel s).length < fuel)
    (hsearch : ∀ c ∈ o.searchCalls fuel s, c.escapes = false)
    (hlater : ∀ c ∈ o.laterCalls fuel s, c.lacksInterface = false) :
    (o.cycle fuel s).1 = .ok () := by
  have hacc := search_account hraises fuel s
  have hgood := not_bad_iff.mpr hsearch
  rcases hrun : o.search fuel s with ⟨(_ | l) | e | w, s₁⟩
  · rw [cycle_of_ok hrun]
    rfl
  · have hl : (o.search fuel s).1 = .ok (some l) := by rw [hrun]
    obtain ⟨hcalls, hacc₂⟩ := later_account hl
    have hgood₂ := not_bad_iff.mpr hlater
    rcases hout : (o.cycle fuel s).1 with u | e | w
    · rfl
    · exact (hacc₂.raised e hout).elim
    · rw [hout] at hacc₂
      by_cases hw : w = .outOfFuel
      · subst hw
        have := hacc₂.fuel rfl
        rw [hcalls, List.length_append] at hfew
        omega
      · exact absurd (hacc₂.fails.mpr ((Outcome.fails_stuck_iff w).mpr hw)) hgood₂
  · rw [hrun] at hacc
    exact absurd (hacc.fails.mpr (hacc.raised e rfl)) hgood
  · rw [hrun] at hacc
    by_cases hw : w = .outOfFuel
    · subst hw
      have hend : o.cycle fuel s = (.stuck .outOfFuel, (o.search fuel s).2) := by
        rw [cycle_of_stuck hrun, hrun]
      have hcalls := (calls_eq_of_search hend).1
      have := hacc.fuel rfl
      rw [hcalls] at hfew
      omega
    · exact absurd (hacc.fails.mpr ((Outcome.fails_stuck_iff w).mpr hw)) hgood

/-- The answers in a cycle that returns. -/
theorem answers_of_returns (hraises : o.client.RaisesOnly) (h : (o.cycle fuel s).1 = .ok ()) :
    (∀ c ∈ o.searchCalls fuel s, c.escapes = false) ∧
      ∀ c ∈ o.laterCalls fuel s, c.lacksInterface = false := by
  have hacc := search_account hraises fuel s
  rcases hrun : o.search fuel s with ⟨(_ | l) | e | w, s₁⟩
  · rw [hrun] at hacc
    have hend : o.cycle fuel s = (.ok (), (o.search fuel s).2) := by
      rw [cycle_of_ok hrun, hrun]
      rfl
    have hlater := (calls_eq_of_search hend).2
    exact ⟨not_bad_iff.mp (hacc.fails.not.mpr id), by simp [hlater]⟩
  · have hl : (o.search fuel s).1 = .ok (some l) := by rw [hrun]
    obtain ⟨-, hacc₂⟩ := later_account hl
    rw [hrun] at hacc
    rw [h] at hacc₂
    exact ⟨not_bad_iff.mp (hacc.fails.not.mpr id), not_bad_iff.mp (hacc₂.fails.not.mpr id)⟩
  · rw [cycle_of_throw hrun] at h
    cases h
  · rw [cycle_of_stuck hrun] at h
    cases h

/-! ### What a search leaves -/

/-- A search changes the table of parents only, and that only by machines that are new to it. -/
theorem search_tables :
    (o.search fuel s).2.tables = s.tables ↔ ∀ n : NodeId,
      .entering n ∈ (o.search fuel s).2.events → n ∈ s.tables.parentOfMachine := by
  have hframe : o.SearchFrame fun s' : ObserverState ω => ∃ parents,
      s'.tables = s.tables.withParents parents ∧
      (∀ n : NodeId, .entering n ∈ s'.events → n ∈ parents) ∧
      ((∀ n : NodeId, .entering n ∈ s'.events → n ∈ s.tables.parentOfMachine) →
        parents = s.tables.parentOfMachine) :=
    { world := IgnoresWorld.readsKeep fun _ _ h => h
      subTypes := fun _ _ h => h
      enter := fun s₁ n p h => by
        obtain ⟨parents, htables, hmem, hsame⟩ := h
        refine ⟨parents.insertIfNew n p, by simp [htables, ObserverTables.withParents],
          fun m hm => ?_, fun hall => ?_⟩
        · simp only [ObserverState.events_put, ObserverState.events_log, List.mem_append,
            List.mem_singleton, ObserverEvent.entering.injEq] at hm
          rw [Std.ExtTreeMap.mem_insertIfNew]
          rcases hm with hm | rfl
          · exact .inr (hmem m hm)
          · exact .inl Std.ReflCmp.compare_self
        · simp only [ObserverState.events_put, ObserverState.events_log, List.mem_append,
            List.mem_singleton, ObserverEvent.entering.injEq] at hall
          have hparents := hsame fun m hm => hall m (.inl hm)
          rw [hparents]
          exact NodeMap.insertIfNew_of_mem (hall n (.inr rfl)) p }
  have hkeeps := keeps_canBrowseMachineList o hframe.steps browsesOnly_true fuel s.forget
    ⟨s.tables.parentOfMachine, rfl, fun n hn => (by cases hn), fun _ => rfl⟩
  obtain ⟨parents, htables, hmem, hsame⟩ := hkeeps.1
  rw [show (o.search fuel s).2.tables = s.tables.withParents parents from htables]
  constructor
  · intro heq n hn
    have hparents : parents = s.tables.parentOfMachine :=
      congrArg ObserverTables.parentOfMachine heq
    exact hparents ▸ hmem n hn
  · intro hall
    rw [hsame hall]
    rfl

/-! ### The theorem -/

/-- **The update thread survives a cycle if and only if it is answered well**, for a data client
that raises its own exceptions only. -/
theorem survives_iff_answered (hraises : o.client.RaisesOnly) :
    (∃ fuel, o.Survives fuel s) ↔ ∃ fuel, o.Answered fuel s := by
  constructor
  · rintro ⟨fuel, hok, hsame⟩
    -- enough fuel to exceed the number of calls changes nothing
    obtain ⟨fuel', hle, hfew⟩ : ∃ fuel', fuel ≤ fuel' ∧ (o.calls fuel s).length < fuel' :=
      ⟨max fuel ((o.calls fuel s).length + 1), by omega, by omega⟩
    have hcycle : o.cycle fuel' s = o.cycle fuel s :=
      (approximates_updateMachines o hle).run_eq (s := s.forget) (by rw [← cycle, hok]; simp)
    have hcalls : o.calls fuel' s = o.calls fuel s := by rw [calls, hcycle, calls]
    have hok' : (o.cycle fuel' s).1 = .ok () := by rw [hcycle, hok]
    obtain ⟨hsearch, hlater⟩ := answers_of_returns hraises hok'
    refine ⟨fuel', by rw [hcalls]; exact hfew, hsearch, hlater, fun hfailed => ?_⟩
    have hrun : o.search fuel' s = o.search fuel s :=
      (approximates_canBrowseMachineList o hle).run_eq (search_ne_outOfFuel hok)
    have hfailed₀ : o.SearchFailed fuel s := by rw [SearchFailed, ← hrun, hfailed]
    rw [hrun]
    have htables := hsame hfailed₀
    rw [cycle_of_searchFailed hfailed₀] at htables
    exact search_tables.mp htables
  · rintro ⟨fuel, hfew, hsearch, hlater, hentered⟩
    refine ⟨fuel, returns_of_answers hraises hfew hsearch hlater, fun hfailed => ?_⟩
    rw [cycle_of_searchFailed hfailed]
    exact search_tables.mpr (hentered hfailed)

/-! ### Plants with a failing server -/

/-- The plant with a server that throws when the identification of one machine is browsed. -/
def failingPlant (id : String) (thrown : Exception) : Observer (List String) :=
  { plantObserver with
    client := { plantClient with
      browseWithResultTypeFilter := fun n ctx t w =>
        if n = plantMachine id then (.error thrown, w)
        else plantClient.browseWithResultTypeFilter n ctx t w } }

theorem plant_raisesOnly : plantObserver.client.RaisesOnly where
  browse n ctx w e he := by
    simp only [plantObserver, plantClient] at he
    split_ifs at he
  browseWithResultTypeFilter _ _ _ _ _ he := by cases he
  translateBrowsePathToNodeId _ _ _ _ he := by cases he
  readeNodeValues _ _ _ he := by cases he

theorem failingPlant_raisesOnly (id : String) {thrown : Exception} (h : thrown.IsRaised) :
    (failingPlant id thrown).client.RaisesOnly where
  browse := plant_raisesOnly.browse
  browseWithResultTypeFilter n ctx t w e he := by
    simp only [failingPlant, plantClient] at he
    split_ifs at he
    cases he
    exact h
  translateBrowsePathToNodeId := plant_raisesOnly.translateBrowsePathToNodeId
  readeNodeValues := plant_raisesOnly.readeNodeValues

/-- **A plain exception ends the update thread**, and a connection that is lost after the first
machine was found leaves that machine in the table of parents. -/
theorem not_survives_plant :
    (failingPlant "m1" (.umati "Invalid NodeClass")).client.RaisesOnly ∧
      (∀ fuel, ¬ (failingPlant "m1" (.umati "Invalid NodeClass")).Survives fuel
        (plantObserver.start ["m1"])) ∧
      (failingPlant "m2" (.clientNotConnected "Need connected client.")).client.RaisesOnly ∧
      ∀ fuel, ¬ (failingPlant "m2" (.clientNotConnected "Need connected client.")).Survives fuel
        (plantObserver.start ["m1", "m2"]) := by
  refine ⟨failingPlant_raisesOnly _ (.inr (.inr rfl)), fun fuel h => ?_,
    failingPlant_raisesOnly _ (.inr (.inl rfl)), fun fuel h => ?_⟩
  · have hthrow : ((failingPlant "m1" (.umati "Invalid NodeClass")).cycle 2
        (plantObserver.start ["m1"])).1 = .throw (.umati "Invalid NodeClass") := by
      decide +kernel
    have h₂ := h.of_ne (hthrow ▸ (Outcome.stuck_ne_throw _ _).symm)
    exact Outcome.ok_ne_throw _ _ (h₂.1.symm.trans hthrow)
  · have hok : ((failingPlant "m2" (.clientNotConnected "Need connected client.")).cycle 2
        (plantObserver.start ["m1", "m2"])).1 = .ok () := by decide +kernel
    have hfailed : (failingPlant "m2" (.clientNotConnected "Need connected client.")).SearchFailed 2
        (plantObserver.start ["m1", "m2"]) := by
      unfold SearchFailed
      decide +kernel
    have htables := (h.of_ne (by rw [hok]; simp)).2 hfailed
    have hentered : plantMachine "m1" ∈
        ((failingPlant "m2" (.clientNotConnected "Need connected client.")).cycle 2
          (plantObserver.start ["m1", "m2"])).2.tables.parentOfMachine := by decide +kernel
    rw [htables] at hentered
    exact absurd hentered (by decide)

theorem survives_plant : ∃ fuel, plantObserver.Survives fuel (plantObserver.start ["m1"]) := by
  refine (survives_iff_answered plant_raisesOnly).mpr ⟨20, ?_, ?_, ?_, ?_⟩
  · decide +kernel
  · decide +kernel
  · decide +kernel
  · intro hfailed
    have hfound : (plantObserver.search 20 (plantObserver.start ["m1"])).1 =
        .ok (some (plantListing ["m1"])) := by decide +kernel
    rw [SearchFailed, hfound] at hfailed
    cases hfailed

end Observer

end UmatiDashboard
