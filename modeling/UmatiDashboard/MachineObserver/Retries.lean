import UmatiDashboard.MachineObserver.Countdown
import UmatiDashboard.MachineObserver.Ownership

/-!
# The retry schedule

A machine whose attempt to be added ended in a `MachineInvalidException` is tried again after
exactly nine cycles in which it is listed and online. Cycles in which it is not do not count,
however many there are, and in the meantime the machine is to be skipped, with the message of the
exception.
-/

namespace UmatiDashboard

namespace Observer

variable {ω : Type} (o : Observer ω)

/-- The cycle from `s` tries to add `m`, and `addMachine` ends in a `MachineInvalidException` with
the message `what`, in the state `s'`. -/
def AttemptFails (fuel : ℕ) (s : ObserverState ω) (m : NodeId) (what : String)
    (s' : ObserverState ω) : Prop :=
  ∃ machine s₁ ex, (untilAttempt o fuel m).run s.forget = (.ok (some machine), s₁) ∧
    (addMachine o fuel machine).run s₁ = (.throw ex, s') ∧
      ex.isMachineInvalidException = true ∧ ex.what = what

/-- A run without an attempt to add `m`, in which `k` cycles have found `m` listed and online. -/
inductive Waits (m : NodeId) (s : ObserverState ω) : ℕ → ObserverState ω → Prop where
  | start : Waits m s 0 s
  | world {k : ℕ} {s₁ : ObserverState ω} (world : Recorded ω) :
      Waits m s k s₁ → Waits m s k (s₁.withWorld world)
  /-- the machine is listed and online, and `addMachine` is not called -/
  | skipped {k : ℕ} {s₁ s₂ : ObserverState ω} (fuel : ℕ) (h : Waits m s k s₁)
      (hcycle : o.cycle fuel s₁ = (.ok (), s₂)) (hadding : .adding m ∉ s₂.events)
      (honline : Online s₂ m) : Waits m s (k + 1) s₂
  /-- the browse failed, or the machine is not listed, or it is not online -/
  | unseen {k : ℕ} {s₁ s₂ : ObserverState ω} (fuel : ℕ) (h : Waits m s k s₁)
      (hcycle : o.cycle fuel s₁ = (.ok (), s₂)) (hadding : .adding m ∉ s₂.events)
      (honline : ¬ Online s₂ m) : Waits m s k s₂

/-- The machine is to be skipped, with this message. -/
def SkippedWith (m : NodeId) (what : String) (t : ObserverTables) : Prop :=
  ∃ count, t.invalidMachines[m]? = some (count, what)

variable {o} {m : NodeId} {what : String} {fuel : ℕ} {s s' : ObserverState ω}

theorem Waits.reachable {k : ℕ} (hs : o.Reachable s) (h : o.Waits m s k s') : o.Reachable s' := by
  induction h with
  | start => exact hs
  | world w _ ih => exact .world w ih
  | skipped fuel _ hcycle _ _ ih => exact .cycle fuel ih hcycle
  | unseen fuel _ hcycle _ _ ih => exact .cycle fuel ih hcycle

/-! ### The failed attempt -/

/-- The state in which a cycle calls `addMachine` for `m`. -/
theorem untilAttempt_eq_some {machine : BrowseResult} {s₁ : ObserverState ω}
    (h : (untilAttempt o fuel m).run s = (.ok (some machine), s₁)) :
    ∃ l found s₀, (untilRound o fuel m).run s = (.ok (some (l, found)), s₀) ∧
      m ∈ found.newMachines ∧
      (ignoreInvalidMachinesTemporarily m : ObserverM ω Bool).run s₀ = (.ok false, s₁) ∧
      machine = ((machineMap l)[m]?).getD default := by
  obtain ⟨r, s₀, hround, h⟩ := Prog.run_bind_eq_ok.mp h
  cases r with
  | none => cases h
  | some result =>
    obtain ⟨l, found⟩ := result
    dsimp only at h
    split_ifs at h with hm
    · obtain ⟨skipped, s₂, hskip, h⟩ := Prog.run_bind_eq_ok.mp h
      cases skipped with
      | true => cases h
      | false =>
        cases h
        exact ⟨l, found, s₀, hround, hm, hskip, rfl⟩
    · cases h

/-- A machine that is not skipped has no entry any more. -/
theorem entry_of_notSkipped
    (h : (ignoreInvalidMachinesTemporarily m : ObserverM ω Bool).run s = (.ok false, s')) :
    s'.tables.invalidMachines[m]? = none := by
  by_cases hcount : ∀ count error, s.tables.invalidMachines[m]? = some (count, error) → count ≤ 1
  · obtain ⟨s₁, hrun, hentry, -⟩ := run_ignoreInvalidMachinesTemporarily_of_tried hcount
    rw [hrun] at h
    cases h
    exact hentry
  · push Not at hcount
    obtain ⟨count, error, hentry, hlt⟩ := hcount
    rw [run_ignoreInvalidMachinesTemporarily_of_skipped hentry hlt] at h
    cases h

/-- **A failed attempt** leaves the machine to be skipped: from the end of `addMachine` to the
end of the cycle its counter is full, with the message of the exception. -/
theorem AttemptFails.entry (h : o.AttemptFails fuel s m what s') :
    (o.cycle fuel s).2.tables.invalidMachines[m]? = some (numSkipAfterInvalid, what) ∧
      ∃ ts, (o.cycle fuel s).2.history = s'.history ++ ts ∧
        ∀ t ∈ ts, t.invalidMachines[m]? = some (numSkipAfterInvalid, what) := by
  obtain ⟨machine, s₁, ex, hattempt, hadd, hex, rfl⟩ := h
  obtain ⟨l, found, s₀, hround, hm, hskip, rfl⟩ := untilAttempt_eq_some hattempt
  have hawaits := leaves_untilRound (o := o) fuel m s
  rw [Prog.Leaves, Prog.ends_iff_run, hround] at hawaits
  obtain ⟨-, hmachine⟩ := hawaits.2 _ rfl
  -- the entry is full once the machine is blamed, and no other round changes it
  have hnone : s'.tables.invalidMachines[m]? = none := by
    have hspared := Spared.keeps_addMachine (o := o) fuel (((machineMap l)[m]?).getD default)
      (m := m) (E := fun _ => False) (s := s₁) (.refl _)
    rw [Prog.Leaves, Prog.ends_iff_run, hadd] at hspared
    have hnone₁ : s₁.tables.invalidMachines[m]? = none := entry_of_notSkipped hskip
    exact hspared.1.entry.trans hnone₁
  have hblamed : (s'.put (s'.tables.blame m ex.what)).tables.invalidMachines[m]? =
      some (numSkipAfterInvalid, ex.what) := by
    have hnotin : m ∉ s'.tables.invalidMachines := by simpa using hnone
    rw [ObserverState.tables_put, ObserverTables.blame, Std.ExtTreeMap.getElem?_insertIfNew,
      if_pos ⟨Std.ReflCmp.compare_self, hnotin⟩]
  obtain ⟨rest, hrest, hnotin⟩ := dropWhile_of_mem found.newMachines.nodup_toList
    (Std.ExtTreeSet.mem_toList.mpr hm)
  have hlater := leaves_laterRounds (o := o) (m := m) (s := s'.put (s'.tables.blame m ex.what))
    l found fuel (fun n hn heq => hnotin (heq ▸ hn))
    (fun n hn => hmachine n (Std.ExtTreeSet.mem_toList.mp (List.dropWhile_subset _
      (hrest ▸ List.mem_cons_of_mem m hn)))) _ (.refl _)
  suffices hends : (updateMachines o fuel).Ends s.forget fun _ s₂ =>
      s₂.tables.invalidMachines[m]? = some (numSkipAfterInvalid, ex.what) ∧
        ∃ ts, s₂.history = s'.history ++ ts ∧
          ∀ t ∈ ts, t.invalidMachines[m]? = some (numSkipAfterInvalid, ex.what) from hends
  rw [updateMachines_eq o fuel m, Prog.ends_bind, Prog.ends_iff_run, hround]
  dsimp only
  rw [Outcome.follow_ok, fromRound, hrest, Prog.forEach_cons, bind_assoc, Prog.ends_bind,
    addUnlessIgnored, Prog.ends_bind, Prog.ends_iff_run, hskip]
  dsimp only
  rw [Outcome.follow_ok, if_neg Bool.false_ne_true, Prog.ends_iff_run,
    run_addNewMachine_of_invalid hadd hex, hmachine m hm]
  dsimp only
  rw [Outcome.follow_ok]
  refine Prog.Ends.mono hlater fun out s₂ h => ⟨h.1.entry.trans hblamed, ?_⟩
  obtain ⟨ts, hts, htrace⟩ := h.1.history
  refine ⟨s'.tables.blame m ex.what :: ts, ?_, fun t ht => ?_⟩
  · rw [hts, ObserverState.put, List.append_assoc]
    rfl
  · rcases List.mem_cons.mp ht with rfl | ht
    · exact hblamed
    · exact (htrace t ht).trans hblamed

/-! ### The schedule -/

/-- A machine with an entry is counted down by every cycle. -/
theorem counts_of_cycle {count : Int} {out : Outcome Exception Unit} (hs : o.Reachable s)
    (hentry : s.tables.invalidMachines[m]? = some (count, what))
    (hcycle : o.cycle fuel s = (out, s')) : Counts m count what out s' := by
  have hunknown : m ∉ s.tables.knownMachines := fun hmem =>
    (coherent_of_reachable hs).known_valid m hmem (NodeMap.mem_of_getElem? hentry)
  have hcounts := counts_cycle (o := o) fuel hentry hunknown
  rwa [hcycle] at hcounts

/-- **The countdown of a waiting machine**: its counter has gone down by one for each cycle
in which it was listed and online, and is still positive. -/
theorem Waits.entry {k : ℕ} (hs : o.Reachable s)
    (hentry : s.tables.invalidMachines[m]? = some (numSkipAfterInvalid, what))
    (h : o.Waits m s k s') :
    s'.tables.invalidMachines[m]? = some (numSkipAfterInvalid - k, what) ∧
      (k : Int) < numSkipAfterInvalid := by
  induction h with
  | start => exact ⟨by simpa using hentry, by decide⟩
  | world w _ ih => exact ih
  | skipped fuel h hcycle hadding honline ih =>
    obtain ⟨hcount, hentry'⟩ :=
      (counts_of_cycle (h.reachable hs) ih.1 hcycle).skipped rfl honline hadding
    refine ⟨?_, by push_cast; omega⟩
    rw [hentry']
    congr 2
    push_cast
    omega
  | unseen fuel h hcycle hadding honline ih =>
    exact ⟨(counts_of_cycle (h.reachable hs) ih.1 hcycle).unseen rfl honline, ih.2⟩

/-- **The retry schedule of invalid machines.** In every run in which an attempt to add `m` ends
in a `MachineInvalidException`, and for every later point of the run before the next attempt: the
machine is to be skipped with the message of the exception, and has been ever since, at every
point of every cycle; the next cycle calls `addMachine` for it only if exactly
`numSkipAfterInvalid - 1` cycles have found it listed and online in the meantime, and a cycle
that returns does so if it is listed and online again. -/
theorem retry_schedule {s₀ : ObserverState ω} (hs : o.Reachable s)
    (hfails : o.AttemptFails fuel s m what s') (hcycle : o.cycle fuel s = (.ok (), s₀)) :
    (∃ ts, s₀.history = s'.history ++ ts ∧ ∀ t ∈ ts, SkippedWith m what t) ∧
    ∀ k s₁, o.Waits m s₀ k s₁ → SkippedWith m what s₁.tables ∧
      ∀ fuel₁ out s₂, o.cycle fuel₁ s₁ = (out, s₂) →
        (.adding m ∉ s₂.events → ∀ t ∈ s₂.history, SkippedWith m what t) ∧
        (∀ t ∈ ((untilRound o fuel₁ m).run s₁.forget).2.history, SkippedWith m what t) ∧
        (.adding m ∈ s₂.events → Online s₂ m ∧ (k : Int) = numSkipAfterInvalid - 1) ∧
        (out = .ok () → Online s₂ m → (k : Int) = numSkipAfterInvalid - 1 →
          .adding m ∈ s₂.events) := by
  have hblamed := hfails.entry
  rw [hcycle] at hblamed
  obtain ⟨hentry, ts, hts, htrace⟩ := hblamed
  refine ⟨⟨ts, hts, fun t ht => ⟨_, htrace t ht⟩⟩, fun k s₁ hwaits => ?_⟩
  have hs₀ : o.Reachable s₀ := .cycle fuel hs hcycle
  obtain ⟨hentry₁, hk⟩ := hwaits.entry hs₀ hentry
  refine ⟨⟨_, hentry₁⟩, fun fuel₁ out s₂ hcycle₁ => ?_⟩
  have hcounts := counts_of_cycle (hwaits.reachable hs₀) hentry₁ hcycle₁
  refine ⟨hcounts.kept, fun t ht => ?_, fun hadding => ?_, fun hok hon hlast => ?_⟩
  · -- up to the round of the machine nothing is written to its entry
    obtain ⟨us, hus, htrace₁⟩ := (leaves_untilRound (o := o) fuel₁ m s₁).1.history
    have hus' : ((untilRound o fuel₁ m).run s₁.forget).2.history = us := hus
    exact ⟨_, (htrace₁ t (hus' ▸ ht)).trans hentry₁⟩
  · obtain ⟨hcount, hon⟩ := hcounts.attempted hadding
    exact ⟨hon, by omega⟩
  · by_contra hadding
    have := (hcounts.skipped hok hon hadding).1
    omega

/-! ### A plant with an invalid machine -/

/-- The plant with a mandatory counter that the server does not find below any machine. -/
def invalidPlant : Observer (List String) where
  client := { plantClient with
    translateBrowsePathToNodeId := fun _ _ w => (.error (.opcUa "BadNoMatch"), w)
    subscribe_nodeId := plantClient_subscribe_nodeId }
  reader := countingPlant.reader
  machinesFilter := ∅
  topics := ⟨"umati/v2", "plant"⟩

/-- The invalid plant after its first cycle. -/
def invalidPlantRunning : ObserverState (List String) :=
  (invalidPlant.cycle 3 (invalidPlant.start ["m1"])).2

private theorem invalidPlant_attemptFails :
    ∃ s', invalidPlant.AttemptFails 3 (invalidPlant.start ["m1"]) (plantMachine "m1")
      "In 'nsu=urn:plant;m1'->'nsu=urn:plant;Counter':\nBadNoMatch" s' := by
  refine ⟨_, ⟨.object, plantMachine "m1", plantMachineType, WellKnown.hasComponent,
    ⟨plantUri, "m1"⟩⟩, _, .machineInvalid
      "In 'nsu=urn:plant;m1'->'nsu=urn:plant;Counter':\nBadNoMatch", Prod.ext ?_ rfl,
    Prod.ext ?_ rfl, rfl, rfl⟩
  · decide +kernel
  · decide +kernel

theorem retry_schedule_invalidPlant :
    SkippedWith (plantMachine "m1") "In 'nsu=urn:plant;m1'->'nsu=urn:plant;Counter':\nBadNoMatch"
        invalidPlantRunning.tables ∧
      .adding (plantMachine "m1") ∉ (invalidPlant.cycle 3 invalidPlantRunning).2.events := by
  obtain ⟨s', hfails⟩ := invalidPlant_attemptFails
  have hcycle : invalidPlant.cycle 3 (invalidPlant.start ["m1"]) =
      (.ok (), invalidPlantRunning) := by
    unfold invalidPlantRunning
    exact cycle_eq_of_fst _ (by decide +kernel)
  obtain ⟨hskipped, hnext⟩ :=
    (retry_schedule (.start ["m1"]) hfails hcycle).2 0 invalidPlantRunning .start
  refine ⟨hskipped, fun hadding => ?_⟩
  have hlast := ((hnext 3 _ _ rfl).2.2.1 hadding).2
  revert hlast
  decide

end Observer

end UmatiDashboard
