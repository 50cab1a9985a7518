import UmatiDashboard.MachineObserver.ErrorList
import UmatiDashboard.MachineObserver.Ownership

/-!
# How long a machine is left out

A machine that is online and that no cycle rejects is shown after a bounded number of cycles,
whatever happened to it before. What delays it is the counter of an earlier rejection, which each
cycle in which it is online counts down, and that it is dropped when the browsed list changes, which
never happens twice in a row (`shown_within`).
-/

namespace UmatiDashboard

namespace Observer

variable {ω : Type} {o : Observer ω} {s s' : ObserverState ω} {t t' : ObserverTables}

/-! ### The entry of one machine -/

/-- A round writes to the entry of its own machine only. -/
theorem AddStep.entry_of_ne {machine : BrowseResult} (h : o.AddStep machine t t') {n : NodeId}
    (hn : n ≠ machine.nodeId) : t'.invalidMachines[n]? = t.invalidMachines[n]? := by
  have hn' := Ne.symm hn
  cases h with
  | skipped => simp [ObserverTables.setCount, Std.ExtTreeMap.getElem?_insert, hn']
  | tried _ h =>
    cases h with
    | ignored => simp [ObserverTables.knowMachine, ObserverTables.forgive,
        Std.ExtTreeMap.getElem?_erase, hn']
    | shown => simp [ObserverTables.knowMachine, ObserverTables.showMachine,
        ObserverTables.forgive, Std.ExtTreeMap.getElem?_erase, hn']
    | invalid => simp [ObserverTables.blame, ObserverTables.forgive,
        Std.ExtTreeMap.getElem?_insertIfNew, Std.ExtTreeMap.getElem?_erase, hn']

/-- What a round makes of the entry of its machine: it counts it down, removes it or writes it
anew. -/
def RoundOf (before after : Option (Int × String)) : Prop :=
  (∃ count error, 1 < count ∧ before = some (count, error) ∧ after = some (count - 1, error)) ∨
    after = none ∨ ∃ error, after = some (numSkipAfterInvalid, error)

theorem AddStep.roundOf {machine : BrowseResult} (h : o.AddStep machine t t') :
    RoundOf t.invalidMachines[machine.nodeId]? t'.invalidMachines[machine.nodeId]? := by
  cases h with
  | skipped count error hcount hentry =>
    exact .inl ⟨count, error, hcount, hentry, by simp [ObserverTables.setCount]⟩
  | tried _ h =>
    cases h with
    | ignored => exact .inr (.inl (by simp [ObserverTables.knowMachine, ObserverTables.forgive]))
    | shown => exact .inr (.inl (by simp [ObserverTables.knowMachine, ObserverTables.showMachine,
        ObserverTables.forgive]))
    | invalid error =>
      refine .inr (.inr ⟨error, ?_⟩)
      rw [ObserverTables.blame, Std.ExtTreeMap.getElem?_insertIfNew,
        if_pos ⟨Std.ReflCmp.compare_self, by simp [ObserverTables.forgive]⟩]

theorem AddSteps.entry_of_notMem {ms : List BrowseResult} (h : o.AddSteps ms t t') {n : NodeId}
    (hn : n ∉ ms.map BrowseResult.nodeId) : t'.invalidMachines[n]? = t.invalidMachines[n]? := by
  induction h with
  | nil => rfl
  | cons first _ ih =>
    rw [List.map_cons, List.mem_cons, not_or] at hn
    exact (ih hn.2).trans (first.entry_of_ne hn.1)

theorem AddSteps.roundOf {ms : List BrowseResult} (h : o.AddSteps ms t t')
    (hnodup : (ms.map BrowseResult.nodeId).Nodup) {n : NodeId}
    (hn : n ∈ ms.map BrowseResult.nodeId) :
    RoundOf t.invalidMachines[n]? t'.invalidMachines[n]? := by
  induction h with
  | nil => cases hn
  | @cons machine ms t t₁ t₂ first rest ih =>
    obtain ⟨hnotin, hnodup'⟩ := List.nodup_cons.mp hnodup
    rcases List.mem_cons.mp hn with rfl | hn
    · rw [rest.entry_of_notMem hnotin]
      exact first.roundOf
    · have hne : n ≠ machine.nodeId := fun heq => hnotin (heq ▸ hn)
      rw [← first.entry_of_ne hne]
      exact ih hnodup' hn

/-- **What a cycle makes of the entry of a machine**: it has a round if it is online and was not
known, and nothing happens to the entry otherwise. -/
theorem CycleResult.entry {C : NodeId → Prop} (h : o.CycleResult C s s') (n : NodeId) :
    (Online s' n ∧ n ∉ s.tables.knownMachines ∧
        RoundOf s.tables.invalidMachines[n]? s'.tables.invalidMachines[n]?) ∨
      ((Online s' n → n ∈ s.tables.knownMachines) ∧
        s'.tables.invalidMachines[n]? = s.tables.invalidMachines[n]?) := by
  cases h with
  | failed parents entered htables hevents =>
    refine .inr ⟨fun honline => ?_, by rw [htables]; rfl⟩
    rw [Online, hevents] at honline
    simp at honline
  | done parents entered added l ms checks found t hnodup hmachine hchecks hfound hnew hadd htables
      hadded hevents =>
    have honline : Online s' n ↔ (n, true) ∈ checks := by
      rw [Online, hevents]
      simp [checkedEvent]
    have hms : (ms.map BrowseResult.nodeId).Nodup := by
      rw [hnew]
      exact found.newMachines.nodup_toList
    have hmem : n ∈ ms.map BrowseResult.nodeId ↔ n ∉ s.tables.knownMachines ∧ Online s' n := by
      rw [hnew, Std.ExtTreeSet.mem_toList, hfound.new, mem_knownNodeIds, honline]
    have hstart : (((s.tables.withParents parents).relist l).removeAll
        found.toBeRemovedMachines.toList).invalidMachines = s.tables.invalidMachines := by
      rw [(ObserverTables.removeAll_frame _ _).2.2.2.1, invalidMachines_relist]
    rw [htables, ← hstart]
    by_cases hn : n ∈ ms.map BrowseResult.nodeId
    · obtain ⟨hunknown, hon⟩ := hmem.mp hn
      exact .inl ⟨hon, hunknown, hadd.roundOf hms hn⟩
    · refine .inr ⟨fun hon => ?_, hadd.entry_of_notMem hn⟩
      by_contra hunknown
      exact hn (hmem.mpr ⟨hunknown, hon⟩)

/-! ### Runs in which a machine is not rejected -/

/-- The machine has just been rejected: its counter is full. -/
def Rejected (s' : ObserverState ω) (m : NodeId) : Prop :=
  (s'.tables.invalidMachines[m]?).map Prod.fst = some numSkipAfterInvalid

variable (o) in
/-- A run with `k` cycles in which the machine was online, and none of them has rejected it. The
other cycles do what they do. -/
inductive Unrejected (m : NodeId) : ℕ → ObserverState ω → Prop where
  | start {s : ObserverState ω} : o.Reachable s → Unrejected m 0 s
  | world {k : ℕ} {s : ObserverState ω} (w : Recorded ω) :
      Unrejected m k s → Unrejected m k (s.withWorld w)
  | online {k : ℕ} {s s' : ObserverState ω} (fuel : ℕ) : Unrejected m k s →
      o.cycle fuel s = (.ok (), s') → Online s' m → ¬ Rejected s' m → Unrejected m (k + 1) s'
  | other {k : ℕ} {s s' : ObserverState ω} (fuel : ℕ) : Unrejected m k s →
      o.cycle fuel s = (.ok (), s') → ¬ Online s' m → Unrejected m k s'

theorem Unrejected.reachable {m : NodeId} {k : ℕ} (h : o.Unrejected m k s) : o.Reachable s := by
  induction h with
  | start hs => exact hs
  | world w _ ih => exact .world w ih
  | online fuel _ hcycle _ _ ih => exact .cycle fuel ih hcycle
  | other fuel _ hcycle _ ih => exact .cycle fuel ih hcycle

/-- The counter of the machine, if it has one, has been counted down `k` times. -/
def CountedDown (m : NodeId) (k : ℕ) (t : ObserverTables) : Prop :=
  ∀ count error, t.invalidMachines[m]? = some (count, error) → count + k ≤ numSkipAfterInvalid

theorem cycleResult_of_reachable (hs : o.Reachable s) {fuel : ℕ}
    (hcycle : o.cycle fuel s = (.ok (), s')) : o.CycleResult (fun _ => True) s s' := by
  have hcoh := coherent_of_reachable hs
  exact (cycle_cases (shownValid_cycleFrame o) browsesOnly_true hcoh hcoh.shownValid hcycle).2

/-- A cycle in which the machine is online and not rejected counts once more. -/
theorem CountedDown.online {m : NodeId} {k : ℕ} (h : CountedDown m k s.tables)
    (hs : o.Reachable s) {fuel : ℕ} (hcycle : o.cycle fuel s = (.ok (), s')) (honline : Online s' m)
    (hnot : ¬ Rejected s' m) : CountedDown m (k + 1) s'.tables := by
  intro count error hentry
  rcases (cycleResult_of_reachable hs hcycle).entry m with ⟨-, -, hround⟩ | ⟨hknown, hsame⟩
  · rcases hround with ⟨count', error', -, hbefore, hafter⟩ | hnone | ⟨error', hafter⟩
    · rw [hafter] at hentry
      cases hentry
      have := h count' error hbefore
      push_cast
      omega
    · rw [hnone] at hentry
      cases hentry
    · exact absurd (by rw [Rejected, hafter]; rfl) hnot
  · -- a machine that was known has no entry
    have hvalid := (coherent_of_reachable hs).known_valid m (hknown honline)
    rw [hsame] at hentry
    exact absurd (NodeMap.mem_of_getElem? hentry) hvalid

theorem Unrejected.countedDown {m : NodeId} {k : ℕ} (h : o.Unrejected m k s) :
    CountedDown m k s.tables := by
  induction h with
  | start hs =>
    intro count error hentry
    have := (coherent_of_reachable hs).counted m count error hentry
    simpa using this.2
  | world w _ ih => exact ih
  | online fuel h hcycle honline hnot ih => exact ih.online h.reachable hcycle honline hnot
  | other fuel h hcycle hoffline ih =>
    intro count error hentry
    rcases (cycleResult_of_reachable h.reachable hcycle).entry m with ⟨honline, -⟩ | ⟨-, hsame⟩
    · exact absurd honline hoffline
    · rw [hsame] at hentry
      exact ih count error hentry

/-- **A machine is not left out for long.** In every run, after `k` cycles that found the machine
online and did not reject it, among any others: the next such cycle shows it, unless it drops it or
an older rejection still counts, which it does for `numSkipAfterInvalid` of these cycles at most. A
machine that is dropped is not dropped by the next cycle. -/
theorem shown_within {m : NodeId} (hign : isIgnored m = false) {k : ℕ} (h : o.Unrejected m k s)
    {fuel : ℕ} (hcycle : o.cycle fuel s = (.ok (), s')) {l : List BrowseResult}
    (hl : .browsed l ∈ s'.events) (honline : Online s' m) (hnot : ¬ Rejected s' m) :
    (m ∈ s'.tables.invalidMachines → (k : ℤ) + 1 < numSkipAfterInvalid) ∧
      (m ∉ s'.tables.invalidMachines → (Listed s'.tables m ↔ ¬ Dropped s.tables l m)) ∧
      (Dropped s.tables l m → ∀ l', ¬ Dropped s'.tables l' m) := by
  have hs := h.reachable
  have hs' : o.Reachable s' := .cycle fuel hs hcycle
  have hcoh' := coherent_of_reachable hs'
  have hcache := (publishesWell_of_visible ⟨s', hs', .inl rfl⟩).2
  obtain ⟨hcached, hstanding⟩ :=
    (cycleResult_of_reachable hs hcycle).accounted (coherent_of_reachable hs) hl
  refine ⟨fun hinvalid => ?_, fun hvalid => ?_, fun hdropped l' h => ?_⟩
  · obtain ⟨⟨count, error⟩, hentry⟩ := Option.isSome_iff_exists.mp
      (Std.ExtTreeMap.isSome_getElem?_iff_mem.mpr hinvalid)
    have hcount := h.countedDown.online hs hcycle honline hnot count error hentry
    have hpositive := (hcoh'.counted m count error hentry).1
    push_cast at hcount
    omega
  · rw [← hstanding m honline, listed_iff hcache, hcached, and_iff_left honline, or_iff_left hvalid]
    exact ⟨hcoh'.online_known m, fun hknown => hcoh'.known_shown m hknown hign⟩
  · exact (hstanding m honline).mp (.inl h.1) hdropped

/-! ### A machine that is repaired -/

/-- The states of a plant with the machine `m1`: the server does not find its counter, does not
read its values, answers everything, or has got another machine. -/
inductive PlantState where
  | broken
  | silent
  | sound
  | joined
  deriving DecidableEq

def PlantState.machines : PlantState → List String
  | .joined => ["m1", "m2"]
  | _ => ["m1"]

def repairedClient : IDashboardDataClient PlantState where
  browse n ctx w := ((plantClient.browse n ctx w.machines).1, w)
  browseWithResultTypeFilter n ctx t w :=
    ((plantClient.browseWithResultTypeFilter n ctx t w.machines).1, w)
  translateBrowsePathToNodeId n q w :=
    (if w = .broken then .error (.opcUa "BadNoMatch") else .ok ⟨n.uri, n.id ++ "." ++ q.name⟩, w)
  isSameOrSubtype expected checked _ w := (expected.equals checked, w)
  subscribe _ _ w := (.ok none, w)
  unsubscribe _ _ w := w
  readeNodeValues ns w :=
    (if w = .silent then .error (.opcUa "BadTimeout") else .ok (ns.map fun n => .string n.id), w)
  subscribe_nodeId := by simp

def repairedPlant : Observer PlantState where
  client := repairedClient
  reader := countingPlant.reader
  machinesFilter := ∅
  topics := ⟨"umati/v2", "plant"⟩

/-- The next cycle, in a state of the plant. -/
def repairedCycle (w : PlantState) (s : ObserverState PlantState) :
    Outcome Exception Unit × ObserverState PlantState :=
  repairedPlant.cycle 3 (s.withWorld ⟨w, []⟩)

/-- The machine is rejected. -/
def rejectedState : ObserverState PlantState :=
  (repairedCycle .broken (repairedPlant.start .broken)).2

/-- Afterwards it is offline. -/
def silentState : ObserverState PlantState := (repairedCycle .silent rejectedState).2

/-- Afterwards it answers for a number of cycles. -/
def repairedState : ℕ → ObserverState PlantState
  | 0 => silentState
  | k + 1 => (repairedCycle .sound (repairedState k)).2

/-- After ten of them another machine is listed, which drops it. -/
def joinedState : ObserverState PlantState := (repairedCycle .joined (repairedState 10)).2

/-- The cycle after that. -/
def rejoinedState : ObserverState PlantState := (repairedCycle .joined joinedState).2

theorem rejected_repairedCycle :
    (repairedCycle .broken (repairedPlant.start .broken)).1 = .ok () ∧
      Rejected rejectedState (plantMachine "m1") ∧
      (repairedCycle .silent rejectedState).1 = .ok () ∧
      ¬ Online silentState (plantMachine "m1") := by
  unfold Rejected Online
  decide +kernel

theorem online_repairedCycle : ∀ k < 10,
    (repairedCycle .sound (repairedState k)).1 = .ok () ∧
      Online (repairedState (k + 1)) (plantMachine "m1") ∧
      ¬ Rejected (repairedState (k + 1)) (plantMachine "m1") := by
  unfold Rejected Online
  decide +kernel

theorem joined_repairedCycle :
    (repairedCycle .joined (repairedState 10)).1 = .ok () ∧
      Online joinedState (plantMachine "m1") ∧ ¬ Rejected joinedState (plantMachine "m1") ∧
      Dropped (repairedState 10).tables (plantListing ["m1", "m2"]) (plantMachine "m1") := by
  unfold Rejected Online Dropped
  decide +kernel

theorem unrejected_repairedState {k : ℕ} (hk : k ≤ 10) :
    repairedPlant.Unrejected (plantMachine "m1") k (repairedState k) := by
  induction k with
  | zero =>
    obtain ⟨hbroken, -, hsilent, hoffline⟩ := rejected_repairedCycle
    have hrejected : repairedPlant.Reachable rejectedState :=
      .cycle 3 (.world _ (.start .broken)) (cycle_eq_of_fst _ hbroken)
    exact .other 3 (.world _ (.start hrejected)) (cycle_eq_of_fst _ hsilent) hoffline
  | succ k ih =>
    obtain ⟨hok, honline, hnot⟩ := online_repairedCycle k (by omega)
    exact .online 3 (.world _ (ih (by omega))) (cycle_eq_of_fst _ hok) honline hnot

/-- A machine that was rejected and then offline is shown after ten cycles in which it was online.
It is dropped when another machine is listed, and shown by the cycle after that. -/
theorem shown_within_repaired :
    Listed (repairedState 10).tables (plantMachine "m1") ∧
      ¬ Listed joinedState.tables (plantMachine "m1") ∧
      Listed rejoinedState.tables (plantMachine "m1") := by
  have hign : isIgnored (plantMachine "m1") = false := by decide +kernel
  have hbound : ¬ ((9 : ℕ) : ℤ) + 1 < numSkipAfterInvalid := by decide
  have hrun := unrejected_repairedState (le_refl 10)
  obtain ⟨hok, honline, hnot⟩ := online_repairedCycle 9 (by decide)
  obtain ⟨hjoin, hjoined, hstays, hdropped⟩ := joined_repairedCycle
  have hlast : repairedPlant.cycle 3 ((repairedState 9).withWorld ⟨.sound, []⟩) =
      (.ok (), repairedState 10) := cycle_eq_of_fst _ hok
  have hjoinedCycle : repairedPlant.cycle 3 ((repairedState 10).withWorld ⟨.joined, []⟩) =
      (.ok (), joinedState) := cycle_eq_of_fst _ hjoin
  have hrejoinedCycle : repairedPlant.cycle 3 (joinedState.withWorld ⟨.joined, []⟩) =
      (.ok (), rejoinedState) := cycle_eq_of_fst _ (by decide +kernel)
  have hlisted := shown_within hign (.world _ (unrejected_repairedState (by decide))) hlast
    (l := plantListing ["m1"]) (by decide +kernel) honline hnot
  have hdrops := shown_within hign (.world _ hrun) hjoinedCycle (l := plantListing ["m1", "m2"])
    (by decide +kernel) hjoined hstays
  rw [ObserverState.tables_withWorld] at hdrops
  have hshown := shown_within hign
    (.world _ (.online 3 (.world _ hrun) hjoinedCycle hjoined hstays)) hrejoinedCycle
    (l := plantListing ["m1", "m2"]) (by decide +kernel)
    (by unfold Online; decide +kernel) (by unfold Rejected; decide +kernel)
  refine ⟨?_, ?_, ?_⟩
  · exact (hlisted.2.1 fun h => hbound (hlisted.1 h)).mpr (by unfold Dropped; decide +kernel)
  · exact fun h => (hdrops.2.1 (by decide +kernel)).mp h hdropped
  · rw [ObserverState.tables_withWorld] at hshown
    exact (hshown.2.1 (by decide +kernel)).mpr (hdrops.2.2 hdropped _)

end Observer

end UmatiDashboard
