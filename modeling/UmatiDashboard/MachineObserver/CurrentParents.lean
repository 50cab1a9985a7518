import UmatiDashboard.MachineObserver.ParentsFound

/-!
# Parents that are current

`addMachine` records a machine with the entry that the table of parents has for it. The table is
filled by the searches with `insert` and is never cleared, so the entry is that of the first search
which has ever found the machine. In a run it is a parent under which the machine was found in the
cycle that records it exactly if no entry from before that cycle is out of date
(`parents_current_iff`).
-/

namespace UmatiDashboard

namespace ObserverTables

variable {t : ObserverTables} {n : NodeId} {info : MachineInformation}

theorem onlineMachines_of_removeAll {ns : List NodeId}
    (h : (t.removeAll ns).onlineMachines[n]? = some info) : t.onlineMachines[n]? = some info := by
  rw [getElem?_removeAll t ns fun _ _ => rfl] at h
  split_ifs at h
  exact h

theorem onlineMachines_of_relist {l : List BrowseResult}
    (h : (t.relist l).onlineMachines[n]? = some info) : t.onlineMachines[n]? = some info := by
  unfold relist at h
  split_ifs at h
  · exact h
  · exact onlineMachines_of_removeAll h

theorem parentOfMachine_relist (l : List BrowseResult) :
    (t.relist l).parentOfMachine = t.parentOfMachine := by
  unfold relist
  split_ifs
  · rfl
  · exact (t.removeAll_frame _).2.1

end ObserverTables

namespace Observer

variable {ω : Type} {o : Observer ω} {s s' : ObserverState ω} {n : NodeId}
  {info : MachineInformation}

/-! ### What a cycle records -/

/-- A machine that a round shows is recorded with its entry in the table of parents. -/
theorem AddStep.online {machine : BrowseResult} {t t' : ObserverTables}
    (h : o.AddStep machine t t') :
    t'.parentOfMachine = t.parentOfMachine ∧
      ∀ (n : NodeId) info, t'.onlineMachines[n]? = some info → t.onlineMachines[n]? = some info ∨
        (n = machine.nodeId ∧ info.parent = (t.parentOfMachine[n]?).getD ⟨"", ""⟩) := by
  cases h with
  | skipped => exact ⟨rfl, fun _ _ h => Or.inl h⟩
  | tried _ h =>
    cases h with
    | ignored => exact ⟨rfl, fun _ _ h => Or.inl h⟩
    | invalid => exact ⟨rfl, fun _ _ h => Or.inl h⟩
    | shown c ref hign href =>
      refine ⟨rfl, fun n info h => ?_⟩
      simp only [ObserverTables.knowMachine, ObserverTables.showMachine, ObserverTables.forgive,
        Std.ExtTreeMap.getElem?_insertIfNew] at h
      split_ifs at h with hnew
      · obtain rfl := Std.LawfulEqOrd.eq_of_compare hnew.1
        obtain rfl := Option.some.inj h
        exact Or.inr ⟨rfl, rfl⟩
      · exact Or.inl h

theorem AddSteps.online {ms : List BrowseResult} {t t' : ObserverTables}
    (h : o.AddSteps ms t t') :
    t'.parentOfMachine = t.parentOfMachine ∧
      ∀ (n : NodeId) info, t'.onlineMachines[n]? = some info → t.onlineMachines[n]? = some info ∨
        (n ∈ ms.map BrowseResult.nodeId ∧
          info.parent = (t.parentOfMachine[n]?).getD ⟨"", ""⟩) := by
  induction h with
  | nil => exact ⟨rfl, fun _ _ h => Or.inl h⟩
  | cons first _ ih =>
    obtain ⟨hparents, honline⟩ := first.online
    obtain ⟨hparents', honline'⟩ := ih
    refine ⟨hparents'.trans hparents, fun n info h => ?_⟩
    rcases honline' n info h with h | ⟨hn, hparent⟩
    · exact (honline n info h).imp_right fun ⟨hn, hparent⟩ => ⟨by simp [hn], hparent⟩
    · rw [hparents] at hparent
      exact Or.inr ⟨List.mem_cons_of_mem _ hn, hparent⟩

/-- The search of a cycle that goes on with a list. -/
theorem run_canBrowseMachineList_eq_some {fuel : ℕ} {l : List BrowseResult}
    (h : (canBrowseMachineList o fuel).run s = (.ok (some l), s')) :
    (browseForMachines o fuel WellKnown.machinesFolder WellKnown.machinesFolder
      (configuredFilter o)).run s = (.ok l, s') := by
  rw [canBrowseMachineList, Prog.run_catching, Prog.run_map] at h
  rcases hsearch : (browseForMachines o fuel WellKnown.machinesFolder WellKnown.machinesFolder
    (configuredFilter o)).run s with ⟨found | e | w, s₁⟩
  · rw [hsearch] at h
    cases h
    rfl
  · rw [hsearch] at h
    dsimp only at h
    split_ifs at h <;> cases h
  · rw [hsearch] at h
    cases h

/-- The search of a cycle, with the parents of the machines it finds. -/
def Finds (o : Observer ω) (s : ObserverState ω) (fuel : ℕ)
    (found : List (BrowseResult × NodeId)) (s₁ : ObserverState ω) : Prop :=
  (browseForMachinesUnder o fuel WellKnown.machinesFolder WellKnown.machinesFolder
    (configuredFilter o)).run s.forget = (.ok found, s₁)

/-- **A machine that is shown after a cycle** was shown before, or has been recorded with its entry
in the table of parents after the search. -/
theorem cycle_online (hs : CoherentTables s.tables) {fuel : ℕ}
    (hcycle : o.cycle fuel s = (.ok (), s')) (h : s'.tables.onlineMachines[n]? = some info) :
    s.tables.onlineMachines[n]? = some info ∨
      (n ∉ s.tables.onlineMachines ∧ ∃ found s₁, o.Finds s fuel found s₁ ∧
        info.parent = (s₁.tables.parentOfMachine[n]?).getD ⟨"", ""⟩) := by
  have hP := shownValid_cycleFrame o
  have hs₀ : Stands ShownValid s.forget := ⟨hs.shownValid, fun t h => by cases h⟩
  obtain ⟨t, _, ht, hrun⟩ := Prog.run_bind_eq_ok.mp hcycle
  cases ht
  obtain ⟨r, s₁, hsearch, hrest⟩ := Prog.run_bind_eq_ok.mp hrun
  have hleaves := leaves_canBrowseMachineList o hP.toPhaseFrame browsesOnly_true hs₀ fuel
  rw [Prog.Leaves, Prog.ends_iff_run, hsearch] at hleaves
  obtain ⟨hs₁, -, ⟨parents, ht₁⟩, hmachines⟩ := hleaves.2 r rfl
  rw [ObserverState.tables_forget] at ht₁
  -- a cycle whose search fails shows the same machines
  cases r with
  | none =>
    cases hrest
    rw [ht₁] at h
    exact Or.inl h
  | some l =>
    have hl := run_canBrowseMachineList_eq_some hsearch
    rw [← map_browseForMachinesUnder, Prog.run_map_eq_ok] at hl
    obtain ⟨found, hfound, -⟩ := hl
    have hknown : knownNodeIds s.forget.tables = knownNodeIds s₁.tables := by rw [ht₁]; rfl
    have hshown : ∀ n, n ∉ s₁.tables.knownMachines →
        n ∉ s₁.tables.dashboardClients ∧ n ∉ s₁.tables.onlineMachines := by
      rw [ht₁]
      exact fun n hn => hs.unshown hn
    dsimp only at hrest
    rw [hknown, processMachineList_eq] at hrest
    obtain ⟨findings, s₂, hprocess, hcache⟩ := Prog.run_bind_eq_ok.mp hrest
    have hprocessed := leaves_processUntilCache (C := fun _ => True) o hP.toPhaseFrame hs₁ hshown
      fuel (nodup_nodeId_removeDuplicates l) fun m hm =>
        hmachines l rfl m (mem_of_mem_removeDuplicates hm)
    rw [Prog.Leaves, Prog.ends_iff_run, hprocess] at hprocessed
    obtain ⟨-, ms, checks, added, hdone⟩ := hprocessed.2 findings rfl
    cases hcache
    obtain ⟨-, honline⟩ := hdone.hadd.online
    rcases honline n info h with h | ⟨hn, hparent⟩
    · have h₁ := ObserverTables.onlineMachines_of_relist
        (ObserverTables.onlineMachines_of_removeAll h)
      rw [ht₁] at h₁
      exact Or.inl h₁
    · -- the machine is new, so it was not known when the cycle began
      have hnew : n ∉ s.tables.knownMachines := by
        rw [hdone.hnew, Std.ExtTreeSet.mem_toList, hdone.hfound.new, mem_knownNodeIds, ht₁] at hn
        exact hn.1
      refine Or.inr ⟨(hs.unshown hnew).2, found, s₁, hfound, ?_⟩
      rw [hparent, (ObserverTables.removeAll_frame _ _).2.1, ObserverTables.parentOfMachine_relist]

/-! ### Runs with their cycles -/

/-- A cycle of a run. -/
structure CycleOf (ω : Type) where
  before : ObserverState ω
  fuel : ℕ
  after : ObserverState ω

variable (o) in
/-- A run to a state, with its cycles. Between them the data client may change in any way. -/
inductive RunOf : List (CycleOf ω) → ObserverState ω → Prop where
  | start (world : ω) : RunOf [] (o.start world)
  | world {cycles : List (CycleOf ω)} {s : ObserverState ω} (world : Recorded ω) :
      RunOf cycles s → RunOf cycles (s.withWorld world)
  | cycle {cycles : List (CycleOf ω)} {s s' : ObserverState ω} (fuel : ℕ) :
      RunOf cycles s → o.cycle fuel s = (.ok (), s') → RunOf (cycles ++ [⟨s, fuel, s'⟩]) s'

theorem RunOf.reachable {cycles : List (CycleOf ω)} (h : o.RunOf cycles s) : o.Reachable s := by
  induction h with
  | start world => exact .start world
  | world world _ ih => exact .world world ih
  | cycle fuel _ hcycle ih => exact .cycle fuel ih hcycle

/-- The cycle records the machine with this information. -/
def CycleOf.Records (c : CycleOf ω) (n : NodeId) (info : MachineInformation) : Prop :=
  n ∉ c.before.tables.onlineMachines ∧ c.after.tables.onlineMachines[n]? = some info

variable (o) in
/-- Each machine that the cycle records has a parent under which the cycle has found it. -/
def CurrentParents (c : CycleOf ω) : Prop :=
  ∀ n info, c.Records n info →
    ∃ found s₁, o.Finds c.before c.fuel found s₁ ∧ FoundUnder found n info.parent

variable (o) in
/-- For each machine that the cycle records, the entry that the table of parents had before is a
parent under which the cycle has found the machine; if there was none, the search has entered
one. Without an entry the null identifier is recorded. -/
def CurrentEntries (c : CycleOf ω) : Prop :=
  ∀ n info, c.Records n info → ∃ found s₁, o.Finds c.before c.fuel found s₁ ∧
    (∀ p, c.before.tables.parentOfMachine[n]? = some p → FoundUnder found n p) ∧
    (n ∉ c.before.tables.parentOfMachine →
      n ∈ s₁.tables.parentOfMachine ∨ FoundUnder found n ⟨"", ""⟩)

/-- The two searches of one cycle are the same one. -/
theorem Finds.unique {fuel : ℕ} {found found' : List (BrowseResult × NodeId)}
    {s₁ s₂ : ObserverState ω} (h : o.Finds s fuel found s₁) (h' : o.Finds s fuel found' s₂) :
    found = found' ∧ s₁ = s₂ := by
  have heq := h.symm.trans h'
  exact ⟨Outcome.ok.inj (Prod.mk.inj heq).1, (Prod.mk.inj heq).2⟩

/-- What is recorded is current exactly if the entry is: one machine of one cycle. -/
theorem foundUnder_recorded_iff {fuel : ℕ} {found : List (BrowseResult × NodeId)}
    {s₁ : ObserverState ω} (hfinds : o.Finds s fuel found s₁)
    (hparent : info.parent = (s₁.tables.parentOfMachine[n]?).getD ⟨"", ""⟩) :
    FoundUnder found n info.parent ↔
      (∀ p, s.tables.parentOfMachine[n]? = some p → FoundUnder found n p) ∧
      (n ∉ s.tables.parentOfMachine →
        n ∈ s₁.tables.parentOfMachine ∨ FoundUnder found n ⟨"", ""⟩) := by
  have hsearch := searchesUnder_browseForMachinesUnder (o := o) fuel WellKnown.machinesFolder
    WellKnown.machinesFolder (configuredFilter o) s.forget
  rw [Prog.ends_iff_run, hfinds] at hsearch
  have hentered : Entered s.forget s₁ found := hsearch.1 found rfl
  cases hbefore : s.tables.parentOfMachine[n]? with
  | some p =>
    have hmem : n ∈ s.tables.parentOfMachine := NodeMap.mem_of_getElem? hbefore
    rw [hentered.kept n p hbefore, Option.getD_some] at hparent
    simp [hparent, hmem]
  | none =>
    have hnot : n ∉ s.tables.parentOfMachine := by simpa using hbefore
    simp only [reduceCtorEq, false_implies, implies_true, true_and, hnot, not_false_eq_true,
      true_implies]
    cases hafter : s₁.tables.parentOfMachine[n]? with
    | some p =>
      rw [hafter, Option.getD_some] at hparent
      have hfound : FoundUnder found n p :=
        (hentered.new n p hafter).resolve_left fun hp => by
          rw [ObserverState.tables_forget, hbefore] at hp
          cases hp
      exact iff_of_true (hparent ▸ hfound) (Or.inl (NodeMap.mem_of_getElem? hafter))
    | none =>
      have hnot' : n ∉ s₁.tables.parentOfMachine := by simpa using hafter
      rw [hafter, Option.getD_none] at hparent
      rw [hparent, or_iff_right hnot']

/-- One cycle. -/
theorem currentParents_iff (hs : CoherentTables s.tables) {fuel : ℕ}
    (hcycle : o.cycle fuel s = (.ok (), s')) :
    o.CurrentParents ⟨s, fuel, s'⟩ ↔ o.CurrentEntries ⟨s, fuel, s'⟩ := by
  have hsearch : ∀ {n info}, CycleOf.Records ⟨s, fuel, s'⟩ n info →
      ∃ found s₁, o.Finds s fuel found s₁ ∧
        info.parent = (s₁.tables.parentOfMachine[n]?).getD ⟨"", ""⟩ := by
    rintro n info ⟨hnew, honline⟩
    rcases cycle_online hs hcycle honline with h | ⟨-, hfound⟩
    · exact absurd (NodeMap.mem_of_getElem? h) hnew
    · exact hfound
  constructor
  · intro h n info hrecords
    obtain ⟨found, s₁, hfinds, hparent⟩ := hsearch hrecords
    obtain ⟨found', s₂, hfinds', hunder⟩ := h n info hrecords
    obtain ⟨rfl, rfl⟩ := hfinds.unique hfinds'
    exact ⟨found, s₁, hfinds, (foundUnder_recorded_iff hfinds hparent).mp hunder⟩
  · intro h n info hrecords
    obtain ⟨found, s₁, hfinds, hparent⟩ := hsearch hrecords
    obtain ⟨found', s₂, hfinds', hentries⟩ := h n info hrecords
    obtain ⟨rfl, rfl⟩ := hfinds.unique hfinds'
    exact ⟨found, s₁, hfinds, (foundUnder_recorded_iff hfinds hparent).mpr hentries⟩

/-- **The parents that are recorded in a run are current** exactly if in every cycle the entries of
the machines that it records are; and what is shown in a state of a run has been recorded by one of
its cycles. -/
theorem parents_current_iff (cycles : List (CycleOf ω)) (s : ObserverState ω)
    (h : o.RunOf cycles s) :
    (∀ (n : NodeId) info, s.tables.onlineMachines[n]? = some info →
      ∃ c ∈ cycles, c.Records n info) ∧
    ((∀ c ∈ cycles, o.CurrentParents c) ↔ ∀ c ∈ cycles, o.CurrentEntries c) := by
  induction h with
  | start world =>
    refine ⟨fun n info hinfo => ?_, by simp⟩
    simp [start, ObserverTables.empty] at hinfo
  | world world _ ih => exact ih
  | @cycle cycles s s' fuel hrun hcycle ih =>
    have hs := coherent_of_reachable hrun.reachable
    constructor
    · intro n info hinfo
      rcases cycle_online hs hcycle hinfo with hold | ⟨hnew, -⟩
      · obtain ⟨c, hc, hrecords⟩ := ih.1 n info hold
        exact ⟨c, List.mem_append_left _ hc, hrecords⟩
      · exact ⟨⟨s, fuel, s'⟩, List.mem_append_right _ List.mem_cons_self, hnew, hinfo⟩
    · rw [List.forall_mem_append, List.forall_mem_append, ih.2, List.forall_mem_singleton,
        List.forall_mem_singleton, currentParents_iff hs hcycle]

/-! ### A machine that moves -/

/-- A server whose state are the machines below the folder of machines, and those among the
components of the machine `m1`. -/
def movingClient : IDashboardDataClient (List String × List String) where
  browse n ctx w :=
    if n = WellKnown.machinesFolder then (.ok (plantListing w.1), w)
    else if n = plantMachine "Components" then (.ok (plantListing w.2), w)
    else ((plantClient.browse n ctx []).1, w)
  browseWithResultTypeFilter n ctx t w := ((plantClient.browseWithResultTypeFilter n ctx t []).1, w)
  translateBrowsePathToNodeId n _ w :=
    (.ok (if n = plantMachine "m1" then plantMachine "Components" else ⟨"", ""⟩), w)
  isSameOrSubtype expected checked _ w := (expected.equals checked, w)
  subscribe _ _ w := (.ok none, w)
  unsubscribe _ _ w := w
  readeNodeValues ns w := (.ok (ns.map fun n => .string n.id), w)
  subscribe_nodeId := by simp

def movingPlant : Observer (List String × List String) :=
  { plantObserver with client := movingClient }

/-- Two machines are found below the folder of machines. -/
def beforeMove : ObserverState (List String × List String) :=
  (movingPlant.cycle 3 (movingPlant.start (["m1", "m2"], []))).2

/-- The second one has been taken out. -/
def duringMove : ObserverState (List String × List String) :=
  (movingPlant.cycle 3 (beforeMove.withWorld ⟨(["m1"], []), []⟩)).2

/-- It is found again among the components of the first one. -/
def afterMove : ObserverState (List String × List String) :=
  (movingPlant.cycle 3 (duringMove.withWorld ⟨(["m1"], ["m2"]), []⟩)).2

private theorem cycle_beforeMove :
    movingPlant.cycle 3 (movingPlant.start (["m1", "m2"], [])) = (.ok (), beforeMove) := by
  unfold beforeMove
  exact cycle_eq_of_fst _ (by decide +kernel)

private theorem cycle_duringMove :
    movingPlant.cycle 3 (beforeMove.withWorld ⟨(["m1"], []), []⟩) = (.ok (), duringMove) := by
  unfold duringMove
  exact cycle_eq_of_fst _ (by decide +kernel)

private theorem cycle_afterMove :
    movingPlant.cycle 3 (duringMove.withWorld ⟨(["m1"], ["m2"]), []⟩) = (.ok (), afterMove) := by
  unfold afterMove
  exact cycle_eq_of_fst _ (by decide +kernel)

/-- The cycle in which the machine is found again. -/
def movedCycle : CycleOf (List String × List String) :=
  ⟨duringMove.withWorld ⟨(["m1"], ["m2"]), []⟩, 3, afterMove⟩

/-- The cycles of the move. -/
def movingCycles : List (CycleOf (List String × List String)) :=
  [⟨movingPlant.start (["m1", "m2"], []), 3, beforeMove⟩,
    ⟨beforeMove.withWorld ⟨(["m1"], []), []⟩, 3, duringMove⟩,
    movedCycle]

theorem runOf_movingCycles : movingPlant.RunOf movingCycles afterMove :=
  .cycle 3 (.world _ (.cycle 3 (.world _ (.cycle 3 (.start _) cycle_beforeMove)) cycle_duringMove))
    cycle_afterMove

private theorem records_movedCycle :
    ∃ info, movedCycle.Records (plantMachine "m2") info ∧
      info.parent = WellKnown.machinesFolder := by
  have hnew : plantMachine "m2" ∉ movedCycle.before.tables.onlineMachines := by decide +kernel
  have hparent : movedCycle.after.tables.onlineMachines[plantMachine "m2"]?.map
      MachineInformation.parent = some WellKnown.machinesFolder := by decide +kernel
  rw [Option.map_eq_some_iff] at hparent
  exact hparent.imp fun info h => ⟨⟨hnew, h.1⟩, h.2⟩

/-- The identifiers of the machines that a cycle finds, each with its parent. -/
def foundNodeIds (o : Observer ω) (c : CycleOf ω) : ObserverM ω (List (NodeId × NodeId)) :=
  List.map (Prod.map BrowseResult.nodeId id) <$> browseForMachinesUnder o c.fuel
    WellKnown.machinesFolder WellKnown.machinesFolder (configuredFilter o)

theorem mem_of_foundUnder {c : CycleOf ω} {found : List (BrowseResult × NodeId)}
    {s₁ : ObserverState ω} {l : List (NodeId × NodeId)} {p : NodeId}
    (h : o.Finds c.before c.fuel found s₁)
    (hl : ((foundNodeIds o c).run c.before.forget).1 = .ok l) (hunder : FoundUnder found n p) :
    (n, p) ∈ l := by
  rw [foundNodeIds, Prog.fst_run_map h] at hl
  obtain ⟨machine, hmem, rfl⟩ := hunder
  rw [← Outcome.ok.inj hl]
  exact List.mem_map_of_mem (f := Prod.map BrowseResult.nodeId id) hmem

/-- What the search of the last cycle finds. -/
private theorem foundNodeIds_movedCycle :
    ((foundNodeIds movingPlant movedCycle).run movedCycle.before.forget).1 =
      .ok [(plantMachine "m1", WellKnown.machinesFolder),
        (plantMachine "m2", plantMachine "m1")] := by
  decide +kernel

/-- **The stale parent**: the machine that has moved is recorded with the folder of machines as its
parent, but the search has found it among the components of the first machine only. -/
theorem not_parents_current :
    ¬ ∀ (o : Observer (List String × List String)) (cycles : List (CycleOf _))
      (s : ObserverState _), o.RunOf cycles s → ∀ c ∈ cycles, o.CurrentParents c := by
  intro hcurrent
  obtain ⟨info, hrecords, hparent⟩ := records_movedCycle
  have hc := hcurrent movingPlant movingCycles afterMove runOf_movingCycles movedCycle
    (.tail _ (.tail _ (.head _)))
  obtain ⟨found, s₁, hfinds, hunder⟩ := hc _ info hrecords
  rw [hparent] at hunder
  exact absurd (mem_of_foundUnder hfinds foundNodeIds_movedCycle hunder) (by decide +kernel)

/-- The first cycle of the plant. -/
def plantCycle : CycleOf (List String) := ⟨plantObserver.start ["m1"], 2, plantRunning⟩

/-- The table of parents was empty before, and the search has entered the machine. -/
private theorem currentEntries_plantCycle : plantObserver.CurrentEntries plantCycle := by
  have hreturns : ((browseForMachinesUnder plantObserver plantCycle.fuel WellKnown.machinesFolder
    WellKnown.machinesFolder (configuredFilter plantObserver)).run
      plantCycle.before.forget).1.Returns := by decide +kernel
  obtain ⟨found, hfound⟩ := Outcome.returns_iff.mp hreturns
  have hempty : plantCycle.before.tables.parentOfMachine.isEmpty = true := by decide +kernel
  have hentered : ∀ n ∈ plantCycle.after.tables.onlineMachines.keys,
      n ∈ ((browseForMachinesUnder plantObserver plantCycle.fuel WellKnown.machinesFolder
        WellKnown.machinesFolder (configuredFilter plantObserver)).run
          plantCycle.before.forget).2.tables.parentOfMachine := by decide +kernel
  rintro n info ⟨-, honline⟩
  refine ⟨found, _, Prod.ext hfound rfl, fun p hp => ?_, fun _ => Or.inl (hentered n ?_)⟩
  · rw [Std.ExtTreeMap.isEmpty_iff] at hempty
    simp [hempty] at hp
  · exact Std.ExtTreeMap.mem_keys.mpr (NodeMap.mem_of_getElem? honline)

theorem parents_current_plant :
    plantMachine "m1" ∈ plantRunning.tables.onlineMachines ∧
      plantObserver.RunOf [plantCycle] plantRunning ∧ plantObserver.CurrentParents plantCycle := by
  have hcycle : plantObserver.cycle 2 (plantObserver.start ["m1"]) = (.ok (), plantRunning) := by
    unfold plantRunning
    exact cycle_eq_of_fst _ (by decide +kernel)
  have hrun : plantObserver.RunOf [plantCycle] plantRunning := .cycle 2 (.start ["m1"]) hcycle
  have hentries : ∀ c ∈ [plantCycle], plantObserver.CurrentEntries c :=
    List.forall_mem_singleton.mpr currentEntries_plantCycle
  exact ⟨by decide +kernel, hrun, (parents_current_iff _ _ hrun).2.mpr hentries _ (.head _)⟩

end Observer

end UmatiDashboard
