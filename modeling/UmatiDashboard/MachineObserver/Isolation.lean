import UmatiDashboard.MachineObserver.Runs

/-!
# The fate of a machine that stays online

A machine that was known, is browsed again and is online keeps its place, unless the set of
browsed machines differs from the one of the cycle before. In that case `machineListsNotEqual`
removes every machine that was listed, and the machines to be added are then told from the
machines that stay by a set that was built before: a machine that was known is taken for one
that stays, and is not added again in this cycle.
-/

namespace UmatiDashboard

namespace Observer

variable {ω : Type} {o : Observer ω} {s s' : ObserverState ω}

/-- The machine is known, shown and has its dashboard client after the cycle, and was not removed
in it. -/
def Untouched (m : NodeId) (s' : ObserverState ω) : Prop :=
  m ∈ s'.tables.knownMachines ∧ m ∈ s'.tables.onlineMachines ∧ m ∈ s'.tables.dashboardClients ∧
    .removing m ∉ s'.events

/-- The machines that the comparison of the lists leaves. -/
theorem mem_relist_of_notMem (parents : NodeMap NodeId) {t : ObserverTables}
    {l : List BrowseResult} {m : NodeId} (hl : m ∉ relistRemoves t l) :
    (m ∈ ((t.withParents parents).relist l).knownMachines ↔ m ∈ t.knownMachines) ∧
      (m ∈ ((t.withParents parents).relist l).onlineMachines ↔ m ∈ t.onlineMachines) ∧
      (m ∈ ((t.withParents parents).relist l).dashboardClients ↔ m ∈ t.dashboardClients) := by
  by_cases hsame : sameMachines t l = true
  · have heq : (t.withParents parents).relist l = t.withParents parents := if_pos hsame
    rw [heq]
    exact ⟨Iff.rfl, Iff.rfl, Iff.rfl⟩
  · have heq : (t.withParents parents).relist l =
        { (t.withParents parents).removeAll t.knownMachineToolsSet.toList with
          knownMachineToolsSet := nodeIds l } := if_neg hsame
    rw [relistRemoves, if_neg hsame] at hl
    rw [heq]
    exact ⟨(ObserverTables.mem_knownMachines_removeAll).trans (and_iff_left hl),
      (ObserverTables.mem_onlineMachines_removeAll).trans (and_iff_left hl),
      (ObserverTables.mem_dashboardClients_removeAll).trans (and_iff_left hl)⟩

theorem mem_relistRemoves {t : ObserverTables} {l : List BrowseResult} {m : NodeId} :
    m ∈ relistRemoves t l ↔ sameMachines t l = false ∧ m ∈ t.knownMachineToolsSet := by
  unfold relistRemoves
  split_ifs with h
  · simp [h]
  · simp [h, Std.ExtTreeSet.mem_toList]

/-- **The fate of a machine that stays online, in one cycle.** -/
theorem CycleResult.untouched_iff {C : NodeId → Prop} (h : o.CycleResult C s s')
    (hs : CoherentTables s.tables) {l : List BrowseResult} (hl : .browsed l ∈ s'.events)
    {m : NodeId} (hknown : m ∈ s.tables.knownMachines)
    (honline : .checkedOnline m true ∈ s'.events) :
    Untouched m s' ↔ (sameMachines s.tables l = true ∨ m ∉ s.tables.knownMachineToolsSet) ∧
      isIgnored m = false := by
  cases h with
  | failed parents entered htables hevents =>
    rw [hevents] at hl
    simp at hl
  | done parents entered added l' ms checks found t hnodup hmachine hchecks hfound hnew hadd htables
      hadded hevents =>
    obtain rfl : l = l' := by
      rw [hevents] at hl
      simpa [checkedEvent] using hl
    have hcheck : (m, true) ∈ checks := by
      rw [hevents] at honline
      simpa [checkedEvent] using honline
    have hstay : m ∉ found.toBeRemovedMachines.toList := by
      rw [Std.ExtTreeSet.mem_toList, hfound.toBeRemoved]
      exact fun h => h.2 hcheck
    have hold : m ∉ ms.map BrowseResult.nodeId := by
      rw [hnew, Std.ExtTreeSet.mem_toList, hfound.new, mem_knownNodeIds]
      exact fun h => h.1 hknown
    have hremoved : .removing m ∈ s'.events ↔ m ∈ relistRemoves s.tables l := by
      rw [hevents]
      simp only [checkedEvent, List.mem_cons, List.mem_append, List.mem_map,
        ObserverEvent.removing.injEq, exists_eq_right, reduceCtorEq, false_or, and_false,
        exists_false, or_false, or_iff_left hstay]
    -- after the removals and the additions the machine stands as the comparison has left it
    obtain ⟨hc, ho, hk, -⟩ := hadd.frame hold
    rw [ObserverTables.mem_dashboardClients_removeAll, and_iff_left hstay] at hc
    rw [ObserverTables.mem_onlineMachines_removeAll, and_iff_left hstay] at ho
    rw [ObserverTables.mem_knownMachines_removeAll, and_iff_left hstay] at hk
    have hside : (sameMachines s.tables l = true ∨ m ∉ s.tables.knownMachineToolsSet) ↔
        m ∉ relistRemoves s.tables l := by
      rw [mem_relistRemoves, not_and_or, Bool.not_eq_false]
    rw [hside, Untouched, hremoved, htables]
    constructor
    · rintro ⟨-, hon, -, hleft⟩
      refine ⟨hleft, hs.online_notIgnored m ?_⟩
      exact (mem_relist_of_notMem parents hleft).2.1.mp (ho.mp hon)
    · rintro ⟨hleft, hign⟩
      obtain ⟨hk', ho', hc'⟩ := mem_relist_of_notMem parents hleft
      have hon : m ∈ s.tables.onlineMachines := hs.known_shown m hknown hign
      exact ⟨hk.mpr (hk'.mpr hknown), ho.mpr (ho'.mpr hon),
        hc.mpr (hc'.mpr ((hs.clients_iff m).mpr hon)), hleft⟩

/-- **Isolation of machines, exactly.** In every cycle from a reachable state, a known machine
that is browsed and online is untouched if and only if the browsed list has the machines that
were listed last (or the machine was not listed), and the machine is not one of the two that
are never shown. -/
theorem untouched_iff_sameMachines (hs : o.Reachable s) {fuel : ℕ}
    (hcycle : o.cycle fuel s = (.ok (), s')) {l : List BrowseResult} (hl : .browsed l ∈ s'.events)
    {m : NodeId} (hknown : m ∈ s.tables.knownMachines)
    (honline : .checkedOnline m true ∈ s'.events) :
    Untouched m s' ↔ (sameMachines s.tables l = true ∨ m ∉ s.tables.knownMachineToolsSet) ∧
      isIgnored m = false := by
  have hcoh := coherent_of_reachable hs
  exact (cycle_cases (shownValid_cycleFrame o) browsesOnly_true hcoh hcoh.shownValid
    hcycle).2.untouched_iff hcoh hl hknown honline

/-- The plant after a cycle in which a second machine has appeared. -/
def plantGrown : ObserverState (List String) :=
  (plantObserver.cycle 2 (plantRunning.withWorld ⟨["m1", "m2"], []⟩)).2

private theorem cycle_plantGrown :
    plantObserver.cycle 2 (plantRunning.withWorld ⟨["m1", "m2"], []⟩) = (.ok (), plantGrown) := by
  unfold plantGrown
  exact cycle_eq_of_fst _ (by decide +kernel)

/-- **A machine that stays online is removed when another one appears**, and is not added again
in that cycle. -/
theorem not_untouched_plant :
    ∃ s s' l, plantObserver.Reachable s ∧ plantObserver.cycle 2 s = (.ok (), s') ∧
      .browsed l ∈ s'.events ∧ plantMachine "m1" ∈ l.map BrowseResult.nodeId ∧
      plantMachine "m1" ∈ s.tables.knownMachines ∧ plantMachine "m1" ∈ s.tables.onlineMachines ∧
      .checkedOnline (plantMachine "m1") true ∈ s'.events ∧
      .removing (plantMachine "m1") ∈ s'.events ∧
      plantMachine "m1" ∉ s'.tables.knownMachines ∧
      plantMachine "m1" ∉ s'.tables.onlineMachines ∧
      plantMachine "m1" ∉ s'.tables.dashboardClients := by
  refine ⟨_, plantGrown, plantListing ["m1", "m2"], .world _ plantRunning_reachable,
    cycle_plantGrown, ?_⟩
  decide +kernel

/-- The plant after a cycle that has found the same machines. -/
def plantStaying : ObserverState (List String) := (plantObserver.cycle 2 plantRunning).2

theorem untouched_plant : Untouched (plantMachine "m1") plantStaying := by
  have hcycle : plantObserver.cycle 2 plantRunning = (.ok (), plantStaying) := by
    unfold plantStaying
    exact cycle_eq_of_fst _ (by decide +kernel)
  have hbrowsed : .browsed (plantListing ["m1"]) ∈ plantStaying.events := by decide +kernel
  have hknown : plantMachine "m1" ∈ plantRunning.tables.knownMachines := by decide +kernel
  have honline : .checkedOnline (plantMachine "m1") true ∈ plantStaying.events := by
    decide +kernel
  have hsame : sameMachines plantRunning.tables (plantListing ["m1"]) = true := by decide +kernel
  exact (untouched_iff_sameMachines plantRunning_reachable hcycle hbrowsed hknown honline).mpr
    ⟨.inl hsame, by decide +kernel⟩

end Observer

end UmatiDashboard
