import UmatiDashboard.MachineObserver.Isolation

/-!
# Cycles with an unchanged list

When the browsed list has the machines that were listed last, a cycle only reconciles the tables
with the answers of `isOnline`: every machine that is online ends up known or to be skipped, and
the ones that were known before are left alone.
-/

namespace UmatiDashboard

namespace Observer

variable {ω : Type} {o : Observer ω} {s s' : ObserverState ω} {t t' : ObserverTables}

/-! ### The loop that adds the new machines -/

/-- A round settles its machine: it is known afterwards, or it is to be skipped. -/
theorem AddStep.settled {machine : BrowseResult} (h : o.AddStep machine t t') :
    machine.nodeId ∈ t'.knownMachines ∨ machine.nodeId ∈ t'.invalidMachines := by
  cases h with
  | skipped => exact .inr (by simp [ObserverTables.setCount])
  | tried _ h =>
    cases h with
    | ignored => exact .inl (by simp [ObserverTables.knowMachine])
    | shown => exact .inl (by simp [ObserverTables.knowMachine])
    | invalid => exact .inr (by simp [ObserverTables.blame])

/-- The loop settles all of its machines. -/
theorem AddSteps.settled {ms : List BrowseResult} (h : o.AddSteps ms t t')
    (hnodup : (ms.map BrowseResult.nodeId).Nodup) {n : NodeId}
    (hn : n ∈ ms.map BrowseResult.nodeId) : n ∈ t'.knownMachines ∨ n ∈ t'.invalidMachines := by
  induction h with
  | nil => simp at hn
  | cons first rest ih =>
    obtain ⟨hnotin, hnodup'⟩ := List.nodup_cons.mp hnodup
    rcases List.mem_cons.mp hn with rfl | hn'
    · obtain ⟨-, -, hknown, hinvalid⟩ := rest.frame hnotin
      rw [hknown, hinvalid]
      exact first.settled
    · exact ih hnodup' hn'

/-- The dashboard clients of other machines stay the same. -/
theorem AddStep.sameClient {machine : BrowseResult} (h : o.AddStep machine t t') {n : NodeId}
    (hn : n ≠ machine.nodeId) : t'.dashboardClients[n]? = t.dashboardClients[n]? := by
  have hn' := Ne.symm hn
  cases h with
  | skipped => rfl
  | tried _ h =>
    cases h with
    | ignored => rfl
    | shown =>
      simp [ObserverTables.knowMachine, ObserverTables.showMachine, ObserverTables.forgive,
        Std.ExtTreeMap.getElem?_insertIfNew, hn']
    | invalid => rfl

theorem AddSteps.sameClient {ms : List BrowseResult} (h : o.AddSteps ms t t') {n : NodeId}
    (hn : n ∉ ms.map BrowseResult.nodeId) : t'.dashboardClients[n]? = t.dashboardClients[n]? := by
  induction h with
  | nil => rfl
  | cons first _ ih =>
    rw [List.map_cons, List.mem_cons, not_or] at hn
    exact (ih hn.2).trans (first.sameClient hn.1)

/-! ### The whole cycle -/

/-- The machine was reported online in the cycle. -/
def Online (s' : ObserverState ω) (n : NodeId) : Prop := .checkedOnline n true ∈ s'.events

/-- The result of a cycle in which no machine was listed or delisted. -/
structure Reconciled (s s' : ObserverState ω) (l : List BrowseResult) : Prop where
  online_listed : ∀ n, Online s' n → n ∈ l.map BrowseResult.nodeId
  cached_iff : ∀ n : NodeId, n ∈ s'.tables.machineIdentificationsCache ↔ Online s' n
  known_online : ∀ n : NodeId, n ∈ s'.tables.knownMachines → Online s' n
  online_settled : ∀ n : NodeId, Online s' n →
    n ∈ s'.tables.knownMachines ∨ n ∈ s'.tables.invalidMachines
  disjoint : ∀ n : NodeId, n ∈ s'.tables.knownMachines → n ∉ s'.tables.invalidMachines
  stays : ∀ n : NodeId, n ∈ s.tables.knownMachines → Online s' n →
    n ∈ s'.tables.knownMachines ∧ .removing n ∉ s'.events ∧ .adding n ∉ s'.events ∧
      s'.tables.dashboardClients[n]? = s.tables.dashboardClients[n]?

/-- A cycle from coherent tables reconciles them. -/
theorem CycleResult.reconciled {C : NodeId → Prop} (h : o.CycleResult C s s')
    (hs' : CoherentTables s'.tables) {l : List BrowseResult} (hl : .browsed l ∈ s'.events)
    (hsame : sameMachines s.tables l = true) : Reconciled s s' l := by
  cases h with
  | failed parents entered htables hevents =>
    rw [hevents] at hl
    simp at hl
  | done parents entered added l' ms checks found t hnodup hmachine hchecks hfound hnew hadd htables
      hadded hevents =>
    obtain rfl : l = l' := by
      rw [hevents] at hl
      simpa [checkedEvent] using hl
    have honline : ∀ n, Online s' n ↔ (n, true) ∈ checks := by
      intro n
      rw [Online, hevents]
      simp [checkedEvent]
    have hrelist : (s.tables.withParents parents).relist l = s.tables.withParents parents :=
      if_pos hsame
    rw [hrelist] at hadd
    have hms : (ms.map BrowseResult.nodeId).Nodup := by
      rw [hnew]
      exact found.newMachines.nodup_toList
    -- the new machines are those that are online and were not known
    have hnewIff : ∀ n, n ∈ ms.map BrowseResult.nodeId ↔
        n ∉ s.tables.knownMachines ∧ (n, true) ∈ checks := by
      intro n
      rw [hnew, Std.ExtTreeSet.mem_toList, hfound.new, mem_knownNodeIds]
    have hremovedIff : ∀ n, n ∈ found.toBeRemovedMachines.toList ↔
        n ∈ s.tables.knownMachines ∧ (n, true) ∉ checks := by
      intro n
      rw [Std.ExtTreeSet.mem_toList, hfound.toBeRemoved, mem_knownNodeIds]
    have hknownIff : ∀ n, n ∉ ms.map BrowseResult.nodeId →
        (n ∈ t.knownMachines ↔ n ∈ s.tables.knownMachines ∧ (n, true) ∈ checks) := by
      intro n hn
      rw [(hadd.frame hn).2.2.1, ObserverTables.mem_knownMachines_removeAll, hremovedIff]
      change n ∈ s.tables.knownMachines ∧ _ ↔ _
      tauto
    have hcheckedOnline : ∀ n, n ∈ t.knownMachines → (n, true) ∈ checks := by
      intro n hn
      by_cases hmem : n ∈ ms.map BrowseResult.nodeId
      · exact ((hnewIff n).mp hmem).2
      · exact ((hknownIff n hmem).mp hn).2
    have htables' : s'.tables.knownMachines = t.knownMachines ∧
        s'.tables.invalidMachines = t.invalidMachines ∧
        s'.tables.dashboardClients = t.dashboardClients := by
      rw [htables]
      exact ⟨rfl, rfl, rfl⟩
    obtain ⟨hknown, hinvalid, hclients⟩ := htables'
    refine ⟨fun n hn => ?_, fun n => ?_, fun n hn => ?_, fun n hn => ?_, hs'.known_valid,
      fun n hn hon => ?_⟩
    · rw [← hchecks]
      exact List.mem_map.mpr ⟨_, (honline n).mp hn, rfl⟩
    · rw [htables, honline, ← hfound.identified]
    · rw [hknown] at hn
      exact (honline n).mpr (hcheckedOnline n hn)
    · rw [hknown, hinvalid]
      by_cases hmem : n ∈ ms.map BrowseResult.nodeId
      · exact hadd.settled hms hmem
      · have hwas : n ∈ s.tables.knownMachines := by
          by_contra hnot
          exact hmem ((hnewIff n).mpr ⟨hnot, (honline n).mp hn⟩)
        exact .inl ((hknownIff n hmem).mpr ⟨hwas, (honline n).mp hn⟩)
    · have hcheck : (n, true) ∈ checks := (honline n).mp hon
      have hmem : n ∉ ms.map BrowseResult.nodeId := fun h => ((hnewIff n).mp h).1 hn
      have hstay : n ∉ found.toBeRemovedMachines.toList := fun h => ((hremovedIff n).mp h).2 hcheck
      have hnotAdded : n ∉ added := fun h => hmem (hnew ▸ hadded.subset h)
      refine ⟨hknown ▸ (hknownIff n hmem).mpr ⟨hn, hcheck⟩, ?_, ?_, ?_⟩
      · rw [hevents]
        simp only [checkedEvent, relistRemoves, hsame, if_true, List.map_nil,
          List.mem_cons, List.mem_append, List.mem_map, ObserverEvent.removing.injEq,
          exists_eq_right, reduceCtorEq, and_false, exists_false, or_false, hstay,
          List.not_mem_nil,
          not_false_eq_true]
      · rw [hevents]
        simp [checkedEvent, hnotAdded]
      · rw [hclients, hadd.sameClient hmem, ObserverTables.getElem?_dashboardClients_removeAll,
          if_neg hstay]
        rfl

/-- **Cycles with an unchanged list.** From every reachable state, a cycle that browses the
machines that were listed last leaves cached exactly the machines that are online, and each of
these is either known or to be skipped; a known machine that is online is left alone. -/
theorem reconciled_of_sameMachines (hs : o.Reachable s) {fuel : ℕ}
    (hcycle : o.cycle fuel s = (.ok (), s')) {l : List BrowseResult} (hl : .browsed l ∈ s'.events)
    (hsame : sameMachines s.tables l = true) : Reconciled s s' l := by
  have hcoh := coherent_of_reachable hs
  exact (cycle_cases (shownValid_cycleFrame o) browsesOnly_true hcoh hcoh.shownValid
    hcycle).2.reconciled (coherent_of_reachable (.cycle fuel hs hcycle)) hl hsame

theorem reconciled_plant : Reconciled plantRunning plantStaying (plantListing ["m1"]) := by
  have hcycle : plantObserver.cycle 2 plantRunning = (.ok (), plantStaying) := by
    unfold plantStaying
    exact cycle_eq_of_fst _ (by decide +kernel)
  have hbrowsed : .browsed (plantListing ["m1"]) ∈ plantStaying.events := by decide +kernel
  have hsame : sameMachines plantRunning.tables (plantListing ["m1"]) = true := by decide +kernel
  exact reconciled_of_sameMachines plantRunning_reachable hcycle hbrowsed hsame

end Observer

end UmatiDashboard
