import UmatiDashboard.MachineObserver.Additions

/-!
# What a cycle does

One cycle as a whole: `CycleResult` describes the tables a cycle leaves, and what it has done on
the way, by its phases. The description is the source of everything that is said about cycles:
the invariants of the tables and the fate of a single machine.
-/

namespace UmatiDashboard

/-- The tables after a search. -/
def ObserverTables.withParents (t : ObserverTables) (parents : NodeMap NodeId) : ObserverTables :=
  { t with parentOfMachine := parents }

/-- The tables after the comparison with the machines that were listed last. -/
def ObserverTables.relist (t : ObserverTables) (l : List BrowseResult) : ObserverTables :=
  if Observer.sameMachines t l then t
  else { t.removeAll t.knownMachineToolsSet.toList with
    knownMachineToolsSet := Observer.nodeIds l }

namespace Observer

variable {ω : Type} (o : Observer ω) {P : ObserverTables → Prop} {s : ObserverState ω}

/-- The machines removed by the comparison. -/
def relistRemoves (t : ObserverTables) (l : List BrowseResult) : List NodeId :=
  if sameMachines t l then [] else t.knownMachineToolsSet.toList

/-- The result of a cycle that ran from `s` to `s'`. -/
inductive CycleResult (C : NodeId → Prop) (s s' : ObserverState ω) : Prop where
  /-- the search failed after it had entered some machines -/
  | failed (parents : NodeMap NodeId) (entered : List NodeId)
      (htables : s'.tables = s.tables.withParents parents)
      (hevents : s'.events = entered.map .entering)
  /-- the machines `l` were found, the answers of `isOnline` were `checks`, and the new machines
  were taken from `ms`; `addMachine` was called for `added` -/
  | done (parents : NodeMap NodeId) (entered added : List NodeId) (l ms : List BrowseResult)
      (checks : List (NodeId × Bool)) (found : Findings) (t : ObserverTables)
      (hnodup : (l.map BrowseResult.nodeId).Nodup)
      (hmachine : ∀ m ∈ l, o.IsMachine C m)
      (hchecks : checks.map Prod.fst = l.map BrowseResult.nodeId)
      (hfound : found.Of (knownNodeIds s.tables) checks)
      (hnew : ms.map BrowseResult.nodeId = found.newMachines.toList)
      (hadd : o.AddSteps ms (((s.tables.withParents parents).relist l).removeAll
        found.toBeRemovedMachines.toList) t)
      (htables : s'.tables = { t with machineIdentificationsCache := found.machinesIdentification })
      (hadded : added.Sublist found.newMachines.toList)
      (hevents : s'.events = entered.map .entering ++ .browsed l ::
        (relistRemoves s.tables l).map .removing ++ checks.map checkedEvent ++
        found.toBeRemovedMachines.toList.map .removing ++ added.map .adding)

theorem mem_knownNodeIds {t : ObserverTables} {n : NodeId} :
    n ∈ knownNodeIds t ↔ n ∈ t.knownMachines := by
  simp [knownNodeIds, Std.ExtTreeSet.mem_ofList, Std.ExtTreeMap.mem_keys]

theorem mem_nodeIds {l : List BrowseResult} {n : NodeId} :
    n ∈ nodeIds l ↔ n ∈ l.map BrowseResult.nodeId := by
  simp [nodeIds, Std.ExtTreeSet.mem_ofList]

private theorem getElem?_insertIfNew_machine (acc : NodeMap BrowseResult) (x : BrowseResult)
    (n : NodeId) : (acc.insertIfNew x.nodeId x)[n]? =
      (acc[n]?).or (if x.nodeId = n then some x else none) := by
  rw [Std.ExtTreeMap.getElem?_insertIfNew]
  simp only [Std.LawfulEqCmp.compare_eq_iff_eq]
  by_cases hid : x.nodeId = n
  · subst hid
    by_cases hmem : x.nodeId ∈ acc
    · simp [hmem]
    · simp [hmem]
  · simp [hid]

private theorem getElem?_foldl_machine (n : NodeId) :
    ∀ (l : List BrowseResult) (acc : NodeMap BrowseResult),
      (l.foldl (fun m machine => m.insertIfNew machine.nodeId machine) acc)[n]? =
        (acc[n]?).or (l.find? fun m => m.nodeId == n)
  | [], acc => by simp
  | x :: xs, acc => by
    rw [List.foldl_cons, getElem?_foldl_machine n xs, getElem?_insertIfNew_machine,
      Option.or_assoc]
    by_cases hid : x.nodeId = n <;> simp [hid]

/-- Every browsed machine is found under its identifier. -/
theorem getElem?_machineMap {l : List BrowseResult} {n : NodeId}
    (hn : n ∈ l.map BrowseResult.nodeId) :
    ∃ m ∈ l, m.nodeId = n ∧ (machineMap l)[n]? = some m := by
  obtain ⟨m', hm', hid'⟩ := List.mem_map.mp hn
  cases h : l.find? fun m => m.nodeId == n with
  | none =>
    rw [List.find?_eq_none] at h
    exact absurd (by simpa using hid') (h m' hm')
  | some m =>
    refine ⟨m, List.mem_of_find?_eq_some h, by simpa using List.find?_some h, ?_⟩
    rw [machineMap, getElem?_foldl_machine, h]
    simp

/-! ### The phases -/

theorem ends_machineListsNotEqual (hP : PhaseFrame o P) (hs : Stands P s)
    (l : List BrowseResult) :
    (machineListsNotEqual o l).Ends s fun out s' => (∃ b, out = .ok b) ∧ Stands P s' ∧
      s'.tables = s.tables.relist l ∧
      s'.events = s.events ++ (relistRemoves s.tables l).map .removing := by
  unfold machineListsNotEqual ObserverTables.relist relistRemoves
  simp only [Prog.ends_bind, ends_tables, Outcome.follow_ok]
  split_ifs with hsame
  · exact ⟨⟨_, rfl⟩, hs, rfl, by simp [Prog.run, pure]⟩
  · simp only [Prog.ends_bind, recreateKnownMachineToolsMap, ends_tables, Outcome.follow_ok,
      removeOfflineMachines]
    refine (ends_removeMachines o hP.toRemovalFrame _ hs.1 hs.2).mono fun out s₁ h₁ => ?_
    obtain ⟨rfl, ht₁, hevents₁, htr₁⟩ := h₁
    simp only [Outcome.follow_ok, ends_write]
    have hs₁ : Stands P s₁ := ⟨ht₁ ▸ hP.removeAll _ hs.1, htr₁⟩
    exact ⟨⟨_, rfl⟩, hs₁.put (hP.relist _ _ hs₁.1), by simp [ht₁, Prog.run, pure],
      by simpa [Prog.run, pure] using hevents₁⟩

/-- **The loop that adds the new machines.** -/
theorem ends_addNewMachines (hP : PhaseFrame o P) (fuel : ℕ) {machines : NodeMap BrowseResult} :
    ∀ (ns : List NodeId) {s : ObserverState ω}, Stands P s → ns.Nodup →
      (∀ n ∈ ns, n ∉ s.tables.dashboardClients ∧ n ∉ s.tables.onlineMachines) →
      (∀ n ∈ ns, ∃ m, machines[n]? = some m ∧ m.nodeId = n ∧
        m.typeDefinition ∈ o.reader.identificationTypeOfTypeDefinition) →
      (Prog.forEach (addUnlessIgnored o fuel machines) ns).Ends s fun out s' => Stands P s' ∧
        (∃ added : List NodeId, added.Sublist ns ∧
          s'.events = s.events ++ added.map .adding) ∧ (∀ e, out ≠ .throw e) ∧
        ∀ u, out = .ok u → ∃ ms : List BrowseResult, ms.map BrowseResult.nodeId = ns ∧
          (∀ m ∈ ms, machines[m.nodeId]? = some m) ∧ o.AddSteps ms s.tables s'.tables
  | [], s, hs, _, _, _ => ⟨hs, ⟨[], .slnil, by simp [Prog.run, pure]⟩, Outcome.ok_ne_throw _,
      fun _ _ => ⟨[], rfl, by simp, .nil _⟩⟩
  | n :: ns, s, hs, hnodup, hfresh, hmap => by
    obtain ⟨m, hm, rfl, htype⟩ := hmap n List.mem_cons_self
    obtain ⟨hclient, honline⟩ := hfresh _ List.mem_cons_self
    obtain ⟨hnotin, hnodup'⟩ := List.nodup_cons.mp hnodup
    rw [Prog.forEach_cons, Prog.ends_bind]
    refine (ends_addUnlessIgnored o hP fuel hs hm hclient honline htype).mono fun out s₁ h₁ => ?_
    obtain ⟨hs₁, ⟨added₁, hadded₁, hevents₁⟩, hthrow₁, hok₁⟩ := h₁
    cases out with
    | throw e => exact absurd rfl (hthrow₁ e)
    | stuck why =>
      have hsub : added₁.Sublist (m.nodeId :: ns) :=
        hadded₁.trans (List.singleton_sublist.mpr List.mem_cons_self)
      exact ⟨hs₁, ⟨added₁, hsub, hevents₁⟩, Outcome.stuck_ne_throw why, fun _ h => by cases h⟩
    | ok u =>
      have hstep := hok₁ u rfl
      -- the machines that follow are not touched by this round
      have hfresh' : ∀ n ∈ ns, n ∉ s₁.tables.dashboardClients ∧ n ∉ s₁.tables.onlineMachines := by
        intro n hn
        have hne : n ≠ m.nodeId := fun h => hnotin (h ▸ hn)
        obtain ⟨hc, ho, -⟩ := hstep.frame hne
        rw [hc, ho]
        exact hfresh n (List.mem_cons_of_mem _ hn)
      rw [Outcome.follow_ok]
      refine (ends_addNewMachines hP fuel ns hs₁ hnodup' hfresh' fun n hn =>
        hmap n (List.mem_cons_of_mem _ hn)).mono fun out s₂ h₂ => ?_
      obtain ⟨hs₂, ⟨added₂, hadded₂, hevents₂⟩, hthrow₂, hok₂⟩ := h₂
      refine ⟨hs₂, ⟨added₁ ++ added₂, hadded₁.append hadded₂, ?_⟩, hthrow₂, fun u' hu' => ?_⟩
      · rw [hevents₂, hevents₁, List.map_append, List.append_assoc]
      obtain ⟨ms, hids, hmem, hsteps⟩ := hok₂ u' hu'
      refine ⟨m :: ms, by simp [hids], fun m' hm' => ?_, .cons hstep hsteps⟩
      rcases List.mem_cons.mp hm' with rfl | h
      · exact hm
      · exact hmem m' h

/-- The search leaves everything but the table of parents as it is. -/
theorem leaves_canBrowseMachineList (hP : PhaseFrame o P) {C : NodeId → Prop}
    (hC : o.BrowsesOnly C) (hs : Stands P s) (fuel : ℕ) :
    (canBrowseMachineList o fuel).Leaves s (ObserverState.Traced P) fun r s' => Stands P s' ∧
      (∃ entered : List NodeId, s'.events = s.events ++ entered.map .entering) ∧
      (∃ parents, s'.tables = s.tables.withParents parents) ∧
      ∀ l, r = some l → ∀ m ∈ l, o.IsMachine C m := by
  have hframe : o.SearchFrame fun s' : ObserverState ω => Stands P s' ∧
      (∃ entered : List NodeId, s'.events = s.events ++ entered.map .entering) ∧
      ∃ parents, s'.tables = s.tables.withParents parents :=
    { world := IgnoresWorld.readsKeep fun _ _ h => h
      subTypes := fun _ _ h => h
      enter := fun s₁ n p h => by
        obtain ⟨h₁, ⟨entered, h₂⟩, parents, h₃⟩ := h
        exact ⟨h₁.put (hP.parent _ n p h₁.1), ⟨entered ++ [n], by simp [h₂]⟩,
          s₁.tables.parentOfMachine.insertIfNew n p, by rw [ObserverState.tables_put, h₃]; rfl⟩ }
  have hkeeps := keeps_canBrowseMachineList o hframe.steps hC fuel s
    ⟨hs, ⟨[], by simp⟩, s.tables.parentOfMachine, rfl⟩
  exact Prog.Ends.mono hkeeps fun out s' h =>
    ⟨h.1.1.2, fun r hr => ⟨h.1.1, h.1.2.1, h.1.2.2, h.2 r hr⟩⟩

/-- A cycle after a successful search, up to the renewal of the cache. -/
def processUntilCache (fuel : ℕ) (toBeRemovedMachines : NodeSet)
    (machineList : List BrowseResult) : ObserverM ω Findings := do
  record (.browsed machineList)
  let _ ← machineListsNotEqual o machineList
  let found ← findNewAndOfflineMachines o machineList toBeRemovedMachines
  removeOfflineMachines o found.toBeRemovedMachines
  Prog.forEach (addUnlessIgnored o fuel (machineMap machineList)) found.newMachines.toList
  pure found

/-- **The cache is renewed at the very end.** -/
theorem processMachineList_eq (fuel : ℕ) (toBeRemovedMachines : NodeSet)
    (machineList : List BrowseResult) :
    processMachineList o fuel toBeRemovedMachines machineList =
      (processUntilCache o fuel toBeRemovedMachines machineList >>= fun found =>
        write fun t => { t with machineIdentificationsCache := found.machinesIdentification }) := by
  simp only [processMachineList, processUntilCache, bind_assoc, pure_bind]

/-- What a cycle has done when it comes to the cache. -/
structure Processed (s : ObserverState ω) (l : List BrowseResult) (found : Findings)
    (s' : ObserverState ω) (ms : List BrowseResult) (checks : List (NodeId × Bool))
    (added : List NodeId) : Prop where
  hchecks : checks.map Prod.fst = l.map BrowseResult.nodeId
  hfound : found.Of (knownNodeIds s.tables) checks
  hnew : ms.map BrowseResult.nodeId = found.newMachines.toList
  hadd : o.AddSteps ms ((s.tables.relist l).removeAll found.toBeRemovedMachines.toList) s'.tables
  hadded : added.Sublist found.newMachines.toList
  hevents : s'.events = s.events ++ .browsed l :: (relistRemoves s.tables l).map .removing ++
    checks.map checkedEvent ++ found.toBeRemovedMachines.toList.map .removing ++
    added.map .adding

/-- **The part of a cycle after a successful search.** -/
theorem leaves_processUntilCache (hP : PhaseFrame o P) {C : NodeId → Prop} (hs : Stands P s)
    (hshown : ∀ n, n ∉ s.tables.knownMachines →
      n ∉ s.tables.dashboardClients ∧ n ∉ s.tables.onlineMachines)
    (fuel : ℕ) {l : List BrowseResult} (hnodup : (l.map BrowseResult.nodeId).Nodup)
    (hl : ∀ m ∈ l, o.IsMachine C m) :
    (processUntilCache o fuel (knownNodeIds s.tables) l).Leaves s (ObserverState.Traced P)
      fun found s' =>
        Stands P s' ∧ ∃ ms checks added, o.Processed s l found s' ms checks added := by
  unfold processUntilCache
  refine Prog.Leaves.bind (Q := fun _ s₁ => s₁ = s.log (.browsed l))
    (Prog.leaves_modify ((ObserverState.traced_log _).mpr hs.2) rfl) ?_
  rintro _ s₁ htr₁ rfl
  have hs₁ : Stands P (s.log (.browsed l)) := ⟨hs.1, htr₁⟩
  have hevents₁ : (s.log (.browsed l)).events = s.events ++ [.browsed l] := rfl
  -- the comparison with the machines listed last
  refine Prog.Leaves.bind (Q := fun _ s₂ => Stands P s₂ ∧ s₂.tables = s.tables.relist l ∧
    s₂.events = s.events ++ .browsed l :: (relistRemoves s.tables l).map .removing) ?_ ?_
  · refine Prog.Ends.mono (ends_machineListsNotEqual o hP hs₁ l) fun out s₂ h => ?_
    obtain ⟨-, hs₂, ht₂, hevents₂⟩ := h
    refine ⟨hs₂.2, fun _ _ => ⟨hs₂, ht₂, ?_⟩⟩
    rw [hevents₂, hevents₁, List.append_assoc]
    rfl
  rintro _ s₂ - ⟨hs₂, ht₂, hevents₂⟩
  -- the check
  refine Prog.Leaves.bind (leaves_findNewAndOfflineMachines o hnodup hs₂.2) ?_
  rintro found s₃ htr₃ ⟨checks, hchecks, hfound, ht₃, hevents₃⟩
  have hs₃ : Stands P s₃ := ⟨ht₃ ▸ hs₂.1, htr₃⟩
  -- the removal
  refine Prog.Leaves.bind (Q := fun _ s₄ => Stands P s₄ ∧
    s₄.tables = (s.tables.relist l).removeAll found.toBeRemovedMachines.toList ∧
    s₄.events = s₃.events ++ found.toBeRemovedMachines.toList.map .removing) ?_ ?_
  · refine Prog.Ends.mono (ends_removeMachines o hP.toRemovalFrame _ hs₃.1 hs₃.2)
      fun out s₄ h => ?_
    obtain ⟨-, ht₄, hevents₄, htr₄⟩ := h
    exact ⟨htr₄, fun _ _ =>
      ⟨⟨ht₄ ▸ hP.removeAll _ hs₃.1, htr₄⟩, by rw [ht₄, ht₃, ht₂], hevents₄⟩⟩
  rintro _ s₄ - ⟨hs₄, ht₄, hevents₄⟩
  -- the additions
  have hfresh : ∀ n ∈ found.newMachines.toList,
      n ∉ s₄.tables.dashboardClients ∧ n ∉ s₄.tables.onlineMachines := fun n hn => by
    rw [Std.ExtTreeSet.mem_toList, hfound.new, mem_knownNodeIds] at hn
    have h := hshown n hn.1
    rw [ht₄, ObserverTables.mem_dashboardClients_removeAll,
      ObserverTables.mem_onlineMachines_removeAll]
    refine ⟨fun hc => h.1 ?_, fun ho => h.2 ?_⟩
    · have hc' := hc.1
      unfold ObserverTables.relist at hc'
      split_ifs at hc'
      · exact hc'
      · exact (ObserverTables.mem_dashboardClients_removeAll.mp hc').1
    · have ho' := ho.1
      unfold ObserverTables.relist at ho'
      split_ifs at ho'
      · exact ho'
      · exact (ObserverTables.mem_onlineMachines_removeAll.mp ho').1
  have hmap : ∀ n ∈ found.newMachines.toList, ∃ m, (machineMap l)[n]? = some m ∧ m.nodeId = n ∧
      m.typeDefinition ∈ o.reader.identificationTypeOfTypeDefinition := fun n hn => by
    rw [Std.ExtTreeSet.mem_toList, hfound.new] at hn
    obtain ⟨m, hm, hid, hlookup⟩ := getElem?_machineMap (l := l) (n := n)
      (hchecks ▸ List.mem_map.mpr ⟨_, hn.2, rfl⟩)
    exact ⟨m, hlookup, hid, (hl m hm).2⟩
  refine Prog.Leaves.bind (Q := fun _ s₅ => Stands P s₅ ∧ (∃ added : List NodeId,
      added.Sublist found.newMachines.toList ∧ s₅.events = s₄.events ++ added.map .adding) ∧
    ∃ ms : List BrowseResult, ms.map BrowseResult.nodeId = found.newMachines.toList ∧
      (∀ m ∈ ms, m ∈ l) ∧ o.AddSteps ms s₄.tables s₅.tables) ?_ ?_
  · refine Prog.Ends.mono (ends_addNewMachines o hP fuel _ hs₄
      found.newMachines.nodup_toList hfresh hmap)
      fun out s₅ h => ?_
    obtain ⟨hs₅, hevents₅, -, hok⟩ := h
    refine ⟨hs₅.2, fun u hu => ⟨hs₅, hevents₅, ?_⟩⟩
    obtain ⟨ms, hids, hms, hsteps⟩ := hok u hu
    refine ⟨ms, hids, fun m hm => ?_, hsteps⟩
    have hn : m.nodeId ∈ found.newMachines.toList := hids ▸ List.mem_map.mpr ⟨m, hm, rfl⟩
    rw [Std.ExtTreeSet.mem_toList, hfound.new] at hn
    obtain ⟨m', hm', -, hlookup⟩ := getElem?_machineMap (l := l) (n := m.nodeId)
      (hchecks ▸ List.mem_map.mpr ⟨_, hn.2, rfl⟩)
    rw [hms m hm] at hlookup
    cases hlookup
    exact hm'
  rintro _ s₅ htr₅ ⟨hs₅, ⟨added, hadded, hevents₅⟩, ms, hids, -, hsteps⟩
  refine Prog.leaves_pure htr₅ ⟨hs₅, ms, checks, added, hchecks, hfound, hids, ht₄ ▸ hsteps,
    hadded, ?_⟩
  rw [hevents₅, hevents₄, hevents₃, hevents₂]

/-- **What a cycle does**, for tables in which only known machines are shown: at every point of
the cycle the tables satisfy what survives its operations, and a cycle that returns has one of
the two results. -/
theorem leaves_updateMachines (hP : CycleFrame o P) {C : NodeId → Prop} (hC : o.BrowsesOnly C)
    (hs : P s.tables) (hshown : ∀ n, n ∉ s.tables.knownMachines →
      n ∉ s.tables.dashboardClients ∧ n ∉ s.tables.onlineMachines) (fuel : ℕ) :
    (updateMachines o fuel).Leaves s.forget (ObserverState.Traced P)
      fun _ s' => P s'.tables ∧ o.CycleResult C s s' := by
  have hs₀ : Stands P s.forget := ⟨hs, fun t h => by cases h⟩
  refine (leaves_tables hs₀.2).bind ?_
  rintro _ _ - ⟨rfl, rfl⟩
  refine (leaves_canBrowseMachineList o hP.toPhaseFrame hC hs₀ fuel).bind ?_
  rintro r s₁ - ⟨hs₁, ⟨entered, hevents₁⟩, ⟨parents, ht₁⟩, hr⟩
  rw [ObserverState.tables_forget] at ht₁ ⊢
  cases r with
  | none => exact Prog.leaves_pure hs₁.2 ⟨hs₁.1, .failed parents entered ht₁ hevents₁⟩
  | some l =>
    have hl : ∀ m ∈ removeDuplicates l, o.IsMachine C m := fun m hm =>
      hr l rfl m (mem_of_mem_removeDuplicates hm)
    have hshown₁ : ∀ n, n ∉ s₁.tables.knownMachines →
        n ∉ s₁.tables.dashboardClients ∧ n ∉ s₁.tables.onlineMachines := by
      rw [ht₁]
      exact hshown
    have hknown : knownNodeIds s.tables = knownNodeIds s₁.tables := by
      rw [ht₁]
      rfl
    dsimp only
    rw [hknown]
    rw [processMachineList_eq]
    refine (leaves_processUntilCache o hP.toPhaseFrame hs₁ hshown₁ fuel
      (nodup_nodeId_removeDuplicates l) hl).bind fun found s₂ _ h => ?_
    obtain ⟨hs₂, ms, checks, added, h⟩ := h
    have hcache := hP.cache s₂.tables found.machinesIdentification hs₂.1 h.hfound.identification
    refine Prog.leaves_modify (hs₂.put hcache).2 ⟨hcache, ?_⟩
    refine .done parents entered added _ ms checks found s₂.tables
      (nodup_nodeId_removeDuplicates l) hl h.hchecks (hknown ▸ h.hfound) h.hnew (ht₁ ▸ h.hadd) rfl
      h.hadded ?_
    rw [ObserverState.events_put, h.hevents, hevents₁, ht₁, ObserverState.events_forget,
      List.nil_append]
    rfl

end Observer

end UmatiDashboard
