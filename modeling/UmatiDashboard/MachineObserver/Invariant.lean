import UmatiDashboard.MachineObserver.Cycle

/-!
# The invariant of the tables

`Coherent` is what holds of the tables between two cycles, whatever the data client answers. It
takes the property of having a cached identification as a parameter: inside of a cycle the
machines that are shown are compared with the identifications just read, which replace the
cache at its end.
-/

namespace UmatiDashboard

/-- The tables of machines fit together. -/
structure Coherent (cached : NodeId → Prop) (t : ObserverTables) : Prop where
  clients_iff : ∀ n : NodeId, n ∈ t.dashboardClients ↔ n ∈ t.onlineMachines
  online_known : ∀ n : NodeId, n ∈ t.onlineMachines → n ∈ t.knownMachines
  online_named : ∀ n : NodeId, n ∈ t.onlineMachines → n ∈ t.machineNames
  online_cached : ∀ n : NodeId, n ∈ t.onlineMachines → cached n
  online_notIgnored : ∀ n : NodeId, n ∈ t.onlineMachines → Observer.isIgnored n = false
  known_shown : ∀ n : NodeId, n ∈ t.knownMachines → Observer.isIgnored n = false →
    n ∈ t.onlineMachines
  known_valid : ∀ n : NodeId, n ∈ t.knownMachines → n ∉ t.invalidMachines
  counted : ∀ (n : NodeId) count error, t.invalidMachines[n]? = some (count, error) →
    1 ≤ count ∧ count ≤ Observer.numSkipAfterInvalid

namespace Coherent

variable {ω : Type} {o : Observer ω} {cached cached' : NodeId → Prop} {t t' : ObserverTables}

theorem empty (cached : NodeId → Prop) : Coherent cached .empty := by
  constructor <;> simp [ObserverTables.empty]

/-- Machines that are not known are not shown. -/
theorem unshown (h : Coherent cached t) {n : NodeId} (hn : n ∉ t.knownMachines) :
    n ∉ t.dashboardClients ∧ n ∉ t.onlineMachines := by
  have honline : n ∉ t.onlineMachines := fun ho => hn (h.online_known n ho)
  exact ⟨fun hc => honline ((h.clients_iff n).mp hc), honline⟩

theorem imp (h : Coherent cached t) (hc : ∀ n, n ∈ t.onlineMachines → cached' n) :
    Coherent cached' t :=
  { h with online_cached := hc }

/-- The tables of machines are those named here; the others do not matter. -/
theorem congr (h : Coherent cached t) (hknown : t'.knownMachines = t.knownMachines)
    (hclients : t'.dashboardClients = t.dashboardClients)
    (honline : t'.onlineMachines = t.onlineMachines) (hnames : t'.machineNames = t.machineNames)
    (hinvalid : t'.invalidMachines = t.invalidMachines) : Coherent cached t' := by
  constructor
  · rw [hclients, honline]; exact h.clients_iff
  · rw [hknown, honline]; exact h.online_known
  · rw [hnames, honline]; exact h.online_named
  · rw [honline]; exact h.online_cached
  · rw [honline]; exact h.online_notIgnored
  · rw [hknown, honline]; exact h.known_shown
  · rw [hknown, hinvalid]; exact h.known_valid
  · rw [hinvalid]; exact h.counted

theorem removeAll (h : Coherent cached t) (ns : List NodeId) :
    Coherent cached (t.removeAll ns) := by
  obtain ⟨-, -, -, hinvalid, hnames⟩ := t.removeAll_frame ns
  constructor
  · intro n
    rw [ObserverTables.mem_dashboardClients_removeAll, ObserverTables.mem_onlineMachines_removeAll,
      h.clients_iff]
  · intro n hn
    rw [ObserverTables.mem_onlineMachines_removeAll] at hn
    exact ObserverTables.mem_knownMachines_removeAll.mpr ⟨h.online_known n hn.1, hn.2⟩
  · intro n hn
    rw [hnames]
    exact h.online_named n (ObserverTables.mem_onlineMachines_removeAll.mp hn).1
  · exact fun n hn => h.online_cached n (ObserverTables.mem_onlineMachines_removeAll.mp hn).1
  · exact fun n hn => h.online_notIgnored n (ObserverTables.mem_onlineMachines_removeAll.mp hn).1
  · intro n hn hign
    rw [ObserverTables.mem_knownMachines_removeAll] at hn
    exact ObserverTables.mem_onlineMachines_removeAll.mpr ⟨h.known_shown n hn.1 hign, hn.2⟩
  · intro n hn
    rw [hinvalid]
    exact h.known_valid n (ObserverTables.mem_knownMachines_removeAll.mp hn).1
  · rw [hinvalid]
    exact h.counted

theorem relist (h : Coherent cached t) (l : List BrowseResult) : Coherent cached (t.relist l) := by
  unfold ObserverTables.relist
  split_ifs
  · exact h
  · exact (h.removeAll _).congr rfl rfl rfl rfl rfl

section Additions

variable {machine : BrowseResult}

theorem setCount (h : Coherent cached t) (hnew : machine.nodeId ∉ t.knownMachines) {count : Int}
    {error : String} (hcount : 1 ≤ count ∧ count ≤ Observer.numSkipAfterInvalid) :
    Coherent cached (t.setCount machine.nodeId count error) := by
  refine { h with known_valid := fun n hn => ?_, counted := fun n c e he => ?_ }
  · have hne : n ≠ machine.nodeId := fun heq => hnew (heq ▸ hn)
    simpa [ObserverTables.setCount, Ne.symm hne] using h.known_valid n hn
  · rw [ObserverTables.setCount, Std.ExtTreeMap.getElem?_insert] at he
    split_ifs at he
    · cases he
      exact hcount
    · exact h.counted n c e he

theorem forgive (h : Coherent cached t) (n : NodeId) : Coherent cached (t.forgive n) := by
  refine { h with known_valid := fun m hm => ?_, counted := fun m c e he => ?_ }
  · have hvalid := h.known_valid m hm
    simp only [ObserverTables.forgive, Std.ExtTreeMap.mem_erase]
    exact fun hmem => hvalid hmem.2
  · rw [ObserverTables.forgive, Std.ExtTreeMap.getElem?_erase] at he
    split_ifs at he
    exact h.counted m c e he

theorem blame (h : Coherent cached t) (hnew : machine.nodeId ∉ t.knownMachines)
    (error : String) :
    Coherent cached (t.blame machine.nodeId error) := by
  refine { h with known_valid := fun n hn => ?_, counted := fun n c e he => ?_ }
  · have hne : n ≠ machine.nodeId := fun heq => hnew (heq ▸ hn)
    simpa [ObserverTables.blame, Ne.symm hne] using h.known_valid n hn
  · rw [ObserverTables.blame, Std.ExtTreeMap.getElem?_insertIfNew] at he
    split_ifs at he
    · cases he
      simp [Observer.numSkipAfterInvalid]
    · exact h.counted n c e he

/-- Knowing a machine that is not shown is for the ignored ones. -/
theorem know (h : Coherent cached t)
    (hshown : machine.nodeId ∈ t.onlineMachines ∨ Observer.isIgnored machine.nodeId = true)
    (hvalid : machine.nodeId ∉ t.invalidMachines) :
    Coherent cached (t.knowMachine machine) := by
  refine { h with
    online_known := fun n hn => ?_, known_shown := fun n hn hign => ?_,
    known_valid := fun n hn => ?_ }
  · exact Std.ExtTreeMap.mem_insertIfNew.mpr (.inr (h.online_known n hn))
  · rcases Std.ExtTreeMap.mem_insertIfNew.mp hn with heq | hn
    · obtain rfl := Std.LawfulEqOrd.eq_of_compare heq
      rcases hshown with ho | hi
      · exact ho
      · rw [hi] at hign
        cases hign
    · exact h.known_shown n hn hign
  · rcases Std.ExtTreeMap.mem_insertIfNew.mp hn with heq | hn
    · obtain rfl := Std.LawfulEqOrd.eq_of_compare heq
      exact hvalid
    · exact h.known_valid n hn

/-- A machine that is shown, and known right after. -/
theorem showKnown (h : Coherent cached t) (c : DashboardClient) (info : MachineInformation)
    (hcached : cached machine.nodeId) (hign : Observer.isIgnored machine.nodeId = false)
    (hvalid : machine.nodeId ∉ t.invalidMachines) :
    Coherent cached ((t.showMachine machine c info).knowMachine machine) := by
  constructor
  · intro n
    simp only [ObserverTables.knowMachine, ObserverTables.showMachine,
      Std.ExtTreeMap.mem_insertIfNew, h.clients_iff n]
  · intro n hn
    rcases Std.ExtTreeMap.mem_insertIfNew.mp hn with heq | hn
    · exact Std.ExtTreeMap.mem_insertIfNew.mpr (.inl heq)
    · exact Std.ExtTreeMap.mem_insertIfNew.mpr (.inr (h.online_known n hn))
  · intro n hn
    rcases Std.ExtTreeMap.mem_insertIfNew.mp hn with heq | hn
    · exact Std.ExtTreeMap.mem_insertIfNew.mpr (.inl heq)
    · exact Std.ExtTreeMap.mem_insertIfNew.mpr (.inr (h.online_named n hn))
  · intro n hn
    rcases Std.ExtTreeMap.mem_insertIfNew.mp hn with heq | hn
    · obtain rfl := Std.LawfulEqOrd.eq_of_compare heq
      exact hcached
    · exact h.online_cached n hn
  · intro n hn
    rcases Std.ExtTreeMap.mem_insertIfNew.mp hn with heq | hn
    · obtain rfl := Std.LawfulEqOrd.eq_of_compare heq
      exact hign
    · exact h.online_notIgnored n hn
  · intro n hn hign
    rcases Std.ExtTreeMap.mem_insertIfNew.mp hn with heq | hn
    · exact Std.ExtTreeMap.mem_insertIfNew.mpr (.inl heq)
    · exact Std.ExtTreeMap.mem_insertIfNew.mpr (.inr (h.known_shown n hn hign))
  · intro n hn
    rcases Std.ExtTreeMap.mem_insertIfNew.mp hn with heq | hn
    · obtain rfl := Std.LawfulEqOrd.eq_of_compare heq
      exact hvalid
    · exact h.known_valid n hn
  · exact h.counted

/-- **A round of the loop keeps the tables coherent.** -/
theorem addStep (h : Coherent cached t) (hnew : machine.nodeId ∉ t.knownMachines)
    (hcached : cached machine.nodeId) (hstep : o.AddStep machine t t') : Coherent cached t' := by
  cases hstep with
  | skipped count error hcount hentry =>
    have hbounds := h.counted _ _ _ hentry
    exact h.setCount hnew ⟨by omega, by omega⟩
  | tried _ hresult =>
    have hforgiven := h.forgive machine.nodeId
    have hvalid : machine.nodeId ∉ (t.forgive machine.nodeId).invalidMachines := by
      simp [ObserverTables.forgive]
    cases hresult with
    | ignored hign => exact hforgiven.know (.inr hign) hvalid
    | shown c ref hign href => exact hforgiven.showKnown c _ hcached hign hvalid
    | invalid error hign => exact hforgiven.blame hnew error

end Additions

/-- **The loop that adds new machines keeps the tables coherent.** -/
theorem addSteps {ms : List BrowseResult} (hsteps : o.AddSteps ms t t')
    (h : Coherent cached t) (hnodup : (ms.map BrowseResult.nodeId).Nodup)
    (hnew : ∀ m ∈ ms, m.nodeId ∉ t.knownMachines ∧ cached m.nodeId) : Coherent cached t' := by
  induction hsteps with
  | nil t => exact h
  | @cons machine ms t t₁ t₂ first rest ih =>
    obtain ⟨hnotin, hnodup'⟩ := List.nodup_cons.mp hnodup
    obtain ⟨hknown, hcached⟩ := hnew machine List.mem_cons_self
    refine ih (h.addStep hknown hcached first) hnodup' fun m hm => ?_
    have hne : m.nodeId ≠ machine.nodeId := fun heq =>
      hnotin (heq ▸ List.mem_map.mpr ⟨m, hm, rfl⟩)
    obtain ⟨-, -, hknown', -⟩ := first.frame hne
    rw [hknown']
    exact hnew m (List.mem_cons_of_mem _ hm)

end Coherent

namespace Observer

variable {ω : Type} {o : Observer ω} {C : NodeId → Prop} {s s' : ObserverState ω}

/-- The tables fit together, and each machine that is shown has a cached identification. -/
def CoherentTables (t : ObserverTables) : Prop :=
  Coherent (· ∈ t.machineIdentificationsCache) t

theorem mem_knownMachines_of_mem_relist {t : ObserverTables} {parents : NodeMap NodeId}
    {l : List BrowseResult} {n : NodeId}
    (h : n ∈ ((t.withParents parents).relist l).knownMachines) : n ∈ t.knownMachines := by
  unfold ObserverTables.relist at h
  split_ifs at h
  · exact h
  · exact (ObserverTables.mem_knownMachines_removeAll.mp h).1

/-- **A cycle keeps the tables coherent.** -/
theorem CycleResult.coherent (h : o.CycleResult C s s') (hs : CoherentTables s.tables) :
    CoherentTables s'.tables := by
  cases h with
  | failed parents entered htables hevents =>
    rw [CoherentTables, htables]
    exact Coherent.congr hs rfl rfl rfl rfl rfl
  | done parents entered added l ms checks found t hnodup hmachine hchecks hfound hnew hadd htables
      hadded hevents =>
    have hparents : Coherent (· ∈ s.tables.machineIdentificationsCache)
        (s.tables.withParents parents) := Coherent.congr hs rfl rfl rfl rfl rfl
    have hremoved := (hparents.relist l).removeAll found.toBeRemovedMachines.toList
    -- a machine that is left was online in this cycle
    have hleft : Coherent (· ∈ found.machinesIdentification)
        (((s.tables.withParents parents).relist l).removeAll
          found.toBeRemovedMachines.toList) := by
      refine hremoved.imp fun n hn => ?_
      have hknown := hremoved.online_known n hn
      rw [ObserverTables.mem_knownMachines_removeAll, Std.ExtTreeSet.mem_toList,
        hfound.toBeRemoved, mem_knownNodeIds] at hknown
      have hk : n ∈ s.tables.knownMachines := mem_knownMachines_of_mem_relist hknown.1
      rw [hfound.identified]
      by_contra hnot
      exact hknown.2 ⟨hk, hnot⟩
    have hms : (ms.map BrowseResult.nodeId).Nodup := by
      rw [hnew]
      exact found.newMachines.nodup_toList
    have hend := Coherent.addSteps hadd hleft hms fun m hm => by
      have hn : m.nodeId ∈ found.newMachines.toList := hnew ▸ List.mem_map.mpr ⟨m, hm, rfl⟩
      rw [Std.ExtTreeSet.mem_toList, hfound.new, mem_knownNodeIds] at hn
      refine ⟨fun hk => hn.1 (mem_knownMachines_of_mem_relist
        (ObserverTables.mem_knownMachines_removeAll.mp hk).1), ?_⟩
      exact (hfound.identified _).mpr hn.2
    rw [CoherentTables, htables]
    exact hend.congr rfl rfl rfl rfl rfl

/-! ### The listed machines -/

/-- A machine is known only if it is listed, and every listed identifier satisfies `C`. -/
def ListedTables (C : NodeId → Prop) (t : ObserverTables) : Prop :=
  (∀ n : NodeId, n ∈ t.knownMachines → n ∈ t.knownMachineToolsSet) ∧
    ∀ n : NodeId, n ∈ t.knownMachineToolsSet → C n

/-- Identifiers for which the two notions of identity agree. -/
def Separated (C : NodeId → Prop) : Prop := ∀ a b : NodeId, C a → C b → a.equals b → a = b

/-- Sets of such identifiers are compared exactly. -/
theorem eq_of_setEquals (hsep : Separated C) {a b : NodeSet} (ha : ∀ n ∈ a, C n)
    (hb : ∀ n ∈ b, C n) (h : setEquals a b = true) : a = b := by
  have hlists : ∀ as bs : List NodeId, (∀ n ∈ as, C n) → (∀ n ∈ bs, C n) →
      as.isEqv bs NodeId.equals = true → as = bs := by
    intro as
    induction as with
    | nil =>
      intro bs _ _ h
      cases bs with
      | nil => rfl
      | cons b bs => cases h
    | cons x xs ih =>
      intro bs hx hbs h
      cases bs with
      | nil => cases h
      | cons b bs =>
        rw [List.isEqv, Bool.and_eq_true] at h
        rw [hsep x b (hx x List.mem_cons_self) (hbs b List.mem_cons_self) h.1,
          ih bs (fun n hn => hx n (List.mem_cons_of_mem _ hn))
            (fun n hn => hbs n (List.mem_cons_of_mem _ hn)) h.2]
  have hlist : a.toList = b.toList :=
    hlists _ _ (fun n hn => ha n (Std.ExtTreeSet.mem_toList.mp hn))
      (fun n hn => hb n (Std.ExtTreeSet.mem_toList.mp hn)) h
  refine Std.ExtTreeSet.ext_mem fun n => ?_
  rw [← Std.ExtTreeSet.mem_toList, hlist, Std.ExtTreeSet.mem_toList]

/-- **A cycle keeps the known machines listed.** -/
theorem CycleResult.listed (h : o.CycleResult C s s') (hsep : Separated C)
    (hs : ListedTables C s.tables) : ListedTables C s'.tables := by
  cases h with
  | failed parents entered htables hevents =>
    rw [htables]
    exact hs
  | done parents entered added l ms checks found t hnodup hmachine hchecks hfound hnew hadd htables
      hadded hevents =>
    rw [htables]
    have hids : ∀ n ∈ nodeIds l, C n := fun n hn => by
      obtain ⟨m, hm, rfl⟩ := List.mem_map.mp (mem_nodeIds.mp hn)
      exact (hmachine m hm).1
    -- after the comparison the listed machines are those of the browsed list
    have hrelist : ((s.tables.withParents parents).relist l).knownMachineToolsSet = nodeIds l ∧
        ∀ n, n ∈ ((s.tables.withParents parents).relist l).knownMachines → n ∈ nodeIds l := by
      unfold ObserverTables.relist
      split_ifs with hsame
      · have heq : nodeIds l = s.tables.knownMachineToolsSet :=
          eq_of_setEquals hsep hids hs.2 hsame
        rw [heq]
        exact ⟨rfl, hs.1⟩
      · refine ⟨rfl, fun n hn => ?_⟩
        have hn' := ObserverTables.mem_knownMachines_removeAll.mp hn
        exact absurd (Std.ExtTreeSet.mem_toList.mpr (hs.1 n hn'.1)) hn'.2
    have hset : t.knownMachineToolsSet = nodeIds l := by
      rw [hadd.listed, (ObserverTables.removeAll_frame _ _).1, hrelist.1]
    refine ⟨fun n hn => ?_, fun n hn => ?_⟩
    · change n ∈ t.knownMachineToolsSet
      rw [hset]
      by_cases hms : n ∈ ms.map BrowseResult.nodeId
      · rw [hnew, Std.ExtTreeSet.mem_toList, hfound.new] at hms
        exact mem_nodeIds.mpr (hchecks ▸ List.mem_map.mpr ⟨_, hms.2, rfl⟩)
      · have hn' := (hadd.frame hms).2.2.1.mp hn
        exact hrelist.2 n (ObserverTables.mem_knownMachines_removeAll.mp hn').1
    · change n ∈ t.knownMachineToolsSet at hn
      rw [hset] at hn
      exact hids n hn

/-! ### No machine is shown and skipped -/

/-- No machine is both shown and to be skipped. -/
def ShownValid (t : ObserverTables) : Prop :=
  ∀ n : NodeId, n ∈ t.onlineMachines → n ∉ t.invalidMachines

/-- **Showing and skipping exclude each other at every point of a cycle.** -/
theorem shownValid_cycleFrame (o : Observer ω) : o.CycleFrame ShownValid where
  eraseKnown _ _ h := h
  eraseClient _ _ h := h
  eraseOnline t n h := fun m hm => h m (Std.ExtTreeMap.mem_of_mem_erase hm)
  parent _ _ _ h := h
  relist _ _ h := h
  setCount t n c e h hn := fun m hm hmem => by
    rcases Std.ExtTreeMap.mem_insert.mp hmem with heq | hmem
    · obtain rfl := Std.LawfulEqOrd.eq_of_compare heq
      exact h n hm hn
    · exact h m hm hmem
  forgive t n h := fun m hm hmem => h m hm (Std.ExtTreeMap.mem_of_mem_erase hmem)
  know _ _ h := h
  show_ t machine c ref h hvalid _ _ _ _ _ := fun m hm => by
    rcases Std.ExtTreeMap.mem_insertIfNew.mp hm with heq | hm
    · obtain rfl := Std.LawfulEqOrd.eq_of_compare heq
      exact hvalid
    · exact h m hm
  blame t n e h hn := fun m hm hmem => by
    rcases Std.ExtTreeMap.mem_insertIfNew.mp hmem with heq | hmem
    · obtain rfl := Std.LawfulEqOrd.eq_of_compare heq
      exact hn hm
    · exact h m hm hmem
  cache _ _ h _ := h

theorem CoherentTables.shownValid {t : ObserverTables} (h : CoherentTables t) : ShownValid t :=
  fun n hn => h.known_valid n (h.online_known n hn)

end Observer

end UmatiDashboard
