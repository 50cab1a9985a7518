import UmatiDashboard.DashboardClient.DataSets
import UmatiDashboard.MachineObserver.Checks

/-!
# Adding the new machines

What one round of the last loop of a cycle does to the tables. `AddStep` says it as a relation:
a machine that is to be skipped is counted down, any other one is tried, and ends up known
without being shown (the two ignored machines), known and shown, or skipped for some time.

The machines of the loop are new: they are neither shown nor do they have a dashboard client.
-/

namespace UmatiDashboard

namespace ObserverTables

variable (t : ObserverTables)

/-- The tables with a machine that is shown. -/
def showMachine (machine : BrowseResult) (c : DashboardClient) (info : MachineInformation) :
    ObserverTables :=
  { t with
    dashboardClients := t.dashboardClients.insertIfNew machine.nodeId c
    onlineMachines := t.onlineMachines.insertIfNew machine.nodeId info
    machineNames := t.machineNames.insertIfNew machine.nodeId machine.browseName.name }

/-- The tables with a machine that is known. -/
def knowMachine (machine : BrowseResult) : ObserverTables :=
  { t with knownMachines := t.knownMachines.insertIfNew machine.nodeId machine }

/-- The tables with a machine that is to be skipped, unless it is one already. -/
def blame (n : NodeId) (error : String) : ObserverTables :=
  { t with invalidMachines :=
      t.invalidMachines.insertIfNew n (Observer.numSkipAfterInvalid, error) }

/-- The tables with a machine that is not to be skipped. -/
def forgive (n : NodeId) : ObserverTables :=
  { t with invalidMachines := t.invalidMachines.erase n }

/-- The tables with a machine that is to be skipped for `count` cycles. -/
def setCount (n : NodeId) (count : Int) (error : String) : ObserverTables :=
  { t with invalidMachines := t.invalidMachines.insert n (count, error) }

theorem forgive_of_notMem {n : NodeId} (h : n ∉ t.invalidMachines) : t.forgive n = t := by
  rw [forgive, NodeMap.erase_of_notMem h]

end ObserverTables

namespace Observer

variable {ω : Type} (o : Observer ω) {s : ObserverState ω}

/-- What is recorded about a machine of a type with an entry in the type map. -/
def shownInformation (t : ObserverTables) (machine : BrowseResult) (ref : NodeRef) :
    MachineInformation :=
  machineInformation t machine (o.reader.node ref).specifiedBrowseName.name

/-- The client has one data set, for the topics of a machine. -/
def HasDataSet (machineNodeId : NodeId) (specification : String) (c : DashboardClient) : Prop :=
  ∃ node, c.dataSets = [⟨machineNodeId, o.topics.machine specification machineNodeId.toString,
    o.topics.onlineStatus machineNodeId.toString, node, ∅⟩]

/-- The outcome of trying to add a machine. -/
inductive AddResult (machine : BrowseResult) (t : ObserverTables) : ObserverTables → Prop where
  | ignored (h : isIgnored machine.nodeId = true) : AddResult machine t (t.knowMachine machine)
  | shown (c : DashboardClient) (ref : NodeRef) (h : isIgnored machine.nodeId = false)
      (href : o.reader.typeMap[machine.typeDefinition]? = some ref)
      (hc : o.HasDataSet machine.nodeId (o.reader.node ref).specifiedBrowseName.name c) :
      AddResult machine t
        ((t.showMachine machine c (o.shownInformation t machine ref)).knowMachine machine)
  | invalid (error : String) (h : isIgnored machine.nodeId = false) :
      AddResult machine t (t.blame machine.nodeId error)

/-- One round of the loop that adds the new machines. -/
inductive AddStep (machine : BrowseResult) (t : ObserverTables) : ObserverTables → Prop where
  | skipped (count : Int) (error : String) (hcount : 1 < count)
      (h : t.invalidMachines[machine.nodeId]? = some (count, error)) :
      AddStep machine t (t.setCount machine.nodeId (count - 1) error)
  | tried (t' : ObserverTables) (h : o.AddResult machine (t.forgive machine.nodeId) t') :
      AddStep machine t t'

/-! ### Adding a machine -/

/-- **`addMachine`** either leaves the tables alone or shows the machine; it throws a
`MachineInvalidException` only, before it has written anything. -/
theorem ends_addMachine (fuel : ℕ) {machine : BrowseResult}
    (hnew : machine.nodeId ∉ s.tables.dashboardClients) :
    (addMachine o fuel machine).Ends s fun out s' => ∃ w,
      match out with
      | .ok _ =>
        (isIgnored machine.nodeId = true ∧
            s' = (s.log (.adding machine.nodeId)).withWorld w) ∨
          (isIgnored machine.nodeId = false ∧
            ∃ c ref, o.reader.typeMap[machine.typeDefinition]? = some ref ∧
              o.HasDataSet machine.nodeId (o.reader.node ref).specifiedBrowseName.name c ∧
              s' = ((s.log (.adding machine.nodeId)).withWorld w).put
                (s.tables.showMachine machine c (o.shownInformation s.tables machine ref)))
      | .throw e =>
        isIgnored machine.nodeId = false ∧ s' = (s.log (.adding machine.nodeId)).withWorld w ∧
          e.isMachineInvalidException = true
      | .stuck _ => s' = (s.log (.adding machine.nodeId)).withWorld w := by
  rw [addMachine, Prog.ends_bind, ends_record, Outcome.follow_ok, Prog.ends_catching]
  split_ifs with hign
  · exact ⟨s.world, .inl ⟨hign, rfl⟩⟩
  have hign' : isIgnored machine.nodeId = false := by simpa using hign
  rw [Prog.ends_bind, ends_liftExcept]
  refine ⟨fun ref href => ?_, fun e he => ?_⟩
  · rw [OpcUaTypeReader.typeDefinitionToStructureNode_eq_ok] at href
    simp only [Outcome.follow_ok, Prog.ends_bind, ends_tables]
    -- a machine that is new has no client that would have to be dropped
    refine (ends_dropDashboardClient o machine.nodeId).mono fun out s₁ h₁ => ?_
    obtain ⟨rfl, ⟨rfl, -⟩ | ⟨hmem, -⟩⟩ := h₁
    · simp only [Outcome.follow_ok, onClient, Prog.ends_zoom, Prog.ends_bind, Prog.ends_map,
        Prog.ends_get]
      refine (DashboardClient.ends_addDataSet o.data o.reader (K := fun _ => True)
        (IDashboardDataClient.readsKeep_of_forall fun _ => trivial) fuel _ _ _ _
        trivial).mono fun out session hout => ?_
      cases out with
      | ok u =>
        obtain ⟨node, hsets⟩ := hout.1 u rfl
        exact ⟨session.world, .inr ⟨hign', session.this, ref, href, ⟨node, hsets⟩, rfl⟩⟩
      | throw e =>
        obtain ⟨⟨what, rfl⟩, -⟩ := hout.2 e rfl
        exact ⟨session.world, hign', rfl, rfl⟩
      | stuck w => exact ⟨session.world, rfl⟩
    · exact absurd hmem hnew
  · unfold OpcUaTypeReader.typeDefinitionToStructureNode at he
    split at he
    · cases he
      exact ⟨s.world, hign', rfl, rfl⟩
    · cases he

/-- **A machine that comes to be shown has a data set**, whatever the tables were before. -/
theorem hasDataSet_of_shown (fuel : ℕ) (machine : BrowseResult) (s : ObserverState ω) :
    (addMachine o fuel machine).Ends s fun _ s' =>
      machine.nodeId ∉ s.tables.onlineMachines → machine.nodeId ∈ s'.tables.onlineMachines →
        ∃ c specification, s'.tables.dashboardClients[machine.nodeId]? = some c ∧
          o.HasDataSet machine.nodeId specification c := by
  rw [addMachine, Prog.ends_bind, ends_record, Outcome.follow_ok, Prog.ends_catching]
  split_ifs
  · exact fun hnot hmem => absurd hmem hnot
  rw [Prog.ends_bind, ends_liftExcept]
  refine ⟨fun ref href => ?_, fun e he => ?_⟩
  · simp only [Outcome.follow_ok, Prog.ends_bind, ends_tables]
    refine (ends_dropDashboardClient o machine.nodeId).mono fun out s₁ h₁ => ?_
    -- whether a client was dropped or not, the machine has none now, and is shown as before
    obtain ⟨honline, hnone⟩ : s₁.tables.onlineMachines = s.tables.onlineMachines ∧
        machine.nodeId ∉ s₁.tables.dashboardClients := by
      obtain ⟨-, ⟨rfl, habsent⟩ | ⟨-, w, rfl⟩⟩ := h₁
      · exact ⟨rfl, habsent⟩
      · exact ⟨rfl, by simp⟩
    obtain rfl := h₁.1
    simp only [Outcome.follow_ok, onClient, Prog.ends_zoom, Prog.ends_bind, Prog.ends_map,
      Prog.ends_get]
    refine (DashboardClient.ends_addDataSet o.data o.reader
      (K := fun _ => True) (IDashboardDataClient.readsKeep_of_forall fun _ => trivial) fuel _ _ _ _
      trivial).mono fun out session hout => ?_
    cases out with
    | ok u =>
      obtain ⟨node, hsets⟩ := hout.1 u rfl
      have hsets' : session.this.dataSets = [_] := hsets
      simp only [Outcome.follow_ok, ends_write, Outcome.rescue_ok]
      refine fun _ _ => ⟨session.this, _, ?_, node, hsets'⟩
      have hnone' : machine.nodeId ∉ (s₁.withWorld session.world).tables.dashboardClients := hnone
      rw [ObserverState.tables_put, Std.ExtTreeMap.getElem?_insertIfNew,
        if_pos ⟨Std.ReflCmp.compare_self, hnone'⟩]
    | throw e =>
      obtain ⟨⟨what, rfl⟩, -⟩ := hout.2 e rfl
      exact fun hnot hmem => absurd (honline ▸ hmem) hnot
    | stuck w => exact fun hnot hmem => absurd (honline ▸ hmem) hnot
  · rw [Outcome.follow_throw, Outcome.rescue_throw]
    split_ifs
    · exact fun hnot hmem => absurd hmem hnot
    · exact fun hnot hmem => absurd hmem hnot

/-! ### The loop -/

variable {P : ObserverTables → Prop}

/-- A predicate on tables that survives each operation of a cycle before the cache is renewed.
For the additions it may rely on what the cycle has made sure of before. -/
structure PhaseFrame (P : ObserverTables → Prop) : Prop extends RemovalFrame P where
  parent : ∀ t (n p : NodeId), P t →
    P { t with parentOfMachine := t.parentOfMachine.insertIfNew n p }
  relist : ∀ t l, P t → P { t with knownMachineToolsSet := l }
  setCount : ∀ t n c e, P t → n ∈ t.invalidMachines → P (t.setCount n c e)
  forgive : ∀ t n, P t → P (t.forgive n)
  know : ∀ t machine, P t → P (t.knowMachine machine)
  show_ : ∀ t machine c ref, P t → machine.nodeId ∉ t.invalidMachines →
    machine.nodeId ∉ t.dashboardClients → machine.nodeId ∉ t.onlineMachines →
    machine.typeDefinition ∈ o.reader.identificationTypeOfTypeDefinition →
    o.reader.typeMap[machine.typeDefinition]? = some ref →
    o.HasDataSet machine.nodeId (o.reader.node ref).specifiedBrowseName.name c →
    P (t.showMachine machine c (o.shownInformation t machine ref))
  blame : ∀ t n e, P t → n ∉ t.onlineMachines → P (t.blame n e)

/-- A predicate on tables that survives each operation of a cycle. -/
structure CycleFrame (P : ObserverTables → Prop) : Prop extends PhaseFrame o P where
  cache : ∀ t (ids : NodeMap Json), P t →
    (∀ (n : NodeId) json, ids[n]? = some json → IsIdentification json) →
    P { t with machineIdentificationsCache := ids }

/-- A state in which the tables, now and since the cycle began, satisfy `P`. -/
def Stands (P : ObserverTables → Prop) (s : ObserverState ω) : Prop :=
  P s.tables ∧ ObserverState.Traced P s

theorem Stands.put (h : Stands P s) {t : ObserverTables} (ht : P t) : Stands P (s.put t) :=
  ⟨ht, ObserverState.traced_put.mpr ⟨h.2, ht⟩⟩

/-- **`addNewMachine`** never throws. -/
theorem ends_addNewMachine (hP : PhaseFrame o P) (fuel : ℕ) {machine : BrowseResult}
    (hs : Stands P s) (hclient : machine.nodeId ∉ s.tables.dashboardClients)
    (honline : machine.nodeId ∉ s.tables.onlineMachines)
    (hvalid : machine.nodeId ∉ s.tables.invalidMachines)
    (htype : machine.typeDefinition ∈ o.reader.identificationTypeOfTypeDefinition) :
    (addNewMachine o fuel machine).Ends s fun out s' => Stands P s' ∧
      s'.events = s.events ++ [.adding machine.nodeId] ∧
      (∀ e, out ≠ .throw e) ∧
      ∀ u, out = .ok u → o.AddResult machine s.tables s'.tables := by
  rw [addNewMachine, Prog.ends_catching, Prog.ends_bind]
  refine (ends_addMachine o fuel hclient).mono fun out s₁ h₁ => ?_
  obtain ⟨w, h₁⟩ := h₁
  cases out with
  | ok _ =>
    simp only [Outcome.follow_ok, ends_write, Outcome.rescue_ok]
    rcases h₁ with ⟨hign, rfl⟩ | ⟨hign, c, ref, href, hc, rfl⟩
    · have h' : Stands P ((s.log (.adding machine.nodeId)).withWorld w) := hs
      exact ⟨h'.put (hP.know _ machine hs.1), by simp, by simp, fun _ _ => .ignored hign⟩
    · have hshown := hP.show_ s.tables machine c ref hs.1 hvalid hclient honline htype
        href hc
      have h' : Stands P (((s.log (.adding machine.nodeId)).withWorld w).put
          (s.tables.showMachine machine c (o.shownInformation s.tables machine ref))) :=
        Stands.put (s := (s.log (.adding machine.nodeId)).withWorld w) hs hshown
      exact ⟨h'.put (hP.know _ machine hshown), by simp, by simp,
        fun _ _ => .shown c ref hign href hc⟩
  | throw e =>
    obtain ⟨hign, rfl, he⟩ := h₁
    simp only [Outcome.follow_throw, Outcome.rescue_throw, isInvalidOrOffline, he, Bool.true_or,
      if_true, ends_write]
    have h' : Stands P ((s.log (.adding machine.nodeId)).withWorld w) := hs
    exact ⟨h'.put (hP.blame _ _ _ hs.1 honline), by simp, by simp,
      fun _ _ => .invalid e.what hign⟩
  | stuck why =>
    obtain rfl := h₁
    exact ⟨hs, rfl, Outcome.stuck_ne_throw why, fun _ h => by cases h⟩

/-- **One round of the loop.** -/
theorem ends_addUnlessIgnored (hP : PhaseFrame o P) (fuel : ℕ) {machines : NodeMap BrowseResult}
    {machine : BrowseResult} (hs : Stands P s)
    (hmachine : machines[machine.nodeId]? = some machine)
    (hclient : machine.nodeId ∉ s.tables.dashboardClients)
    (honline : machine.nodeId ∉ s.tables.onlineMachines)
    (htype : machine.typeDefinition ∈ o.reader.identificationTypeOfTypeDefinition) :
    (addUnlessIgnored o fuel machines machine.nodeId).Ends s fun out s' => Stands P s' ∧
      (∃ added : List NodeId, added.Sublist [machine.nodeId] ∧
        s'.events = s.events ++ added.map .adding) ∧ (∀ e, out ≠ .throw e) ∧
      ∀ u, out = .ok u → o.AddStep machine s.tables s'.tables := by
  rw [addUnlessIgnored, ignoreInvalidMachinesTemporarily, Prog.ends_bind, Prog.ends_bind,
    ends_tables, Outcome.follow_ok, hmachine, Option.getD_some]
  cases h : s.tables.invalidMachines[machine.nodeId]? with
  | none =>
    have hvalid : machine.nodeId ∉ s.tables.invalidMachines := by simpa using h
    simp only [Prog.ends_pure, Outcome.follow_ok]
    refine (ends_addNewMachine o hP fuel hs hclient honline hvalid htype).mono
      fun out s' hout => ⟨hout.1, ⟨[machine.nodeId], List.Sublist.refl _, hout.2.1⟩,
        hout.2.2.1, fun u hu => .tried _ ?_⟩
    rw [ObserverTables.forgive_of_notMem _ hvalid]
    exact hout.2.2.2 u hu
  | some entry =>
    obtain ⟨count, error⟩ := entry
    have hmem : machine.nodeId ∈ s.tables.invalidMachines := NodeMap.mem_of_getElem? h
    dsimp only
    split_ifs with hcount
    · simp only [Prog.ends_bind, ends_write, Outcome.follow_ok, Prog.ends_pure]
      have hs' : Stands P (s.put (s.tables.forgive machine.nodeId)) :=
        hs.put (hP.forgive _ _ hs.1)
      refine (ends_addNewMachine o hP fuel hs' hclient honline ?_ htype).mono
        fun out s' hout => ⟨hout.1, ⟨[machine.nodeId], List.Sublist.refl _, hout.2.1⟩,
          hout.2.2.1, fun u hu => .tried _ (hout.2.2.2 u hu)⟩
      simp [ObserverTables.forgive]
    · simp only [Prog.ends_bind, ends_write, Outcome.follow_ok, Prog.ends_pure]
      exact ⟨hs.put (hP.setCount _ _ _ _ hs.1 hmem),
        ⟨[], List.nil_sublist _, by simp [Prog.run, pure]⟩, Outcome.ok_ne_throw _,
        fun _ _ => .skipped count error (by omega) h⟩

/-- The rounds of the loop, one for each machine of a list. -/
inductive AddSteps : List BrowseResult → ObserverTables → ObserverTables → Prop where
  | nil (t : ObserverTables) : AddSteps [] t t
  | cons {machine : BrowseResult} {ms : List BrowseResult} {t t₁ t₂ : ObserverTables}
      (first : o.AddStep machine t t₁) (rest : AddSteps ms t₁ t₂) : AddSteps (machine :: ms) t t₂

variable {o}

/-- A round concerns one machine: whether another one has a dashboard client, or is shown, or
known, or to be skipped, stays as it is. -/
theorem AddStep.frame {machine : BrowseResult} {t t' : ObserverTables}
    (h : o.AddStep machine t t') {n : NodeId} (hn : n ≠ machine.nodeId) :
    (n ∈ t'.dashboardClients ↔ n ∈ t.dashboardClients) ∧
      (n ∈ t'.onlineMachines ↔ n ∈ t.onlineMachines) ∧
      (n ∈ t'.knownMachines ↔ n ∈ t.knownMachines) ∧
      (n ∈ t'.invalidMachines ↔ n ∈ t.invalidMachines) := by
  have hn' := Ne.symm hn
  cases h with
  | skipped => simp [ObserverTables.setCount, hn']
  | tried _ h =>
    cases h with
    | ignored => simp [ObserverTables.knowMachine, ObserverTables.forgive, hn']
    | shown =>
      simp [ObserverTables.knowMachine, ObserverTables.showMachine, ObserverTables.forgive, hn']
    | invalid => simp [ObserverTables.blame, ObserverTables.forgive, hn']

/-- A round leaves the set of listed machines alone. -/
theorem AddStep.listed {machine : BrowseResult} {t t' : ObserverTables}
    (h : o.AddStep machine t t') : t'.knownMachineToolsSet = t.knownMachineToolsSet := by
  cases h with
  | skipped => rfl
  | tried _ h => cases h <;> rfl

theorem AddSteps.listed {ms : List BrowseResult} {t t' : ObserverTables}
    (h : o.AddSteps ms t t') : t'.knownMachineToolsSet = t.knownMachineToolsSet := by
  induction h with
  | nil => rfl
  | cons first _ ih => exact ih.trans first.listed

/-- The rounds concern their own machines. -/
theorem AddSteps.frame {ms : List BrowseResult} {t t' : ObserverTables}
    (h : o.AddSteps ms t t') {n : NodeId} (hn : n ∉ ms.map BrowseResult.nodeId) :
    (n ∈ t'.dashboardClients ↔ n ∈ t.dashboardClients) ∧
      (n ∈ t'.onlineMachines ↔ n ∈ t.onlineMachines) ∧
      (n ∈ t'.knownMachines ↔ n ∈ t.knownMachines) ∧
      (n ∈ t'.invalidMachines ↔ n ∈ t.invalidMachines) := by
  induction h with
  | nil => exact ⟨Iff.rfl, Iff.rfl, Iff.rfl, Iff.rfl⟩
  | cons first _ ih =>
    rw [List.map_cons, List.mem_cons, not_or] at hn
    obtain ⟨h₁, h₂, h₃, h₄⟩ := first.frame hn.1
    obtain ⟨k₁, k₂, k₃, k₄⟩ := ih hn.2
    exact ⟨k₁.trans h₁, k₂.trans h₂, k₃.trans h₃, k₄.trans h₄⟩

end Observer

end UmatiDashboard
