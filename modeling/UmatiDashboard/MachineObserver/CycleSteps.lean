import UmatiDashboard.MachineObserver.Checks

/-!
# Invariants of whole cycles

An invariant of the observer's state that the search keeps, that does not depend on the record,
that survives every write which leaves the dashboard clients alone, and that is kept when a
dashboard client is dropped and when a machine is added, is kept by a cycle, however it ends
(`keeps_updateMachines`).
-/

namespace UmatiDashboard

namespace Observer

variable {ω : Type} (o : Observer ω) {J : ObserverState ω → Prop}

/-- The steps of a cycle keep the invariant. -/
structure CycleSteps (J : ObserverState ω → Prop) : Prop where
  search : o.SearchSteps J
  log : ∀ s e, J s → J (s.log e)
  put : ∀ s t, J s → t.dashboardClients = s.tables.dashboardClients → J (s.put t)
  drop : ∀ n, (dropDashboardClient o n).Keeps J fun _ => True
  add : ∀ fuel machine, (addMachine o fuel machine).Keeps J fun _ => True

namespace CycleSteps

variable {o} (hJ : o.CycleSteps J)

include hJ

theorem keeps_record (e : ObserverEvent) :
    (record e : ObserverM ω Unit).Keeps J fun _ => True :=
  Observer.keeps_record fun s hs => hJ.log s e hs

theorem keeps_write {f : ObserverTables → ObserverTables}
    (hf : ∀ t, (f t).dashboardClients = t.dashboardClients) :
    (write f : ObserverM ω Unit).Keeps J fun _ => True :=
  Observer.keeps_write fun s hs => hJ.put s _ hs (hf s.tables)

omit hJ in
theorem keeps_tables : (tables : ObserverM ω ObserverTables).Keeps J fun _ => True := fun _ hs =>
  ⟨hs, fun _ _ => trivial⟩

theorem keeps_removeMachine (n : NodeId) : (removeMachine o n).Keeps J fun _ => True := by
  refine (hJ.keeps_record _).bind fun _ _ => (hJ.keeps_write ?_).bind fun _ _ =>
    (hJ.drop n).bind fun _ _ => hJ.keeps_write fun _ => rfl
  intro t
  rfl

theorem keeps_removeOfflineMachines (ns : NodeSet) :
    (removeOfflineMachines o ns).Keeps J fun _ => True :=
  Prog.Keeps.forEach fun n _ => hJ.keeps_removeMachine n

theorem keeps_machineListsNotEqual (l : List BrowseResult) :
    (machineListsNotEqual o l).Keeps J fun _ => True := by
  refine keeps_tables.bind fun t _ => ?_
  split_ifs
  · exact Prog.keeps_pure trivial
  · refine .bind (keeps_tables.bind fun t _ => (hJ.keeps_removeOfflineMachines _).bind
      fun _ _ => hJ.keeps_write ?_) fun _ _ => Prog.keeps_pure trivial
    intro t'
    rfl

theorem keeps_checkMachine (found : Findings) (machine : BrowseResult) :
    (checkMachine o found machine).Keeps J fun _ => True := by
  refine (keeps_isOnline o hJ.search.world _ _).trivial.bind fun r _ =>
    (hJ.keeps_record _).bind fun _ _ => ?_
  cases r with
  | none => exact Prog.keeps_pure trivial
  | some json =>
    dsimp only
    split_ifs
    · exact Prog.keeps_pure trivial
    · exact Prog.keeps_pure trivial

theorem keeps_addUnlessIgnored (fuel : ℕ) (machines : NodeMap BrowseResult) (n : NodeId) :
    (addUnlessIgnored o fuel machines n).Keeps J fun _ => True := by
  have hadd : ∀ machine, (addNewMachine o fuel machine).Keeps J fun _ => True := by
    intro machine
    refine .catching ((hJ.add fuel machine).bind fun _ _ => hJ.keeps_write fun _ => rfl)
      fun ex => ?_
    split_ifs
    · exact hJ.keeps_write fun _ => rfl
    · exact Prog.keeps_throw
  have hskip : (ignoreInvalidMachinesTemporarily n : ObserverM ω Bool).Keeps J fun _ => True := by
    refine keeps_tables.bind fun t _ => ?_
    split
    · exact Prog.keeps_pure trivial
    · split_ifs
      · exact Prog.Keeps.bind (hJ.keeps_write fun _ => rfl) fun _ _ => Prog.keeps_pure trivial
      · exact Prog.Keeps.bind (hJ.keeps_write fun _ => rfl) fun _ _ => Prog.keeps_pure trivial
  refine hskip.bind fun skipped _ => ?_
  cases skipped with
  | true => exact Prog.keeps_pure trivial
  | false => exact hadd _

theorem keeps_processMachineList (fuel : ℕ) (known : NodeSet) (l : List BrowseResult) :
    (processMachineList o fuel known l).Keeps J fun _ => True := by
  have hcheck : (findNewAndOfflineMachines o l known).Keeps J fun _ => True :=
    Prog.Keeps.foldEach (fun found machine _ _ => hJ.keeps_checkMachine found machine) trivial
  refine (hJ.keeps_record _).bind fun _ _ => (hJ.keeps_machineListsNotEqual l).bind
    fun _ _ => hcheck.bind fun found _ => (hJ.keeps_removeOfflineMachines _).bind fun _ _ =>
      .bind (Prog.Keeps.forEach fun n _ => hJ.keeps_addUnlessIgnored fuel _ n) fun _ _ =>
        hJ.keeps_write fun _ => rfl

/-- **A cycle keeps what its steps keep**, however it ends. -/
theorem keeps_updateMachines (fuel : ℕ) : (updateMachines o fuel).Keeps J fun _ => True := by
  have hsearch := keeps_canBrowseMachineList o (C := fun _ => True) hJ.search
    (fun _ _ _ _ _ _ => trivial) fuel
  refine keeps_tables.bind fun t _ => hsearch.trivial.bind fun r _ => ?_
  cases r with
  | none => exact Prog.keeps_pure trivial
  | some l => exact hJ.keeps_processMachineList fuel _ _

end CycleSteps

end Observer

end UmatiDashboard
