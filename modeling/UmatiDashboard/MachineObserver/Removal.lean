import UmatiDashboard.MachineObserver.Search

/-!
# What removing machines does

Removing a machine takes it out of three tables and calls the data client; removing several
machines, one after the other, takes all of them out. The operations in between are visible to
the publishing thread, so a predicate on tables that is to hold at every point has to survive
each single one of them.
-/

namespace UmatiDashboard

namespace ObserverTables

/-- The tables without one machine. -/
def remove (t : ObserverTables) (n : NodeId) : ObserverTables :=
  { t with
    knownMachines := t.knownMachines.erase n
    dashboardClients := t.dashboardClients.erase n
    onlineMachines := t.onlineMachines.erase n }

/-- The tables without the machines of a list. -/
def removeAll (t : ObserverTables) (ns : List NodeId) : ObserverTables := ns.foldl remove t

section RemoveAll

variable (t : ObserverTables) (ns : List NodeId)

@[simp] theorem removeAll_nil : t.removeAll [] = t := rfl

@[simp] theorem removeAll_cons (n : NodeId) :
    t.removeAll (n :: ns) = (t.remove n).removeAll ns := rfl

/-- A table that loses the removed machine loses all machines of the list. -/
theorem getElem?_removeAll {β : Type} {table : ObserverTables → Std.ExtTreeMap NodeId β}
    (hremove : ∀ t n, table (t.remove n) = (table t).erase n) (n : NodeId) :
    (table (t.removeAll ns))[n]? = if n ∈ ns then none else (table t)[n]? := by
  induction ns generalizing t with
  | nil => simp
  | cons m ns ih =>
    rw [removeAll_cons, ih]
    by_cases h : n = m
    · simp [h, hremove]
    · simp [h, Ne.symm h, hremove, Std.ExtTreeMap.getElem?_erase]

theorem getElem?_dashboardClients_removeAll (n : NodeId) :
    (t.removeAll ns).dashboardClients[n]? = if n ∈ ns then none else t.dashboardClients[n]? :=
  getElem?_removeAll t ns (fun _ _ => rfl) n

/-- Everything but the three tables of known and shown machines stays. -/
theorem removeAll_frame :
    (t.removeAll ns).knownMachineToolsSet = t.knownMachineToolsSet ∧
      (t.removeAll ns).parentOfMachine = t.parentOfMachine ∧
      (t.removeAll ns).machineIdentificationsCache = t.machineIdentificationsCache ∧
      (t.removeAll ns).invalidMachines = t.invalidMachines ∧
      (t.removeAll ns).machineNames = t.machineNames := by
  induction ns generalizing t with
  | nil => exact ⟨rfl, rfl, rfl, rfl, rfl⟩
  | cons m ns ih => exact ih (t.remove m)

variable {t ns} {n : NodeId}

theorem mem_removeAll {β : Type} {table : ObserverTables → Std.ExtTreeMap NodeId β}
    (hremove : ∀ t n, table (t.remove n) = (table t).erase n) :
    n ∈ table (t.removeAll ns) ↔ n ∈ table t ∧ n ∉ ns := by
  rw [← Std.ExtTreeMap.isSome_getElem?_iff_mem, getElem?_removeAll t ns hremove,
    ← Std.ExtTreeMap.isSome_getElem?_iff_mem]
  by_cases h : n ∈ ns <;> simp [h]

theorem mem_knownMachines_removeAll :
    n ∈ (t.removeAll ns).knownMachines ↔ n ∈ t.knownMachines ∧ n ∉ ns :=
  mem_removeAll fun _ _ => rfl

theorem mem_dashboardClients_removeAll :
    n ∈ (t.removeAll ns).dashboardClients ↔ n ∈ t.dashboardClients ∧ n ∉ ns :=
  mem_removeAll fun _ _ => rfl

theorem mem_onlineMachines_removeAll :
    n ∈ (t.removeAll ns).onlineMachines ↔ n ∈ t.onlineMachines ∧ n ∉ ns :=
  mem_removeAll fun _ _ => rfl

end RemoveAll

end ObserverTables

/-- A predicate on tables that survives each operation of a removal. -/
structure RemovalFrame (P : ObserverTables → Prop) : Prop where
  eraseKnown : ∀ t n, P t → P { t with knownMachines := t.knownMachines.erase n }
  eraseClient : ∀ t n, P t → P { t with dashboardClients := t.dashboardClients.erase n }
  eraseOnline : ∀ t n, P t → P { t with onlineMachines := t.onlineMachines.erase n }

namespace RemovalFrame

variable {P : ObserverTables → Prop} (hP : RemovalFrame P) {t : ObserverTables}

include hP

theorem remove (n : NodeId) (h : P t) : P (t.remove n) :=
  hP.eraseOnline _ n (hP.eraseClient _ n (hP.eraseKnown t n h))

theorem removeAll (ns : List NodeId) (h : P t) : P (t.removeAll ns) := by
  induction ns generalizing t with
  | nil => exact h
  | cons n ns ih => exact ih (hP.remove n h)

end RemovalFrame

namespace Observer

variable {ω : Type} (o : Observer ω) {P : ObserverTables → Prop} {s : ObserverState ω}

/-- Dropping a dashboard client takes it out of its table; nothing is written if the machine
has none. -/
theorem ends_dropDashboardClient (n : NodeId) :
    (dropDashboardClient o n).Ends s fun out s' => out = .ok () ∧
      (s' = s ∧ n ∉ s.tables.dashboardClients ∨
        n ∈ s.tables.dashboardClients ∧ ∃ w, s' = (s.withWorld w).put
          { s.tables with dashboardClients := s.tables.dashboardClients.erase n }) := by
  unfold dropDashboardClient
  simp only [Prog.ends_bind, ends_tables, Outcome.follow_ok]
  cases h : s.tables.dashboardClients[n]? with
  | none => exact ⟨rfl, .inl ⟨rfl, by simpa using h⟩⟩
  | some c => exact ⟨rfl, .inr ⟨NodeMap.mem_of_getElem? h, _, rfl⟩⟩

/-- **The effect of `removeMachine`**: the machine is gone, and every state in between satisfies
what survives a removal. -/
theorem ends_removeMachine (hP : RemovalFrame P) (h : P s.tables) (hs : s.Traced P) (n : NodeId) :
    (removeMachine o n).Ends s fun out s' => out = .ok () ∧
      s'.tables = s.tables.remove n ∧ s'.events = s.events ++ [.removing n] ∧ s'.Traced P := by
  unfold removeMachine
  simp only [Prog.ends_bind, ends_record, ends_write, Outcome.follow_ok]
  refine (ends_dropDashboardClient o n).mono fun out s' hs' => ?_
  have htr : (s.log (.removing n)).Traced P := hs
  obtain ⟨rfl, ⟨rfl, habsent⟩ | ⟨-, w, rfl⟩⟩ := hs'
  · refine ⟨trivial, ?_, ?_, ?_⟩
    · have herase : s.tables.dashboardClients.erase n = s.tables.dashboardClients :=
        NodeMap.erase_of_notMem habsent
      simp [ObserverTables.remove, herase]
    · simp
    · exact ObserverState.traced_put.mpr ⟨ObserverState.traced_put.mpr
        ⟨htr, hP.eraseKnown _ n h⟩, hP.eraseOnline _ n (hP.eraseKnown _ n h)⟩
  · refine ⟨trivial, rfl, ?_, ?_⟩
    · simp
    · exact ObserverState.traced_put.mpr ⟨ObserverState.traced_put.mpr
        ⟨ObserverState.traced_put.mpr ⟨htr, hP.eraseKnown _ n h⟩,
          hP.eraseClient _ n (hP.eraseKnown _ n h)⟩, hP.remove n h⟩

/-- **The effect of removing a list of machines.** -/
theorem ends_removeMachines (hP : RemovalFrame P) (ns : List NodeId) (h : P s.tables)
    (hs : s.Traced P) :
    (Prog.forEach (removeMachine o) ns).Ends s fun out s' => out = .ok () ∧
      s'.tables = s.tables.removeAll ns ∧
      s'.events = s.events ++ ns.map ObserverEvent.removing ∧ s'.Traced P := by
  induction ns generalizing s with
  | nil => exact ⟨rfl, rfl, by simp [Prog.run, pure], hs⟩
  | cons n ns ih =>
    rw [Prog.forEach_cons, Prog.ends_bind]
    refine (ends_removeMachine o hP h hs n).mono fun out s₁ h₁ => ?_
    obtain ⟨rfl, ht₁, hevents₁, htr₁⟩ := h₁
    rw [Outcome.follow_ok]
    refine (ih (ht₁ ▸ hP.remove n h) htr₁).mono fun out s₂ h₂ => ?_
    obtain ⟨rfl, ht₂, hevents₂, htr₂⟩ := h₂
    exact ⟨rfl, by rw [ht₂, ht₁]; rfl, by simp [hevents₂, hevents₁], htr₂⟩

end Observer

end UmatiDashboard
