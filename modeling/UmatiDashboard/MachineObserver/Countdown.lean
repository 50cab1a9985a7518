import Mathlib.Data.List.TakeWhile
import UmatiDashboard.MachineObserver.CycleSteps
import UmatiDashboard.MachineObserver.UnchangedList

/-!
# The countdown of one machine

A machine that is to be skipped has an entry in a table, with a counter and an error. In a cycle
only the machine's own round writes to this entry. `untilRound` is a cycle up to that round and
`fromRound` is the rest; both are followed for one machine, whatever happens to the others.
-/

namespace UmatiDashboard

namespace Observer

variable {ω : Type} (o : Observer ω)

/-! ### A cycle, cut at the round of a machine -/

/-- A cycle up to its round for `m`, with the machines found and the results of the check. For
a machine without a round this is the cycle up to the renewal of the cache. -/
def untilRound (fuel : ℕ) (m : NodeId) : ObserverM ω (Option (List BrowseResult × Findings)) := do
  let toBeRemovedMachines := knownNodeIds (← tables)
  match ← canBrowseMachineList o fuel with
  | none => pure none
  | some machineList => do
    let machineList := removeDuplicates machineList
    record (.browsed machineList)
    let _ ← machineListsNotEqual o machineList
    let found ← findNewAndOfflineMachines o machineList toBeRemovedMachines
    removeOfflineMachines o found.toBeRemovedMachines
    Prog.forEach (addUnlessIgnored o fuel (machineMap machineList))
      (found.newMachines.toList.takeWhile (· ≠ m))
    pure (some (machineList, found))

/-- The rest of the cycle. -/
def fromRound (fuel : ℕ) (m : NodeId) : Option (List BrowseResult × Findings) → ObserverM ω Unit
  | none => pure ()
  | some (machineList, found) => do
    Prog.forEach (addUnlessIgnored o fuel (machineMap machineList))
      (found.newMachines.toList.dropWhile (· ≠ m))
    write fun t => { t with machineIdentificationsCache := found.machinesIdentification }

theorem updateMachines_eq (fuel : ℕ) (m : NodeId) :
    updateMachines o fuel = (untilRound o fuel m >>= fromRound o fuel m) := by
  simp only [updateMachines, untilRound, bind_assoc]
  congr 1
  funext t
  congr 1
  funext r
  cases r with
  | none => rfl
  | some l =>
    simp only [processMachineList, bind_assoc, pure_bind, fromRound]
    congr 1
    funext _
    congr 1
    funext _
    congr 1
    funext found
    congr 1
    funext _
    conv_lhs =>
      rw [← List.takeWhile_append_dropWhile (p := (· ≠ m)) (l := found.newMachines.toList)]
    rw [Prog.forEach_append, bind_assoc]

/-- The rounds before the one of `m` are those of other machines. -/
theorem ne_of_mem_takeWhile {ns : List NodeId} {m n : NodeId}
    (h : n ∈ ns.takeWhile (· ≠ m)) : n ≠ m := by
  simpa using List.mem_takeWhile_imp h

/-- A machine without a round. -/
theorem dropWhile_of_notMem {ns : List NodeId} {m : NodeId} (h : m ∉ ns) :
    ns.dropWhile (· ≠ m) = [] := by
  rw [List.dropWhile_eq_nil_iff]
  intro n hn
  simpa using fun heq : n = m => h (heq ▸ hn)

/-- The round of a machine comes first in the rest of the cycle, and there is no other one. -/
theorem dropWhile_of_mem {ns : List NodeId} {m : NodeId} (hnodup : ns.Nodup) (h : m ∈ ns) :
    ∃ rest, ns.dropWhile (· ≠ m) = m :: rest ∧ m ∉ rest := by
  induction ns with
  | nil => cases h
  | cons n ns ih =>
    obtain ⟨hnotin, hnodup'⟩ := List.nodup_cons.mp hnodup
    by_cases hne : n = m
    · subst hne
      exact ⟨ns, by simp, hnotin⟩
    · obtain ⟨rest, hrest, hm⟩ := ih hnodup' ((List.mem_cons.mp h).resolve_left (Ne.symm hne))
      exact ⟨rest, by rw [List.dropWhile_cons_of_pos (by simpa using hne), hrest], hm⟩

/-- A cycle up to its attempt to add `m`, if there is one: the machine with which `addMachine` is
called. -/
def untilAttempt (fuel : ℕ) (m : NodeId) : ObserverM ω (Option BrowseResult) := do
  match ← untilRound o fuel m with
  | none => pure none
  | some (machineList, found) =>
    if m ∈ found.newMachines then do
      if ← ignoreInvalidMachinesTemporarily m then pure none
      else pure (some (((machineMap machineList)[m]?).getD default))
    else pure none

/-! ### What leaves the machine alone -/

/-- From `s₀` to `s` nothing was written to the entry of `m`, and no event of `E` happened. -/
structure Spared (m : NodeId) (E : ObserverEvent → Prop) (s₀ s : ObserverState ω) : Prop where
  entry : s.tables.invalidMachines[m]? = s₀.tables.invalidMachines[m]?
  history : ∃ ts, s.history = s₀.history ++ ts ∧
    ∀ t ∈ ts, t.invalidMachines[m]? = s₀.tables.invalidMachines[m]?
  events : ∃ es, s.events = s₀.events ++ es ∧ ∀ e ∈ es, ¬ E e

namespace Spared

variable {o} {m : NodeId} {E : ObserverEvent → Prop} {s₀ s s' : ObserverState ω}

theorem refl (s : ObserverState ω) : Spared m E s s :=
  ⟨rfl, ⟨[], by simp⟩, [], by simp⟩

theorem log (h : Spared m E s₀ s) {e : ObserverEvent} (he : ¬ E e) : Spared m E s₀ (s.log e) := by
  obtain ⟨es, hes, hE⟩ := h.events
  refine ⟨h.entry, h.history, es ++ [e], by simp [hes], fun e' he' => ?_⟩
  rcases List.mem_append.mp he' with hmem | hmem
  · exact hE e' hmem
  · rwa [List.mem_singleton.mp hmem]

theorem put (h : Spared m E s₀ s) {t : ObserverTables}
    (ht : t.invalidMachines[m]? = s.tables.invalidMachines[m]?) : Spared m E s₀ (s.put t) := by
  obtain ⟨ts, hts, hentry⟩ := h.history
  refine ⟨ht.trans h.entry,
    ⟨ts ++ [t], by simp [ObserverState.put, hts], fun t' ht' => ?_⟩, h.events⟩
  rcases List.mem_append.mp ht' with hmem | hmem
  · exact hentry t' hmem
  · rw [List.mem_singleton.mp hmem]
    exact ht.trans h.entry

theorem trans {s₁ : ObserverState ω} (h : Spared m E s₀ s₁) (h' : Spared m E s₁ s) :
    Spared m E s₀ s := by
  obtain ⟨ts, hts, htrace⟩ := h.history
  obtain ⟨ts', hts', htrace'⟩ := h'.history
  obtain ⟨es, hes, hE⟩ := h.events
  obtain ⟨es', hes', hE'⟩ := h'.events
  refine ⟨h'.entry.trans h.entry, ⟨ts ++ ts', by rw [hts', hts, List.append_assoc], fun t ht => ?_⟩,
    es ++ es', by rw [hes', hes, List.append_assoc], fun e he => ?_⟩
  · rcases List.mem_append.mp ht with hmem | hmem
    · exact htrace t hmem
    · exact (htrace' t hmem).trans h.entry
  · exact (List.mem_append.mp he).elim (hE e) (hE' e)

theorem weaken {E' : ObserverEvent → Prop} (h : Spared m E s₀ s) (hE : ∀ e, E' e → E e) :
    Spared m E' s₀ s := by
  obtain ⟨es, hes, hnot⟩ := h.events
  exact ⟨h.entry, h.history, es, hes, fun e he he' => hnot e he (hE e he')⟩

/-- An event of `E` has happened before. -/
theorem mem_events_iff (h : Spared m E s₀ s) {e : ObserverEvent} (he : E e) :
    e ∈ s.events ↔ e ∈ s₀.events := by
  obtain ⟨es, hes, hnot⟩ := h.events
  rw [hes, List.mem_append]
  exact or_iff_left fun hmem => hnot e hmem he

theorem ignoresWorld : IgnoresWorld (Spared m E s₀) := fun _ _ h => ⟨h.entry, h.history, h.events⟩

/-! ### The programs that leave the machine alone -/

theorem keeps_dropDashboardClient (n : NodeId) :
    (dropDashboardClient o n).Keeps (Spared m E s₀) fun _ => True := by
  intro s hs
  refine (ends_dropDashboardClient o n).mono fun out s' h => ?_
  obtain ⟨rfl, ⟨rfl, -⟩ | ⟨-, w, rfl⟩⟩ := h
  · exact ⟨hs, fun _ _ => trivial⟩
  · exact ⟨(ignoresWorld s w hs).put rfl, fun _ _ => trivial⟩

/-- Checking machines, where no answer of `isOnline` is in `E`. -/
theorem keeps_findNewAndOfflineMachines (hcheck : ∀ n b, ¬ E (.checkedOnline n b))
    (l : List BrowseResult) (known : NodeSet) :
    (findNewAndOfflineMachines o l known).Keeps (Spared m E s₀) fun _ => True := by
  refine Prog.Keeps.foldEach (fun found machine _ _ => ?_) trivial
  refine (keeps_isOnline o ignoresWorld.readsKeep _ _).trivial.bind fun r _ =>
    (keeps_record fun s h => h.log (hcheck _ _)).bind fun _ _ => ?_
  cases r with
  | none => exact Prog.keeps_pure trivial
  | some json =>
    dsimp only
    split_ifs
    · exact Prog.keeps_pure trivial
    · exact Prog.keeps_pure trivial

/-- **`addMachine`** writes nothing to the table of machines to be skipped. -/
theorem keeps_addMachine (fuel : ℕ) (machine : BrowseResult) {s : ObserverState ω}
    (hs : Spared m E s₀ (s.log (.adding machine.nodeId))) :
    (addMachine o fuel machine).Leaves s (Spared m E s₀) fun _ _ => True := by
  refine Prog.Leaves.bind (Q := fun _ s' => s' = s.log (.adding machine.nodeId))
    (Prog.leaves_modify hs rfl) fun _ s₁ hs₁ _ => ?_
  refine Prog.Keeps.catching ?_ (fun ex => ?_) s₁ hs₁
  · split_ifs
    · exact Prog.keeps_pure trivial
    · refine (keeps_liftExcept).bind fun _ _ => CycleSteps.keeps_tables.bind fun t _ =>
        (keeps_dropDashboardClient _).bind fun _ _ => .bind (V := fun _ => True) ?_ fun c _ =>
          keeps_write fun s h => h.put rfl
      intro s' hs'
      exact ⟨ignoresWorld s' _ hs', fun _ _ => trivial⟩
  · split_ifs
    · exact Prog.keeps_throw
    · exact Prog.keeps_throw

variable (hE : ∀ e, E e → e = .adding m ∨ e = .checkedOnline m true)

include hE

theorem searchFrame : o.SearchFrame (Spared m E s₀) where
  world := ignoresWorld.readsKeep
  subTypes _ _ h := ⟨h.entry, h.history, h.events⟩
  enter s n p h := (h.log fun he => by simpa using hE _ he).put rfl

theorem keeps_removeMachine (n : NodeId) :
    (removeMachine o n).Keeps (Spared m E s₀) fun _ => True := by
  refine (keeps_record fun s h => h.log fun he => by simpa using hE _ he).bind fun _ _ =>
    (keeps_write fun s h => h.put rfl).bind fun _ _ =>
      (keeps_dropDashboardClient n).bind fun _ _ => keeps_write fun s h => h.put rfl

theorem keeps_machineListsNotEqual (l : List BrowseResult) :
    (machineListsNotEqual o l).Keeps (Spared m E s₀) fun _ => True := by
  refine CycleSteps.keeps_tables.bind fun t _ => ?_
  split_ifs
  · exact Prog.keeps_pure trivial
  · refine .bind (CycleSteps.keeps_tables.bind fun t _ =>
      (Prog.Keeps.forEach fun n _ => keeps_removeMachine hE n).bind fun _ _ =>
        keeps_write fun s h => h.put rfl) fun _ _ => Prog.keeps_pure trivial

/-- The round of another machine. -/
theorem keeps_addUnlessIgnored (fuel : ℕ) (machines : NodeMap BrowseResult) {n : NodeId}
    (hn : n ≠ m) (hid : ((machines[n]?).getD default).nodeId = n) :
    (addUnlessIgnored o fuel machines n).Keeps (Spared m E s₀) fun _ => True := by
  have hadding : ¬ E (.adding n) := fun he => by simpa [hn] using hE _ he
  have hadd : (addNewMachine o fuel ((machines[n]?).getD default)).Keeps (Spared m E s₀)
      fun _ => True := by
    refine .catching (.bind (V := fun _ => True) (fun s hs => ?_) fun _ _ =>
      keeps_write fun s h => h.put rfl) fun ex => ?_
    · exact keeps_addMachine fuel _ (hs.log (by rw [hid]; exact hadding))
    · split_ifs
      · refine keeps_write fun s h => h.put ?_
        simp [hid, hn, Std.ExtTreeMap.getElem?_insertIfNew]
      · exact Prog.keeps_throw
  have hskip : (ignoreInvalidMachinesTemporarily n : ObserverM ω Bool).Keeps (Spared m E s₀)
      fun _ => True := by
    refine CycleSteps.keeps_tables.bind fun t _ => ?_
    split
    · exact Prog.keeps_pure trivial
    · split_ifs
      · refine Prog.Keeps.bind (keeps_write fun s h => h.put ?_) fun _ _ => Prog.keeps_pure trivial
        simp [hn, Std.ExtTreeMap.getElem?_erase]
      · refine Prog.Keeps.bind (keeps_write fun s h => h.put ?_) fun _ _ => Prog.keeps_pure trivial
        simp [hn, Std.ExtTreeMap.getElem?_insert]
  refine hskip.bind fun skipped _ => ?_
  cases skipped with
  | true => exact Prog.keeps_pure trivial
  | false => exact hadd

end Spared

/-- The events that a statement about the attempts to add `m` speaks of. -/
def Concerns (m : NodeId) (e : ObserverEvent) : Prop := e = .adding m ∨ e = .checkedOnline m true

variable {o} {m : NodeId} {s s' : ObserverState ω}

/-! ### Up to the round of the machine -/

/-- What is known when the round of `m` comes: it has one if it is online and was not known. -/
def Awaits (m : NodeId) (s : ObserverState ω) :
    Option (List BrowseResult × Findings) → ObserverState ω → Prop
  | none, s' => ¬ Online s' m
  | some (l, found), s' =>
    (m ∈ found.newMachines ↔ m ∉ s.tables.knownMachines ∧ Online s' m) ∧
      ∀ n ∈ found.newMachines, (((machineMap l)[n]?).getD default).nodeId = n

/-- **Up to the round of a machine** its entry stays as it was. -/
theorem leaves_untilRound (fuel : ℕ) (m : NodeId) (s : ObserverState ω) :
    (untilRound o fuel m).Leaves s.forget (Spared m (· = .adding m) s.forget) (Awaits m s) := by
  have hweaken : ∀ s', Spared m (Concerns m) s.forget s' →
      Spared m (· = .adding m) s.forget s' := fun s' h => h.weaken fun _ => .inl
  have hquiet : ∀ s', Spared m (Concerns m) s.forget s' → ¬ Online s' m := fun s' h hon => by
    rw [Online, h.mem_events_iff (.inr rfl)] at hon
    cases hon
  refine (leaves_tables (.refl _)).bind ?_
  rintro _ _ - ⟨rfl, rfl⟩
  refine Prog.Leaves.bind (Q := fun _ s₁ => Spared m (Concerns m) s.forget s₁)
    (((keeps_canBrowseMachineList o (Spared.searchFrame fun _ => id).steps browsesOnly_true fuel
      s.forget (.refl _)).mono fun _ _ hJ _ => hJ).weaken hweaken) fun r s₁ _ hs₁ => ?_
  cases r with
  | none => exact Prog.leaves_pure (hweaken _ hs₁) (hquiet _ hs₁)
  | some l =>
    refine (Prog.leaves_modify (J := Spared m (· = .adding m) s.forget)
      (Q := fun _ s₂ => Spared m (Concerns m) s.forget s₂) ?_ ?_).bind fun _ s₂ _ hs₂ => ?_
    · exact hweaken _ (hs₁.log (by simp [Concerns]))
    · exact hs₁.log (by simp [Concerns])
    refine Prog.Leaves.bind (Q := fun _ s₃ => Spared m (Concerns m) s.forget s₃)
      (((Spared.keeps_machineListsNotEqual (fun _ => id) _ s₂ hs₂).mono
        fun _ _ hJ _ => hJ).weaken hweaken) fun _ s₃ _ hs₃ => ?_
    -- the check
    refine Prog.Leaves.bind (Q := fun found s₄ => Checked (knownNodeIds s.tables) s₃
      ((removeDuplicates l).map BrowseResult.nodeId) found s₄) ?_ fun found s₄ hs₄ hchecked => ?_
    · have hchecks : (findNewAndOfflineMachines o _ (knownNodeIds s.tables)).Leaves s₃ _ _ :=
        leaves_findNewAndOfflineMachines o (P := fun _ => True)
          (nodup_nodeId_removeDuplicates l) fun _ _ => trivial
      have hkeeps := Spared.keeps_findNewAndOfflineMachines (o := o) (m := m)
        (E := (· = .adding m)) (by simp) (removeDuplicates l) (knownNodeIds s.tables) s₃
        (hweaken _ hs₃)
      exact (Prog.Ends.and hchecks hkeeps).mono fun out s' h => ⟨h.2.1, h.1.2⟩
    obtain ⟨checks, hids, hfound, -, hevents⟩ := hchecked
    have hawaits : m ∈ found.newMachines ↔ m ∉ s.tables.knownMachines ∧ Online s₄ m := by
      have hon : Online s₄ m ↔ (m, true) ∈ checks := by
        have hnot := hquiet _ hs₃
        rw [Online] at hnot
        rw [Online, hevents, List.mem_append, or_iff_right hnot]
        simp [checkedEvent]
      rw [hon, hfound.new, mem_knownNodeIds]
    have hmachine : ∀ n ∈ found.newMachines,
        (((machineMap (removeDuplicates l))[n]?).getD default).nodeId = n := by
      intro n hn
      obtain ⟨machine, -, hid, hlookup⟩ := getElem?_machineMap (l := removeDuplicates l) (n := n)
        (hids ▸ List.mem_map.mpr ⟨_, ((hfound.new n).mp hn).2, rfl⟩)
      rw [hlookup]
      exact hid
    -- the removals and the rounds of the machines before
    have hrounds : (do
        removeOfflineMachines o found.toBeRemovedMachines
        Prog.forEach (addUnlessIgnored o fuel (machineMap (removeDuplicates l)))
          (found.newMachines.toList.takeWhile (· ≠ m))).Keeps (Spared m (Concerns m) s₄)
        fun _ => True := by
      refine (Prog.Keeps.forEach fun n _ => Spared.keeps_removeMachine (fun _ => id) n).bind
        fun _ _ => Prog.Keeps.forEach fun n hn => ?_
      have hmem : n ∈ found.newMachines :=
        Std.ExtTreeSet.mem_toList.mp (List.takeWhile_subset _ hn)
      exact Spared.keeps_addUnlessIgnored (fun _ => id) fuel _ (ne_of_mem_takeWhile hn)
        (hmachine n hmem)
    have hback : ∀ s', Spared m (Concerns m) s₄ s' → Spared m (· = .adding m) s.forget s' :=
      fun s' h => hs₄.trans (h.weaken fun _ => .inl)
    rw [← bind_assoc]
    refine Prog.Leaves.bind (((hrounds s₄ (.refl _)).mono fun _ _ hJ _ => hJ).weaken hback)
      fun _ s₅ _ hs₅ => Prog.leaves_pure (hback _ hs₅) ⟨?_, hmachine⟩
    rw [hawaits, Online, Online, hs₅.mem_events_iff (.inr rfl)]

/-! ### The round of the machine -/

/-- A machine whose counter stays positive is skipped. -/
theorem run_ignoreInvalidMachinesTemporarily_of_skipped {count : Int} {error : String}
    (hentry : s.tables.invalidMachines[m]? = some (count, error)) (hcount : 1 < count) :
    (ignoreInvalidMachinesTemporarily m : ObserverM ω Bool).run s =
      (.ok true, s.put (s.tables.setCount m (count - 1) error)) := by
  have hpos : ¬ count - 1 ≤ 0 := by omega
  have htables : (tables : ObserverM ω _).run s = (.ok s.tables, s) := rfl
  rw [ignoreInvalidMachinesTemporarily, Prog.run_bind, htables]
  dsimp only
  rw [hentry]
  dsimp only
  rw [if_neg hpos]
  rfl

/-- Any other machine is tried, without an entry. -/
theorem run_ignoreInvalidMachinesTemporarily_of_tried
    (hcount : ∀ count error, s.tables.invalidMachines[m]? = some (count, error) → count ≤ 1) :
    ∃ s', (ignoreInvalidMachinesTemporarily m : ObserverM ω Bool).run s = (.ok false, s') ∧
      s'.tables.invalidMachines[m]? = none ∧ s'.events = s.events := by
  have hrun : (ignoreInvalidMachinesTemporarily m : ObserverM ω Bool).Ends s fun out s' =>
      out = .ok false ∧ s'.tables.invalidMachines[m]? = none ∧ s'.events = s.events := by
    rw [ignoreInvalidMachinesTemporarily, Prog.ends_bind, ends_tables, Outcome.follow_ok]
    cases hentry : s.tables.invalidMachines[m]? with
    | none => exact ⟨rfl, hentry, rfl⟩
    | some entry =>
      obtain ⟨count, error⟩ := entry
      have hle : count - 1 ≤ 0 := by
        have := hcount count error hentry
        omega
      dsimp only
      rw [if_pos hle]
      exact ⟨rfl, by simp [Prog.run, Prog.modify, pure, bind, write, ObserverState.put], rfl⟩
  exact ⟨_, Prod.ext hrun.1 rfl, hrun.2⟩

/-- An attempt that ends in a `MachineInvalidException` blames the machine for it. -/
theorem run_addNewMachine_of_invalid {fuel : ℕ} {machine : BrowseResult} {ex : Exception}
    (hrun : (addMachine o fuel machine).run s = (.throw ex, s'))
    (hex : ex.isMachineInvalidException = true) :
    (addNewMachine o fuel machine).run s =
      (.ok (), s'.put (s'.tables.blame machine.nodeId ex.what)) := by
  rw [addNewMachine, Prog.run_catching, Prog.run_bind, hrun]
  dsimp only
  rw [isInvalidOrOffline, hex, Bool.true_or, if_pos rfl]
  rfl

/-- An attempt is recorded, and nothing else that concerns the machine. -/
theorem ends_addNewMachine_events (fuel : ℕ) {machine : BrowseResult} (hid : machine.nodeId = m) :
    (addNewMachine o fuel machine).Ends s fun _ s' =>
      .adding m ∈ s'.events ∧ (Online s' m ↔ Online s m) := by
  have hadd : (addMachine o fuel machine).Leaves s
      (fun s' => .adding m ∈ s'.events ∧ (Online s' m ↔ Online s m)) fun _ _ => True := by
    refine (Spared.keeps_addMachine fuel machine (m := m) (E := Concerns m)
      (.refl _)).weaken fun s' h => ⟨?_, ?_⟩
    · rw [h.mem_events_iff (.inl rfl), hid]
      simp
    · rw [Online, h.mem_events_iff (.inr rfl), Online]
      simp
  have hnew : (addNewMachine o fuel machine).Leaves s
      (fun s' => .adding m ∈ s'.events ∧ (Online s' m ↔ Online s m)) fun _ _ => True := by
    refine Prog.Leaves.catching (hadd.bind fun _ s' hs' _ => Prog.leaves_modify hs' trivial)
      fun ex s' hs' => ?_
    split_ifs
    · exact Prog.leaves_modify hs' trivial
    · exact Prog.leaves_throw hs'
  exact Prog.Ends.mono hnew fun _ _ h => h.1

/-! ### The cycle -/

/-- What a cycle that ends with `out` in `s'` does to a machine with an entry. -/
structure Counts (m : NodeId) (count : Int) (error : String) (out : Outcome Exception Unit)
    (s' : ObserverState ω) : Prop where
  attempted : .adding m ∈ s'.events → count ≤ 1 ∧ Online s' m
  skipped : out = .ok () → Online s' m → .adding m ∉ s'.events →
    1 < count ∧ s'.tables.invalidMachines[m]? = some (count - 1, error)
  unseen : out = .ok () → ¬ Online s' m → s'.tables.invalidMachines[m]? = some (count, error)
  kept : .adding m ∉ s'.events → ∀ t ∈ s'.history, ∃ c, t.invalidMachines[m]? = some (c, error)

/-- The rounds of the other machines, and the renewal of the cache. -/
theorem leaves_laterRounds {ns : List NodeId} (l : List BrowseResult) (found : Findings)
    (fuel : ℕ) (hns : ∀ n ∈ ns, n ≠ m)
    (hmachine : ∀ n ∈ ns, (((machineMap l)[n]?).getD default).nodeId = n) :
    (do
      Prog.forEach (addUnlessIgnored o fuel (machineMap l)) ns
      write fun t => { t with machineIdentificationsCache := found.machinesIdentification } :
        ObserverM ω Unit).Keeps (Spared m (Concerns m) s) fun _ => True :=
  .bind (Prog.Keeps.forEach fun n hn =>
    Spared.keeps_addUnlessIgnored (fun _ => id) fuel _ (hns n hn) (hmachine n hn)) fun _ _ =>
      keeps_write fun _ h => h.put rfl

/-- A cycle that has left the machine alone. -/
theorem Counts.of_spared {count : Int} {error : String} {out : Outcome Exception Unit}
    (hentry : s.tables.invalidMachines[m]? = some (count, error))
    (h : Spared m (· = .adding m) s.forget s') (hout : out = .ok () → ¬ Online s' m) :
    Counts m count error out s' := by
  have hnot : .adding m ∉ s'.events := fun hmem => by
    rw [h.mem_events_iff rfl] at hmem
    cases hmem
  have hsame : s'.tables.invalidMachines[m]? = some (count, error) := h.entry.trans hentry
  obtain ⟨ts, hts, htrace⟩ := h.history
  refine ⟨fun hmem => absurd hmem hnot, fun hok hon => absurd hon (hout hok), fun _ _ => hsame,
    fun _ t ht => ⟨count, ?_⟩⟩
  have hts' : s'.history = ts := hts
  exact (htrace t (hts' ▸ ht)).trans hentry

/-- A cycle that has left the machine alone but for counting it down. -/
theorem Counts.of_skipped {count : Int} {error : String} {out : Outcome Exception Unit}
    {s₁ : ObserverState ω} (hentry : s.tables.invalidMachines[m]? = some (count, error))
    (h : Spared m (· = .adding m) s.forget s₁) (hon : Online s₁ m) (hcount : 1 < count)
    (h' : Spared m (Concerns m) (s₁.put (s₁.tables.setCount m (count - 1) error)) s') :
    Counts m count error out s' := by
  have hcounted : (s₁.put (s₁.tables.setCount m (count - 1) error)).tables.invalidMachines[m]? =
      some (count - 1, error) := by simp [ObserverTables.setCount]
  have hnot : .adding m ∉ s'.events := fun hmem => by
    rw [h'.mem_events_iff (.inl rfl), ObserverState.events_put, h.mem_events_iff rfl] at hmem
    cases hmem
  have hon' : Online s' m := by
    rw [Online, h'.mem_events_iff (.inr rfl)]
    exact hon
  obtain ⟨ts, hts, htrace⟩ := h.history
  obtain ⟨ts', hts', htrace'⟩ := h'.history
  refine ⟨fun hmem => absurd hmem hnot, fun _ _ _ => ⟨hcount, h'.entry.trans hcounted⟩,
    fun _ hoff => absurd hon' hoff, fun _ t ht => ?_⟩
  have hall : s'.history = ts ++ [s₁.tables.setCount m (count - 1) error] ++ ts' := by
    rw [hts', ObserverState.put, hts]
    rfl
  rw [hall, List.mem_append, List.mem_append, List.mem_singleton] at ht
  rcases ht with (ht | rfl) | ht
  · exact ⟨count, (htrace t ht).trans hentry⟩
  · exact ⟨count - 1, hcounted⟩
  · exact ⟨count - 1, (htrace' t ht).trans hcounted⟩

/-- **A cycle counts down one machine**: a machine with an entry is tried if it is online and
its counter runs out, it is skipped and counted down if it is online otherwise, and nothing
happens to it if it is not. -/
theorem counts_cycle {count : Int} {error : String} (fuel : ℕ)
    (hentry : s.tables.invalidMachines[m]? = some (count, error))
    (hunknown : m ∉ s.tables.knownMachines) :
    Counts m count error (o.cycle fuel s).1 (o.cycle fuel s).2 := by
  suffices hends : (updateMachines o fuel).Ends s.forget (Counts m count error) from hends
  rw [updateMachines_eq o fuel m, Prog.ends_bind]
  refine Prog.Ends.mono (leaves_untilRound fuel m s) fun out s₁ h => ?_
  obtain ⟨hspared, hawaits⟩ := h
  cases out with
  | throw e => exact .of_spared hentry hspared (by simp)
  | stuck w => exact .of_spared hentry hspared (by simp)
  | ok r =>
    have hentry₁ : s₁.tables.invalidMachines[m]? = some (count, error) :=
      hspared.entry.trans hentry
    cases r with
    | none => exact .of_spared hentry hspared fun _ => hawaits none rfl
    | some result =>
      obtain ⟨l, found⟩ := result
      obtain ⟨hnew, hmachine⟩ := hawaits _ rfl
      rw [Outcome.follow_ok, fromRound]
      -- only the round of the machine can change its entry
      by_cases hm : m ∈ found.newMachines
      · obtain ⟨rest, hrest, hnotin⟩ := dropWhile_of_mem
          found.newMachines.nodup_toList (Std.ExtTreeSet.mem_toList.mpr hm)
        have hon : Online s₁ m := (hnew.mp hm).2
        have hlater := fun s₂ => leaves_laterRounds (o := o) (m := m) (s := s₂) l found fuel
          (fun n hn heq => hnotin (heq ▸ hn)) fun n hn => hmachine n (Std.ExtTreeSet.mem_toList.mp
            (List.dropWhile_subset _ (hrest ▸ List.mem_cons_of_mem m hn)))
        rw [hrest, Prog.forEach_cons, bind_assoc, Prog.ends_bind, addUnlessIgnored, Prog.ends_bind]
        by_cases hcount : 1 < count
        · -- the machine is skipped
          rw [Prog.ends_iff_run, run_ignoreInvalidMachinesTemporarily_of_skipped hentry₁ hcount]
          refine Prog.Ends.mono (hlater _ _ (.refl _)) fun out s₂ h => ?_
          exact .of_skipped hentry hspared hon hcount h.1
        · -- the machine is tried
          obtain ⟨s₂, hrun, -, hevents⟩ := run_ignoreInvalidMachinesTemporarily_of_tried (m := m)
            (s := s₁) fun c e hc => by
              rw [hentry₁] at hc
              cases hc
              omega
          rw [Prog.ends_iff_run, hrun]
          dsimp only
          rw [Outcome.follow_ok, if_neg Bool.false_ne_true]
          have htried : ∀ out (s₃ : ObserverState ω), .adding m ∈ s₃.events → Online s₃ m →
              Counts m count error out s₃ := fun out s₃ hadding hon₃ =>
            ⟨fun _ => ⟨by omega, hon₃⟩, fun _ _ hnot => absurd hadding hnot,
              fun _ hoff => absurd hon₃ hoff, fun hnot => absurd hadding hnot⟩
          refine Prog.Ends.mono (ends_addNewMachine_events (o := o) (s := s₂) fuel (hmachine m hm))
            fun out s₃ h => ?_
          have hon₃ : Online s₃ m := h.2.mpr (by rw [Online, hevents]; exact hon)
          cases out with
          | throw e => exact htried _ _ h.1 hon₃
          | stuck w => exact htried _ _ h.1 hon₃
          | ok _ =>
            refine Prog.Ends.mono (hlater s₃ s₃ (.refl _)) fun out s₄ h' => htried _ _ ?_ ?_
            · rw [h'.1.mem_events_iff (.inl rfl)]
              exact h.1
            · rw [Online, h'.1.mem_events_iff (.inr rfl)]
              exact hon₃
      · -- the machine has no round
        rw [dropWhile_of_notMem fun hmem => hm (Std.ExtTreeSet.mem_toList.mp hmem)]
        have hlater := leaves_laterRounds (o := o) (m := m) (s := s₁) l found fuel
          (List.forall_mem_nil _) (List.forall_mem_nil _)
        refine Prog.Ends.mono (hlater s₁ (.refl _)) fun out s₂ h => ?_
        refine .of_spared hentry (hspared.trans (h.1.weaken fun _ => .inl)) fun _ hon => hm ?_
        rw [Online, h.1.mem_events_iff (.inr rfl)] at hon
        exact hnew.mpr ⟨hunknown, hon⟩

end Observer

end UmatiDashboard
