import UmatiDashboard.MachineObserver.UnchangedList

/-!
# The list of errors

A machine that `addMachine` has rejected is put on the list of errors, with the text of the
exception, as long as it is to be skipped and its identification could be read. After every cycle
that has browsed the machines, each machine that was online in it stands on exactly one of the
lists, with two exceptions: the two machines that are ignored, and the machines that
`machineListsNotEqual` has dropped although they were online. A machine that was dropped is not
dropped again by the next cycle.
-/

namespace UmatiDashboard

namespace Observer

variable {ω β : Type} {o : Observer ω} {s s' : ObserverState ω} {t t' : ObserverTables}

/-! ### The elements of the list -/

theorem isSome_cachedIdentification (hcache : CachesIdentifications t) {n : NodeId} :
    (cachedIdentification t n).isSome = true ↔ n ∈ t.machineIdentificationsCache := by
  rw [← Std.ExtTreeMap.isSome_getElem?_iff_mem, cachedIdentification]
  cases h : t.machineIdentificationsCache[n]? with
  | none => rfl
  | some json =>
    obtain ⟨m, ms, rfl, -⟩ := hcache n json h
    rfl

/-- The element for an entry of a table: the cached identification with one more member. -/
def IsCompletion (t : ObserverTables) (key : String) (value : β → Json) (entry : NodeId × β)
    (element : Json) : Prop :=
  ∃ json, cachedIdentification t entry.1 = some json ∧
    json.assign key (value entry.2) = .ok element

/-- Each entry with a cached identification has one element. -/
theorem forall₂_isCompletion (hcache : CachesIdentifications t) (key : String) (value : β → Json)
    (entries : List (NodeId × β)) (h : ∀ e ∈ entries, (cachedIdentification t e.1).isSome = true) :
    List.Forall₂ (IsCompletion t key value) entries (entries.filterMap (element t key value)) := by
  induction entries with
  | nil => exact .nil
  | cons e entries ih =>
    obtain ⟨json, hjson⟩ := Option.isSome_iff_exists.mp (h e List.mem_cons_self)
    have hfilter := hjson
    rw [cachedIdentification, Option.filter_eq_some_iff] at hfilter
    obtain ⟨x, xs, rfl, -⟩ := hcache e.1 json hfilter.1
    have helem : element t key value e =
        some (.object (Json.putMember key (value e.2) (x :: xs))) := by
      rw [element, hjson]
      rfl
    rw [List.filterMap_cons_some helem]
    exact .cons ⟨_, hjson, rfl⟩ (ih fun e' he' => h e' (List.mem_cons_of_mem _ he'))

/-- The machines on the list of errors, with their texts. -/
def errorEntries (t : ObserverTables) : List (NodeId × (Int × String)) :=
  listed t (fun _ => "errors") "errors" t.invalidMachines.toList

/-- The element that is published for a machine that could not be added. -/
def IsErrorOf (t : ObserverTables) : NodeId × (Int × String) → Json → Prop :=
  IsCompletion t "Error" fun info => .string info.2

/-- The list of errors is published, with these machines, as far as a call gets. -/
theorem errorList_published (o : Observer ω) (hcache : CachesIdentifications t) :
    ((∃ p ∈ (publishMachinesList o t).1, p.topic = o.topics.errorList "errors") ↔
      (ListsWritten t fun _ => True) ∧ ErrorsWritten t) ∧
    ∀ p ∈ (publishMachinesList o t).1, p.topic = o.topics.errorList "errors" →
      ∃ es, p.payload = .array es ∧ List.Forall₂ (IsErrorOf t) (errorEntries t) es := by
  obtain ⟨online, errors, honline, herrors, hmem, -⟩ := publishMachinesList_collected o hcache
  obtain ⟨hpublished, -⟩ := PublishMachinesList.publish_spec errors
  have hnew : ∀ S, S ∉ (PublishMachinesList.new ["errors"] o.topics.errorList).machines := by
    simp [PublishMachinesList.new]
  have hwrites : errors.Reaches "errors" ↔ ErrorsWritten t := by
    rw [PublishMachinesList.Reaches, herrors.writes_iff hcache hnew (by decide)
      (fun _ => Json.dumps_string _), ErrorsWritten]
    simp
  -- the list of errors is published by the second of the two objects
  have hlist : ∀ p, p.topic = o.topics.errorList "errors" → (p ∈ (publishMachinesList o t).1 ↔
      (ListsWritten t fun _ => True) ∧ ErrorsWritten t ∧
        p = ⟨o.topics.errorList "errors", .array (errors.elements "errors")⟩) := by
    intro p hp
    have hnot : p ∉ online.publish.1 := by
      intro h
      obtain ⟨S, -, -, rfl⟩ := ((PublishMachinesList.publish_spec online).1 p).mp h
      rw [honline.getTopic] at hp
      exact o.topics.list_ne_errorList S "errors" hp
    rw [hmem, or_iff_right hnot, hpublished, herrors.getTopic, herrors.specifications]
    refine and_congr_right fun _ => ?_
    constructor
    · rintro ⟨S, -, hreaches, rfl⟩
      obtain rfl := o.topics.errorList_injective hp
      exact ⟨hwrites.mp hreaches, rfl⟩
    · rintro ⟨hwritten, rfl⟩
      exact ⟨"errors", .inr (List.mem_singleton_self _), hwrites.mpr hwritten, rfl⟩
  constructor
  · constructor
    · rintro ⟨p, hp, hpt⟩
      obtain ⟨hlists, hwritten, -⟩ := (hlist p hpt).mp hp
      exact ⟨hlists, hwritten⟩
    · rintro ⟨hlists, hwritten⟩
      exact ⟨_, (hlist _ rfl).mpr ⟨hlists, hwritten, rfl⟩, rfl⟩
  · intro p hp hpt
    obtain ⟨-, -, rfl⟩ := (hlist p hpt).mp hp
    refine ⟨_, ?_, forall₂_isCompletion hcache "Error" _ _ fun e he => (mem_listed.mp he).2.2⟩
    rw [herrors.elements, PublishMachinesList.elements, Std.ExtTreeMap.getElem?_eq_none (hnew _)]
    rfl

/-! ### On which list a machine is -/

/-- The machine is on the list of a specification. -/
def Listed (t : ObserverTables) (n : NodeId) : Prop :=
  ∃ S, n ∈ (onlineListed t S).map Prod.fst

theorem listed_iff (hcache : CachesIdentifications t) {n : NodeId} :
    Listed t n ↔ n ∈ t.onlineMachines ∧ n ∈ t.machineIdentificationsCache := by
  rw [← isSome_cachedIdentification hcache]
  constructor
  · rintro ⟨S, hS⟩
    obtain ⟨⟨_, info⟩, hinfo, rfl⟩ := List.mem_map.mp hS
    obtain ⟨hget, -, hcached⟩ := mem_onlineListed.mp hinfo
    exact ⟨NodeMap.mem_of_getElem? hget, hcached⟩
  · rintro ⟨hmem, hcached⟩
    obtain ⟨info, hget⟩ := Option.isSome_iff_exists.mp
      (Std.ExtTreeMap.isSome_getElem?_iff_mem.mpr hmem)
    exact ⟨info.specification, List.mem_map.mpr
      ⟨(n, info), mem_onlineListed.mpr ⟨hget, rfl, hcached⟩, rfl⟩⟩

theorem mem_errorListed (hcache : CachesIdentifications t) {n : NodeId} :
    n ∈ errorListed t ↔ n ∈ t.invalidMachines ∧ n ∈ t.machineIdentificationsCache := by
  rw [← isSome_cachedIdentification hcache, errorListed, List.mem_map]
  constructor
  · rintro ⟨⟨_, error⟩, herror, rfl⟩
    rw [mem_listed, Std.ExtTreeMap.mem_toList_iff_getElem?_eq_some] at herror
    exact ⟨NodeMap.mem_of_getElem? herror.1, herror.2.2⟩
  · rintro ⟨hmem, hcached⟩
    obtain ⟨error, hget⟩ := Option.isSome_iff_exists.mp
      (Std.ExtTreeMap.isSome_getElem?_iff_mem.mpr hmem)
    exact ⟨(n, error), mem_listed.mpr
      ⟨Std.ExtTreeMap.mem_toList_iff_getElem?_eq_some.mpr hget, rfl, hcached⟩, rfl⟩

/-! ### One cycle -/

/-- The machine was known, and the comparison of the lists has removed it. -/
def Dropped (t : ObserverTables) (l : List BrowseResult) (n : NodeId) : Prop :=
  n ∈ t.knownMachines ∧ n ∈ relistRemoves t l

theorem mem_knownMachines_relist (parents : NodeMap NodeId) {l : List BrowseResult} {n : NodeId} :
    n ∈ ((t.withParents parents).relist l).knownMachines ↔
      n ∈ t.knownMachines ∧ n ∉ relistRemoves t l := by
  by_cases hn : n ∈ relistRemoves t l
  · obtain ⟨hsame, hlisted⟩ := mem_relistRemoves.mp hn
    have heq : (t.withParents parents).relist l =
        { (t.withParents parents).removeAll t.knownMachineToolsSet.toList with
          knownMachineToolsSet := nodeIds l } :=
      if_neg (ne_true_of_eq_false hsame)
    rw [heq]
    simp [ObserverTables.mem_knownMachines_removeAll, hn, hlisted]
  · rw [(mem_relist_of_notMem parents hn).1, and_iff_left hn]

theorem invalidMachines_relist (parents : NodeMap NodeId) (l : List BrowseResult) :
    ((t.withParents parents).relist l).invalidMachines = t.invalidMachines := by
  unfold ObserverTables.relist
  split_ifs
  · rfl
  · exact (ObserverTables.removeAll_frame _ _).2.2.2.1

/-- **Where a cycle leaves the machines.** The cached identifications are those of the machines
that were online. Such a machine is known or to be skipped, unless it was dropped. -/
theorem CycleResult.accounted {C : NodeId → Prop} (h : o.CycleResult C s s')
    (hs : CoherentTables s.tables) {l : List BrowseResult} (hl : .browsed l ∈ s'.events) :
    (∀ n : NodeId, n ∈ s'.tables.machineIdentificationsCache ↔ Online s' n) ∧
      ∀ n, Online s' n →
        ((n ∈ s'.tables.knownMachines ∨ n ∈ s'.tables.invalidMachines) ↔
          ¬ Dropped s.tables l n) := by
  cases h with
  | failed parents entered htables hevents =>
    rw [hevents] at hl
    simp at hl
  | done parents entered added l' ms checks found t hnodup hmachine hchecks hfound hnew hadd htables
      hadded hevents =>
    obtain rfl : l = l' := by
      rw [hevents] at hl
      simpa [checkedEvent] using hl
    have honline : ∀ n, Online s' n ↔ (n, true) ∈ checks := by
      intro n
      rw [Online, hevents]
      simp [checkedEvent]
    have hms : (ms.map BrowseResult.nodeId).Nodup := by
      rw [hnew]
      exact found.newMachines.nodup_toList
    rw [htables]
    refine ⟨fun n => (hfound.identified n).trans (honline n).symm, fun n hn => ?_⟩
    have hcheck : (n, true) ∈ checks := (honline n).mp hn
    by_cases hknown : n ∈ s.tables.knownMachines
    · -- a machine that was known is not added, so it is as the comparison has left it
      have hmem : n ∉ ms.map BrowseResult.nodeId := by
        rw [hnew, Std.ExtTreeSet.mem_toList, hfound.new, mem_knownNodeIds]
        exact fun h => h.1 hknown
      have hstay : n ∉ found.toBeRemovedMachines.toList := by
        rw [Std.ExtTreeSet.mem_toList, hfound.toBeRemoved]
        exact fun h => h.2 hcheck
      obtain ⟨-, -, hk, hi⟩ := hadd.frame hmem
      rw [ObserverTables.mem_knownMachines_removeAll, and_iff_left hstay] at hk
      have hvalid : n ∉ t.invalidMachines := by
        rw [hi, (ObserverTables.removeAll_frame _ _).2.2.2.1, invalidMachines_relist]
        exact hs.known_valid n hknown
      rw [Dropped, and_iff_right hknown]
      refine (or_iff_left hvalid).trans (hk.trans ?_)
      rw [mem_knownMachines_relist, and_iff_right hknown]
    · -- a new machine has a round of its own, which settles it
      have hmem : n ∈ ms.map BrowseResult.nodeId := by
        rw [hnew, Std.ExtTreeSet.mem_toList, hfound.new, mem_knownNodeIds]
        exact ⟨hknown, hcheck⟩
      exact iff_of_true (hadd.settled hms hmem) fun hdropped => hknown hdropped.1

/-- **The list of errors, and on which list a machine is.** Whatever the publishing thread may see,
each call publishes the list of errors, with one element for each machine that is to be skipped and
has a cached identification: this with the text of the exception. It throws before if the cached
identification of a machine on one of the lists cannot be written out. After every cycle that has
browsed the machines, a machine that is not ignored is on one of the lists if and only if it was
online in the cycle and was not dropped; it is then on only one of them. A machine that was online
and dropped is not known any more, so that it is not dropped again by the next list. -/
theorem machines_accounted :
    (∀ t, o.Visible t →
      ((∃ p ∈ (o.publishMachinesList t).1, p.topic = o.topics.errorList "errors") ↔
        (ListsWritten t fun _ => True) ∧ ErrorsWritten t) ∧
      ((o.publishMachinesList t).2 = .ok () ↔ (ListsWritten t fun _ => True) ∧ ErrorsWritten t) ∧
        ∀ p ∈ (o.publishMachinesList t).1, p.topic = o.topics.errorList "errors" →
          ∃ es, p.payload = .array es ∧ List.Forall₂ (IsErrorOf t) (errorEntries t) es) ∧
    ∀ s s' fuel l, o.Reachable s → o.cycle fuel s = (.ok (), s') → .browsed l ∈ s'.events →
      ∀ n,
        (isIgnored n = false → ((Listed s'.tables n ∨ n ∈ errorListed s'.tables) ↔
          Online s' n ∧ ¬ Dropped s.tables l n)) ∧
        ¬ (Listed s'.tables n ∧ n ∈ errorListed s'.tables) ∧
        (Online s' n → Dropped s.tables l n → ∀ l', ¬ Dropped s'.tables l' n) := by
  refine ⟨fun t ht => ?_, fun s s' fuel l hs hcycle hl n => ?_⟩
  · have hcache := (publishesWell_of_visible ht).2
    obtain ⟨-, -, -, -, -, hok⟩ := publishMachinesList_collected o hcache
    exact ⟨(errorList_published o hcache).1, hok, (errorList_published o hcache).2⟩
  have hs' : o.Reachable s' := .cycle fuel hs hcycle
  have hcoh := coherent_of_reachable hs
  have hcoh' := coherent_of_reachable hs'
  have hcache := (publishesWell_of_visible ⟨s', hs', .inl rfl⟩).2
  obtain ⟨hcached, hstanding⟩ := (cycle_cases (shownValid_cycleFrame o) browsesOnly_true hcoh
    hcoh.shownValid hcycle).2.accounted hcoh hl
  rw [listed_iff hcache, mem_errorListed hcache, hcached]
  refine ⟨fun hign => ?_, ?_, fun hn hdropped l' h => ?_⟩
  · rw [← or_and_right, and_comm]
    refine and_congr_right fun hn => ?_
    rw [← hstanding n hn]
    exact or_congr_left ⟨hcoh'.online_known n, fun hk => hcoh'.known_shown n hk hign⟩
  · rintro ⟨⟨hshown, -⟩, hinvalid, -⟩
    exact hcoh'.known_valid n (hcoh'.online_known n hshown) hinvalid
  · exact (hstanding n hn).mp (.inl h.1) hdropped

/-- The plant after a second machine has appeared: that one is shown, and the first one is dropped
for this cycle. -/
theorem machines_accounted_plantGrown :
    (Listed plantGrown.tables (plantMachine "m2") ∨
        plantMachine "m2" ∈ errorListed plantGrown.tables) ∧
      ∀ l', ¬ Dropped plantGrown.tables l' (plantMachine "m1") := by
  have hcycle : plantObserver.cycle 2 (plantRunning.withWorld ⟨["m1", "m2"], []⟩) =
      (.ok (), plantGrown) := by
    unfold plantGrown
    exact cycle_eq_of_fst _ (by decide +kernel)
  have haccounted := machines_accounted.2 _ _ 2 (plantListing ["m1", "m2"])
    (.world _ plantRunning_reachable) hcycle (by decide +kernel)
  obtain ⟨hlists, -, -⟩ := haccounted (plantMachine "m2")
  obtain ⟨-, -, hagain⟩ := haccounted (plantMachine "m1")
  refine ⟨(hlists (by decide +kernel)).mpr ⟨?_, ?_⟩, hagain ?_ ?_⟩
  · unfold Online
    decide +kernel
  · unfold Dropped
    decide +kernel
  · unfold Online
    decide +kernel
  · unfold Dropped
    decide +kernel

end Observer

end UmatiDashboard
