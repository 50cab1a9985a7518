import UmatiDashboard.MachineObserver.Survival

/-!
# When the elements of a list are complete

The element that is published for a machine is assembled from an identification that was read
before the machine was added, or before it was looked at in this cycle. `browseIdentification`
adds the topic of a machine, its identifier and its type only if the machine has a name, and it
gets one when it is added; so the identification that is cached in the cycle that adds a machine
lacks them. A `Reading` is what decides about the cached identifications: who had a name when
they were read, and as what the machines were listed then.
-/

namespace UmatiDashboard

/-- What the identifications of a cycle are read from. -/
structure Reading where
  /-- the machines with a name when the cycle began -/
  names : NodeMap String
  /-- the list of machines that the search has found -/
  machineList : List BrowseResult

namespace Observer

variable {ω : Type} (o : Observer ω)

/-- The name of the type that a machine is listed with. -/
def typeName (machine : BrowseResult) : Option String :=
  (o.reader.typeMap[machine.typeDefinition]?).map fun ref =>
    (o.reader.node ref).specifiedBrowseName.name

/-- What is read for a machine of a type: without a name, its data only. -/
def identificationOf (named : Bool) (machineNodeId : NodeId) (specification : String)
    (data : Json) : Json :=
  if named then
    .object (Json.putMember "TypeDefinition" (.string specification)
      (Json.putMember "MachineId" (.string (idEncode machineNodeId.toString))
        (Json.putMember "Topic"
          (.string (o.topics.machine specification machineNodeId.toString)) [("Data", data)])))
  else .object [("Data", data)]

/-- An identification of a machine that was read so. -/
def IsRead (r : Reading) (machineNodeId : NodeId) (json : Json) : Prop :=
  ∃ machine ∈ r.machineList, machine.nodeId = machineNodeId ∧
    ∃ specification data, o.typeName machine = some specification ∧
      json = o.identificationOf (r.names.contains machineNodeId) machineNodeId specification data

/-! ### What a check reads -/

theorem addTopic_eq (t : ObserverTables) (machineNodeId : NodeId) (specification : String)
    (data : Json) :
    addTopic o t machineNodeId specification (.object [("Data", data)]) =
      .ok (o.identificationOf (t.machineNames.contains machineNodeId) machineNodeId specification
        data) := by
  unfold addTopic identificationOf
  by_cases h : machineNodeId ∈ t.machineNames
  · have hcontains : t.machineNames.contains machineNodeId = true :=
      Std.ExtTreeMap.mem_iff_contains.mp h
    rw [if_pos h, if_pos hcontains]
    rfl
  · have hcontains : ¬ t.machineNames.contains machineNodeId = true := fun h' =>
      h (Std.ExtTreeMap.mem_iff_contains.mpr h')
    rw [if_neg h, if_neg hcontains]
    rfl

variable {o}

theorem keeps_tables_names (names : NodeMap String) :
    (tables : ObserverM ω ObserverTables).Keeps (fun s => s.tables.machineNames = names)
      fun t => t.machineNames = names := fun _ hs => by
  refine ⟨hs, fun _ h => ?_⟩
  cases h
  exact hs

/-- What `isOnline` returns was read with the names of the tables. -/
theorem keeps_isOnline_read (names : NodeMap String) (machine : BrowseResult) :
    (isOnline o machine.nodeId machine.typeDefinition).Keeps
      (fun s => s.tables.machineNames = names) fun r => ∀ json ∈ r, ∃ specification data,
        o.typeName machine = some specification ∧
        json = o.identificationOf (names.contains machine.nodeId) machine.nodeId specification
          data := by
  have hJ : o.ReadsKeep fun s => s.tables.machineNames = names :=
    IgnoresWorld.readsKeep fun _ _ h => h
  refine Prog.Keeps.catching (keeps_liftExcept.bind fun p_type _ => ?_) fun ex =>
    Prog.keeps_pure (by simp)
  dsimp only
  split
  · exact Prog.keeps_pure (by simp)
  refine (keeps_browseWithResultTypeFilter hJ _ _ _).bind fun identification _ => ?_
  cases identification with
  | nil => exact Prog.keeps_pure (by simp)
  | cons first rest =>
    refine Prog.Keeps.bind (V := fun json => ∃ specification data,
      o.typeName machine = some specification ∧ json = o.identificationOf
        (names.contains machine.nodeId) machine.nodeId specification data) ?_ fun json hjson =>
        Prog.keeps_pure fun json' h => ?_
    · refine keeps_liftExcept.bind fun ref href => (keeps_browse hJ _ _).bind fun _ _ =>
        (keeps_readeNodeValues hJ _).bind fun _ _ => keeps_liftExcept.bind fun data _ =>
          keeps_liftExcept.bind fun json hjson => ?_
      rw [Json.assign_null] at hjson
      cases hjson
      rw [OpcUaTypeReader.typeDefinitionToStructureNode_eq_ok] at href
      refine (keeps_tables_names names).bind fun t ht => ?_
      refine keeps_liftExcept.mono fun json' h => ?_
      rw [addTopic_eq, ht] at h
      cases h
      exact ⟨_, data, by rw [typeName, href]; rfl, rfl⟩
    · split_ifs at h
      · simp at h
      · cases h
        exact hjson

/-- **What a check caches** was read with the names of the tables, for a machine of the list. -/
theorem keeps_findNewAndOfflineMachines_read (names : NodeMap String) (known : NodeSet)
    (l : List BrowseResult) :
    (findNewAndOfflineMachines o l known).Keeps (fun s => s.tables.machineNames = names)
      fun found => ∀ (n : NodeId) json, found.machinesIdentification[n]? = some json →
        o.IsRead ⟨names, l⟩ n json := by
  refine Prog.Keeps.foldEach (fun found machine hmachine hfound => ?_) (by simp)
  refine (keeps_isOnline_read names machine).bind fun r hr => ?_
  refine (keeps_record ?_).bind fun _ _ => ?_
  · exact fun _ hs => hs
  cases r with
  | none => exact Prog.keeps_pure hfound
  | some json =>
    have hread : ∀ (n : NodeId) json',
        (found.machinesIdentification.insertIfNew machine.nodeId json)[n]? = some json' →
        o.IsRead ⟨names, l⟩ n json' := by
      intro n json' h
      rw [Std.ExtTreeMap.getElem?_insertIfNew] at h
      split_ifs at h with hn
      · obtain rfl := Std.LawfulEqOrd.eq_of_compare hn.1
        cases h
        exact ⟨machine, hmachine, rfl, hr json rfl⟩
      · exact hfound n json' h
    dsimp only
    split_ifs
    · exact Prog.keeps_pure hread
    · exact Prog.keeps_pure hread

/-! ### What a cycle does to the cache -/

theorem machineNames_relist (t : ObserverTables) (l : List BrowseResult) :
    (t.relist l).machineNames = t.machineNames := by
  unfold ObserverTables.relist
  split_ifs
  · rfl
  · exact (ObserverTables.removeAll_frame t _).2.2.2.2

theorem phaseFrame_true : o.PhaseFrame fun _ => True where
  eraseKnown _ _ _ := trivial
  eraseClient _ _ _ := trivial
  eraseOnline _ _ _ := trivial
  parent _ _ _ _ := trivial
  relist _ _ _ := trivial
  setCount _ _ _ _ _ _ := trivial
  forgive _ _ _ := trivial
  know _ _ _ := trivial
  show_ _ _ _ _ _ _ _ _ _ _ _ := trivial
  blame _ _ _ _ _ := trivial

/-- Before the end of a cycle nothing touches the cache. -/
theorem phaseFrame_cache (c : NodeMap Json) :
    o.PhaseFrame fun t => t.machineIdentificationsCache = c where
  eraseKnown _ _ h := h
  eraseClient _ _ h := h
  eraseOnline _ _ h := h
  parent _ _ _ h := h
  relist _ _ h := h
  setCount _ _ _ _ h _ := h
  forgive _ _ h := h
  know _ _ h := h
  show_ _ _ _ _ h _ _ _ _ _ _ := h
  blame _ _ _ h _ := h

/-- The findings that are cached were read with the names from before the additions. -/
theorem leaves_processUntilCache_read (fuel : ℕ) (known : NodeSet) (l : List BrowseResult)
    (s : ObserverState ω) :
    (processUntilCache o fuel known l).Leaves s (fun _ => True) fun found _ =>
      ∀ (n : NodeId) json, found.machinesIdentification[n]? = some json →
        o.IsRead ⟨s.tables.machineNames, l⟩ n json := by
  have hany : ∀ {α : Type} (p : ObserverM ω α) (s' : ObserverState ω),
      p.Leaves s' (fun _ => True) fun _ _ => True := fun _ _ => ⟨trivial, fun _ _ => trivial⟩
  unfold processUntilCache
  refine Prog.Leaves.bind (Q := fun _ s₁ => s₁ = s.log (.browsed l))
    (Prog.leaves_modify trivial rfl) ?_
  rintro _ s₁ - rfl
  refine Prog.Leaves.bind (Q := fun _ s₂ => s₂.tables.machineNames = s.tables.machineNames) ?_ ?_
  · have hstands : Stands (fun _ => True) (s.log (.browsed l)) := ⟨trivial, fun _ _ => trivial⟩
    refine (ends_machineListsNotEqual o phaseFrame_true hstands l).mono fun out s₂ h => ?_
    have hnames : s₂.tables.machineNames = s.tables.machineNames := by
      rw [h.2.2.1, machineNames_relist]
      rfl
    exact ⟨trivial, fun _ _ => hnames⟩
  · intro _ s₂ _ hnames
    refine Prog.Leaves.bind (Q := fun found _ => ∀ (n : NodeId) json,
      found.machinesIdentification[n]? = some json →
        o.IsRead ⟨s.tables.machineNames, l⟩ n json) ?_ ?_
    · have hread := keeps_findNewAndOfflineMachines_read (o := o) s.tables.machineNames known l s₂
        hnames
      exact Prog.Ends.mono hread fun _ _ h => ⟨trivial, h.2⟩
    · intro found s₃ _ hfound
      refine (hany _ s₃).bind fun _ s₄ _ _ => (hany _ s₄).bind fun _ s₅ _ _ => ?_
      exact Prog.leaves_pure trivial hfound

/-- The list that a cycle has found. -/
def foundList (events : List ObserverEvent) : Option (List BrowseResult) :=
  events.findSome? fun e =>
    match e with
    | .browsed l => some l
    | _ => none

theorem foundList_entering (entered : List NodeId) (events : List ObserverEvent) :
    foundList (entered.map .entering ++ events) = foundList events := by
  induction entered with
  | nil => rfl
  | cons n entered ih => exact ih

variable {s : ObserverState ω}

/-- **The cache in a cycle**: it stays as it is until the last moment of a cycle that returns
and has found a list; then it is renewed by what was read of that list. -/
theorem cycle_cache (hs : o.Reachable s) (fuel : ℕ) {c : NodeMap Json}
    (hc : s.tables.machineIdentificationsCache = c) :
    let r := o.cycle fuel s
    (r.1 ≠ .ok () → ∀ t ∈ r.2.history, t.machineIdentificationsCache = c) ∧
      (r.1 = .ok () → (foundList r.2.events = none ∧
          r.2.tables.machineIdentificationsCache = c ∧
          ∀ t ∈ r.2.history, t.machineIdentificationsCache = c) ∨
        ∃ l pre, foundList r.2.events = some l ∧ (l.map BrowseResult.nodeId).Nodup ∧
          r.2.history = pre ++ [r.2.tables] ∧ (∀ t ∈ pre, t.machineIdentificationsCache = c) ∧
          ∀ (n : NodeId) json, r.2.tables.machineIdentificationsCache[n]? = some json →
            o.IsRead ⟨s.tables.machineNames, l⟩ n json) := by
  intro r
  have hcoh := coherent_of_reachable hs
  have hstands : Stands (fun t => t.machineIdentificationsCache = c) s.forget :=
    ⟨hc, fun t h => by cases h⟩
  have hsearch := leaves_canBrowseMachineList o (phaseFrame_cache c) browsesOnly_true hstands fuel
  rcases hrun : o.search fuel s with ⟨(_ | l) | e | w, s₁⟩
  all_goals rw [search] at hrun
  all_goals rw [Prog.Leaves, Prog.ends_iff_run, hrun] at hsearch
  · -- the search has failed
    have hr : r = (.ok (), s₁) := cycle_of_ok hrun
    obtain ⟨hs₁, ⟨entered, hevents⟩, -, -⟩ := hsearch.2 none rfl
    rw [hr]
    refine ⟨fun h => absurd rfl h, fun _ => .inl ⟨?_, hs₁.1, hs₁.2⟩⟩
    have hevents' : s₁.events = entered.map .entering ++ [] := by rw [hevents]; simp
    rw [hevents', foundList_entering]
    rfl
  · -- the cache is renewed by the last write of the cycle
    obtain ⟨hs₁, ⟨entered, hevents⟩, ⟨parents, ht₁⟩, hl⟩ := hsearch.2 (some l) rfl
    have hshown : ∀ n, n ∉ s₁.tables.knownMachines →
        n ∉ s₁.tables.dashboardClients ∧ n ∉ s₁.tables.onlineMachines := by
      rw [ht₁]
      exact fun n hn => hcoh.unshown hn
    have hknown : knownNodeIds s.tables = knownNodeIds s₁.tables := by
      rw [ht₁]
      rfl
    have hnames : s₁.tables.machineNames = s.tables.machineNames := by
      rw [ht₁]
      rfl
    have hprocess := leaves_processUntilCache o (phaseFrame_cache c) hs₁ hshown fuel
      (nodup_nodeId_removeDuplicates l)
      fun m hm => hl l rfl m (mem_of_mem_removeDuplicates hm)
    have hread := leaves_processUntilCache_read (o := o) fuel (knownNodeIds s₁.tables)
      (removeDuplicates l) s₁
    have hr : r = (processUntilCache o fuel (knownNodeIds s₁.tables) (removeDuplicates l) >>=
        fun found => write fun t =>
          { t with machineIdentificationsCache := found.machinesIdentification }).run s₁ := by
      rw [← hknown, ← processMachineList_eq]
      exact cycle_of_ok hrun
    rw [Prog.Leaves, Prog.ends_iff_run] at hprocess hread
    rw [Prog.run_bind] at hr
    rcases hend : (processUntilCache o fuel (knownNodeIds s₁.tables) (removeDuplicates l)).run s₁
      with ⟨found | e | w, s₂⟩
    all_goals rw [hend] at hr hprocess hread
    · obtain ⟨hs₂, ms, checks, added, hprocessed⟩ := hprocess.2 found rfl
      rw [hr]
      refine ⟨fun h => absurd rfl h, fun _ => .inr ⟨removeDuplicates l, s₂.history, ?_,
        nodup_nodeId_removeDuplicates l, rfl, hs₂.2, ?_⟩⟩
      · have hevents₂ := hprocessed.hevents
        rw [hevents, ObserverState.events_forget, List.nil_append, List.append_assoc,
          List.append_assoc, List.append_assoc] at hevents₂
        change foundList s₂.events = _
        rw [hevents₂, foundList_entering]
        rfl
      · rw [← hnames]
        exact hread.2 found rfl
    · rw [hr]
      exact ⟨fun _ => hprocess.1, fun h => by cases h⟩
    · rw [hr]
      exact ⟨fun _ => hprocess.1, fun h => by cases h⟩
  · have hr : r = (.throw e, s₁) := cycle_of_throw hrun
    rw [hr]
    exact ⟨fun _ => hsearch.1, fun h => by cases h⟩
  · have hr : r = (.stuck w, s₁) := cycle_of_stuck hrun
    rw [hr]
    exact ⟨fun _ => hsearch.1, fun h => by cases h⟩

/-! ### The data set of a machine that is shown -/

/-- A machine that is shown and has a client was added with the channel of its specification. -/
def Served (o : Observer ω) (t : ObserverTables) : Prop :=
  ∀ (n : NodeId) info c, t.onlineMachines[n]? = some info → t.dashboardClients[n]? = some c →
    o.HasDataSet n info.specification c

theorem served_cycleFrame : o.CycleFrame o.Served where
  eraseKnown _ _ h := h
  eraseClient t n h m info c hm hc := by
    rw [Std.ExtTreeMap.getElem?_erase] at hc
    split_ifs at hc
    exact h m info c hm hc
  eraseOnline t n h m info c hm hc := by
    rw [Std.ExtTreeMap.getElem?_erase] at hm
    split_ifs at hm
    exact h m info c hm hc
  parent _ _ _ h := h
  relist _ _ h := h
  setCount _ _ _ _ h _ := h
  forgive _ _ h := h
  know _ _ h := h
  show_ t machine c ref h _ hclient honline _ _ hset := by
    intro m info c' hm hc
    rw [ObserverTables.showMachine, Std.ExtTreeMap.getElem?_insertIfNew] at hm hc
    by_cases hid : machine.nodeId = m
    · subst hid
      rw [if_pos ⟨Std.ReflCmp.compare_self, honline⟩] at hm
      rw [if_pos ⟨Std.ReflCmp.compare_self, hclient⟩] at hc
      cases hm
      cases hc
      exact hset
    · have hne : ¬ compare machine.nodeId m = .eq := fun heq =>
        hid (Std.LawfulEqOrd.eq_of_compare heq)
      rw [if_neg fun h => hne h.1] at hm hc
      exact h m info c' hm hc
  blame _ _ _ h _ := h
  cache _ _ h _ := h

theorem served_of_visible {t : ObserverTables} (h : o.Visible t) : o.Served t :=
  visible_of_cycleFrame served_cycleFrame
    (fun n info c hm => by simp [ObserverTables.empty] at hm) h

/-! ### Moments of a run -/

variable (o)

/-- What the cached identifications are read from after a cycle. -/
def readingAfter (fuel : ℕ) (s : ObserverState ω) (r : Reading) : Reading :=
  match foundList (o.cycle fuel s).2.events with
  | some l => ⟨s.tables.machineNames, l⟩
  | none => r

/-- The states between the cycles of a run, with what their cache was read from. -/
inductive Reads : ObserverState ω → Reading → Prop where
  | start (world : ω) : Reads (o.start world) ⟨∅, []⟩
  | world {s : ObserverState ω} {r : Reading} (world : Recorded ω) :
      Reads s r → Reads (s.withWorld world) r
  | cycle {s s' : ObserverState ω} {r : Reading} (fuel : ℕ) :
      Reads s r → o.cycle fuel s = (.ok (), s') → Reads s' (o.readingAfter fuel s r)

/-- What the cache was read from when the tables have changed `i` times in a cycle: with the
last change a cycle that returns renews it. -/
def readingAt (fuel : ℕ) (s : ObserverState ω) (r : Reading) (i : ℕ) : Reading :=
  if (o.cycle fuel s).1 = .ok () ∧ i + 1 = (o.cycle fuel s).2.history.length then
    o.readingAfter fuel s r
  else r

/-- The moments at which the publishing thread may see the tables: between two cycles, and after
each change in a cycle. -/
inductive Moment : ObserverTables → Reading → Prop where
  | between {s : ObserverState ω} {r : Reading} : o.Reads s r → Moment s.tables r
  | during {s : ObserverState ω} {r : Reading} {t : ObserverTables} (fuel i : ℕ) :
      o.Reads s r → (o.cycle fuel s).2.history[i]? = some t → Moment t (o.readingAt fuel s r i)

/-- The cached identifications were read so, from a list without repetitions. -/
structure WellRead (t : ObserverTables) (r : Reading) : Prop where
  nodup : (r.machineList.map BrowseResult.nodeId).Nodup
  isRead : ∀ (n : NodeId) json, t.machineIdentificationsCache[n]? = some json → o.IsRead r n json

variable {o}

/-- What a cycle leaves is read as `readingAfter` says. -/
theorem WellRead.cycle {s' : ObserverState ω} {r : Reading} (hs : o.Reachable s)
    (h : o.WellRead s.tables r) {fuel : ℕ} (hcycle : o.cycle fuel s = (.ok (), s')) :
    o.WellRead s'.tables (o.readingAfter fuel s r) := by
  obtain ⟨-, hok⟩ := cycle_cache hs fuel rfl
  rw [hcycle] at hok
  rcases hok rfl with ⟨hnone, hsame, -⟩ | ⟨l, pre, hl, hnodup, -, -, hread⟩
  · rw [readingAfter, hcycle, hnone]
    exact ⟨h.nodup, fun n json hjson => h.isRead n json (hsame ▸ hjson)⟩
  · rw [readingAfter, hcycle, hl]
    exact ⟨hnodup, hread⟩

theorem Reads.wellRead {r : Reading} (h : o.Reads s r) : o.Reachable s ∧ o.WellRead s.tables r := by
  induction h with
  | start world =>
    refine ⟨.start world, List.nodup_nil, fun n json hjson => ?_⟩
    have hempty : (∅ : NodeMap Json)[n]? = some json := hjson
    simp at hempty
  | world world _ ih => exact ⟨.world world ih.1, ih.2.nodup, ih.2.isRead⟩
  | cycle fuel _ hcycle ih => exact ⟨.cycle fuel ih.1 hcycle, ih.2.cycle ih.1 hcycle⟩

/-- **At every moment the cache is read as the reading of the moment says.** -/
theorem Moment.wellRead {t : ObserverTables} {r : Reading} (h : o.Moment t r) :
    o.Visible t ∧ o.WellRead t r := by
  cases h with
  | @between s r hs =>
    obtain ⟨hreach, hread⟩ := hs.wellRead
    exact ⟨⟨s, hreach, .inl rfl⟩, hread⟩
  | @during s r t fuel i hs ht =>
    obtain ⟨hreach, hread⟩ := hs.wellRead
    have hmem : t ∈ (o.cycle fuel s).2.history := List.mem_of_getElem? ht
    refine ⟨⟨s, hreach, .inr ⟨fuel, hmem⟩⟩, ?_⟩
    have hold : t.machineIdentificationsCache = s.tables.machineIdentificationsCache →
        o.WellRead t r := fun hsame =>
      ⟨hread.nodup, fun n json hjson => hread.isRead n json (hsame ▸ hjson)⟩
    obtain ⟨hfailed, hok⟩ := cycle_cache hreach fuel rfl
    by_cases hreturned : (o.cycle fuel s).1 = .ok ()
    · have hcycle : o.cycle fuel s = (.ok (), (o.cycle fuel s).2) := cycle_eq_of_fst o hreturned
      have hafter := hread.cycle hreach hcycle
      rcases hok hreturned with ⟨hnone, -, hall⟩ | ⟨l, pre, -, -, hhistory, hpre, -⟩
      · have hsame : o.readingAt fuel s r i = r := by
          rw [readingAt, readingAfter, hnone, ite_self]
        rw [hsame]
        exact hold (hall t hmem)
      · rw [hhistory] at ht
        rw [readingAt, hhistory, List.length_append, List.length_singleton]
        rcases Nat.lt_or_ge i pre.length with hi | hi
        · rw [if_neg (by omega)]
          rw [List.getElem?_append_left hi] at ht
          exact hold (hpre t (List.mem_of_getElem? ht))
        · have hi' : i = pre.length := by
            have hlt := (List.getElem?_eq_some_iff.mp ht).1
            rw [List.length_append, List.length_singleton] at hlt
            omega
          subst hi'
          rw [List.getElem?_concat_length] at ht
          cases ht
          rw [if_pos ⟨hreturned, rfl⟩]
          exact hafter
    · rw [readingAt, if_neg fun h => hreturned h.1]
      exact hold (hfailed hreturned t hmem)

end Observer

end UmatiDashboard
