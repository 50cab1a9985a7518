import UmatiDashboard.MachineObserver.Invariant
import UmatiDashboard.MachineObserver.Publishing
import UmatiDashboard.TypeReader.SetupTypeMap

/-!
# Runs of the observer

What holds in every state of every run: between the cycles, and at every point of a cycle that
the publishing thread may see. The data client is arbitrary throughout, so the results hold for
every sequence of answers.
-/

namespace UmatiDashboard

namespace Observer

variable {ω : Type} (o : Observer ω)

/-- Tables that the publishing thread may see: those between two cycles, and each state they
pass through in a cycle, even one that does not return. -/
def Visible (t : ObserverTables) : Prop :=
  ∃ s, o.Reachable s ∧ (t = s.tables ∨ ∃ fuel, t ∈ (o.cycle fuel s).2.history)

variable {o} {s s' : ObserverState ω} {P : ObserverTables → Prop}

theorem browsesOnly_true : o.BrowsesOnly fun _ => True := fun _ _ _ _ _ _ => True.intro

/-- The step of every induction over runs. -/
theorem cycle_cases (hP : o.CycleFrame P) {C : NodeId → Prop} (hC : o.BrowsesOnly C)
    (hs : CoherentTables s.tables) (hPs : P s.tables) {fuel : ℕ}
    (hcycle : o.cycle fuel s = (.ok (), s')) : P s'.tables ∧ o.CycleResult C s s' := by
  have h := leaves_updateMachines o hP hC hPs (fun n hn => hs.unshown hn) fuel
  rw [Prog.Leaves, Prog.ends_iff_run] at h
  change o.cycle fuel s = _ at hcycle
  rw [cycle] at hcycle
  rw [hcycle] at h
  exact h.2 () rfl

/-- **The tables are coherent in every reachable state.** -/
theorem coherent_of_reachable (h : o.Reachable s) : CoherentTables s.tables := by
  induction h with
  | start world => exact Coherent.empty _
  | world w _ ih => exact ih
  | cycle fuel _ hcycle ih =>
    exact (cycle_cases (shownValid_cycleFrame o) browsesOnly_true ih
      (CoherentTables.shownValid ih) hcycle).2.coherent ih

/-- A predicate that holds of the empty tables and survives each operation of a cycle holds of
everything the publishing thread may see. -/
theorem visible_of_cycleFrame (hP : o.CycleFrame P) (hstart : P .empty)
    {t : ObserverTables} (h : o.Visible t) : P t := by
  have hreach : ∀ {s}, o.Reachable s → P s.tables := by
    intro s hs
    induction hs with
    | start world => exact hstart
    | world w _ ih => exact ih
    | cycle fuel hs hcycle ih =>
      exact (cycle_cases hP browsesOnly_true (coherent_of_reachable hs) ih hcycle).1
  obtain ⟨s, hs, rfl | ⟨fuel, hmem⟩⟩ := h
  · exact hreach hs
  · exact (leaves_updateMachines o hP browsesOnly_true (hreach hs)
      (fun n hn => (coherent_of_reachable hs).unshown hn) fuel).1 t hmem

/-- **Every known machine is listed**, if the server's identifiers are told apart by both
notions of identity. -/
theorem listed_of_reachable {C : NodeId → Prop} (hC : o.BrowsesOnly C) (hsep : Separated C)
    (h : o.Reachable s) : ListedTables C s.tables := by
  induction h with
  | start world =>
    exact ⟨by simp [start, ObserverTables.empty], by simp [start, ObserverTables.empty]⟩
  | world w _ ih => exact ih
  | cycle fuel hs hcycle ih =>
    have hcoh := coherent_of_reachable hs
    exact (cycle_cases (shownValid_cycleFrame o) hC hcoh hcoh.shownValid hcycle).2.listed hsep ih

/-! ### A small plant -/

def plantUri : String := "urn:plant"

/-- The type of the machines of the plant, and the type of their identification. -/
def plantMachineType : NodeId := ⟨plantUri, "i=1"⟩
def plantIdentificationType : NodeId := ⟨plantUri, "i=2"⟩

/-- A machine of the plant, by its identifier. -/
def plantMachine (id : String) : NodeId := ⟨plantUri, id⟩

/-- What the server answers for the folder of machines. -/
def plantListing (ids : List String) : List BrowseResult :=
  ids.map fun id =>
    ⟨.object, plantMachine id, plantMachineType, WellKnown.hasComponent, ⟨plantUri, id⟩⟩

/-- A server with machines of one type. Its state are the identifiers of the machines below the
folder of machines; every machine has an identification with one variable. -/
def plantClient : IDashboardDataClient (List String) where
  browse n ctx w :=
    if n = WellKnown.machinesFolder then (.ok (plantListing w), w)
    else if ctx = .variableNodes then
      (.ok [⟨.variable, plantMachine "s=SerialNumber", WellKnown.propertyType,
        WellKnown.hasComponent, ⟨plantUri, "SerialNumber"⟩⟩], w)
    else (.ok [], w)
  browseWithResultTypeFilter n _ t w :=
    (.ok [⟨.object, plantMachine (n.id ++ ".Identification"), t, WellKnown.hasComponent,
      ⟨plantUri, "Identification"⟩⟩], w)
  translateBrowsePathToNodeId _ _ w := (.ok ⟨"", ""⟩, w)
  isSameOrSubtype expected checked _ w := (expected.equals checked, w)
  subscribe _ _ w := (.ok none, w)
  unsubscribe _ _ w := w
  readeNodeValues ns w := (.ok (ns.map fun n => .string n.id), w)
  subscribe_nodeId := by simp

/-- The client of the plant hands out no handle. -/
theorem plantClient_subscribe_nodeId (n : NodeId) (cb : NewValueCallback) (w : List String)
    (h : ValueSubscriptionHandle) (w' : List String)
    (hs : plantClient.subscribe n cb w = (.ok (some h), w')) : h.nodeId = n :=
  plantClient.subscribe_nodeId n cb w h w' hs

/-- The types of the plant: two object types without children. -/
def plantTypes : TypeHierarchy where
  variableTypes := []
  objectTypes :=
    [.node ⟨.objectType, plantMachineType, ⟨"", ""⟩, WellKnown.hasComponent,
        ⟨plantUri, "MachineType"⟩⟩ .mandatory [],
      .node ⟨.objectType, plantIdentificationType, ⟨"", ""⟩, WellKnown.hasComponent,
        ⟨plantUri, "IdentificationType"⟩⟩ .mandatory []]

/-- The configuration of the plant. -/
def plantConfiguration : OpcUaTypeReader :=
  .create [plantUri] [⟨[plantMachineType], plantIdentificationType⟩]

def plantObserver : Observer (List String) where
  client := plantClient
  reader := plantConfiguration.readTypes plantTypes [plantUri]
  machinesFilter := ∅
  topics := ⟨"umati/v2", "plant"⟩

/-! ### The invariant of the tables -/

/-- An identifier as the data client makes it: the OPC UA namespace is written as the empty
URI. -/
def IsModelNodeId (n : NodeId) : Prop := n.uri ≠ NodeId.defaultUri

theorem separated_isModelNodeId : Separated IsModelNodeId := by
  intro a b ha hb h
  obtain ⟨ua, ia⟩ := a
  obtain ⟨ub, ib⟩ := b
  simp only [IsModelNodeId] at ha hb
  simp only [NodeId.equals, NodeId.cmpUri, Bool.and_eq_true, beq_iff_eq] at h
  obtain ⟨huri, rfl⟩ := h
  split_ifs at huri with h₁ h₂ h₂
  · rw [h₁, h₂]
  · exact absurd huri.symm hb
  · exact absurd huri ha
  · rw [huri]

/-- The machines on the list of errors. -/
def errorListed (t : ObserverTables) : List NodeId :=
  (listed t (fun _ => "errors") "errors" t.invalidMachines.toList).map Prod.fst

/-- **The invariant of the observer's tables**, in every reachable state; and at every point of
every cycle no machine is both shown and to be skipped, so that whatever is published, no
machine is on the list of a specification and on the list of errors. -/
theorem tables_invariant (hC : o.BrowsesOnly IsModelNodeId) :
    (∀ s, o.Reachable s →
      (∀ n : NodeId, n ∈ s.tables.dashboardClients ↔ n ∈ s.tables.onlineMachines) ∧
      (∀ n : NodeId, n ∈ s.tables.onlineMachines →
        n ∈ s.tables.knownMachines ∧ n ∈ s.tables.machineNames ∧
          n ∈ s.tables.machineIdentificationsCache) ∧
      (∀ n : NodeId, n ∈ s.tables.knownMachines →
        n ∈ s.tables.knownMachineToolsSet ∧ n ∉ s.tables.invalidMachines) ∧
      ∀ (n : NodeId) count error, s.tables.invalidMachines[n]? = some (count, error) →
        1 ≤ count ∧ count ≤ numSkipAfterInvalid) ∧
    ∀ t, o.Visible t →
      (∀ n : NodeId, n ∈ t.onlineMachines → n ∉ t.invalidMachines) ∧
      ∀ S, ∀ n ∈ (onlineListed t S).map Prod.fst, n ∉ errorListed t := by
  refine ⟨fun s hs => ?_, fun t ht => ?_⟩
  · have hcoh := coherent_of_reachable hs
    have hlisted := listed_of_reachable hC separated_isModelNodeId hs
    exact ⟨hcoh.clients_iff,
      fun n hn => ⟨hcoh.online_known n hn, hcoh.online_named n hn, hcoh.online_cached n hn⟩,
      fun n hn => ⟨hlisted.1 n hn, hcoh.known_valid n hn⟩, hcoh.counted⟩
  · have hvalid : ShownValid t :=
      visible_of_cycleFrame (shownValid_cycleFrame o)
        (by simp [ShownValid, ObserverTables.empty]) ht
    refine ⟨hvalid, fun S n hn hlist => ?_⟩
    obtain ⟨⟨_, info⟩, hinfo, rfl⟩ := List.mem_map.mp hn
    obtain ⟨⟨_, err⟩, herr, heq⟩ := List.mem_map.mp hlist
    dsimp only at heq
    subst heq
    refine hvalid _ (NodeMap.mem_of_getElem? (mem_onlineListed.mp hinfo).1) ?_
    rw [mem_listed, Std.ExtTreeMap.mem_toList_iff_getElem?_eq_some] at herr
    exact NodeMap.mem_of_getElem? herr.1

private theorem plant_browsesOnly : plantObserver.BrowsesOnly IsModelNodeId := by
  intro n w l hl r hr
  change (plantClient.browse n .hierarchical w).1 = .ok l at hl
  have huri : plantUri ≠ NodeId.defaultUri := by decide
  have hctx : BrowseContext.hierarchical ≠ .variableNodes := by decide
  simp only [plantClient, hctx, if_false] at hl
  split_ifs at hl
  · cases hl
    obtain ⟨id, -, rfl⟩ := List.mem_map.mp hr
    exact huri
  · cases hl
    cases hr

/-- The plant after a cycle in which its first machine was found. -/
def plantRunning : ObserverState (List String) :=
  (plantObserver.cycle 2 (plantObserver.start ["m1"])).2

theorem plantRunning_reachable : plantObserver.Reachable plantRunning := by
  unfold plantRunning
  exact .cycle 2 (.start ["m1"]) (cycle_eq_of_fst _ (by decide +kernel))

theorem tables_invariant_plant :
    plantMachine "m1" ∈ plantRunning.tables.onlineMachines ∧
      plantMachine "m1" ∈ plantRunning.tables.knownMachines ∧
      plantMachine "m1" ∈ plantRunning.tables.machineNames ∧
      plantMachine "m1" ∈ plantRunning.tables.machineIdentificationsCache :=
  have honline : plantMachine "m1" ∈ plantRunning.tables.onlineMachines := by decide +kernel
  ⟨honline, ((tables_invariant plant_browsesOnly).1 _ plantRunning_reachable).2.1 _ honline⟩

/-! ### The published lists -/

/-- What the lists of machines rely on: the specifications are expected ones, and the cached
identifications are what `isOnline` reads. -/
def PublishesWell (o : Observer ω) (t : ObserverTables) : Prop :=
  (∀ (n : NodeId) info, t.onlineMachines[n]? = some info →
    info.specification ∈ o.reader.objectTypeNames) ∧ CachesIdentifications t

/-- **Specifications are the names of configured types**: the search returns machines of types
with an identification type only, and `addMachine` takes the name from the type map. -/
theorem publishesWell_cycleFrame (o : Observer ω) : o.CycleFrame o.PublishesWell where
  eraseKnown _ _ h := h
  eraseClient _ _ h := h
  eraseOnline t n h := by
    refine ⟨fun m info hm => ?_, h.2⟩
    rw [Std.ExtTreeMap.getElem?_erase] at hm
    split_ifs at hm
    exact h.1 m info hm
  parent _ _ _ h := h
  relist _ _ h := h
  setCount _ _ _ _ h _ := h
  forgive _ _ h := h
  know _ _ h := h
  show_ t machine c ref h _ _ _ htype href _ := by
    refine ⟨fun m info hm => ?_, h.2⟩
    rw [ObserverTables.showMachine, Std.ExtTreeMap.getElem?_insertIfNew] at hm
    split_ifs at hm
    · cases hm
      obtain ⟨i, hi⟩ := Option.isSome_iff_exists.mp
        (Std.ExtTreeMap.isSome_getElem?_iff_mem.mpr htype)
      exact o.reader.mem_objectTypeNames hi href
    · exact h.1 m info hm
  blame _ _ _ h _ := h
  cache _ _ h hids := ⟨h.1, hids⟩

theorem publishesWell_of_visible {t : ObserverTables} (h : o.Visible t) : o.PublishesWell t :=
  visible_of_cycleFrame (publishesWell_cycleFrame o)
    ⟨by simp [ObserverTables.empty], by simp [CachesIdentifications, ObserverTables.empty]⟩ h

/-- The element that is published for a machine that is shown: its identification with the
identifier of its parent. -/
def IsElementOf (t : ObserverTables) (machine : NodeId × MachineInformation) (element : Json) :
    Prop :=
  ∃ json, cachedIdentification t machine.1 = some json ∧
    json.assign "ParentId" (.string (idEncode machine.2.parent.toString)) = .ok element

/-- Each listed machine has one element. -/
theorem forall₂_isElementOf {t : ObserverTables} (hcache : CachesIdentifications t) :
    ∀ ms : List (NodeId × MachineInformation),
      (∀ m ∈ ms, (cachedIdentification t m.1).isSome = true) →
      List.Forall₂ (IsElementOf t) ms (ms.filterMap (onlineElement t))
  | [], _ => by simp
  | m :: ms, h => by
    obtain ⟨json, hjson⟩ := Option.isSome_iff_exists.mp (h m List.mem_cons_self)
    have ih := forall₂_isElementOf hcache ms fun m' hm' => h m' (List.mem_cons_of_mem m hm')
    have hfilter := hjson
    rw [cachedIdentification, Option.filter_eq_some_iff] at hfilter
    obtain ⟨x, xs, rfl, -⟩ := hcache m.1 json hfilter.1
    have helem : onlineElement t m = some (.object (Json.putMember "ParentId"
        (.string (idEncode m.2.parent.toString)) (x :: xs))) := by
      rw [onlineElement, element, hjson]
      rfl
    rw [List.filterMap_cons_some helem]
    exact .cons ⟨_, hjson, rfl⟩ ih

/-- A call publishes on the list of each expected specification, each time with one element for each
machine that is shown with it. -/
def ListsExact (o : Observer ω) (t : ObserverTables) : Prop :=
  ∀ S ∈ o.reader.expectedObjectTypeNames,
    (∃ p ∈ (o.publishMachinesList t).1, p.topic = o.topics.list S) ∧
    ∀ p ∈ (o.publishMachinesList t).1, p.topic = o.topics.list S →
      ∃ es, p.payload = .array es ∧ List.Forall₂ (IsElementOf t) (onlineListed t S) es ∧
        ((onlineListed t S).map Prod.fst).Nodup

/-- **When the lists of machines are exact and never stale.** After `readTypes`, and for everything
the publishing thread may see: every machine that is online has an expected specification, and a
call publishes exactly its machines on the list of each expected specification if and only if the
identifications that are cached for them can be written out. A list that was published with a
machine once is published by a later call if and only if the lists before it can be written out, and
all lists if it has no machine any more. -/
theorem machineLists_exact_iff {reader : OpcUaTypeReader} {H : TypeHierarchy}
    {namespaces : List String} (hreader : o.reader = reader.readTypes H namespaces) :
    (∀ t, o.Visible t →
      (∀ (n : NodeId) info, t.onlineMachines[n]? = some info →
        info.specification ∈ o.reader.expectedObjectTypeNames) ∧
      (o.ListsExact t ↔ ListsWritten t fun _ => True)) ∧
    ∀ t t', o.Visible t → o.Visible t' → ∀ S,
      (∃ p ∈ (o.publishMachinesList t).1, p.topic = o.topics.list S ∧ p.payload ≠ .array []) →
      ((∃ p ∈ (o.publishMachinesList t').1, p.topic = o.topics.list S) ↔ ListReached t' S) := by
  have hnames : o.reader.expectedObjectTypeNames = o.reader.objectTypeNames := by
    rw [hreader]
    rfl
  have hexpected : ∀ t, o.Visible t → ∀ (n : NodeId) info, t.onlineMachines[n]? = some info →
      info.specification ∈ o.reader.expectedObjectTypeNames := fun t ht n info h =>
    hnames ▸ (publishesWell_of_visible ht).1 n info h
  refine ⟨fun t ht => ⟨hexpected t ht, ?_⟩, fun t t' ht ht' S => ?_⟩
  · have hwell := publishesWell_of_visible ht
    obtain ⟨hexists, hpayload⟩ := onlineLists_published o hwell.2
    constructor
    · -- the list of a machine whose identification cannot be written out is not published
      rintro hexact ⟨n, info⟩ he - json hjson
      have hinfo := Std.ExtTreeMap.mem_toList_iff_getElem?_eq_some.mp he
      obtain ⟨-, hreached⟩ :=
        (hexists _).mp (hexact info.specification (hexpected t ht n info hinfo)).1
      exact hreached (n, info) he (fun _ => by simp) json hjson
    · intro hwritten S hS
      refine ⟨(hexists S).mpr ⟨.inl hS, hwritten.reached S⟩, fun p hp htopic =>
        ⟨_, hpayload S p hp htopic, ?_, nodup_onlineListed S⟩⟩
      exact forall₂_isElementOf hwell.2 _ fun m hm => (mem_onlineListed.mp hm).2.2
  · rintro ⟨p, hp, htopic, -⟩
    have hwell := publishesWell_of_visible ht
    have hS : S ∈ o.reader.expectedObjectTypeNames := by
      rcases ((onlineLists_published o hwell.2).1 S).mp ⟨p, hp, htopic⟩ with ⟨hS | hlisted, -⟩
      · exact hS
      · obtain ⟨⟨n, info⟩, hm⟩ := List.exists_mem_of_ne_nil _ hlisted
        obtain ⟨hinfo, rfl, -⟩ := mem_onlineListed.mp hm
        exact hexpected t ht n info hinfo
    rw [(onlineLists_published o (publishesWell_of_visible ht').2).1 S]
    exact and_iff_right (.inl hS)

theorem machineLists_exact_plant :
    ∃ p ∈ (plantObserver.publishMachinesList plantRunning.tables).1,
      p.topic = "umati/v2/plant/list/MachineType" ∧
        ∃ es, p.payload = .array es ∧ es.length = 1 := by
  have hreader : plantObserver.reader = plantConfiguration.readTypes plantTypes [plantUri] := rfl
  have hwritten : ListsWritten plantRunning.tables fun _ => True := by
    have hall : ∀ e ∈ plantRunning.tables.onlineMachines.toList,
        ∀ json ∈ cachedIdentification plantRunning.tables e.1, json.dumps = true := by
      decide +kernel
    exact fun e he _ json hjson => hall e he json hjson
  have hexact := ((machineLists_exact_iff hreader).1 plantRunning.tables
    ⟨plantRunning, plantRunning_reachable, .inl rfl⟩).2.mpr hwritten
  obtain ⟨⟨p, hp, htopic⟩, hall⟩ := hexact "MachineType" (by decide +kernel)
  obtain ⟨es, hes, hforall, -⟩ := hall p hp htopic
  refine ⟨p, hp, htopic.trans (by decide), es, hes, ?_⟩
  rw [← hforall.length_eq]
  decide +kernel

/-- The plant, where the serial number of a machine is a byte string. -/
def bytesPlant : Observer (List String) where
  client := { plantClient with
    readeNodeValues := fun ns w => (.ok (ns.map fun _ => .strayByte 0xFF (by decide)), w)
    subscribe_nodeId := by simp [plantClient] }
  reader := plantObserver.reader
  machinesFilter := ∅
  topics := plantObserver.topics

/-- **A byte string keeps all lists from being published.** -/
theorem not_machineLists_exact :
    ¬ ∀ {ω : Type} {o : Observer ω} {reader : OpcUaTypeReader} {H : TypeHierarchy}
      {namespaces : List String}, o.reader = reader.readTypes H namespaces →
        ∀ t, o.Visible t → o.ListsExact t := by
  intro h
  have hvisible : bytesPlant.Visible (bytesPlant.cycle 2 (bytesPlant.start ["m1"])).2.tables :=
    ⟨_, .cycle 2 (.start ["m1"]) (cycle_eq_of_fst _ (by decide +kernel)), .inl rfl⟩
  have hreader : bytesPlant.reader = plantConfiguration.readTypes plantTypes [plantUri] := rfl
  obtain ⟨⟨p, hp, -⟩, -⟩ := h hreader _ hvisible "MachineType" (by decide +kernel)
  have hnone : (bytesPlant.publishMachinesList
      (bytesPlant.cycle 2 (bytesPlant.start ["m1"])).2.tables).1.length = 0 := by decide +kernel
  rw [List.length_eq_zero_iff.mp hnone] at hp
  cases hp

end Observer

end UmatiDashboard
