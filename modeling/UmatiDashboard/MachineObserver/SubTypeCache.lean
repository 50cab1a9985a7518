import UmatiDashboard.DashboardClient.DataSets
import UmatiDashboard.DataClient.SuperTypeQueries
import UmatiDashboard.MachineObserver.CycleSteps
import UmatiDashboard.MachineObserver.Runs
import UmatiDashboard.TypeReader.LoadedTypes

/-!
# The cache of machine types

A type that the search meets for the first time is entered as undefined, and then as the first
configured machine type that the data client says is above it. So an entry is undefined if every
configured type was denied, and a query that fails denies as well: the entry stays, and hides the
machines of that type from every later search (`not_subTypes_sound`). In a run in which some
configured type is not denied to each type that has one above it, the entries are right
(`subTypes_sound`).
-/

namespace UmatiDashboard

open IDashboardDataClient (Honest IsSameOrSubtype)

namespace Observer

variable {ω : Type} (o : Observer ω) (superType : NodeId → Option NodeId)

/-- The observer whose data client keeps the queries for supertypes. -/
def queried : Observer (Queried ω) := { o with client := o.client.queried }

/-- What the entries of the cache rest on: a configured type above the type, or a denial of every
configured type. -/
def Rests (s : ObserverState (Queried ω)) : Prop :=
  ∀ (t v : NodeId), s.subTypes[t]? = some v →
    (v ∈ o.reader.knownMachineTypeDefinitions ∧ IsSameOrSubtype superType v t) ∨
      (v = WellKnown.undefinedType ∧ ∀ md ∈ o.reader.knownMachineTypeDefinitions,
        ⟨md, t, false⟩ ∈ s.world.state.queries)

variable {o superType} {s s' : ObserverState (Queried ω)}

/-- Further queries take nothing away. -/
theorem Rests.mono (hs : o.Rests superType s) (htypes : s'.subTypes = s.subTypes)
    (hqueries : s.world.state.queries ⊆ s'.world.state.queries) : o.Rests superType s' := by
  intro t v hv
  rw [htypes] at hv
  rcases hs t v hv with hknown | ⟨hundefined, hdenied⟩
  · exact Or.inl hknown
  · exact Or.inr ⟨hundefined, fun md hmd => hqueries (hdenied md hmd)⟩

/-- An entry that is added or changed. -/
theorem Rests.enter (hs : o.Rests superType s) {t v : NodeId}
    (hv : (v ∈ o.reader.knownMachineTypeDefinitions ∧ IsSameOrSubtype superType v t) ∨
      (v = WellKnown.undefinedType ∧ ∀ md ∈ o.reader.knownMachineTypeDefinitions,
        ⟨md, t, false⟩ ∈ s'.world.state.queries))
    (hqueries : s.world.state.queries ⊆ s'.world.state.queries)
    (htypes : ∀ u : NodeId, u ≠ t → s'.subTypes[u]? = s.subTypes[u]?)
    (hentry : s'.subTypes[t]? = some v) : o.Rests superType s' := by
  intro u w hw
  by_cases hu : u = t
  · subst hu
    obtain rfl : w = v := Option.some.inj (hw.symm.trans hentry)
    exact hv
  · rw [htypes u hu] at hw
    rcases hs u w hw with hknown | ⟨hundefined, hdenied⟩
    · exact Or.inl hknown
    · exact Or.inr ⟨hundefined, fun md hmd => hqueries (hdenied md hmd)⟩

/-- **The queries of one type**: the first configured type that is not denied is above it, and if
there is none, every configured type was denied. -/
theorem ends_findSupertype (hhonest : Honest o.client superType) (t : NodeId) :
    ∀ (mds : List NodeId) (s : ObserverState (Queried ω)),
      (findSupertype o.queried t mds).Ends s fun out s' => s'.subTypes = s.subTypes ∧
        s.world.state.queries ⊆ s'.world.state.queries ∧
        ((∃ md ∈ mds, out = .ok (some md) ∧ IsSameOrSubtype superType md t) ∨
          (out = .ok none ∧ ∀ md ∈ mds, ⟨md, t, false⟩ ∈ s'.world.state.queries))
  | [], s => ⟨rfl, List.Subset.refl _, Or.inr ⟨rfl, fun md hmd => absurd hmd List.not_mem_nil⟩⟩
  | md :: rest, s => by
    rw [findSupertype, Prog.ends_bind, ends_askQuietly, Outcome.follow_ok]
    cases hsame : (o.client.isSameOrSubtype md t 3 s.world.state.state).1 with
    | true =>
      have hasked : (o.queried.data.isSameOrSubtype md t 3 s.world).1 = true := hsame
      rw [hasked]
      refine ⟨rfl, List.subset_append_left _ _, Or.inl ⟨md, List.mem_cons_self, rfl, ?_⟩⟩
      exact hhonest md t 3 _ hsame
    | false =>
      have hasked : (o.queried.data.isSameOrSubtype md t 3 s.world).1 = false := hsame
      have hquery : (o.queried.data.isSameOrSubtype md t 3 s.world).2.state.queries =
          s.world.state.queries ++ [⟨md, t, false⟩] := by
        rw [← hsame]
        rfl
      rw [hasked]
      refine (ends_findSupertype hhonest t rest _).mono fun out s' hends => ?_
      obtain ⟨htypes, hqueries, hout⟩ := hends
      have hgrown : s.world.state.queries ++ [⟨md, t, false⟩] ⊆ s'.world.state.queries := by
        rw [← hquery]
        exact hqueries
      refine ⟨htypes, List.Subset.trans (List.subset_append_left _ _) hgrown, ?_⟩
      rcases hout with ⟨md', hmd', hok, habove⟩ | ⟨hnone, hdenied⟩
      · exact Or.inl ⟨md', List.mem_cons_of_mem _ hmd', hok, habove⟩
      · refine Or.inr ⟨hnone, fun md' hmd' => ?_⟩
        rcases List.mem_cons.mp hmd' with rfl | hmd'
        · exact hgrown (List.mem_append_right _ List.mem_cons_self)
        · exact hdenied md' hmd'

/-- **Resolving a type** leaves entries that rest on the queries. -/
theorem keeps_resolveSubType_rests (hhonest : Honest o.client superType) (machine : BrowseResult) :
    (resolveSubType o.queried machine).Keeps (o.Rests superType) fun m =>
      m.nodeId = machine.nodeId := by
  intro s hs
  rw [resolveSubType, Prog.Leaves, Prog.ends_bind, Prog.ends_get, Outcome.follow_ok]
  cases hentry : s.subTypes[machine.typeDefinition]? with
  | some baseType =>
    dsimp only
    split_ifs
    · exact ⟨hs, fun m hm => by cases hm; rfl⟩
    · exact ⟨hs, fun m hm => by cases hm; rfl⟩
  | none =>
    simp only [setSubType, Prog.ends_bind, Prog.ends_modify, Outcome.follow_ok]
    refine (ends_findSupertype hhonest machine.typeDefinition _ _).mono fun out s₁ hends => ?_
    obtain ⟨htypes, hqueries, ⟨md, hmd, rfl, habove⟩ | ⟨rfl, hdenied⟩⟩ := hends
    · simp only [Outcome.follow_ok, Prog.ends_bind, Prog.ends_modify, Prog.ends_pure]
      refine ⟨hs.enter (Or.inl ⟨hmd, habove⟩) hqueries (fun u hu => ?_) ?_, fun m hm => ?_⟩
      · have hne : machine.typeDefinition ≠ u := Ne.symm hu
        simp [htypes, Std.ExtTreeMap.getElem?_insert, Std.ExtTreeMap.getElem?_insertIfNew, hne]
      · simp
      · cases hm
        rfl
    · simp only [Outcome.follow_ok, Prog.ends_pure]
      refine ⟨hs.enter (Or.inr ⟨rfl, hdenied⟩) hqueries (fun u hu => ?_) ?_, fun m hm => ?_⟩
      · have hne : machine.typeDefinition ≠ u := Ne.symm hu
        simp [htypes, Std.ExtTreeMap.getElem?_insertIfNew, hne]
      · have hnew : machine.typeDefinition ∉ s.subTypes := by
          rw [← Std.ExtTreeMap.isSome_getElem?_iff_mem, hentry]
          exact Bool.false_ne_true
        rw [htypes, Std.ExtTreeMap.getElem?_insertIfNew,
          if_pos ⟨Std.ReflCmp.compare_self, hnew⟩]
      · cases hm
        rfl

/-! ### Runs -/

/-- Queries are added only. -/
theorem callsKeep_queries (client : IDashboardDataClient ω) (qs : List SuperTypeAnswer) :
    client.queried.recorded.CallsKeep fun w => qs ⊆ w.state.queries where
  reads := ⟨fun _ _ _ h => h, fun _ _ _ _ h => h, fun _ _ _ h => h,
    fun _ _ _ _ h => List.Subset.trans h (List.subset_append_left _ _), fun _ _ h => h⟩
  subscribe _ _ _ h := h
  unsubscribe _ _ _ h := h

/-- Neither do the dashboard clients take anything away. -/
theorem keeps_onClient_rests (c : DashboardClient)
    {p : DashboardClient.ClientM (Recorded (Queried ω)) Unit}
    (hp : ∀ qs : List SuperTypeAnswer,
      p.Keeps (fun session => qs ⊆ session.world.state.queries) fun _ => True) :
    (onClient c p).Keeps (o.Rests superType) fun _ => True := by
  intro s hs
  rw [Prog.Leaves, onClient, Prog.ends_zoom, Prog.ends_bind]
  have hqueries := (hp s.world.state.queries ⟨s.world, c⟩ (List.Subset.refl _)).1
  rw [Prog.ends_iff_run]
  rcases hrun : p.run ⟨s.world, c⟩ with ⟨out, session⟩
  rw [hrun] at hqueries
  cases out with
  | ok u => exact ⟨hs.mono rfl hqueries, fun _ _ => trivial⟩
  | throw e => exact ⟨hs.mono rfl hqueries, fun _ _ => trivial⟩
  | stuck w => exact ⟨hs.mono rfl hqueries, fun _ _ => trivial⟩

theorem keeps_write_rests (f : ObserverTables → ObserverTables) :
    (write f : ObserverM (Queried ω) Unit).Keeps (o.Rests superType) fun _ => True :=
  keeps_write fun _ hs => hs.mono rfl (List.Subset.refl _)

theorem keeps_dropDashboardClient_rests (n : NodeId) :
    (dropDashboardClient o.queried n).Keeps (o.Rests superType) fun _ => True := by
  have hunsubscribe : ∀ c, (onClient c (DashboardClient.unsubscribe o.queried.data)).Keeps
      (o.Rests superType) fun _ => True := fun c =>
    keeps_onClient_rests c fun qs session h => ⟨h, fun _ _ => trivial⟩
  refine CycleSteps.keeps_tables.bind fun t _ => ?_
  split
  · exact (hunsubscribe _).bind fun _ _ => keeps_write_rests _
  · exact Prog.keeps_pure trivial

theorem keeps_addMachine_rests (fuel : ℕ) (machine : BrowseResult) :
    (addMachine o.queried fuel machine).Keeps (o.Rests superType) fun _ => True := by
  have hrecord : (record (.adding machine.nodeId) : ObserverM (Queried ω) Unit).Keeps
      (o.Rests superType) fun _ => True :=
    keeps_record fun _ hs => hs.mono rfl (List.Subset.refl _)
  refine hrecord.bind fun _ _ => .catching ?_ fun ex => ?_
  · split_ifs
    · exact Prog.keeps_pure trivial
    · refine keeps_liftExcept.bind fun ref _ => CycleSteps.keeps_tables.bind fun t _ =>
        (keeps_dropDashboardClient_rests _).bind fun _ _ =>
          (keeps_onClient_rests _ fun qs => ?_).bind fun _ _ => keeps_write_rests _
      exact DashboardClient.keeps_addDataSet_world _ (callsKeep_queries o.client qs) fuel _ _ _ _
  · split_ifs
    · exact Prog.keeps_throw
    · exact Prog.keeps_throw

/-- **The steps of a cycle** leave entries that rest on the queries. -/
theorem cycleSteps_rests (hhonest : Honest o.client superType) :
    o.queried.CycleSteps (o.Rests superType) where
  search :=
    { world := fun _ =>
        ⟨fun _ _ _ h => h.mono rfl (List.Subset.refl _),
          fun _ _ _ _ h => h.mono rfl (List.Subset.refl _),
          fun _ _ _ h => h.mono rfl (List.Subset.refl _),
          fun _ _ _ _ h => h.mono rfl (List.subset_append_left _ _),
          fun _ _ h => h.mono rfl (List.Subset.refl _)⟩
      resolve := keeps_resolveSubType_rests hhonest
      enter := fun _ _ _ h => h.mono rfl (List.Subset.refl _) }
  log _ _ h := h.mono rfl (List.Subset.refl _)
  put _ _ h _ := h.mono rfl (List.Subset.refl _)
  drop := keeps_dropDashboardClient_rests
  add := keeps_addMachine_rests

variable (o)

/-- The states between the cycles of a run, whatever becomes of each cycle. Between two cycles the
data client may change in any way; the queries are asked in the cycles only. -/
inductive QueriedRuns : ObserverState (Queried ω) → Prop where
  | start (world : ω) : QueriedRuns (o.queried.start ⟨world, []⟩)
  | world {s : ObserverState (Queried ω)} (world : ω) :
      QueriedRuns s → QueriedRuns (s.withWorld { s.world with
        state := ⟨world, s.world.state.queries⟩ })
  | cycle {s : ObserverState (Queried ω)} (fuel : ℕ) :
      QueriedRuns s → QueriedRuns (o.queried.cycle fuel s).2

/-- The entries of the cache are right: an undefined one is that of a type with no configured type
above it, and any other is a configured type above its type. -/
def SubTypesSound (superType : NodeId → Option NodeId) (subTypes : NodeMap NodeId) : Prop :=
  ∀ (t v : NodeId), subTypes[t]? = some v →
    if v.equals WellKnown.undefinedType then
      ∀ md ∈ o.reader.knownMachineTypeDefinitions, ¬ IsSameOrSubtype superType md t
    else v ∈ o.reader.knownMachineTypeDefinitions ∧ IsSameOrSubtype superType v t

variable {o}

/-- The entries that come from the configuration. -/
theorem getElem?_subTypes_create (expectedObjectTypeNamespaces : List String)
    (namespaceInformations : List NamespaceInformation) {t v : NodeId}
    (h : (OpcUaTypeReader.create expectedObjectTypeNamespaces
      namespaceInformations).subTypeDefinitionToKnownMachineTypeDefinition[t]? = some v) :
    v = t ∧ v ∈ (OpcUaTypeReader.create expectedObjectTypeNamespaces
      namespaceInformations).knownMachineTypeDefinitions := by
  simp only [OpcUaTypeReader.create] at h ⊢
  generalize (namespaceInformations.flatMap fun el => el.types.map fun e => (e, el)) = entries
    at h ⊢
  have hfold := getElem?_foldl_insertIfNew (entries.map fun p => (p.1, p.1)) ∅
    (by rw [List.foldl_map]; exact h)
  rcases hfold with hempty | hmem
  · simp at hempty
  · obtain ⟨p, hp, heq⟩ := List.mem_map.mp hmem
    obtain ⟨rfl, rfl⟩ := Prod.mk.inj heq
    exact ⟨rfl, List.mem_map_of_mem hp⟩

/-- **The entries rest on the queries** in every state of every run. -/
theorem QueriedRuns.rests (hhonest : Honest o.client superType)
    {expectedObjectTypeNamespaces namespaces : List String}
    {namespaceInformations : List NamespaceInformation} {H : TypeHierarchy}
    (hreader : o.reader = (OpcUaTypeReader.create expectedObjectTypeNamespaces
      namespaceInformations).readTypes H namespaces) (h : o.QueriedRuns s) :
    o.Rests superType s := by
  induction h with
  | start world =>
    intro t v hv
    have hv : o.reader.subTypeDefinitionToKnownMachineTypeDefinition[t]? = some v := hv
    rw [hreader] at hv ⊢
    obtain ⟨rfl, hmem⟩ := getElem?_subTypes_create expectedObjectTypeNamespaces
      namespaceInformations hv
    exact Or.inl ⟨hmem, 0, rfl⟩
  | world world _ ih => exact ih.mono rfl (List.Subset.refl _)
  | @cycle s fuel _ ih =>
    have hforget : o.Rests superType s.forget := ih.mono rfl (List.Subset.refl _)
    exact ((cycleSteps_rests hhonest).keeps_updateMachines fuel s.forget hforget).1

/-- **The cache is right after every run** in which no type that has a configured type above it was
denied every configured type, if the undefined type is not configured as a machine type. -/
theorem subTypes_sound (hhonest : Honest o.client superType)
    {expectedObjectTypeNamespaces namespaces : List String}
    {namespaceInformations : List NamespaceInformation} {H : TypeHierarchy}
    (hreader : o.reader = (OpcUaTypeReader.create expectedObjectTypeNamespaces
      namespaceInformations).readTypes H namespaces)
    (hdefined : ∀ md ∈ o.reader.knownMachineTypeDefinitions,
      md.equals WellKnown.undefinedType = false)
    (hrun : o.QueriedRuns s)
    (hqueries : ∀ t, (∃ md ∈ o.reader.knownMachineTypeDefinitions,
        IsSameOrSubtype superType md t) →
      ∃ md ∈ o.reader.knownMachineTypeDefinitions, ⟨md, t, false⟩ ∉ s.world.state.queries) :
    o.SubTypesSound superType s.subTypes := by
  intro t v hv
  rcases hrun.rests hhonest hreader t v hv with ⟨hknown, habove⟩ | ⟨rfl, hdenied⟩
  · rw [hdefined v hknown]
    exact ⟨hknown, habove⟩
  · rw [if_pos (by decide)]
    intro md hmd habove
    obtain ⟨md', hmd', hnot⟩ := hqueries t ⟨md, hmd, habove⟩
    exact hnot (hdenied md' hmd')

/-! ### A query that fails -/

/-- A subtype of the type of the machines of the plant. -/
def plantSubType : NodeId := ⟨plantUri, "i=3"⟩

def plantSuperType (t : NodeId) : Option NodeId :=
  if t = plantSubType then some plantMachineType else none

/-- The plant with machines of the subtype, and a data client that answers queries for supertypes
in the given way. -/
def subTypePlant (answer : NodeId → NodeId → Bool) : Observer (List String) where
  client :=
    { plantClient with
      browse := fun n ctx w =>
        if n = WellKnown.machinesFolder then
          (.ok ((plantListing w).map fun r => { r with typeDefinition := plantSubType }), w)
        else plantClient.browse n ctx w
      isSameOrSubtype := fun expected checked _ w => (answer expected checked, w)
      subscribe_nodeId := plantClient_subscribe_nodeId }
  reader := plantConfiguration.readTypes plantTypes [plantUri]
  machinesFilter := ∅
  topics := ⟨"umati/v2", "plant"⟩

/-- The plant after one cycle. -/
def subTypePlantRunning (answer : NodeId → NodeId → Bool) : ObserverState (Queried (List String)) :=
  ((subTypePlant answer).queried.cycle 2 ((subTypePlant answer).queried.start ⟨["m1"], []⟩)).2

theorem queriedRuns_subTypePlantRunning (answer : NodeId → NodeId → Bool) :
    (subTypePlant answer).QueriedRuns (subTypePlantRunning answer) :=
  .cycle 2 (.start ["m1"])

/-- If the query for the subtype fails, the subtype is undefined from then on. -/
theorem not_subTypes_sound :
    ¬ ∀ (o : Observer (List String)) (superType : NodeId → Option NodeId)
      (expectedObjectTypeNamespaces namespaces : List String)
      (namespaceInformations : List NamespaceInformation) (H : TypeHierarchy)
      (s : ObserverState (Queried (List String))), Honest o.client superType →
      o.reader = (OpcUaTypeReader.create expectedObjectTypeNamespaces
        namespaceInformations).readTypes H namespaces →
      o.QueriedRuns s → o.SubTypesSound superType s.subTypes := by
  intro hsound
  have hhonest : Honest (subTypePlant fun _ _ => false).client plantSuperType := by
    intro a b depth w h
    cases h
  have hentry : (subTypePlantRunning fun _ _ => false).subTypes[plantSubType]? =
      some WellKnown.undefinedType := by decide +kernel
  have hright := hsound (subTypePlant fun _ _ => false) plantSuperType [plantUri] [plantUri]
    [⟨[plantMachineType], plantIdentificationType⟩] plantTypes _ hhonest rfl
    (queriedRuns_subTypePlantRunning _) plantSubType _ hentry
  rw [if_pos (by decide)] at hright
  exact hright plantMachineType (by decide +kernel) ⟨1, by decide⟩

/-- If it is answered, the subtype has the right entry. -/
theorem subTypes_sound_plant :
    (subTypePlant fun a b => decide (a = plantMachineType ∧ b = plantSubType)).SubTypesSound
      plantSuperType
      (subTypePlantRunning fun a b =>
        decide (a = plantMachineType ∧ b = plantSubType)).subTypes := by
  have hhonest : Honest (subTypePlant fun a b =>
      decide (a = plantMachineType ∧ b = plantSubType)).client plantSuperType := by
    intro a b depth w h
    obtain ⟨rfl, rfl⟩ := of_decide_eq_true h
    exact ⟨1, by decide⟩
  have hknown : ∀ md ∈ (plantConfiguration.readTypes plantTypes
      [plantUri]).knownMachineTypeDefinitions, md = plantMachineType := by decide +kernel
  have hqueries : (subTypePlantRunning fun a b =>
      decide (a = plantMachineType ∧ b = plantSubType)).world.state.queries =
        [⟨plantMachineType, plantSubType, true⟩] := by decide +kernel
  have hreader : (subTypePlant fun a b =>
      decide (a = plantMachineType ∧ b = plantSubType)).reader =
        (OpcUaTypeReader.create [plantUri]
          [⟨[plantMachineType], plantIdentificationType⟩]).readTypes plantTypes [plantUri] := rfl
  refine subTypes_sound hhonest hreader (fun md hmd => ?_) (queriedRuns_subTypePlantRunning _)
    fun t hsub => ?_
  · rw [hknown md hmd]
    decide
  · obtain ⟨md, hmd, -⟩ := hsub
    refine ⟨md, hmd, ?_⟩
    rw [hqueries]
    simp

end Observer

end UmatiDashboard
