import UmatiDashboard.DataClient.SubscriptionLog
import UmatiDashboard.DashboardClient.DataSets
import UmatiDashboard.MachineObserver.CycleSteps
import UmatiDashboard.MachineObserver.Runs

/-!
# Who owns a subscription

A handle that `Subscribe` has returned belongs to the dashboard client that holds it in
`m_subscribedValues`, and is given back when that client is dropped. So between two cycles the
handles that were returned and not given back are those of the clients in `m_dashboardClients`:
a client under construction subscribes last, and the ones that are dropped on the way to that
point hold nothing.
-/

namespace UmatiDashboard

open ResourceEvent (Sound held)

namespace DashboardClient

variable {ω : Type}

/-- The handles that a client holds, but for null handles. -/
def handles (c : DashboardClient) : Multiset (Int32 × Int32) :=
  (c.subscribedValues.filterMap id).map ValueSubscriptionHandle.ids

/-- The handles that are held are those in `X` and those of the client. -/
structure Owns (X : Multiset (Int32 × Int32)) (s : Session (Recorded (Logged ω))) : Prop where
  sound : Sound (handleEvents s.world.state.log)
  held : held (handleEvents s.world.state.log) = X + s.this.handles

variable {X : Multiset (Int32 × Int32)} {s s' : Session (Recorded (Logged ω))}

/-- An answer of `Subscribe` that is filed with the client. -/
theorem Owns.file (hs : Owns X s) (nodeId : NodeId) (answer : Option ValueSubscriptionHandle)
    (hlog : s'.world.state.log = s.world.state.log ++ [.subscribe nodeId (.ok answer)])
    (hvalues : s'.this.subscribedValues = s.this.subscribedValues ++ [answer]) : Owns X s' := by
  cases answer with
  | none =>
    have hevents : handleEvents s'.world.state.log = handleEvents s.world.state.log := by
      rw [hlog, handleEvents_concat]
      exact List.append_nil _
    have hhandles : s'.this.handles = s.this.handles := by simp [handles, hvalues]
    exact ⟨hevents ▸ hs.sound, by rw [hevents, hs.held, hhandles]⟩
  | some h =>
    have hevents : handleEvents s'.world.state.log =
        handleEvents s.world.state.log ++ [.acquire h.ids] := by
      rw [hlog, handleEvents_concat]
      rfl
    have hhandles : s'.this.handles = s.this.handles + {h.ids} := by
      simp [handles, hvalues, ← Multiset.coe_add]
    refine ⟨hevents ▸ ResourceEvent.sound_concat.mpr ⟨hs.sound, Multiset.zero_le _⟩, ?_⟩
    rw [hevents, ResourceEvent.held_concat, hhandles, hs.held]
    simp only [ResourceEvent.acquires, ResourceEvent.releases, tsub_zero]
    rw [add_comm, add_assoc]

/-- A `Subscribe` that throws changes nothing. -/
theorem Owns.refused (hs : Owns X s) (nodeId : NodeId) (e : Exception)
    (hlog : s'.world.state.log = s.world.state.log ++ [.subscribe nodeId (.error e)])
    (hvalues : s'.this.subscribedValues = s.this.subscribedValues) : Owns X s' := by
  have hevents : handleEvents s'.world.state.log = handleEvents s.world.state.log := by
    rw [hlog, handleEvents_concat]
    exact List.append_nil _
  have hhandles : s'.this.handles = s.this.handles := by rw [handles, hvalues, handles]
  exact ⟨hevents ▸ hs.sound, by rw [hevents, hs.held, hhandles]⟩

/-- As long as nothing is subscribed the client owns what it did before. -/
theorem Owns.untouched (hs : Owns X s)
    (h : Untouched (fun w => w.state.log = s.world.state.log) s.this s') : Owns X s' := by
  have hhandles : s'.this.handles = s.this.handles := by rw [handles, h.subscribedValues, handles]
  exact ⟨h.world ▸ hs.sound, by rw [h.world, hs.held, hhandles]⟩

variable (client : IDashboardDataClient ω) (reader : OpcUaTypeReader)

theorem owns_subscribeValue (ptr : NodePtr) (nodeId : NodeId) (hs : Owns X s) :
    (subscribeValue client.logged.recorded ptr nodeId).Ends s fun _ s' => Owns X s' := by
  rw [subscribeValue, Prog.ends_catching, Prog.ends_bind, Prog.ends_get, Outcome.follow_ok]
  split_ifs
  · exact hs
  · rw [Prog.ends_bind, ask, Prog.ends_zoom, Prog.ends_call]
    refine ⟨fun a w h => ?_, fun e w h => ?_⟩
    · obtain ⟨ha, rfl⟩ := Prod.mk.inj h
      refine hs.file nodeId a ?_ rfl
      rw [← ha]
      rfl
    · obtain ⟨he, rfl⟩ := Prod.mk.inj h
      refine hs.refused nodeId e ?_ rfl
      rw [← he]
      rfl

theorem owns_subscribeValues (node : Node) (hs : Owns X s) :
    (subscribeValues client.logged.recorded node).Ends s fun out s' =>
      out = .ok () ∧ Owns X s' := by
  rw [subscribeValues_eq, subscribeAll]
  refine Prog.ends_forEach (fun _ s' => Owns X s') (fun v vs s₁ h₁ => ?_) (fun s₁ h₁ => ⟨rfl, h₁⟩)
    _ hs
  have hends := ends_subscribeValue client.logged.recorded v.1 v.2 s₁
  refine (hends.and (owns_subscribeValue client v.1 v.2 h₁)).mono fun out s₂ h₂ => ?_
  obtain ⟨⟨rfl, -⟩, howns⟩ := h₂
  exact howns

/-- **`addDataSet` hands every handle to the client**; unless it returns, it has none. -/
theorem owns_addDataSet (fuel : ℕ) (startNodeId : NodeId) (pTypeDefinition : NodeRef)
    (channel onlineChannel : String) (hs : Owns X s) :
    (addDataSet client.logged.recorded reader fuel startNodeId pTypeDefinition channel
      onlineChannel).Ends s fun out s' => Owns X s' ∧
        (out = .ok () ∨ s'.this.subscribedValues = s.this.subscribedValues) := by
  have hkeeps := keeps_transformToNodeIds client.logged.recorded reader (c := s.this)
    (readsKeep_log client s.world.state.log) fuel startNodeId pTypeDefinition s ⟨rfl, rfl, rfl, rfl⟩
  have hraises := raises_transformToNodeIds client.logged.recorded reader fuel startNodeId
    pTypeDefinition s
  rw [addDataSet, Prog.ends_catching, Prog.ends_bind, prepareDataSetStorage, Prog.ends_bind]
  refine (Prog.Ends.and hkeeps hraises).mono fun out s₁ h₁ => ?_
  obtain ⟨⟨hsame, -⟩, hthrown⟩ := h₁
  have howns := hs.untouched hsame
  cases out with
  | stuck w => exact ⟨howns, .inr hsame.subscribedValues⟩
  | throw e =>
    simp only [Outcome.follow_throw, Outcome.rescue_throw, hthrown e rfl, Bool.false_eq_true,
      if_false, Prog.ends_throw]
    exact ⟨howns, .inr hsame.subscribedValues⟩
  | ok node =>
    simp only [Outcome.follow_ok, Prog.ends_pure, Prog.ends_bind]
    refine (owns_subscribeValues client node howns).mono fun out s₂ h₂ => ?_
    obtain ⟨rfl, howns₂⟩ := h₂
    exact ⟨⟨howns₂.sound, howns₂.held⟩, .inl rfl⟩

/-- **`Unsubscribe` gives back what the client holds.** -/
theorem owns_unsubscribe (hs : Owns X s) :
    (unsubscribe client.logged.recorded).Ends s fun out s' => out = .ok () ∧
      Sound (handleEvents s'.world.state.log) ∧ held (handleEvents s'.world.state.log) = X := by
  refine ⟨rfl, ?_⟩
  have hlog : ((unsubscribe client.logged.recorded).run s).2.world.state.log =
      s.world.state.log ++ [.unsubscribe
        ((s.this.subscribedValues.filterMap id).map ValueSubscriptionHandle.monitoredItemId)
        ((s.this.subscribedValues.filterMap id).map ValueSubscriptionHandle.clientHandle)] := rfl
  have hevents : handleEvents ((unsubscribe client.logged.recorded).run s).2.world.state.log =
      handleEvents s.world.state.log ++ [.release s.this.handles] := by
    rw [hlog, handleEvents_concat, SubscriptionCall.events, List.zip_map']
    rfl
  have hle : s.this.handles ≤ held (handleEvents s.world.state.log) := by
    rw [hs.held]
    exact Multiset.le_add_left _ _
  rw [hevents]
  refine ⟨ResourceEvent.sound_concat.mpr ⟨hs.sound, hle⟩, ?_⟩
  rw [ResourceEvent.held_concat, hs.held]
  simp [ResourceEvent.acquires, ResourceEvent.releases]

end DashboardClient

/-! ### The handles of a table of clients -/

section Tables

variable {β : Type} {m : NodeMap β} {n : NodeId} {v : β}

theorem NodeMap.nodup_toList (m : NodeMap β) : m.toList.Nodup :=
  Std.ExtTreeMap.distinct_keys_toList.imp fun h heq => h (by
    rw [heq]
    exact Std.ReflCmp.compare_self)

/-- The entries of a table are those below a key and those of the rest. -/
theorem NodeMap.toList_perm_erase (h : m[n]? = some v) :
    m.toList.Perm ((n, v) :: Std.ExtTreeMap.toList (m.erase n)) := by
  have hnotin : (n, v) ∉ Std.ExtTreeMap.toList (m.erase n) := fun hmem => by
    rw [Std.ExtTreeMap.mem_toList_iff_getElem?_eq_some] at hmem
    simp at hmem
  refine (List.perm_ext_iff_of_nodup (NodeMap.nodup_toList m)
    (List.nodup_cons.mpr ⟨hnotin, NodeMap.nodup_toList _⟩)).mpr fun p => ?_
  obtain ⟨k, w⟩ := p
  rw [List.mem_cons, Std.ExtTreeMap.mem_toList_iff_getElem?_eq_some,
    Std.ExtTreeMap.mem_toList_iff_getElem?_eq_some, Std.ExtTreeMap.getElem?_erase, Prod.mk.injEq]
  by_cases hk : n = k
  · subst hk
    rw [if_pos Std.ReflCmp.compare_self, h]
    simp [eq_comm]
  · simp [hk, Ne.symm hk]

/-- A new key is erased again. -/
theorem NodeMap.erase_insertIfNew (h : n ∉ m) (v : β) :
    Std.ExtTreeMap.erase (m.insertIfNew n v) n = m :=
  Std.ExtTreeMap.ext_getElem? fun k => by
    rw [Std.ExtTreeMap.getElem?_erase, Std.ExtTreeMap.getElem?_insertIfNew]
    by_cases hk : n = k
    · subst hk
      rw [if_pos Std.ReflCmp.compare_self]
      exact (Std.ExtTreeMap.getElem?_eq_none h).symm
    · simp [hk]

/-- The handles that the clients in the table hold together. -/
def ObserverTables.handles (t : ObserverTables) : Multiset (Int32 × Int32) :=
  (t.dashboardClients.toList.map fun p => p.2.handles).sum

variable {t : ObserverTables} {c : DashboardClient}

theorem ObserverTables.handles_eq_add (h : t.dashboardClients[n]? = some c) :
    t.handles = c.handles +
      ({ t with dashboardClients := t.dashboardClients.erase n } : ObserverTables).handles := by
  rw [ObserverTables.handles, ((NodeMap.toList_perm_erase h).map _).sum_eq, List.map_cons,
    List.sum_cons]
  rfl

/-- A client that enters the table brings its handles. -/
theorem ObserverTables.handles_insertIfNew {t' : ObserverTables} (hnew : n ∉ t.dashboardClients)
    (ht' : t'.dashboardClients = t.dashboardClients.insertIfNew n c) :
    t'.handles = t.handles + c.handles := by
  have hget : t'.dashboardClients[n]? = some c := by
    rw [ht', Std.ExtTreeMap.getElem?_insertIfNew, if_pos ⟨Std.ReflCmp.compare_self, hnew⟩]
  rw [ObserverTables.handles_eq_add hget, ht', NodeMap.erase_insertIfNew hnew, add_comm]
  rfl

end Tables

namespace Observer

variable {ω : Type} (o : Observer ω)

/-- The observer whose data client keeps a log of the subscriptions. -/
def logged : Observer (Logged ω) := ⟨o.client.logged, o.reader, o.machinesFilter, o.topics⟩

/-- The handles that are held are those of the clients in the table. -/
structure Owned (s : ObserverState (Logged ω)) : Prop where
  sound : Sound (handleEvents s.world.state.log)
  held : held (handleEvents s.world.state.log) = s.tables.handles

variable {o} {s : ObserverState (Logged ω)}

theorem Owned.put (hs : Owned s) {t : ObserverTables}
    (ht : t.dashboardClients = s.tables.dashboardClients) : Owned (s.put t) := by
  refine ⟨hs.sound, hs.held.trans ?_⟩
  rw [ObserverTables.handles, ObserverTables.handles, ObserverState.tables_put, ht]

theorem keeps_record_owned (e : ObserverEvent) :
    (record e : ObserverM (Logged ω) Unit).Keeps Owned fun _ => True :=
  keeps_record fun _ hs => ⟨hs.sound, hs.held⟩

/-- Reading from the server subscribes nothing. -/
theorem readsKeep_owned : o.logged.ReadsKeep Owned := fun _ =>
  ⟨fun _ _ _ h => ⟨h.sound, h.held⟩, fun _ _ _ _ h => ⟨h.sound, h.held⟩,
    fun _ _ _ h => ⟨h.sound, h.held⟩, fun _ _ _ _ h => ⟨h.sound, h.held⟩,
    fun _ _ h => ⟨h.sound, h.held⟩⟩

theorem searchFrame_owned : o.logged.SearchFrame Owned where
  world := readsKeep_owned
  subTypes _ _ h := ⟨h.sound, h.held⟩
  enter s n _ h := Owned.put (s := s.log (.entering n)) ⟨h.sound, h.held⟩ rfl

/-! ### Dropping and adding clients -/

/-- A client that is dropped holds no handle any more. -/
theorem owned_dropDashboardClient (n : NodeId) (hs : Owned s) :
    (dropDashboardClient o.logged n).Ends s fun out s' =>
      out = .ok () ∧ Owned s' ∧ n ∉ s'.tables.dashboardClients := by
  unfold dropDashboardClient
  simp only [Prog.ends_bind, ends_tables, Outcome.follow_ok]
  cases h : s.tables.dashboardClients[n]? with
  | none =>
    have hnone : n ∉ s.tables.dashboardClients := by simpa using h
    exact ⟨rfl, hs, hnone⟩
  | some c =>
    have hsum := ObserverTables.handles_eq_add h
    have howns : DashboardClient.Owns
        ({ s.tables with dashboardClients := s.tables.dashboardClients.erase n } :
          ObserverTables).handles ⟨s.world, c⟩ :=
      ⟨hs.sound, by rw [hs.held, hsum, add_comm]⟩
    obtain ⟨-, hsound, hheld⟩ := DashboardClient.owns_unsubscribe o.client howns
    have hnone : n ∉ s.tables.dashboardClients.erase n := by simp
    exact ⟨rfl, ⟨hsound, hheld⟩, hnone⟩

theorem keeps_dropDashboardClient_owned (n : NodeId) :
    (dropDashboardClient o.logged n).Keeps Owned fun _ => True := fun _ hs =>
  (owned_dropDashboardClient n hs).mono fun _ _ h => ⟨h.2.1, fun _ _ => trivial⟩

/-- **A machine that is added** takes over the handles of its client; one that is rejected
leaves none. -/
theorem keeps_addMachine_owned (fuel : ℕ) (machine : BrowseResult) :
    (addMachine o.logged fuel machine).Keeps Owned fun _ => True := by
  refine (keeps_record_owned _).bind fun _ _ => .catching ?_ fun ex => ?_
  · split_ifs
    · exact Prog.keeps_pure trivial
    refine keeps_liftExcept.bind fun ref href => CycleSteps.keeps_tables.bind fun t _ => ?_
    intro s hs
    rw [Prog.Leaves, Prog.ends_bind]
    refine (owned_dropDashboardClient machine.nodeId hs).mono fun out s₁ h₁ => ?_
    obtain ⟨rfl, hs₁, hnone⟩ := h₁
    simp only [Outcome.follow_ok, onClient, Prog.ends_zoom, Prog.ends_bind, Prog.ends_map,
      Prog.ends_get]
    have howns : DashboardClient.Owns s₁.tables.handles ⟨s₁.world, DashboardClient.new⟩ :=
      ⟨hs₁.sound, hs₁.held.trans (add_zero _).symm⟩
    refine (DashboardClient.owns_addDataSet o.client o.reader fuel _ _ _ _ howns).mono
      fun out session hout => ?_
    obtain ⟨hsession, hreturned⟩ := hout
    -- a client that was not completed holds nothing
    have hrejected : session.this.subscribedValues = [] → Owned (s₁.withWorld session.world) :=
      fun hempty => ⟨hsession.sound, hsession.held.trans (by
        simp [DashboardClient.handles, hempty])⟩
    cases out with
    | throw e => exact ⟨hrejected (hreturned.resolve_left (by simp)), fun _ h => by cases h⟩
    | stuck w => exact ⟨hrejected (hreturned.resolve_left (by simp)), fun _ h => by cases h⟩
    | ok u =>
      simp only [Outcome.follow_ok, ends_write]
      exact ⟨⟨hsession.sound, hsession.held.trans
        (ObserverTables.handles_insertIfNew hnone rfl).symm⟩, fun _ _ => trivial⟩
  · split_ifs
    · exact Prog.keeps_throw
    · exact Prog.keeps_throw

/-! ### Whole cycles -/

/-- **The steps of a cycle keep the ownership of the handles.** -/
theorem cycleSteps_owned : o.logged.CycleSteps Owned where
  search := searchFrame_owned.steps
  log _ _ h := ⟨h.sound, h.held⟩
  put _ _ h ht := h.put ht
  drop := keeps_dropDashboardClient_owned
  add := keeps_addMachine_owned

variable (o)

/-- The states between the cycles of a run, whatever becomes of each cycle. Between two cycles
the data client may change in any way; the handles of the observer are subscribed in its cycles
only. -/
inductive Runs : ObserverState (Logged ω) → Prop where
  | start (world : ω) : Runs (o.logged.start ⟨world, []⟩)
  | world {s : ObserverState (Logged ω)} (world : ω) :
      Runs s → Runs (s.withWorld { s.world with state := ⟨world, s.world.state.log⟩ })
  | cycle {s : ObserverState (Logged ω)} (fuel : ℕ) :
      Runs s → Runs (o.logged.cycle fuel s).2

variable {o}

theorem Runs.owned (h : o.Runs s) : Owned s := by
  induction h with
  | start world => exact ⟨ResourceEvent.sound_nil, rfl⟩
  | world world _ ih => exact ⟨ih.sound, ih.held⟩
  | @cycle s fuel _ ih =>
    have hforget : Owned s.forget := ⟨ih.sound, ih.held⟩
    exact (cycleSteps_owned.keeps_updateMachines fuel s.forget hforget).1

/-- **No subscription is leaked or stolen.** After every cycle of a run, whatever the data client
answers and however the cycles end, the handles that were returned are those that were given
back together with those of the clients in the table, each as often as it was returned; and no
`Unsubscribe` names a handle that was not held at that point. -/
theorem subscriptions_owned (h : o.Runs s) :
    ResourceEvent.acquired (handleEvents s.world.state.log) =
        ResourceEvent.released (handleEvents s.world.state.log) + s.tables.handles ∧
      held (handleEvents s.world.state.log) = s.tables.handles ∧
      Sound (handleEvents s.world.state.log) :=
  ⟨by rw [ResourceEvent.acquired_eq h.owned.sound, h.owned.held], h.owned.held, h.owned.sound⟩

/-- The plant with machines that have a counter, which can be subscribed. -/
def countingPlant : Observer (List String) where
  client := { plantClient with
    translateBrowsePathToNodeId := fun n q w => (.ok ⟨n.uri, n.id ++ "." ++ q.name⟩, w)
    subscribe := fun n _ w => (.ok (some ⟨7, 4, n⟩), w)
    subscribe_nodeId := by
      intro n cb w h w' heq
      cases heq
      rfl }
  reader := plantConfiguration.readTypes
    { plantTypes with
      objectTypes := .node ⟨.objectType, plantMachineType, ⟨"", ""⟩, WellKnown.hasComponent,
        ⟨plantUri, "MachineType"⟩⟩ .mandatory
        [.node ⟨.variable, ⟨plantUri, "i=3"⟩, WellKnown.propertyType, WellKnown.hasComponent,
          ⟨plantUri, "Counter"⟩⟩ .mandatory []] :: plantTypes.objectTypes.drop 1 }
    [plantUri]
  machinesFilter := ∅
  topics := ⟨"umati/v2", "plant"⟩

/-- The counting plant after its first cycle. -/
def countingRun : ObserverState (Logged (List String)) :=
  (countingPlant.logged.cycle 3 (countingPlant.logged.start ⟨["m1"], []⟩)).2

theorem countingRun_runs : countingPlant.Runs countingRun := by
  unfold countingRun
  exact .cycle 3 (.start ["m1"])

/-- The subscription of the counter is held after the first cycle. -/
theorem subscriptions_owned_counting :
    countingRun.tables.handles = {(4, 7)} ∧
      held (handleEvents countingRun.world.state.log) = countingRun.tables.handles :=
  ⟨by decide +kernel, (subscriptions_owned countingRun_runs).2.1⟩

end Observer

end UmatiDashboard
