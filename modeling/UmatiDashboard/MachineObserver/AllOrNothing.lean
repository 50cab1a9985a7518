import UmatiDashboard.DataClient.SubscriptionLog
import UmatiDashboard.MachineObserver.Accounting
import UmatiDashboard.MachineObserver.Additions
import UmatiDashboard.MachineObserver.Fuel
import UmatiDashboard.TypeReader.SetupTypeMap

/-!
# Adding a data set is all or nothing

`addDataSet` is to end in one of two ways: it returns with one new data set, or it throws an
`OpcUaException` and has neither changed the client nor subscribed anything. If it returns or
throws it does so in one of these ways, whatever the data client answers. But it need not return
or throw: a candidate of a placeholder whose type is `BaseObjectType` is expanded by the first
interface of the node, and there may be none; and a server may go on for ever.
-/

namespace UmatiDashboard

namespace DashboardClient

variable {ω : Type} (client : IDashboardDataClient ω) (reader : OpcUaTypeReader)
  (startNodeId : NodeId) (pTypeDefinition : NodeRef) (channel onlineChannel : String)

/-- A run of `addDataSet` of which a record and a log are kept. -/
def addingDataSet (fuel : ℕ) (s : Session (Recorded (Logged ω))) :
    Outcome Exception Unit × Session (Recorded (Logged ω)) :=
  (addDataSet client.logged.recorded reader fuel startNodeId pTypeDefinition channel
    onlineChannel).run s

/-- The run returns, with one new data set. -/
def AddsOne (s : Session (Recorded (Logged ω)))
    (r : Outcome Exception Unit × Session (Recorded (Logged ω))) : Prop :=
  r.1 = .ok () ∧ ∃ d, r.2.this.dataSets = s.this.dataSets ++ [d]

/-- The run throws an `OpcUaException`; the client is as it was, and nothing was subscribed. -/
def AddsNothing (s : Session (Recorded (Logged ω)))
    (r : Outcome Exception Unit × Session (Recorded (Logged ω))) : Prop :=
  (∃ e, r.1 = .throw e ∧ e.isOpcUaException = true) ∧
    r.2.this.dataSets = s.this.dataSets ∧ r.2.this.subscribedValues = s.this.subscribedValues ∧
    r.2.world.state.log = s.world.state.log

/-- The run is all or nothing. -/
def AllOrNothing (s : Session (Recorded (Logged ω)))
    (r : Outcome Exception Unit × Session (Recorded (Logged ω))) : Prop :=
  AddsOne s r ∨ AddsNothing s r

/-- The calls of a run, with their answers. -/
def newCalls (s : Session (Recorded (Logged ω)))
    (r : Outcome Exception Unit × Session (Recorded (Logged ω))) : List ClientCall :=
  r.2.world.calls.drop s.world.calls.length

/-- **The answers that `addDataSet` can work with.** -/
structure Workable (fuel : ℕ) (s : Session (Recorded (Logged ω)))
    (r : Outcome Exception Unit × Session (Recorded (Logged ω))) : Prop where
  /-- the client is asked a finite number of times -/
  few : (newCalls s r).length < fuel
  /-- no candidate of a placeholder lacks an interface -/
  interfaces : ∀ c ∈ newCalls s r, c.lacksInterface = false

section Run

variable (fuel : ℕ) (s : Session (Recorded (Logged ω)))

/-- A run that returns has made one data set: the handler that logs an `OpcUaException` and
returns never runs. -/
theorem addsOne_of_ok {r : Outcome Exception Unit × Session (Recorded (Logged ω))}
    (hr : addingDataSet client reader startNodeId pTypeDefinition channel onlineChannel fuel s = r)
    (h : r.1 = .ok ()) : AddsOne s r := by
  subst hr
  have hends := ends_addDataSet client.logged.recorded reader
    (readsKeep_log client s.world.state.log) fuel startNodeId pTypeDefinition channel
    onlineChannel (s := s) rfl
  obtain ⟨node, hsets⟩ := hends.1 () h
  exact ⟨h, _, hsets⟩

theorem addsNothing_of_throw {r : Outcome Exception Unit × Session (Recorded (Logged ω))}
    (hr : addingDataSet client reader startNodeId pTypeDefinition channel onlineChannel fuel s = r)
    {e : Exception} (h : r.1 = .throw e) : AddsNothing s r := by
  subst hr
  have hends := ends_addDataSet client.logged.recorded reader
    (readsKeep_log client s.world.state.log) fuel startNodeId pTypeDefinition channel
    onlineChannel (s := s) rfl
  obtain ⟨⟨what, rfl⟩, hsame⟩ := hends.2 e h
  exact ⟨⟨_, h, rfl⟩, hsame.dataSets, hsame.subscribedValues, hsame.world⟩

/-- The calls of a run account for how it ends. -/
theorem account_addingDataSet {r : Outcome Exception Unit × Session (Recorded (Logged ω))}
    (hr : addingDataSet client reader startNodeId pTypeDefinition channel onlineChannel fuel
      s = r) :
    Prog.Account (fun c : ClientCall => c.lacksInterface = true)
      (fun e => e.isOpcUaException = true) (fun _ => False) fuel (newCalls s r) r.1 := by
  subst hr
  obtain ⟨cs, hcs, hacc⟩ := accounts_addDataSet client.logged reader fuel startNodeId
    pTypeDefinition channel onlineChannel s
  rw [newCalls, show (addingDataSet client reader startNodeId pTypeDefinition channel onlineChannel
    fuel s).2.world.calls = s.world.calls ++ cs from hcs, List.drop_left]
  exact hacc

/-- More fuel does not change a run that does not run out of it. -/
theorem addingDataSet_eq_of_le {fuel' : ℕ} (hle : fuel ≤ fuel')
    (h : (addingDataSet client reader startNodeId pTypeDefinition channel onlineChannel fuel
      s).1 ≠ .stuck .outOfFuel) :
    addingDataSet client reader startNodeId pTypeDefinition channel onlineChannel fuel' s =
      addingDataSet client reader startNodeId pTypeDefinition channel onlineChannel fuel s :=
  (approximates_addDataSet client.logged.recorded reader hle startNodeId pTypeDefinition channel
    onlineChannel).run_eq h

/-- A run that is all or nothing does not get stuck. -/
theorem AllOrNothing.ne_stuck {s : Session (Recorded (Logged ω))}
    {r : Outcome Exception Unit × Session (Recorded (Logged ω))} (h : AllOrNothing s r)
    (w : Stuck) : r.1 ≠ .stuck w := by
  rcases h with ⟨hok, -⟩ | ⟨⟨e, hthrow, -⟩, -⟩
  · rw [hok]
    simp
  · rw [hthrow]
    simp

end Run

/-- **`addDataSet` is all or nothing if and only if it is answered so that it can go on.** If it
returns, it has made one data set in any case, so a machine that comes to be shown has a client
with a data set. -/
theorem addDataSet_allOrNothing_iff (s : Session (Recorded (Logged ω))) :
    ((∃ fuel, AllOrNothing s
        (addingDataSet client reader startNodeId pTypeDefinition channel onlineChannel fuel s)) ↔
      ∃ fuel, Workable fuel s
        (addingDataSet client reader startNodeId pTypeDefinition channel onlineChannel fuel s)) ∧
    (∀ fuel, (addingDataSet client reader startNodeId pTypeDefinition channel onlineChannel fuel
        s).1 = .ok () → AddsOne s
      (addingDataSet client reader startNodeId pTypeDefinition channel onlineChannel fuel s)) ∧
    ∀ (o : Observer ω) (fuel : ℕ) (machine : BrowseResult) (t : ObserverState ω),
      machine.nodeId ∉ t.tables.onlineMachines →
      machine.nodeId ∈ ((o.addMachine fuel machine).run t).2.tables.onlineMachines →
      ∃ c, ((o.addMachine fuel machine).run t).2.tables.dashboardClients[machine.nodeId]? = some c ∧
        c.dataSets.length = 1 := by
  refine ⟨⟨?_, ?_⟩, fun fuel h => addsOne_of_ok client reader _ _ _ _ fuel s rfl h, ?_⟩
  · rintro ⟨fuel, hall⟩
    set r := addingDataSet client reader startNodeId pTypeDefinition channel onlineChannel fuel s
      with hr
    -- enough fuel to exceed the number of calls changes nothing
    obtain ⟨fuel', hle, hfew⟩ : ∃ fuel', fuel ≤ fuel' ∧ (newCalls s r).length < fuel' :=
      ⟨max fuel ((newCalls s r).length + 1), by omega, by omega⟩
    have hsame := addingDataSet_eq_of_le client reader startNodeId pTypeDefinition channel
      onlineChannel fuel s hle (hall.ne_stuck _)
    have hacc := account_addingDataSet client reader startNodeId pTypeDefinition channel
      onlineChannel fuel s hr.symm
    refine ⟨fuel', ?_⟩
    rw [hsame, ← hr]
    refine ⟨hfew, fun c hc => ?_⟩
    have hgood : ¬ r.1.Fails fun _ => False := by
      rcases hall with ⟨hok, -⟩ | ⟨⟨e, hthrow, -⟩, -⟩
      · rw [hok]
        exact id
      · rw [hthrow]
        exact id
    have hnone := hacc.fails.not.mpr hgood
    simpa using fun hbad => hnone ⟨c, hc, hbad⟩
  · rintro ⟨fuel, hfew, hinterfaces⟩
    refine ⟨fuel, ?_⟩
    have hacc := account_addingDataSet client reader startNodeId pTypeDefinition channel
      onlineChannel fuel s rfl
    have hgood : ¬ ∃ c ∈ newCalls s (addingDataSet client reader startNodeId pTypeDefinition
        channel onlineChannel fuel s), c.lacksInterface = true := by
      rintro ⟨c, hc, hbad⟩
      rw [hinterfaces c hc] at hbad
      cases hbad
    cases hout : (addingDataSet client reader startNodeId pTypeDefinition channel onlineChannel
        fuel s).1 with
    | ok u => exact .inl (addsOne_of_ok client reader _ _ _ _ fuel s rfl hout)
    | throw e => exact .inr (addsNothing_of_throw client reader _ _ _ _ fuel s rfl hout)
    | stuck w =>
      rw [hout] at hacc
      by_cases hw : w = .outOfFuel
      · subst hw
        have := hacc.fuel rfl
        omega
      · exact absurd (hacc.fails.mpr ((Outcome.fails_stuck_iff w).mpr hw)) hgood
  · intro o fuel machine t hnot hmem
    obtain ⟨c, specification, hc, node, hsets⟩ :=
      Observer.hasDataSet_of_shown o fuel machine t hnot hmem
    exact ⟨c, hc, by rw [hsets]; rfl⟩

/-! ### A slot without an interface -/

/-- A type with a placeholder for its slots. -/
def rackTypes : TypeHierarchy where
  variableTypes := []
  objectTypes :=
    [.node ⟨.objectType, ⟨"urn:rack", "i=1"⟩, ⟨"", ""⟩, WellKnown.hasComponent,
      ⟨"urn:rack", "RackType"⟩⟩ .none
      [.node ⟨.object, ⟨"urn:rack", "i=2"⟩, ⟨"", "i=58"⟩, WellKnown.hasComponent,
        ⟨"urn:rack", "Slot"⟩⟩ .mandatoryPlaceholder []]]

def rackReader : OpcUaTypeReader :=
  (OpcUaTypeReader.create ["urn:rack"] []).readTypes rackTypes [WellKnown.ns0Uri, "urn:rack"]

def rackType : NodeRef := (rackReader.typeMap[(⟨"urn:rack", "i=1"⟩ : NodeId)]?).getD 0

/-- A server with a rack whose only slot is a plain object. -/
def rackClient : IDashboardDataClient Unit where
  browse _ _ w := (.ok [], w)
  browseWithResultTypeFilter _ _ _ w :=
    (.ok [⟨.object, ⟨"urn:rack", "i=6"⟩, ⟨"", "i=58"⟩, WellKnown.hasComponent,
      ⟨"urn:rack", "Slot1"⟩⟩], w)
  translateBrowsePathToNodeId _ _ w := (.ok ⟨"", ""⟩, w)
  isSameOrSubtype expected checked _ w := (expected.equals checked, w)
  subscribe _ _ w := (.ok none, w)
  unsubscribe _ _ w := w
  readeNodeValues _ w := (.ok [], w)
  subscribe_nodeId := by simp

/-- **A slot without an interface** is an access outside of the list of interfaces. -/
theorem not_allOrNothing_rack : ¬ ∃ fuel, AllOrNothing ⟨⟨⟨(), []⟩, []⟩, .new⟩
    (addingDataSet rackClient rackReader ⟨"urn:rack", "i=5"⟩ rackType "rack" "online" fuel
      ⟨⟨⟨(), []⟩, []⟩, .new⟩) := by
  rintro ⟨fuel, hall⟩
  have hstuck : (addingDataSet rackClient rackReader ⟨"urn:rack", "i=5"⟩ rackType "rack" "online"
      1 ⟨⟨⟨(), []⟩, []⟩, .new⟩).1 = .stuck .undefined := by decide +kernel
  cases fuel with
  | zero => exact hall.ne_stuck .outOfFuel (by decide +kernel)
  | succ fuel =>
    have hle : 1 ≤ fuel + 1 := by omega
    have hsame := addingDataSet_eq_of_le rackClient rackReader ⟨"urn:rack", "i=5"⟩ rackType "rack"
      "online" 1 ⟨⟨⟨(), []⟩, []⟩, .new⟩ hle (by rw [hstuck]; simp)
    rw [hsame] at hall
    exact hall.ne_stuck .undefined hstuck

end DashboardClient

end UmatiDashboard
