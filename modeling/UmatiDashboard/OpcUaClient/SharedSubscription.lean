import Mathlib.Logic.Function.Basic
import UmatiDashboard.Effect.Transition
import UmatiDashboard.OpcUaClient.Connection

/-!
# Dashboard clients that share a subscription

All dashboard clients of the gateway subscribe through one `OpcUaClient`. The system of them
makes steps: connecting, checking the connection, subscribing a variable for one of the clients,
unsubscribing a client, and receiving a notification. What the server answers is part of a step,
so a statement about all lists of steps is one about all servers and all orders of steps.

Beside the members of the program, a state holds what a statement about runs speaks of: the
subscriptions made and not unsubscribed since, with the identifiers that really belong to them,
and the ids of the subscriptions that were created.
-/

namespace UmatiDashboard

/-- A subscription that was made for a dashboard client: a monitored item on the server. -/
structure LiveItem (ι : Type) where
  owner : ι
  nodeId : NodeId
  /-- the client handle it was requested with -/
  clientHandle : UInt32
  /-- the monitored item id that the server gave it -/
  monitoredItemId : UInt32
  /-- the subscription it was created in -/
  subscriptionId : Int32

namespace LiveItem

variable {ι : Type} (item : LiveItem ι)

/-- The key of its callback. -/
def callbackKey : Int32 := item.clientHandle.toInt32

/-- The handle that `Subscribe` returned for it, with the two identifiers exchanged. -/
def handle : ValueSubscriptionHandle :=
  ⟨item.monitoredItemId.toInt32, item.clientHandle.toInt32, item.nodeId⟩

end LiveItem

/-- The dashboard clients with what they share. -/
structure SharedSystem (ι : Type) where
  opcUa : OpcUaClient NewValueCallback
  clients : ι → DashboardClient
  /-- the subscriptions made and not unsubscribed since -/
  live : List (LiveItem ι)
  /-- the ids of the subscriptions created so far -/
  created : List Int32

/-- A step, with what the server answers in it. -/
inductive SharedStep (ι : Type) where
  | connect (result : UInt32) (response : CreateSubscriptionResponse)
  | checkConnection (sessionIsConnected : Bool)
  | subscribe (i : ι) (ptr : NodePtr) (nodeId : NodeId) (answer : MonitoredItemCreateResult)
  | unsubscribe (i : ι)
  | notify (clientHandle : Int32)

namespace SharedSystem

variable {ι : Type} [DecidableEq ι] (base : IDashboardDataClient (OpcUaClient NewValueCallback))
  (statusName : UInt32 → String)

/-- Before the first connect; the counter of client handles may have been used before. -/
def start (nextId : UInt32) (subscriptionId : Int32) : SharedSystem ι :=
  ⟨⟨false, true, ⟨nextId, subscriptionId, ∅⟩⟩, fun _ => .new, [], []⟩

variable (s : SharedSystem ι)

/-- The connecting thread connects and creates a subscription in this step. -/
def Creates (result : UInt32) (response : CreateSubscriptionResponse) : Prop :=
  s.opcUa.tryConnecting = true ∧ s.opcUa.isConnected = false ∧ isBadStatus result = false ∧
    isBadStatus response.serviceResult = false

/-- The step subscribes the variable. -/
def Makes (i : ι) (nodeId : NodeId) (answer : MonitoredItemCreateResult) : Prop :=
  DashboardClient.isSubscribed (s.clients i) nodeId = false ∧
    Subscription.validateMonitorItemResult statusName answer = .ok ()

instance (result : UInt32) (response : CreateSubscriptionResponse) :
    Decidable (s.Creates result response) :=
  inferInstanceAs (Decidable (_ ∧ _))

instance (i : ι) (nodeId : NodeId) (answer : MonitoredItemCreateResult) :
    Decidable (s.Makes statusName i nodeId answer) :=
  inferInstanceAs (Decidable (_ ∧ _))

/-- Let a dashboard client make calls. -/
def withClient (i : ι) (session : DashboardClient.Session (OpcUaClient NewValueCallback)) :
    SharedSystem ι :=
  { s with opcUa := session.world, clients := Function.update s.clients i session.this }

/-- The subscription that the step makes. -/
def newItem (i : ι) (nodeId : NodeId) (answer : MonitoredItemCreateResult) : LiveItem ι :=
  ⟨i, nodeId, s.opcUa.subscription.nextId, answer.monitoredItemId,
    s.opcUa.subscription.subscriptionId⟩

/-- One step of the system. -/
def step (s : SharedSystem ι) : SharedStep ι → SharedSystem ι
  | .connect result response =>
    { s with
      opcUa := s.opcUa.threadConnectExecution result response
      created :=
        if s.Creates result response then response.subscriptionId.toInt32 :: s.created
        else s.created }
  | .checkConnection sessionIsConnected =>
    { s with opcUa := (s.opcUa.checkConnection sessionIsConnected).2 }
  | .subscribe i ptr nodeId answer =>
    { s.withClient i ((DashboardClient.subscribeValue
        (OpcUaClient.dataClient base statusName answer) ptr nodeId).run ⟨s.opcUa, s.clients i⟩).2
      with
      live :=
        if s.Makes statusName i nodeId answer then s.live ++ [s.newItem i nodeId answer]
        else s.live }
  | .unsubscribe i =>
    { s.withClient i ((DashboardClient.unsubscribe
        (OpcUaClient.dataClient base statusName ⟨0, 0, 0⟩)).run ⟨s.opcUa, s.clients i⟩).2
      with live := s.live.filter fun item => item.owner ≠ i }
  | .notify _ => s

/-- The handles that a dashboard client holds. -/
def held (i : ι) : List ValueSubscriptionHandle := (s.clients i).subscribedValues.filterMap id

/-! ### What a step does -/

variable {s}

/-- A client that holds a handle of the node does not subscribe it again. -/
theorem run_subscribeValue_of_subscribed
    {client : IDashboardDataClient (OpcUaClient NewValueCallback)}
    {c : OpcUaClient NewValueCallback} {this : DashboardClient} {nodeId : NodeId}
    (h : DashboardClient.isSubscribed this nodeId = true) (ptr : NodePtr) :
    (DashboardClient.subscribeValue client ptr nodeId).run ⟨c, this⟩ = (.ok (), ⟨c, this⟩) := by
  have hrun : (DashboardClient.subscribeValue client ptr nodeId).Ends ⟨c, this⟩
      fun out session => out = .ok () ∧ session = ⟨c, this⟩ := by
    simp [DashboardClient.subscribeValue, h]
  exact Prod.ext hrun.1 hrun.2

/-- Otherwise it files what `Subscribe` returns, a null handle included. -/
theorem run_subscribeValue_of_not {c : OpcUaClient NewValueCallback} {this : DashboardClient}
    {nodeId : NodeId} (h : DashboardClient.isSubscribed this nodeId = false) (ptr : NodePtr)
    (answer : MonitoredItemCreateResult) :
    ∃ session, (DashboardClient.subscribeValue (OpcUaClient.dataClient base statusName answer)
        ptr nodeId).run ⟨c, this⟩ = (.ok (), session) ∧
      session.world = (c.subscribe statusName nodeId ⟨ptr⟩ answer).2 ∧
      session.this.subscribedValues =
        this.subscribedValues ++ [(c.subscribe statusName nodeId ⟨ptr⟩ answer).1] := by
  have hrun : (DashboardClient.subscribeValue (OpcUaClient.dataClient base statusName answer)
      ptr nodeId).Ends ⟨c, this⟩ fun out session => out = .ok () ∧
        session.world = (c.subscribe statusName nodeId ⟨ptr⟩ answer).2 ∧
        session.this.subscribedValues =
          this.subscribedValues ++ [(c.subscribe statusName nodeId ⟨ptr⟩ answer).1] := by
    simp [DashboardClient.subscribeValue, DashboardClient.ask, DashboardClient.update, h,
      OpcUaClient.dataClient, Prog.ends_call]
  exact ⟨_, Prod.ext hrun.1 rfl, hrun.2⟩

/-- What a step leaves of the connection. -/
structure SameConnection (s s' : SharedSystem ι) : Prop where
  isConnected : s'.opcUa.isConnected = s.opcUa.isConnected
  subscriptionId : s'.opcUa.subscription.subscriptionId = s.opcUa.subscription.subscriptionId
  created : s'.created = s.created

/-- The subscription without success, and with it. -/
theorem subscribe_of_error {c : OpcUaClient NewValueCallback} {nodeId : NodeId}
    {callback : NewValueCallback} {answer : MonitoredItemCreateResult} {e : Exception}
    (h : Subscription.validateMonitorItemResult statusName answer = .error e) :
    c.subscribe statusName nodeId callback answer =
      (none, { c with subscription.nextId := c.subscription.nextId + 1 }) := by
  simp [OpcUaClient.subscribe, Subscription.subscribe, h]

theorem subscribe_of_ok {c : OpcUaClient NewValueCallback} {nodeId : NodeId}
    {callback : NewValueCallback} {answer : MonitoredItemCreateResult}
    (h : Subscription.validateMonitorItemResult statusName answer = .ok ()) :
    c.subscribe statusName nodeId callback answer =
      (some ⟨answer.monitoredItemId.toInt32, c.subscription.nextId.toInt32, nodeId⟩,
        { c with
          subscription.nextId := c.subscription.nextId + 1
          subscription.callbacks :=
            c.subscription.callbacks.insertIfNew c.subscription.nextId.toInt32 callback }) := by
  simp [OpcUaClient.subscribe, Subscription.subscribe, h]

/-- **A step that subscribes nothing** files a null handle at most. -/
theorem step_subscribe_of_not {i : ι} (ptr : NodePtr) {nodeId : NodeId}
    {answer : MonitoredItemCreateResult} (h : ¬ s.Makes statusName i nodeId answer) :
    let s' := s.step base statusName (.subscribe i ptr nodeId answer)
    SameConnection s s' ∧ s'.live = s.live ∧
      s'.opcUa.subscription.callbacks = s.opcUa.subscription.callbacks ∧
      ∀ j, s'.held j = s.held j := by
  intro s'
  cases hsub : DashboardClient.isSubscribed (s.clients i) nodeId with
  | true =>
    have hs' : s' = s := by
      simp only [s', step, h, if_false, run_subscribeValue_of_subscribed hsub, withClient,
        Function.update_eq_self]
    rw [hs']
    exact ⟨⟨rfl, rfl, rfl⟩, rfl, rfl, fun _ => rfl⟩
  | false =>
    obtain ⟨e, he⟩ : ∃ e, Subscription.validateMonitorItemResult statusName answer = .error e := by
      cases hv : Subscription.validateMonitorItemResult statusName answer with
      | error e => exact ⟨e, rfl⟩
      | ok u => exact absurd ⟨hsub, hv⟩ h
    obtain ⟨session, hrun, hworld, hvalues⟩ :=
      run_subscribeValue_of_not base statusName (c := s.opcUa) hsub ptr answer
    rw [subscribe_of_error statusName he] at hworld hvalues
    have hs' : s' = s.withClient i session := by
      simp only [s', step, h, if_false, hrun]
      rfl
    -- the counter of the handles has moved on, and nothing else has changed
    have hconn : s'.opcUa = { s.opcUa with
        subscription.nextId := s.opcUa.subscription.nextId + 1 } := by
      rw [hs', withClient, hworld]
    refine ⟨⟨by rw [hconn], by rw [hconn], by rw [hs']; rfl⟩, by rw [hs']; rfl, by rw [hconn],
      fun j => ?_⟩
    rw [hs', held, held, withClient]
    by_cases hj : j = i
    · subst hj
      simp [hvalues]
    · simp [hj]

/-- **A step that subscribes a variable** files its callback and its handle. -/
theorem step_subscribe_of_makes {i : ι} (ptr : NodePtr) {nodeId : NodeId}
    {answer : MonitoredItemCreateResult} (h : s.Makes statusName i nodeId answer) :
    let s' := s.step base statusName (.subscribe i ptr nodeId answer)
    let item := s.newItem i nodeId answer
    SameConnection s s' ∧ s'.live = s.live ++ [item] ∧
      s'.opcUa.subscription.callbacks =
        s.opcUa.subscription.callbacks.insertIfNew item.callbackKey ⟨ptr⟩ ∧
      ∀ j, s'.held j = if j = i then s.held j ++ [item.handle] else s.held j := by
  intro s' item
  obtain ⟨session, hrun, hworld, hvalues⟩ :=
    run_subscribeValue_of_not base statusName (c := s.opcUa) h.1 ptr answer
  rw [subscribe_of_ok statusName h.2] at hworld hvalues
  have hs' : s' = { s.withClient i session with live := s.live ++ [item] } := by
    simp only [s', step, h, if_true, hrun]
    rfl
  have hconn : s'.opcUa = { s.opcUa with
      subscription.nextId := s.opcUa.subscription.nextId + 1
      subscription.callbacks :=
        s.opcUa.subscription.callbacks.insertIfNew item.callbackKey ⟨ptr⟩ } := by
    rw [hs', withClient, hworld]
    rfl
  refine ⟨⟨by rw [hconn], by rw [hconn], by rw [hs']; rfl⟩, by rw [hs'], by rw [hconn],
    fun j => ?_⟩
  rw [hs', held, held, withClient]
  by_cases hj : j = i
  · subst hj
    simp [hvalues, item, newItem, LiveItem.handle]
  · simp [hj]

/-- **A step that unsubscribes a client** drops the callbacks under the first identifiers of the
handles it holds. -/
theorem step_unsubscribe (i : ι) :
    let s' := s.step base statusName (.unsubscribe i)
    SameConnection s s' ∧ s'.live = s.live.filter (fun item => item.owner ≠ i) ∧
      (∀ h : Int32, h ∈ s'.opcUa.subscription.callbacks ↔
        h ∈ s.opcUa.subscription.callbacks ∧
          h ∉ (s.held i).map ValueSubscriptionHandle.clientHandle) ∧
      ∀ j, s'.held j = if j = i then [] else s.held j := by
  intro s'
  refine ⟨⟨rfl, rfl, rfl⟩, rfl, fun h => ?_, fun j => ?_⟩
  · exact s.opcUa.subscription.mem_callbacks_eraseCallbacks
  · by_cases hj : j = i
    · subst hj
      simp [s', held, step, withClient, DashboardClient.unsubscribe, Prog.run]
    · simp [s', held, step, withClient, hj]

/-! ### Handles and subscriptions -/

/-- The handles that a client holds are those of its live subscriptions. -/
def Tracks (s : SharedSystem ι) : Prop :=
  ∀ i, s.held i = (s.live.filter fun item => item.owner = i).map LiveItem.handle

theorem Tracks.mem_held (h : Tracks s) {i : ι} {x : ValueSubscriptionHandle} :
    x ∈ s.held i ↔ ∃ item ∈ s.live, item.owner = i ∧ item.handle = x := by
  rw [h i]
  simp [and_assoc]

/-- Without a handle held by anyone nothing is live. -/
theorem Tracks.live_eq_nil (h : Tracks s) (hheld : ∀ i, s.held i = []) : s.live = [] := by
  rw [List.eq_nil_iff_forall_not_mem]
  intro item hitem
  have hmem : item.handle ∈ s.held item.owner := h.mem_held.mpr ⟨item, hitem, rfl, rfl⟩
  rw [hheld] at hmem
  cases hmem

theorem tracks_start (nextId : UInt32) (subscriptionId : Int32) :
    Tracks (start nextId subscriptionId : SharedSystem ι) := fun _ => rfl

/-- **Every step keeps track** of the subscriptions. -/
theorem Tracks.step (h : Tracks s) (k : SharedStep ι) : Tracks (s.step base statusName k) := by
  cases k with
  | connect result response => exact h
  | checkConnection sessionIsConnected => exact h
  | notify clientHandle => exact h
  | subscribe i ptr nodeId answer =>
    intro j
    by_cases hmakes : s.Makes statusName i nodeId answer
    · obtain ⟨-, hlive, -, hheld⟩ := step_subscribe_of_makes base statusName ptr hmakes
      rw [hheld, hlive, List.filter_append, List.map_append]
      have howner : (s.newItem i nodeId answer).owner = i := rfl
      by_cases hj : j = i
      · subst hj
        rw [if_pos rfl, h j]
        simp [howner]
      · rw [if_neg hj, h j]
        simp [howner, Ne.symm hj]
    · obtain ⟨-, hlive, -, hheld⟩ := step_subscribe_of_not base statusName ptr hmakes
      rw [hheld, hlive, h j]
  | unsubscribe i =>
    intro j
    obtain ⟨-, hlive, -, hheld⟩ := step_unsubscribe (s := s) base statusName i
    rw [hheld, hlive, List.filter_filter]
    by_cases hj : j = i
    · subst hj
      simp
    · rw [if_neg hj, h j]
      congr 1
      refine List.filter_congr fun item _ => ?_
      by_cases howner : item.owner = j
      · simp [howner, hj]
      · simp [howner]

end SharedSystem

end UmatiDashboard
