import UmatiDashboard.DataClient.IDashboardDataClient
import UmatiDashboard.Effect.Resources

/-!
# The log of subscriptions

A data client may keep a log of the two calls that change what is subscribed: `Subscribe` with
its answer, and `Unsubscribe` with what was asked for. Nothing reads the log; it is what
statements about the subscriptions of a client speak of.
-/

namespace UmatiDashboard

/-- A call that changes what is subscribed. -/
inductive SubscriptionCall where
  | subscribe (nodeId : NodeId) (answer : Except Exception (Option ValueSubscriptionHandle))
  | unsubscribe (monItemIds clientHandles : List Int32)

/-- The identifiers by which a handle is given back. -/
def ValueSubscriptionHandle.ids (h : ValueSubscriptionHandle) : Int32 × Int32 :=
  (h.monitoredItemId, h.clientHandle)

/-- What a call does to the handles that are held: a handle that is not null is acquired, and an
`Unsubscribe` gives back the handles it names. -/
def SubscriptionCall.events : SubscriptionCall → List (ResourceEvent (Int32 × Int32))
  | subscribe _ (.ok (some h)) => [.acquire h.ids]
  | subscribe _ (.ok none) => []
  | subscribe _ (.error _) => []
  | unsubscribe monItemIds clientHandles => [.release (monItemIds.zip clientHandles)]

/-- The life of the handles in a log. -/
def handleEvents (log : List SubscriptionCall) : List (ResourceEvent (Int32 × Int32)) :=
  log.flatMap SubscriptionCall.events

theorem handleEvents_concat (log : List SubscriptionCall) (c : SubscriptionCall) :
    handleEvents (log ++ [c]) = handleEvents log ++ c.events := by
  simp [handleEvents]

/-- The state of a data client with the log of its subscriptions. -/
structure Logged (ω : Type) where
  state : ω
  log : List SubscriptionCall

/-- A call that is not logged. -/
def Logged.unlogged {ω β : Type} (f : ω → β × ω) (w : Logged ω) : β × Logged ω :=
  ((f w.state).1, { w with state := (f w.state).2 })

/-- The client that answers as the given one does, and keeps the log. -/
def IDashboardDataClient.logged {ω : Type} (client : IDashboardDataClient ω) :
    IDashboardDataClient (Logged ω) where
  browse n ctx := Logged.unlogged (client.browse n ctx)
  browseWithResultTypeFilter n ctx t :=
    Logged.unlogged (client.browseWithResultTypeFilter n ctx t)
  translateBrowsePathToNodeId n q := Logged.unlogged (client.translateBrowsePathToNodeId n q)
  isSameOrSubtype a b depth := Logged.unlogged (client.isSameOrSubtype a b depth)
  subscribe n cb w :=
    ((client.subscribe n cb w.state).1,
      ⟨(client.subscribe n cb w.state).2,
        w.log ++ [.subscribe n (client.subscribe n cb w.state).1]⟩)
  unsubscribe ms cs w := ⟨client.unsubscribe ms cs w.state, w.log ++ [.unsubscribe ms cs]⟩
  readeNodeValues ns := Logged.unlogged (client.readeNodeValues ns)
  subscribe_nodeId n cb w h _ heq :=
    client.subscribe_nodeId n cb w.state h _ (Prod.ext (Prod.ext_iff.mp heq).1 rfl)

/-- The calls that only read leave the log alone. -/
theorem readsKeep_log {ω : Type} (client : IDashboardDataClient ω) (log : List SubscriptionCall) :
    client.logged.recorded.ReadsKeep fun w => w.state.log = log :=
  ⟨fun _ _ _ h => h, fun _ _ _ _ h => h, fun _ _ _ h => h, fun _ _ _ _ h => h, fun _ _ h => h⟩

end UmatiDashboard
