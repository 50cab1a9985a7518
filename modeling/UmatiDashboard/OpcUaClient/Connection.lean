import UmatiDashboard.DashboardClient.DashboardClient
import UmatiDashboard.OpcUaClient.Subscription

/-!
# The connection of the OPC UA client

The part of `OpcUaClient` that connects, notices the loss of the session and passes the calls of
the dashboard clients on to the one subscription they share. The namespace table stays the same
here, so no reset is issued.
-/

namespace UmatiDashboard

/-- The states of the server that the client tells apart. -/
inductive ServerState where
  | failed
  | running
  | shutdown
  deriving DecidableEq

/-- The members of `OpcUaClient` that have to do with its connection. -/
structure OpcUaClient (χ : Type) where
  isConnected : Bool
  tryConnecting : Bool
  subscription : Subscription χ

namespace OpcUaClient

variable {χ : Type} (c : OpcUaClient χ)

/-! ### Connecting -/

/-- Create a subscription. The monitored items of an earlier one are not created again. -/
def onConnected (response : CreateSubscriptionResponse) : OpcUaClient χ :=
  { c with subscription := c.subscription.createSubscription response }

def connectionStatusChanged (serverStatus : ServerState) (response : CreateSubscriptionResponse) :
    OpcUaClient χ :=
  match serverStatus with
  | .failed => { c with isConnected := false }
  | .running => { c with isConnected := true }.onConnected response
  | .shutdown => c

/-- The results of a connect after which the client gives up. -/
def isFinal (result : UInt32) : Bool :=
  let badDisconnect := 0x80AD0000
  let badUserAccessDenied := 0x801F0000
  let badConnectionClosed := 0x80AE0000
  let badApplicationSignatureInvalid := 0x80580000
  result == badDisconnect || result == badUserAccessDenied || result == badConnectionClosed ||
    result == badApplicationSignatureInvalid

/-- Connect, given the stack's result and its answer to the creation of a subscription. -/
def connect (result : UInt32) (response : CreateSubscriptionResponse) : Bool × OpcUaClient χ :=
  if isBadStatus result then
    let c := c.connectionStatusChanged .failed response
    (false, if isFinal result then { c with tryConnecting := false } else c)
  else (true, c.connectionStatusChanged .running response)

/-- One round of the connecting thread. -/
def threadConnectExecution (result : UInt32) (response : CreateSubscriptionResponse) :
    OpcUaClient χ :=
  if c.tryConnecting && !c.isConnected then (c.connect result response).2 else c

/-- What every service call starts with: the loss of the session is noticed here. -/
def checkConnection (sessionIsConnected : Bool) : Except Exception Unit × OpcUaClient χ :=
  if !c.isConnected || !sessionIsConnected then
    (.error (.clientNotConnected "Need connected client."), { c with isConnected := false })
  else (.ok (), c)

/-- Connecting leaves the callbacks as they are. -/
theorem callbacks_threadConnectExecution (result : UInt32) (response : CreateSubscriptionResponse) :
    (c.threadConnectExecution result response).subscription.callbacks =
      c.subscription.callbacks := by
  unfold threadConnectExecution connect
  split_ifs
  · rfl
  · rfl
  · simp only [connectionStatusChanged, onConnected, Subscription.createSubscription]
    split_ifs <;> rfl
  · rfl

/-- Connecting takes no client handle. -/
theorem nextId_threadConnectExecution (result : UInt32) (response : CreateSubscriptionResponse) :
    (c.threadConnectExecution result response).subscription.nextId = c.subscription.nextId := by
  unfold threadConnectExecution connect
  split_ifs
  · rfl
  · rfl
  · simp only [connectionStatusChanged, onConnected, Subscription.createSubscription]
    split_ifs <;> rfl
  · rfl

/-- Checking the connection leaves the subscription as it is. -/
theorem subscription_checkConnection (sessionIsConnected : Bool) :
    (c.checkConnection sessionIsConnected).2.subscription = c.subscription := by
  unfold checkConnection
  split_ifs <;> rfl

/-- A connect that creates a subscription. -/
theorem threadConnectExecution_of_good {result : UInt32} {response : CreateSubscriptionResponse}
    (htry : c.tryConnecting = true) (hconn : c.isConnected = false)
    (hresult : isBadStatus result = false)
    (hresponse : isBadStatus response.serviceResult = false) :
    c.threadConnectExecution result response = { c with
      isConnected := true
      subscription.subscriptionId := response.subscriptionId.toInt32 } := by
  simp [threadConnectExecution, connect, connectionStatusChanged, onConnected,
    Subscription.createSubscription, htry, hconn, hresult, hresponse]

/-- Every other round of the connecting thread leaves the subscription id as it is. -/
theorem subscription_threadConnectExecution {result : UInt32}
    {response : CreateSubscriptionResponse}
    (h : ¬ (c.tryConnecting = true ∧ c.isConnected = false ∧ isBadStatus result = false ∧
      isBadStatus response.serviceResult = false)) :
    (c.threadConnectExecution result response).subscription = c.subscription := by
  unfold threadConnectExecution connect
  split_ifs with hround hbad hfinal
  · rfl
  · rfl
  · have hserver : isBadStatus response.serviceResult = true := by
      by_contra hgood
      simp only [Bool.and_eq_true, Bool.not_eq_eq_eq_not, Bool.not_true] at hround
      exact h ⟨hround.1, hround.2, by simpa using hbad, by simpa using hgood⟩
    simp [connectionStatusChanged, onConnected, Subscription.createSubscription, hserver]
  · rfl

/-! ### Subscribing -/

/-- Subscribe a variable; an exception of the subscription becomes a null handle. -/
def subscribe (statusName : UInt32 → String) (nodeId : NodeId) (callback : χ)
    (answer : MonitoredItemCreateResult) : Option ValueSubscriptionHandle × OpcUaClient χ :=
  match c.subscription.subscribe statusName nodeId callback answer with
  | (.ok handle, sub) => (some handle, { c with subscription := sub })
  | (.error _, sub) => (none, { c with subscription := sub })

/-- Unsubscribe variables. The first argument is only counted, and the second one is taken for
the client handles and for the monitored item ids. -/
def unsubscribe (_monItemIds clientHandles : List Int32) : OpcUaClient χ :=
  { c with subscription := c.subscription.eraseCallbacks clientHandles }

/-- The client as a data client, with the stack's answer to the creation of a monitored item;
the other operations are those of `base`. -/
def dataClient (base : IDashboardDataClient (OpcUaClient NewValueCallback))
    (statusName : UInt32 → String) (answer : MonitoredItemCreateResult) :
    IDashboardDataClient (OpcUaClient NewValueCallback) :=
  { base with
    subscribe := fun nodeId callback c =>
      (.ok (c.subscribe statusName nodeId callback answer).1,
        (c.subscribe statusName nodeId callback answer).2)
    unsubscribe := fun monItemIds clientHandles c => c.unsubscribe monItemIds clientHandles
    subscribe_nodeId := fun nodeId callback c h c' heq => by
      have hsome : (c.subscribe statusName nodeId callback answer).1 = some h := by
        simpa using congrArg Prod.fst heq
      unfold subscribe Subscription.subscribe at hsome
      cases hv : Subscription.validateMonitorItemResult statusName answer with
      | error e => simp [hv] at hsome
      | ok u =>
        simp only [hv, Option.some.injEq] at hsome
        rw [← hsome] }

end OpcUaClient

end UmatiDashboard
