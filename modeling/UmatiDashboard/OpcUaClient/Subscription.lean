import UmatiDashboard.DataClient.IDashboardDataClient

/-!
# The subscription

`Subscription` keeps the callbacks of all subscribed variables under their client handles. Its
calls go to the OPC UA stack; what the stack answers is an argument here. Two numbers travel
with every subscribed variable, the client handle that the gateway chooses and the monitored
item id that the server chooses, and both are of the same type.
-/

namespace UmatiDashboard

/-- The answer to the creation of a monitored item. -/
structure MonitoredItemCreateResult where
  statusCode : UInt32
  monitoredItemId : UInt32
  revisedQueueSize : UInt32

/-- The answer to the creation of a subscription. -/
structure CreateSubscriptionResponse where
  serviceResult : UInt32
  subscriptionId : UInt32

/-- The members of `Subscription`, for callbacks of type `χ`, and the counter `nextId` that all
subscriptions share. -/
structure Subscription (χ : Type) where
  nextId : UInt32
  subscriptionId : Int32
  callbacks : Std.ExtTreeMap Int32 χ compare

namespace Subscription

variable {χ : Type} (sub : Subscription χ)

/-- The queue of a monitored item has to have one place. -/
def validateMonitorItemResult (statusName : UInt32 → String)
    (monItemCreateResult : MonitoredItemCreateResult) : Except Exception Unit :=
  if isBadStatus monItemCreateResult.statusCode then
    .error (.ofStatus statusName monItemCreateResult.statusCode)
  else if monItemCreateResult.revisedQueueSize ≠ 1 then .error (.umati "Length mismatch.")
  else .ok ()

/-- Subscribe a variable: take the next client handle, and file the callback under it if the
server has created the monitored item. The handle that is returned is constructed with the
monitored item id in the place of the client handle, and the client handle in the place of the
monitored item id. -/
def subscribe (statusName : UInt32 → String) (nodeId : NodeId) (callback : χ)
    (monItemCreateResult : MonitoredItemCreateResult) :
    Except Exception ValueSubscriptionHandle × Subscription χ :=
  let clientHandle := sub.nextId
  let sub := { sub with nextId := sub.nextId + 1 }
  match validateMonitorItemResult statusName monItemCreateResult with
  | .error ex => (.error ex.sliced, sub)
  | .ok () =>
    (.ok ⟨monItemCreateResult.monitoredItemId.toInt32, clientHandle.toInt32, nodeId⟩,
      { sub with callbacks := sub.callbacks.insertIfNew clientHandle.toInt32 callback })

/-- The part of `Unsubscribe` before its service call: drop the callbacks. -/
def eraseCallbacks (clientHandles : List Int32) : Subscription χ :=
  { sub with callbacks := clientHandles.foldl (fun m handle => m.erase handle) sub.callbacks }

/-- The callback that a notification invokes; one for an unknown client handle is dropped. -/
def dataChange (clientHandle : Int32) : Option χ := sub.callbacks[clientHandle]?

/-- Create the subscription on the server; without success the old id stays. -/
def createSubscription (result : CreateSubscriptionResponse) : Subscription χ :=
  if isBadStatus result.serviceResult then sub
  else { sub with subscriptionId := result.subscriptionId.toInt32 }

/-- Dropped are the callbacks of the given handles. -/
theorem mem_callbacks_eraseCallbacks {clientHandles : List Int32} {h : Int32} :
    h ∈ (sub.eraseCallbacks clientHandles).callbacks ↔
      h ∈ sub.callbacks ∧ h ∉ clientHandles := by
  suffices hfold : ∀ (hs : List Int32) (m : Std.ExtTreeMap Int32 χ compare),
      h ∈ hs.foldl (fun m handle => m.erase handle) m ↔ h ∈ m ∧ h ∉ hs from hfold _ _
  intro hs
  induction hs with
  | nil => simp
  | cons a as ih =>
    intro m
    rw [List.foldl_cons, ih, Std.ExtTreeMap.mem_erase, List.mem_cons, not_or]
    have hcmp : compare a h ≠ .eq ↔ h ≠ a := by
      rw [ne_eq, Std.LawfulEqCmp.compare_eq_iff_eq, eq_comm]
    rw [hcmp]
    tauto

/-- The other callbacks stay as they are. -/
theorem getElem?_callbacks_eraseCallbacks (clientHandles : List Int32) (h : Int32) :
    (sub.eraseCallbacks clientHandles).callbacks[h]? =
      if h ∈ clientHandles then none else sub.callbacks[h]? := by
  suffices hfold : ∀ (hs : List Int32) (m : Std.ExtTreeMap Int32 χ compare),
      (hs.foldl (fun m handle => m.erase handle) m)[h]? = if h ∈ hs then none else m[h]? from
    hfold _ _
  intro hs
  induction hs with
  | nil => simp
  | cons a as ih =>
    intro m
    rw [List.foldl_cons, ih, Std.ExtTreeMap.getElem?_erase]
    by_cases hmem : h ∈ as
    · simp [hmem]
    · simp [hmem, @eq_comm _ a h]

end Subscription

end UmatiDashboard
