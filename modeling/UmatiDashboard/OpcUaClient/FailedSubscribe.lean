import UmatiDashboard.OpcUaClient.Subscription

/-!
# A Subscribe that fails

`Subscribe` creates a monitored item and validates the result afterwards. The server creates the
item unless the status is bad, and nothing removes an item whose result is refused: after a good
status with a revised queue of another size the call throws and the item stays. The client handle
comes from a counter of 32 bits that all subscriptions share, so a callback may be filed under it
already; then the new one is dropped. These are the only two ways in which a call is neither
completed nor undone (`subscribe_settled_iff`).
-/

namespace UmatiDashboard

/-- A monitored item that is live on the server. -/
structure MonitoredItem where
  monitoredItemId : UInt32
  clientHandle : UInt32
  deriving DecidableEq

/-- The subscription with its items on the server. -/
structure ServedSubscription (χ : Type) where
  subscription : Subscription χ
  items : List MonitoredItem

namespace ServedSubscription

variable {χ : Type} (s : ServedSubscription χ) (statusName : UInt32 → String)
  (prepared : Except Exception Unit) (nodeId : NodeId) (callback : χ)
  (result : MonitoredItemCreateResult)

/-- The key of the next callback. -/
def nextKey : Int32 := s.subscription.nextId.toInt32

/-- What the server keeps after it has sent the result. -/
def createDataChange : List MonitoredItem :=
  if isBadStatus result.statusCode then s.items
  else s.items ++ [⟨result.monitoredItemId, s.subscription.nextId⟩]

/-- `Subscription::Subscribe` with the server: the request takes a client handle and converts the
node id, which may throw before anything is sent. -/
def subscribe : Except Exception ValueSubscriptionHandle × ServedSubscription χ :=
  match prepared with
  | .error ex => (.error ex, { s with subscription.nextId := s.subscription.nextId + 1 })
  | .ok () =>
    let (handle, subscription) := s.subscription.subscribe statusName nodeId callback result
    (handle, ⟨subscription, s.createDataChange result⟩)

variable (s' : ServedSubscription χ)

/-- One callback more and one item more, which belong together. -/
structure Completed : Prop where
  /-- the one new item has the next client handle -/
  items : ∃ item, s'.items = s.items ++ [item] ∧ item.clientHandle = s.subscription.nextId
  /-- the callback is a new one, -/
  fresh : s.nextKey ∉ s.subscription.callbacks
  /-- it is found under the client handle of the item, -/
  registered : s'.subscription.dataChange s.nextKey = some callback
  /-- and the other callbacks are the old ones -/
  others : ∀ key, key ≠ s.nextKey →
    s'.subscription.dataChange key = s.subscription.dataChange key

/-- Nothing is left behind. -/
structure Undone : Prop where
  items : s'.items = s.items
  callbacks : ∀ key, s'.subscription.dataChange key = s.subscription.dataChange key

/-- A call that returns a handle is completed, and a call that throws is undone. -/
def Settled (out : Except Exception ValueSubscriptionHandle × ServedSubscription χ) : Prop :=
  match out.1 with
  | .ok _ => s.Completed callback out.2
  | .error _ => s.Undone out.2

variable {s result} {callback}

theorem settled_of_prepared_error (ex : Exception) :
    s.Settled callback (s.subscribe statusName (.error ex) nodeId callback result) :=
  ⟨rfl, fun _ => rfl⟩

/-- With a bad status there is no item, and no callback is filed. -/
theorem settled_of_bad (h : isBadStatus result.statusCode = true) :
    s.Settled callback (s.subscribe statusName (.ok ()) nodeId callback result) := by
  have hitems : s.createDataChange result = s.items := by rw [createDataChange, if_pos h]
  simp only [subscribe, Subscription.subscribe, Subscription.validateMonitorItemResult, h, if_true,
    hitems]
  exact ⟨rfl, fun _ => rfl⟩

/-- With a revised queue of another size the item of a call that throws stays. -/
theorem not_settled_of_revised (h : isBadStatus result.statusCode = false)
    (hrevised : result.revisedQueueSize ≠ 1) :
    ¬ s.Settled callback (s.subscribe statusName (.ok ()) nodeId callback result) := by
  simp only [subscribe, Subscription.subscribe, Subscription.validateMonitorItemResult, h,
    Bool.false_eq_true, if_false, ne_eq, hrevised, not_false_eq_true, if_true]
  rintro ⟨hitems, -⟩
  simp [createDataChange, h] at hitems

/-- A result that is accepted completes the call if and only if the client handle is not in
use. -/
theorem settled_iff_of_good (h : isBadStatus result.statusCode = false)
    (hrevised : result.revisedQueueSize = 1) :
    s.Settled callback (s.subscribe statusName (.ok ()) nodeId callback result) ↔
      s.nextKey ∉ s.subscription.callbacks := by
  simp only [subscribe, Subscription.subscribe, Subscription.validateMonitorItemResult, h,
    Bool.false_eq_true, if_false, ne_eq, hrevised, not_true_eq_false]
  constructor
  · intro hcompleted
    exact hcompleted.fresh
  · intro hfresh
    refine ⟨⟨⟨result.monitoredItemId, s.subscription.nextId⟩, ?_, rfl⟩, hfresh, ?_, ?_⟩
    · simp [createDataChange, h]
    · have hkey : s.subscription.nextId.toInt32 ∉ s.subscription.callbacks := hfresh
      show (s.subscription.callbacks.insertIfNew s.subscription.nextId.toInt32 callback)[_]? = _
      rw [nextKey, Std.ExtTreeMap.getElem?_insertIfNew, if_pos ⟨Std.ReflCmp.compare_self, hkey⟩]
    · intro key hne
      have hcompare : compare s.subscription.nextId.toInt32 key ≠ .eq := by
        rw [ne_eq, Std.LawfulEqCmp.compare_eq_iff_eq]
        exact hne.symm
      simp [Subscription.dataChange, Std.ExtTreeMap.getElem?_insertIfNew, hcompare]

variable (s result) (callback)

/-- **When a Subscribe leaves nothing half done**: if and only if the request fails before it is
sent, or the status is bad, or the revised queue has one place and no callback is filed under the
next client handle. -/
theorem subscribe_settled_iff :
    s.Settled callback (s.subscribe statusName prepared nodeId callback result) ↔
      (∃ ex, prepared = .error ex) ∨ isBadStatus result.statusCode = true ∨
        (result.revisedQueueSize = 1 ∧ s.nextKey ∉ s.subscription.callbacks) := by
  cases prepared with
  | error ex => simp [settled_of_prepared_error]
  | ok _ =>
    cases hbad : isBadStatus result.statusCode with
    | true => simp [settled_of_bad statusName nodeId hbad]
    | false =>
      by_cases hrevised : result.revisedQueueSize = 1
      · simp [settled_iff_of_good statusName nodeId hbad hrevised, hrevised]
      · simp [not_settled_of_revised statusName nodeId hbad hrevised, hrevised]

/-- The first call, answered with a good status and a queue of ten places: it throws, and the item
stays. -/
theorem not_settled_queueOfTen :
    let s : ServedSubscription Unit := ⟨⟨1, 1, ∅⟩, []⟩
    let out := s.subscribe (fun _ => "") (.ok ()) ⟨"http://machine/", "i=1"⟩ () ⟨0, 17, 10⟩
    out.1 = .error (.std "std::exception") ∧ out.2.items = [⟨17, 1⟩] ∧ ¬ s.Settled () out := by
  refine ⟨rfl, rfl, ?_⟩
  exact not_settled_of_revised _ _ rfl (by decide)

end ServedSubscription

end UmatiDashboard
