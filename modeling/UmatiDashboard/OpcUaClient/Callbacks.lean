import UmatiDashboard.OpcUaClient.SharedSubscription

/-!
# Which callbacks are kept

The table of callbacks is **exact** if its keys are the client handles of the subscriptions made
and not unsubscribed since. Subscribing keeps it exact. Unsubscribing erases the wrong numbers:
the handles of a client name the monitored item id where the client handle should be. So the
table stays exact only if, among the client handles that are in use, the monitored item ids of
the client are those that are its own.
-/

namespace UmatiDashboard

namespace SharedSystem

open Transition

variable {ι : Type} {s : SharedSystem ι}

/-- The keys of the callback table are the client handles of the live subscriptions. -/
def Exact (s : SharedSystem ι) : Prop :=
  ∀ h : Int32, h ∈ s.opcUa.subscription.callbacks ↔ ∃ item ∈ s.live, item.callbackKey = h

/-- Of the client handles in use, the monitored item ids of the client are those that are used
by none but the client. -/
def UnsubscribesOwn (s : SharedSystem ι) (i : ι) : Prop :=
  ∀ item ∈ s.live,
    (∃ own ∈ s.live, own.owner = i ∧ own.monitoredItemId.toInt32 = item.callbackKey) ↔
      ∀ other ∈ s.live, other.callbackKey = item.callbackKey → other.owner = i

/-- The condition on a step. -/
def ErasesOwn (s : SharedSystem ι) : SharedStep ι → Prop
  | .unsubscribe i => s.UnsubscribesOwn i
  | _ => True

/-- **What exactness means for notifications**: one of a live variable is never dropped, and one
for any other client handle invokes no callback. -/
theorem Exact.dataChange (h : Exact s) (clientHandle : Int32) :
    (s.opcUa.subscription.dataChange clientHandle).isSome = true ↔
      ∃ item ∈ s.live, item.callbackKey = clientHandle := by
  rw [Subscription.dataChange, Std.ExtTreeMap.isSome_getElem?_iff_mem]
  exact h clientHandle

theorem exact_start (nextId : UInt32) (subscriptionId : Int32) :
    Exact (start nextId subscriptionId : SharedSystem ι) := by
  intro h
  simp [start]

variable [DecidableEq ι] (base : IDashboardDataClient (OpcUaClient NewValueCallback))
  (statusName : UInt32 → String)

/-- Subscribing keeps the table exact. -/
theorem Exact.subscribe (h : Exact s) (i : ι) (ptr : NodePtr) (nodeId : NodeId)
    (answer : MonitoredItemCreateResult) :
    Exact (s.step base statusName (.subscribe i ptr nodeId answer)) := by
  intro key
  by_cases hmakes : s.Makes statusName i nodeId answer
  · obtain ⟨-, hlive, hcallbacks, -⟩ := step_subscribe_of_makes base statusName ptr hmakes
    rw [hlive, hcallbacks, Std.ExtTreeMap.mem_insertIfNew, Std.LawfulEqCmp.compare_eq_iff_eq,
      h key]
    simp only [List.mem_append, List.mem_singleton, or_and_right, exists_or, exists_eq_left]
    exact or_comm
  · obtain ⟨-, hlive, hcallbacks, -⟩ := step_subscribe_of_not base statusName ptr hmakes
    rw [hlive, hcallbacks]
    exact h key

/-- The keys that unsubscribing erases are the monitored item ids of the client. -/
theorem Tracks.mem_erased (h : Tracks s) {i : ι} {key : Int32} :
    key ∈ (s.held i).map ValueSubscriptionHandle.clientHandle ↔
      ∃ own ∈ s.live, own.owner = i ∧ own.monitoredItemId.toInt32 = key := by
  rw [h i, List.map_map, List.mem_map]
  simp [and_assoc, LiveItem.handle]

/-- **Unsubscribing a client** keeps the table exact if and only if the client erases its own
keys. -/
theorem Exact.unsubscribe_iff (h : Exact s) (ht : Tracks s) (i : ι) :
    Exact (s.step base statusName (.unsubscribe i)) ↔ s.UnsubscribesOwn i := by
  obtain ⟨-, hlive, hcallbacks, -⟩ := step_unsubscribe (s := s) base statusName i
  have hremains : ∀ key, (∃ item ∈ s.live.filter fun item => item.owner ≠ i,
      item.callbackKey = key) ↔ ∃ item ∈ s.live, item.callbackKey = key ∧ item.owner ≠ i := by
    intro key
    simp only [List.mem_filter, decide_eq_true_eq, and_assoc]
    exact exists_congr fun item => and_congr_right fun _ => and_comm
  have hexact : Exact (s.step base statusName (.unsubscribe i)) ↔ ∀ key : Int32,
      ((∃ item ∈ s.live, item.callbackKey = key) ∧
        ¬ ∃ own ∈ s.live, own.owner = i ∧ own.monitoredItemId.toInt32 = key) ↔
      ∃ item ∈ s.live, item.callbackKey = key ∧ item.owner ≠ i := by
    refine forall_congr' fun key => ?_
    rw [hlive, hcallbacks, hremains, h key, ht.mem_erased]
  rw [hexact]
  constructor
  · intro hkeys item hitem
    have hkey := hkeys item.callbackKey
    constructor
    · intro herased other hother heq
      by_contra howner
      exact (hkey.mpr ⟨other, hother, heq, howner⟩).2 herased
    · intro hown
      by_contra hkept
      obtain ⟨other, hother, heq, howner⟩ := hkey.mp ⟨⟨item, hitem, rfl⟩, hkept⟩
      exact howner (hown other hother heq)
  · intro hown key
    constructor
    · rintro ⟨⟨item, hitem, rfl⟩, hkept⟩
      by_contra hgone
      refine hkept ((hown item hitem).mpr fun other hother heq => ?_)
      by_contra howner
      exact hgone ⟨other, hother, heq, howner⟩
    · rintro ⟨item, hitem, rfl, howner⟩
      refine ⟨⟨item, hitem, rfl⟩, fun herased => howner ?_⟩
      exact (hown item hitem).mp herased item hitem rfl

/-- **The callback table is exact throughout a run if and only if every client erases its own
keys** when it is unsubscribed. -/
theorem exact_throughout_iff (nextId : UInt32) (subscriptionId : Int32)
    (steps : List (SharedStep ι)) :
    Throughout (step base statusName) Exact (start nextId subscriptionId) steps ↔
      Along (step base statusName) ErasesOwn (start nextId subscriptionId) steps := by
  have hA : Along (step base statusName) (fun _ _ => True) (start nextId subscriptionId)
      steps := along_true
  refine throughout_iff_along (I := Tracks) (fun s k ht h _ hC => ⟨ht.step base statusName k, ?_⟩)
    (fun s k ht h _ hP => ?_) (tracks_start nextId subscriptionId)
    (exact_start nextId subscriptionId) hA
  · cases k with
    | connect result response =>
      intro key
      rw [step, s.opcUa.callbacks_threadConnectExecution]
      exact h key
    | checkConnection sessionIsConnected =>
      intro key
      rw [step, s.opcUa.subscription_checkConnection]
      exact h key
    | notify clientHandle => exact h
    | subscribe i ptr nodeId answer => exact h.subscribe base statusName i ptr nodeId answer
    | unsubscribe i => exact (h.unsubscribe_iff base statusName ht i).mpr hC
  · cases k with
    | connect _ _ => exact trivial
    | checkConnection _ => exact trivial
    | notify _ => exact trivial
    | subscribe _ _ _ _ => exact trivial
    | unsubscribe i => exact (h.unsubscribe_iff base statusName ht i).mp hP

/-! ### Two machines -/

/-- A data client of which only the subscriptions are looked at. -/
def emptyServer : IDashboardDataClient (OpcUaClient NewValueCallback) where
  browse _ _ c := (.ok [], c)
  browseWithResultTypeFilter _ _ _ c := (.ok [], c)
  translateBrowsePathToNodeId _ _ c := (.ok ⟨"", ""⟩, c)
  isSameOrSubtype _ _ _ c := (false, c)
  subscribe _ _ c := (.ok none, c)
  unsubscribe _ _ c := c
  readeNodeValues _ c := (.ok [], c)
  subscribe_nodeId := by simp

/-- Two machines subscribe one variable each, and the first one is unsubscribed. The server
numbers its monitored items otherwise than the gateway its client handles. -/
def unsubscribeFirst : List (SharedStep Bool) :=
  [.connect 0 ⟨0, 1⟩, .subscribe false 0 ⟨"urn:a", "s=Value"⟩ ⟨0, 2, 1⟩,
    .subscribe true 0 ⟨"urn:b", "s=Value"⟩ ⟨0, 1, 1⟩, .unsubscribe false]

/-- **The wrong callback goes**: after the run that of the second machine, whose variable is
live, is gone, and that of the first one is still there. -/
theorem not_exact_unsubscribeFirst :
    let s := run (step emptyServer fun _ => "") (start 1 0) unsubscribeFirst
    (s.live.map fun item => (item.owner, item.callbackKey)) = [(true, 2)] ∧
      s.opcUa.subscription.callbacks.keys = [1] ∧
      ¬ Throughout (step emptyServer fun _ => "") Exact (start 1 0) unsubscribeFirst := by
  intro s
  have hlive : (s.live.map fun item => (item.owner, item.callbackKey)) = [(true, 2)] := by
    decide +kernel
  have hkeys : s.opcUa.subscription.callbacks.keys = [1] := by decide +kernel
  refine ⟨hlive, hkeys, fun h => ?_⟩
  have hexact : Exact s := throughout_iff_forall_prefix.mp h _ List.prefix_rfl
  have hmem : (1 : Int32) ∈ s.opcUa.subscription.callbacks := by
    rw [← Std.ExtTreeMap.mem_keys, hkeys]
    exact List.mem_singleton_self _
  obtain ⟨item, hitem, hkey⟩ := (hexact 1).mp hmem
  have hpair : (item.owner, item.callbackKey) ∈
      s.live.map fun item => (item.owner, item.callbackKey) := List.mem_map.mpr ⟨item, hitem, rfl⟩
  rw [hlive, List.mem_singleton, hkey] at hpair
  exact absurd (congrArg Prod.snd hpair) (show (1 : Int32) ≠ 2 by decide)

end SharedSystem

end UmatiDashboard
