import UmatiDashboard.OpcUaClient.Callbacks

/-!
# Subscriptions across reconnects

Every connect creates a new subscription on the server, but the monitored items that the
dashboard clients hold handles of stay in the old one. The handles are **alive** if they denote
monitored items of the subscription that the gateway uses now. They stay alive exactly as long
as no subscription is created while a handle is held.
-/

namespace UmatiDashboard

namespace SharedSystem

open Transition

variable {ι : Type} {s : SharedSystem ι}

/-- While the client is connected, every handle that is held denotes a monitored item that was
created in the subscription used now. -/
def Alive (s : SharedSystem ι) : Prop :=
  s.opcUa.isConnected = true → ∀ i, ∀ handle ∈ s.held i, ∃ item ∈ s.live,
    item.owner = i ∧ item.handle = handle ∧
      item.subscriptionId = s.opcUa.subscription.subscriptionId

/-- Every live monitored item is one of the subscription used now, which was created. -/
structure Current [DecidableEq ι] (s : SharedSystem ι) : Prop where
  tracks : Tracks s
  current : ∀ item ∈ s.live, item.subscriptionId = s.opcUa.subscription.subscriptionId
  created : s.live ≠ [] → s.opcUa.subscription.subscriptionId ∈ s.created

variable [DecidableEq ι] (base : IDashboardDataClient (OpcUaClient NewValueCallback))
  (statusName : UInt32 → String)

/-- What is known of the server: a new subscription has a new id, and monitored items are
created in subscriptions that exist. -/
def ServerAnswers (s : SharedSystem ι) : SharedStep ι → Prop
  | .connect result response =>
    s.Creates result response → response.subscriptionId.toInt32 ∉ s.created
  | .subscribe i _ nodeId answer =>
    s.Makes statusName i nodeId answer → s.opcUa.subscription.subscriptionId ∈ s.created
  | _ => True

/-- The condition on a step: no subscription is created while a handle is held. -/
def CreatesUnheld (s : SharedSystem ι) : SharedStep ι → Prop
  | .connect result response => s.Creates result response → ∀ i, s.held i = []
  | _ => True

theorem current_start (nextId : UInt32) (subscriptionId : Int32) :
    Current (start nextId subscriptionId : SharedSystem ι) where
  tracks := tracks_start nextId subscriptionId
  current _ h := by cases h
  created h := absurd rfl h

theorem Current.alive (h : Current s) : Alive s := by
  intro _ i handle hhandle
  obtain ⟨item, hitem, howner, rfl⟩ := h.tracks.mem_held.mp hhandle
  exact ⟨item, hitem, howner, rfl, h.current item hitem⟩

/-- The client is connected after a connect that creates a subscription. -/
theorem step_connect_of_creates {result : UInt32} {response : CreateSubscriptionResponse}
    (h : s.Creates result response) :
    let s' := s.step base statusName (.connect result response)
    s'.opcUa.isConnected = true ∧
      s'.opcUa.subscription.subscriptionId = response.subscriptionId.toInt32 ∧
      s'.created = response.subscriptionId.toInt32 :: s.created := by
  obtain ⟨htry, hconn, hresult, hresponse⟩ := h
  have hround := s.opcUa.threadConnectExecution_of_good htry hconn hresult hresponse
  refine ⟨?_, ?_, ?_⟩
  · rw [step, hround]
  · rw [step, hround]
  · rw [step, if_pos ⟨htry, hconn, hresult, hresponse⟩]

/-- **Steps that meet the condition keep all monitored items current.** -/
theorem Current.step (h : Current s) {k : SharedStep ι} (hA : s.ServerAnswers statusName k)
    (hC : s.CreatesUnheld k) : Current (s.step base statusName k) := by
  have htracks := h.tracks.step base statusName k
  cases k with
  | connect result response =>
    -- a new subscription starts without live items, by the hypothesis
    by_cases hcreates : s.Creates result response
    · have hlive : (s.step base statusName (.connect result response)).live = [] :=
        h.tracks.live_eq_nil (hC hcreates)
      refine ⟨htracks, fun item hitem => ?_, fun hne => absurd hlive hne⟩
      rw [hlive] at hitem
      cases hitem
    · have hsub : (s.step base statusName (.connect result response)).opcUa.subscription =
          s.opcUa.subscription := s.opcUa.subscription_threadConnectExecution hcreates
      refine ⟨htracks, fun item hitem => ?_, fun hne => ?_⟩
      · rw [hsub]
        exact h.current item hitem
      · rw [hsub, SharedSystem.step, if_neg hcreates]
        exact h.created hne
  | checkConnection sessionIsConnected =>
    have hsub : (s.step base statusName (.checkConnection sessionIsConnected)).opcUa.subscription =
        s.opcUa.subscription := s.opcUa.subscription_checkConnection sessionIsConnected
    refine ⟨htracks, fun item hitem => ?_, fun hne => ?_⟩
    · rw [hsub]
      exact h.current item hitem
    · rw [hsub]
      exact h.created hne
  | notify clientHandle => exact h
  | subscribe i ptr nodeId answer =>
    by_cases hmakes : s.Makes statusName i nodeId answer
    · obtain ⟨hconn, hlive, -, -⟩ := step_subscribe_of_makes base statusName ptr hmakes
      refine ⟨htracks, fun item hitem => ?_, fun _ => ?_⟩
      · rw [hconn.subscriptionId]
        rw [hlive, List.mem_append, List.mem_singleton] at hitem
        rcases hitem with hitem | rfl
        · exact h.current item hitem
        · rfl
      · rw [hconn.subscriptionId, hconn.created]
        exact hA hmakes
    · obtain ⟨hconn, hlive, -, -⟩ := step_subscribe_of_not base statusName ptr hmakes
      refine ⟨htracks, fun item hitem => ?_, fun hne => ?_⟩
      · rw [hconn.subscriptionId]
        exact h.current item (hlive ▸ hitem)
      · rw [hconn.subscriptionId, hconn.created]
        exact h.created (hlive ▸ hne)
  | unsubscribe i =>
    obtain ⟨hconn, hlive, -, -⟩ := step_unsubscribe (s := s) base statusName i
    refine ⟨htracks, fun item hitem => ?_, fun hne => ?_⟩
    · rw [hconn.subscriptionId]
      rw [hlive] at hitem
      exact h.current item (List.mem_filter.mp hitem).1
    · rw [hconn.subscriptionId, hconn.created]
      refine h.created fun hnil => hne ?_
      rw [hlive, hnil]
      rfl

/-- **The handles are alive throughout a run if and only if no subscription is created while a
handle is held.** -/
theorem alive_throughout_iff (nextId : UInt32) (subscriptionId : Int32)
    {steps : List (SharedStep ι)}
    (hserver : Along (step base statusName) (ServerAnswers statusName)
      (start nextId subscriptionId) steps) :
    Throughout (step base statusName) Alive (start nextId subscriptionId) steps ↔
      Along (step base statusName) CreatesUnheld (start nextId subscriptionId) steps := by
  have hstart : Current (start nextId subscriptionId : SharedSystem ι) :=
    current_start nextId subscriptionId
  refine throughout_iff_along (I := Current) (fun s k h _ hA hC => ?_) (fun s k h _ hA hP => ?_)
    hstart hstart.alive hserver
  · have hnext := h.step base statusName hA hC
    exact ⟨hnext, hnext.alive⟩
  · cases k with
    | checkConnection _ => exact trivial
    | notify _ => exact trivial
    | subscribe _ _ _ _ => exact trivial
    | unsubscribe _ => exact trivial
    | connect result response =>
      intro hcreates i
      obtain ⟨hconn, hid, -⟩ := step_connect_of_creates base statusName hcreates
      rw [List.eq_nil_iff_forall_not_mem]
      intro handle hhandle
      -- a handle that is held over the connect would have to be one of the new subscription
      obtain ⟨item, hitem, -, -, hnew⟩ := hP hconn i handle hhandle
      have hold : item.subscriptionId = s.opcUa.subscription.subscriptionId :=
        h.current item hitem
      have hcreated := h.created (List.ne_nil_of_mem hitem)
      rw [← hold, hnew, hid] at hcreated
      exact hA hcreates hcreated

/-! ### One reconnect -/

/-- A machine is subscribed, the session is lost, and the client connects again. -/
def reconnectHeld : List (SharedStep Bool) :=
  [.connect 0 ⟨0, 1⟩, .subscribe false 0 ⟨"urn:a", "s=Value"⟩ ⟨0, 1, 1⟩, .checkConnection false,
    .connect 0 ⟨0, 2⟩]

/-- The same with the machine unsubscribed before the session is lost. -/
def reconnectReleased : List (SharedStep Bool) :=
  [.connect 0 ⟨0, 1⟩, .subscribe false 0 ⟨"urn:a", "s=Value"⟩ ⟨0, 1, 1⟩, .unsubscribe false,
    .checkConnection false, .connect 0 ⟨0, 2⟩]

/-- **A handle outlives its subscription**: after the reconnect the client is connected and the
machine holds a handle, but the only monitored item is one of the first subscription. -/
theorem not_alive_reconnectHeld :
    Along (step emptyServer fun _ => "") (ServerAnswers fun _ => "") (start 1 0) reconnectHeld ∧
      ¬ Throughout (step emptyServer fun _ => "") Alive (start 1 0) reconnectHeld := by
  refine ⟨⟨fun _ => by decide, fun _ => by decide +kernel, trivial, fun _ => by decide +kernel,
    trivial⟩, fun h => ?_⟩
  have halive := throughout_iff_forall_prefix.mp h _ List.prefix_rfl
  have hconn : (run (step emptyServer fun _ => "") (start 1 0)
      reconnectHeld).opcUa.isConnected = true := by decide +kernel
  have hheld : (run (step emptyServer fun _ => "") (start 1 0) reconnectHeld).held false =
      [⟨1, 1, ⟨"urn:a", "s=Value"⟩⟩] := by decide +kernel
  have hids : (run (step emptyServer fun _ => "") (start 1 0) reconnectHeld).live.map
      LiveItem.subscriptionId = [1] := by decide +kernel
  have hid : (run (step emptyServer fun _ => "") (start 1 0)
      reconnectHeld).opcUa.subscription.subscriptionId = 2 := by decide +kernel
  obtain ⟨item, hitem, -, -, hnew⟩ := halive hconn false _ (hheld ▸ List.mem_singleton_self _)
  have hmem := List.mem_map_of_mem (f := LiveItem.subscriptionId) hitem
  rw [hids, List.mem_singleton, hnew, hid] at hmem
  exact absurd hmem (by decide)

theorem alive_reconnectReleased :
    Throughout (step emptyServer fun _ => "") Alive (start 1 0) reconnectReleased := by
  have hserver : Along (step emptyServer fun _ => "") (ServerAnswers fun _ => "") (start 1 0)
      reconnectReleased :=
    ⟨fun _ => by decide, fun _ => by decide +kernel, trivial, trivial, fun _ => by decide +kernel,
      trivial⟩
  exact (alive_throughout_iff emptyServer (fun _ => "") 1 0 hserver).mpr
    ⟨fun _ _ => rfl, trivial, trivial, trivial, fun _ => (by decide +kernel), trivial⟩

end SharedSystem

end UmatiDashboard
