import Mathlib.Algebra.Group.Nat.Defs
import UmatiDashboard.OpcUaClient.Callbacks

/-!
# Where notifications are delivered

A notification names the client handle of its monitored item and runs the callback that is filed
under it. The handles are numbers of a counter that is shared by all clients, so as long as the
counter has not come round, the callback is the one that the variable was subscribed with or there
is none (`notifications_delivered`). There is none exactly if a client was unsubscribed since with a
monitored item of that number, because unsubscribing takes these numbers for client handles.
-/

namespace UmatiDashboard

namespace SharedSystem

open Transition

variable {ι : Type} {s : SharedSystem ι}

/-- The callback that a notification for this client handle runs. -/
def delivers (s : SharedSystem ι) (clientHandle : Int32) : Option NewValueCallback :=
  s.opcUa.subscription.dataChange clientHandle

/-- The step drops the callback under this key: a client is unsubscribed that has a monitored item
of this number. -/
def Drops (key : Int32) (s : SharedSystem ι) : SharedStep ι → Prop
  | .unsubscribe i => ∃ own ∈ s.live, own.owner = i ∧ own.monitoredItemId.toInt32 = key
  | _ => False

instance [DecidableEq ι] (key : Int32) (s : SharedSystem ι) :
    (k : SharedStep ι) → Decidable (Drops key s k)
  | .unsubscribe i =>
    inferInstanceAs (Decidable (∃ own ∈ s.live, own.owner = i ∧ own.monitoredItemId.toInt32 = key))
  | .connect .. | .checkConnection _ | .subscribe .. | .notify _ =>
    inferInstanceAs (Decidable False)

variable (statusName : UInt32 → String) in
/-- The step subscribes a variable for `ptr`, and its client handle is this key. -/
def Files (key : Int32) (ptr : NodePtr) (s : SharedSystem ι) (k : SharedStep ι) : Prop :=
  ∃ i nodeId answer, k = .subscribe i ptr nodeId answer ∧ s.Makes statusName i nodeId answer ∧
    (s.newItem i nodeId answer).callbackKey = key

/-- The steps that may take a client handle. -/
def isSubscribe : SharedStep ι → Bool
  | .subscribe .. => true
  | _ => false

theorem countP_isSubscribe_cons (k : SharedStep ι) (ks : List (SharedStep ι)) :
    (k :: ks).countP isSubscribe = [k].countP isSubscribe + ks.countP isSubscribe := by
  rw [← List.countP_append, List.singleton_append]

/-- The client handle that is taken after `j` others. -/
def handleOf (first : UInt32) (j : ℕ) : Int32 := (first + UInt32.ofNat j).toInt32

/-- Before the counter comes round no handle is taken twice. -/
theorem handleOf_ne {first : UInt32} {j m : ℕ} (hj : j < m) (hm : m < 2 ^ 32) :
    handleOf first j ≠ handleOf first m := by
  intro heq
  have hnum : first + UInt32.ofNat j = first + UInt32.ofNat m := by
    simpa [handleOf] using congrArg Int32.toUInt32 heq
  have hnat := congrArg UInt32.toNat ((UInt32.add_right_inj first).mp hnum)
  rw [UInt32.toNat_ofNat_of_lt' (Nat.lt_trans hj hm), UInt32.toNat_ofNat_of_lt' hm] at hnat
  omega

/-- `m` client handles have been taken, and callbacks are filed under these only. -/
structure Numbered (first : UInt32) (m : ℕ) (s : SharedSystem ι) : Prop where
  nextId : s.opcUa.subscription.nextId = first + UInt32.ofNat m
  given : ∀ key : Int32, key ∈ s.opcUa.subscription.callbacks → ∃ j < m, key = handleOf first j

theorem Numbered.callbackKey {first : UInt32} {m : ℕ} (h : Numbered first m s) (i : ι)
    (nodeId : NodeId) (answer : MonitoredItemCreateResult) :
    (s.newItem i nodeId answer).callbackKey = handleOf first m := by
  rw [newItem, LiveItem.callbackKey, h.nextId]
  rfl

variable [DecidableEq ι] (base : IDashboardDataClient (OpcUaClient NewValueCallback))
  (statusName : UInt32 → String)

/-- The state after a run. -/
def after (nextId : UInt32) (subscriptionId : Int32) (steps : List (SharedStep ι)) :
    SharedSystem ι :=
  run (step base statusName) (start nextId subscriptionId) steps

/-- No step of the run drops the callback under this key. -/
def Stays (key : Int32) : SharedSystem ι → List (SharedStep ι) → Prop :=
  Along (step base statusName) fun s k => ¬ Drops key s k

/-! ### One step -/

/-- A step takes no client handle and files nothing, or it takes one to subscribe a variable. -/
theorem nextId_step (s : SharedSystem ι) (k : SharedStep ι) :
    ((s.step base statusName k).opcUa.subscription.nextId = s.opcUa.subscription.nextId ∧
        ∀ key ptr, ¬ Files statusName key ptr s k) ∨
      (isSubscribe k = true ∧ (s.step base statusName k).opcUa.subscription.nextId =
        s.opcUa.subscription.nextId + 1) := by
  cases k with
  | connect result response =>
    exact .inl ⟨s.opcUa.nextId_threadConnectExecution result response, by simp [Files]⟩
  | checkConnection sessionIsConnected =>
    exact .inl ⟨congrArg Subscription.nextId (s.opcUa.subscription_checkConnection _),
      by simp [Files]⟩
  | notify clientHandle => exact .inl ⟨rfl, by simp [Files]⟩
  | unsubscribe i => exact .inl ⟨rfl, by simp [Files]⟩
  | subscribe i ptr nodeId answer =>
    cases hsub : DashboardClient.isSubscribed (s.clients i) nodeId with
    | true =>
      refine .inl ⟨?_, ?_⟩
      · simp only [step, run_subscribeValue_of_subscribed hsub, withClient]
      · rintro key ptr' ⟨i', nodeId', answer', hk, hmakes, -⟩
        cases hk
        rw [hmakes.1] at hsub
        cases hsub
    | false =>
      obtain ⟨session, hrun, hworld, -⟩ :=
        run_subscribeValue_of_not base statusName (c := s.opcUa) hsub ptr answer
      refine .inr ⟨rfl, ?_⟩
      simp only [step, hrun, withClient, hworld]
      cases hv : Subscription.validateMonitorItemResult statusName answer with
      | error e => rw [subscribe_of_error statusName hv]
      | ok u => rw [subscribe_of_ok statusName hv]

/-- **What a step does to the callback under a key**: a subscription files one if there is none, and
a step that drops it leaves none. -/
theorem delivers_step (ht : Tracks s) (key : Int32) (k : SharedStep ι) (cb : NewValueCallback) :
    (s.step base statusName k).delivers key = some cb ↔
      s.delivers key = some cb ∧ ¬ Drops key s k ∨
        s.delivers key = none ∧ Files statusName key cb.pNode s k := by
  cases k with
  | connect result response =>
    rw [delivers, Subscription.dataChange, step, s.opcUa.callbacks_threadConnectExecution]
    simp [delivers, Subscription.dataChange, Drops, Files]
  | checkConnection sessionIsConnected =>
    rw [delivers, step, s.opcUa.subscription_checkConnection]
    simp [delivers, Drops, Files]
  | notify clientHandle => simp [step, Drops, Files]
  | unsubscribe i =>
    have hdrops : key ∈ (s.held i).map ValueSubscriptionHandle.clientHandle ↔
        Drops key s (.unsubscribe i) := ht.mem_erased
    have hstep : (s.step base statusName (.unsubscribe i)).delivers key =
        if key ∈ (s.held i).map ValueSubscriptionHandle.clientHandle then none
        else s.delivers key :=
      s.opcUa.subscription.getElem?_callbacks_eraseCallbacks _ key
    rw [hstep]
    split_ifs with hdropped
    · simp [hdrops.mp hdropped, Files]
    · simp [mt hdrops.mpr hdropped, Files]
  | subscribe i ptr nodeId answer =>
    by_cases hmakes : s.Makes statusName i nodeId answer
    · obtain ⟨-, -, hcallbacks, -⟩ := step_subscribe_of_makes base statusName ptr hmakes
      have hfiles : Files statusName key cb.pNode s (.subscribe i ptr nodeId answer) ↔
          (s.newItem i nodeId answer).callbackKey = key ∧ ptr = cb.pNode := by
        constructor
        · rintro ⟨i', nodeId', answer', hk, -, hkey⟩
          cases hk
          exact ⟨hkey, rfl⟩
        · rintro ⟨hkey, rfl⟩
          exact ⟨i, nodeId, answer, rfl, hmakes, hkey⟩
      have hdrops : ¬ Drops key s (.subscribe i ptr nodeId answer) := id
      rw [and_iff_left hdrops, hfiles, delivers, Subscription.dataChange, hcallbacks,
        Std.ExtTreeMap.getElem?_insertIfNew, delivers, Subscription.dataChange]
      generalize (s.newItem i nodeId answer).callbackKey = new
      -- a callback is filed only under a key that has none
      by_cases hkey : new = key
      · subst hkey
        have hmem : new ∈ s.opcUa.subscription.callbacks ↔
            (s.opcUa.subscription.callbacks[new]?).isSome = true :=
          Std.ExtTreeMap.mem_iff_isSome_getElem?
        cases hfound : s.opcUa.subscription.callbacks[new]? with
        | none =>
          obtain ⟨ptr'⟩ := cb
          simp [hmem, hfound]
        | some found => simp [hmem, hfound]
      · simp [hkey]
    · obtain ⟨-, -, hcallbacks, -⟩ := step_subscribe_of_not base statusName ptr hmakes
      have hfiles : ¬ Files statusName key cb.pNode s (.subscribe i ptr nodeId answer) := by
        rintro ⟨i', nodeId', answer', hk, hmakes', -⟩
        cases hk
        exact hmakes hmakes'
      rw [delivers, Subscription.dataChange, hcallbacks]
      simp [delivers, Subscription.dataChange, Drops, hfiles]

/-- The counter of the handles after a step, which files nothing under those taken before. -/
theorem Numbered.step {first : UInt32} {m : ℕ} (h : Numbered first m s) (ht : Tracks s)
    (k : SharedStep ι) :
    ∃ m', m ≤ m' ∧ m' ≤ m + [k].countP isSubscribe ∧
      Numbered first m' (s.step base statusName k) := by
  have hkeys : ∀ key : Int32, key ∈ (s.step base statusName k).opcUa.subscription.callbacks →
      (∃ j < m, key = handleOf first j) ∨
        key = handleOf first m ∧ ∃ ptr, Files statusName key ptr s k := by
    intro key hkey
    obtain ⟨cb, hcb⟩ := Option.isSome_iff_exists.mp
      (Std.ExtTreeMap.mem_iff_isSome_getElem?.mp hkey)
    rcases (delivers_step base statusName ht key k cb).mp hcb with ⟨hold, -⟩ | ⟨-, hnew⟩
    · exact .inl (h.given key (Std.ExtTreeMap.mem_iff_isSome_getElem?.mpr
        (Option.isSome_of_eq_some hold)))
    · refine .inr ⟨?_, _, hnew⟩
      obtain ⟨i, nodeId, answer, -, -, rfl⟩ := hnew
      exact h.callbackKey i nodeId answer
  rcases nextId_step base statusName s k with ⟨hsame, hnone⟩ | ⟨hsubscribe, hnext⟩
  · refine ⟨m, Nat.le_refl m, Nat.le_add_right _ _, ⟨hsame.trans h.nextId, fun key hkey => ?_⟩⟩
    rcases hkeys key hkey with hold | ⟨-, ptr, hnew⟩
    · exact hold
    · exact absurd hnew (hnone key ptr)
  · refine ⟨m + 1, Nat.le_succ m, by simp [hsubscribe], ⟨?_, fun key hkey => ?_⟩⟩
    · rw [hnext, h.nextId, UInt32.ofNat_add, UInt32.add_assoc]
      rfl
    · rcases hkeys key hkey with ⟨j, hj, heq⟩ | ⟨heq, -⟩
      · exact ⟨j, Nat.lt_succ_of_lt hj, heq⟩
      · exact ⟨m, Nat.lt_succ_self m, heq⟩

/-- **A subscription before the counter comes round** finds its handle free, and files its
callback. -/
theorem Numbered.delivers_of_files {first : UInt32} {m : ℕ} (h : Numbered first m s)
    (ht : Tracks s) (hm : m < 2 ^ 32) {key : Int32} {ptr : NodePtr} {k : SharedStep ι}
    (hfiles : Files statusName key ptr s k) (cb : NewValueCallback) :
    (s.step base statusName k).delivers key = some cb ↔ cb = ⟨ptr⟩ := by
  rw [delivers_step base statusName ht]
  obtain ⟨i, nodeId, answer, rfl, hmakes, rfl⟩ := hfiles
  have hnone : s.delivers (s.newItem i nodeId answer).callbackKey = none := by
    rw [Option.eq_none_iff_forall_ne_some]
    intro old hold
    obtain ⟨j, hj, heq⟩ := h.given _ (Std.ExtTreeMap.mem_iff_isSome_getElem?.mpr
      (Option.isSome_of_eq_some hold))
    rw [h.callbackKey] at heq
    exact handleOf_ne hj hm heq.symm
  rw [hnone]
  constructor
  · rintro (⟨hold, -⟩ | ⟨-, i', nodeId', answer', hk, -, -⟩)
    · cases hold
    · cases hk
      rfl
  · rintro rfl
    exact .inr ⟨rfl, i, nodeId, answer, rfl, hmakes, rfl⟩

omit [DecidableEq ι] in
theorem numbered_start (nextId : UInt32) (subscriptionId : Int32) :
    Numbered nextId 0 (start nextId subscriptionId : SharedSystem ι) where
  nextId := by simp [start]
  given := by simp [start]

/-! ### Runs -/

theorem numbered_run {first : UInt32} {steps : List (SharedStep ι)} :
    ∀ {s : SharedSystem ι} {m : ℕ}, Numbered first m s → Tracks s →
      ∃ m', m ≤ m' ∧ m' ≤ m + steps.countP isSubscribe ∧
        Numbered first m' (run (step base statusName) s steps) := by
  induction steps with
  | nil => exact fun {_ m} h _ => ⟨m, Nat.le_refl m, Nat.le_refl m, h⟩
  | cons k ks ih =>
    intro s m h ht
    obtain ⟨m₁, hle₁, hcount₁, h₁⟩ := h.step base statusName ht k
    obtain ⟨m₂, hle₂, hcount₂, h₂⟩ := ih h₁ (ht.step base statusName k)
    have hcons := countP_isSubscribe_cons k ks
    exact ⟨m₂, Nat.le_trans hle₁ hle₂, by omega, h₂⟩

theorem tracks_run {steps : List (SharedStep ι)} (ht : Tracks s) :
    Tracks (run (step base statusName) s steps) :=
  run_of_invariant (fun _ k h => h.step base statusName k) ht

/-- A callback under a handle that was taken stays until it is dropped: before the counter comes
round no other one is filed under it. -/
theorem delivers_run_of_taken {first : UInt32} {j : ℕ} {cb : NewValueCallback}
    {steps : List (SharedStep ι)} : ∀ {s : SharedSystem ι} {m : ℕ}, Numbered first m s →
      Tracks s → j < m → m + steps.countP isSubscribe ≤ 2 ^ 32 →
      ((run (step base statusName) s steps).delivers (handleOf first j) = some cb ↔
        s.delivers (handleOf first j) = some cb ∧
          Stays base statusName (handleOf first j) s steps) := by
  induction steps with
  | nil => exact fun _ _ _ _ => ⟨fun h => ⟨h, trivial⟩, And.left⟩
  | cons k ks ih =>
    intro s m h ht hj hfew
    have hcons := countP_isSubscribe_cons k ks
    obtain ⟨m₁, hle₁, hcount₁, h₁⟩ := h.step base statusName ht k
    have hfiles : ¬ Files statusName (handleOf first j) cb.pNode s k := by
      rintro ⟨i, nodeId, answer, rfl, -, hkey⟩
      rw [h.callbackKey] at hkey
      have hm : m < 2 ^ 32 := by
        have : [SharedStep.subscribe i cb.pNode nodeId answer].countP isSubscribe = 1 := rfl
        omega
      exact handleOf_ne hj hm hkey.symm
    have hstep := delivers_step base statusName ht (handleOf first j) k cb
    rw [or_iff_left fun hnew => hfiles hnew.2] at hstep
    rw [Stays, Along, ← and_assoc, ← hstep]
    exact ih h₁ (ht.step base statusName k) (Nat.lt_of_lt_of_le hj hle₁) (by omega)

/-- A callback that is found was there before the run, or a step of the run has filed it. -/
theorem exists_files_of_delivers {key : Int32} {cb : NewValueCallback}
    {steps : List (SharedStep ι)} : ∀ {s : SharedSystem ι}, Tracks s →
      (run (step base statusName) s steps).delivers key = some cb →
      (s.delivers key = some cb ∧ Stays base statusName key s steps) ∨
        ∃ pre k post, steps = pre ++ k :: post ∧
          Files statusName key cb.pNode (run (step base statusName) s pre) k ∧
          Stays base statusName key (run (step base statusName) s (pre ++ [k])) post := by
  induction steps with
  | nil => exact fun _ h => .inl ⟨h, trivial⟩
  | cons k ks ih =>
    intro s ht h
    rcases ih (ht.step base statusName k) h with ⟨hfound, hkept⟩ | ⟨pre, k', post, rfl, hfiles⟩
    · rcases (delivers_step base statusName ht key k cb).mp hfound with ⟨hold, hdrop⟩ | ⟨-, hnew⟩
      · exact .inl ⟨hold, hdrop, hkept⟩
      · exact .inr ⟨[], k, ks, rfl, hnew, hkept⟩
    · exact .inr ⟨k :: pre, k', post, rfl, hfiles⟩

/-- **Where notifications are delivered.** After every run, a notification runs a callback only if
a step has filed it under its client handle and no later step has dropped it. In a run with at most
`2 ^ 32` subscriptions also the converse holds: a notification for the handle of a subscription runs
the callback of this subscription and no other one, and it is lost exactly if a client was
unsubscribed since that had a monitored item of the same number. -/
theorem notifications_delivered (nextId : UInt32) (subscriptionId : Int32)
    (steps : List (SharedStep ι)) (key : Int32) :
    (∀ cb, (after base statusName nextId subscriptionId steps).delivers key = some cb →
      ∃ pre k post, steps = pre ++ k :: post ∧
        Files statusName key cb.pNode (after base statusName nextId subscriptionId pre) k ∧
        Stays base statusName key (after base statusName nextId subscriptionId (pre ++ [k])) post) ∧
    (steps.countP isSubscribe ≤ 2 ^ 32 → ∀ pre k post ptr, steps = pre ++ k :: post →
      Files statusName key ptr (after base statusName nextId subscriptionId pre) k →
      ∀ cb, (after base statusName nextId subscriptionId steps).delivers key = some cb ↔
        cb = ⟨ptr⟩ ∧
          Stays base statusName key (after base statusName nextId subscriptionId (pre ++ [k]))
            post) := by
  have hstart : Tracks (start nextId subscriptionId : SharedSystem ι) :=
    tracks_start nextId subscriptionId
  refine ⟨fun cb h => ?_, ?_⟩
  · rcases exists_files_of_delivers base statusName hstart h with ⟨hnone, -⟩ | hfiled
    · simp [delivers, Subscription.dataChange, start] at hnone
    · exact hfiled
  rintro hfew pre k post ptr rfl hfiles cb
  obtain ⟨m, -, hm, hnum⟩ : ∃ m, 0 ≤ m ∧ m ≤ 0 + pre.countP isSubscribe ∧
      Numbered nextId m (after base statusName nextId subscriptionId pre) :=
    numbered_run base statusName (numbered_start nextId subscriptionId) hstart
  have ht : Tracks (after base statusName nextId subscriptionId pre) :=
    tracks_run base statusName hstart
  have hsubscribe : isSubscribe k = true := by
    obtain ⟨i, nodeId, answer, rfl, -⟩ := hfiles
    rfl
  rw [List.countP_append, List.countP_cons, if_pos hsubscribe] at hfew
  have hnew := hnum.delivers_of_files base statusName ht (by omega) hfiles
  -- from there on the handle is taken
  obtain ⟨m₁, -, hm₁, hnum₁⟩ := hnum.step base statusName ht k
  obtain ⟨j, hj, rfl⟩ := hnum₁.given key (Std.ExtTreeMap.mem_iff_isSome_getElem?.mpr
    (Option.isSome_of_eq_some ((hnew ⟨ptr⟩).mpr rfl)))
  have hone : [k].countP isSubscribe = 1 := by simp [hsubscribe]
  have hrun : after base statusName nextId subscriptionId (pre ++ [k]) =
      (after base statusName nextId subscriptionId pre).step base statusName k := by
    simp [after, run]
  rw [hrun, ← hnew cb, ← delivers_run_of_taken base statusName hnum₁
    (ht.step base statusName k) hj (by omega)]
  simp [after, run]

/-- Of the two machines, the one that is left does not hear of its variable any more, and a
notification for the other one would still run its callback. -/
theorem notifications_delivered_unsubscribeFirst :
    let s := after emptyServer (fun _ => "") 1 0 unsubscribeFirst
    s.delivers 1 = some ⟨0⟩ ∧ s.delivers 2 = none := by
  intro s
  have hfew : unsubscribeFirst.countP isSubscribe ≤ 2 ^ 32 := by decide
  have hfirst := (notifications_delivered emptyServer (fun _ => "") 1 0 unsubscribeFirst 1).2 hfew
    (unsubscribeFirst.take 1) _ (unsubscribeFirst.drop 2) 0 rfl
    ⟨false, _, _, rfl, by decide +kernel, by decide +kernel⟩
  have hsecond := (notifications_delivered emptyServer (fun _ => "") 1 0 unsubscribeFirst 2).2 hfew
    (unsubscribeFirst.take 2) _ (unsubscribeFirst.drop 3) 0 rfl
    ⟨true, _, _, rfl, by decide +kernel, by decide +kernel⟩
  refine ⟨(hfirst ⟨0⟩).mpr ⟨rfl, id, by decide +kernel, trivial⟩, ?_⟩
  rw [Option.eq_none_iff_forall_ne_some]
  intro cb hcb
  exact ((hsecond cb).mp hcb).2.1 (by decide +kernel)

end SharedSystem

end UmatiDashboard
