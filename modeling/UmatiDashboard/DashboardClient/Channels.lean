import UmatiDashboard.DashboardClient.Publish
import UmatiDashboard.Effect.Throttle

/-!
# The channels of a dashboard client

A dashboard client has any number of data sets, and they may come and go between two calls of
`Publish`. A call goes through the data sets in order and ends early when rendering one of them
throws. It shows each data set whose JSON is neither empty nor null, and reads the clock once for
each of these.

On a channel that is not also one for the state of a machine, the messages are then the payloads
shown on this channel, throttled with a window of ten seconds, whatever is shown on the others; and
on a channel for the state of a machine there is one message for each data set shown
(`channels_throttled`).
-/

namespace UmatiDashboard

namespace DashboardClient

open Throttle

/-- A data set that is shown: its two channels, and its JSON. -/
structure Showing where
  channel : String
  onlineChannel : String
  payload : String

section Definitions

variable (dump : Json → Except Exception String)

/-- The data sets that a call shows. -/
def shownByCall : List DataSetStorage → List Showing
  | [] => []
  | d :: rest =>
    match jsonPayload dump d with
    | .error _ => []
    | .ok payload =>
      (if payload ≠ "" ∧ payload ≠ "null" then [⟨d.channel, d.onlineChannel, payload⟩] else []) ++
        shownByCall rest

/-- Calls of `Publish` one after the other, with the data sets that the client has in each. -/
def publishCalls (calls : List (List DataSetStorage)) (s : PublishState) : PublishState :=
  calls.foldl (fun s dataSets => ((publish dump dataSets).run s).2) s

/-- Each is shown at the next reading of the clock. -/
def timed (clock : ℕ → ℤ) (n : ℕ) (shown : List Showing) : List (Showing × ℤ) :=
  (shown.zipIdx n).map fun p => (p.1, clock p.2)

/-- What some calls show. -/
def showings (clock : ℕ → ℤ) (calls : List (List DataSetStorage)) : List (Showing × ℤ) :=
  timed clock 0 (calls.flatMap (shownByCall dump))

/-- What is shown on a channel. -/
def shownOn (channel : String) (shown : List (Showing × ℤ)) : List (String × ℤ) :=
  (shown.filter fun p => p.1.channel = channel).map fun p => (p.1.payload, p.2)

end Definitions

/-! ### Time passes -/

section Timed

variable {clock : ℕ → ℤ}

theorem timed_append (n : ℕ) (shown shown' : List Showing) :
    timed clock n (shown ++ shown') =
      timed clock n shown ++ timed clock (n + shown.length) shown' := by
  rw [timed, List.zipIdx_append, List.map_append]
  rfl

@[simp] theorem length_timed (n : ℕ) (shown : List Showing) :
    (timed clock n shown).length = shown.length := by
  rw [timed, List.length_map, List.length_zipIdx]

theorem shownOn_concat (channel : String) (shown : List (Showing × ℤ)) (p : Showing × ℤ) :
    shownOn channel (shown ++ [p]) = if p.1.channel = channel
      then shownOn channel shown ++ [(p.1.payload, p.2)] else shownOn channel shown := by
  by_cases h : p.1.channel = channel
  · simp [shownOn, h]
  · simp [shownOn, h]

end Timed

/-! ### What is sent and remembered -/

/-- What the client remembers of a channel. -/
def remembered (s : PublishState) (channel : String) : LastMessage :=
  (s.latestMessages[channel]?).getD {}

/-- What the throttled stream ends with, as the client remembers it. -/
def lastOf (sent : List (String × ℤ)) : LastMessage :=
  (sent.getLast?.map fun last => ⟨last.1, last.2⟩).getD {}

/-- The client has shown `shown` so far. -/
structure Published (clock : ℕ → ℤ) (shown : List (Showing × ℤ)) (s : PublishState) : Prop where
  clock : ∀ n, s.clock n = clock (shown.length + n)
  remembered : ∀ channel, remembered s channel = lastOf (throttle 10 (shownOn channel shown))
  sent : ∀ channel, (∀ p ∈ shown, p.1.onlineChannel ≠ channel) →
    sentOn channel s = (throttle 10 (shownOn channel shown)).map Prod.fst
  online : ∀ channel, (∀ p ∈ shown, p.1.channel ≠ channel) →
    sentOn channel s = (shown.filter fun p => p.1.onlineChannel = channel).map fun _ => "1"

theorem published_unpublished (clock : ℕ → ℤ) : Published clock [] (unpublished clock) where
  clock n := by rw [List.length_nil, Nat.zero_add]; rfl
  remembered channel := by simp [DashboardClient.remembered, unpublished, shownOn, lastOf]
  sent channel _ := rfl
  online channel _ := rfl

/-- Whether the client sends a message is whether the throttled stream lets it through. -/
theorem due_iff (sent : List (String × ℤ)) {payload : String} (h : payload ≠ "") (now : ℤ) :
    (payload ≠ (lastOf sent).payload ∨ now - (lastOf sent).lastSent > 10) ↔
      due 10 (payload, now) sent.getLast? = true := by
  rw [lastOf]
  cases sent.getLast? with
  | none => exact iff_of_true (.inl h) rfl
  | some last => simp [due]

section Steps

variable {clock : ℕ → ℤ} {shown : List (Showing × ℤ)} {s s' : PublishState}
  {d : DataSetStorage} {payload : String}

/-- The data set is sent if that is due, and so is the state of its machine in any case. -/
structure ShowsOne (isDue : Prop) [Decidable isDue] (x : Showing) (now : ℤ) (s s' : PublishState) :
    Prop where
  clock : ∀ n, s'.clock n = s.clock (n + 1)
  sent : s'.sent =
    s.sent ++ ((if isDue then [⟨x.channel, x.payload⟩] else []) ++ [⟨x.onlineChannel, "1"⟩])
  remembered : ∀ channel, remembered s' channel =
    if isDue ∧ x.channel = channel then ⟨x.payload, now⟩ else remembered s channel

/-- The client has published what it has shown, if it sends what the throttled stream lets
through. -/
theorem Published.showsOne (h : Published clock shown s) {x : Showing} {now : ℤ}
    (hone : ShowsOne
      (due 10 (x.payload, now) (throttle 10 (shownOn x.channel shown)).getLast? = true)
      x now s s') :
    Published clock (shown ++ [(x, now)]) s' where
  clock n := by
    rw [hone.clock, h.clock, List.length_append, List.length_singleton, Nat.add_assoc,
      Nat.add_comm 1]
  remembered channel := by
    rw [hone.remembered, shownOn_concat, h.remembered]
    -- only the channel that is shown gets a new last message
    by_cases hchannel : x.channel = channel
    · subst hchannel
      rw [if_pos rfl, throttle_concat]
      split_ifs with hboth hdue hdue
      · rw [lastOf, List.getLast?_concat]
        rfl
      · exact absurd hboth.1 hdue
      · exact absurd ⟨hdue, rfl⟩ hboth
      · rfl
    · rw [if_neg (fun hboth => hchannel hboth.2), if_neg hchannel]
  sent channel hsep := by
    have hsep' := h.sent channel fun p hp => hsep p (List.mem_append_left _ hp)
    have honline : x.onlineChannel ≠ channel := hsep (x, now) (by simp)
    -- the online message is sent on another channel
    rw [sentOn_of_sent hone.sent, hsep', shownOn_concat]
    by_cases hchannel : x.channel = channel
    · subst hchannel
      rw [if_pos rfl, throttle_concat]
      split_ifs
      · simp [honline]
      · simp [honline]
    · rw [if_neg hchannel]
      split_ifs
      · simp [honline, hchannel]
      · simp [honline]
  online channel hsep := by
    have hsep' := h.online channel fun p hp => hsep p (List.mem_append_left _ hp)
    have hchannel : x.channel ≠ channel := hsep (x, now) (by simp)
    rw [sentOn_of_sent hone.sent, hsep', List.filter_append, List.map_append]
    by_cases honline : x.onlineChannel = channel
    · split_ifs
      · simp [honline, hchannel]
      · simp [honline]
    · split_ifs
      · simp [honline, hchannel]
      · simp [honline]

/-- Remembering a message. -/
theorem remembered_insert (messages : Std.ExtTreeMap String LastMessage compare)
    (channel channel' : String) (m : LastMessage) :
    (((messages.insertIfNew channel {}).insert channel m)[channel']?).getD {} =
      if channel = channel' then m else (messages[channel']?).getD {} := by
  by_cases heq : channel = channel'
  · subst heq
    rw [if_pos rfl, Std.ExtTreeMap.getElem?_insert_self, Option.getD_some]
  · have hne : ¬ compare channel channel' = .eq := by simpa using heq
    rw [if_neg heq, Std.ExtTreeMap.getElem?_insert, if_neg hne, Std.ExtTreeMap.getElem?_insertIfNew,
      if_neg (fun hnew => hne hnew.1)]

/-- An empty message in the place of none. -/
theorem remembered_insertIfNew (messages : Std.ExtTreeMap String LastMessage compare)
    (channel channel' : String) :
    ((messages.insertIfNew channel {})[channel']?).getD {} = (messages[channel']?).getD {} := by
  by_cases heq : channel = channel'
  · subst heq
    exact getD_insertIfNew messages channel
  · have hne : ¬ compare channel channel' = .eq := by simpa using heq
    rw [Std.ExtTreeMap.getElem?_insertIfNew, if_neg (fun hnew => hne hnew.1)]

/-- **One data set** that is shown. -/
theorem Published.publishDataSet (h : Published clock shown s)
    (hpayload : payload ≠ "" ∧ payload ≠ "null") :
    (publishDataSet d payload).Ends s fun o s' => o = .ok () ∧
      Published clock
        (shown ++ [(⟨d.channel, d.onlineChannel, payload⟩, clock shown.length)]) s' := by
  have hnow : s.clock 0 = clock shown.length := h.clock 0
  have hdue := due_iff (throttle 10 (shownOn d.channel shown)) hpayload.1 (s.clock 0)
  rw [← h.remembered d.channel] at hdue
  rw [DashboardClient.publishDataSet, if_pos hpayload, ← hnow]
  simp only [Prog.ends_bind, ends_latestMessage, Outcome.follow_ok, ends_time]
  split_ifs with hsend
  · have hyes := hdue.mp hsend
    refine ⟨rfl, h.showsOne ⟨fun _ => rfl, ?_, fun channel => ?_⟩⟩
    · rw [if_pos hyes]
      exact List.append_assoc _ _ _
    · simp only [hyes, true_and]
      exact remembered_insert s.latestMessages d.channel channel _
  · have hno := mt hdue.mpr hsend
    refine ⟨rfl, h.showsOne ⟨fun _ => rfl, ?_, fun channel => ?_⟩⟩
    · rw [if_neg hno]
      rfl
    · rw [if_neg (fun hboth => hno hboth.1)]
      exact remembered_insertIfNew s.latestMessages d.channel channel

variable {dump : Json → Except Exception String}

/-- **One call.** -/
theorem Published.publish (dataSets : List DataSetStorage) (h : Published clock shown s) :
    (DashboardClient.publish dump dataSets).Ends s fun _ s' =>
      Published clock (shown ++ timed clock shown.length (shownByCall dump dataSets)) s' := by
  induction dataSets generalizing shown s with
  | nil =>
    change Published clock (shown ++ []) s
    rw [List.append_nil]
    exact h
  | cons d rest ih =>
    rw [DashboardClient.publish, Prog.forEach_cons, Prog.ends_bind, Prog.ends_bind, Prog.ends_call,
      shownByCall]
    cases hpayload : jsonPayload dump d with
    | error e =>
      refine ⟨fun payload s' hs' => ?_, fun e s' hs' => ?_⟩
      · cases hs'
      · cases hs'
        change Published clock (shown ++ []) s
        rw [List.append_nil]
        exact h
    | ok payload =>
      refine ⟨fun payload' s' hs' => ?_, fun e s' hs' => by cases hs'⟩
      cases hs'
      rw [Outcome.follow_ok]
      by_cases hshown : payload ≠ "" ∧ payload ≠ "null"
      · refine (h.publishDataSet hshown).mono fun o s' hs' => ?_
        obtain ⟨rfl, hfollows⟩ := hs'
        have hrest := ih hfollows
        rw [List.length_append, List.length_singleton, List.append_assoc] at hrest
        simp only [if_pos hshown, timed_append, List.length_singleton]
        exact hrest
      · rw [DashboardClient.publishDataSet, if_neg hshown]
        simp only [if_neg hshown, List.nil_append]
        exact ih h

/-- A run of calls. -/
theorem Published.publishCalls (calls : List (List DataSetStorage)) (h : Published clock shown s) :
    Published clock (shown ++ timed clock shown.length (calls.flatMap (shownByCall dump)))
      (DashboardClient.publishCalls dump calls s) := by
  induction calls generalizing shown s with
  | nil =>
    change Published clock (shown ++ []) s
    rw [List.append_nil]
    exact h
  | cons dataSets rest ih =>
    have hcall : Published clock (shown ++ timed clock shown.length (shownByCall dump dataSets))
        ((DashboardClient.publish dump dataSets).run s).2 := h.publish dataSets
    have hrest := ih hcall
    rw [List.length_append, length_timed, List.append_assoc] at hrest
    rw [List.flatMap_cons, timed_append]
    exact hrest

end Steps

/-- **Every channel is throttled on its own.** After any run of calls, with any data sets in each
and whatever the clock shows: the messages on a channel that no data set shown has for the state of
its machine are the payloads shown on it, throttled with a window of ten seconds. They are the
payloads but for repetitions, a payload shown has been sent in the ten seconds before, and one that
is sent again has been shown more than ten seconds after it was sent. On a channel that no data set
shown has for its JSON there is one message for each data set whose machine it tells to be
online. -/
theorem channels_throttled (dump : Json → Except Exception String) (clock : ℕ → ℤ)
    (calls : List (List DataSetStorage)) (channel : String) :
    ((∀ p ∈ showings dump clock calls, p.1.onlineChannel ≠ channel) →
      sentOn channel (publishCalls dump calls (unpublished clock)) =
          (throttle 10 (shownOn channel (showings dump clock calls))).map Prod.fst ∧
        (sentOn channel (publishCalls dump calls (unpublished clock))).destutter (· ≠ ·) =
          ((shownOn channel (showings dump clock calls)).map Prod.fst).destutter (· ≠ ·) ∧
        (∀ earlier payload now,
          shownOn channel (showings dump clock calls) = earlier ++ [(payload, now)] →
            ∃ t, (throttle 10 (shownOn channel (showings dump clock calls))).getLast? =
              some (payload, t) ∧ now - t ≤ 10) ∧
        (throttle 10 (shownOn channel (showings dump clock calls))).IsChain fun x y =>
          y.1 ≠ x.1 ∨ y.2 - x.2 > 10) ∧
    ((∀ p ∈ showings dump clock calls, p.1.channel ≠ channel) →
      sentOn channel (publishCalls dump calls (unpublished clock)) =
        ((showings dump clock calls).filter fun p => p.1.onlineChannel = channel).map
          fun _ => "1") := by
  have h : Published clock (showings dump clock calls)
      (publishCalls dump calls (unpublished clock)) :=
    (published_unpublished clock).publishCalls calls
  refine ⟨fun hsep => ?_, h.online channel⟩
  have hsent := h.sent channel hsep
  refine ⟨hsent, ?_, fun earlier payload now heq => ?_, isChain_throttle _⟩
  · rw [hsent]
    exact (destutter_throttle _).1
  · rw [heq]
    exact exists_getLast?_throttle (by decide) earlier (payload, now)

end DashboardClient

end UmatiDashboard
