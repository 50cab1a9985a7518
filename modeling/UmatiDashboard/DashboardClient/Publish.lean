import UmatiDashboard.DashboardClient.DashboardClient
import UmatiDashboard.MachineObserver.TopicBytes
import UmatiDashboard.Util.Destutter

/-!
# Publishing the data sets

`publish` sends the JSON of each data set, unless it is the message that was sent last on the
channel and that is not longer ago than ten seconds. The remembered message and its time change
only when a message is sent, so over a whole run of calls, with a clock that may show any time,
the messages on the channel of a data set are the JSON values but for repetitions
(`publishes_every_change`).
-/

namespace UmatiDashboard

/-- `LastMessage_t`, the message that was sent last on a channel. -/
structure LastMessage where
  payload : String := ""
  lastSent : Int := 0

/-- A message given to the publisher. -/
structure Message where
  channel : String
  payload : String
  deriving DecidableEq

/-- What `Publish` works on: its table of messages, what the publisher was given so far, and the
readings of the clock that are still to come. -/
structure PublishState where
  latestMessages : Std.ExtTreeMap String LastMessage compare
  sent : List Message
  clock : ℕ → Int

/-- The two channels of a machine are different, unless its type is called `online`. -/
theorem Topics.machine_ne_onlineStatus (t : Topics) {specification : String}
    (h : specification ≠ "online") (machineId machineId' : String) :
    t.machine specification machineId ≠ t.onlineStatus machineId' := by
  intro heq
  have hlist : (t.topicPrefix ++ "/" ++ t.clientId ++ "/" ++ specification).toList ++
      '/' :: (idEncode machineId).toList =
      (t.topicPrefix ++ "/" ++ t.clientId ++ "/" ++ "online").toList ++
        '/' :: (idEncode machineId').toList := by
    have := congrArg String.toList heq
    simpa [machine, onlineStatus] using this
  have hfront := (RawTopics.cut_inj (slash_not_mem_idEncode machineId)
    (slash_not_mem_idEncode machineId') hlist).1
  simp only [String.toList_append] at hfront
  exact h (String.toList_inj.mp (List.append_cancel_left hfront))

namespace DashboardClient

/-! ### One call -/

/-- A computation of `Publish`. -/
abbrev PublishM : Type → Type := Prog Exception PublishState

/-- The time is read. -/
def time : PublishM Int := fun s => (.ok (s.clock 0), { s with clock := fun n => s.clock (n + 1) })

/-- The publisher is given a message. -/
def send (channel payload : String) : PublishM Unit :=
  .modify fun s => { s with sent := s.sent ++ [⟨channel, payload⟩] }

/-- `m_latestMessages[channel]`, which enters an empty message if there is none. -/
def latestMessage (channel : String) : PublishM LastMessage := fun s =>
  (.ok ((s.latestMessages[channel]?).getD {}),
    { s with latestMessages := s.latestMessages.insertIfNew channel {} })

@[simp] theorem ends_time {s : PublishState} {Q : Outcome Exception Int → PublishState → Prop} :
    time.Ends s Q ↔ Q (.ok (s.clock 0)) { s with clock := fun n => s.clock (n + 1) } := Iff.rfl

@[simp] theorem ends_send {s : PublishState} {channel payload : String}
    {Q : Outcome Exception Unit → PublishState → Prop} :
    (send channel payload).Ends s Q ↔
      Q (.ok ()) { s with sent := s.sent ++ [⟨channel, payload⟩] } := Iff.rfl

@[simp] theorem ends_latestMessage {s : PublishState} {channel : String}
    {Q : Outcome Exception LastMessage → PublishState → Prop} :
    (latestMessage channel).Ends s Q ↔ Q (.ok ((s.latestMessages[channel]?).getD {}))
      { s with latestMessages := s.latestMessages.insertIfNew channel {} } := Iff.rfl

/-- The JSON of a data set is published, and that its machine is online. -/
def publishDataSet (pDataSetStorage : DataSetStorage) (jsonPayload : String) : PublishM Unit :=
  if jsonPayload ≠ "" ∧ jsonPayload ≠ "null" then do
    let lastMessage ← latestMessage pDataSetStorage.channel
    let now ← time
    if jsonPayload ≠ lastMessage.payload ∨ now - lastMessage.lastSent > 10 then do
      send pDataSetStorage.channel jsonPayload
      .modify fun s => { s with
        latestMessages := s.latestMessages.insert pDataSetStorage.channel ⟨jsonPayload, now⟩ }
    else pure ()
    send pDataSetStorage.onlineChannel "1"
  else pure ()

variable (dump : Json → Except Exception String)

/-- The text of a data set's JSON, by the library's `dump`. -/
def jsonPayload (pDataSetStorage : DataSetStorage) : Except Exception String := do
  let json ← getJson pDataSetStorage
  dump json

def publish (dataSets : List DataSetStorage) : PublishM Unit :=
  Prog.forEach (fun pDataSetStorage => do
    let jsonPayload ← Prog.call fun s => (jsonPayload dump pDataSetStorage, s)
    publishDataSet pDataSetStorage jsonPayload) dataSets

/-! ### Runs of one data set -/

/-- The values that a data set has at some moment. -/
abbrev Values : Type := Std.ExtTreeMap NodePtr Json compare

/-- Calls of `Publish` one after the other, with the values that the data set has in each. A call
that throws leaves what it has sent. -/
def publishes (d : DataSetStorage) : List Values → PublishState → PublishState
  | [], s => s
  | values :: rest, s => publishes d rest ((publish dump [{ d with values := values }]).run s).2

/-- The JSON of the data set, if there is one that is neither empty nor null. -/
def shownPayload (d : DataSetStorage) (values : Values) : Option String :=
  match jsonPayload dump { d with values := values } with
  | .ok payload => if payload ≠ "" ∧ payload ≠ "null" then some payload else none
  | .error _ => none

/-- The messages on a channel. -/
def sentOn (channel : String) (s : PublishState) : List String :=
  (s.sent.filter fun m => m.channel = channel).map Message.payload

/-- A client that has published nothing so far, and a clock. -/
def unpublished (clock : ℕ → Int) : PublishState := ⟨∅, [], clock⟩

/-- No change of the data set is hidden: each call whose JSON is neither empty nor null leaves it as
the last message, and but for repetitions the messages are the JSON values. -/
structure PublishesChanges (d : DataSetStorage) (clock : ℕ → Int) (calls : List Values) : Prop where
  last : ∀ earlier values later, calls = earlier ++ values :: later →
    ∀ payload, shownPayload dump d values = some payload →
      (sentOn d.channel (publishes dump d (earlier ++ [values]) (unpublished clock))).getLast? =
        some payload
  stream : (sentOn d.channel (publishes dump d calls (unpublished clock))).destutter (· ≠ ·) =
    (calls.filterMap (shownPayload dump d)).destutter (· ≠ ·)

/-! ### What the messages are after some calls -/

variable {dump} {d : DataSetStorage} {payloads : List String} {s : PublishState}

/-- On the channel are the messages `payloads`, but for repetitions, and the last one is
remembered. -/
structure Tracks (d : DataSetStorage) (payloads : List String) (s : PublishState) : Prop where
  stream : (sentOn d.channel s).destutter (· ≠ ·) = payloads.destutter (· ≠ ·)
  last : (sentOn d.channel s).getLast? = payloads.getLast?
  remembered : ((s.latestMessages[d.channel]?).getD {}).payload = payloads.getLast?.getD ""

theorem tracks_unpublished (clock : ℕ → Int) : Tracks d [] (unpublished clock) where
  stream := rfl
  last := rfl
  remembered := by simp [unpublished]

theorem sentOn_of_sent {channel : String} {s s' : PublishState} {messages : List Message}
    (h : s'.sent = s.sent ++ messages) :
    sentOn channel s' =
      sentOn channel s ++ (messages.filter fun m => m.channel = channel).map Message.payload := by
  simp [sentOn, h]

/-- The message is sent, and remembered. -/
theorem Tracks.sent (h : Tracks d payloads s) (hchannels : d.channel ≠ d.onlineChannel)
    {payload : String} {now : Int} {s' : PublishState}
    (hsent : s'.sent = s.sent ++ [⟨d.channel, payload⟩, ⟨d.onlineChannel, "1"⟩])
    (hlatest : s'.latestMessages[d.channel]? = some ⟨payload, now⟩) :
    Tracks d (payloads ++ [payload]) s' := by
  have hon : sentOn d.channel s' = sentOn d.channel s ++ [payload] := by
    rw [sentOn_of_sent hsent]
    simp [hchannels.symm]
  refine ⟨?_, ?_, ?_⟩
  · rw [hon, destutter_concat_congr h.stream h.last]
  · rw [hon, List.getLast?_concat, List.getLast?_concat]
  · rw [hlatest, List.getLast?_concat]
    rfl

/-- The message is not sent, as it is the last one. -/
theorem Tracks.kept (h : Tracks d payloads s) (hchannels : d.channel ≠ d.onlineChannel)
    {payload : String} {s' : PublishState} (hlast : payloads.getLast? = some payload)
    (hsent : s'.sent = s.sent ++ [⟨d.onlineChannel, "1"⟩])
    (hlatest : (s'.latestMessages[d.channel]?).getD {} = (s.latestMessages[d.channel]?).getD {}) :
    Tracks d (payloads ++ [payload]) s' := by
  have hon : sentOn d.channel s' = sentOn d.channel s := by
    rw [sentOn_of_sent hsent]
    simp [hchannels.symm]
  refine ⟨?_, ?_, ?_⟩
  · rw [hon, destutter_concat_last hlast, h.stream]
  · rw [hon, List.getLast?_concat, h.last, hlast]
  · rw [hlatest, h.remembered, hlast, List.getLast?_concat]

/-- The message was sent last, and is remembered. -/
theorem Tracks.getLast?_of_remembered (h : Tracks d payloads s) {payload : String}
    (hne : payload ≠ "") (hpayload : payload = ((s.latestMessages[d.channel]?).getD {}).payload) :
    payloads.getLast? = some payload := by
  rw [h.remembered] at hpayload
  cases hlast : payloads.getLast? with
  | none => exact absurd (by simpa [hlast] using hpayload) hne
  | some last => rw [hpayload, hlast, Option.getD_some]

/-- An empty message is what an entry that is missing is read as. -/
theorem getD_insertIfNew (messages : Std.ExtTreeMap String LastMessage compare)
    (channel : String) :
    ((messages.insertIfNew channel {})[channel]?).getD {} = (messages[channel]?).getD {} := by
  rw [Std.ExtTreeMap.getElem?_insertIfNew]
  split_ifs with hnew
  · rw [Std.ExtTreeMap.getElem?_eq_none hnew.2]
    rfl
  · rfl

/-- **One message**: it is sent unless it was sent last. -/
theorem Tracks.publishDataSet (h : Tracks d payloads s) (hchannels : d.channel ≠ d.onlineChannel)
    {payload : String} (hpayload : payload ≠ "" ∧ payload ≠ "null") :
    (publishDataSet d payload).Ends s fun _ s' => Tracks d (payloads ++ [payload]) s' := by
  rw [DashboardClient.publishDataSet, if_pos hpayload]
  simp only [Prog.ends_bind, ends_latestMessage, Outcome.follow_ok, ends_time]
  split_ifs with hsend
  · exact h.sent hchannels (List.append_assoc _ _ _) Std.ExtTreeMap.getElem?_insert_self
  · obtain ⟨hsame, -⟩ := not_or.mp hsend
    have hlast := h.getLast?_of_remembered hpayload.1 (not_not.mp hsame)
    exact h.kept hchannels hlast rfl (getD_insertIfNew s.latestMessages d.channel)

/-- **One call.** -/
theorem Tracks.publish (h : Tracks d payloads s) (hchannels : d.channel ≠ d.onlineChannel)
    (values : Values) :
    Tracks d (payloads ++ (shownPayload dump d values).toList)
      ((publish dump [{ d with values := values }]).run s).2 := by
  have hends : (DashboardClient.publish dump [{ d with values := values }]).Ends s fun _ s' =>
      Tracks d (payloads ++ (shownPayload dump d values).toList) s' := by
    simp only [DashboardClient.publish, Prog.forEach, Prog.ends_bind, Prog.ends_call, shownPayload]
    cases hpayload : jsonPayload dump { d with values := values } with
    | error e => simp [h]
    | ok payload =>
      refine ⟨fun a s' hs' => ?_, fun e s' hs' => by cases hs'⟩
      cases hs'
      rw [Outcome.follow_ok]
      by_cases hshown : payload ≠ "" ∧ payload ≠ "null"
      · simp only [if_pos hshown, Option.toList_some]
        refine Prog.Ends.mono (h.publishDataSet hchannels hshown) fun out s' hs' => ?_
        cases out with
        | ok _ => exact hs'
        | throw e => exact hs'
        | stuck w => exact hs'
      · simp only [if_neg hshown, Option.toList_none, List.append_nil]
        rw [DashboardClient.publishDataSet, if_neg hshown]
        exact h
  exact hends

/-- A run of calls. -/
theorem Tracks.publishes (hchannels : d.channel ≠ d.onlineChannel) :
    ∀ (calls : List Values) {payloads : List String} {s : PublishState}, Tracks d payloads s →
      Tracks d (payloads ++ calls.filterMap (shownPayload dump d)) (publishes dump d calls s)
  | [], payloads, s, h => by
    rw [List.filterMap_nil, List.append_nil]
    exact h
  | values :: rest, payloads, s, h => by
    have hcall : Tracks d (payloads ++ (shownPayload dump d values).toList) _ :=
      h.publish hchannels values
    have hrest := Tracks.publishes hchannels rest hcall
    rw [DashboardClient.publishes]
    cases hshown : shownPayload dump d values with
    | none => simpa [hshown] using hrest
    | some payload => simpa [hshown] using hrest

/-- **Every change is published**, if the data set and the state of its machine have channels of
their own. -/
theorem publishes_every_change (dump : Json → Except Exception String) (d : DataSetStorage)
    (hchannels : d.channel ≠ d.onlineChannel) (clock : ℕ → Int) (calls : List Values) :
    PublishesChanges dump d clock calls where
  last earlier values later _ payload hpayload := by
    have htracks : Tracks d ([] ++ (earlier ++ [values]).filterMap (shownPayload dump d)) _ :=
      Tracks.publishes hchannels (earlier ++ [values]) (tracks_unpublished clock)
    rw [htracks.last]
    simp [hpayload]
  stream := (Tracks.publishes hchannels calls (tracks_unpublished clock)).stream

/-! ### A machine with one variable -/

namespace Spindle

def topics : Topics := ⟨"umati/v2", "shop"⟩

/-- The text of a string, and of null. -/
def dumpText : Json → Except Exception String
  | .string text => .ok ("\"" ++ text ++ "\"")
  | _ => .ok "null"

/-- The data set of the machine, whose type has this name. -/
def dataSet (specification : String) : DataSetStorage where
  startNodeId := ⟨"urn:spindle", "i=1"⟩
  channel := topics.machine specification "nsu=urn:spindle;i=1"
  onlineChannel := topics.onlineStatus "nsu=urn:spindle;i=1"
  node := .simple ⟨.mandatory, .variable, WellKnown.hasComponent, ⟨"", "i=63"⟩,
    ⟨"urn:spindle", "State"⟩⟩ 0 ⟨"urn:spindle", "i=1"⟩ ⟨"", "i=63"⟩ true []
  values := ∅

/-- The machine is running. -/
def running : Values := (∅ : Values).insert 0 (.string "running")

end Spindle

open Spindle in
/-- A type of another name. -/
theorem publishes_every_change_spindle :
    (dataSet "SpindleType").channel ≠ (dataSet "SpindleType").onlineChannel ∧
      PublishesChanges dumpText (dataSet "SpindleType") (fun _ => 0) [running, ∅, running] :=
  have hchannels := Topics.machine_ne_onlineStatus topics (by decide) _ _
  ⟨hchannels, publishes_every_change dumpText (dataSet "SpindleType") hchannels (fun _ => 0) _⟩

open Spindle in
/-- With a type called `online` the last message says that the machine is online. -/
theorem not_publishes_every_change :
    ¬ ∀ (dump : Json → Except Exception String) (d : DataSetStorage) (clock : ℕ → Int)
      (calls : List Values), PublishesChanges dump d clock calls := by
  intro hall
  have hlast := (hall dumpText (dataSet "online") (fun _ => 0) [running]).last [] running [] rfl
    "\"running\"" (by decide +kernel)
  have hsent : (sentOn (dataSet "online").channel
      (publishes dumpText (dataSet "online") [running] (unpublished fun _ => 0))).getLast? =
        some "1" := by
    decide +kernel
  rw [List.nil_append, hsent] at hlast
  exact absurd (Option.some.inj hlast) (by decide)

end DashboardClient

end UmatiDashboard
