import UmatiDashboard.DashboardClient.Channels
import UmatiDashboard.MachineObserver.Ownership
import UmatiDashboard.MachineObserver.PublishMachinesList
import UmatiDashboard.MachineObserver.TopicBytes

/-!
# Publishing the machines

`PublishAll` calls `Publish` of each dashboard client, and every thirtieth call publishes the lists
of machines. All clients share the publisher and the clock, and each has its own table of messages
and the values its variables have at that time.

The client of a machine that may be seen by the publishing thread has one data set, with the topics
of this machine. So whatever the cycles and the calls of `PublishAll` are and however they are
interleaved, each message but for the lists is either the JSON of a machine on the topic of this
machine or says that it is online, and a machine that has no client has no such message
(`publishRounds_owned`).
-/

namespace UmatiDashboard

/-! ### The topics of different machines -/

namespace Topics

variable {t : Topics}

theorem bytesOf_injective : Function.Injective bytesOf := by
  intro x y h
  exact String.toByteArray_inj.mp (ByteArray.ext (Array.toList_inj.mp h))

/-- A topic of a machine, either kind, determines the machine. -/
theorem machineId_eq {s s' x y : String} (h : t.machine s x = t.machine s' y) : x = y := by
  have hbytes := congrArg bytesOf h
  rw [bytesOf_machine, bytesOf_machine] at hbytes
  exact bytesOf_injective (t.raw.machine_injective2 hbytes).2

theorem onlineStatus_eq_machine (x : String) : t.onlineStatus x = t.machine "online" x := by
  refine bytesOf_injective ?_
  rw [bytesOf_onlineStatus, bytesOf_machine, RawTopics.onlineStatus_eq]

end Topics

namespace Observer

open DashboardClient (Values PublishM Showing shownByCall jsonPayload)

/-! ### One client -/

/-- A message of a data set that is shown. -/
def IsMessageOf (x : Showing) (m : Message) : Prop :=
  m = ⟨x.channel, x.payload⟩ ∨ m = ⟨x.onlineChannel, "1"⟩

/-- These are messages of the data sets shown, and each of them is told to be online. -/
structure AreMessagesOf (shown : List Showing) (messages : List Message) : Prop where
  sound : ∀ m ∈ messages, ∃ x ∈ shown, IsMessageOf x m
  online : ∀ x ∈ shown, ⟨x.onlineChannel, "1"⟩ ∈ messages

theorem areMessagesOf_nil : AreMessagesOf [] [] := ⟨by simp, by simp⟩

theorem AreMessagesOf.append {shown shown' : List Showing} {messages messages' : List Message}
    (h : AreMessagesOf shown messages) (h' : AreMessagesOf shown' messages') :
    AreMessagesOf (shown ++ shown') (messages ++ messages') where
  sound m hm := by
    rcases List.mem_append.mp hm with hm | hm
    · obtain ⟨x, hx, hxm⟩ := h.sound m hm
      exact ⟨x, List.mem_append_left _ hx, hxm⟩
    · obtain ⟨x, hx, hxm⟩ := h'.sound m hm
      exact ⟨x, List.mem_append_right _ hx, hxm⟩
  online x hx := by
    rcases List.mem_append.mp hx with hx | hx
    · exact List.mem_append_left _ (h.online x hx)
    · exact List.mem_append_right _ (h'.online x hx)

section Publish

variable {dump : Json → Except Exception String}

theorem ends_publishDataSet_sent {d : DataSetStorage} {payload : String} {s : PublishState}
    (hpayload : payload ≠ "" ∧ payload ≠ "null") :
    (DashboardClient.publishDataSet d payload).Ends s fun o s' => o = .ok () ∧
      ∃ messages, s'.sent = s.sent ++ messages ∧
        AreMessagesOf [⟨d.channel, d.onlineChannel, payload⟩] messages := by
  rw [DashboardClient.publishDataSet, if_pos hpayload]
  simp only [Prog.ends_bind, DashboardClient.ends_latestMessage, Outcome.follow_ok,
    DashboardClient.ends_time]
  split_ifs
  · refine ⟨rfl, [⟨d.channel, payload⟩, ⟨d.onlineChannel, "1"⟩], List.append_assoc _ _ _, ?_, ?_⟩
    · simp [IsMessageOf]
    · simp
  · refine ⟨rfl, [⟨d.onlineChannel, "1"⟩], rfl, ?_, ?_⟩
    · simp [IsMessageOf]
    · simp

/-- What a call sends. -/
theorem ends_publish_sent (dataSets : List DataSetStorage) (s : PublishState) :
    (DashboardClient.publish dump dataSets).Ends s fun _ s' =>
      ∃ messages, s'.sent = s.sent ++ messages ∧
        AreMessagesOf (shownByCall dump dataSets) messages := by
  induction dataSets generalizing s with
  | nil => exact ⟨[], (List.append_nil _).symm, areMessagesOf_nil⟩
  | cons d rest ih =>
    rw [DashboardClient.publish, Prog.forEach_cons, Prog.ends_bind, Prog.ends_bind, Prog.ends_call,
      shownByCall]
    cases hpayload : jsonPayload dump d with
    | error e =>
      refine ⟨fun payload s' hs' => ?_, fun e s' hs' => ?_⟩
      · cases hs'
      · cases hs'
        exact ⟨[], (List.append_nil _).symm, areMessagesOf_nil⟩
    | ok payload =>
      refine ⟨fun payload' s' hs' => ?_, fun e s' hs' => by cases hs'⟩
      cases hs'
      rw [Outcome.follow_ok]
      by_cases hshown : payload ≠ "" ∧ payload ≠ "null"
      · refine (ends_publishDataSet_sent hshown).mono fun o s₁ h₁ => ?_
        obtain ⟨rfl, first, hsent, hfirst⟩ := h₁
        rw [Outcome.follow_ok]
        refine (ih s₁).mono fun o s' hs' => ?_
        obtain ⟨messages, hmessages, hrest⟩ := hs'
        simp only [if_pos hshown]
        exact ⟨first ++ messages, by rw [hmessages, hsent, List.append_assoc], hfirst.append hrest⟩
      · rw [DashboardClient.publishDataSet, if_neg hshown]
        simp only [if_neg hshown, List.nil_append]
        exact ih s

end Publish

/-! ### All clients -/

/-- What `PublishAll` works on: the messages that each client has sent last, what the publisher was
given so far, the readings of the clock, and the calls since the lists were published. -/
structure PublishAllState where
  latestMessages : NodeId → Std.ExtTreeMap String LastMessage compare
  sent : List Message
  clock : ℕ → ℤ
  publishMachinesOnline : ℕ := 0

section All

variable {ω : Type} (o : Observer ω) (dump : Json → Except Exception String) (text : Json → String)

/-- `Publish` of one client, with the values of its variables. -/
def publishClient (values : NodeId → Values) (entry : NodeId × DashboardClient) :
    Prog Exception PublishAllState Unit :=
  Prog.zoom (fun s => ⟨s.latestMessages entry.1, s.sent, s.clock⟩)
    (fun p s => { s with
      latestMessages := Function.update s.latestMessages entry.1 p.latestMessages
      sent := p.sent
      clock := p.clock })
    (DashboardClient.publish dump
      (entry.2.dataSets.map fun d => { d with values := values entry.1 }))

/-- `publishMachinesList`, given the text of the JSON values that can be written out. -/
def publishLists (t : ObserverTables) : Prog Exception PublishAllState Unit :=
  Prog.call fun s => ((publishMachinesList o t).2,
    { s with
      sent := s.sent ++ (publishMachinesList o t).1.map fun p => ⟨p.topic, text p.payload⟩ })

/-- One call of `PublishAll`: the tables that it finds for the clients, with the values of each
machine's variables and the messages that their clients have sent last, and those that it finds for
the lists. -/
structure PublishRound where
  tables : ObserverTables
  values : NodeId → Values
  latestMessages : NodeId → Std.ExtTreeMap String LastMessage compare
  lists : ObserverTables

def publishAll (r : PublishRound) : Prog Exception PublishAllState Unit := do
  Prog.forEach (publishClient dump r.values) r.tables.dashboardClients.toList
  .modify fun s => { s with publishMachinesOnline := s.publishMachinesOnline + 1 }
  let s ← Prog.get
  if s.publishMachinesOnline ≥ 30 then do
    publishLists o text r.lists
    .modify fun s => { s with publishMachinesOnline := 0 }
  else pure ()

/-- Calls of `PublishAll`, one after the other. -/
def publishRounds (rounds : List PublishRound) (s : PublishAllState) : PublishAllState :=
  rounds.foldl (fun s r =>
    ((publishAll o dump text r).run { s with latestMessages := r.latestMessages }).2) s

/-- No message has been sent so far. -/
def unpublished (clock : ℕ → ℤ) : PublishAllState where
  latestMessages _ := ∅
  sent := []
  clock := clock

end All

/-! ### Whose messages they are -/

variable {ω : Type} (o : Observer ω)

/-- Every client has the data set of its machine. -/
def ClientsOwn (t : ObserverTables) : Prop :=
  ∀ (n : NodeId) c, t.dashboardClients[n]? = some c →
    ∃ specification, o.HasDataSet n specification c

theorem clientsOwn_cycleFrame : o.CycleFrame o.ClientsOwn where
  eraseKnown _ _ h := h
  eraseClient t n h m c hc := by
    rw [Std.ExtTreeMap.getElem?_erase] at hc
    split_ifs at hc
    exact h m c hc
  eraseOnline _ _ h := h
  parent _ _ _ h := h
  relist _ _ h := h
  setCount _ _ _ _ h _ := h
  forgive _ _ h := h
  know _ _ h := h
  show_ t machine c ref h _ hclient _ _ _ hset := by
    intro m c' hc
    rw [ObserverTables.showMachine, Std.ExtTreeMap.getElem?_insertIfNew] at hc
    by_cases hid : machine.nodeId = m
    · subst hid
      rw [if_pos ⟨Std.ReflCmp.compare_self, hclient⟩] at hc
      cases hc
      exact ⟨_, hset⟩
    · have hne : ¬ compare machine.nodeId m = .eq := fun heq =>
        hid (Std.LawfulEqOrd.eq_of_compare heq)
      rw [if_neg fun h => hne h.1] at hc
      exact h m c' hc
  blame _ _ _ h _ := h
  cache _ _ h _ := h

theorem clientsOwn_of_visible {t : ObserverTables} (h : o.Visible t) : o.ClientsOwn t :=
  visible_of_cycleFrame o.clientsOwn_cycleFrame
    (fun n c hc => by simp [ObserverTables.empty] at hc) h

/-- The message says that the machine is online, or it is its JSON on its topic. -/
def IsOwn (dump : Json → Except Exception String) (values : NodeId → Values) (n : NodeId)
    (c : DashboardClient) (m : Message) : Prop :=
  m = ⟨o.topics.onlineStatus n.toString, "1"⟩ ∨
    ∃ specification, m.channel = o.topics.machine specification n.toString ∧
      ∃ d ∈ c.dataSets, d.channel = m.channel ∧
        jsonPayload dump { d with values := values n } = .ok m.payload

variable {o} {dump : Json → Except Exception String}

/-- The message is one of the lists of machines. -/
def IsList (o : Observer ω) (text : Json → String) (t : ObserverTables) (m : Message) : Prop :=
  ∃ p ∈ (publishMachinesList o t).1, m = ⟨p.topic, text p.payload⟩

/-- What a call shows is the JSON of a data set. -/
theorem exists_of_mem_shownByCall {dataSets : List DataSetStorage} {x : Showing}
    (h : x ∈ shownByCall dump dataSets) :
    ∃ d ∈ dataSets, x.channel = d.channel ∧ x.onlineChannel = d.onlineChannel ∧
      jsonPayload dump d = .ok x.payload := by
  induction dataSets with
  | nil => cases h
  | cons d rest ih =>
    rw [shownByCall] at h
    cases hpayload : jsonPayload dump d with
    | error e => simp [hpayload] at h
    | ok payload =>
      simp only [hpayload, List.mem_append] at h
      rcases h with h | h
      · split_ifs at h
        · obtain rfl := List.mem_singleton.mp h
          exact ⟨d, List.mem_cons_self, rfl, rfl, hpayload⟩
        · cases h
      · obtain ⟨d', hd', hx⟩ := ih h
        exact ⟨d', List.mem_cons_of_mem _ hd', hx⟩

/-- A message of a machine's data set is its own. -/
theorem isOwn_of_isMessageOf {values : NodeId → Values} {n : NodeId} {specification : String}
    {c : DashboardClient} (hset : o.HasDataSet n specification c) {x : Showing}
    (hx : x ∈ shownByCall dump (c.dataSets.map fun d => { d with values := values n }))
    {m : Message} (hm : IsMessageOf x m) : o.IsOwn dump values n c m := by
  obtain ⟨node, hsets⟩ := hset
  obtain ⟨d, hd, hchannel, honline, hpayload⟩ := exists_of_mem_shownByCall hx
  obtain ⟨d, hmem, rfl⟩ := List.mem_map.mp hd
  have hd' := hmem
  rw [hsets, List.mem_singleton] at hd'
  rcases hm with rfl | rfl
  · exact .inr ⟨specification, by rw [hchannel, hd'], d, hmem, hchannel.symm, hpayload⟩
  · exact .inl (by rw [honline, hd'])

/-- The messages of the clients. -/
theorem ends_publishClients (dump : Json → Except Exception String) (values : NodeId → Values)
    (entries : List (NodeId × DashboardClient))
    (hentries : ∀ e ∈ entries, ∃ specification, o.HasDataSet e.1 specification e.2)
    (s : PublishAllState) :
    (Prog.forEach (publishClient dump values) entries).Ends s fun out s' =>
      ∃ messages, s'.sent = s.sent ++ messages ∧
        (∀ m ∈ messages, ∃ e ∈ entries, o.IsOwn dump values e.1 e.2 m) ∧
        (out = .ok () → ∀ e ∈ entries, ∀ x ∈ shownByCall dump
          (e.2.dataSets.map fun d => { d with values := values e.1 }),
            ⟨x.onlineChannel, "1"⟩ ∈ messages) := by
  induction entries generalizing s with
  | nil => exact ⟨[], (List.append_nil _).symm, by simp, by simp⟩
  | cons e rest ih =>
    obtain ⟨specification, hset⟩ := hentries e List.mem_cons_self
    rw [Prog.forEach_cons, Prog.ends_bind, publishClient, Prog.ends_zoom]
    refine (ends_publish_sent _ _).mono fun out s₁ h₁ => ?_
    obtain ⟨first, hsent, hfirst⟩ := h₁
    have hown : ∀ m ∈ first, o.IsOwn dump values e.1 e.2 m := by
      intro m hm
      obtain ⟨x, hx, hxm⟩ := hfirst.sound m hm
      exact isOwn_of_isMessageOf hset hx hxm
    cases out with
    | ok _ =>
      rw [Outcome.follow_ok]
      refine (ih (fun e' he' => hentries e' (List.mem_cons_of_mem _ he')) _).mono
        fun out s' hs' => ?_
      obtain ⟨messages, hmessages, hrest, hall⟩ := hs'
      refine ⟨first ++ messages, ?_, fun m hm => ?_, fun hok e' he' x hx => ?_⟩
      · rw [hmessages, ← List.append_assoc]
        exact congrArg (· ++ messages) hsent
      · rcases List.mem_append.mp hm with hm | hm
        · exact ⟨e, List.mem_cons_self, hown m hm⟩
        · obtain ⟨e', he', hm'⟩ := hrest m hm
          exact ⟨e', List.mem_cons_of_mem _ he', hm'⟩
      · rcases List.mem_cons.mp he' with rfl | he'
        · exact List.mem_append_left _ (hfirst.online x hx)
        · exact List.mem_append_right _ (hall hok e' he' x hx)
    -- the clients after it are not called any more
    | throw ex =>
      exact ⟨first, hsent, fun m hm => ⟨e, List.mem_cons_self, hown m hm⟩,
        fun hok => absurd hok.symm (Outcome.ok_ne_throw _ _)⟩
    | stuck w =>
      exact ⟨first, hsent, fun m hm => ⟨e, List.mem_cons_self, hown m hm⟩,
        fun hok => by cases hok⟩

theorem hasDataSet_of_visible {t : ObserverTables} (h : o.Visible t) :
    ∀ e ∈ t.dashboardClients.toList, ∃ specification, o.HasDataSet e.1 specification e.2 := by
  rintro ⟨n, c⟩ he
  exact o.clientsOwn_of_visible h n c (Std.ExtTreeMap.mem_toList_iff_getElem?_eq_some.mp he)

/-- The messages of one call of `PublishAll`. -/
theorem ends_publishAll (dump : Json → Except Exception String) (text : Json → String)
    {r : PublishRound} (hvisible : o.Visible r.tables) (s : PublishAllState) :
    (publishAll o dump text r).Ends s fun out s' => ∃ messages, s'.sent = s.sent ++ messages ∧
      (∀ m ∈ messages, o.IsList text r.lists m ∨ ∃ n c,
        r.tables.dashboardClients[n]? = some c ∧ o.IsOwn dump r.values n c m) ∧
      (out = .ok () → ∀ (n : NodeId) c, r.tables.dashboardClients[n]? = some c →
        ∀ x ∈ shownByCall dump (c.dataSets.map fun d => { d with values := r.values n }),
          ⟨x.onlineChannel, "1"⟩ ∈ messages) := by
  rw [publishAll, Prog.ends_bind]
  refine (ends_publishClients dump r.values _ (hasDataSet_of_visible hvisible) s).mono
    fun out s₁ h₁ => ?_
  obtain ⟨messages, hsent, hown, honline⟩ := h₁
  have hown' : ∀ m ∈ messages, o.IsList text r.lists m ∨ ∃ n c,
      r.tables.dashboardClients[n]? = some c ∧ o.IsOwn dump r.values n c m := by
    intro m hm
    obtain ⟨⟨n, c⟩, he, hm⟩ := hown m hm
    exact .inr ⟨n, c, Std.ExtTreeMap.mem_toList_iff_getElem?_eq_some.mp he, hm⟩
  have honline' : out = .ok () → ∀ (n : NodeId) c, r.tables.dashboardClients[n]? = some c →
      ∀ x ∈ shownByCall dump (c.dataSets.map fun d => { d with values := r.values n }),
        ⟨x.onlineChannel, "1"⟩ ∈ messages := fun hout n c hc =>
    honline hout (n, c) (Std.ExtTreeMap.mem_toList_iff_getElem?_eq_some.mpr hc)
  cases out with
  | throw e => exact ⟨messages, hsent, hown', honline'⟩
  | stuck w => exact ⟨messages, hsent, hown', honline'⟩
  | ok u =>
    simp only [Outcome.follow_ok, Prog.ends_bind, Prog.ends_modify, Prog.ends_get]
    split_ifs
    · -- the lists come after the messages of the clients
      have hlists : ∀ m ∈ messages ++ (publishMachinesList o r.lists).1.map
          (fun p => (⟨p.topic, text p.payload⟩ : Message)), o.IsList text r.lists m ∨ ∃ n c,
            r.tables.dashboardClients[n]? = some c ∧ o.IsOwn dump r.values n c m := by
        intro m hm
        rcases List.mem_append.mp hm with hm | hm
        · exact hown' m hm
        · obtain ⟨p, hp, rfl⟩ := List.mem_map.mp hm
          exact .inl ⟨p, hp, rfl⟩
      rw [Prog.ends_bind, publishLists, Prog.ends_call]
      refine ⟨fun _ s' hs' => ?_, fun e s' hs' => ?_⟩
      · obtain ⟨-, rfl⟩ := Prod.mk.inj hs'
        rw [Outcome.follow_ok, Prog.ends_modify]
        exact ⟨_, by rw [hsent, List.append_assoc], hlists, fun hout n c hc x hx =>
          List.mem_append_left _ (honline' rfl n c hc x hx)⟩
      · obtain ⟨-, rfl⟩ := Prod.mk.inj hs'
        exact ⟨_, by rw [hsent, List.append_assoc], hlists, fun hout =>
          absurd hout.symm (Outcome.ok_ne_throw _ _)⟩
    · exact ⟨messages, hsent, hown', fun _ => honline' rfl⟩

/-- Every message of a run of calls is a list or belongs to a client that a call has found. -/
theorem isOwn_of_mem_sent {text : Json → String} (rounds : List PublishRound)
    (hvisible : ∀ r ∈ rounds, o.Visible r.tables) (s : PublishAllState) {m : Message}
    (hm : m ∈ (publishRounds o dump text rounds s).sent) :
    m ∈ s.sent ∨ ∃ r ∈ rounds, o.IsList text r.lists m ∨ ∃ n c,
      r.tables.dashboardClients[n]? = some c ∧ o.IsOwn dump r.values n c m := by
  induction rounds generalizing s with
  | nil => exact .inl hm
  | cons r rest ih =>
    rcases ih (fun r' hr' => hvisible r' (List.mem_cons_of_mem _ hr')) _ hm with hm | hm
    · obtain ⟨messages, hmessages, hown, -⟩ := ends_publishAll dump text
        (hvisible r List.mem_cons_self) { s with latestMessages := r.latestMessages }
      change m ∈ ((publishAll o dump text r).run _).2.sent at hm
      rw [hmessages] at hm
      rcases List.mem_append.mp hm with hm | hm
      · exact .inl hm
      · exact .inr ⟨r, List.mem_cons_self, hown m hm⟩
    · obtain ⟨r', hr', howned⟩ := hm
      exact .inr ⟨r', List.mem_cons_of_mem _ hr', howned⟩

/-- The text of an object with one string. -/
def dumpCounter : Json → Except Exception String
  | .object [(key, .string text)] => .ok ("\x7b\n  \"" ++ key ++ "\": \"" ++ text ++ "\"\n\x7d")
  | _ => .ok "null"

/-- The counting plant after a cycle, with a value for the counter of its machine. -/
def countingRound : PublishRound :=
  ⟨(countingPlant.cycle 3 (countingPlant.start ["m1"])).2.tables,
    fun _ => Std.ExtTreeMap.ofList [(0, Json.string "5")], fun _ => ∅,
    (countingPlant.cycle 3 (countingPlant.start ["m1"])).2.tables⟩

theorem visible_countingRound : countingPlant.Visible countingRound.tables :=
  ⟨(countingPlant.cycle 3 (countingPlant.start ["m1"])).2,
    .cycle 3 (.start ["m1"]) (cycle_eq_of_fst _ (by decide +kernel)), .inl rfl⟩

example : (publishRounds countingPlant dumpCounter (fun _ => "") [countingRound]
    (unpublished fun _ => 0)).sent =
    [⟨"umati/v2/plant/MachineType/nsu=urn:plant;m1", "\x7b\n  \"Counter\": \"5\"\n\x7d"⟩,
      ⟨"umati/v2/plant/online/nsu=urn:plant;m1", "1"⟩] := by
  decide +kernel

end Observer

end UmatiDashboard
