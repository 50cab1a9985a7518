import UmatiDashboard.DashboardClient.TypedJson
import UmatiDashboard.MachineObserver.Ownership
import UmatiDashboard.MachineObserver.PublishAll

/-!
# The published machines follow their types

Every dashboard client that the publishing thread may find has one data set, whose tree follows an
entry of the type map. So whatever the cycles and the calls of `PublishAll` are, a message on the
topic of a machine is the JSON of such an entry, on the topic with its name
(`published_follow_types`).
-/

namespace UmatiDashboard

namespace Observer

open DashboardClient (Values)

variable {ω : Type} (o : Observer ω) {s : ObserverState ω}

/-! ### The clients of a run -/

/-- The client has one data set, for the topics of the machine, whose tree follows an entry of the
type map. -/
def IsTyped (n : NodeId) (c : DashboardClient) : Prop :=
  ∃ (typeDefinition : NodeId) (ref : NodeRef) (node : Node),
    o.reader.typeMap[typeDefinition]? = some ref ∧
    MatchesType o.reader ref node ∧ c.dataSets =
      [⟨n, o.topics.machine (o.reader.node ref).specifiedBrowseName.name n.toString,
        o.topics.onlineStatus n.toString, node, ∅⟩]

def ClientsTyped (t : ObserverTables) : Prop :=
  ∀ (n : NodeId) c, t.dashboardClients[n]? = some c → o.IsTyped n c

/-- The clients are typed, and they have been all along. -/
structure Typed (s : ObserverState ω) : Prop where
  now : o.ClientsTyped s.tables
  before : s.Traced o.ClientsTyped

variable {o}

theorem Typed.put (hs : o.Typed s) {t : ObserverTables} (ht : o.ClientsTyped t) :
    o.Typed (s.put t) where
  now := ht
  before t' ht' := by
    rcases List.mem_append.mp ht' with ht' | ht'
    · exact hs.before t' ht'
    · exact List.mem_singleton.mp ht' ▸ ht

theorem ClientsTyped.congr {t t' : ObserverTables} (h : o.ClientsTyped t)
    (ht : t'.dashboardClients = t.dashboardClients) : o.ClientsTyped t' := by
  rw [ClientsTyped, ht]
  exact h

theorem ClientsTyped.erase {t : ObserverTables} (h : o.ClientsTyped t) (n : NodeId) :
    o.ClientsTyped { t with dashboardClients := t.dashboardClients.erase n } := by
  intro m c hc
  rw [Std.ExtTreeMap.getElem?_erase] at hc
  split_ifs at hc
  exact h m c hc

theorem ClientsTyped.insertIfNew {t t' : ObserverTables} (h : o.ClientsTyped t) {n : NodeId}
    {c : DashboardClient} (hc : o.IsTyped n c)
    (ht : t'.dashboardClients = t.dashboardClients.insertIfNew n c) : o.ClientsTyped t' := by
  intro m c' hc'
  rw [ht, Std.ExtTreeMap.getElem?_insertIfNew] at hc'
  split_ifs at hc' with hnew
  · cases hc'
    obtain rfl := Std.LawfulEqOrd.eq_of_compare hnew.1
    exact hc
  · exact h m c' hc'

theorem typed_withWorld {w : Recorded ω} (hs : o.Typed s) : o.Typed (s.withWorld w) := ⟨hs.1, hs.2⟩

theorem searchFrame_typed : o.SearchFrame o.Typed where
  world _ := ⟨fun _ _ _ h => ⟨h.1, h.2⟩, fun _ _ _ _ h => ⟨h.1, h.2⟩,
    fun _ _ _ h => ⟨h.1, h.2⟩, fun _ _ _ _ h => ⟨h.1, h.2⟩, fun _ _ h => ⟨h.1, h.2⟩⟩
  subTypes _ _ h := ⟨h.1, h.2⟩
  enter s n _ h := Typed.put (s := s.log (.entering n)) ⟨h.1, h.2⟩ (h.1.congr rfl)

theorem keeps_dropDashboardClient_typed (n : NodeId) :
    (dropDashboardClient o n).Keeps o.Typed fun _ => True := by
  refine fun s hs => (ends_dropDashboardClient o n).mono fun out s' h => ?_
  obtain ⟨-, ⟨rfl, -⟩ | ⟨-, w, rfl⟩⟩ := h
  · exact ⟨hs, fun _ _ => trivial⟩
  · exact ⟨(typed_withWorld hs).put (hs.now.erase n), fun _ _ => trivial⟩

/-- **A machine that is added** has a client with the tree of its type. -/
theorem keeps_addMachine_typed (fuel : ℕ) (machine : BrowseResult) :
    (addMachine o fuel machine).Keeps o.Typed fun _ => True := by
  have hrecord : (record (.adding machine.nodeId) : ObserverM ω Unit).Keeps o.Typed fun _ => True :=
    keeps_record fun _ hs => ⟨hs.1, hs.2⟩
  refine hrecord.bind fun _ _ => .catching ?_ fun ex => ?_
  · split_ifs
    · exact Prog.keeps_pure trivial
    refine keeps_liftExcept.bind fun ref href => CycleSteps.keeps_tables.bind fun t _ =>
      (keeps_dropDashboardClient_typed _).bind fun _ _ => ?_
    rw [OpcUaTypeReader.typeDefinitionToStructureNode_eq_ok] at href
    intro s hs
    rw [Prog.Leaves]
    simp only [onClient, Prog.ends_zoom, Prog.ends_bind, Prog.ends_map, Prog.ends_get]
    refine (DashboardClient.ends_addDataSet_follows o.data o.reader fuel _ _ _ _ _).mono
      fun out session hout => ?_
    cases out with
    | throw e => exact ⟨typed_withWorld hs, fun _ h => by cases h⟩
    | stuck w => exact ⟨typed_withWorld hs, fun _ h => by cases h⟩
    | ok u =>
      obtain ⟨node, hnode, hsets⟩ := hout u rfl
      simp only [Outcome.follow_ok, ends_write]
      exact ⟨(typed_withWorld hs).put
        (hs.now.insertIfNew ⟨machine.typeDefinition, ref, node, href, hnode, hsets⟩ rfl),
        fun _ _ => trivial⟩
  · split_ifs
    · exact Prog.keeps_throw
    · exact Prog.keeps_throw

theorem cycleSteps_typed : o.CycleSteps o.Typed where
  search := searchFrame_typed.steps
  log _ _ h := ⟨h.1, h.2⟩
  put _ _ h ht := h.put (h.now.congr ht)
  drop := keeps_dropDashboardClient_typed
  add := keeps_addMachine_typed

theorem Typed.cycle (h : o.ClientsTyped s.tables) (fuel : ℕ) : o.Typed (o.cycle fuel s).2 :=
  (cycleSteps_typed.keeps_updateMachines fuel s.forget
    ⟨h, fun _ ht => absurd ht List.not_mem_nil⟩).1

theorem clientsTyped_of_reachable (h : o.Reachable s) : o.ClientsTyped s.tables := by
  induction h with
  | start world => exact fun n c hc => by simp [start, ObserverTables.empty] at hc
  | world w _ ih => exact ih
  | @cycle s s' fuel _ hcycle ih =>
    have hkept := Typed.cycle ih fuel
    rw [hcycle] at hkept
    exact hkept.now

theorem clientsTyped_of_visible {t : ObserverTables} (h : o.Visible t) : o.ClientsTyped t := by
  obtain ⟨s, hs, rfl | ⟨fuel, hmem⟩⟩ := h
  · exact clientsTyped_of_reachable hs
  · exact (Typed.cycle (clientsTyped_of_reachable hs) fuel).before t hmem

/-! ### Their messages -/

/-- The value of a node object at some moment. -/
def valueOf (values : Values) (ptr : NodePtr) : Json := (values[ptr]?).getD .null

/-- **What is published follows the types.** For every run of the observer, and calls of
`PublishAll` at any moments of it, with any values: each message is one of the lists of machines, or
says that a machine is online, or it is on the topic of a machine with the name of an entry of the
type map, and is the text of a JSON value that follows this entry and shows the values of the
variables in the machine's tree. -/
theorem published_follow_types (dump : Json → Except Exception String) (text : Json → String)
    (rounds : List PublishRound) (clock : ℕ → ℤ) (hvisible : ∀ r ∈ rounds, o.Visible r.tables) :
    ∀ m ∈ (publishRounds o dump text rounds (unpublished clock)).sent,
      ∃ r ∈ rounds, o.IsList text r.lists m ∨ ∃ n c, r.tables.dashboardClients[n]? = some c ∧
        (m = ⟨o.topics.onlineStatus n.toString, "1"⟩ ∨
          ∃ d ∈ c.dataSets, ∃ (typeDefinition : NodeId) (ref : NodeRef) (j : Json),
            o.reader.typeMap[typeDefinition]? = some ref ∧
            m.channel =
              o.topics.machine (o.reader.node ref).specifiedBrowseName.name n.toString ∧
            dump j = .ok m.payload ∧ JsonOf o.reader (valueOf (r.values n)) ref d.node j) := by
  intro m hm
  obtain ⟨r, hr, hsent⟩ :=
    (isOwn_of_mem_sent rounds hvisible _ hm).resolve_left fun hnone => by cases hnone
  refine ⟨r, hr, hsent.imp_right ?_⟩
  rintro ⟨n, c, hc, hown⟩
  refine ⟨n, c, hc, hown.imp_right ?_⟩
  rintro ⟨-, -, d, hd, hchannel, hpayload⟩
  obtain ⟨typeDefinition, ref, node, href, hnode, hsets⟩ :=
    clientsTyped_of_visible (hvisible r hr) n c hc
  refine ⟨d, hd, ?_⟩
  rw [hsets, List.mem_singleton] at hd
  subst hd
  rw [DashboardClient.jsonPayload] at hpayload
  cases hj : DashboardClient.getJson
      ⟨n, o.topics.machine (o.reader.node ref).specifiedBrowseName.name n.toString,
        o.topics.onlineStatus n.toString, node, r.values n⟩ with
  | error e =>
    rw [hj] at hpayload
    cases hpayload
  | ok j =>
    rw [hj] at hpayload
    exact ⟨typeDefinition, ref, j, href, hchannel.symm, hpayload, hnode.jsonOf hj⟩

/-- The counter of the counting plant is a member of its type. -/
theorem published_follow_types_counting :
    ∃ (n : NodeId) (c : DashboardClient) (d : DataSetStorage) (ref : NodeRef) (j : Json),
      countingRound.tables.dashboardClients[n]? = some c ∧ d ∈ c.dataSets ∧
        dumpCounter j = .ok "\x7b\n  \"Counter\": \"5\"\n\x7d" ∧
        JsonOf countingPlant.reader (valueOf (countingRound.values n)) ref d.node j := by
  have hvisible : ∀ r ∈ [countingRound], countingPlant.Visible r.tables := by
    intro r hr
    obtain rfl := List.mem_singleton.mp hr
    exact visible_countingRound
  obtain ⟨r, hr, ⟨p, hp, hlist⟩ | ⟨n, c, hc, honline | ⟨d, hd, -, ref, j, -, -, hdump, hjson⟩⟩⟩ :=
    published_follow_types dumpCounter (fun _ => "") [countingRound] (fun _ => 0) hvisible
      ⟨"umati/v2/plant/MachineType/nsu=urn:plant;m1", "\x7b\n  \"Counter\": \"5\"\n\x7d"⟩
      (by decide +kernel)
  · have hpayload := congrArg Message.payload hlist
    simp at hpayload
  · have hpayload := congrArg Message.payload honline
    simp at hpayload
  · obtain rfl := List.mem_singleton.mp hr
    exact ⟨n, c, d, ref, j, hc, hd, hdump, hjson⟩

end Observer

end UmatiDashboard
