import UmatiDashboard.MachineObserver.Readings

/-!
# The elements of the lists

An element on the list of a machine type is **complete** if it has the five members by which a
consumer finds the machine. When the elements are complete is decided by the reading of the
moment: exactly for the machines that had a name when the cached identifications were read, and
were listed then with the type that they had been added with.
-/

namespace UmatiDashboard

/-- The machine had a name when it was read, and was listed with a type of this name. -/
def Reading.ReadAs {ω : Type} (o : Observer ω) (r : Reading) (machineNodeId : NodeId)
    (specification : String) : Prop :=
  machineNodeId ∈ r.names ∧ ∃ machine ∈ r.machineList, machine.nodeId = machineNodeId ∧
    o.typeName machine = some specification

theorem Topics.machine_injective (t : Topics) (machineId : String) :
    Function.Injective fun specification => t.machine specification machineId := fun a b h => by
  have h' := congrArg String.toList h
  simp only [machine, String.toList_append, List.append_assoc] at h'
  have hrest := List.append_cancel_left (List.append_cancel_left
    (List.append_cancel_left (List.append_cancel_left h')))
  exact String.toList_inj.mp (List.append_cancel_right hrest)

namespace Observer

variable {ω : Type} (o : Observer ω)

/-- An element with all five members: its topic is the channel of the machine. -/
structure IsComplete (machine : NodeId × MachineInformation) (element : Json) : Prop where
  data : (element.member? "Data").isSome
  machineId : element.member? "MachineId" = some (.string (idEncode machine.1.toString))
  parentId : (element.member? "ParentId").isSome
  topic : element.member? "Topic" =
    some (.string (o.topics.machine machine.2.specification machine.1.toString))
  typeDefinition : (element.member? "TypeDefinition").isSome

/-- Every list that is published has a complete element for each of its machines. -/
def PublishesComplete (t : ObserverTables) : Prop :=
  ∀ S, ∀ p ∈ (o.publishMachinesList t).1, p.topic = o.topics.list S →
    ∃ es, p.payload = .array es ∧ List.Forall₂ o.IsComplete (onlineListed t S) es

/-- The machines that are shown, on a list that is reached, were read with a name, as what they were
added. -/
def AllReadAs (t : ObserverTables) (r : Reading) : Prop :=
  ∀ (n : NodeId) info, t.onlineMachines[n]? = some info →
    (cachedIdentification t n).isSome = true → ListReached t info.specification →
      r.ReadAs o n info.specification

theorem lookup_singleton_of_ne {key key' : String} (h : key' ≠ key) (value : Json) :
    List.lookup key' [(key, value)] = none := by
  have hbeq : (key' == key) = false := by simpa using h
  rw [List.lookup_cons, hbeq]
  rfl

/-- The members of an element whose machine had a name. -/
theorem lookup_complete (n : NodeId) (specification : String) (data parent : Json) :
    let members := Json.putMember "ParentId" parent
      (Json.putMember "TypeDefinition" (.string specification)
        (Json.putMember "MachineId" (.string (idEncode n.toString))
          (Json.putMember "Topic" (.string (o.topics.machine specification n.toString))
            [("Data", data)])))
    members.lookup "Data" = some data ∧
      members.lookup "MachineId" = some (.string (idEncode n.toString)) ∧
      members.lookup "ParentId" = some parent ∧
      members.lookup "Topic" = some (.string (o.topics.machine specification n.toString)) ∧
      members.lookup "TypeDefinition" = some (.string specification) := by
  intro members
  have hdata : [("Data", data)].lookup "Data" = some data := by
    rw [List.lookup_cons, beq_self_eq_true]
  refine ⟨?_, ?_, Json.lookup_putMember_self .., ?_, ?_⟩
  · rw [Json.lookup_putMember_of_ne _ (by decide), Json.lookup_putMember_of_ne _ (by decide),
      Json.lookup_putMember_of_ne _ (by decide), Json.lookup_putMember_of_ne _ (by decide), hdata]
  · rw [Json.lookup_putMember_of_ne _ (by decide), Json.lookup_putMember_of_ne _ (by decide),
      Json.lookup_putMember_self]
  · rw [Json.lookup_putMember_of_ne _ (by decide), Json.lookup_putMember_of_ne _ (by decide),
      Json.lookup_putMember_of_ne _ (by decide), Json.lookup_putMember_self]
  · rw [Json.lookup_putMember_of_ne _ (by decide), Json.lookup_putMember_self]

variable {o} {t : ObserverTables} {r : Reading}

/-- **An element is complete** if and only if its identification was read so. -/
theorem isComplete_iff (hr : o.WellRead t r) {machine : NodeId × MachineInformation}
    {element : Json} (helement : IsElementOf t machine element) :
    o.IsComplete machine element ↔ r.ReadAs o machine.1 machine.2.specification := by
  obtain ⟨n, info⟩ := machine
  obtain ⟨json, hjson, hassign⟩ := helement
  rw [cachedIdentification, Option.filter_eq_some_iff] at hjson
  obtain ⟨listed, hlisted, hid, specification, data, htype, rfl⟩ := hr.isRead n json hjson.1
  have hsame : r.ReadAs o n info.specification ↔
      n ∈ r.names ∧ specification = info.specification := by
    refine and_congr_right fun _ => ?_
    constructor
    · rintro ⟨listed', hlisted', hid', htype'⟩
      -- no machine is listed twice
      have heq : listed' = listed :=
        List.inj_on_of_nodup_map hr.nodup hlisted' hlisted (hid'.trans hid.symm)
      rw [heq, htype] at htype'
      exact Option.some.inj htype'
    · rintro rfl
      exact ⟨listed, hlisted, hid, htype⟩
  rw [hsame]
  rw [identificationOf] at hassign
  split_ifs at hassign with hnamed
  · have hname : n ∈ r.names := Std.ExtTreeMap.mem_iff_contains.mpr hnamed
    rw [Json.assign_object, Except.ok.injEq] at hassign
    subst hassign
    have hlookup := lookup_complete o n specification data
      (.string (idEncode info.parent.toString))
    constructor
    · intro h
      have htopic := h.topic
      rw [Json.member?, hlookup.2.2.2.1, Option.some.injEq, Json.string.injEq] at htopic
      exact ⟨hname, o.topics.machine_injective _ htopic⟩
    · rintro ⟨-, rfl⟩
      refine ⟨?_, hlookup.2.1, ?_, hlookup.2.2.2.1, ?_⟩
      · rw [Json.member?, hlookup.1]
        rfl
      · rw [Json.member?, hlookup.2.2.1]
        rfl
      · rw [Json.member?, hlookup.2.2.2.2]
        rfl
  · have hname : n ∉ r.names := fun h => hnamed (Std.ExtTreeMap.mem_iff_contains.mp h)
    rw [Json.assign_object, Except.ok.injEq] at hassign
    subst hassign
    refine iff_of_false (fun h => ?_) fun h => hname h.1
    have htopic := h.topic
    have hne : "Topic" ≠ "ParentId" := by decide
    rw [Json.member?, Json.lookup_putMember_of_ne _ hne, lookup_singleton_of_ne (by decide)]
      at htopic
    cases htopic

/-- Elements that correspond to machines are complete if all the machines were read so. -/
theorem forall₂_isComplete_iff (hr : o.WellRead t r) :
    ∀ {ms : List (NodeId × MachineInformation)} {es : List Json},
      List.Forall₂ (IsElementOf t) ms es →
      (List.Forall₂ o.IsComplete ms es ↔ ∀ m ∈ ms, r.ReadAs o m.1 m.2.specification)
  | [], [], .nil => by simp
  | m :: ms, e :: es, .cons hm hms => by
    rw [List.forall₂_cons, isComplete_iff hr hm, forall₂_isComplete_iff hr hms]
    simp

theorem publishesComplete_iff (hvisible : o.Visible t) (hr : o.WellRead t r) :
    o.PublishesComplete t ↔ o.AllReadAs t r := by
  have hcache := (publishesWell_of_visible hvisible).2
  obtain ⟨hexists, hpayload⟩ := onlineLists_published o hcache
  have helements : ∀ S, List.Forall₂ (IsElementOf t) (onlineListed t S)
      ((onlineListed t S).filterMap (onlineElement t)) := fun S =>
    forall₂_isElementOf hcache _ fun m hm => (mem_onlineListed.mp hm).2.2
  constructor
  · intro hcomplete n info hinfo hcached hreached
    have hlisted : (n, info) ∈ onlineListed t info.specification :=
      mem_onlineListed.mpr ⟨hinfo, rfl, hcached⟩
    obtain ⟨p, hp, htopic⟩ :=
      (hexists info.specification).mpr ⟨.inr (List.ne_nil_of_mem hlisted), hreached⟩
    obtain ⟨es, hes, hall⟩ := hcomplete _ p hp htopic
    rw [hpayload _ p hp htopic] at hes
    cases hes
    exact (forall₂_isComplete_iff hr (helements _)).mp hall _ hlisted
  · intro hread S p hp htopic
    refine ⟨_, hpayload S p hp htopic, (forall₂_isComplete_iff hr (helements S)).mpr ?_⟩
    rintro ⟨n, info⟩ hm
    obtain ⟨hinfo, rfl, hcached⟩ := mem_onlineListed.mp hm
    exact hread n info hinfo hcached ((hexists _).mp ⟨p, hp, htopic⟩).2

/-- **The elements of the lists are complete at a moment** if and only if every machine that is
shown, on a list that is reached, was read with a name, and as what it was added. The client of such
a machine publishes its data set on the channel of that specification. -/
theorem listElements_complete_iff (h : o.Moment t r) :
    (o.PublishesComplete t ↔ o.AllReadAs t r) ∧
      ∀ (n : NodeId) info c, t.onlineMachines[n]? = some info → t.dashboardClients[n]? = some c →
        c.dataSets.map DataSetStorage.channel =
          [o.topics.machine info.specification n.toString] := by
  obtain ⟨hvisible, hr⟩ := h.wellRead
  refine ⟨publishesComplete_iff hvisible hr, fun n info c hinfo hc => ?_⟩
  obtain ⟨node, hsets⟩ := served_of_visible hvisible n info c hinfo hc
  rw [hsets]
  rfl

/-! ### The plant -/

/-- What the cache is read from after the first cycle of the plant. -/
def plantReading : Reading := plantObserver.readingAfter 2 (plantObserver.start ["m1"]) ⟨∅, []⟩

theorem plantReading_reads : plantObserver.Reads plantRunning plantReading := by
  unfold plantRunning plantReading
  exact .cycle 2 (.start ["m1"]) (cycle_eq_of_fst _ (by decide +kernel))

/-- **The first list that shows a machine is not complete**: the machine got its name after its
identification was read. -/
theorem not_publishesComplete_plant :
    plantObserver.Moment plantRunning.tables plantReading ∧
      ¬ plantObserver.PublishesComplete plantRunning.tables := by
  have hmoment : plantObserver.Moment plantRunning.tables plantReading :=
    .between plantReading_reads
  refine ⟨hmoment, fun hcomplete => ?_⟩
  obtain ⟨hvisible, hr⟩ := hmoment.wellRead
  have hread := (publishesComplete_iff hvisible hr).mp hcomplete
  have honline : plantMachine "m1" ∈ plantRunning.tables.onlineMachines := by decide +kernel
  obtain ⟨info, hinfo⟩ := Option.isSome_iff_exists.mp
    (Std.ExtTreeMap.isSome_getElem?_iff_mem.mpr honline)
  have hcached : (cachedIdentification plantRunning.tables (plantMachine "m1")).isSome = true := by
    decide +kernel
  have hall : ∀ e ∈ plantRunning.tables.onlineMachines.toList,
      ∀ json ∈ cachedIdentification plantRunning.tables e.1, json.dumps = true := by
    decide +kernel
  have hreached : ListReached plantRunning.tables info.specification :=
    fun e he _ json hjson => hall e he json hjson
  have hname : plantMachine "m1" ∈ plantReading.names := (hread _ info hinfo hcached hreached).1
  exact absurd hname (by decide +kernel)

/-- The plant after its second cycle. -/
def plantRunningOn : ObserverState (List String) := (plantObserver.cycle 2 plantRunning).2

def plantReadingOn : Reading := plantObserver.readingAfter 2 plantRunning plantReading

/-- One cycle later the list is complete. -/
theorem listElements_complete_plant :
    plantMachine "m1" ∈ plantRunningOn.tables.onlineMachines ∧
      plantObserver.PublishesComplete plantRunningOn.tables := by
  have hmoment : plantObserver.Moment plantRunningOn.tables plantReadingOn := by
    unfold plantRunningOn plantReadingOn
    exact .between (.cycle 2 plantReading_reads (cycle_eq_of_fst _ (by decide +kernel)))
  have honline : plantRunningOn.tables.onlineMachines.toList.map
      (fun e => (e.1, e.2.specification)) = [(plantMachine "m1", "MachineType")] := by
    decide +kernel
  refine ⟨by decide +kernel, (listElements_complete_iff hmoment).1.mpr fun n info hinfo _ _ => ?_⟩
  have hmem : (n, info.specification) ∈ plantRunningOn.tables.onlineMachines.toList.map
      (fun e => (e.1, e.2.specification)) :=
    List.mem_map.mpr ⟨(n, info), Std.ExtTreeMap.mem_toList_iff_getElem?_eq_some.mpr hinfo, rfl⟩
  rw [honline, List.mem_singleton, Prod.mk.injEq] at hmem
  obtain ⟨rfl, hspecification⟩ := hmem
  rw [hspecification]
  unfold Reading.ReadAs
  decide +kernel

end Observer

end UmatiDashboard
