import UmatiDashboard.MachineObserver.Checks
import UmatiDashboard.MachineObserver.PublishMachinesList

/-!
# What is published

`publishMachinesList` in terms of the tables: on the list of each specification stands one
element for each machine that is shown with it, provided that the cached identifications are
what `isOnline` reads. The list of errors is on a topic of its own.
-/

namespace UmatiDashboard

namespace PublishMachinesList

variable {l : PublishMachinesList} {S : String}

/-- The machines collected for a specification. -/
def elements (l : PublishMachinesList) (S : String) : List Json := (l.machines[S]?).getD []

theorem elements_addMachine (data : Json) (S' : String) :
    (l.addMachine S' data).elements S =
      l.elements S ++ if S' = S then [data] else [] := by
  simp only [elements, addMachine, Std.ExtTreeMap.getElem?_insert,
    Std.LawfulEqCmp.compare_eq_iff_eq]
  by_cases h : S' = S
  · simp [h]
  · simp [h]

/-- The lists of some specifications can be written out. -/
def Writes (l : PublishMachinesList) (P : String → Prop) : Prop :=
  ∀ S ∈ l.machines, P S → (Json.array (l.elements S)).dumps = true

/-- The list of `S`, if there is one, comes before any that cannot be written out. -/
def Reaches (l : PublishMachinesList) (S : String) : Prop :=
  l.Writes fun S' => S ∈ l.machines → compare S' S ≠ .gt

theorem reaches_of_notMem (h : S ∉ l.machines) : l.Reaches S ↔ l.Writes fun _ => True := by
  simp [Reaches, h]

/-- **What is published of an ordered list**: the entries up to the first that cannot be written
out. -/
theorem mem_publishMachines {getTopic : String → String} {p : Publication} :
    ∀ {entries : List (String × List Json)},
      entries.Pairwise (fun e e' => compare e.1 e'.1 = .lt) →
      (p ∈ (publishMachines getTopic entries).1 ↔ ∃ e ∈ entries,
        (∀ e' ∈ entries, compare e'.1 e.1 ≠ .gt → (Json.array e'.2).dumps = true) ∧
          p = ⟨getTopic e.1, .array e.2⟩)
  | [], _ => by simp [publishMachines]
  | (S, es) :: rest, h => by
    obtain ⟨hlater, hrest⟩ := List.pairwise_cons.mp h
    have hself : compare S S ≠ .gt := by simp
    rw [publishMachines]
    cases hdumps : (Json.array es).dumps with
    | false =>
      -- an entry is not published when one before it stops the call
      rw [if_neg Bool.false_ne_true]
      refine iff_of_false List.not_mem_nil ?_
      rintro ⟨e, he, hall, -⟩
      have hfirst : compare S e.1 ≠ .gt := by
        rcases List.mem_cons.mp he with rfl | he
        · exact hself
        · simp [hlater e he]
      have hwritten := hall _ List.mem_cons_self hfirst
      rw [hdumps] at hwritten
      cases hwritten
    | true =>
      rw [if_pos rfl, List.mem_cons, mem_publishMachines hrest]
      constructor
      · rintro (rfl | ⟨e, he, hall, rfl⟩)
        · refine ⟨_, List.mem_cons_self, List.forall_mem_cons.mpr ⟨fun _ => hdumps, ?_⟩, rfl⟩
          intro e' he' hle
          exact absurd (Std.OrientedCmp.gt_of_lt (hlater e' he')) hle
        · exact ⟨e, List.mem_cons_of_mem _ he,
            List.forall_mem_cons.mpr ⟨fun _ => hdumps, hall⟩, rfl⟩
      · rintro ⟨e, he, hall, rfl⟩
        rcases List.mem_cons.mp he with rfl | he
        · exact .inl rfl
        · exact .inr ⟨e, he, (List.forall_mem_cons.mp hall).2, rfl⟩

/-- The call goes on if all entries can be written out. -/
theorem publishMachines_ok_iff {getTopic : String → String} :
    ∀ {entries : List (String × List Json)},
      (publishMachines getTopic entries).2 = .ok () ↔
        ∀ e ∈ entries, (Json.array e.2).dumps = true
  | [] => by simp [publishMachines]
  | (S, es) :: rest => by
    rw [publishMachines, List.forall_mem_cons]
    cases hdumps : (Json.array es).dumps with
    | false => simp
    | true => simp [publishMachines_ok_iff]

theorem mem_machines_toList {es : List Json} :
    (S, es) ∈ l.machines.toList ↔ S ∈ l.machines ∧ es = l.elements S := by
  rw [Std.ExtTreeMap.mem_toList_iff_getElem?_eq_some, elements]
  constructor
  · intro hes
    exact ⟨Std.ExtTreeMap.isSome_getElem?_iff_mem.mp (by simp [hes]), by simp [hes]⟩
  · rintro ⟨hS, rfl⟩
    obtain ⟨es, hes⟩ := Option.isSome_iff_exists.mp
      (Std.ExtTreeMap.isSome_getElem?_iff_mem.mpr hS)
    rw [hes, Option.getD_some]

/-- The lists of the specifications with a machine. -/
theorem mem_published {p : Publication} :
    p ∈ (publishMachines l.getTopic l.machines.toList).1 ↔
      ∃ S ∈ l.machines, l.Reaches S ∧ p = ⟨l.getTopic S, .array (l.elements S)⟩ := by
  rw [mem_publishMachines Std.ExtTreeMap.ordered_keys_toList]
  constructor
  · rintro ⟨⟨S, es⟩, he, hall, rfl⟩
    obtain ⟨hS, hes⟩ := mem_machines_toList.mp he
    refine ⟨S, hS, fun S' hS' hle => ?_, by rw [hes]⟩
    exact hall (S', l.elements S') (mem_machines_toList.mpr ⟨hS', rfl⟩) (hle hS)
  · rintro ⟨S, hS, hreaches, rfl⟩
    refine ⟨(S, l.elements S), mem_machines_toList.mpr ⟨hS, rfl⟩, ?_, rfl⟩
    rintro ⟨S', es⟩ he hle
    obtain ⟨hS', hes⟩ := mem_machines_toList.mp he
    rw [hes]
    exact hreaches S' hS' fun _ => hle

theorem published_ok_iff :
    (publishMachines l.getTopic l.machines.toList).2 = .ok () ↔ l.Writes fun _ => True := by
  rw [publishMachines_ok_iff]
  constructor
  · exact fun h S hS _ => h (S, l.elements S) (mem_machines_toList.mpr ⟨hS, rfl⟩)
  · rintro h ⟨S, es⟩ he
    obtain ⟨hS, hes⟩ := mem_machines_toList.mp he
    rw [hes]
    exact h S hS trivial

/-- **What is published**: the lists of all specifications, up to the first that cannot be written
out. -/
theorem publish_spec (l : PublishMachinesList) :
    (∀ p, p ∈ l.publish.1 ↔ ∃ S, (S ∈ l.machines ∨ S ∈ l.specifications) ∧ l.Reaches S ∧
      p = ⟨l.getTopic S, .array (l.elements S)⟩) ∧
    (l.publish.2 = .ok () ↔ l.Writes fun _ => True) := by
  have hmem := fun p => mem_published (l := l) (p := p)
  have hok := published_ok_iff (l := l)
  rw [publish]
  cases hpublished : publishMachines l.getTopic l.machines.toList with
  | mk published r =>
    rw [hpublished] at hmem hok
    cases r with
    | error e =>
      -- no list without a machine is published
      have hnot : ¬ l.Writes fun _ => True := fun h => by cases hok.mpr h
      refine ⟨fun p => (hmem p).trans (exists_congr fun S => ?_), hok⟩
      refine ⟨fun h => ⟨.inl h.1, h.2⟩, fun h => ⟨?_, h.2⟩⟩
      by_contra hS
      exact hnot ((reaches_of_notMem hS).mp h.2.1)
    | ok u =>
      have hall : l.Writes fun _ => True := hok.mp rfl
      have hreaches : ∀ S, l.Reaches S := fun S S' hS' _ => hall S' hS' trivial
      refine ⟨fun p => ?_, hok⟩
      simp only [List.mem_append, hmem p, List.mem_map, List.mem_filter, hreaches, true_and]
      constructor
      · rintro (⟨S, hS, rfl⟩ | ⟨S, ⟨hS, hnone⟩, rfl⟩)
        · exact ⟨S, .inl hS, rfl⟩
        · have hnotin : S ∉ l.machines := by
            rwa [Bool.not_eq_true', ← Bool.not_eq_true, ← Std.ExtTreeMap.mem_iff_contains] at hnone
          exact ⟨S, .inr hS, by rw [elements, Std.ExtTreeMap.getElem?_eq_none hnotin]; rfl⟩
      · rintro ⟨S, hS, rfl⟩
        by_cases hin : S ∈ l.machines
        · exact .inl ⟨S, hin, rfl⟩
        · refine .inr ⟨S, ⟨hS.resolve_left hin, ?_⟩, ?_⟩
          · rwa [Bool.not_eq_true', ← Bool.not_eq_true, ← Std.ExtTreeMap.mem_iff_contains]
          · rw [elements, Std.ExtTreeMap.getElem?_eq_none hin]
            rfl

end PublishMachinesList

namespace Observer

variable {ω β : Type} (o : Observer ω) {t : ObserverTables}

/-- Every cached identification is one that `isOnline` has read. -/
def CachesIdentifications (t : ObserverTables) : Prop :=
  ∀ (n : NodeId) json, t.machineIdentificationsCache[n]? = some json → IsIdentification json

/-- The element that is published for a machine, given the member that is added to its cached
identification. -/
def element (t : ObserverTables) (key : String) (value : β → Json) (entry : NodeId × β) :
    Option Json :=
  (cachedIdentification t entry.1).bind fun json => (json.assign key (value entry.2)).toOption

/-- The machines of a table that are shown on the list of a specification. -/
def listed (t : ObserverTables) (specification : β → String) (S : String)
    (entries : List (NodeId × β)) : List (NodeId × β) :=
  entries.filter fun e => specification e.2 = S ∧ (cachedIdentification t e.1).isSome

theorem mem_listed {specification : β → String} {S : String} {entries : List (NodeId × β)}
    {e : NodeId × β} :
    e ∈ listed t specification S entries ↔
      e ∈ entries ∧ specification e.2 = S ∧ (cachedIdentification t e.1).isSome = true := by
  simp [listed]

/-- The machines of a table have been collected for their specifications, in order. -/
structure Collected (t : ObserverTables) (key : String) (value : β → Json)
    (specification : β → String) (entries : List (NodeId × β)) (l r : PublishMachinesList) :
    Prop where
  specifications : r.specifications = l.specifications
  getTopic : r.getTopic = l.getTopic
  elements : ∀ S, r.elements S =
    l.elements S ++ (listed t specification S entries).filterMap (element t key value)
  machines : ∀ S, S ∈ r.machines ↔ S ∈ l.machines ∨ listed t specification S entries ≠ []

/-- **Collecting the machines of a table** gives each specification its machines. -/
theorem addMachines_ok (hcache : CachesIdentifications t) (key : String) (value : β → Json)
    (specification : β → String) :
    ∀ (entries : List (NodeId × β)) (l : PublishMachinesList),
      ∃ r, addMachines t key value specification l entries = .ok r ∧
        Collected t key value specification entries l r
  | [], l => ⟨l, rfl, rfl, rfl, by simp [listed], by simp [listed]⟩
  | (n, info) :: rest, l => by
    rw [addMachines]
    cases h : cachedIdentification t n with
    | none =>
      obtain ⟨r, hr, hspec, htopic, helems, hmem⟩ :=
        addMachines_ok hcache key value specification rest l
      exact ⟨r, hr, hspec, htopic, fun S => by simp [helems S, listed, h],
        fun S => by simp [hmem S, listed, h]⟩
    | some json =>
      obtain ⟨m, ms, rfl, -⟩ : IsIdentification json := by
        rw [cachedIdentification, Option.filter_eq_some_iff] at h
        exact hcache n json h.1
      obtain ⟨r, hr, hspec, htopic, helems, hmem⟩ :=
        addMachines_ok hcache key value specification rest
          (l.addMachine (specification info) (.object (Json.putMember key (value info) (m :: ms))))
      refine ⟨r, hr, hspec, htopic, fun S => ?_, fun S => ?_⟩
      · rw [helems S, PublishMachinesList.elements_addMachine, List.append_assoc]
        by_cases hS : specification info = S
        · simp [hS, listed, h, element, Except.toOption]
        · simp [hS, listed]
      · rw [hmem S]
        by_cases hS : specification info = S
        · simp [hS, listed, h, PublishMachinesList.addMachine]
        · simp [hS, listed, PublishMachinesList.addMachine]

/-! ### What can be written out -/

/-- The cached identifications of some entries can be written out. -/
def Written (t : ObserverTables) (entries : List (NodeId × β)) (P : β → Prop) : Prop :=
  ∀ e ∈ entries, P e.2 → ∀ json, cachedIdentification t e.1 = some json → json.dumps = true

/-- The member that is added to an identification can be written out. -/
theorem dumps_of_assign (hcache : CachesIdentifications t) {key : String} {value json el : Json}
    (hkey : key ∉ identificationKeys) (hvalue : value.dumps = true) {n : NodeId}
    (hjson : cachedIdentification t n = some json) (hel : json.assign key value = .ok el) :
    el.dumps = true ↔ json.dumps = true := by
  rw [cachedIdentification, Option.filter_eq_some_iff] at hjson
  obtain ⟨m, ms, rfl, hkeys⟩ := hcache n json hjson.1
  obtain rfl := Except.ok.inj hel
  have hfresh : ∀ m' ∈ m :: ms, m'.1 ≠ key := fun m' hm' heq => hkey (heq ▸ hkeys m' hm')
  rw [Json.dumps_object, Json.dumps_object, (Json.putMember_perm value hfresh).all_eq,
    List.all_cons, hvalue, Bool.true_and]

/-- The lists can be written out if the identifications can. -/
theorem Collected.writes_iff (hcache : CachesIdentifications t) {key : String}
    {value : β → Json} {specification : β → String} {entries : List (NodeId × β)}
    {l r : PublishMachinesList} (h : Collected t key value specification entries l r)
    (hl : ∀ S, S ∉ l.machines) (hkey : key ∉ identificationKeys)
    (hvalue : ∀ info, (value info).dumps = true) (P : String → Prop) :
    r.Writes P ↔ Written t entries fun info => P (specification info) := by
  have helements : ∀ S, r.elements S =
      (listed t specification S entries).filterMap (element t key value) := by
    intro S
    rw [h.elements, PublishMachinesList.elements, Std.ExtTreeMap.getElem?_eq_none (hl S)]
    rfl
  constructor
  · rintro hwrites ⟨n, info⟩ he hP json hjson
    have hlisted : (n, info) ∈ listed t specification (specification info) entries :=
      mem_listed.mpr ⟨he, rfl, by simp [hjson]⟩
    have hS : specification info ∈ r.machines :=
      (h.machines _).mpr (.inr (List.ne_nil_of_mem hlisted))
    have hall := hwrites _ hS hP
    rw [Json.dumps_array, List.all_eq_true, helements] at hall
    have hfilter := hjson
    rw [cachedIdentification, Option.filter_eq_some_iff] at hfilter
    obtain ⟨m, ms, rfl, -⟩ := hcache n json hfilter.1
    -- the further members of an element can always be written out
    rw [← dumps_of_assign hcache hkey (hvalue info) hjson (Json.assign_object _ _ _)]
    refine hall _ (List.mem_filterMap.mpr ⟨_, hlisted, ?_⟩)
    rw [element, hjson]
    rfl
  · intro hwritten S _ hP
    rw [Json.dumps_array, List.all_eq_true, helements]
    intro el hel
    obtain ⟨⟨n, info⟩, he, helement⟩ := List.mem_filterMap.mp hel
    obtain ⟨hmem, rfl, -⟩ := mem_listed.mp he
    obtain ⟨json, hjson, hassign⟩ := Option.bind_eq_some_iff.mp helement
    cases hel' : json.assign key (value info) with
    | error e => simp [hel', Except.toOption] at hassign
    | ok el' =>
      rw [hel'] at hassign
      obtain rfl := Option.some.inj hassign
      exact (dumps_of_assign hcache hkey (hvalue info) hjson hel').mpr
        (hwritten _ hmem hP json hjson)

/-- The machines that are online and shown on the list of `S`. -/
def onlineListed (t : ObserverTables) (S : String) : List (NodeId × MachineInformation) :=
  listed t MachineInformation.specification S t.onlineMachines.toList

/-- The element of a machine that is online. -/
def onlineElement (t : ObserverTables) : NodeId × MachineInformation → Option Json :=
  element t "ParentId" fun info => .string (idEncode info.parent.toString)

theorem mem_onlineListed {S : String} {n : NodeId} {info : MachineInformation} :
    (n, info) ∈ onlineListed t S ↔ t.onlineMachines[n]? = some info ∧ info.specification = S ∧
      (cachedIdentification t n).isSome = true := by
  rw [onlineListed, mem_listed, Std.ExtTreeMap.mem_toList_iff_getElem?_eq_some]

/-- No machine is listed twice. -/
theorem nodup_onlineListed (S : String) : ((onlineListed t S).map Prod.fst).Nodup := by
  rw [List.Nodup, List.pairwise_map]
  exact ((Std.ExtTreeMap.distinct_keys_toList).imp fun h heq => h (by
    rw [heq]; exact Std.ReflCmp.compare_self)).filter _

/-! ### Both kinds of lists -/

/-- The identifications of the machines that are online can be written out, as far as their
specifications satisfy `P`. -/
def ListsWritten (t : ObserverTables) (P : String → Prop) : Prop :=
  Written t t.onlineMachines.toList fun info => P info.specification

/-- Those of the machines that could not be added, too. -/
def ErrorsWritten (t : ObserverTables) : Prop := Written t t.invalidMachines.toList fun _ => True

/-- All lists up to that of `S` can be written out, or all lists if this one is empty. -/
def ListReached (t : ObserverTables) (S : String) : Prop :=
  ListsWritten t fun S' => onlineListed t S ≠ [] → compare S' S ≠ .gt

theorem ListsWritten.reached (h : ListsWritten t fun _ => True) (S : String) : ListReached t S :=
  fun e he _ json hjson => h e he trivial json hjson

/-- `publishMachinesList` publishes what it has collected. -/
theorem publishMachinesList_collected (hcache : CachesIdentifications t) :
    ∃ online errors,
      Collected t "ParentId"
        (fun info : MachineInformation => .string (idEncode info.parent.toString))
        MachineInformation.specification t.onlineMachines.toList
        (.new o.reader.expectedObjectTypeNames o.topics.list) online ∧
      Collected t "Error" (fun info : Int × String => .string info.2) (fun _ => "errors")
        t.invalidMachines.toList (.new ["errors"] o.topics.errorList) errors ∧
      (∀ p, p ∈ (publishMachinesList o t).1 ↔
        p ∈ online.publish.1 ∨ (ListsWritten t fun _ => True) ∧ p ∈ errors.publish.1) ∧
      ((publishMachinesList o t).2 = .ok () ↔
        (ListsWritten t fun _ => True) ∧ ErrorsWritten t) := by
  have hnew : ∀ (specifications : List String) (getTopic : String → String) (S : String),
      S ∉ (PublishMachinesList.new specifications getTopic).machines := by
    simp [PublishMachinesList.new]
  obtain ⟨online, honline, hcollected⟩ := addMachines_ok hcache "ParentId"
    (fun info : MachineInformation => .string (idEncode info.parent.toString))
    MachineInformation.specification t.onlineMachines.toList
    (.new o.reader.expectedObjectTypeNames o.topics.list)
  obtain ⟨errors, herrors, hcollected'⟩ := addMachines_ok hcache "Error"
    (fun info : Int × String => .string info.2) (fun _ => "errors") t.invalidMachines.toList
    (.new ["errors"] o.topics.errorList)
  have hlists := hcollected.writes_iff hcache (hnew _ _) (by decide)
    (fun _ => Json.dumps_string _) fun _ => True
  have hlists' := hcollected'.writes_iff hcache (hnew _ _) (by decide)
    (fun _ => Json.dumps_string _) fun _ => True
  have hok := (PublishMachinesList.publish_spec online).2.trans hlists
  have hok' := (PublishMachinesList.publish_spec errors).2.trans hlists'
  refine ⟨online, errors, hcollected, hcollected', ?_⟩
  have hlist : onlineList o t = .ok online := honline
  have hinvalid : invalidList o t = .ok errors := herrors
  cases hpublish : online.publish with
  | mk published r =>
    rw [hpublish] at hok
    cases r with
    | error e =>
      have hnot : ¬ ListsWritten t fun _ => True := fun h => by cases hok.mpr h
      simp [publishMachinesList, hlist, hpublish, hnot]
    | ok u =>
      have hall : ListsWritten t fun _ => True := hok.mp rfl
      simp only [publishMachinesList, hlist, hpublish, hinvalid, hall, true_and, List.mem_append]
      exact ⟨fun _ => trivial, hok'⟩

/-- **The lists of machines that `publishMachinesList` publishes**: those of every expected
specification and of every one with a machine, as far as it gets, and what stands on the list of `S`
are the elements of the machines that are shown with `S`. -/
theorem onlineLists_published (hcache : CachesIdentifications t) :
    (∀ S, (∃ p ∈ (publishMachinesList o t).1, p.topic = o.topics.list S) ↔
      (S ∈ o.reader.expectedObjectTypeNames ∨ onlineListed t S ≠ []) ∧ ListReached t S) ∧
    ∀ S, ∀ p ∈ (publishMachinesList o t).1, p.topic = o.topics.list S →
      p.payload = .array ((onlineListed t S).filterMap (onlineElement t)) := by
  obtain ⟨online, errors, honline, herrors, hmem, -⟩ := publishMachinesList_collected o hcache
  obtain ⟨hpublished, -⟩ := PublishMachinesList.publish_spec online
  have hnew : ∀ S, S ∉ (PublishMachinesList.new o.reader.expectedObjectTypeNames
      o.topics.list).machines := by simp [PublishMachinesList.new]
  have hspecifications : online.specifications = o.reader.expectedObjectTypeNames :=
    honline.specifications
  have htopic : online.getTopic = o.topics.list := honline.getTopic
  have hmachines : ∀ S, S ∈ online.machines ↔ onlineListed t S ≠ [] := fun S =>
    (honline.machines S).trans (or_iff_right (hnew S))
  have hreached : ∀ S, online.Reaches S ↔ ListReached t S := by
    intro S
    rw [PublishMachinesList.Reaches, honline.writes_iff hcache hnew (by decide)
      (fun _ => Json.dumps_string _), ListReached, hmachines]
    rfl
  -- a list of machines is published by the first of the two objects
  have hlist : ∀ S p, p.topic = o.topics.list S → (p ∈ (publishMachinesList o t).1 ↔
      (S ∈ online.machines ∨ S ∈ online.specifications) ∧ online.Reaches S ∧
        p = ⟨o.topics.list S, .array (online.elements S)⟩) := by
    intro S p hp
    have hnot : p ∉ errors.publish.1 := by
      intro h
      obtain ⟨S', -, -, rfl⟩ := ((PublishMachinesList.publish_spec errors).1 p).mp h
      rw [herrors.getTopic] at hp
      exact o.topics.list_ne_errorList S S' hp.symm
    rw [hmem, or_iff_left fun h => hnot h.2, hpublished, htopic]
    constructor
    · rintro ⟨S', hS', hreaches, rfl⟩
      obtain rfl := o.topics.list_injective hp
      exact ⟨hS', hreaches, rfl⟩
    · exact fun h => ⟨S, h⟩
  refine ⟨fun S => ?_, fun S p hp hpt => ?_⟩
  · rw [← hreached S, ← hmachines S, ← hspecifications, or_comm]
    constructor
    · rintro ⟨p, hp, hpt⟩
      obtain ⟨hS, hreaches, -⟩ := (hlist S p hpt).mp hp
      exact ⟨hS, hreaches⟩
    · exact fun ⟨hS, hreaches⟩ => ⟨_, (hlist S _ rfl).mpr ⟨hS, hreaches, rfl⟩, rfl⟩
  · obtain ⟨-, -, rfl⟩ := (hlist S p hpt).mp hp
    rw [honline.elements S, PublishMachinesList.elements, Std.ExtTreeMap.getElem?_eq_none (hnew S)]
    rfl

end Observer

end UmatiDashboard
