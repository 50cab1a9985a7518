import UmatiDashboard.MachineObserver.Removal
import UmatiDashboard.Util.JsonMembers

/-!
# Checking the browsed machines

The check of a browsed list leaves the tables alone. It sorts the machines by two questions,
whether they were known when the cycle began and whether `isOnline` answers yes; as no machine
stands in the list twice, the three tables it fills are determined by the two.
-/

namespace UmatiDashboard

theorem NodeSet.nodup_toList (ns : NodeSet) : ns.toList.Nodup :=
  Std.ExtTreeSet.distinct_toList.imp fun h heq => h (by rw [heq]; exact Std.ReflCmp.compare_self)

/-- The members of an identification. -/
def identificationKeys : List String := ["Data", "MachineId", "Topic", "TypeDefinition"]

/-- What is read as an identification is a JSON object that is not empty. -/
def IsIdentification (json : Json) : Prop :=
  ∃ m ms, json = .object (m :: ms) ∧ ∀ m' ∈ m :: ms, m'.1 ∈ identificationKeys

theorem Json.isIdentification_putMember {key : String} (hkey : key ∈ identificationKeys)
    (value : Json) {members : List (String × Json)}
    (h : ∀ m ∈ members, m.1 ∈ identificationKeys) :
    IsIdentification (.object (Json.putMember key value members)) := by
  obtain ⟨m, ms, heq⟩ := List.exists_cons_of_ne_nil (Json.putMember_ne_nil key value members)
  refine ⟨m, ms, congrArg _ heq, fun m' hm' => ?_⟩
  rw [← heq] at hm'
  rcases Json.eq_or_mem_of_mem_putMember hm' with rfl | hm'
  · exact hkey
  · exact h m' hm'

theorem Json.assign_isIdentification {json json' : Json} {key : String} {value : Json}
    (hkey : key ∈ identificationKeys) (hj : json = .null ∨ IsIdentification json)
    (h : json.assign key value = .ok json') : IsIdentification json' := by
  rcases hj with rfl | ⟨m, ms, rfl, hkeys⟩
  · obtain rfl := Except.ok.inj h
    have hnone : ∀ m ∈ ([] : List (String × Json)), m.1 ∈ identificationKeys := by simp
    exact Json.isIdentification_putMember hkey value hnone
  · obtain rfl := Except.ok.inj h
    exact Json.isIdentification_putMember hkey value hkeys

namespace Observer

variable {ω : Type} (o : Observer ω) {J : ObserverState ω → Prop}

/-! ### The identification of a machine -/

theorem addTopic_isIdentification {t : ObserverTables} {n : NodeId} {typeName : String}
    {json json' : Json} (hj : IsIdentification json)
    (h : addTopic o t n typeName json = .ok json') : IsIdentification json' := by
  unfold addTopic at h
  split_ifs at h
  · cases h₁ : json.assign "Topic" (.string (o.topics.machine typeName n.toString)) with
    | error e => rw [h₁] at h; cases h
    | ok json₁ =>
      rw [h₁] at h
      have hj₁ := Json.assign_isIdentification (by decide) (.inr hj) h₁
      cases h₂ : json₁.assign "MachineId" (.string (idEncode n.toString)) with
      | error e => simp [h₂, bind, Except.bind] at h
      | ok json₂ =>
        simp only [h₂, bind, Except.bind] at h
        have hj₂ := Json.assign_isIdentification (by decide) (.inr hj₁) h₂
        exact Json.assign_isIdentification (by decide) (.inr hj₂) h
  · cases h
    exact hj

theorem keeps_browseIdentificationValues (hJ : o.ReadsKeep J) (n typeDefinition : NodeId)
    (identification : BrowseResult) :
    (browseIdentificationValues o n typeDefinition identification).Keeps J IsIdentification := by
  refine keeps_liftExcept.bind fun _ _ => (keeps_browse hJ _ _).bind fun _ _ =>
    (keeps_readeNodeValues hJ _).bind fun _ _ => keeps_liftExcept.bind fun data _ =>
      keeps_liftExcept.bind fun json hjson => ?_
  refine (Prog.keeps_get.map fun _ _ => True.intro).bind fun t (_ : True) => ?_
  exact keeps_liftExcept.mono fun json' h =>
    addTopic_isIdentification o (Json.assign_isIdentification (by decide) (.inl rfl) hjson) h

/-- `isOnline` reads only; what it returns is an identification. -/
theorem keeps_isOnline (hJ : o.ReadsKeep J) (n typeDefinition : NodeId) :
    (isOnline o n typeDefinition).Keeps J fun r => ∀ json ∈ r, IsIdentification json := by
  refine Prog.Keeps.catching (keeps_liftExcept.bind fun p_type _ => ?_) fun ex =>
    Prog.keeps_pure (by simp)
  dsimp only
  split
  · exact Prog.keeps_pure (by simp)
  · refine (keeps_browseWithResultTypeFilter hJ _ _ _).bind fun identification _ => ?_
    cases identification with
    | nil => exact Prog.keeps_pure (by simp)
    | cons first rest =>
      refine (keeps_browseIdentificationValues o hJ n typeDefinition first).bind fun json hjson =>
        Prog.keeps_pure fun json' h => ?_
      split_ifs at h
      · simp at h
      · cases h
        exact hjson

/-! ### The browsed list -/

/-- The order by which the machines are sorted. -/
private abbrev LE (l r : BrowseResult) : Prop := (compare l.nodeId r.nodeId).isLE

private theorem pairwise_insertionSort (l : List BrowseResult) :
    (l.insertionSort fun l r => (compare l.nodeId r.nodeId).isLE).Pairwise LE :=
  haveI : Std.Total LE := ⟨fun a b => by
    have hswap : compare b.nodeId a.nodeId = (compare a.nodeId b.nodeId).swap :=
      Std.OrientedCmp.eq_swap
    rw [LE, LE, hswap]
    cases compare a.nodeId b.nodeId <;> simp⟩
  haveI : IsTrans BrowseResult LE := ⟨fun _ _ _ => Std.TransCmp.isLE_trans⟩
  List.pairwise_insertionSort _ _

/-- **No machine stands in the list twice** once duplicates are removed. -/
theorem nodup_nodeId_removeDuplicates (l : List BrowseResult) :
    ((removeDuplicates l).map BrowseResult.nodeId).Nodup := by
  have hsorted : (removeDuplicates l).Pairwise LE :=
    (pairwise_insertionSort l).sublist (List.destutter_sublist _ _)
  have hchain : (removeDuplicates l).IsChain fun l r => ¬ l.nodeId.equals r.nodeId :=
    List.isChain_destutter _ _
  rw [List.isChain_iff_forall_rel_of_append_cons_cons] at hchain
  -- neighbours are different, so the sorted list is strictly sorted
  let LT (l r : BrowseResult) : Prop := compare l.nodeId r.nodeId = .lt
  have hlt : (removeDuplicates l).IsChain LT := by
    rw [List.isChain_iff_forall_rel_of_append_cons_cons]
    intro a b l₁ l₂ h
    have hle : LE a b := by
      rw [h, List.pairwise_append, List.pairwise_cons] at hsorted
      exact hsorted.2.1.1 b List.mem_cons_self
    rcases Ordering.isLE_iff_eq_lt_or_eq_eq.mp hle with hlt | heq
    · exact hlt
    · have hne := hchain h
      rw [Std.LawfulEqOrd.eq_of_compare heq, NodeId.equals_self] at hne
      exact absurd rfl hne
  have : Trans LT LT LT := ⟨Std.TransCmp.lt_trans⟩
  rw [List.Nodup, List.pairwise_map]
  refine (List.isChain_iff_pairwise.mp hlt).imp fun {a b} (h : compare a.nodeId b.nodeId = .lt)
    heq => ?_
  have hself : compare b.nodeId b.nodeId = .eq := Std.ReflCmp.compare_self
  rw [heq, hself] at h
  cases h

/-! ### The check -/

/-- What a check has found, given who was known and the answers so far. -/
structure Findings.Of (known : NodeSet) (checks : List (NodeId × Bool)) (found : Findings) :
    Prop where
  toBeRemoved : ∀ n : NodeId, n ∈ found.toBeRemovedMachines ↔ n ∈ known ∧ (n, true) ∉ checks
  new : ∀ n : NodeId, n ∈ found.newMachines ↔ n ∉ known ∧ (n, true) ∈ checks
  identified : ∀ n : NodeId, n ∈ found.machinesIdentification ↔ (n, true) ∈ checks
  identification : ∀ (n : NodeId) json, found.machinesIdentification[n]? = some json →
    IsIdentification json

/-- The event of one answer. -/
def checkedEvent (c : NodeId × Bool) : ObserverEvent := .checkedOnline c.1 c.2

/-- The state after the machines `l` have been checked, with these answers. -/
def Checked (known : NodeSet) (s : ObserverState ω) (ids : List NodeId) (found : Findings)
    (s' : ObserverState ω) : Prop :=
  ∃ checks : List (NodeId × Bool), checks.map Prod.fst = ids ∧ found.Of known checks ∧
    s'.tables = s.tables ∧ s'.events = s.events ++ checks.map checkedEvent

variable {P : ObserverTables → Prop} {s : ObserverState ω}

theorem Findings.Of.offline {known : NodeSet} {checks : List (NodeId × Bool)} {found : Findings}
    (h : found.Of known checks) (n : NodeId) : found.Of known (checks ++ [(n, false)]) where
  toBeRemoved m := by simpa using h.toBeRemoved m
  new m := by simpa using h.new m
  identified m := by simpa using h.identified m
  identification := h.identification

/-- One check, of a machine that was not checked before. -/
theorem leaves_checkMachine {known : NodeSet} {ids : List NodeId} {found : Findings}
    {s s₀ : ObserverState ω} {m : BrowseResult} (hP : s.Traced P)
    (h : Checked known s₀ ids found s) (hm : m.nodeId ∉ ids) :
    (checkMachine o found m).Leaves s (ObserverState.Traced P)
      (Checked known s₀ (ids ++ [m.nodeId])) := by
  obtain ⟨checks, hids, hfound, htables, hevents⟩ := h
  have hnew : (m.nodeId, true) ∉ checks := fun hmem =>
    hm (hids ▸ List.mem_map.mpr ⟨_, hmem, rfl⟩)
  have hsame : IgnoresWorld fun s' : ObserverState ω =>
      s'.Traced P ∧ s'.tables = s.tables ∧ s'.events = s.events := fun _ _ h => h
  unfold checkMachine
  refine Prog.Leaves.bind (Q := fun r s' => (∀ json ∈ r, IsIdentification json) ∧
    s'.tables = s.tables ∧ s'.events = s.events) ?_ ?_
  · refine Prog.Ends.mono
      (keeps_isOnline o hsame.readsKeep m.nodeId m.typeDefinition s ⟨hP, rfl, rfl⟩) ?_
    rintro out s' ⟨⟨htr, ht, hs⟩, hr⟩
    exact ⟨htr, fun r h => ⟨hr r h, ht, hs⟩⟩
  rintro r s₁ htr₁ ⟨hr, ht₁, hs₁⟩
  have hlog : ∀ b, (s₁.log (.checkedOnline m.nodeId b)).Traced P := fun b =>
    (ObserverState.traced_log _).mpr htr₁
  refine Prog.Leaves.bind (Q := fun _ s' => s' = s₁.log (.checkedOnline m.nodeId r.isSome))
    (Prog.leaves_modify (hlog _) rfl) ?_
  rintro _ s₂ htr₂ rfl
  have hevents' : (s₁.log (.checkedOnline m.nodeId r.isSome)).events =
      s₀.events ++ (checks ++ [(m.nodeId, r.isSome)]).map checkedEvent := by
    rw [ObserverState.events_log, hs₁, hevents]
    simp [checkedEvent]
  have hids' : (checks ++ [(m.nodeId, r.isSome)]).map Prod.fst = ids ++ [m.nodeId] := by
    simp [hids]
  have htables' : (s₁.log (.checkedOnline m.nodeId r.isSome)).tables = s₀.tables := by
    rw [ObserverState.tables_log, ht₁, htables]
  cases r with
  | none =>
    exact Prog.leaves_pure htr₂ ⟨_, hids', hfound.offline m.nodeId, htables', hevents'⟩
  | some json =>
    have hident : ∀ n json', (found.machinesIdentification.insertIfNew m.nodeId json)[n]? =
        some json' → IsIdentification json' := fun n json' h => by
      rw [Std.ExtTreeMap.getElem?_insertIfNew] at h
      split_ifs at h
      · cases h
        exact hr _ rfl
      · exact hfound.identification n json' h
    have hidentified : ∀ n, n ∈ found.machinesIdentification.insertIfNew m.nodeId json ↔
        (n, true) ∈ checks ++ [(m.nodeId, true)] := fun n => by
      rw [Std.ExtTreeMap.mem_insertIfNew, Std.LawfulEqCmp.compare_eq_iff_eq,
        hfound.identified n]
      simp [or_comm, eq_comm]
    dsimp only
    -- a known machine stays, and any other one is new
    split_ifs with hstay
    · refine Prog.leaves_pure htr₂ ⟨_, hids', ⟨fun n => ?_, fun n => ?_, hidentified, hident⟩,
        htables', hevents'⟩
      · rw [Std.ExtTreeSet.mem_erase, hfound.toBeRemoved n, ne_eq,
          Std.LawfulEqCmp.compare_eq_iff_eq]
        simp [eq_comm, and_comm, and_assoc]
      · rw [hfound.new n]
        have hknown := ((hfound.toBeRemoved m.nodeId).mp hstay).1
        simp only [List.mem_append, List.mem_singleton, Prod.mk.injEq]
        constructor
        · exact fun h => ⟨h.1, .inl h.2⟩
        · rintro ⟨hn, h | ⟨rfl, -⟩⟩
          · exact ⟨hn, h⟩
          · exact absurd hknown hn
    · have hunknown : m.nodeId ∉ known := fun h =>
        hstay ((hfound.toBeRemoved m.nodeId).mpr ⟨h, hnew⟩)
      refine Prog.leaves_pure htr₂ ⟨_, hids', ⟨fun n => ?_, fun n => ?_, hidentified, hident⟩,
        htables', hevents'⟩
      · rw [hfound.toBeRemoved n]
        simp only [List.mem_append, List.mem_singleton, Prod.mk.injEq, not_or]
        constructor
        · exact fun h => ⟨h.1, h.2, fun h' => hunknown (h'.1 ▸ h.1)⟩
        · exact fun h => ⟨h.1, h.2.1⟩
      · rw [Std.ExtTreeSet.mem_insert, hfound.new n]
        simp only [Std.LawfulEqCmp.compare_eq_iff_eq, List.mem_append, List.mem_singleton,
          Prod.mk.injEq]
        constructor
        · rintro (rfl | h)
          · exact ⟨hunknown, .inr ⟨rfl, rfl⟩⟩
          · exact ⟨h.1, .inl h.2⟩
        · rintro ⟨hn, h | ⟨rfl, -⟩⟩
          · exact .inr ⟨hn, h⟩
          · exact .inl rfl

/-- **The check of a list without repetitions** leaves the tables alone and sorts the machines
by who was known and who is online. -/
theorem leaves_findNewAndOfflineMachines {l : List BrowseResult} {known : NodeSet}
    (hnodup : (l.map BrowseResult.nodeId).Nodup) (hP : s.Traced P) :
    (findNewAndOfflineMachines o l known).Leaves s (ObserverState.Traced P)
      (Checked known s (l.map BrowseResult.nodeId)) := by
  refine (Prog.leaves_foldEach
    (I := fun xs found s' => ∃ ids, ids ++ xs.map BrowseResult.nodeId = l.map BrowseResult.nodeId ∧
      Checked known s ids found s') ?_ l hP ⟨[], rfl, [], rfl, ?_, rfl, by simp⟩).mono ?_
  · rintro m xs found s' htr ⟨ids, hids, h⟩
    have hm : m.nodeId ∉ ids := fun hmem => by
      rw [← hids] at hnodup
      exact (List.disjoint_of_nodup_append hnodup) hmem (by simp)
    refine (leaves_checkMachine o htr h hm).mono fun found' s'' _ h' => ?_
    exact ⟨ids ++ [m.nodeId], by simpa using hids, h'⟩
  · exact ⟨by simp, by simp, by simp, by simp⟩
  · rintro found s' - ⟨ids, hids, h⟩
    rw [List.map_nil, List.append_nil] at hids
    exact hids ▸ h

end Observer

end UmatiDashboard
