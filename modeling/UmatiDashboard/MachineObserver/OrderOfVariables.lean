import UmatiDashboard.MachineObserver.Readings
import UmatiDashboard.OpcUaClient.OrderOfResults
import UmatiDashboard.Util.JsonMembers

/-!
# The order of the identification variables

A machine is online if its identification can be read. The nodes that are read are the variables
that the server lists, in its order. So the verdict on a machine is that of `readValues2`
(`isOnline_iff`), and it depends on the order only in so far as the first result does
(`orderFree_iff`).
-/

namespace UmatiDashboard

/-- The interface of the data client knows returned values and exceptions. Undefined behaviour,
that of reading no nodes at all, is taken for an exception. -/
def Outcome.toExcept {α : Type} : Outcome Exception α → Except Exception α
  | .ok a => .ok a
  | .throw e => .error e
  | .stuck _ => .error (.std "")

namespace Observer

variable {ω : Type} (o : Observer ω)

/-- The observer of a server that lists these variables for the node that is browsed, where nodes
are read by `read`. -/
def withVariables (read : List NodeId → Outcome Exception (List Json))
    (variableList : List BrowseResult) : Observer ω where
  client := { o.client with
    browse := fun n ctx w => (.ok variableList, (o.client.browse n ctx w).2)
    readeNodeValues := fun ns w => ((read ns).toExcept, (o.client.readeNodeValues ns w).2) }
  reader := o.reader
  machinesFilter := o.machinesFilter
  topics := o.topics

variable (machineNodeId typeDefinition : NodeId) (s : ObserverState ω)

/-- `isOnline` says that the machine is online. -/
def SaysOnline : Prop :=
  ∃ json, ((isOnline o machineNodeId typeDefinition).run s).1 = .ok (some json)

/-- The machine has an identification, of a type that is known. -/
def HasIdentification : Prop :=
  ∃ p_type type, o.reader.getIdentificationTypeStructureNode typeDefinition = .ok p_type ∧
    o.reader.nameToId[(o.reader.node p_type).specifiedBrowseName.uri ++ ";" ++
      (o.reader.node p_type).specifiedBrowseName.name]? = some type ∧
    (∃ first rest, (o.data.browseHasComponent machineNodeId type s.world).1 =
      .ok (first :: rest)) ∧
    ∃ ref, o.reader.typeDefinitionToStructureNode typeDefinition = .ok ref

/-! ### The verdict -/

/-- There is a key for every value, so the values are collected. -/
theorem exists_identificationData : ∀ {values : List Json} {keys : List String} {json : Json},
    (json = .null ∨ ∃ members, json = .object members) → values.length ≤ keys.length →
      ∃ data, identificationData json values keys = .ok data
  | [], keys, json, _, _ => ⟨json, rfl⟩
  | value :: values, [], json, _, h => by simp at h
  | value :: values, key :: keys, json, hjson, h => by
    have hlength : values.length ≤ keys.length := by simpa using h
    rw [identificationData]
    split_ifs with hnull
    · exact exists_identificationData hjson hlength
    · obtain ⟨members, hassign⟩ : ∃ members, json.assign key value = .ok (.object members) := by
        rcases hjson with rfl | ⟨members, rfl⟩
        · exact ⟨_, rfl⟩
        · exact ⟨_, rfl⟩
      simp only [hassign, bind, Except.bind]
      exact exists_identificationData (.inr ⟨members, rfl⟩) hlength

variable {o machineNodeId typeDefinition s}
  {read : List NodeId → Outcome Exception (List Json)} {variableList : List BrowseResult}

theorem isEmpty_identificationOf {named : Bool} {specification : String} {data : Json} :
    (o.identificationOf named machineNodeId specification data).isEmpty = false := by
  cases named with
  | false => rfl
  | true => simp [identificationOf, Json.isEmpty, Json.putMember_ne_nil]

/-- A call whose answer is known. -/
theorem ends_ask_of_ok {α : Type} {f : Recorded ω → Except Exception α × Recorded ω} {a : α}
    {w : Recorded ω} {Q : Outcome Exception α → ObserverState ω → Prop}
    (h : f s.world = (.ok a, w)) : (ask f).Ends s Q ↔ Q (.ok a) (s.withWorld w) := by
  rw [ends_ask, h]
  simp

theorem ends_ask_of_error {α : Type} {f : Recorded ω → Except Exception α × Recorded ω}
    {e : Exception} {w : Recorded ω} {Q : Outcome Exception α → ObserverState ω → Prop}
    (h : f s.world = (.error e, w)) : (ask f).Ends s Q ↔ Q (.throw e) (s.withWorld w) := by
  rw [ends_ask, h]
  simp

/-- The call that lists the variables. -/
theorem ends_ask_browse_withVariables {n : NodeId} {context : BrowseContext}
    {Q : Outcome Exception (List BrowseResult) → ObserverState ω → Prop} :
    (ask ((o.withVariables read variableList).data.browse n context)).Ends s Q ↔
      Q (.ok variableList) (s.withWorld
        ((o.withVariables read variableList).data.browse n context s.world).2) :=
  ends_ask_of_ok rfl

variable (o machineNodeId typeDefinition) in
/-- The identification is read if the type is known and the variables can be read. -/
theorem ends_browseIdentificationValues_withVariables (identification : BrowseResult)
    (hread : ∀ values, read (variableList.map BrowseResult.nodeId) = .ok values →
      values.length = variableList.length) :
    (browseIdentificationValues (o.withVariables read variableList) machineNodeId typeDefinition
        identification).Ends s (fun out _ => ∃ json, out = .ok json ∧ json.isEmpty = false) ↔
      (∃ ref, o.reader.typeDefinitionToStructureNode typeDefinition = .ok ref) ∧
        ∃ values, read (variableList.map BrowseResult.nodeId) = .ok values := by
  have hreader : (o.withVariables read variableList).reader = o.reader := rfl
  unfold browseIdentificationValues
  rw [hreader, Prog.ends_bind]
  cases href : o.reader.typeDefinitionToStructureNode typeDefinition with
  | error e => simp [ends_liftExcept]
  | ok ref =>
    simp only [ends_liftExcept, Except.ok.injEq, forall_eq', reduceCtorEq, false_imp_iff,
      implies_true, and_true, Outcome.follow_ok, exists_eq', true_and]
    rw [Prog.ends_bind, ends_ask_browse_withVariables, Outcome.follow_ok, Prog.ends_bind]
    generalize s.withWorld _ = s₁
    obtain ⟨w, hcall⟩ : ∃ w, (o.withVariables read variableList).data.readeNodeValues
        (variableList.map BrowseResult.nodeId) s₁.world =
          ((read (variableList.map BrowseResult.nodeId)).toExcept, w) := ⟨_, rfl⟩
    cases hout : read (variableList.map BrowseResult.nodeId) with
    | throw e =>
      rw [hout] at hcall
      simp [ends_ask_of_error hcall]
    | stuck why =>
      rw [hout] at hcall
      simp [ends_ask_of_error hcall]
    | ok values =>
      rw [hout] at hcall
      have hlength : values.length ≤ (variableList.map fun r => r.browseName.name).length := by
        simp [hread values hout]
      obtain ⟨data, hdata⟩ := exists_identificationData (.inl rfl : Json.null = .null ∨ _) hlength
      refine iff_of_true ((ends_ask_of_ok hcall).mpr ?_) ⟨_, rfl⟩
      simp only [Outcome.follow_ok, Prog.ends_bind, hdata, liftExcept, Prog.ends_pure,
        Json.assign_null, ends_tables]
      rw [addTopic_eq]
      exact ⟨_, rfl, isEmpty_identificationOf⟩

/-- **The verdict on a machine** hangs on the variables only in so far as they can be read. -/
theorem saysOnline_withVariables_iff
    (hread : ∀ values, read (variableList.map BrowseResult.nodeId) = .ok values →
      values.length = variableList.length) :
    (o.withVariables read variableList).SaysOnline machineNodeId typeDefinition s ↔
      o.HasIdentification machineNodeId typeDefinition s ∧
        ∃ values, read (variableList.map BrowseResult.nodeId) = .ok values := by
  have hreader : (o.withVariables read variableList).reader = o.reader := rfl
  have hcomponent : ∀ type, (o.withVariables read variableList).data.browseHasComponent
      machineNodeId type = o.data.browseHasComponent machineNodeId type := fun _ => rfl
  change (isOnline (o.withVariables read variableList) machineNodeId typeDefinition).Ends s
    (fun out _ => ∃ json, out = .ok (some json)) ↔ _
  unfold isOnline
  rw [Prog.ends_catching, Prog.ends_bind, hreader]
  cases hp : o.reader.getIdentificationTypeStructureNode typeDefinition with
  | error e =>
    have hnot : ¬ o.HasIdentification machineNodeId typeDefinition s := by
      rintro ⟨p, -, hp', -⟩
      rw [hp] at hp'
      cases hp'
    simp [ends_liftExcept, hnot]
  | ok p_type =>
    simp only [liftExcept, Prog.ends_pure, Outcome.follow_ok]
    cases htype : o.reader.nameToId[(o.reader.node p_type).specifiedBrowseName.uri ++ ";" ++
        (o.reader.node p_type).specifiedBrowseName.name]? with
    | none =>
      have hnot : ¬ o.HasIdentification machineNodeId typeDefinition s := by
        rintro ⟨p, type, hp', htype', -⟩
        rw [hp] at hp'
        cases hp'
        rw [htype] at htype'
        cases htype'
      simp [hnot]
    | some type =>
      obtain ⟨answer, w, hcall⟩ : ∃ answer w,
        o.data.browseHasComponent machineNodeId type s.world = (answer, w) := ⟨_, _, rfl⟩
      have hid : o.HasIdentification machineNodeId typeDefinition s ↔
          (∃ first rest, answer = .ok (first :: rest)) ∧
            ∃ ref, o.reader.typeDefinitionToStructureNode typeDefinition = .ok ref := by
        constructor
        · rintro ⟨p, t, hp', ht, hfirst, href⟩
          rw [hp] at hp'
          cases hp'
          rw [htype] at ht
          cases ht
          rw [hcall] at hfirst
          exact ⟨hfirst, href⟩
        · rintro ⟨hfirst, href⟩
          exact ⟨p_type, type, hp, htype, by rwa [hcall], href⟩
      rw [hid]
      rw [← hcomponent] at hcall
      rw [Prog.ends_bind]
      cases answer with
      | error e => simp [ends_ask_of_error hcall]
      | ok identification =>
        rw [ends_ask_of_ok hcall, Outcome.follow_ok]
        cases identification with
        | nil => simp
        | cons first rest =>
          have hvalues := ends_browseIdentificationValues_withVariables o machineNodeId
            typeDefinition (s := s.withWorld w) first hread
          have hfirst : ∃ first' rest', (.ok (first :: rest) : Except Exception _) =
              .ok (first' :: rest') := ⟨first, rest, rfl⟩
          rw [and_iff_right hfirst, ← hvalues, Prog.ends_bind, Prog.ends_iff_run,
            Prog.ends_iff_run]
          -- the object that was read is not empty
          generalize (browseIdentificationValues _ _ _ _).run (s.withWorld w) = r
          obtain ⟨out, s'⟩ := r
          cases out with
          | ok json => simp
          | throw e => simp
          | stuck why => simp

end Observer

/-! ### Two orders of the variables -/

section Orders

open ServiceClient (readValues2 readEnd run_readValues2 readsAlike_iff eq_valuesOf_of_readEnd
  FirstAlike valuesOf)

variable {χ κ δ : Type} (statusName : UInt32 → String) (prepare : NodeId → Except Exception Unit)
  (results : NodeId → UaDataValue δ) (value : δ → Json) (c : ServiceClient χ κ) {n : ℕ}
  (variableOf : Fin n → BrowseResult) (σ : Equiv.Perm (Fin n))

/-- How a list of nodes is read. -/
def readNodes (nodes : List NodeId) : Outcome Exception (List Json) :=
  ((readValues2 statusName prepare results value nodes).run c).1

/-- Reading the variables ends alike in the order in which they are given and in another one, and
so does asking whether a machine is online that lists them in these orders. -/
structure OrderFree : Prop where
  reads : ReadsAlike σ
    (readNodes statusName prepare results value c
      ((List.ofFn variableOf).map BrowseResult.nodeId))
    (readNodes statusName prepare results value c
      ((List.ofFn (variableOf ∘ σ)).map BrowseResult.nodeId))
  online : ∀ {ω : Type} (o : Observer ω) (machineNodeId typeDefinition : NodeId)
    (s : ObserverState ω),
    (o.withVariables (readNodes statusName prepare results value c)
        (List.ofFn variableOf)).SaysOnline machineNodeId typeDefinition s ↔
      (o.withVariables (readNodes statusName prepare results value c)
        (List.ofFn (variableOf ∘ σ))).SaysOnline machineNodeId typeDefinition s

theorem readNodes_eq :
    readNodes statusName prepare results value c = readEnd statusName prepare results value := by
  funext nodes
  rw [readNodes, run_readValues2]

/-- The nodes of the variables. -/
def nodeOf (i : Fin n) : NodeId := (variableOf i).nodeId

theorem map_nodeId_ofFn :
    (List.ofFn variableOf).map BrowseResult.nodeId = List.ofFn (nodeOf variableOf) := by
  rw [List.map_ofFn]
  rfl

variable {variableOf σ prepare results}

/-- The condition is one on the two orders. -/
theorem firstAlike_symm {nodes : Fin n → NodeId} (h : FirstAlike nodes σ results) :
    FirstAlike (nodes ∘ σ) σ.symm results := by
  intro i hi
  rw [Function.comp_apply, Function.comp_apply, Equiv.apply_symm_apply]
  exact (h i hi).symm

/-- If one of the two reads returns, then so does the other. -/
theorem exists_readEnd_ok_iff {nodes : Fin n → NodeId}
    (h : (∃ i, prepare (nodes i) ≠ .ok ()) ∨ FirstAlike nodes σ results) :
    (∃ values, readEnd statusName prepare results value (List.ofFn nodes) = .ok values) ↔
      ∃ values, readEnd statusName prepare results value (List.ofFn (nodes ∘ σ)) = .ok values := by
  constructor
  · rintro ⟨values, hvalues⟩
    obtain ⟨v, -, hv⟩ := ((readsAlike_iff statusName prepare results value nodes σ).mpr h).values
      values hvalues
    exact ⟨_, hv⟩
  · rintro ⟨values, hvalues⟩
    have hsymm : (∃ i, prepare ((nodes ∘ σ) i) ≠ .ok ()) ∨
        FirstAlike (nodes ∘ σ) σ.symm results := by
      refine h.imp ?_ firstAlike_symm
      rintro ⟨i, hi⟩
      exact ⟨σ.symm i, by rwa [Function.comp_apply, Equiv.apply_symm_apply]⟩
    obtain ⟨v, -, hv⟩ := ((readsAlike_iff statusName prepare results value (nodes ∘ σ) σ.symm).mpr
      hsymm).values values hvalues
    have hback : (nodes ∘ σ) ∘ σ.symm = nodes := by
      funext i
      simp
    rw [hback] at hv
    exact ⟨_, hv⟩

variable (variableOf σ prepare results)

/-- **When the order of the variables does not matter**: if and only if some node id cannot be
converted, or the variables that come first in the two orders are both read with a bad status or
both not. -/
theorem orderFree_iff :
    OrderFree statusName prepare results value c variableOf σ ↔
      (∃ i, prepare (nodeOf variableOf i) ≠ .ok ()) ∨
        FirstAlike (nodeOf variableOf) σ results := by
  have hnodes : nodeOf (variableOf ∘ σ) = nodeOf variableOf ∘ σ := rfl
  constructor
  · rintro ⟨hreads, -⟩
    rw [readNodes_eq, map_nodeId_ofFn, map_nodeId_ofFn, hnodes] at hreads
    exact (readsAlike_iff statusName prepare results value (nodeOf variableOf) σ).mp hreads
  · intro h
    have hlength : ∀ (variableList : List BrowseResult) values,
        readEnd statusName prepare results value (variableList.map BrowseResult.nodeId) =
          .ok values → values.length = variableList.length := by
      intro variableList values hvalues
      rw [eq_valuesOf_of_readEnd statusName hvalues]
      simp [valuesOf]
    constructor
    · rw [readNodes_eq, map_nodeId_ofFn, map_nodeId_ofFn, hnodes]
      exact (readsAlike_iff statusName prepare results value (nodeOf variableOf) σ).mpr h
    · intro ω o machineNodeId typeDefinition s
      rw [readNodes_eq, Observer.saysOnline_withVariables_iff (hlength _),
        Observer.saysOnline_withVariables_iff (hlength _), map_nodeId_ofFn, map_nodeId_ofFn, hnodes,
        exists_readEnd_ok_iff statusName value h]

end Orders

/-! ### One variable that cannot be read -/

/-- Two variables of an identification. -/
def manufacturerAndModel : Fin 2 → BrowseResult := fun i =>
  { nodeClass := .variable, nodeId := ⟨"http://machine/", if i = 0 then "i=1" else "i=2"⟩,
    typeDefinition := ⟨"", "i=68"⟩, referenceTypeId := ⟨"", "i=46"⟩,
    browseName := ⟨"http://opcfoundation.org/UA/DI/", if i = 0 then "Manufacturer" else "Model"⟩ }

/-- The first of them cannot be read. -/
def modelOnly (node : NodeId) : UaDataValue Json :=
  if node.id = "i=1" then ⟨0x80000000, .null⟩ else ⟨0, .string "X 7"⟩

/-- In the order in which they are given the read throws; in the other order both values are
handed out, one of them null. -/
theorem not_orderFree_swap :
    let read := readNodes (fun _ => "") (fun _ => .ok ()) modelOnly id
      (⟨⟨true, true, ⟨1, 1, ∅⟩⟩, fun _ => none⟩ : ServiceClient Unit Unit)
    read [⟨"http://machine/", "i=1"⟩, ⟨"http://machine/", "i=2"⟩] =
        .throw (.opcUa "Received non good status for reading: ") ∧
      read [⟨"http://machine/", "i=2"⟩, ⟨"http://machine/", "i=1"⟩] =
        .ok [.string "X 7", .null] ∧
      ¬ OrderFree (fun _ => "") (fun _ => .ok ()) modelOnly id
        (⟨⟨true, true, ⟨1, 1, ∅⟩⟩, fun _ => none⟩ : ServiceClient Unit Unit)
        manufacturerAndModel (Equiv.swap 0 1) := by
  refine ⟨rfl, rfl, ?_⟩
  rintro ⟨⟨hthrows, -⟩, -⟩
  obtain ⟨e, he⟩ := hthrows.mp ⟨_, rfl⟩
  have hswapped : (List.ofFn (manufacturerAndModel ∘ Equiv.swap 0 1)).map BrowseResult.nodeId =
      [⟨"http://machine/", "i=2"⟩, ⟨"http://machine/", "i=1"⟩] := by decide
  rw [hswapped] at he
  cases he

end UmatiDashboard
