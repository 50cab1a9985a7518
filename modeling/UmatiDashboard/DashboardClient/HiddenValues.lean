import UmatiDashboard.DashboardClient.WrittenJson

/-!
# Values that do not show

If all values are strings, the form of the JSON does not depend on them (`form_modelToJson`), and
the value of a variable that does not show can be changed without changing the JSON
(`jsonAs_eq_of_not_mem_shown`).
-/

namespace UmatiDashboard

namespace ModelToJson

open Node

variable {v w : NodePtr → Json}

/-! ### The form of the JSON -/

/-- What an assignment to a member depends on. -/
inductive Form where
  | null
  | object
  | bare
  deriving DecidableEq

/-- The form of a JSON value. -/
def form : Json → Form
  | .null => .null
  | .object _ => .object
  | _ => .bare

theorem isNull_eq_of_form {j j' : Json} (h : form j = form j') : j.isNull = j'.isNull := by
  cases j <;> cases j' <;> simp_all [form, Json.isNull]

theorem form_ofMembers (members : List (String × Json)) :
    form (.ofMembers members) = if members.isEmpty then .null else .object := by
  cases members <;> rfl

theorem form_finish {x y : Except Exception Json} (h : x.map form = y.map form) (element : Bool)
    (typeDefinition : NodeId) :
    (x.bind (finish element typeDefinition)).map form =
      (y.bind (finish element typeDefinition)).map form := by
  cases element with
  | false =>
    have hfinish : finish false typeDefinition = Except.ok := rfl
    rw [hfinish]
    cases x <;> cases y <;> exact h
  | true =>
    cases x with
    | error e =>
      cases y with
      | error e' => exact h
      | ok j => simp [Except.map] at h
    | ok j =>
      cases y with
      | error e' => simp [Except.map] at h
      | ok j' =>
        simp only [Except.map, Except.ok.injEq] at h
        cases j <;> cases j' <;>
          simp_all [form, finish, Except.bind, Except.map, Json.assign, Json.set]

theorem form_nodeJson {nodeClass : NodeClass} {nodeId : NodeId} {value value' : Json}
    {hasChildNodes : Bool} {members members' : List (String × Json)}
    (hvalue : form value = form value') (hmembers : members.isEmpty = members'.isEmpty) :
    form (nodeJson nodeClass nodeId value hasChildNodes members) =
      form (nodeJson nodeClass nodeId value' hasChildNodes members') := by
  by_cases hbase : (isBaseDataVariableType nodeClass nodeId && hasChildNodes) = true
  · simp only [nodeJson, hbase, if_true]
    rfl
  · simp only [nodeJson, if_neg hbase, hmembers]
    split_ifs
    · exact hvalue
    · rw [form_ofMembers, form_ofMembers, hmembers]

/-- One more member of the same form leaves the same members empty. -/
private theorem isEmpty_putMembers_cons {x y : Except Exception Json}
    (hform : x.map form = y.map form) {xs ys : List (String × Except Exception Json)}
    (hrest : ∀ members members' : List (String × Json), members.isEmpty = members'.isEmpty →
      (Json.putMembers members xs).map List.isEmpty =
        (Json.putMembers members' ys).map List.isEmpty)
    {members members' : List (String × Json)} (h : members.isEmpty = members'.isEmpty)
    (key : String) :
    (Json.putMembers members ((key, x) :: xs)).map List.isEmpty =
      (Json.putMembers members' ((key, y) :: ys)).map List.isEmpty := by
  cases x with
  | error e =>
    cases y with
    | error e' =>
      obtain rfl : e = e' := by simpa [Except.map] using hform
      rfl
    | ok j => simp [Except.map] at hform
  | ok j =>
    cases y with
    | error e => simp [Except.map] at hform
    | ok j' =>
      have hnull : j.isNull = j'.isNull := isNull_eq_of_form (by simpa [Except.map] using hform)
      rw [Json.putMembers_cons_ok, Json.putMembers_cons_ok, hnull]
      refine hrest _ _ ?_
      split_ifs
      · exact h
      · have hput : ∀ (j : Json) (m : List (String × Json)),
            (Json.putMember key j m).isEmpty = false :=
          fun j m => List.isEmpty_eq_false_iff.mpr (Json.putMember_ne_nil key j m)
        rw [hput, hput]

mutual

/-- The form of the JSON does not depend on which strings the values are. -/
theorem form_modelToJson (hv : Strings v) (hw : Strings w) : ∀ n : Node, DistinctNames n →
    (modelToJson v {} n).map form = (modelToJson w {} n).map form
  | .simple d ptr nodeId typeNodeId b childNodes, hd => by
    simp only [DistinctNames] at hd
    by_cases hrule : isSimpleRule d.modellingRule = true
    · have hmembers : (Json.putMembers [] (childEntries v childNodes)).map List.isEmpty =
          (Json.putMembers [] (childEntries w childNodes)).map List.isEmpty :=
        isEmpty_childEntries hv hw childNodes hd.2 rfl
      have hvalue : form (v ptr) = form (w ptr) := by
        obtain ⟨s, hs⟩ := hv ptr
        obtain ⟨s', hs'⟩ := hw ptr
        rw [hs, hs']
        rfl
      rw [modelToJson_simple hrule ptr nodeId typeNodeId b hd.1,
        modelToJson_simple hrule ptr nodeId typeNodeId b hd.1]
      cases hm : Json.putMembers [] (childEntries v childNodes) <;>
        cases hm' : Json.putMembers [] (childEntries w childNodes) <;>
          simp_all [Except.map]
      exact form_nodeJson hvalue (by simpa using hmembers)
    · rw [Bool.not_eq_true] at hrule
      rw [modelToJson_simple_of_not_rule hrule, modelToJson_simple_of_not_rule hrule]
  | .placeholder d instances, hd => by
    simp only [DistinctNames] at hd
    by_cases hrule : isPlaceholderRule d.modellingRule = true
    · have hmembers : (Json.putMembers [] (instanceEntries v instances)).map List.isEmpty =
          (Json.putMembers [] (instanceEntries w instances)).map List.isEmpty :=
        isEmpty_instanceEntries hv hw instances hd.2 rfl
      rw [modelToJson_placeholder hrule, modelToJson_placeholder hrule]
      cases hm : Json.putMembers [] (instanceEntries v instances) <;>
        cases hm' : Json.putMembers [] (instanceEntries w instances) <;>
          simp_all [Except.map, form_ofMembers]
    · rw [Bool.not_eq_true] at hrule
      rw [modelToJson_placeholder_of_not_rule hrule, modelToJson_placeholder_of_not_rule hrule]

theorem isEmpty_childEntries (hv : Strings v) (hw : Strings w) : ∀ (ns : List Node),
    DistinctNamesOfChildren ns → ∀ {members members' : List (String × Json)},
    members.isEmpty = members'.isEmpty →
      (Json.putMembers members (childEntries v ns)).map List.isEmpty =
        (Json.putMembers members' (childEntries w ns)).map List.isEmpty
  | [], _, members, members', h => by simp [childEntries, Except.map, h]
  | n :: ns, hd, members, members', h => by
    simp only [DistinctNamesOfChildren] at hd
    have hform : (memberJson v n).map form = (memberJson w n).map form := by
      rw [hv.memberJson_eq, hw.memberJson_eq]
      exact form_modelToJson hv hw n hd.1
    exact isEmpty_putMembers_cons hform
      (fun _ _ h => isEmpty_childEntries hv hw ns hd.2 h) h n.bareName

theorem isEmpty_instanceEntries (hv : Strings v) (hw : Strings w) :
    ∀ (is : List (PlaceholderElement Node)), DistinctNamesOfInstances is →
    ∀ {members members' : List (String × Json)}, members.isEmpty = members'.isEmpty →
      (Json.putMembers members (instanceEntries v is)).map List.isEmpty =
        (Json.putMembers members' (instanceEntries w is)).map List.isEmpty
  | [], _, members, members', h => by simp [instanceEntries, Except.map, h]
  | ⟨pNode, browseName, typeDefinition⟩ :: rest, hd, members, members', h => by
    simp only [DistinctNamesOfInstances] at hd
    exact isEmpty_putMembers_cons
      (form_finish (form_modelToJson hv hw pNode hd.1) true typeDefinition)
      (fun _ _ h => isEmpty_instanceEntries hv hw rest hd.2 h) h browseName.name

end

/-! ### A value that does not show can be changed -/

theorem jsonAs_congr {n : Node} (h : ∀ p ∈ variablePtrs n, v p = w p) (element : Bool)
    (typeDefinition : NodeId) :
    jsonAs element typeDefinition v n = jsonAs element typeDefinition w n := by
  rw [jsonAs, jsonAs, modelToJson_congr n h]

/-- A child that is written again later, or under the key of the further member, leaves no trace
but the form of its JSON. -/
theorem putMembers_hidden {x y : Except Exception Json} (hform : x.map form = y.map form)
    {key : String} {xs : List (String × Except Exception Json)}
    (hkey : ∃ e ∈ xs, e.1 = key ∧ e.2 ≠ .ok .null) (members : List (String × Json)) :
    Json.putMembers members ((key, x) :: xs) = Json.putMembers members ((key, y) :: xs) := by
  cases x with
  | error e =>
    cases y with
    | error e' =>
      obtain rfl : e = e' := by simpa [Except.map] using hform
      rfl
    | ok j => simp [Except.map] at hform
  | ok j =>
    cases y with
    | error e => simp [Except.map] at hform
    | ok j' =>
      have hnull : j.isNull = j'.isNull := isNull_eq_of_form (by simpa [Except.map] using hform)
      rw [Json.putMembers_cons_ok, Json.putMembers_cons_ok, hnull]
      split_ifs
      · rfl
      · exact Json.putMembers_overwritten j j' hkey members

theorem mem_elementTail (typeDefinition : NodeId) :
    ∃ e ∈ elementTail true typeDefinition, e.1 = typeDefinitionKey ∧ e.2 ≠ .ok .null :=
  ⟨_, List.mem_singleton_self _, rfl, by simp⟩

/-- A bare value is no JSON of an instance. -/
theorem finish_bare {x y : Except Exception Json} (hform : x.map form = y.map form)
    (hx : ∀ j, x = .ok j → ∃ s, j = .string s) (hy : ∀ j, y = .ok j → ∃ s, j = .string s)
    (typeDefinition : NodeId) :
    x.bind (finish true typeDefinition) = y.bind (finish true typeDefinition) := by
  cases x with
  | error e =>
    cases y with
    | error e' =>
      obtain rfl : e = e' := by simpa [Except.map] using hform
      rfl
    | ok j => simp [Except.map] at hform
  | ok j =>
    cases y with
    | error e => simp [Except.map] at hform
    | ok j' =>
      obtain ⟨s, rfl⟩ := hx j rfl
      obtain ⟨s', rfl⟩ := hy j' rfl
      rfl

mutual

/-- **The value of a variable that does not show can be changed** without changing the JSON. -/
theorem jsonAs_eq_of_not_mem_shown {p : NodePtr} (hv : Strings v) (hw : Strings w)
    (hoff : ∀ q, q ≠ p → v q = w q) : ∀ (n : Node), DistinctNames n → (variablePtrs n).Nodup →
    ∀ (element : Bool) (typeDefinition : NodeId), p ∉ shown element n →
      jsonAs element typeDefinition v n = jsonAs element typeDefinition w n
  | .simple d ptr nodeId typeNodeId b childNodes, hd, hnodes, element, typeDefinition, hp => by
    have hchildNodes : (variablePtrsOfChildren childNodes).Nodup := by
      simp only [variablePtrs] at hnodes
      exact (List.nodup_append.mp hnodes).2.1
    have hdc : DistinctNamesOfChildren childNodes := by
      simp only [DistinctNames] at hd
      exact hd.2
    simp only [shown] at hp
    split_ifs at hp with hrule hbase hbare helement
    · -- the value stands beside the children
      rw [List.mem_cons, not_or] at hp
      have hmembers := putMembers_eq_of_not_mem_shown hv hw hoff childNodes hdc hchildNodes false
        typeDefinition hp.2 []
      have hnil : elementTail false typeDefinition = [] := rfl
      rw [hnil, List.append_nil, List.append_nil] at hmembers
      rw [jsonAs_of_base hrule hd hbase, jsonAs_of_base hrule hd hbase, hmembers,
        hoff ptr (Ne.symm hp.1)]
    · -- a bare value, which is no JSON for an instance
      rw [Bool.not_eq_true] at hbase
      rw [Bool.and_eq_true, Bool.not_eq_true'] at hbare
      have hstring : ∀ {u : NodePtr → Json}, Strings u → ∀ j,
          modelToJson u {} (.simple d ptr nodeId typeNodeId b childNodes) = .ok j →
            ∃ s, j = .string s := by
        intro u hu j hj
        obtain rfl := eq_value_of_bare (hu.written _).noneNull hrule hd hbase hbare.1 hbare.2 hj
        exact hu ptr
      subst helement
      exact finish_bare (form_modelToJson hv hw _ hd) (hstring hv) (hstring hw) typeDefinition
    · -- a bare value, which shows
      rw [Bool.not_eq_true] at helement
      rw [Bool.and_eq_true, Bool.not_eq_true'] at hbare
      rw [List.mem_singleton] at hp
      have hnone : p ∉ shownChildren false childNodes := by
        rw [shownChildren_of_not_rendered false childNodes hbare.2]
        exact List.not_mem_nil
      have hmembers := putMembers_eq_of_not_mem_shown hv hw hoff childNodes hdc hchildNodes false
        typeDefinition hnone []
      have hnil : elementTail false typeDefinition = [] := rfl
      rw [hnil, List.append_nil, List.append_nil] at hmembers
      simp only [DistinctNames] at hd
      rw [jsonAs, jsonAs, modelToJson_simple hrule ptr nodeId typeNodeId b hd.1,
        modelToJson_simple hrule ptr nodeId typeNodeId b hd.1, hmembers, hoff ptr (Ne.symm hp)]
    · -- the object of the children
      rw [Bool.not_eq_true] at hbase
      have hplain := renderedAny_of_not_bare hbare
      rw [jsonAs_of_plain hrule (hv.written _).noneNull hd hbase hplain,
        jsonAs_of_plain hrule (hw.written _).noneNull hd hbase hplain,
        putMembers_eq_of_not_mem_shown hv hw hoff childNodes hdc hchildNodes element typeDefinition
          hp []]
    · rw [Bool.not_eq_true] at hrule
      rw [jsonAs, jsonAs, modelToJson_simple_of_not_rule hrule,
        modelToJson_simple_of_not_rule hrule]
  | .placeholder d instances, hd, hnodes, element, typeDefinition, hp => by
    simp only [DistinctNames] at hd
    simp only [variablePtrs] at hnodes
    simp only [shown] at hp
    split_ifs at hp with hrule
    · rw [jsonAs_placeholder hrule, jsonAs_placeholder hrule,
        putMembers_eq_of_not_mem_shownInstances hv hw hoff instances hd.2 hnodes element
          typeDefinition hp []]
    · rw [Bool.not_eq_true] at hrule
      rw [jsonAs, jsonAs, modelToJson_placeholder_of_not_rule hrule,
        modelToJson_placeholder_of_not_rule hrule]

theorem putMembers_eq_of_not_mem_shown {p : NodePtr} (hv : Strings v) (hw : Strings w)
    (hoff : ∀ q, q ≠ p → v q = w q) : ∀ (ns : List Node), DistinctNamesOfChildren ns →
    (variablePtrsOfChildren ns).Nodup → ∀ (element : Bool) (typeDefinition : NodeId),
    p ∉ shownChildren element ns → ∀ members : List (String × Json),
      Json.putMembers members (childEntries v ns ++ elementTail element typeDefinition) =
        Json.putMembers members (childEntries w ns ++ elementTail element typeDefinition)
  | [], _, _, _, _, _, _ => rfl
  | n :: ns, hd, hnodes, element, typeDefinition, hp, members => by
    simp only [DistinctNamesOfChildren] at hd
    simp only [variablePtrsOfChildren] at hnodes
    obtain ⟨hn, hns, hdisjoint⟩ := List.nodup_append.mp hnodes
    simp only [shownChildren, List.mem_append, not_or] at hp
    by_cases hmem : p ∈ variablePtrs n
    · -- the variable is below the first child, the others do not depend on it
      have hothers : childEntries v ns = childEntries w ns := childEntries_congr fun q hq =>
        hoff q fun h => hdisjoint p hmem q hq h.symm
      simp only [childEntries, List.map_cons, List.cons_append] at hothers ⊢
      rw [← hothers]
      split_ifs at hp with hlast
      · have hform : (memberJson v n).map form = (memberJson w n).map form := by
          rw [hv.memberJson_eq, hw.memberJson_eq]
          exact form_modelToJson hv hw n hd.1
        -- its member is written over: by the further member or by a later sibling
        refine putMembers_hidden hform ?_ members
        rw [Bool.or_eq_true] at hlast
        rcases hlast with hfurther | hlater
        · rw [Bool.and_eq_true, beq_iff_eq] at hfurther
          obtain ⟨rfl, hkey⟩ := hfurther
          obtain ⟨e, he, hkey', hnull⟩ := mem_elementTail typeDefinition
          exact ⟨e, List.mem_append_right _ he, hkey'.trans hkey.symm, hnull⟩
        · obtain ⟨n', hn', hlater⟩ := List.any_eq_true.mp hlater
          rw [Bool.and_eq_true, beq_iff_eq] at hlater
          refine ⟨(n'.bareName, memberJson v n'), ?_, hlater.2, ?_⟩
          · exact List.mem_append_left _ (List.mem_map.mpr ⟨n', hn', rfl⟩)
          · intro hnull
            have hnot := (memberJson_eq_null_iff (distinctNames_of_mem hd.2 hn')
              (hv.written _).noneNull hnull).mp rfl
            rw [hlater.1] at hnot
            exact absurd hnot (by simp)
      · have hsame := jsonAs_eq_of_not_mem_shown hv hw hoff n hd.1 hn false typeDefinition hp.1
        rw [jsonAs_false, jsonAs_false] at hsame
        rw [memberJson, hsame, memberJson]
    · have hsame : memberJson v n = memberJson w n := by
        rw [memberJson, memberJson,
          modelToJson_congr n fun q hq => hoff q fun h => hmem (h ▸ hq)]
      have hrest :=
        putMembers_eq_of_not_mem_shown hv hw hoff ns hd.2 hns element typeDefinition hp.2
      simp only [childEntries, List.map_cons, List.cons_append] at hrest ⊢
      rw [hsame]
      cases memberJson w n with
      | error e => rfl
      | ok j => exact hrest _

theorem putMembers_eq_of_not_mem_shownInstances {p : NodePtr} (hv : Strings v) (hw : Strings w)
    (hoff : ∀ q, q ≠ p → v q = w q) : ∀ (is : List (PlaceholderElement Node)),
    DistinctNamesOfInstances is → (variablePtrsOfInstances is).Nodup →
    ∀ (element : Bool) (typeDefinition : NodeId), p ∉ shownInstances element is →
    ∀ members : List (String × Json),
      Json.putMembers members (instanceEntries v is ++ elementTail element typeDefinition) =
        Json.putMembers members (instanceEntries w is ++ elementTail element typeDefinition)
  | [], _, _, _, _, _, _ => rfl
  | ⟨pNode, browseName, elTypeDefinition⟩ :: rest, hd, hnodes, element, typeDefinition, hp,
      members => by
    simp only [DistinctNamesOfInstances] at hd
    simp only [variablePtrsOfInstances] at hnodes
    obtain ⟨hn, hrest, hdisjoint⟩ := List.nodup_append.mp hnodes
    simp only [shownInstances, List.mem_append, not_or] at hp
    by_cases hmem : p ∈ variablePtrs pNode
    · have hothers : instanceEntries v rest = instanceEntries w rest :=
        instanceEntries_congr fun q hq => hoff q fun h => hdisjoint p hmem q hq h.symm
      simp only [instanceEntries, List.map_cons, List.cons_append] at hothers ⊢
      rw [← hothers]
      split_ifs at hp with hlast
      · refine putMembers_hidden
          (form_finish (form_modelToJson hv hw pNode hd.1) true elTypeDefinition) ?_ members
        rw [Bool.or_eq_true] at hlast
        rcases hlast with hfurther | hlater
        · rw [Bool.and_eq_true, beq_iff_eq] at hfurther
          obtain ⟨rfl, hkey⟩ := hfurther
          obtain ⟨e, he, hkey', hnull⟩ := mem_elementTail typeDefinition
          exact ⟨e, List.mem_append_right _ he, hkey'.trans hkey.symm, hnull⟩
        · obtain ⟨el, hel, hlater⟩ := List.any_eq_true.mp hlater
          rw [beq_iff_eq] at hlater
          refine ⟨(el.browseName.name, elementJson v el.typeDefinition el.pNode), ?_, hlater,
            fun h => elementJson_ne_null h rfl⟩
          exact List.mem_append_left _ (List.mem_map.mpr ⟨el, hel, rfl⟩)
      · have hsame := jsonAs_eq_of_not_mem_shown hv hw hoff pNode hd.1 hn true elTypeDefinition
          hp.1
        rw [jsonAs_true, jsonAs_true] at hsame
        rw [hsame]
    · have hsame : elementJson v elTypeDefinition pNode = elementJson w elTypeDefinition pNode :=
        jsonAs_congr (fun q hq => hoff q fun h => hmem (h ▸ hq)) true elTypeDefinition
      have hlater := putMembers_eq_of_not_mem_shownInstances hv hw hoff rest hd.2 hrest element
        typeDefinition hp.2
      simp only [instanceEntries, List.map_cons, List.cons_append] at hlater ⊢
      rw [hsame]
      cases elementJson w elTypeDefinition pNode with
      | error e => rfl
      | ok j => exact hlater _

end

end ModelToJson

end UmatiDashboard
