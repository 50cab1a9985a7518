import UmatiDashboard.DashboardClient.HiddenValues

/-!
# When the JSON of a tree loses no value

Two assignments with the same JSON agree on every variable that shows (`eq_of_mem_shown`), and an
assignment can be changed at every other variable without changing the JSON
(`jsonAs_update_of_not_mem_shown`).
-/

namespace UmatiDashboard

namespace ModelToJson

open Node

variable {v w : NodePtr → Json}

/-! ### The values that show can be read back -/

/-- A child that shows is read back from the members. -/
theorem lookup_of_shown {element : Bool} {typeDefinition : NodeId} {n : Node} {ns : List Node}
    (hd : DistinctNamesOfChildren (n :: ns)) (hv : NoneNull v (variablePtrsOfChildren (n :: ns)))
    {p : NodePtr} (hp : p ∈ shown false n)
    (hlast : ¬((element && n.bareName == typeDefinitionKey) ||
      ns.any (fun n' => rendered n' && n'.bareName == n.bareName)) = true)
    {members result : List (String × Json)}
    (h : Json.putMembers members
      (childEntries v (n :: ns) ++ elementTail element typeDefinition) = .ok result) :
    ∃ j, memberJson v n = .ok j ∧ j ≠ .null ∧ result.lookup n.bareName = some j := by
  simp only [DistinctNamesOfChildren] at hd
  rw [variablePtrsOfChildren, noneNull_append] at hv
  simp only [Bool.or_eq_true, Bool.and_eq_true, beq_iff_eq, List.any_eq_true, not_or, not_and,
    not_exists] at hlast
  have hall := Json.ok_of_mem_putMembers h
  simp only [childEntries, List.map_cons, List.cons_append] at h hall
  obtain ⟨j, hj⟩ := hall _ List.mem_cons_self
  simp only at hj
  rw [hj] at h
  have hne : j ≠ .null := by
    intro hnull
    have hnot := (memberJson_eq_null_iff hd.1 hv.1 hj).mp hnull
    rw [shown_of_not_rendered false n hnot] at hp
    exact absurd hp List.not_mem_nil
  refine ⟨j, hj, hne, Json.lookup_putMembers h hne ?_⟩
  · intro x hx hkey
    -- what is written under this key later is null, as it is not rendered
    obtain ⟨j', hj'⟩ := hall x (List.mem_cons_of_mem _ hx)
    rcases List.mem_append.mp hx with hx | hx
    · obtain ⟨n', hn', rfl⟩ := List.mem_map.mp hx
      have hnot : rendered n' = false := by
        by_contra hr
        exact hlast.2 n' hn' (by simpa using hr) hkey
      rw [hj', (memberJson_eq_null_iff (distinctNames_of_mem hd.2 hn')
        (hv.2.mono (variablePtrs_subset_of_mem hn')) hj').mpr hnot]
    · cases element with
      | false => simp [elementTail] at hx
      | true =>
        simp only [elementTail, if_true, List.mem_singleton] at hx
        subst hx
        exact absurd hkey.symm (hlast.1 rfl)

/-- An instance that shows is read back from the members. -/
theorem lookup_of_shown_instance {element : Bool} {typeDefinition : NodeId}
    {el : PlaceholderElement Node} {rest : List (PlaceholderElement Node)}
    (hlast : ¬((element && el.browseName.name == typeDefinitionKey) ||
      rest.any (fun el' => el'.browseName.name == el.browseName.name)) = true)
    {members result : List (String × Json)}
    (h : Json.putMembers members
      (instanceEntries v (el :: rest) ++ elementTail element typeDefinition) = .ok result) :
    ∃ j, elementJson v el.typeDefinition el.pNode = .ok j ∧
      result.lookup el.browseName.name = some j := by
  simp only [Bool.or_eq_true, Bool.and_eq_true, beq_iff_eq, List.any_eq_true, not_or, not_and,
    not_exists] at hlast
  have hall := Json.ok_of_mem_putMembers h
  simp only [instanceEntries, List.map_cons, List.cons_append] at h hall
  obtain ⟨j, hj⟩ := hall _ List.mem_cons_self
  simp only at hj
  rw [hj] at h
  refine ⟨j, hj, Json.lookup_putMembers h (elementJson_ne_null hj) ?_⟩
  intro x hx hkey
  rcases List.mem_append.mp hx with hx | hx
  · obtain ⟨el', hel', rfl⟩ := List.mem_map.mp hx
    exact absurd hkey (hlast.2 el' hel')
  · cases element with
    | false => simp [elementTail] at hx
    | true =>
      simp only [elementTail, if_true, List.mem_singleton] at hx
      subst hx
      exact absurd hkey.symm (hlast.1 rfl)

/-- The further member is under none of the keys of a variable. -/
theorem lookup_elementTail {element : Bool} {typeDefinition : NodeId} {key : String}
    (hkey : key ≠ typeDefinitionKey) {members result : List (String × Json)}
    (h : Json.putMembers members (elementTail element typeDefinition) = .ok result) :
    result.lookup key = members.lookup key := by
  refine Json.lookup_putMembers_of_unwritten h ?_
  intro x hx hx'
  cases element with
  | false => simp [elementTail] at hx
  | true =>
    simp only [elementTail, if_true, List.mem_singleton] at hx
    subst hx
    exact absurd hx'.symm hkey

mutual

/-- **The values that show are determined by the JSON.** -/
theorem eq_of_mem_shown : ∀ (n : Node), DistinctNames n → NoneNull v (variablePtrsBelow n) →
    NoneNull w (variablePtrsBelow n) → ∀ {element : Bool} {typeDefinition : NodeId} {j : Json},
      jsonAs element typeDefinition v n = .ok j → jsonAs element typeDefinition w n = .ok j →
        ∀ p ∈ shown element n, v p = w p
  | .simple d ptr nodeId typeNodeId b childNodes, hd, hv, hw, element, typeDefinition, j, hj, hj',
      p, hp => by
    rw [variablePtrsBelow] at hv hw
    simp only [shown] at hp
    split_ifs at hp with hrule hbase hbare helement
    · -- the value stands beside the children
      rw [jsonAs_of_base hrule hd hbase] at hj hj'
      cases hm : Json.putMembers [] (childEntries v childNodes) with
      | error e => simp [hm, Except.bind] at hj
      | ok members =>
        cases hm' : Json.putMembers [] (childEntries w childNodes) with
        | error e => simp [hm', Except.bind] at hj'
        | ok members' =>
          rw [hm] at hj
          rw [hm'] at hj'
          obtain ⟨result, hr, rfl⟩ := map_ofMembers_eq_ok hj
          obtain ⟨result', hr', heq⟩ := map_ofMembers_eq_ok hj'
          obtain rfl := Json.ofMembers_injective heq
          have hread : ∀ key, key ≠ typeDefinitionKey →
              (valueMembers (v ptr) members).lookup key =
                (valueMembers (w ptr) members').lookup key := fun key hkey =>
            (lookup_elementTail hkey hr).symm.trans (lookup_elementTail hkey hr')
          obtain ⟨hvalue, rfl⟩ := valueMembers_injective
            (hread "value" (by decide)) (hread "properties" (by decide))
          rcases List.mem_cons.mp hp with rfl | hp
          · exact hvalue
          · simp only [DistinctNames] at hd
            have hnil : elementTail false typeDefinition = [] := rfl
            exact eq_of_mem_shownChildren childNodes hd.2 hv hw
              (by rw [hnil, List.append_nil]; exact hm) (by rw [hnil, List.append_nil]; exact hm')
              p hp
    · exact absurd hp List.not_mem_nil
    · -- the JSON is the bare value
      rw [Bool.not_eq_true] at helement hbase
      rw [Bool.and_eq_true, Bool.not_eq_true'] at hbare
      obtain rfl := List.mem_singleton.mp hp
      have hvalue : ∀ {u : NodePtr → Json}, NoneNull u (variablePtrsOfChildren childNodes) →
          jsonAs element typeDefinition u (.simple d p nodeId typeNodeId b childNodes) = .ok j →
            j = u p := by
        intro u hu hju
        rw [helement, jsonAs_false] at hju
        exact eq_value_of_bare hu hrule hd hbase hbare.1 hbare.2 hju
      exact (hvalue hv hj).symm.trans (hvalue hw hj')
    · -- the JSON is the object of the children
      rw [Bool.not_eq_true] at hbase
      have hplain := renderedAny_of_not_bare hbare
      rw [jsonAs_of_plain hrule hv hd hbase hplain] at hj
      rw [jsonAs_of_plain hrule hw hd hbase hplain] at hj'
      obtain ⟨result, hr, rfl⟩ := map_ofMembers_eq_ok hj
      obtain ⟨result', hr', heq⟩ := map_ofMembers_eq_ok hj'
      obtain rfl := Json.ofMembers_injective heq
      simp only [DistinctNames] at hd
      exact eq_of_mem_shownChildren childNodes hd.2 hv hw hr hr' p hp
    · exact absurd hp List.not_mem_nil
  | .placeholder d instances, hd, hv, hw, element, typeDefinition, j, hj, hj', p, hp => by
    rw [variablePtrsBelow] at hv hw
    simp only [shown] at hp
    split_ifs at hp with hrule
    · rw [jsonAs_placeholder hrule] at hj hj'
      obtain ⟨result, hr, rfl⟩ := map_ofMembers_eq_ok hj
      obtain ⟨result', hr', heq⟩ := map_ofMembers_eq_ok hj'
      obtain rfl := Json.ofMembers_injective heq
      simp only [DistinctNames] at hd
      exact eq_of_mem_shownInstances instances hd.2 hv hw hr hr' p hp
    · exact absurd hp List.not_mem_nil

theorem eq_of_mem_shownChildren : ∀ (ns : List Node), DistinctNamesOfChildren ns →
    NoneNull v (variablePtrsOfChildren ns) → NoneNull w (variablePtrsOfChildren ns) →
    ∀ {element : Bool} {typeDefinition : NodeId} {members members' result : List (String × Json)},
      Json.putMembers members (childEntries v ns ++ elementTail element typeDefinition) =
        .ok result →
      Json.putMembers members' (childEntries w ns ++ elementTail element typeDefinition) =
        .ok result →
      ∀ p ∈ shownChildren element ns, v p = w p
  | [], _, _, _, _, _, _, _, _, _, _, p, hp => absurd hp List.not_mem_nil
  | n :: ns, hd, hv, hw, element, typeDefinition, members, members', result, h, h', p, hp => by
    simp only [shownChildren, List.mem_append] at hp
    rcases hp with hp | hp
    · split_ifs at hp with hlast
      · exact absurd hp List.not_mem_nil
      · obtain ⟨j, hj, hne, hlookup⟩ := lookup_of_shown hd hv hp hlast h
        obtain ⟨j', hj', -, hlookup'⟩ := lookup_of_shown hd hw hp hlast h'
        -- the result has one member of this name
        obtain rfl : j = j' := Option.some.inj (hlookup.symm.trans hlookup')
        simp only [DistinctNamesOfChildren] at hd
        rw [variablePtrsOfChildren, noneNull_append] at hv hw
        have hbelow := variablePtrsBelow_subset n
        exact eq_of_mem_shown n hd.1 (hv.1.mono hbelow) (hw.1.mono hbelow)
          ((jsonAs_false typeDefinition n).trans (modelToJson_of_memberJson hj hne))
          ((jsonAs_false typeDefinition n).trans (modelToJson_of_memberJson hj' hne)) p hp
    · simp only [DistinctNamesOfChildren] at hd
      rw [variablePtrsOfChildren, noneNull_append] at hv hw
      obtain ⟨j, hj, hrest⟩ := Json.putMembers_cons_eq_ok h
      obtain ⟨j', hj', hrest'⟩ := Json.putMembers_cons_eq_ok h'
      exact eq_of_mem_shownChildren ns hd.2 hv.2 hw.2 hrest hrest' p hp

theorem eq_of_mem_shownInstances : ∀ (is : List (PlaceholderElement Node)),
    DistinctNamesOfInstances is → NoneNull v (variablePtrsBelowOfInstances is) →
    NoneNull w (variablePtrsBelowOfInstances is) → ∀ {element : Bool} {typeDefinition : NodeId}
      {members members' result : List (String × Json)},
      Json.putMembers members (instanceEntries v is ++ elementTail element typeDefinition) =
        .ok result →
      Json.putMembers members' (instanceEntries w is ++ elementTail element typeDefinition) =
        .ok result →
      ∀ p ∈ shownInstances element is, v p = w p
  | [], _, _, _, _, _, _, _, _, _, _, p, hp => absurd hp List.not_mem_nil
  | ⟨pNode, browseName, elTypeDefinition⟩ :: rest, hd, hv, hw, element, typeDefinition, members,
      members', result, h, h', p, hp => by
    simp only [DistinctNamesOfInstances] at hd
    rw [variablePtrsBelowOfInstances, noneNull_append] at hv hw
    simp only [shownInstances, List.mem_append] at hp
    rcases hp with hp | hp
    · split_ifs at hp with hlast
      · exact absurd hp List.not_mem_nil
      · obtain ⟨j, hj, hlookup⟩ := lookup_of_shown_instance hlast h
        obtain ⟨j', hj', hlookup'⟩ := lookup_of_shown_instance hlast h'
        obtain rfl : j = j' := Option.some.inj (hlookup.symm.trans hlookup')
        exact eq_of_mem_shown pNode hd.1 hv.1 hw.1 ((jsonAs_true _ pNode).trans hj)
          ((jsonAs_true _ pNode).trans hj') p hp
    · obtain ⟨j, hj, hrest⟩ := Json.putMembers_cons_eq_ok h
      obtain ⟨j', hj', hrest'⟩ := Json.putMembers_cons_eq_ok h'
      exact eq_of_mem_shownInstances rest hd.2 hv.2 hw.2 hrest hrest' p hp

end

/-! ### If every value shows, there is a JSON -/

theorem exists_finish_ofMembers (element : Bool) (typeDefinition : NodeId)
    (members : List (String × Json)) :
    ∃ j, finish element typeDefinition (.ofMembers members) = .ok j := by
  cases element with
  | false => exact ⟨_, rfl⟩
  | true => exact ⟨_, assign_ofMembers _ _ members⟩

mutual

/-- A tree whose variables all show is rendered without an error. -/
theorem exists_jsonAs : ∀ (n : Node), DistinctNames n → (variablePtrs n).Nodup →
    Written v (variablePtrsBelow n) → ∀ (element : Bool) (typeDefinition : NodeId),
    (∀ p ∈ variablePtrs n, p ∈ shown element n) →
      ∃ j, jsonAs element typeDefinition v n = .ok j
  | .simple d ptr nodeId typeNodeId b childNodes, hd, hnodes, hv, element, typeDefinition,
      hall => by
    rw [variablePtrsBelow] at hv
    have hd' := hd
    simp only [DistinctNames] at hd'
    simp only [variablePtrs] at hnodes
    obtain ⟨-, hchildNodes, hown⟩ := List.nodup_append.mp hnodes
    have hne : isVariableClass d.nodeClass = true → ∀ p ∈ variablePtrsOfChildren childNodes,
        p ≠ ptr := by
      rintro hclass p hp rfl
      exact hown p (by simp [hclass]) p hp rfl
    have hshown : (isVariableClass d.nodeClass = true →
          ptr ∈ shown element (.simple d ptr nodeId typeNodeId b childNodes)) ∧
        ∀ p ∈ variablePtrsOfChildren childNodes,
          p ∈ shown element (.simple d ptr nodeId typeNodeId b childNodes) := by
      simp only [variablePtrs, List.mem_append] at hall
      exact ⟨fun hclass => hall ptr (Or.inl (by simp [hclass])), fun p hp => hall p (Or.inr hp)⟩
    simp only [shown] at hshown
    split_ifs at hshown with hrule hbase hbare helement
    · have hclass := isVariableClass_of_base hbase
      obtain ⟨members, hm⟩ := Json.exists_putMembers
        (exists_childEntries childNodes hd'.2 hchildNodes hv false fun p hp =>
          List.mem_of_ne_of_mem (hne hclass p hp) (hshown.2 p hp)) []
      rw [jsonAs, modelToJson_simple hrule ptr nodeId typeNodeId b hd'.1, hm]
      simp only [Except.map, Except.bind, nodeJson_of_base hbase]
      exact exists_finish_ofMembers element typeDefinition _
    · -- the bare value of an instance is a variable that does not show
      rw [Bool.and_eq_true] at hbare
      exact absurd (hshown.1 hbare.1) List.not_mem_nil
    · rw [Bool.not_eq_true] at helement
      rw [Bool.and_eq_true] at hbare
      obtain ⟨members, hm⟩ := Json.exists_putMembers
        (exists_childEntries childNodes hd'.2 hchildNodes hv false fun p hp =>
          absurd (List.mem_singleton.mp (hshown.2 p hp)) (hne hbare.1 p hp)) []
      rw [helement, jsonAs_false, modelToJson_simple hrule ptr nodeId typeNodeId b hd'.1, hm]
      exact ⟨_, rfl⟩
    · rw [Bool.not_eq_true] at hbase
      obtain ⟨members, hm⟩ := Json.exists_putMembers
        (exists_childEntries childNodes hd'.2 hchildNodes hv element hshown.2) []
      have hplain := renderedAny_of_not_bare hbare
      rw [jsonAs_of_plain hrule hv.noneNull hd hbase hplain, Json.putMembers_append, hm]
      simp only [Except.bind, ← finish_ofMembers]
      exact exists_finish_ofMembers element typeDefinition members
    · rw [Bool.not_eq_true] at hrule
      rw [jsonAs, modelToJson_simple_of_not_rule hrule]
      exact exists_finish_ofMembers element typeDefinition []
  | .placeholder d instances, hd, hnodes, hv, element, typeDefinition, hall => by
    rw [variablePtrsBelow] at hv
    simp only [DistinctNames] at hd
    simp only [variablePtrs] at hnodes hall
    simp only [shown] at hall
    by_cases hrule : isPlaceholderRule d.modellingRule = true
    · simp only [hrule, if_true] at hall
      obtain ⟨members, hm⟩ := Json.exists_putMembers
        (exists_instanceEntries instances hd.2 hnodes hv element hall) []
      rw [jsonAs, modelToJson_placeholder hrule, hm]
      exact exists_finish_ofMembers element typeDefinition members
    · rw [Bool.not_eq_true] at hrule
      rw [jsonAs, modelToJson_placeholder_of_not_rule hrule]
      exact exists_finish_ofMembers element typeDefinition []

theorem exists_childEntries : ∀ (ns : List Node), DistinctNamesOfChildren ns →
    (variablePtrsOfChildren ns).Nodup → Written v (variablePtrsOfChildren ns) → ∀ element : Bool,
    (∀ p ∈ variablePtrsOfChildren ns, p ∈ shownChildren element ns) →
      ∀ x ∈ childEntries v ns, ∃ j, x.2 = .ok j
  | [], _, _, _, _, _, x, hx => absurd hx List.not_mem_nil
  | n :: ns, hd, hnodes, hv, element, hall, x, hx => by
    simp only [DistinctNamesOfChildren] at hd
    rw [variablePtrsOfChildren, written_append] at hv
    simp only [variablePtrsOfChildren, shownChildren, List.mem_append] at hnodes hall
    obtain ⟨hn, hns, hdisjoint⟩ := List.nodup_append.mp hnodes
    rcases List.mem_cons.mp hx with rfl | hx
    · have hfirst : ∀ p ∈ variablePtrs n, p ∈ shown false n := by
        intro p hp
        rcases hall p (Or.inl hp) with hshown | hshown
        · split_ifs at hshown
          · exact absurd hshown List.not_mem_nil
          · exact hshown
        · exact absurd rfl
            (hdisjoint p hp p (mem_variablePtrsOfChildren_of_mem_shown element ns hshown))
      obtain ⟨j, hj⟩ := exists_jsonAs n hd.1 hn (hv.1.mono (variablePtrsBelow_subset n)) false
        default hfirst
      rw [jsonAs_false] at hj
      have hdumps := dumps_modelToJson n (fun p hp => (hv.1 p hp).1) hj
      have hmember : memberJson v n = .ok (if j.dumpsNull then .null else j) := by
        rw [memberJson, hj]
        exact asMember_eq_ok_iff.mpr ⟨hdumps, rfl⟩
      exact ⟨_, hmember⟩
    · refine exists_childEntries ns hd.2 hns hv.2 element ?_ x hx
      intro p hp
      rcases hall p (Or.inr hp) with hshown | hshown
      · split_ifs at hshown
        · exact absurd hshown List.not_mem_nil
        · exact absurd rfl (hdisjoint p (mem_variablePtrs_of_mem_shown false n hshown) p hp)
      · exact hshown

theorem exists_instanceEntries : ∀ (is : List (PlaceholderElement Node)),
    DistinctNamesOfInstances is → (variablePtrsOfInstances is).Nodup →
    Written v (variablePtrsBelowOfInstances is) → ∀ element : Bool,
    (∀ p ∈ variablePtrsOfInstances is, p ∈ shownInstances element is) →
      ∀ x ∈ instanceEntries v is, ∃ j, x.2 = .ok j
  | [], _, _, _, _, _, x, hx => absurd hx List.not_mem_nil
  | ⟨pNode, browseName, typeDefinition⟩ :: rest, hd, hnodes, hv, element, hall, x, hx => by
    simp only [DistinctNamesOfInstances] at hd
    rw [variablePtrsBelowOfInstances, written_append] at hv
    simp only [variablePtrsOfInstances, shownInstances, List.mem_append] at hnodes hall
    obtain ⟨hn, hrest, hdisjoint⟩ := List.nodup_append.mp hnodes
    rcases List.mem_cons.mp hx with rfl | hx
    · have hfirst : ∀ p ∈ variablePtrs pNode, p ∈ shown true pNode := by
        intro p hp
        rcases hall p (Or.inl hp) with hshown | hshown
        · split_ifs at hshown
          · exact absurd hshown List.not_mem_nil
          · exact hshown
        · exact absurd rfl
            (hdisjoint p hp p (mem_variablePtrsOfInstances_of_mem_shown element rest hshown))
      exact exists_jsonAs pNode hd.1 hn hv.1 true typeDefinition hfirst
    · refine exists_instanceEntries rest hd.2 hrest hv.2 element ?_ x hx
      intro p hp
      rcases hall p (Or.inr hp) with hshown | hshown
      · split_ifs at hshown
        · exact absurd hshown List.not_mem_nil
        · exact absurd rfl (hdisjoint p (mem_variablePtrs_of_mem_shown true pNode hshown) p hp)
      · exact hshown

end

/-! ### Values that cannot be written out -/

/-- A member that cannot be written out spoils the object. -/
theorem dumps_eq_false_of_lookup {members : List (String × Json)} {key : String} {j : Json}
    (h : members.lookup key = some j) (hj : j.dumps = false) :
    (Json.ofMembers members).dumps = false := by
  rw [Json.dumps_ofMembers, List.all_eq_false]
  obtain ⟨before, after, rfl, -⟩ := List.lookup_eq_some_iff.mp h
  exact ⟨(key, j), by simp, by simp [hj]⟩

mutual

/-- A value that shows and cannot be written out spoils the JSON. -/
theorem dumps_eq_false_of_mem_shown : ∀ (n : Node), DistinctNames n →
    NoneNull v (variablePtrsBelow n) → ∀ {element : Bool} {typeDefinition : NodeId} {j : Json},
      jsonAs element typeDefinition v n = .ok j → ∀ {p : NodePtr}, p ∈ shown element n →
        (v p).dumps = false → j.dumps = false
  | .simple d ptr nodeId typeNodeId b childNodes, hd, hv, element, typeDefinition, j, hj, p, hp,
      hvalue => by
    rw [variablePtrsBelow] at hv
    have hdc : DistinctNamesOfChildren childNodes := by
      simp only [DistinctNames] at hd
      exact hd.2
    simp only [shown] at hp
    split_ifs at hp with hrule hbase hbare helement
    · rw [jsonAs_of_base hrule hd hbase] at hj
      cases hm : Json.putMembers [] (childEntries v childNodes) with
      | error e => simp [hm, Except.bind] at hj
      | ok members =>
        rw [hm] at hj
        obtain ⟨result, hr, rfl⟩ := map_ofMembers_eq_ok hj
        rcases List.mem_cons.mp hp with rfl | hp
        · have hlookup : result.lookup "value" = some (v p) := by
            rw [lookup_elementTail (by decide) hr, lookup_value_valueMembers]
          exact dumps_eq_false_of_lookup hlookup hvalue
        · obtain ⟨x, hx, hfails⟩ := exists_entry_of_mem_shown childNodes hdc hv hp hvalue
          obtain ⟨jx, hjx⟩ := Json.ok_of_mem_putMembers hm x hx
          exact absurd hjx (hfails jx)
    · exact absurd hp List.not_mem_nil
    · rw [Bool.not_eq_true] at helement hbase
      rw [Bool.and_eq_true, Bool.not_eq_true'] at hbare
      obtain rfl := List.mem_singleton.mp hp
      rw [helement, jsonAs_false] at hj
      rw [eq_value_of_bare hv hrule hd hbase hbare.1 hbare.2 hj, hvalue]
    · rw [Bool.not_eq_true] at hbase
      have hplain := renderedAny_of_not_bare hbare
      rw [jsonAs_of_plain hrule hv hd hbase hplain] at hj
      obtain ⟨result, hr, -⟩ := map_ofMembers_eq_ok hj
      obtain ⟨x, hx, hfails⟩ := exists_entry_of_mem_shown childNodes hdc hv hp hvalue
      obtain ⟨jx, hjx⟩ := Json.ok_of_mem_putMembers hr x (List.mem_append_left _ hx)
      exact absurd hjx (hfails jx)
    · exact absurd hp List.not_mem_nil
  | .placeholder d instances, hd, hv, element, typeDefinition, j, hj, p, hp, hvalue => by
    rw [variablePtrsBelow] at hv
    simp only [DistinctNames] at hd
    simp only [shown] at hp
    split_ifs at hp with hrule
    · rw [jsonAs_placeholder hrule] at hj
      obtain ⟨result, hr, rfl⟩ := map_ofMembers_eq_ok hj
      obtain ⟨key, jel, hlookup, hjel⟩ := exists_lookup_of_mem_shown instances hd.2 hv hr hp hvalue
      exact dumps_eq_false_of_lookup hlookup hjel
    · exact absurd hp List.not_mem_nil

/-- Among children it leaves one without a member. -/
theorem exists_entry_of_mem_shown : ∀ (ns : List Node), DistinctNamesOfChildren ns →
    NoneNull v (variablePtrsOfChildren ns) → ∀ {element : Bool} {p : NodePtr},
      p ∈ shownChildren element ns → (v p).dumps = false →
        ∃ x ∈ childEntries v ns, ∀ j, x.2 ≠ .ok j
  | [], _, _, _, _, hp, _ => absurd hp List.not_mem_nil
  | n :: ns, hd, hv, element, p, hp, hvalue => by
    simp only [DistinctNamesOfChildren] at hd
    rw [variablePtrsOfChildren, noneNull_append] at hv
    simp only [shownChildren, List.mem_append] at hp
    rcases hp with hp | hp
    · split_ifs at hp
      · exact absurd hp List.not_mem_nil
      · refine ⟨_, List.mem_cons_self, fun m hm => ?_⟩
        obtain ⟨j, hj, hdumps, -⟩ := memberJson_eq_ok hm
        have hnot := dumps_eq_false_of_mem_shown n hd.1 (hv.1.mono (variablePtrsBelow_subset n))
          ((jsonAs_false default n).trans hj) hp hvalue
        rw [hdumps] at hnot
        cases hnot
    · obtain ⟨x, hx, hfails⟩ := exists_entry_of_mem_shown ns hd.2 hv.2 hp hvalue
      exact ⟨x, List.mem_cons_of_mem _ hx, hfails⟩

/-- Among instances it leaves one with such a JSON. -/
theorem exists_lookup_of_mem_shown : ∀ (is : List (PlaceholderElement Node)),
    DistinctNamesOfInstances is → NoneNull v (variablePtrsBelowOfInstances is) →
    ∀ {element : Bool} {typeDefinition : NodeId} {members result : List (String × Json)},
      Json.putMembers members (instanceEntries v is ++ elementTail element typeDefinition) =
        .ok result → ∀ {p : NodePtr}, p ∈ shownInstances element is → (v p).dumps = false →
          ∃ key j, result.lookup key = some j ∧ j.dumps = false
  | [], _, _, _, _, _, _, _, _, hp, _ => absurd hp List.not_mem_nil
  | ⟨pNode, browseName, elTypeDefinition⟩ :: rest, hd, hv, element, typeDefinition, members, result,
      h, p, hp, hvalue => by
    simp only [DistinctNamesOfInstances] at hd
    rw [variablePtrsBelowOfInstances, noneNull_append] at hv
    simp only [shownInstances, List.mem_append] at hp
    rcases hp with hp | hp
    · split_ifs at hp with hlast
      · exact absurd hp List.not_mem_nil
      · obtain ⟨j, hj, hlookup⟩ := lookup_of_shown_instance hlast h
        exact ⟨_, j, hlookup, dumps_eq_false_of_mem_shown pNode hd.1 hv.1
          ((jsonAs_true _ pNode).trans hj) hp hvalue⟩
    · obtain ⟨j, hj, hrest⟩ := Json.putMembers_cons_eq_ok h
      exact exists_lookup_of_mem_shown rest hd.2 hv.2 hrest hp hvalue

end

mutual

/-- **A value below a simple node that cannot be written out**: if it shows, there is no JSON. -/
theorem jsonAs_ne_ok_of_mem_below : ∀ (n : Node), DistinctNames n → (variablePtrs n).Nodup →
    NoneNull v (variablePtrsBelow n) → ∀ {element : Bool} {p : NodePtr},
      p ∈ variablePtrsBelow n → p ∈ shown element n → (v p).dumps = false →
        ∀ typeDefinition j, jsonAs element typeDefinition v n ≠ .ok j
  | .simple d ptr nodeId typeNodeId b childNodes, hd, hnodes, hv, element, p, hbelow, hp,
      hvalue, typeDefinition, j => by
    intro hj
    rw [variablePtrsBelow] at hv hbelow
    have hdc : DistinctNamesOfChildren childNodes := by
      simp only [DistinctNames] at hd
      exact hd.2
    have hne : isVariableClass d.nodeClass = true → p ≠ ptr := by
      rintro hclass rfl
      simp only [variablePtrs, hclass, if_true] at hnodes
      exact (List.nodup_append.mp hnodes).2.2 p (by simp) p hbelow rfl
    simp only [shown] at hp
    split_ifs at hp with hrule hbase hbare helement
    · have hclass := isVariableClass_of_base hbase
      obtain ⟨x, hx, hfails⟩ := exists_entry_of_mem_shown childNodes hdc hv
        ((List.mem_cons.mp hp).resolve_left (hne hclass)) hvalue
      rw [jsonAs_of_base hrule hd hbase] at hj
      cases hm : Json.putMembers [] (childEntries v childNodes) with
      | error e => simp [hm, Except.bind] at hj
      | ok members =>
        obtain ⟨jx, hjx⟩ := Json.ok_of_mem_putMembers hm x hx
        exact hfails jx hjx
    · exact absurd hp List.not_mem_nil
    · exact hne (Bool.and_eq_true_iff.mp hbare).1 (List.mem_singleton.mp hp)
    · rw [Bool.not_eq_true] at hbase
      have hplain := renderedAny_of_not_bare hbare
      rw [jsonAs_of_plain hrule hv hd hbase hplain] at hj
      obtain ⟨result, hr, -⟩ := map_ofMembers_eq_ok hj
      obtain ⟨x, hx, hfails⟩ := exists_entry_of_mem_shown childNodes hdc hv hp hvalue
      obtain ⟨jx, hjx⟩ := Json.ok_of_mem_putMembers hr x (List.mem_append_left _ hx)
      exact hfails jx hjx
    · exact absurd hp List.not_mem_nil
  | .placeholder d instances, hd, hnodes, hv, element, p, hbelow, hp, hvalue, typeDefinition,
      j => by
    intro hj
    rw [variablePtrsBelow] at hv hbelow
    simp only [DistinctNames] at hd
    simp only [variablePtrs] at hnodes
    simp only [shown] at hp
    split_ifs at hp with hrule
    · rw [jsonAs_placeholder hrule] at hj
      obtain ⟨result, hr, -⟩ := map_ofMembers_eq_ok hj
      obtain ⟨x, hx, hfails⟩ :=
        exists_entry_of_mem_belowOfInstances instances hd.2 hnodes hv hbelow hp hvalue
      obtain ⟨jx, hjx⟩ := Json.ok_of_mem_putMembers hr x (List.mem_append_left _ hx)
      exact hfails jx hjx
    · exact absurd hp List.not_mem_nil

theorem exists_entry_of_mem_belowOfInstances : ∀ (is : List (PlaceholderElement Node)),
    DistinctNamesOfInstances is → (variablePtrsOfInstances is).Nodup →
    NoneNull v (variablePtrsBelowOfInstances is) → ∀ {element : Bool} {p : NodePtr},
      p ∈ variablePtrsBelowOfInstances is → p ∈ shownInstances element is → (v p).dumps = false →
        ∃ x ∈ instanceEntries v is, ∀ j, x.2 ≠ .ok j
  | [], _, _, _, _, _, _, hp, _ => absurd hp List.not_mem_nil
  | ⟨pNode, browseName, typeDefinition⟩ :: rest, hd, hnodes, hv, element, p, hbelow, hp,
      hvalue => by
    simp only [DistinctNamesOfInstances] at hd
    simp only [variablePtrsOfInstances] at hnodes
    obtain ⟨hn, hrest, hdisjoint⟩ := List.nodup_append.mp hnodes
    rw [variablePtrsBelowOfInstances, noneNull_append] at hv
    rw [variablePtrsBelowOfInstances, List.mem_append] at hbelow
    simp only [shownInstances, List.mem_append] at hp
    rcases hp with hp | hp
    · split_ifs at hp with hlast
      · exact absurd hp List.not_mem_nil
      · have hmem := mem_variablePtrs_of_mem_shown true pNode hp
        have hown : p ∈ variablePtrsBelow pNode := hbelow.resolve_right fun h =>
          hdisjoint p hmem p (variablePtrsBelowOfInstances_subset rest h) rfl
        refine ⟨_, List.mem_cons_self, fun jel hjel => ?_⟩
        exact jsonAs_ne_ok_of_mem_below pNode hd.1 hn hv.1 hown hp hvalue typeDefinition jel
          ((jsonAs_true _ pNode).trans hjel)
    · have hmem := mem_variablePtrsOfInstances_of_mem_shown element rest hp
      have hlater : p ∈ variablePtrsBelowOfInstances rest := hbelow.resolve_left fun h =>
        hdisjoint p (variablePtrsBelow_subset pNode h) p hmem rfl
      obtain ⟨x, hx, hfails⟩ :=
        exists_entry_of_mem_belowOfInstances rest hd.2 hrest hv.2 hlater hp hvalue
      exact ⟨x, List.mem_cons_of_mem _ hx, hfails⟩

end

/-! ### Lossless trees -/

/-- The assignment gives every variable of the tree a value. -/
def NonNull (v : NodePtr → Json) (n : Node) : Prop := ∀ p ∈ variablePtrs n, v p ≠ .null

/-- The JSON that an assignment gives, if the library does not throw. -/
def json? (v : NodePtr → Json) (n : Node) : Option Json := (modelToJson v {} n).toOption

/-- The JSON determines the values of all variables, among the given assignments. -/
def LosslessAmong (P : (NodePtr → Json) → Prop) (n : Node) : Prop :=
  ∀ v w : NodePtr → Json, P v → P w → json? v n = json? w n → ∀ p ∈ variablePtrs n, v p = w p

/-- The JSON determines the values of all variables. -/
def Lossless (n : Node) : Prop := LosslessAmong (fun v => NonNull v n) n

theorem json?_eq_some_iff {n : Node} {j : Json} :
    json? v n = some j ↔ modelToJson v {} n = .ok j := by
  rw [json?]
  cases modelToJson v {} n with
  | error e => exact iff_of_false (fun h => by cases h) fun h => by cases h
  | ok j' => exact ⟨fun h => congrArg _ (Option.some.inj h), fun h => congrArg _ (Except.ok.inj h)⟩

/-- Two assignments to trees that show everything are told apart. -/
theorem eq_of_json?_eq {n : Node} (hnames : DistinctNames n) (hnodes : (variablePtrs n).Nodup)
    (hall : ∀ p ∈ variablePtrs n, p ∈ shown false n) (hv : Written v (variablePtrsBelow n))
    (hw : Written w (variablePtrsBelow n)) (hjson : json? v n = json? w n) :
    ∀ p ∈ variablePtrs n, v p = w p := by
  obtain ⟨j, hj⟩ := exists_jsonAs n hnames hnodes hv false default hall
  have hj' : jsonAs false default w n = .ok j := by
    rw [jsonAs_false, ← json?_eq_some_iff] at hj ⊢
    rw [← hjson, hj]
  exact fun p hp => eq_of_mem_shown n hnames hv.noneNull hw.noneNull hj hj' p (hall p hp)

/-- Two assignments that differ at one variable, which is a string. -/
private theorem strings_update (p : NodePtr) (s : String) :
    Strings (Function.update (fun _ => Json.string "") p (.string s)) := by
  intro q
  by_cases hq : q = p
  · exact ⟨s, by rw [hq, Function.update_self]⟩
  · exact ⟨"", Function.update_of_ne hq ..⟩

theorem Strings.nonNull (h : Strings v) (n : Node) : NonNull v n := by
  intro p _
  obtain ⟨s, hs⟩ := h p
  simp [hs]

/-- If a variable does not show, two assignments of strings give one JSON. -/
theorem mem_shown_of_losslessAmong {P : (NodePtr → Json) → Prop} (hP : ∀ v, Strings v → P v)
    {n : Node} (hnames : DistinctNames n) (hnodes : (variablePtrs n).Nodup)
    (h : LosslessAmong P n) : ∀ p ∈ variablePtrs n, p ∈ shown false n := by
  intro p hp
  by_contra hhidden
  have hv := strings_update p ""
  have hw := strings_update p "x"
  have hoff : ∀ q, q ≠ p → Function.update (fun _ : NodePtr => Json.string "") p (.string "") q =
      Function.update (fun _ : NodePtr => Json.string "") p (.string "x") q := by
    intro q hq
    rw [Function.update_of_ne hq, Function.update_of_ne hq]
  have hsame := jsonAs_eq_of_not_mem_shown hv hw hoff n hnames hnodes false default hhidden
  rw [jsonAs_false, jsonAs_false] at hsame
  have hvalue := h _ _ (hP _ hv) (hP _ hw) (congrArg Except.toOption hsame) p hp
  rw [Function.update_self, Function.update_self] at hvalue
  exact absurd (Json.string.inj hvalue) (by decide)

/-- If a variable that shows stands below a simple node, two strings that are not UTF-8 both give
no JSON. -/
theorem variablePtrsBelow_eq_nil_of_lossless {n : Node} (hnames : DistinctNames n)
    (hnodes : (variablePtrs n).Nodup) (hall : ∀ p ∈ variablePtrs n, p ∈ shown false n)
    (h : Lossless n) : variablePtrsBelow n = [] := by
  refine List.eq_nil_iff_forall_not_mem.mpr fun p hbelow => ?_
  have hp := variablePtrsBelow_subset n hbelow
  let assign (j : Json) : NodePtr → Json := Function.update (fun _ => .string "") p j
  have hnone : ∀ j : Json, j.dumps = false → j.dumpsNull = false →
      json? (assign j) n = none := by
    intro j hdumps hnull
    have hv : NoneNull (assign j) (variablePtrsBelow n) := by
      intro q _
      by_cases hq : q = p
      · rw [hq, show assign j p = j from Function.update_self ..]
        exact hnull
      · rw [show assign j q = .string "" from Function.update_of_ne hq ..]
        rfl
    have hvalue : (assign j p).dumps = false := by
      rw [show assign j p = j from Function.update_self ..]
      exact hdumps
    refine Option.eq_none_iff_forall_ne_some.mpr fun j' hj' => ?_
    rw [json?_eq_some_iff, ← jsonAs_false default n] at hj'
    exact jsonAs_ne_ok_of_mem_below n hnames hnodes hv hbelow (hall p hp) hvalue default j' hj'
  have hnonNull : ∀ j : Json, j ≠ .null → NonNull (assign j) n := by
    intro j hj q _
    by_cases hq : q = p
    · rw [hq, show assign j p = j from Function.update_self ..]
      exact hj
    · rw [show assign j q = .string "" from Function.update_of_ne hq ..]
      simp
  have hinvalid : ∀ s : InvalidString, (Json.invalidString s).dumps = false :=
    fun s => by simp [Json.dumps]
  have hsame := h (assign (.strayByte 0xFE (by decide))) (assign (.strayByte 0xFF (by decide)))
    (hnonNull _ (by simp [Json.strayByte])) (hnonNull _ (by simp [Json.strayByte]))
    ((hnone _ (hinvalid _) rfl).trans (hnone _ (hinvalid _) rfl).symm) p hp
  simp [assign, Json.strayByte] at hsame

/-- **When no value is lost.** For a tree of distinct node objects whose siblings and placeholder
instances have distinct qualified names: as long as the values below simple nodes can be written
out, and are not written as null, the JSON determines the assignment if and only if every variable
shows. If the values may be any that are not null, it does so only if none of the variables stands
below a simple node either. -/
theorem lossless_iff (n : Node) (hnames : DistinctNames n) (hnodes : (variablePtrs n).Nodup) :
    (LosslessAmong (fun v => NonNull v n ∧ Written v (variablePtrsBelow n)) n ↔
      ∀ p ∈ variablePtrs n, p ∈ shown false n) ∧
    (Lossless n ↔ (∀ p ∈ variablePtrs n, p ∈ shown false n) ∧ variablePtrsBelow n = []) := by
  refine ⟨⟨?_, ?_⟩, ?_, ?_⟩
  · exact mem_shown_of_losslessAmong (fun v hv => ⟨hv.nonNull n, hv.written _⟩) hnames hnodes
  · exact fun hall v w hv hw hjson => eq_of_json?_eq hnames hnodes hall hv.2 hw.2 hjson
  · intro h
    have hall := mem_shown_of_losslessAmong (fun v hv => hv.nonNull n) hnames hnodes h
    exact ⟨hall, variablePtrsBelow_eq_nil_of_lossless hnames hnodes hall h⟩
  · rintro ⟨hall, hnone⟩ v w - - hjson
    have hwritten : ∀ u : NodePtr → Json, Written u (variablePtrsBelow n) := by
      intro u p hp
      rw [hnone] at hp
      exact absurd hp List.not_mem_nil
    exact eq_of_json?_eq hnames hnodes hall (hwritten v) (hwritten w) hjson

/-- A machine with one variable in each of two namespaces. -/
def namedPair (first second : QualifiedName) : Node :=
  .simple ⟨.mandatory, .object, WellKnown.hasComponent, WellKnown.baseObjectType, ⟨"", "Machine"⟩⟩ 0
    ⟨"urn:m", "i=1"⟩ WellKnown.baseObjectType false
    [.simple ⟨.mandatory, .variable, WellKnown.hasComponent, WellKnown.baseVariableType, first⟩ 1
        ⟨"urn:m", "i=2"⟩ WellKnown.baseVariableType true [],
      .simple ⟨.mandatory, .variable, WellKnown.hasComponent, WellKnown.baseVariableType, second⟩ 2
        ⟨"urn:m", "i=3"⟩ WellKnown.baseVariableType true []]

/-- Two names that differ lose no value that can be written out. -/
theorem lossless_namedPair :
    LosslessAmong (fun v => NonNull v (namedPair ⟨"urn:a", "Speed"⟩ ⟨"urn:b", "State"⟩) ∧
      Written v (variablePtrsBelow (namedPair ⟨"urn:a", "Speed"⟩ ⟨"urn:b", "State"⟩)))
        (namedPair ⟨"urn:a", "Speed"⟩ ⟨"urn:b", "State"⟩) :=
  (lossless_iff _ (by simp [namedPair, DistinctNames, DistinctNamesOfChildren])
    (by decide)).1.mpr (by decide)

/-- Two variables whose qualified names differ in the namespace only are written under one key. -/
theorem not_lossless_namedPair :
    ¬ ∀ n : Node, DistinctNames n → (variablePtrs n).Nodup → Lossless n := by
  intro hall
  have hlossless := hall (namedPair ⟨"urn:a", "Speed"⟩ ⟨"urn:b", "Speed"⟩)
    (by simp [namedPair, DistinctNames, DistinctNamesOfChildren]) (by decide)
  have hvalue := hlossless (fun _ => .integer 0) (fun p => if p = 1 then .integer 1 else .integer 0)
    (fun _ _ => by simp) (fun p _ => by dsimp only; split_ifs <;> simp) (by rfl) 1 (by decide)
  simp at hvalue

end ModelToJson

end UmatiDashboard
