import UmatiDashboard.DashboardClient.ModelToJson
import UmatiDashboard.Util.JsonMembers

/-!
# Which values show in the JSON of a tree

With the default switches the JSON of a node is a bare value, an object with the members `value`
and `properties`, or the object of its children. The children and the instances of a placeholder
are written under their **bare** names, although only qualified names are told apart; an instance
also gets the member `$TypeDefinition`. A value that is written under a key a second time, or that
an object of children replaces, does not show.

`shown` lists the variables whose value shows, and `lossless_iff` says that a tree loses no value
exactly if all of its variables are listed.
-/

namespace UmatiDashboard

namespace Node

/-- The name under which a child is written. -/
def bareName (n : Node) : String := n.definition.specifiedBrowseName.name

mutual

/-- The variables of a tree. -/
def variablePtrs : Node → List NodePtr
  | .simple d ptr _ _ _ childNodes =>
    (if ModelToJson.isVariableClass d.nodeClass then [ptr] else []) ++
      variablePtrsOfChildren childNodes
  | .placeholder _ instances => variablePtrsOfInstances instances

def variablePtrsOfChildren : List Node → List NodePtr
  | [] => []
  | n :: ns => variablePtrs n ++ variablePtrsOfChildren ns

def variablePtrsOfInstances : List (PlaceholderElement Node) → List NodePtr
  | [] => []
  | ⟨pNode, _, _⟩ :: rest => variablePtrs pNode ++ variablePtrsOfInstances rest

end

mutual

/-- The variables below the simple nodes of a tree. -/
def variablePtrsBelow : Node → List NodePtr
  | .simple _ _ _ _ _ childNodes => variablePtrsOfChildren childNodes
  | .placeholder _ instances => variablePtrsBelowOfInstances instances

def variablePtrsBelowOfInstances : List (PlaceholderElement Node) → List NodePtr
  | [] => []
  | ⟨pNode, _, _⟩ :: rest => variablePtrsBelow pNode ++ variablePtrsBelowOfInstances rest

end

mutual

theorem variablePtrsBelow_subset : ∀ n : Node, variablePtrsBelow n ⊆ variablePtrs n
  | .simple _ _ _ _ _ _ => List.subset_append_right _ _
  | .placeholder _ instances => variablePtrsBelowOfInstances_subset instances

theorem variablePtrsBelowOfInstances_subset : ∀ is : List (PlaceholderElement Node),
    variablePtrsBelowOfInstances is ⊆ variablePtrsOfInstances is
  | [] => List.Subset.refl []
  | ⟨pNode, _, _⟩ :: rest => by
    rw [variablePtrsBelowOfInstances, variablePtrsOfInstances]
    exact fun p hp => List.mem_append.mpr ((List.mem_append.mp hp).imp
      (fun h => variablePtrsBelow_subset pNode h)
      fun h => variablePtrsBelowOfInstances_subset rest h)

end

mutual

/-- Siblings have distinct qualified browse names, and so have the instances of a placeholder. -/
def DistinctNames : Node → Prop
  | .simple _ _ _ _ _ childNodes =>
    (childNodes.map fun n => n.definition.specifiedBrowseName).Nodup ∧
      DistinctNamesOfChildren childNodes
  | .placeholder _ instances =>
    (instances.map PlaceholderElement.browseName).Nodup ∧ DistinctNamesOfInstances instances

def DistinctNamesOfChildren : List Node → Prop
  | [] => True
  | n :: ns => DistinctNames n ∧ DistinctNamesOfChildren ns

def DistinctNamesOfInstances : List (PlaceholderElement Node) → Prop
  | [] => True
  | ⟨pNode, _, _⟩ :: rest => DistinctNames pNode ∧ DistinctNamesOfInstances rest

end

end Node

namespace ModelToJson

open Node

/-- The rules of simple nodes. -/
def isSimpleRule (r : ModellingRule) : Bool := r == .mandatory || r == .optional

/-- The rules of placeholders. -/
def isPlaceholderRule (r : ModellingRule) : Bool :=
  r == .mandatoryPlaceholder || r == .optionalPlaceholder

mutual

/-- The JSON of the node is not null if no variable is null. -/
def rendered : Node → Bool
  | .simple d _ _ _ _ childNodes =>
    isSimpleRule d.modellingRule && (isVariableClass d.nodeClass || renderedAny childNodes)
  | .placeholder d instances => isPlaceholderRule d.modellingRule && !instances.isEmpty

def renderedAny : List Node → Bool
  | [] => false
  | n :: ns => rendered n || renderedAny ns

end

/-- The key of the member that every instance of a placeholder gets. -/
def typeDefinitionKey : String := "$TypeDefinition"

mutual

/-- The variables whose value shows in the JSON of a node. The JSON of an instance of a
placeholder (`element`) gets a further member, so a bare value is no JSON for it, and a child that
is written under the same key does not show. -/
def shown (element : Bool) : Node → List NodePtr
  | .simple d ptr nodeId _ _ childNodes =>
    if isSimpleRule d.modellingRule then
      if isBaseDataVariableType d.nodeClass nodeId && !childNodes.isEmpty then
        ptr :: shownChildren false childNodes
      else if isVariableClass d.nodeClass && !renderedAny childNodes then
        if element then [] else [ptr]
      else shownChildren element childNodes
    else []
  | .placeholder d instances =>
    if isPlaceholderRule d.modellingRule then shownInstances element instances else []

/-- A child shows unless a later one, or the further member, has the same bare name. -/
def shownChildren (element : Bool) : List Node → List NodePtr
  | [] => []
  | n :: ns =>
    (if (element && n.bareName == typeDefinitionKey) ||
        ns.any (fun n' => rendered n' && n'.bareName == n.bareName) then []
      else shown false n) ++ shownChildren element ns

def shownInstances (element : Bool) : List (PlaceholderElement Node) → List NodePtr
  | [] => []
  | ⟨pNode, browseName, _⟩ :: rest =>
    (if (element && browseName.name == typeDefinitionKey) ||
        rest.any (fun el => el.browseName.name == browseName.name) then []
      else shown true pNode) ++ shownInstances element rest

end

variable {v w : NodePtr → Json}

/-! ### The JSON of a node as a sequence of members -/

/-- The JSON of an instance of a placeholder. -/
def elementJson (v : NodePtr → Json) (typeDefinition : NodeId) (n : Node) :
    Except Exception Json :=
  (modelToJson v {} n).bind fun j => j.assign typeDefinitionKey (.string typeDefinition.toString)

/-- What the JSON of a child is as a member; null stands for none. -/
def asMember (j : Json) : Except Exception Json :=
  j.dumpIsNull.map fun isNull => if isNull then .null else j

/-- The JSON of a child as a member. -/
def memberJson (v : NodePtr → Json) (n : Node) : Except Exception Json :=
  (modelToJson v {} n).bind asMember

theorem asMember_eq_ok_iff {j m : Json} :
    asMember j = .ok m ↔ j.dumps = true ∧ m = if j.dumpsNull then .null else j := by
  rw [asMember, Json.dumpIsNull]
  cases j.dumps with
  | false => exact iff_of_false (fun h => by cases h) fun h => by cases h.1
  | true =>
    rw [if_pos rfl]
    exact ⟨fun h => ⟨rfl, (Except.ok.inj h).symm⟩, fun h => congrArg Except.ok h.2.symm⟩

/-- A child that has a member, or none. -/
theorem memberJson_eq_ok {n : Node} {m : Json} (h : memberJson v n = .ok m) :
    ∃ j, modelToJson v {} n = .ok j ∧ j.dumps = true ∧ m = if j.dumpsNull then .null else j := by
  rw [memberJson] at h
  cases hj : modelToJson v {} n with
  | error e => simp [hj, Except.bind] at h
  | ok j =>
    rw [hj] at h
    exact ⟨j, rfl, asMember_eq_ok_iff.mp h⟩

/-- A child that has a member has it as its JSON. -/
theorem modelToJson_of_memberJson {n : Node} {m : Json} (h : memberJson v n = .ok m)
    (hm : m ≠ .null) : modelToJson v {} n = .ok m := by
  obtain ⟨j, hj, -, rfl⟩ := memberJson_eq_ok h
  split_ifs at hm ⊢ with hnull
  · exact absurd rfl hm
  · exact hj

/-- The members of the children. -/
def childEntries (v : NodePtr → Json) (childNodes : List Node) :
    List (String × Except Exception Json) :=
  childNodes.map fun n => (n.bareName, memberJson v n)

/-- The members of the instances. -/
def instanceEntries (v : NodePtr → Json) (instances : List (PlaceholderElement Node)) :
    List (String × Except Exception Json) :=
  instances.map fun el => (el.browseName.name, elementJson v el.typeDefinition el.pNode)

/-- The JSON of a simple node whose children have the given members. -/
def nodeJson (nodeClass : NodeClass) (nodeId : NodeId) (value : Json) (hasChildNodes : Bool)
    (members : List (String × Json)) : Json :=
  if isBaseDataVariableType nodeClass nodeId && hasChildNodes then
    .object (if members = [] then [("value", value)]
      else Json.putMember "properties" (.object members) [("value", value)])
  else if isVariableClass nodeClass && members.isEmpty then value
  else .ofMembers members

theorem assign_ofMembers (key : String) (value : Json) (members : List (String × Json)) :
    (Json.ofMembers members).assign key value =
      .ok (.ofMembers (Json.putMember key value members)) := by
  simp [Json.assign, Json.set_ofMembers]

/-- The children that are the first ones of their browse name. -/
def firstNamed (visited : List QualifiedName) : List Node → List Node
  | [] => []
  | n :: ns =>
    if n.definition.specifiedBrowseName ∈ visited then firstNamed visited ns
    else n :: firstNamed (visited ++ [n.definition.specifiedBrowseName]) ns

theorem mem_of_mem_firstNamed {n : Node} : ∀ {visited : List QualifiedName} {ns : List Node},
    n ∈ firstNamed visited ns → n ∈ ns
  | _, [], h => h
  | visited, n' :: ns, h => by
    rw [firstNamed] at h
    split_ifs at h
    · exact List.mem_cons_of_mem _ (mem_of_mem_firstNamed h)
    · rcases List.mem_cons.mp h with rfl | h
      · exact List.mem_cons_self
      · exact List.mem_cons_of_mem _ (mem_of_mem_firstNamed h)

/-- The others are passed over. -/
theorem childrenToJson_firstNamed (visited : List QualifiedName) (members : List (String × Json))
    (ns : List Node) :
    childrenToJson v {} visited (.ofMembers members) ns =
      (Json.putMembers members (childEntries v (firstNamed visited ns))).map .ofMembers := by
  induction ns generalizing visited members with
  | nil => simp [childrenToJson, firstNamed, childEntries, pure, Except.pure, Except.map]
  | cons n ns ih =>
    rw [childrenToJson, firstNamed]
    split_ifs with hvisited
    · exact ih visited members
    · have hentries : childEntries v
            (n :: firstNamed (visited ++ [n.definition.specifiedBrowseName]) ns) =
          (n.bareName, memberJson v n) ::
            childEntries v (firstNamed (visited ++ [n.definition.specifiedBrowseName]) ns) := rfl
      rw [hentries, memberJson]
      cases hj : modelToJson v {} n with
      | error e => rfl
      | ok j =>
        have hmember : (Except.ok j : Except Exception Json).bind asMember = asMember j := rfl
        rw [hmember, asMember, Json.dumpIsNull]
        cases hdumps : j.dumps with
        | false =>
          simp [JsonOptions.publishes, Json.dumpIsNull, hdumps, bind, Except.bind, Except.map]
        | true =>
          have hpublishes : ({} : JsonOptions).publishes j = .ok (!j.dumpsNull) := by
            simp [JsonOptions.publishes, Json.dumpIsNull, hdumps]
          have hentry : (if true = true then Except.ok j.dumpsNull else
              Except.error Json.dumpError).map
                (fun isNull => if isNull = true then Json.null else j) =
              .ok (if j.dumpsNull = true then Json.null else j) := rfl
          rw [hentry, Json.putMembers_cons_ok]
          simp only [hpublishes, bind, Except.bind]
          cases hnull : j.dumpsNull with
          | true => exact ih _ members
          | false =>
            have hne : j.isNull = false := Json.isNull_of_dumpsNull hnull
            simpa [hne, assign_ofMembers, bareName] using
              ih _ (Json.putMember n.bareName j members)

/-- Among siblings with distinct names the list of visited names plays no part. -/
theorem firstNamed_of_nodup : ∀ {visited : List QualifiedName} {ns : List Node},
    (ns.map fun n => n.definition.specifiedBrowseName).Nodup →
    (∀ n ∈ ns, n.definition.specifiedBrowseName ∉ visited) → firstNamed visited ns = ns
  | _, [], _, _ => rfl
  | visited, n :: ns, hnames, hvisited => by
    rw [List.map_cons, List.nodup_cons] at hnames
    have hlater : ∀ n' ∈ ns, n'.definition.specifiedBrowseName ∉
        visited ++ [n.definition.specifiedBrowseName] := by
      intro n' hn' hmem
      rcases List.mem_append.mp hmem with hmem | hmem
      · exact hvisited n' (List.mem_cons_of_mem _ hn') hmem
      · rw [List.mem_singleton] at hmem
        exact hnames.1 (List.mem_map.mpr ⟨n', hn', hmem⟩)
    rw [firstNamed, if_neg (hvisited n List.mem_cons_self), firstNamed_of_nodup hnames.2 hlater]

theorem elementJson_ne_null {typeDefinition : NodeId} {n : Node} {j : Json}
    (h : elementJson v typeDefinition n = .ok j) : j ≠ .null := by
  rintro rfl
  simp only [elementJson] at h
  cases hj : modelToJson v {} n with
  | error e => simp [hj, Except.bind] at h
  | ok j =>
    rw [hj] at h
    simp only [Except.bind, Json.assign] at h
    cases j <;> simp [Json.set] at h

theorem instancesToJson_eq (v : NodePtr → Json) (instances : List (PlaceholderElement Node))
    (members : List (String × Json)) :
    instancesToJson v {} (.ofMembers members) instances =
      (Json.putMembers members (instanceEntries v instances)).map .ofMembers := by
  induction instances generalizing members with
  | nil => simp [instancesToJson, instanceEntries, pure, Except.pure, Except.map]
  | cons el rest ih =>
    obtain ⟨pNode, browseName, typeDefinition⟩ := el
    have hentries : instanceEntries v (⟨pNode, browseName, typeDefinition⟩ :: rest) =
        (browseName.name, elementJson v typeDefinition pNode) :: instanceEntries v rest := rfl
    have hstep : instancesToJson v {} (.ofMembers members)
          (⟨pNode, browseName, typeDefinition⟩ :: rest) =
        (elementJson v typeDefinition pNode).bind fun el =>
          ((Json.ofMembers members).assign browseName.name el).bind fun elements =>
            instancesToJson v {} elements rest := by
      simp only [instancesToJson, elementJson, typeDefinitionKey]
      cases modelToJson v {} pNode <;> rfl
    rw [hstep, hentries]
    cases hj : elementJson v typeDefinition pNode with
    | error e => rfl
    | ok j =>
      have hnull : j.isNull = false :=
        Bool.eq_false_iff.mpr fun hn => elementJson_ne_null hj (Json.isNull_iff.mp hn)
      rw [Json.putMembers_cons_ok, hnull]
      simpa [Except.bind, assign_ofMembers] using ih (Json.putMember browseName.name j members)

/-- A rule that simple nodes have selects the branch for simple nodes. -/
theorem simpleRule_cases {r : ModellingRule} (h : isSimpleRule r = true) :
    r = .mandatory ∨ r = .optional := by
  simpa [isSimpleRule] using h

/-- The members of the children are put into the JSON of the node as `nodeJson` says. -/
private theorem addChildren_ownJson (d : NodeDefinition) (ptr : NodePtr) (nodeId : NodeId)
    (childNodes : List Node) {members : List (String × Json)}
    (hmembers : childNodes = [] → members = []) :
    (ownJson v {} d ptr nodeId childNodes).bind
        (fun json => addChildren {} d nodeId json (.ofMembers members)) =
      .ok (nodeJson d.nodeClass nodeId (v ptr) (!childNodes.isEmpty) members) := by
  by_cases hbase : isBaseDataVariableType d.nodeClass nodeId = true
  · have hclass : isVariableClass d.nodeClass = true := by
      rw [isBaseDataVariableType, Bool.and_eq_true] at hbase
      exact hbase.1
    cases childNodes with
    | nil =>
      simp [hmembers rfl, ownJson, addChildren, nodeJson, hclass, hbase, Json.isEmpty, pure,
        Except.pure, bind, Except.bind]
    | cons n ns =>
      cases members with
      | nil =>
        simp [ownJson, addChildren, nodeJson, hclass, hbase, Json.isEmpty, pure, Except.pure,
          bind, Except.bind]
      | cons m ms =>
        simp [ownJson, addChildren, nodeJson, hclass, hbase, Json.isEmpty, pure, Except.pure,
          bind, Except.bind, Json.ofMembers]
  · cases members with
    | nil =>
      cases hclass : isVariableClass d.nodeClass <;>
        simp [ownJson, addChildren, nodeJson, hclass, hbase, Json.isEmpty, pure, Except.pure,
          bind, Except.bind]
    | cons m ms =>
      cases hclass : isVariableClass d.nodeClass <;>
        simp [ownJson, addChildren, nodeJson, hclass, hbase, Json.isEmpty, pure, Except.pure,
          bind, Except.bind, Json.ofMembers]

/-- The JSON of a simple node, whatever the names of its children. -/
theorem modelToJson_firstNamed {d : NodeDefinition} (hrule : isSimpleRule d.modellingRule = true)
    (ptr : NodePtr) (nodeId typeNodeId : NodeId) (b : Bool) (childNodes : List Node) :
    modelToJson v {} (.simple d ptr nodeId typeNodeId b childNodes) =
      (Json.putMembers [] (childEntries v (firstNamed [] childNodes))).map
        (nodeJson d.nodeClass nodeId (v ptr) (!childNodes.isEmpty)) := by
  have hchildren := childrenToJson_firstNamed (v := v) [] [] childNodes
  rw [Json.ofMembers_nil] at hchildren
  have hunfold : modelToJson v {} (.simple d ptr nodeId typeNodeId b childNodes) =
      (ownJson v {} d ptr nodeId childNodes).bind fun json =>
        (childrenToJson v {} [] .null childNodes).bind fun children =>
          addChildren {} d nodeId json children := by
    rcases simpleRule_cases hrule with h | h <;> simp only [modelToJson, h] <;> rfl
  rw [hunfold, hchildren]
  cases hmembers : Json.putMembers [] (childEntries v (firstNamed [] childNodes)) with
  | error e =>
    have hown := addChildren_ownJson (v := v) d ptr nodeId childNodes (fun _ => rfl)
    cases ho : ownJson v {} d ptr nodeId childNodes with
    | error e' => rw [ho] at hown; simp [Except.bind] at hown
    | ok j => rfl
  | ok members =>
    refine addChildren_ownJson d ptr nodeId childNodes ?_
    rintro rfl
    exact (Except.ok.inj hmembers).symm

/-- **The JSON of a simple node** that fits its rule. -/
theorem modelToJson_simple {d : NodeDefinition} (hrule : isSimpleRule d.modellingRule = true)
    (ptr : NodePtr) (nodeId typeNodeId : NodeId) (b : Bool) {childNodes : List Node}
    (hnames : (childNodes.map fun n => n.definition.specifiedBrowseName).Nodup) :
    modelToJson v {} (.simple d ptr nodeId typeNodeId b childNodes) =
      (Json.putMembers [] (childEntries v childNodes)).map
        (nodeJson d.nodeClass nodeId (v ptr) (!childNodes.isEmpty)) := by
  rw [modelToJson_firstNamed hrule, firstNamed_of_nodup hnames (by simp)]

/-- A simple node that does not fit its rule is rendered as null. -/
theorem modelToJson_simple_of_not_rule {d : NodeDefinition}
    (hrule : isSimpleRule d.modellingRule = false) (ptr : NodePtr) (nodeId typeNodeId : NodeId)
    (b : Bool) (childNodes : List Node) :
    modelToJson v {} (.simple d ptr nodeId typeNodeId b childNodes) = .ok .null := by
  cases h : d.modellingRule with
  | mandatory => simp [isSimpleRule, h] at hrule
  | optional => simp [isSimpleRule, h] at hrule
  | _ =>
    simp only [modelToJson, h]
    rfl

/-- **The JSON of a placeholder** that fits its rule. -/
theorem modelToJson_placeholder {d : NodeDefinition}
    (hrule : isPlaceholderRule d.modellingRule = true)
    (instances : List (PlaceholderElement Node)) :
    modelToJson v {} (.placeholder d instances) =
      (Json.putMembers [] (instanceEntries v instances)).map .ofMembers := by
  have hinstances := instancesToJson_eq v instances []
  rw [Json.ofMembers_nil] at hinstances
  have hcases : d.modellingRule = .mandatoryPlaceholder ∨
      d.modellingRule = .optionalPlaceholder := by simpa [isPlaceholderRule] using hrule
  rw [← hinstances]
  rcases hcases with h | h <;> simp only [modelToJson, h] <;>
    cases instancesToJson v {} .null instances <;> rfl

theorem modelToJson_placeholder_of_not_rule {d : NodeDefinition}
    (hrule : isPlaceholderRule d.modellingRule = false)
    (instances : List (PlaceholderElement Node)) :
    modelToJson v {} (.placeholder d instances) = .ok .null := by
  cases h : d.modellingRule with
  | mandatoryPlaceholder => simp [isPlaceholderRule, h] at hrule
  | optionalPlaceholder => simp [isPlaceholderRule, h] at hrule
  | _ =>
    simp only [modelToJson, h]
    rfl

/-! ### What the JSON depends on -/

mutual

/-- The JSON of a node depends on the values of its variables only. -/
theorem modelToJson_congr : ∀ n : Node, (∀ p ∈ variablePtrs n, v p = w p) →
    modelToJson v {} n = modelToJson w {} n
  | .simple d ptr nodeId typeNodeId b childNodes, h => by
    simp only [variablePtrs, List.mem_append] at h
    have hown : ownJson v {} d ptr nodeId childNodes = ownJson w {} d ptr nodeId childNodes := by
      by_cases hclass : isVariableClass d.nodeClass = true
      · have hptr : v ptr = w ptr := h ptr (Or.inl (by simp [hclass]))
        simp only [ownJson, hptr]
      · simp only [ownJson, hclass]
        rfl
    have hchildren := childrenToJson_congr childNodes (fun p hp => h p (Or.inr hp)) [] .null
    simp only [modelToJson, hown, hchildren]
  | .placeholder d instances, h => by
    simp only [modelToJson, instancesToJson_congr instances h .null]

theorem childrenToJson_congr : ∀ (ns : List Node), (∀ p ∈ variablePtrsOfChildren ns, v p = w p) →
    ∀ (visited : List QualifiedName) (children : Json),
      childrenToJson v {} visited children ns = childrenToJson w {} visited children ns
  | [], _, _, _ => rfl
  | n :: ns, h, visited, children => by
    simp only [variablePtrsOfChildren, List.mem_append] at h
    have hn := modelToJson_congr n fun p hp => h p (Or.inl hp)
    have hns := childrenToJson_congr ns fun p hp => h p (Or.inr hp)
    simp only [childrenToJson, hn, hns]

theorem instancesToJson_congr : ∀ (is : List (PlaceholderElement Node)),
    (∀ p ∈ variablePtrsOfInstances is, v p = w p) →
    ∀ elements : Json, instancesToJson v {} elements is = instancesToJson w {} elements is
  | [], _, _ => rfl
  | ⟨pNode, browseName, typeDefinition⟩ :: rest, h, elements => by
    simp only [variablePtrsOfInstances, List.mem_append] at h
    have hn := modelToJson_congr pNode fun p hp => h p (Or.inl hp)
    have hrest := instancesToJson_congr rest fun p hp => h p (Or.inr hp)
    simp only [instancesToJson, hn, hrest]

end

theorem childEntries_congr {ns : List Node} (h : ∀ p ∈ variablePtrsOfChildren ns, v p = w p) :
    childEntries v ns = childEntries w ns := by
  induction ns with
  | nil => rfl
  | cons n ns ih =>
    simp only [variablePtrsOfChildren, List.mem_append] at h
    have hn := modelToJson_congr n fun p hp => h p (Or.inl hp)
    have hns := ih fun p hp => h p (Or.inr hp)
    simp only [childEntries, List.map_cons, memberJson, hn] at hns ⊢
    rw [hns]

theorem instanceEntries_congr {is : List (PlaceholderElement Node)}
    (h : ∀ p ∈ variablePtrsOfInstances is, v p = w p) :
    instanceEntries v is = instanceEntries w is := by
  induction is with
  | nil => rfl
  | cons el rest ih =>
    simp only [variablePtrsOfInstances, List.mem_append] at h
    have hn := modelToJson_congr el.pNode fun p hp => h p (Or.inl hp)
    have hrest := ih fun p hp => h p (Or.inr hp)
    simp only [instanceEntries, List.map_cons, elementJson, hn] at hrest ⊢
    rw [hrest]

/-! ### What is rendered -/

theorem dumpsNull_ofMembers (members : List (String × Json)) :
    (Json.ofMembers members).dumpsNull = members.isEmpty := by
  cases members <;> rfl

theorem dumpsNull_nodeJson {nodeClass : NodeClass} {nodeId : NodeId} {value : Json}
    {hasChildNodes : Bool} {members : List (String × Json)}
    (hvalue : isVariableClass nodeClass = true → value.dumpsNull = false) :
    (nodeJson nodeClass nodeId value hasChildNodes members).dumpsNull = true ↔
      isVariableClass nodeClass = false ∧ members = [] := by
  cases hclass : isVariableClass nodeClass with
  | false => simp [nodeJson, isBaseDataVariableType, hclass, dumpsNull_ofMembers]
  | true =>
    simp only [nodeJson, hclass, Bool.true_and, Bool.true_eq_false, false_and, iff_false]
    by_cases hbase : (isBaseDataVariableType nodeClass nodeId && hasChildNodes) = true
    · rw [if_pos hbase]
      exact Bool.false_ne_true
    · rw [if_neg hbase]
      split_ifs with hmembers
      · simp [hvalue hclass]
      · simpa [dumpsNull_ofMembers] using hmembers

/-- None of the variables has a value that is written as null. -/
def NoneNull (v : NodePtr → Json) (ps : List NodePtr) : Prop := ∀ p ∈ ps, (v p).dumpsNull = false

theorem NoneNull.mono {ps qs : List NodePtr} (h : NoneNull v qs) (hsub : ps ⊆ qs) :
    NoneNull v ps := fun p hp => h p (hsub hp)

theorem noneNull_append {ps qs : List NodePtr} :
    NoneNull v (ps ++ qs) ↔ NoneNull v ps ∧ NoneNull v qs := List.forall_mem_append

theorem noneNull_simple {d : NodeDefinition} {ptr : NodePtr} {nodeId typeNodeId : NodeId} {b : Bool}
    {childNodes : List Node} :
    NoneNull v (variablePtrs (.simple d ptr nodeId typeNodeId b childNodes)) ↔
      (isVariableClass d.nodeClass = true → (v ptr).dumpsNull = false) ∧
        NoneNull v (variablePtrsOfChildren childNodes) := by
  rw [variablePtrs, noneNull_append]
  refine and_congr_left fun _ => ?_
  cases isVariableClass d.nodeClass <;> simp [NoneNull]

mutual

/-- **A node is rendered as null or not**, whatever values its variables have if none of these is
written as null. -/
theorem dumpsNull_iff_rendered : ∀ (n : Node), DistinctNames n → NoneNull v (variablePtrs n) →
    ∀ {j : Json}, modelToJson v {} n = .ok j → (j.dumpsNull = true ↔ rendered n = false)
  | .simple d ptr nodeId typeNodeId b childNodes, hd, hv, j, hj => by
    simp only [DistinctNames] at hd
    rw [noneNull_simple] at hv
    by_cases hrule : isSimpleRule d.modellingRule = true
    · rw [modelToJson_simple hrule ptr nodeId typeNodeId b hd.1] at hj
      cases hmembers : Json.putMembers [] (childEntries v childNodes) with
      | error e => simp [hmembers, Except.map] at hj
      | ok members =>
        rw [hmembers] at hj
        obtain rfl := Except.ok.inj hj
        have hnil := members_eq_nil_iff childNodes hd.2 hv.2 hmembers
        rw [dumpsNull_nodeJson hv.1, hnil]
        simp [rendered, hrule]
    · rw [Bool.not_eq_true] at hrule
      rw [modelToJson_simple_of_not_rule hrule] at hj
      obtain rfl := Except.ok.inj hj
      simp [rendered, hrule]
  | .placeholder d instances, _, _, j, hj => by
    by_cases hrule : isPlaceholderRule d.modellingRule = true
    · rw [modelToJson_placeholder hrule] at hj
      cases hmembers : Json.putMembers [] (instanceEntries v instances) with
      | error e => simp [hmembers, Except.map] at hj
      | ok members =>
        rw [hmembers] at hj
        obtain rfl := Except.ok.inj hj
        rw [dumpsNull_ofMembers, List.isEmpty_iff, Json.putMembers_eq_nil_iff hmembers]
        -- an instance is never null
        cases instances with
        | nil => simp [instanceEntries, rendered]
        | cons el rest =>
          have hel : elementJson v el.typeDefinition el.pNode ≠ .ok .null :=
            fun h => elementJson_ne_null h rfl
          simp [instanceEntries, rendered, hrule, hel]
    · rw [Bool.not_eq_true] at hrule
      rw [modelToJson_placeholder_of_not_rule hrule] at hj
      obtain rfl := Except.ok.inj hj
      simp [rendered, hrule]

theorem members_eq_nil_iff : ∀ (ns : List Node), DistinctNamesOfChildren ns →
    NoneNull v (variablePtrsOfChildren ns) → ∀ {members result : List (String × Json)},
    Json.putMembers members (childEntries v ns) = .ok result →
      (result = [] ↔ members = [] ∧ renderedAny ns = false)
  | [], _, _, members, result, h => by
    obtain rfl := Except.ok.inj h
    simp [renderedAny]
  | n :: ns, hd, hv, members, result, h => by
    simp only [DistinctNamesOfChildren] at hd
    rw [variablePtrsOfChildren, noneNull_append] at hv
    obtain ⟨m, hm, hrest⟩ := Json.putMembers_cons_eq_ok h
    obtain ⟨j, hj, -, rfl⟩ := memberJson_eq_ok hm
    have hn := dumpsNull_iff_rendered n hd.1 hv.1 hj
    rw [members_eq_nil_iff ns hd.2 hv.2 hrest, renderedAny, Bool.or_eq_false_iff, ← hn]
    cases hnull : j.dumpsNull with
    | true => simp [Json.isNull]
    | false =>
      have hne : j.isNull = false := Json.isNull_of_dumpsNull hnull
      simp [hne, Json.putMember_ne_nil]

end

/-- A child has a member if it is rendered. -/
theorem memberJson_eq_null_iff {n : Node} (hd : DistinctNames n) (hv : NoneNull v (variablePtrs n))
    {m : Json} (hm : memberJson v n = .ok m) : m = .null ↔ rendered n = false := by
  obtain ⟨j, hj, -, rfl⟩ := memberJson_eq_ok hm
  rw [← dumpsNull_iff_rendered n hd hv hj]
  split_ifs with hnull
  · exact iff_of_true rfl hnull
  · exact iff_of_false (fun h => hnull (h ▸ rfl)) hnull

/-! ### The further member of an instance -/

/-- The member that is written after those of the children. -/
def elementTail (element : Bool) (typeDefinition : NodeId) :
    List (String × Except Exception Json) :=
  if element then [(typeDefinitionKey, .ok (.string typeDefinition.toString))] else []

/-- Write it, if the node is an instance. -/
def finish (element : Bool) (typeDefinition : NodeId) (j : Json) : Except Exception Json :=
  if element then j.assign typeDefinitionKey (.string typeDefinition.toString) else .ok j

/-- The JSON of a node, as an instance of a placeholder or as a child. -/
def jsonAs (element : Bool) (typeDefinition : NodeId) (v : NodePtr → Json) (n : Node) :
    Except Exception Json :=
  (modelToJson v {} n).bind (finish element typeDefinition)

theorem jsonAs_true (typeDefinition : NodeId) (n : Node) :
    jsonAs true typeDefinition v n = elementJson v typeDefinition n := rfl

theorem jsonAs_false (typeDefinition : NodeId) (n : Node) :
    jsonAs false typeDefinition v n = modelToJson v {} n := by
  simp only [jsonAs]
  cases modelToJson v {} n <;> rfl

theorem finish_ofMembers (element : Bool) (typeDefinition : NodeId)
    (members : List (String × Json)) :
    finish element typeDefinition (.ofMembers members) =
      (Json.putMembers members (elementTail element typeDefinition)).map .ofMembers := by
  cases element with
  | false => rfl
  | true => exact assign_ofMembers _ _ members

/-- The members of a variable that keeps its value beside its children. -/
def valueMembers (value : Json) (members : List (String × Json)) : List (String × Json) :=
  if members = [] then [("value", value)]
  else Json.putMember "properties" (.object members) [("value", value)]

theorem lookup_value_valueMembers (value : Json) (members : List (String × Json)) :
    (valueMembers value members).lookup "value" = some value := by
  rw [valueMembers]
  split_ifs
  · rfl
  · rw [Json.lookup_putMember_of_ne _ (by decide)]
    rfl

theorem lookup_properties_valueMembers (value : Json) (members : List (String × Json)) :
    (valueMembers value members).lookup "properties" =
      if members = [] then none else some (.object members) := by
  rw [valueMembers]
  split_ifs
  · rfl
  · exact Json.lookup_putMember_self _ _ _

theorem valueMembers_injective {value value' : Json} {members members' : List (String × Json)}
    (hvalue : (valueMembers value members).lookup "value" =
      (valueMembers value' members').lookup "value")
    (hproperties : (valueMembers value members).lookup "properties" =
      (valueMembers value' members').lookup "properties") :
    value = value' ∧ members = members' := by
  rw [lookup_value_valueMembers, lookup_value_valueMembers] at hvalue
  rw [lookup_properties_valueMembers, lookup_properties_valueMembers] at hproperties
  refine ⟨Option.some.inj hvalue, ?_⟩
  split_ifs at hproperties with h h' h'
  · rw [h, h']
  · exact Json.object.inj (Option.some.inj hproperties)

/-- Only the value of a variable stands beside members. -/
theorem isVariableClass_of_base {nodeClass : NodeClass} {nodeId : NodeId} {hasChildNodes : Bool}
    (h : (isBaseDataVariableType nodeClass nodeId && hasChildNodes) = true) :
    isVariableClass nodeClass = true := by
  rw [isBaseDataVariableType] at h
  exact (Bool.and_eq_true_iff.mp (Bool.and_eq_true_iff.mp h).1).1

/-- A variable that is no bare value has a child that is rendered. -/
theorem renderedAny_of_not_bare {nodeClass : NodeClass} {ns : List Node}
    (h : ¬ (isVariableClass nodeClass && !renderedAny ns) = true)
    (hclass : isVariableClass nodeClass = true) : renderedAny ns = true := by
  simpa [hclass] using h

/-- The three forms of the JSON of a simple node. -/
theorem nodeJson_of_base {nodeClass : NodeClass} {nodeId : NodeId} {hasChildNodes : Bool}
    (h : (isBaseDataVariableType nodeClass nodeId && hasChildNodes) = true) (value : Json)
    (members : List (String × Json)) :
    nodeJson nodeClass nodeId value hasChildNodes members =
      .ofMembers (valueMembers value members) := by
  have hne : valueMembers value members ≠ [] := by
    simp only [valueMembers]
    split_ifs
    · simp
    · exact Json.putMember_ne_nil _ _ _
  rw [Json.ofMembers_of_ne_nil hne]
  simp [nodeJson, h, valueMembers]

theorem nodeJson_of_bare {nodeClass : NodeClass} {nodeId : NodeId} {hasChildNodes : Bool}
    (h : (isBaseDataVariableType nodeClass nodeId && hasChildNodes) = false)
    (hclass : isVariableClass nodeClass = true) (value : Json) :
    nodeJson nodeClass nodeId value hasChildNodes [] = value := by
  simp [nodeJson, h, hclass]

theorem nodeJson_of_plain {nodeClass : NodeClass} {nodeId : NodeId} {hasChildNodes : Bool}
    (h : (isBaseDataVariableType nodeClass nodeId && hasChildNodes) = false) (value : Json)
    {members : List (String × Json)}
    (hplain : isVariableClass nodeClass = true → members ≠ []) :
    nodeJson nodeClass nodeId value hasChildNodes members = .ofMembers members := by
  have hnot : (isVariableClass nodeClass && members.isEmpty) = false := by
    rw [Bool.and_eq_false_iff, List.isEmpty_eq_false_iff]
    by_cases hclass : isVariableClass nodeClass = true
    · exact Or.inr (hplain hclass)
    · exact Or.inl (by simpa using hclass)
  simp [nodeJson, h, hnot]

/-! ### The listed variables are variables of the tree, and rendered -/

mutual

theorem mem_variablePtrs_of_mem_shown {p : NodePtr} : ∀ (element : Bool) (n : Node),
    p ∈ shown element n → p ∈ variablePtrs n
  | element, .simple d ptr nodeId _ _ childNodes, h => by
    simp only [shown] at h
    simp only [variablePtrs, List.mem_append]
    split_ifs at h with hrule hbase hbare helement
    · have hclass := isVariableClass_of_base hbase
      rcases List.mem_cons.mp h with rfl | h
      · exact Or.inl (by simp [hclass])
      · exact Or.inr (mem_variablePtrsOfChildren_of_mem_shown false childNodes h)
    · exact absurd h List.not_mem_nil
    · rw [Bool.and_eq_true] at hbare
      exact Or.inl (by simpa [hbare.1] using h)
    · exact Or.inr (mem_variablePtrsOfChildren_of_mem_shown element childNodes h)
    · exact absurd h List.not_mem_nil
  | element, .placeholder d instances, h => by
    simp only [shown] at h
    split_ifs at h with hrule
    · exact mem_variablePtrsOfInstances_of_mem_shown element instances h
    · exact absurd h List.not_mem_nil

theorem mem_variablePtrsOfChildren_of_mem_shown {p : NodePtr} : ∀ (element : Bool)
    (ns : List Node), p ∈ shownChildren element ns → p ∈ variablePtrsOfChildren ns
  | _, [], h => h
  | element, n :: ns, h => by
    simp only [shownChildren, List.mem_append] at h
    simp only [variablePtrsOfChildren, List.mem_append]
    rcases h with h | h
    · split_ifs at h
      · exact absurd h List.not_mem_nil
      · exact Or.inl (mem_variablePtrs_of_mem_shown false n h)
    · exact Or.inr (mem_variablePtrsOfChildren_of_mem_shown element ns h)

theorem mem_variablePtrsOfInstances_of_mem_shown {p : NodePtr} : ∀ (element : Bool)
    (is : List (PlaceholderElement Node)),
    p ∈ shownInstances element is → p ∈ variablePtrsOfInstances is
  | _, [], h => h
  | element, ⟨pNode, _, _⟩ :: rest, h => by
    simp only [shownInstances, List.mem_append] at h
    simp only [variablePtrsOfInstances, List.mem_append]
    rcases h with h | h
    · split_ifs at h
      · exact absurd h List.not_mem_nil
      · exact Or.inl (mem_variablePtrs_of_mem_shown true pNode h)
    · exact Or.inr (mem_variablePtrsOfInstances_of_mem_shown element rest h)

end

mutual

/-- In a node that is rendered as null no variable shows. -/
theorem shown_of_not_rendered (element : Bool) : ∀ n : Node, rendered n = false →
    shown element n = []
  | .simple d ptr nodeId _ _ childNodes, h => by
    simp only [rendered, Bool.and_eq_false_iff, Bool.or_eq_false_iff] at h
    simp only [shown]
    rcases h with hrule | ⟨hclass, hchildren⟩
    · simp [hrule]
    · have hnone := shownChildren_of_not_rendered element childNodes hchildren
      simp [isBaseDataVariableType, hclass, hnone]
  | .placeholder d instances, h => by
    simp only [rendered, Bool.and_eq_false_iff] at h
    simp only [shown]
    rcases h with hrule | hnil
    · simp [hrule]
    · have hempty : instances = [] := by simpa using hnil
      simp [hempty, shownInstances]

theorem shownChildren_of_not_rendered (element : Bool) : ∀ ns : List Node,
    renderedAny ns = false → shownChildren element ns = []
  | [], _ => rfl
  | n :: ns, h => by
    simp only [renderedAny, Bool.or_eq_false_iff] at h
    simp [shownChildren, shown_of_not_rendered false n h.1,
      shownChildren_of_not_rendered element ns h.2]

end

/-! ### The values that show can be read back -/

theorem variablePtrs_subset_of_mem {n : Node} : ∀ {ns : List Node}, n ∈ ns →
    variablePtrs n ⊆ variablePtrsOfChildren ns
  | [], h => absurd h List.not_mem_nil
  | n' :: ns, h => by
    rw [variablePtrsOfChildren]
    rcases List.mem_cons.mp h with rfl | h
    · exact List.subset_append_left _ _
    · exact fun p hp => List.mem_append_right _ (variablePtrs_subset_of_mem h hp)

theorem distinctNames_of_mem {n : Node} : ∀ {ns : List Node}, DistinctNamesOfChildren ns →
    n ∈ ns → DistinctNames n
  | [], _, h => absurd h List.not_mem_nil
  | n' :: ns, hd, h => by
    simp only [DistinctNamesOfChildren] at hd
    rcases List.mem_cons.mp h with rfl | h
    · exact hd.1
    · exact distinctNames_of_mem hd.2 h

/-- The JSON of a node whose members are those of its children, with the further one. -/
theorem jsonAs_of_plain {d : NodeDefinition} (hrule : isSimpleRule d.modellingRule = true)
    {ptr : NodePtr} {nodeId typeNodeId : NodeId} {b : Bool} {childNodes : List Node}
    (hv : NoneNull v (variablePtrsOfChildren childNodes))
    (hd : DistinctNames (.simple d ptr nodeId typeNodeId b childNodes))
    (hbase : (isBaseDataVariableType d.nodeClass nodeId && !childNodes.isEmpty) = false)
    (hplain : isVariableClass d.nodeClass = true → renderedAny childNodes = true)
    (element : Bool) (typeDefinition : NodeId) :
    jsonAs element typeDefinition v (.simple d ptr nodeId typeNodeId b childNodes) =
      (Json.putMembers [] (childEntries v childNodes ++ elementTail element typeDefinition)).map
        .ofMembers := by
  simp only [DistinctNames] at hd
  rw [jsonAs, modelToJson_simple hrule ptr nodeId typeNodeId b hd.1, Json.putMembers_append]
  cases hmembers : Json.putMembers [] (childEntries v childNodes) with
  | error e => rfl
  | ok members =>
    have hne : isVariableClass d.nodeClass = true → members ≠ [] := by
      intro hclass hnil
      have hnone := ((members_eq_nil_iff childNodes hd.2 hv hmembers).mp hnil).2
      rw [hplain hclass] at hnone
      exact absurd hnone (by simp)
    simp only [Except.map, Except.bind, nodeJson_of_plain hbase (v ptr) hne]
    exact finish_ofMembers element typeDefinition members

/-- The JSON of a variable that keeps its value beside its children. -/
theorem jsonAs_of_base {d : NodeDefinition} (hrule : isSimpleRule d.modellingRule = true)
    {ptr : NodePtr} {nodeId typeNodeId : NodeId} {b : Bool} {childNodes : List Node}
    (hd : DistinctNames (.simple d ptr nodeId typeNodeId b childNodes))
    (hbase : (isBaseDataVariableType d.nodeClass nodeId && !childNodes.isEmpty) = true)
    (element : Bool) (typeDefinition : NodeId) :
    jsonAs element typeDefinition v (.simple d ptr nodeId typeNodeId b childNodes) =
      (Json.putMembers [] (childEntries v childNodes)).bind fun members =>
        (Json.putMembers (valueMembers (v ptr) members) (elementTail element typeDefinition)).map
          .ofMembers := by
  simp only [DistinctNames] at hd
  rw [jsonAs, modelToJson_simple hrule ptr nodeId typeNodeId b hd.1]
  cases Json.putMembers [] (childEntries v childNodes) with
  | error e => rfl
  | ok members =>
    simp only [Except.map, Except.bind, nodeJson_of_base hbase]
    exact finish_ofMembers element typeDefinition _

/-- The JSON of a placeholder, with the further member. -/
theorem jsonAs_placeholder {d : NodeDefinition} (hrule : isPlaceholderRule d.modellingRule = true)
    (instances : List (PlaceholderElement Node)) (element : Bool) (typeDefinition : NodeId) :
    jsonAs element typeDefinition v (.placeholder d instances) =
      (Json.putMembers [] (instanceEntries v instances ++ elementTail element typeDefinition)).map
        .ofMembers := by
  rw [jsonAs, modelToJson_placeholder hrule, Json.putMembers_append]
  cases Json.putMembers [] (instanceEntries v instances) with
  | error e => rfl
  | ok members => exact finish_ofMembers element typeDefinition members

theorem map_ofMembers_eq_ok {x : Except Exception (List (String × Json))} {j : Json}
    (h : x.map Json.ofMembers = .ok j) :
    ∃ members, x = .ok members ∧ Json.ofMembers members = j := by
  cases x with
  | error e => simp [Except.map] at h
  | ok members => exact ⟨members, rfl, Except.ok.inj h⟩

/-- The JSON of a variable without rendered children is its value. -/
theorem eq_value_of_bare {d : NodeDefinition} {ptr : NodePtr} {nodeId typeNodeId : NodeId}
    {b : Bool} {childNodes : List Node} (hv : NoneNull v (variablePtrsOfChildren childNodes))
    (hrule : isSimpleRule d.modellingRule = true)
    (hd : DistinctNames (.simple d ptr nodeId typeNodeId b childNodes))
    (hbase : (isBaseDataVariableType d.nodeClass nodeId && !childNodes.isEmpty) = false)
    (hclass : isVariableClass d.nodeClass = true) (hnone : renderedAny childNodes = false)
    {j : Json} (hj : modelToJson v {} (.simple d ptr nodeId typeNodeId b childNodes) = .ok j) :
    j = v ptr := by
  simp only [DistinctNames] at hd
  rw [modelToJson_simple hrule ptr nodeId typeNodeId b hd.1] at hj
  cases hm : Json.putMembers [] (childEntries v childNodes) with
  | error e => simp [hm, Except.map] at hj
  | ok members =>
    have hnil := (members_eq_nil_iff childNodes hd.2 hv hm).mpr ⟨rfl, hnone⟩
    rw [hm, hnil] at hj
    exact (Except.ok.inj hj).symm.trans (nodeJson_of_bare hbase hclass (v ptr))

end ModelToJson

end UmatiDashboard
