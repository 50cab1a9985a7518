import UmatiDashboard.DashboardClient.DataSets
import UmatiDashboard.DashboardClient.ShownValues
import UmatiDashboard.TypeReader.SetupTypeMap

/-!
# What is published follows the type

The expansion of a type on a server makes a tree whose nodes are instances of the nodes of the type
(`MatchesType`), whatever the server answers. The JSON of such a tree follows the type, too
(`JsonOf`): the members of a node bear the names of children of its type, the instances of a
placeholder name an entry of the type map and follow this type, and every variable shows its own
value. Apart from the names of the instances, only these values come from the server.
-/

namespace UmatiDashboard

open ModelToJson Node

/-! ### Trees that follow a type -/

section Trees

variable (reader : OpcUaTypeReader)

mutual

/-- The tree is made of instances of the type's nodes. -/
def MatchesType (t : NodeRef) : Node → Prop
  | .simple d _ _ _ _ childNodes =>
    d = (reader.node t).toNodeDefinition ∧ ChildrenFollow t childNodes
  | .placeholder d instances =>
    d = (reader.node t).toNodeDefinition ∧ InstancesFollow instances

def ChildrenFollow (t : NodeRef) : List Node → Prop
  | [] => True
  | n :: ns => (∃ pChild ∈ reader.heap.children t, MatchesType pChild n) ∧ ChildrenFollow t ns

def InstancesFollow : List (PlaceholderElement Node) → Prop
  | [] => True
  | ⟨pNode, _, typeDefinition⟩ :: rest =>
    (∃ t, reader.typeMap[typeDefinition]? = some t ∧ MatchesType t pNode) ∧ InstancesFollow rest

end

variable {reader} {t : NodeRef}

theorem childrenFollow_iff {ns : List Node} :
    ChildrenFollow reader t ns ↔ ∀ n ∈ ns, ∃ pChild ∈ reader.heap.children t,
      MatchesType reader pChild n := by
  induction ns with
  | nil => simp [ChildrenFollow]
  | cons n ns ih => simp [ChildrenFollow, ih]

theorem instancesFollow_iff {is : List (PlaceholderElement Node)} :
    InstancesFollow reader is ↔ ∀ el ∈ is, ∃ t, reader.typeMap[el.typeDefinition]? = some t ∧
      MatchesType reader t el.pNode := by
  induction is with
  | nil => simp [InstancesFollow]
  | cons el is ih => simp [InstancesFollow, ih]

/-- A node has the definition of the type's node that it follows. -/
theorem MatchesType.definition_eq {n : Node} (h : MatchesType reader t n) :
    n.definition = (reader.node t).toNodeDefinition := by
  cases n <;> exact h.1

end Trees

/-! ### JSON that follows a type -/

/-- A variable, which shows its value. -/
def Node.showsValue : Node → Bool
  | .simple d _ _ _ _ _ => isSimpleRule d.modellingRule && isVariableClass d.nodeClass
  | .placeholder _ _ => false

mutual

/-- The JSON of a node that follows a type, given the values of the node objects: every variable
shows its own value. -/
inductive JsonOf (reader : OpcUaTypeReader) (v : NodePtr → Json) : NodeRef → Node → Json → Prop
  /-- nothing is there to be rendered -/
  | null {t : NodeRef} {n : Node} (hvalue : n.showsValue = false) : JsonOf reader v t n .null
  /-- the value of a variable as it is -/
  | value {t : NodeRef} {ptr : NodePtr} {nodeId typeNodeId : NodeId} {b : Bool}
      {childNodes : List Node} (hclass : isVariableClass (reader.node t).nodeClass = true)
      (hbase : isBaseDataVariableType (reader.node t).nodeClass nodeId = true → childNodes = []) :
      JsonOf reader v t
        (.simple (reader.node t).toNodeDefinition ptr nodeId typeNodeId b childNodes) (v ptr)
  /-- the value of a variable beside its children -/
  | variable {t : NodeRef} {ptr : NodePtr} {nodeId typeNodeId : NodeId} {b : Bool}
      {childNodes : List Node} {members : List (String × Json)}
      (hbase : isBaseDataVariableType (reader.node t).nodeClass nodeId = true)
      (hmembers : ∀ m ∈ members, MemberOf reader v t childNodes m.1 m.2) :
      JsonOf reader v t
        (.simple (reader.node t).toNodeDefinition ptr nodeId typeNodeId b childNodes)
        (.object (valueMembers (v ptr) members))
  /-- the children of a node -/
  | object {t : NodeRef} {ptr : NodePtr} {nodeId typeNodeId : NodeId} {b : Bool}
      {childNodes : List Node} {members : List (String × Json)}
      (hbase : isBaseDataVariableType (reader.node t).nodeClass nodeId = false)
      (hmembers : ∀ m ∈ members, MemberOf reader v t childNodes m.1 m.2) :
      JsonOf reader v t
        (.simple (reader.node t).toNodeDefinition ptr nodeId typeNodeId b childNodes)
        (.object members)
  /-- the instances of a placeholder -/
  | instances {t : NodeRef} {is : List (PlaceholderElement Node)}
      {elements : List (String × Json)}
      (hrule : isPlaceholderRule (reader.node t).modellingRule = true)
      (helements : ∀ e ∈ elements, ElementOf reader v is e.1 e.2) :
      JsonOf reader v t (.placeholder (reader.node t).toNodeDefinition is) (.object elements)

/-- The member is that of one of the children, which follows a child of the type. -/
inductive MemberOf (reader : OpcUaTypeReader) (v : NodePtr → Json) :
    NodeRef → List Node → String → Json → Prop
  | child {t pChild : NodeRef} {childNodes : List Node} {n : Node} {name : String} {j : Json}
      (hchild : pChild ∈ reader.heap.children t) (hn : n ∈ childNodes)
      (hname : (reader.node pChild).specifiedBrowseName.name = name) (hj : j ≠ .null)
      (h : JsonOf reader v pChild n j) : MemberOf reader v t childNodes name j

/-- The element is the JSON of one of the instances, with the type that it follows. -/
inductive ElementOf (reader : OpcUaTypeReader) (v : NodePtr → Json) :
    List (PlaceholderElement Node) → String → Json → Prop
  | typed {is : List (PlaceholderElement Node)} {el : PlaceholderElement Node} {t : NodeRef}
      {name : String} {j jel : Json} (hel : el ∈ is) (hname : el.browseName.name = name)
      (htype : reader.typeMap[el.typeDefinition]? = some t) (h : JsonOf reader v t el.pNode j)
      (hj : j.assign typeDefinitionKey (.string el.typeDefinition.toString) = .ok jel) :
      ElementOf reader v is name jel

end

section Rendering

variable {reader : OpcUaTypeReader} {v : NodePtr → Json} {t : NodeRef}

/-- The JSON of a simple node, from the members of its children. -/
theorem jsonOf_nodeJson {ptr : NodePtr} {nodeId typeNodeId : NodeId} {b : Bool}
    {childNodes : List Node} {members : List (String × Json)}
    (hnone : childNodes = [] → members = [])
    (hmembers : ∀ m ∈ members, MemberOf reader v t childNodes m.1 m.2) :
    JsonOf reader v t (.simple (reader.node t).toNodeDefinition ptr nodeId typeNodeId b childNodes)
      (nodeJson (reader.node t).nodeClass nodeId (v ptr) (!childNodes.isEmpty) members) := by
  unfold nodeJson
  cases hbase : isBaseDataVariableType (reader.node t).nodeClass nodeId with
  | true =>
    have hclass : isVariableClass (reader.node t).nodeClass = true := by
      rw [isBaseDataVariableType, Bool.and_eq_true] at hbase
      exact hbase.1
    by_cases hempty : childNodes = []
    · subst hempty
      rw [hnone rfl]
      simpa [hclass] using JsonOf.value hclass fun _ => rfl
    · have hchildNodes : (!childNodes.isEmpty) = true := by simpa using hempty
      rw [hchildNodes, Bool.and_self, if_pos rfl]
      exact .variable hbase hmembers
  | false =>
    rw [Bool.false_and, if_neg Bool.false_ne_true]
    split_ifs with hvalue
    · rw [Bool.and_eq_true] at hvalue
      exact .value hvalue.1 fun h => by simp [hbase] at h
    · by_cases hempty : members = []
      · subst hempty
        refine .null ?_
        simp only [Node.showsValue]
        simpa using fun _ => hvalue
      · rw [Json.ofMembers_of_ne_nil hempty]
        exact .object hbase hmembers

mutual

/-- **The JSON of a tree that follows a type follows the type**, and shows the values of its
variables. -/
theorem MatchesType.jsonOf : ∀ {n : Node} {t : NodeRef} {j : Json}, MatchesType reader t n →
    modelToJson v {} n = .ok j → JsonOf reader v t n j
  | .simple d ptr nodeId typeNodeId b childNodes, t, j, h, hj => by
    obtain ⟨rfl, hchildren⟩ := h
    cases hrule : isSimpleRule (reader.node t).modellingRule with
    | false =>
      rw [modelToJson_simple_of_not_rule hrule] at hj
      cases hj
      exact .null (by rw [Node.showsValue, hrule, Bool.false_and])
    | true =>
      rw [modelToJson_firstNamed hrule] at hj
      cases hput : Json.putMembers [] (childEntries v (firstNamed [] childNodes)) with
      | error e =>
        rw [hput] at hj
        cases hj
      | ok members =>
        rw [hput] at hj
        cases hj
        refine jsonOf_nodeJson (fun hnone => ?_) fun m hm => ?_
        · subst hnone
          exact (Except.ok.inj hput).symm
        · obtain ⟨hnotNull, hentry⟩ := Json.exists_entry_of_mem hput hm
          -- a member comes from a child, whose type node is a child of the node's type
          obtain ⟨n, hn, heq⟩ := List.mem_map.mp hentry
          have hmember : memberJson v n = .ok m.2 := congrArg Prod.snd heq
          have hmem := mem_of_mem_firstNamed hn
          obtain ⟨pChild, hchild, hname, hjson⟩ :=
            hchildren.memberOf n hmem (modelToJson_of_memberJson hmember hnotNull)
          exact .child hchild hmem (hname.trans (congrArg Prod.fst heq)) hnotNull hjson
  | .placeholder d instances, t, j, h, hj => by
    obtain ⟨rfl, hinstances⟩ := h
    cases hrule : isPlaceholderRule (reader.node t).modellingRule with
    | false =>
      rw [modelToJson_placeholder_of_not_rule hrule] at hj
      cases hj
      exact .null rfl
    | true =>
      rw [modelToJson_placeholder hrule] at hj
      cases hput : Json.putMembers [] (instanceEntries v instances) with
      | error e =>
        rw [hput] at hj
        cases hj
      | ok elements =>
        rw [hput] at hj
        cases hj
        by_cases hempty : elements = []
        · subst hempty
          exact .null rfl
        · rw [Json.ofMembers_of_ne_nil hempty]
          refine .instances hrule fun e he => ?_
          obtain ⟨-, hentry⟩ := Json.exists_entry_of_mem hput he
          obtain ⟨el, hel, heq⟩ := List.mem_map.mp hentry
          obtain ⟨t', own, htype, hown, hassign⟩ :=
            hinstances.elementOf el hel (congrArg Prod.snd heq)
          exact .typed hel (congrArg Prod.fst heq) htype hown hassign

theorem ChildrenFollow.memberOf : ∀ {ns : List Node} {t : NodeRef}, ChildrenFollow reader t ns →
    ∀ n ∈ ns, ∀ {j : Json}, modelToJson v {} n = .ok j →
      ∃ pChild ∈ reader.heap.children t,
        (reader.node pChild).specifiedBrowseName.name = n.bareName ∧ JsonOf reader v pChild n j
  | [], _, _, _, hn, _, _ => absurd hn List.not_mem_nil
  | n :: ns, t, h, n', hn', j, hj => by
    obtain ⟨⟨pChild, hmem, hfollows⟩, hrest⟩ := h
    rcases List.mem_cons.mp hn' with heq | hn'
    · rw [heq] at hj ⊢
      exact ⟨pChild, hmem, by rw [bareName, hfollows.definition_eq], hfollows.jsonOf hj⟩
    · exact hrest.memberOf n' hn' hj

theorem InstancesFollow.elementOf : ∀ {is : List (PlaceholderElement Node)},
    InstancesFollow reader is → ∀ el ∈ is, ∀ {jel : Json},
      elementJson v el.typeDefinition el.pNode = .ok jel →
      ∃ t j, reader.typeMap[el.typeDefinition]? = some t ∧ JsonOf reader v t el.pNode j ∧
        j.assign typeDefinitionKey (.string el.typeDefinition.toString) = .ok jel
  | [], _, _, hel, _, _ => absurd hel List.not_mem_nil
  | ⟨pNode, browseName, typeDefinition⟩ :: rest, h, el, hel, jel, hj => by
    obtain ⟨⟨t, htype, hfollows⟩, hrest⟩ := h
    rcases List.mem_cons.mp hel with heq | hel
    · subst heq
      rw [elementJson] at hj
      cases hown : modelToJson v {} pNode with
      | error e =>
        rw [hown] at hj
        cases hj
      | ok own =>
        rw [hown] at hj
        exact ⟨t, own, htype, hfollows.jsonOf hown, hj⟩
    · exact hrest.elementOf el hel hj

end

end Rendering

/-! ### What an expansion makes -/

namespace DashboardClient

variable {ω : Type} (client : IDashboardDataClient ω) (reader : OpcUaTypeReader)

/-- Whatever state the program starts from, the value that it returns satisfies `V`. -/
abbrev Returns {α : Type} (p : ClientM ω α) (V : α → Prop) : Prop := p.Keeps (fun _ => True) V

theorem returns_ask {α : Type} (f : ω → Except Exception α × ω) :
    Returns (ask f) fun _ => True :=
  keeps_ask_world (K := fun _ => True) fun _ _ => trivial

section Children

variable {client reader} {transform : NodeId → NodeRef → ClientM ω Node}
  (htransform : ∀ n t, Returns (transform n t) (MatchesType reader t))

include htransform

variable (client) in
theorem returns_optionalAndMandatory (startNode : NodeId) {t pChild : NodeRef}
    (hchild : pChild ∈ reader.heap.children t) {found : List Node}
    (hfound : ChildrenFollow reader t found) :
    Returns (optionalAndMandatoryTransformToNodeId client reader transform startNode found pChild)
      fun r => ChildrenFollow reader t r.2 := by
  refine .catching ((returns_ask _).bind fun childNodeId _ => ?_) fun ex => ?_
  · split_ifs
    · exact Prog.keeps_pure hfound
    · refine (htransform _ _).bind fun node hnode => Prog.keeps_pure ?_
      rw [childrenFollow_iff] at hfound ⊢
      intro n hn
      rcases List.mem_append.mp hn with hn | hn
      · exact hfound n hn
      · exact ⟨pChild, hchild, List.mem_singleton.mp hn ▸ hnode⟩
  · split
    · split_ifs
      · exact Prog.keeps_throw
      · exact Prog.keeps_pure hfound
    · split_ifs
      · exact Prog.keeps_throw
      · exact Prog.keeps_pure hfound

theorem returns_preparePlaceholderNodeTypeId {instances : List (PlaceholderElement Node)}
    (hinstances : InstancesFollow reader instances) (browseResult : BrowseResult) :
    Returns (preparePlaceholderNodeTypeId client reader transform instances browseResult)
      (InstancesFollow reader) := by
  refine .bind (V := fun _ => True) ?_ fun typeDefinition _ => ?_
  · unfold placeholderTypeDefinition
    split_ifs
    · exact (returns_ask _).bind fun _ _ => Prog.keeps_front.bind fun _ _ => Prog.keeps_pure trivial
    · exact Prog.keeps_pure trivial
  · cases htype : reader.typeMap[typeDefinition]? with
    | none => exact Prog.keeps_pure hinstances
    | some t =>
      refine (htransform _ _).bind fun node hnode => Prog.keeps_pure ?_
      rw [instancesFollow_iff] at hinstances ⊢
      intro el hel
      rcases List.mem_append.mp hel with hel | hel
      · exact hinstances el hel
      · obtain rfl := List.mem_singleton.mp hel
        exact ⟨t, htype, hnode⟩

variable (client) in
theorem returns_optionalAndMandatoryPlaceholder (startNode : NodeId) {t pChild : NodeRef}
    (hchild : pChild ∈ reader.heap.children t) {found : List Node}
    (hfound : ChildrenFollow reader t found) :
    Returns (optionalAndMandatoryPlaceholderTransformToNodeId client reader transform startNode
      found pChild) fun r => ChildrenFollow reader t r.2 := by
  refine .catching (.bind (V := MatchesType reader pChild) ?_ fun node hnode =>
    Prog.keeps_pure ?_) fun ex => ?_
  · refine (returns_ask _).bind fun browseResults _ => ?_
    have hfold : Returns (preparePlaceholderNodesTypeId client reader transform browseResults)
        (InstancesFollow reader) :=
      Prog.Keeps.foldEach (fun instances r _ hinstances =>
        returns_preparePlaceholderNodeTypeId htransform hinstances r) trivial
    exact hfold.bind fun instances hinstances => Prog.keeps_pure ⟨rfl, hinstances⟩
  · rw [childrenFollow_iff] at hfound ⊢
    intro n hn
    rcases List.mem_append.mp hn with hn | hn
    · exact hfound n hn
    · exact ⟨pChild, hchild, List.mem_singleton.mp hn ▸ hnode⟩
  · split_ifs
    · exact Prog.keeps_throw
    · exact Prog.keeps_pure hfound

theorem returns_transformChild (startNode : NodeId) {t pChild : NodeRef}
    (hchild : pChild ∈ reader.heap.children t) {found : List Node}
    (hfound : ChildrenFollow reader t found) :
    Returns (transformChild client reader transform startNode found pChild)
      (ChildrenFollow reader t) := by
  have hnamed := returns_optionalAndMandatory client htransform startNode hchild hfound
  have hplaceholder :=
    returns_optionalAndMandatoryPlaceholder client htransform startNode hchild hfound
  unfold transformChild
  split
  · exact hnamed.map fun _ h => h
  · exact hnamed.map fun _ h => h
  · exact hplaceholder.map fun _ h => h
  · exact hplaceholder.map fun _ h => h
  · exact Prog.keeps_pure hfound

end Children

/-- **An expansion follows the type**, whatever the server answers. -/
theorem returns_transformToNodeIds (fuel : ℕ) (startNode : NodeId) (pTypeDefinition : NodeRef) :
    Returns (transformToNodeIds client reader fuel startNode pTypeDefinition)
      (MatchesType reader pTypeDefinition) := by
  induction fuel generalizing startNode pTypeDefinition with
  | zero => exact Prog.keeps_stuck
  | succ fuel ih =>
    have hinsert : Returns (insertBrowsed startNode : ClientM ω Bool) fun _ => True :=
      fun _ _ => ⟨trivial, fun _ _ => trivial⟩
    have hallocate : Returns (allocate : ClientM ω NodePtr) fun _ => True :=
      fun _ _ => ⟨trivial, fun _ _ => trivial⟩
    refine hinsert.bind fun isNew _ => .bind (V := ChildrenFollow reader pTypeDefinition) ?_
      fun found hfound => hallocate.bind fun _ _ => Prog.keeps_pure ⟨rfl, hfound⟩
    split_ifs
    · refine .bind (V := ChildrenFollow reader pTypeDefinition)
        (Prog.Keeps.foldEach (fun found pChild hchild hfound =>
          returns_transformChild ih startNode hchild hfound) trivial) fun found hfound => ?_
      exact (Prog.keeps_modify fun _ _ => trivial).bind fun _ _ => Prog.keeps_pure hfound
    · exact Prog.keeps_pure trivial

/-- The data set that is added has a tree that follows the type. -/
theorem ends_addDataSet_follows (fuel : ℕ) (startNodeId : NodeId) (pTypeDefinition : NodeRef)
    (channel onlineChannel : String) (s : Session ω) :
    (addDataSet client reader fuel startNodeId pTypeDefinition channel onlineChannel).Ends s
      fun out s' => ∀ u, out = .ok u → ∃ node, MatchesType reader pTypeDefinition node ∧
        s'.this.dataSets =
          s.this.dataSets ++ [⟨startNodeId, channel, onlineChannel, node, ∅⟩] := by
  rw [addDataSet, Prog.ends_catching, Prog.ends_bind, prepareDataSetStorage, Prog.ends_bind]
  have hkeeps := keeps_transformToNodeIds client reader (K := fun _ => True) (c := s.this)
    (IDashboardDataClient.readsKeep_of_forall fun _ => trivial) fuel startNodeId pTypeDefinition s
    ⟨trivial, rfl, rfl, rfl⟩
  have hraises := raises_transformToNodeIds client reader fuel startNodeId pTypeDefinition s
  have hfollows :=
    returns_transformToNodeIds client reader fuel startNodeId pTypeDefinition s trivial
  refine (Prog.Ends.and (Prog.Ends.and hkeeps hraises) hfollows).mono fun out s₁ h₁ => ?_
  obtain ⟨⟨⟨hsame, -⟩, hthrown⟩, -, hnode⟩ := h₁
  cases out with
  | stuck w => exact fun _ h => by cases h
  | throw e =>
    simp only [Outcome.follow_throw, Outcome.rescue_throw, hthrown e rfl, Bool.false_eq_true,
      if_false, Prog.ends_throw]
    exact fun _ h => by cases h
  | ok node =>
    simp only [Outcome.follow_ok, Prog.ends_pure, Prog.ends_bind]
    refine (ends_subscribeValues client node s₁).mono fun out s₂ h₂ => ?_
    obtain ⟨rfl, hsets⟩ := h₂
    refine fun _ _ => ⟨node, hnode node rfl, ?_⟩
    rw [← hsame.dataSets, ← hsets]
    rfl

end DashboardClient

end UmatiDashboard
