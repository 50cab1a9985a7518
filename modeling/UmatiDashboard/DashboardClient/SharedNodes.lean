import UmatiDashboard.DashboardClient.RepeatedChildren
import Mathlib.Data.List.Pairwise

/-!
# Nodes that stand at several places

A server node that is reached at several places of an instance is expanded at the first of them
only, and subscribed for one of them. So at every later place the node is published without child
members, and of two places of a variable one shows nothing (`leaves_addDataSet_published`).
-/

namespace UmatiDashboard

namespace DashboardClient

open Node ModelToJson

/-! ### The places of a tree -/

/-- A place of an instance tree that a server node stands at: a `SimpleNode`. -/
structure Position where
  definition : NodeDefinition
  ptr : NodePtr
  nodeId : NodeId
  typeNodeId : NodeId
  ofBaseDataVariableType : Bool
  childNodes : List Node

namespace Position

def node (p : Position) : Node :=
  .simple p.definition p.ptr p.nodeId p.typeNodeId p.ofBaseDataVariableType p.childNodes

def isVariable (p : Position) : Bool := ModelToJson.isVariableClass p.definition.nodeClass

/-- What is published at the place if it has no child members. -/
def bareJson (p : Position) (v : NodePtr → Json) : Json :=
  if isSimpleRule p.definition.modellingRule && p.isVariable then v p.ptr else .null

end Position

mutual

/-- The places of a tree, a node before the nodes below it. -/
def positions : Node → List Position
  | .simple d ptr nodeId typeNodeId b childNodes =>
    ⟨d, ptr, nodeId, typeNodeId, b, childNodes⟩ :: positionsOfChildren childNodes
  | .placeholder _ instances => positionsOfInstances instances

def positionsOfChildren : List Node → List Position
  | [] => []
  | n :: ns => positions n ++ positionsOfChildren ns

def positionsOfInstances : List (PlaceholderElement Node) → List Position
  | [] => []
  | ⟨pNode, _, _⟩ :: is => positions pNode ++ positionsOfInstances is

end

theorem positionsOfChildren_eq_flatMap (ns : List Node) :
    positionsOfChildren ns = ns.flatMap positions := by
  induction ns with
  | nil => simp [positionsOfChildren]
  | cons n ns ih => simp [positionsOfChildren, ih]

theorem positionsOfInstances_eq_flatMap (is : List (PlaceholderElement Node)) :
    positionsOfInstances is = is.flatMap fun el => positions el.pNode := by
  induction is with
  | nil => simp [positionsOfInstances]
  | cons el is ih =>
    obtain ⟨pNode, browseName, typeDefinition⟩ := el
    simp [positionsOfInstances, ih]

/-- The node objects that variables of a list of places are. -/
def ptrsOfVariables (ps : List Position) : List NodePtr :=
  (ps.filter Position.isVariable).map Position.ptr

theorem ptrsOfVariables_cons (p : Position) (ps : List Position) :
    ptrsOfVariables (p :: ps) = (if p.isVariable then [p.ptr] else []) ++ ptrsOfVariables ps := by
  cases hvar : p.isVariable <;> simp [ptrsOfVariables, hvar]

theorem ptrsOfVariables_append (ps qs : List Position) :
    ptrsOfVariables (ps ++ qs) = ptrsOfVariables ps ++ ptrsOfVariables qs := by
  simp [ptrsOfVariables]

mutual

theorem variablePtrs_eq : ∀ n : Node, variablePtrs n = ptrsOfVariables (positions n)
  | .simple d ptr nodeId typeNodeId b childNodes => by
    have ih := variablePtrsOfChildren_eq childNodes
    rw [variablePtrs, positions, ptrsOfVariables_cons, ih, Position.isVariable]
  | .placeholder d instances => by
    rw [variablePtrs, positions, variablePtrsOfInstances_eq instances]

theorem variablePtrsOfChildren_eq : ∀ ns : List Node,
    variablePtrsOfChildren ns = ptrsOfVariables (positionsOfChildren ns)
  | [] => by
    rw [variablePtrsOfChildren, positionsOfChildren]
    rfl
  | n :: ns => by
    rw [variablePtrsOfChildren, positionsOfChildren, ptrsOfVariables_append, variablePtrs_eq n,
      variablePtrsOfChildren_eq ns]

theorem variablePtrsOfInstances_eq : ∀ is : List (PlaceholderElement Node),
    variablePtrsOfInstances is = ptrsOfVariables (positionsOfInstances is)
  | [] => by
    rw [variablePtrsOfInstances, positionsOfInstances]
    rfl
  | ⟨pNode, _, _⟩ :: is => by
    rw [variablePtrsOfInstances, positionsOfInstances, ptrsOfVariables_append,
      variablePtrs_eq pNode, variablePtrsOfInstances_eq is]

end

/-- A variable of the places `ps`. -/
def IsVariableOf (ps : List Position) (v : NodePtr × NodeId) : Prop :=
  ∃ p ∈ ps, p.isVariable = true ∧ v = (p.ptr, p.nodeId)

theorem IsVariableOf.mono {ps qs : List Position} (h : ∀ p ∈ ps, p ∈ qs) {v : NodePtr × NodeId}
    (hv : IsVariableOf ps v) : IsVariableOf qs v := by
  obtain ⟨p, hp, hvar⟩ := hv
  exact ⟨p, h p hp, hvar⟩

mutual

/-- What is subscribed for a tree stands at a place of it. -/
theorem isVariableOf_nodeVariables : ∀ n : Node, ∀ v ∈ nodeVariables n,
    IsVariableOf (positions n) v
  | .simple d ptr nodeId typeNodeId b childNodes, v, hv => by
    rw [nodeVariables, List.mem_append] at hv
    rw [positions]
    rcases hv with hv | hv
    · split_ifs at hv with hrule
      · refine ⟨_, List.mem_cons_self, ?_, List.mem_singleton.mp hv⟩
        exact (Bool.and_eq_true_iff.mp hrule).1
      · exact absurd hv List.not_mem_nil
    · exact (isVariableOf_childVariables childNodes v hv).mono fun p hp =>
        List.mem_cons_of_mem _ hp
  | .placeholder d instances, v, hv => by
    rw [nodeVariables] at hv
    exact absurd hv List.not_mem_nil

theorem isVariableOf_childVariables : ∀ ns : List Node, ∀ v ∈ childVariables ns,
    IsVariableOf (positionsOfChildren ns) v
  | [], v, hv => by
    rw [childVariables] at hv
    exact absurd hv List.not_mem_nil
  | .simple d ptr nodeId typeNodeId b childNodes :: ns, v, hv => by
    rw [childVariables, List.mem_append] at hv
    rw [positionsOfChildren]
    rcases hv with hv | hv
    · have hnode : v ∈ nodeVariables (.simple d ptr nodeId typeNodeId b childNodes) := by
        split at hv
        · exact hv
        · exact hv
        · exact absurd hv List.not_mem_nil
      exact (isVariableOf_nodeVariables _ v hnode).mono fun p hp => List.mem_append_left _ hp
    · exact (isVariableOf_childVariables ns v hv).mono fun p hp => List.mem_append_right _ hp
  | .placeholder d instances :: ns, v, hv => by
    rw [childVariables, List.mem_append] at hv
    rw [positionsOfChildren, positions]
    rcases hv with hv | hv
    · have hinstance : v ∈ instanceVariables instances := by
        split at hv
        · exact hv
        · exact hv
        · exact absurd hv List.not_mem_nil
      exact (isVariableOf_instanceVariables instances v hinstance).mono fun p hp =>
        List.mem_append_left _ hp
    · exact (isVariableOf_childVariables ns v hv).mono fun p hp => List.mem_append_right _ hp

theorem isVariableOf_instanceVariables : ∀ is : List (PlaceholderElement Node),
    ∀ v ∈ instanceVariables is, IsVariableOf (positionsOfInstances is) v
  | [], v, hv => by
    rw [instanceVariables] at hv
    exact absurd hv List.not_mem_nil
  | ⟨pNode, _, _⟩ :: is, v, hv => by
    rw [instanceVariables, List.mem_append] at hv
    rw [positionsOfInstances]
    rcases hv with hv | hv
    · exact (isVariableOf_nodeVariables pNode v hv).mono fun p hp => List.mem_append_left _ hp
    · exact (isVariableOf_instanceVariables is v hv).mono fun p hp => List.mem_append_right _ hp

end

/-! ### A node is expanded once -/

variable {ω : Type} (client : IDashboardDataClient ω) (reader : OpcUaTypeReader)

/-- The places of a part of a run stand for nodes that are reached when it ends. A node that was
reached before has no children at any of them, and no node has children at a later place. -/
structure Reaches (s s' : Session ω) (ps : List Position) : Prop where
  mono : ∀ n, n ∈ s.this.browsedNodes → n ∈ s'.this.browsedNodes
  reached : ∀ p ∈ ps, p.nodeId ∈ s'.this.browsedNodes
  again : ∀ p ∈ ps, p.nodeId ∈ s.this.browsedNodes → p.childNodes = []
  later : ps.Pairwise fun p q => p.nodeId = q.nodeId → q.childNodes = []

theorem ledger_reaches : Ledger (Reaches : Session ω → Session ω → List Position → Prop) where
  append {s s' s'' ps qs} h h' := by
    refine ⟨fun n hn => h'.mono n (h.mono n hn), fun p hp => ?_, fun p hp hn => ?_, ?_⟩
    · rcases List.mem_append.mp hp with hp | hp
      · exact h'.mono _ (h.reached p hp)
      · exact h'.reached p hp
    · rcases List.mem_append.mp hp with hp | hp
      · exact h.again p hp hn
      · exact h'.again p hp (h.mono _ hn)
    · refine List.pairwise_append.mpr ⟨h.later, h'.later, fun p hp q hq heq => ?_⟩
      exact h'.again q hq (heq ▸ h.reached p hp)
  lose h := ⟨h.mono, fun p hp => absurd hp List.not_mem_nil,
    fun p hp => absurd hp List.not_mem_nil, List.Pairwise.nil⟩
  frame _ hbrowsed := ⟨fun n hn => hbrowsed ▸ hn, fun p hp => absurd hp List.not_mem_nil,
    fun p hp => absurd hp List.not_mem_nil, List.Pairwise.nil⟩

/-- Only the reached nodes matter. -/
theorem Reaches.congr {s s' s'' : Session ω} {ps : List Position} (h : Reaches s s' ps)
    (hbrowsed : s''.this.browsedNodes = s'.this.browsedNodes) : Reaches s s'' ps :=
  ⟨fun n hn => hbrowsed ▸ h.mono n hn, fun p hp => hbrowsed ▸ h.reached p hp, h.again, h.later⟩

/-- The node itself comes before the nodes below it. -/
theorem Reaches.cons {s s₁ s₂ : Session ω} {ps : List Position} {p : Position}
    (hmono : ∀ n, n ∈ s.this.browsedNodes → n ∈ s₁.this.browsedNodes)
    (hself : p.nodeId ∈ s₁.this.browsedNodes)
    (hagain : p.nodeId ∈ s.this.browsedNodes → p.childNodes = []) (h : Reaches s₁ s₂ ps) :
    Reaches s s₂ (p :: ps) := by
  refine ⟨fun n hn => h.mono n (hmono n hn), ?_, ?_, List.pairwise_cons.mpr ⟨?_, h.later⟩⟩
  · rintro q (_ | ⟨_, hq⟩)
    · exact h.mono _ hself
    · exact h.reached q hq
  · rintro q (_ | ⟨_, hq⟩) hn
    · exact hagain hn
    · exact h.again q hq (hmono _ hn)
  · exact fun q hq heq => h.again q hq (heq ▸ hself)

theorem leaves_reaches : ∀ (fuel : ℕ) (startNode : NodeId) (pTypeDefinition : NodeRef)
    (s : Session ω),
    (transformToNodeIds client reader fuel startNode pTypeDefinition).Leaves s (Reaches s · [])
      fun node s' => Reaches s s' (positions node)
  | 0, _, _, s => ⟨ledger_reaches.frame rfl rfl, fun _ h => by cases h⟩
  | fuel + 1, startNode, pTypeDefinition, s => by
    have ih := leaves_reaches fuel
    -- what the insertion into the set does is said of the two sessions, not by `Reaches`
    have hinsert : (insertBrowsed startNode : ClientM ω Bool).Leaves s (Reaches s · [])
        fun isNew s' => (∀ n, n ∈ s.this.browsedNodes → n ∈ s'.this.browsedNodes) ∧
          startNode ∈ s'.this.browsedNodes ∧
            (startNode ∈ s.this.browsedNodes → isNew = false) := by
      have hgrown : ∀ n, n ∈ s.this.browsedNodes →
          n ∈ s.this.browsedNodes.insert startNode := fun n hn =>
        Std.ExtTreeSet.mem_insert.mpr (Or.inr hn)
      refine ⟨⟨hgrown, by simp, by simp, List.Pairwise.nil⟩, fun isNew h => ?_⟩
      cases h
      refine ⟨hgrown, Std.ExtTreeSet.mem_insert_self, fun hn => ?_⟩
      rw [Std.ExtTreeSet.contains_iff_mem.mpr hn]
      rfl
    refine hinsert.bind fun isNew s₁ hs₁ hisNew => ?_
    obtain ⟨hmono, hself, hagain⟩ := hisNew
    refine Prog.Leaves.bind (Q := fun found s' => Reaches s₁ s' (found.flatMap positions) ∧
      (isNew = false → found = [])) ?_ fun found s₂ hs₂ hfound => ?_
    · split_ifs with hnew
      · refine ((leaves_findChildNodes client reader ledger_reaches ih (fun d is => by
          rw [positions, positionsOfInstances_eq_flatMap]) startNode pTypeDefinition s₁).mono
            fun found s' _ h => ⟨h, fun hold => ?_⟩).weaken fun _ hs' =>
              ledger_reaches.append hs₁ hs'
        rw [hnew] at hold
        cases hold
      · exact Prog.leaves_pure hs₁ ⟨ledger_reaches.frame rfl rfl, fun _ => rfl⟩
    · have hallocate : (allocate : ClientM ω NodePtr).Leaves s₂ (Reaches s · [])
          fun _ s' => s'.this.browsedNodes = s₂.this.browsedNodes :=
        ⟨hs₂.congr rfl, fun _ _ => rfl⟩
      refine hallocate.bind fun ptr s₃ hs₃ hbrowsed => Prog.leaves_pure hs₃ ?_
      rw [positions, positionsOfChildren_eq_flatMap]
      exact (hfound.1.congr hbrowsed).cons hmono hself fun hn => hfound.2 (hagain hn)

/-! ### What is published at the places of a node -/

/-- What the notifications make of a data set with the tree `node`, where `seen` are the nodes
that were subscribed before: no node has child members at a later place, one of two places of a
variable shows nothing, and what a variable shows is the latest value notified. If every call of
`Subscribe` succeeds (`S`), the first place subscribed for a node not seen before shows it. -/
structure PublishedOnce (S : Prop) (seen : List NodeId) (notifications : List (NodeId × Json))
    (v : NodePtr → Json) (node : Node) : Prop where
  members : (positions node).Pairwise fun p q => p.nodeId = q.nodeId →
    ModelToJson.modelToJson v {} q.node = .ok (q.bareJson v)
  values : (positions node).Pairwise fun p q => p.nodeId = q.nodeId → p.isVariable = true →
    q.isVariable = true → v p.ptr = .null ∨ v q.ptr = .null
  latest : ∀ p ∈ positions node, p.isVariable = true →
    v p.ptr = .null ∨ v p.ptr = heard notifications (some p.nodeId) .null
  first : S → Shows (fun o => heard notifications o .null) v seen (nodeVariables node)

/-- A place without children is published without child members. -/
theorem modelToJson_of_childless {p : Position} (h : p.childNodes = []) (v : NodePtr → Json) :
    ModelToJson.modelToJson v {} p.node = .ok (p.bareJson v) := by
  obtain ⟨d, ptr, nodeId, typeNodeId, b, childNodes⟩ := p
  obtain rfl : childNodes = [] := h
  cases hrule : isSimpleRule d.modellingRule with
  | false =>
    simp only [Position.node, Position.bareJson, hrule, Bool.false_and, Bool.false_eq_true,
      if_false]
    exact modelToJson_simple_of_not_rule hrule _ _ _ _ _
  | true =>
    have hnames : (([] : List Node).map fun n => n.definition.specifiedBrowseName).Nodup :=
      List.nodup_nil
    refine (modelToJson_simple hrule ptr nodeId typeNodeId b hnames).trans ?_
    have hjson : nodeJson d.nodeClass nodeId (v ptr) false [] =
        if isVariableClass d.nodeClass then v ptr else .null := by
      simp [nodeJson]
    simp only [Position.bareJson, Position.isVariable, hrule, Bool.true_and, ← hjson]
    rfl

variable {client}

/-- Who hears what after a new tree was subscribed. -/
structure HeardTree (client : IDashboardDataClient ω) (seen : List NodeId)
    (callbacks : List (NodeId × NewValueCallback)) (node : Node) : Prop where
  heardOnce : HeardOnce (¬ client.Subscribes) (Hears callbacks) seen (nodeVariables node)
  unheard : ∀ ptr ∈ variablePtrs node, ptr ∉ (nodeVariables node).map Prod.fst →
    Hears callbacks ptr none

variable (client) in
/-- Subscribing a new tree, whatever the calls answer. -/
theorem NewTree.heardTree {s s₁ : Session ω} {node : Node} (hs : Fresh s.this)
    (hnew : NewTree s node s₁) :
    ∃ s₂, (subscribeValues client node).run s₁ = (.ok (), s₂) ∧
      s₂.this.dataSets = s₁.this.dataSets ∧
        HeardTree client (heldNodes s.this) s₂.this.callbacks node := by
  have hsublist := nodeVariables_sublist node
  have hold : ∀ ptr ∈ variablePtrs node, ∀ cb ∈ s₁.this.callbacks, cb.2.pNode ≠ ptr := by
    rintro ptr hptr cb hcb rfl
    rw [hnew.callbacks] at hcb
    exact Nat.not_lt.mpr (hnew.allocated.2 _ hptr).1 (hs cb hcb)
  obtain ⟨s₂, hrun, hdata, hothers, hheard⟩ := run_subscribeAll_heardOnce client
    (nodeVariables node) s₁ (hsublist.nodup hnew.allocated.1)
      fun cb hcb hmem => hold _ (hsublist.subset hmem) cb hcb rfl
  rw [hnew.held] at hheard
  refine ⟨s₂, by rw [subscribeValues_eq, hrun], hdata, hheard, fun ptr hptr hmem n => ?_⟩
  rw [hothers ptr hmem]
  exact ⟨fun hcb => absurd rfl (hold ptr hptr _ hcb), fun h => by cases h⟩

namespace HeardTree

variable {seen : List NodeId} {callbacks : List (NodeId × NewValueCallback)} {node : Node}

/-- A variable hears its node or nothing, and it hears nothing if it is not subscribed. -/
theorem hears (h : HeardTree client seen callbacks node)
    (hptrs : (variablePtrs node).Nodup) {p : Position} (hp : p ∈ positions node)
    (hvar : p.isVariable = true) :
    Hears callbacks p.ptr none ∨
      Hears callbacks p.ptr (some p.nodeId) ∧ (p.ptr, p.nodeId) ∈ nodeVariables node := by
  rw [variablePtrs_eq] at hptrs
  have hpmem : p ∈ (positions node).filter Position.isVariable := List.mem_filter.mpr ⟨hp, hvar⟩
  by_cases hmem : p.ptr ∈ (nodeVariables node).map Prod.fst
  · obtain ⟨v, hv, hptr⟩ := List.mem_map.mp hmem
    obtain ⟨q, hq, hqvar, rfl⟩ := isVariableOf_nodeVariables node v hv
    -- the node objects of variables stand at one place each
    obtain rfl := List.inj_on_of_nodup_map hptrs (List.mem_filter.mpr ⟨hq, hqvar⟩) hpmem hptr
    exact (h.heardOnce.related _ hv).imp id fun hsome => ⟨hsome, hv⟩
  · refine Or.inl (h.unheard _ ?_ hmem)
    rw [variablePtrs_eq]
    exact List.mem_map_of_mem hpmem

/-- Of two variables of one node, one hears nothing. -/
theorem pairwise (h : HeardTree client seen callbacks node) (hptrs : (variablePtrs node).Nodup) :
    (positions node).Pairwise fun p q => p.nodeId = q.nodeId → p.isVariable = true →
      q.isVariable = true → Hears callbacks p.ptr none ∨ Hears callbacks q.ptr none := by
  have hne : (positions node).Pairwise fun p q =>
      p.isVariable = true → q.isVariable = true → p.ptr ≠ q.ptr := by
    rwa [variablePtrs_eq, ptrsOfVariables, List.Nodup, List.pairwise_map,
      List.pairwise_filter] at hptrs
  have : Std.Symm fun v w : NodePtr × NodeId => v.2 = w.2 →
      Hears callbacks v.1 none ∨ Hears callbacks w.1 none :=
    ⟨fun v w hvw heq => (hvw heq.symm).symm⟩
  have honce : (nodeVariables node).Pairwise fun v w => v.2 = w.2 →
      Hears callbacks v.1 none ∨ Hears callbacks w.1 none := by
    refine h.heardOnce.pairwise.imp fun {v w} hvw heq => hvw ?_
    rw [heq, NodeId.equals_self]
  refine hne.imp_of_mem fun {p q} hp hq hpq heq hpvar hqvar => ?_
  rcases h.hears hptrs hp hpvar with hnone | ⟨-, hpmem⟩
  · exact Or.inl hnone
  · rcases h.hears hptrs hq hqvar with hnone | ⟨-, hqmem⟩
    · exact Or.inr hnone
    · exact honce.forall hpmem hqmem (fun hpair => hpq hpvar hqvar (congrArg Prod.fst hpair)) heq

/-- **What is published of a tree** whose nodes were expanded once and subscribed once. -/
theorem publishedOnce (h : HeardTree client seen callbacks node)
    (hptrs : (variablePtrs node).Nodup)
    (hlater : (positions node).Pairwise fun p q => p.nodeId = q.nodeId → q.childNodes = [])
    {c : DashboardClient} (hc : c.callbacks = callbacks) {d : DataSetStorage} (hd : d.values = ∅)
    (notifications : List (NodeId × Json)) :
    PublishedOnce client.Subscribes seen notifications (getValue (notifyAll c d notifications))
      node := by
  subst hc
  have hnull : ∀ ptr, getValue d ptr = .null := by
    intro ptr
    rw [getValue, hd]
    simp
  have hshown : ∀ {ptr : NodePtr} {o : Option NodeId}, Hears c.callbacks ptr o →
      getValue (notifyAll c d notifications) ptr = heard notifications o .null := by
    intro ptr o ho
    rw [getValue_notifyAll ho, hnull]
  have hsilent : heard notifications none .null = .null := by
    simp [heard]
  have hunheard : ∀ {ptr : NodePtr}, Hears c.callbacks ptr none →
      getValue (notifyAll c d notifications) ptr = .null := fun ho => (hshown ho).trans hsilent
  constructor
  · exact hlater.imp fun hpq heq => modelToJson_of_childless (hpq heq) _
  · refine (h.pairwise hptrs).imp fun hpq heq hpvar hqvar => ?_
    exact (hpq heq hpvar hqvar).imp hunheard hunheard
  · intro p hp hvar
    exact (h.hears hptrs hp hvar).imp hunheard fun hsome => hshown hsome.1
  · intro hsub
    have hassigned := h.heardOnce.assigned fun hfails => hfails hsub
    exact shows_notifyAll hassigned notifications hd

end HeardTree

/-- **The content of a server node is published at one place.** Whatever the data client answers,
a data set that is added shows a node that stands at several places with its child members at the
first of them only, and of two places of one variable one shows nothing. -/
theorem leaves_addDataSet_published (reader : OpcUaTypeReader) {s : Session ω}
    (hs : Reachable client s) (fuel : ℕ) (startNodeId : NodeId) (pTypeDefinition : NodeRef)
    (channel onlineChannel : String) :
    (addDataSet client reader fuel startNodeId pTypeDefinition channel onlineChannel).Leaves s
      (fun _ => True) fun _ s' => ∃ d, s'.this.dataSets = s.this.dataSets ++ [d] ∧
        ∀ notifications, PublishedOnce client.Subscribes (heldNodes s.this) notifications
          (getValue (notifyAll s'.this d notifications)) d.node := by
  have hraises := raises_transformToNodeIds client reader fuel startNodeId pTypeDefinition s
  have hreaches := leaves_reaches client reader fuel startNodeId pTypeDefinition s
  have hsets := keeps_transformToNodeIds client reader (K := fun _ => True) (c := s.this)
    (IDashboardDataClient.readsKeep_of_forall fun _ => trivial) fuel startNodeId pTypeDefinition s
    ⟨trivial, rfl, rfl, rfl⟩
  have hnew : (transformToNodeIds client reader fuel startNodeId pTypeDefinition).Leaves s
      (fun _ => True) (NewTree s) :=
    ⟨trivial, fun node hok => newTree_of_run client reader (Prod.ext hok rfl)⟩
  rw [Prog.Leaves, addDataSet, Prog.ends_catching, Prog.ends_bind, prepareDataSetStorage,
    Prog.ends_bind]
  refine ((Prog.Ends.and hsets hraises).and (Prog.Ends.and hreaches hnew)).mono fun out s₁ h => ?_
  obtain ⟨⟨⟨huntouched, -⟩, hthrown⟩, ⟨-, hreaches⟩, -, hnew⟩ := h
  cases out with
  | stuck w => exact ⟨trivial, fun _ h => by cases h⟩
  | throw e =>
    simp only [Outcome.follow_throw, Outcome.rescue_throw, hthrown e rfl, Bool.false_eq_true,
      if_false, Prog.ends_throw]
    exact ⟨trivial, fun _ h => by cases h⟩
  | ok node =>
    have hnew := hnew node rfl
    obtain ⟨s₂, hrun, hdata, hheard⟩ := hnew.heardTree client hs.fresh
    simp only [Outcome.follow_ok, Prog.ends_pure, Prog.ends_bind]
    rw [Prog.ends_iff_run, hrun]
    refine ⟨trivial, fun _ _ => ⟨⟨startNodeId, channel, onlineChannel, node, ∅⟩, ?_,
      fun notifications => ?_⟩⟩
    · rw [← huntouched.dataSets, ← hdata]
      rfl
    · exact hheard.publishedOnce hnew.allocated.1 (hreaches node rfl).later rfl rfl notifications

/-! ### A named child that is an instance of a placeholder, too -/

namespace SharedNode

def componentType : NodeId := ⟨"", "i=10"⟩

/-- A server whose machine has a component with a variable `State`. -/
def answers : Answers where
  browse _ _ := .ok []
  browseWithResultTypeFilter n _ type :=
    if n = ⟨"", "i=1"⟩ ∧ type = componentType then
      .ok [⟨.object, ⟨"", "i=2"⟩, componentType, WellKnown.hasComponent, ⟨"", "Component"⟩⟩]
    else .ok []
  translateBrowsePathToNodeId n q :=
    if n = ⟨"", "i=1"⟩ ∧ q = ⟨"", "Component"⟩ then .ok ⟨"", "i=2"⟩
    else if n = ⟨"", "i=2"⟩ ∧ q = ⟨"", "State"⟩ then .ok ⟨"", "i=3"⟩
    else .ok ⟨"", ""⟩

def childDefinition (rule : ModellingRule) (nodeClass : NodeClass) (type : NodeId)
    (name : String) : NodeDefinition :=
  ⟨rule, nodeClass, WellKnown.hasComponent, type, ⟨"", name⟩⟩

def placeholderDefinition : NodeDefinition :=
  childDefinition .optionalPlaceholder .object componentType "<Component>"

/-- A type with a child `Component` and a placeholder for components of the same type. -/
def typeReader : OpcUaTypeReader :=
  { OpcUaTypeReader.create [] [] with
    typeMap := Std.ExtTreeMap.insert (∅ : NodeMap NodeRef) componentType 4
    heap :=
      { nodes := fun n =>
          if n = 0 then ⟨childDefinition .optional .objectType default "MachineType", 0, false⟩
          else if n = 1 then
            ⟨childDefinition .mandatory .object componentType "Component", 1, false⟩
          else if n = 2 then ⟨placeholderDefinition, 1, false⟩
          else if n = 3 then ⟨childDefinition .mandatory .variable default "State", 2, false⟩
          else ⟨childDefinition .optional .objectType default "ComponentType", 1, false⟩
        lists := fun l => if l = 0 then [1, 2] else if l = 1 then [3] else []
        next := 5 } }

def session : Session Unit := ⟨(), DashboardClient.new⟩

def state : Position :=
  ⟨childDefinition .mandatory .variable default "State", 0, ⟨"", "i=3"⟩, default, false, []⟩

def component : Position :=
  ⟨childDefinition .mandatory .object componentType "Component", 1, ⟨"", "i=2"⟩, componentType,
    false, [state.node]⟩

def instanceOfPlaceholder : Position :=
  ⟨childDefinition .optional .objectType default "ComponentType", 2, ⟨"", "i=2"⟩, default, false,
    []⟩

def components : Node :=
  .placeholder placeholderDefinition
    [⟨instanceOfPlaceholder.node, ⟨"", "Component"⟩, componentType⟩]

def machine : Position :=
  ⟨childDefinition .optional .objectType default "MachineType", 3, ⟨"", "i=1"⟩, default, false,
    [component.node, components]⟩

def dataSet : DataSetStorage := ⟨⟨"", "i=1"⟩, "", "", machine.node, ∅⟩

/-- The machine is expanded. -/
def expanded : Session Unit :=
  ((transformToNodeIds answers.client typeReader 3 ⟨"", "i=1"⟩ 0).run session).2

/-- The machine is added. -/
def added : Outcome Exception Unit × Session Unit :=
  (addDataSet answers.client typeReader 3 ⟨"", "i=1"⟩ 0 "" "").run session

private theorem run_transformToNodeIds :
    (transformToNodeIds answers.client typeReader 3 ⟨"", "i=1"⟩ 0).run session =
      (.ok machine.node, expanded) :=
  Prod.ext (by with_unfolding_all rfl) rfl

private theorem subscribeValues_machine :
    subscribeValues answers.client machine.node =
      subscribeValue answers.client 0 ⟨"", "i=3"⟩ := by
  simp [machine, component, state, components, instanceOfPlaceholder, placeholderDefinition,
    childDefinition, Position.node, subscribeValues, handleSubscribeChildNodes,
    handleSubscribePlaceholderChildNode, isMandatoryOrOptionalVariable,
    ModelToJson.isVariableClass]

private theorem added_eq :
    added = (do
      subscribeValue answers.client 0 ⟨"", "i=3"⟩
      update fun c => { c with dataSets := c.dataSets ++ [dataSet] } : ClientM Unit Unit).run
        expanded := by
  have hprepared : (prepareDataSetStorage answers.client typeReader 3 ⟨"", "i=1"⟩ 0 "" "").run
      session = (.ok dataSet, expanded) := by
    rw [prepareDataSetStorage, Prog.run_bind, run_transformToNodeIds]
    rfl
  have hnode : dataSet.node = machine.node := rfl
  rw [added, addDataSet, Prog.run_catching, Prog.run_bind, hprepared]
  dsimp only
  rw [hnode, subscribeValues_machine]
  with_unfolding_all rfl

end SharedNode

open SharedNode in
theorem leaves_addDataSet_published_sharedNode :
    (addDataSet answers.client typeReader 3 ⟨"", "i=1"⟩ 0 "" "").Leaves session (fun _ => True)
      fun _ s' => ∃ d, s'.this.dataSets = session.this.dataSets ++ [d] ∧
        ∀ notifications, PublishedOnce answers.client.Subscribes (heldNodes session.this)
          notifications (getValue (notifyAll s'.this d notifications)) d.node :=
  leaves_addDataSet_published typeReader (.new ()) 3 ⟨"", "i=1"⟩ 0 "" ""

open SharedNode in
/-- The child of a machine is an instance of its placeholder, too, and its variable is notified:
only the child shows it. -/
theorem not_publishedAlike :
    added.2.this.dataSets = [dataSet] ∧ dataSet.node = machine.node ∧
      machine.childNodes = [component.node, components] ∧
      component.nodeId = instanceOfPlaceholder.nodeId ∧
        ∀ v, v = getValue (notifyAll added.2.this dataSet [(⟨"", "i=3"⟩, .integer 7)]) →
          ModelToJson.modelToJson v {} component.node = .ok (.object [("State", .integer 7)]) ∧
            ModelToJson.modelToJson v {} instanceOfPlaceholder.node = .ok .null ∧
              getJson (notifyAll added.2.this dataSet [(⟨"", "i=3"⟩, .integer 7)]) =
                .ok (.object [("<Component>",
                    .object [("Component", .object [("$TypeDefinition", .string "i=10")])]),
                  ("Component", .object [("State", .integer 7)])]) := by
  rw [added_eq]
  refine ⟨by with_unfolding_all rfl, rfl, rfl, rfl, fun v hv => ?_⟩
  have hcomponent : ModelToJson.modelToJson v {} component.node =
      .ok (.object [("State", .integer 7)]) := by
    rw [hv]
    with_unfolding_all rfl
  have hcomponents : ModelToJson.modelToJson v {} components =
      .ok (.object [("Component", .object [("$TypeDefinition", .string "i=10")])]) := by
    with_unfolding_all rfl
  have hchildren : ModelToJson.childrenToJson v {} [] .null [component.node, components] =
      .ok (.object [("<Component>",
          .object [("Component", .object [("$TypeDefinition", .string "i=10")])]),
        ("Component", .object [("State", .integer 7)])]) := by
    have hname : component.node.definition.specifiedBrowseName = ⟨"", "Component"⟩ := rfl
    have hname' : components.definition.specifiedBrowseName = ⟨"", "<Component>"⟩ := rfl
    have hless : ("<Component>" : String) < "Component" := by decide
    simp [ModelToJson.childrenToJson, hcomponent, hcomponents, hname, hname', hless,
      JsonOptions.publishes, Json.dumpIsNull, Json.dumps, Json.dumpsNull, Json.putMember, bind,
      Except.bind]
    rfl
  refine ⟨hcomponent, by with_unfolding_all rfl, ?_⟩
  rw [getJson, node_notifyAll, ← hv]
  change (do
    let children ← ModelToJson.childrenToJson v {} [] .null [component.node, components]
    ModelToJson.addChildren {} machine.definition machine.nodeId .null children) = _
  rw [hchildren]
  rfl

end DashboardClient

end UmatiDashboard
