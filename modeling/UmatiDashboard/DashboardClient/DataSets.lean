import UmatiDashboard.DashboardClient.DashboardClient
import UmatiDashboard.Effect.Keeps

/-!
# How a data set comes about

The two phases of `addDataSet` are told apart by what they leave alone. The expansion of the
instance asks the server and keeps its own record of the nodes it has reached, but it changes
neither the data sets nor the subscriptions, however it ends. Subscribing never throws, and
leaves the data sets alone. So an exception of `addDataSet` comes from the expansion; the
expansion forwards it as a `MachineInvalidChildException` or, for a placeholder, as a bare
`std::exception`.
-/

namespace UmatiDashboard

namespace DashboardClient

variable {ω : Type} {K : ω → Prop}

/-- The data sets and the subscriptions are those of `c`, and the data client satisfies `K`. -/
structure Untouched (K : ω → Prop) (c : DashboardClient) (s : Session ω) : Prop where
  world : K s.world
  dataSets : s.this.dataSets = c.dataSets
  subscribedValues : s.this.subscribedValues = c.subscribedValues
  callbacks : s.this.callbacks = c.callbacks

theorem keeps_ask {α : Type} {c : DashboardClient} {f : ω → Except Exception α × ω}
    (hf : ∀ w, K w → K (f w).2) : (ask f).Keeps (Untouched K c) fun _ => True := by
  intro s hs
  rw [Prog.Leaves, ask, Prog.ends_zoom, Prog.ends_call]
  have hworld : ∀ w, (f s.world).2 = w → K w := fun w hw => hw ▸ hf s.world hs.world
  refine ⟨fun a w h => ⟨⟨hworld w (by rw [h]), hs.2, hs.3, hs.4⟩, fun _ _ => trivial⟩,
    fun e w h => ⟨⟨hworld w (by rw [h]), hs.2, hs.3, hs.4⟩, fun _ _ => trivial⟩⟩

variable (client : IDashboardDataClient ω) (reader : OpcUaTypeReader)

/-! ### What an expansion keeps -/

/-- Every elementary step of an expansion keeps `J`. -/
structure StepsKeep (J : Session ω → Prop) : Prop where
  translate : ∀ n q, (ask (client.translateBrowsePathToNodeId n q)).Keeps J fun _ => True
  browse : ∀ n ctx, (ask (client.browse n ctx)).Keeps J fun _ => True
  browseTyped : ∀ n ref t, (ask (client.browseTyped n ref t)).Keeps J fun _ => True
  insert : ∀ n, (insertBrowsed n : ClientM ω Bool).Keeps J fun _ => True
  allocate : (allocate : ClientM ω NodePtr).Keeps J fun _ => True
  store : ∀ (n : NodeId) (found : List Node), (update fun c =>
    { c with browsedNodesChildNodes := c.browsedNodesChildNodes.insert n found } :
      ClientM ω Unit).Keeps J fun _ => True

section Children

variable {J : Session ω → Prop} {f : NodeId → NodeRef → ClientM ω Node}
  (hsteps : StepsKeep client J) (hf : ∀ n t, (f n t).Keeps J fun _ => True)

include hsteps hf

theorem keeps_optionalAndMandatory (startNode : NodeId) (found : List Node) (pChild : NodeRef) :
    (optionalAndMandatoryTransformToNodeId client reader f startNode found pChild).Keeps
      J fun _ => True := by
  refine .catching (.bind (hsteps.translate _ _) fun childNodeId _ => ?_) fun ex => ?_
  · split_ifs
    · exact Prog.keeps_pure trivial
    · exact (hf _ _).bind fun _ _ => Prog.keeps_pure trivial
  · split
    · split_ifs
      · exact Prog.keeps_throw
      · exact Prog.keeps_pure trivial
    · split_ifs
      · exact Prog.keeps_throw
      · exact Prog.keeps_pure trivial

theorem keeps_preparePlaceholderNodeTypeId (instances : List (PlaceholderElement Node))
    (browseResult : BrowseResult) :
    (preparePlaceholderNodeTypeId client reader f instances browseResult).Keeps
      J fun _ => True := by
  refine .bind (V := fun _ => True) ?_ fun typeDefinition _ => ?_
  · unfold placeholderTypeDefinition
    split_ifs
    · exact (hsteps.browse _ _).bind fun ifs _ =>
        Prog.keeps_front.bind fun _ _ => Prog.keeps_pure trivial
    · exact Prog.keeps_pure trivial
  · split
    · exact (hf _ _).bind fun _ _ => Prog.keeps_pure trivial
    · exact Prog.keeps_pure trivial

theorem keeps_optionalAndMandatoryPlaceholder (startNode : NodeId) (found : List Node)
    (pChild : NodeRef) :
    (optionalAndMandatoryPlaceholderTransformToNodeId client reader f startNode found
      pChild).Keeps J fun _ => True := by
  refine .catching (.bind (V := fun _ => True) ?_ fun _ _ => Prog.keeps_pure trivial) fun ex => ?_
  · refine (hsteps.browseTyped _ _ _).bind fun browseResults _ => ?_
    have hfold : (preparePlaceholderNodesTypeId client reader f browseResults).Keeps
        J fun _ => True :=
      Prog.Keeps.foldEach (fun instances r _ _ =>
        keeps_preparePlaceholderNodeTypeId client reader hsteps hf instances r) trivial
    exact hfold.bind fun _ _ => Prog.keeps_pure trivial
  · split_ifs
    · exact Prog.keeps_throw
    · exact Prog.keeps_pure trivial

theorem keeps_transformChild (startNode : NodeId) (found : List Node) (pChild : NodeRef) :
    (transformChild client reader f startNode found pChild).Keeps J fun _ => True := by
  have hnamed := keeps_optionalAndMandatory client reader hsteps hf startNode found pChild
  have hplaceholder :=
    keeps_optionalAndMandatoryPlaceholder client reader hsteps hf startNode found pChild
  unfold transformChild
  split
  · exact hnamed.map fun _ _ => trivial
  · exact hnamed.map fun _ _ => trivial
  · exact hplaceholder.map fun _ _ => trivial
  · exact hplaceholder.map fun _ _ => trivial
  · exact Prog.keeps_pure trivial

theorem keeps_findChildNodes (startNode : NodeId) (pTypeDefinition : NodeRef) :
    (findChildNodes client reader f startNode pTypeDefinition).Keeps J fun _ => True := by
  have hfold : (Prog.foldEach (transformChild client reader f startNode) []
      (reader.heap.children pTypeDefinition)).Keeps J fun _ => True :=
    Prog.Keeps.foldEach (fun found pChild _ _ =>
      keeps_transformChild client reader hsteps hf startNode found pChild) trivial
  refine hfold.bind fun found _ => ?_
  exact (hsteps.store startNode found).bind fun _ _ => Prog.keeps_pure trivial

end Children

/-- What the elementary steps keep, **an expansion** keeps, however it ends. -/
theorem keeps_expansion {J : Session ω → Prop} (hsteps : StepsKeep client J) :
    ∀ (fuel : ℕ) (startNode : NodeId) (pTypeDefinition : NodeRef),
      (transformToNodeIds client reader fuel startNode pTypeDefinition).Keeps J fun _ => True
  | 0, _, _ => Prog.keeps_stuck
  | fuel + 1, startNode, pTypeDefinition => by
    have ih := keeps_expansion hsteps fuel
    refine (hsteps.insert startNode).bind fun isNew _ =>
      .bind (V := fun _ => True) ?_ fun foundChildNodes _ =>
        hsteps.allocate.bind fun _ _ => Prog.keeps_pure trivial
    split_ifs
    · exact keeps_findChildNodes client reader hsteps ih startNode pTypeDefinition
    · exact Prog.keeps_pure trivial

/-- **The expansion of an instance** changes neither the data sets nor the subscriptions. -/
theorem keeps_transformToNodeIds {c : DashboardClient} (hclient : client.ReadsKeep K)
    (fuel : ℕ) (startNode : NodeId) (pTypeDefinition : NodeRef) :
    (transformToNodeIds client reader fuel startNode pTypeDefinition).Keeps (Untouched K c)
      fun _ => True := by
  refine keeps_expansion client reader ⟨?_, ?_, ?_, ?_, ?_, ?_⟩ fuel startNode pTypeDefinition
  · exact fun n q => keeps_ask (hclient.translateBrowsePathToNodeId n q)
  · exact fun n ctx => keeps_ask (hclient.browse n ctx)
  · exact fun n ref t => keeps_ask (hclient.browseWithResultTypeFilter n (.withReference ref) t)
  · exact fun n s hs => ⟨⟨hs.1, hs.2, hs.3, hs.4⟩, fun _ _ => trivial⟩
  · exact fun s hs => ⟨⟨hs.1, hs.2, hs.3, hs.4⟩, fun _ _ => trivial⟩
  · exact fun n found => Prog.keeps_modify fun s hs => ⟨hs.1, hs.2, hs.3, hs.4⟩

/-! ### Subscribing is a loop over the variables -/

mutual

/-- The variables that are subscribed for a node, in the order of the calls. -/
def nodeVariables : Node → List (NodePtr × NodeId)
  | .simple d ptr nodeId _ _ childNodes =>
    (if isMandatoryOrOptionalVariable d then [(ptr, nodeId)] else []) ++ childVariables childNodes
  | .placeholder .. => []

def childVariables : List Node → List (NodePtr × NodeId)
  | [] => []
  | .simple d ptr nodeId typeNodeId b childNodes :: rest =>
    (match d.modellingRule with
    | .mandatory | .optional => nodeVariables (.simple d ptr nodeId typeNodeId b childNodes)
    | _ => []) ++ childVariables rest
  | .placeholder d instances :: rest =>
    (match d.modellingRule with
    | .mandatoryPlaceholder | .optionalPlaceholder => instanceVariables instances
    | _ => []) ++ childVariables rest

def instanceVariables : List (PlaceholderElement Node) → List (NodePtr × NodeId)
  | [] => []
  | ⟨pNode, _, _⟩ :: rest => nodeVariables pNode ++ instanceVariables rest

end

/-- Subscribe the variables of a list. -/
def subscribeAll (vs : List (NodePtr × NodeId)) : ClientM ω Unit :=
  Prog.forEach (fun v : NodePtr × NodeId => subscribeValue client v.1 v.2) vs

theorem subscribeAll_append (vs ws : List (NodePtr × NodeId)) :
    subscribeAll client (vs ++ ws) = (subscribeAll client vs >>= fun _ => subscribeAll client ws) :=
  Prog.forEach_append _ vs ws

theorem subscribeAll_singleton (v : NodePtr × NodeId) :
    subscribeAll client [v] = subscribeValue client v.1 v.2 := bind_pure_unit

mutual

/-- The three functions that walk the instance tree subscribe its variables one by one. -/
theorem subscribeValues_eq : ∀ node : Node,
    subscribeValues client node = subscribeAll client (nodeVariables node)
  | .simple d ptr nodeId _ _ childNodes => by
    have ih := handleSubscribeChildNodes_eq childNodes
    rw [subscribeValues, nodeVariables, ih, subscribeAll_append]
    split_ifs
    · rw [subscribeAll_singleton]
    · rfl
  | .placeholder .. => by
    rw [subscribeValues, nodeVariables]
    rfl

theorem handleSubscribeChildNodes_eq : ∀ childNodes : List Node,
    handleSubscribeChildNodes client childNodes = subscribeAll client (childVariables childNodes)
  | [] => by
    rw [handleSubscribeChildNodes, childVariables]
    rfl
  | .simple d ptr nodeId typeNodeId b childNodes :: rest => by
    have hrest := handleSubscribeChildNodes_eq rest
    rw [handleSubscribeChildNodes, childVariables, hrest, subscribeAll_append]
    cases d.modellingRule with
    | mandatory => rw [subscribeValues_eq]
    | optional => rw [subscribeValues_eq]
    | mandatoryPlaceholder => rfl
    | optionalPlaceholder => rfl
    | none => rfl
  | .placeholder d instances :: rest => by
    have hrest := handleSubscribeChildNodes_eq rest
    rw [handleSubscribeChildNodes, childVariables, hrest, subscribeAll_append]
    cases d.modellingRule with
    | mandatory => rfl
    | optional => rfl
    | mandatoryPlaceholder => rw [handleSubscribePlaceholderChildNode_eq]
    | optionalPlaceholder => rw [handleSubscribePlaceholderChildNode_eq]
    | none => rfl

theorem handleSubscribePlaceholderChildNode_eq : ∀ instances : List (PlaceholderElement Node),
    handleSubscribePlaceholderChildNode client instances =
      subscribeAll client (instanceVariables instances)
  | [] => by
    rw [handleSubscribePlaceholderChildNode, instanceVariables]
    rfl
  | ⟨pNode, _, _⟩ :: rest => by
    have hrest := handleSubscribePlaceholderChildNode_eq rest
    rw [handleSubscribePlaceholderChildNode, instanceVariables, hrest, subscribeAll_append,
      subscribeValues_eq]

end

/-- Subscribing a variable leaves the data sets alone, and always returns. -/
theorem ends_subscribeValue (ptr : NodePtr) (nodeId : NodeId) (s : Session ω) :
    (subscribeValue client ptr nodeId).Ends s fun out s' =>
      out = .ok () ∧ s'.this.dataSets = s.this.dataSets := by
  rw [subscribeValue, Prog.ends_catching, Prog.ends_bind, Prog.ends_get, Outcome.follow_ok]
  split_ifs
  · exact ⟨rfl, rfl⟩
  · rw [Prog.ends_bind, ask, Prog.ends_zoom, Prog.ends_call]
    exact ⟨fun a w _ => ⟨rfl, rfl⟩, fun e w _ => ⟨rfl, rfl⟩⟩

theorem ends_subscribeValues (node : Node) (s : Session ω) :
    (subscribeValues client node).Ends s fun out s' =>
      out = .ok () ∧ s'.this.dataSets = s.this.dataSets := by
  rw [subscribeValues_eq, subscribeAll]
  refine Prog.ends_forEach (fun _ s' => s'.this.dataSets = s.this.dataSets) (fun v vs s₁ h₁ => ?_)
    (fun s₁ h₁ => ⟨rfl, h₁⟩) _ rfl
  refine (ends_subscribeValue client v.1 v.2 s₁).mono fun out s₂ h₂ => ?_
  obtain ⟨rfl, hsame⟩ := h₂
  exact hsame.trans h₁

/-! ### What the expansion throws -/

section Children

variable {f : NodeId → NodeRef → ClientM ω Node}

/-- A named child forwards every exception as a `MachineInvalidChildException`. -/
theorem raises_optionalAndMandatory (startNode : NodeId) (found : List Node) (pChild : NodeRef) :
    (optionalAndMandatoryTransformToNodeId client reader f startNode found pChild).Raises
      fun e => e.isOpcUaException = false := by
  refine Prog.raises_any.catching fun ex _ => ?_
  split
  · split_ifs
    · exact Prog.raises_throw rfl
    · exact Prog.raises_pure
  · split_ifs
    · exact Prog.raises_throw rfl
    · exact Prog.raises_pure

/-- A placeholder forwards every exception as a bare `std::exception`. -/
theorem raises_optionalAndMandatoryPlaceholder (startNode : NodeId) (found : List Node)
    (pChild : NodeRef) :
    (optionalAndMandatoryPlaceholderTransformToNodeId client reader f startNode found
      pChild).Raises fun e => e.isOpcUaException = false := by
  refine Prog.raises_any.catching fun ex _ => ?_
  split_ifs
  · exact Prog.raises_throw rfl
  · exact Prog.raises_pure

theorem raises_transformChild (startNode : NodeId) (found : List Node) (pChild : NodeRef) :
    (transformChild client reader f startNode found pChild).Raises
      fun e => e.isOpcUaException = false := by
  unfold transformChild
  split
  · exact (raises_optionalAndMandatory client reader startNode found pChild).map
  · exact (raises_optionalAndMandatory client reader startNode found pChild).map
  · exact (raises_optionalAndMandatoryPlaceholder client reader startNode found pChild).map
  · exact (raises_optionalAndMandatoryPlaceholder client reader startNode found pChild).map
  · exact Prog.raises_pure

end Children

/-- **No `OpcUaException` leaves the expansion**: every exception of the data client passes one
of the two handlers. -/
theorem raises_transformToNodeIds (fuel : ℕ) (startNode : NodeId) (pTypeDefinition : NodeRef) :
    (transformToNodeIds client reader fuel startNode pTypeDefinition).Raises
      fun e => e.isOpcUaException = false := by
  cases fuel with
  | zero => exact Prog.raises_stuck
  | succ fuel =>
    have hinsert : (insertBrowsed startNode : ClientM ω Bool).Raises
        fun e => e.isOpcUaException = false := fun _ _ h => by cases h
    have hallocate : (allocate : ClientM ω NodePtr).Raises
        fun e => e.isOpcUaException = false := fun _ _ h => by cases h
    refine hinsert.bind fun isNew => .bind ?_ fun foundChildNodes =>
      hallocate.bind fun _ => Prog.raises_pure
    split_ifs
    · exact (Prog.Raises.foldEach (raises_transformChild client reader startNode) _ _).bind
        fun found => Prog.raises_modify.bind fun _ => Prog.raises_pure
    · exact Prog.raises_pure

/-! ### Adding a data set -/

/-- **`addDataSet`** returns with one new data set, or throws an `OpcUaException` and has left
the data sets and the subscriptions alone. -/
theorem ends_addDataSet (hclient : client.ReadsKeep K) (fuel : ℕ) (startNodeId : NodeId)
    (pTypeDefinition : NodeRef) (channel onlineChannel : String) {s : Session ω}
    (hs : K s.world) :
    (addDataSet client reader fuel startNodeId pTypeDefinition channel onlineChannel).Ends s
      fun out s' =>
        (∀ u, out = .ok u → ∃ node, s'.this.dataSets =
          s.this.dataSets ++ [⟨startNodeId, channel, onlineChannel, node, ∅⟩]) ∧
        ∀ e, out = .throw e → (∃ what, e = .opcUa what) ∧ Untouched K s.this s' := by
  rw [addDataSet, Prog.ends_catching, Prog.ends_bind, prepareDataSetStorage, Prog.ends_bind]
  have hkeeps := keeps_transformToNodeIds client reader (c := s.this) hclient fuel startNodeId
    pTypeDefinition s ⟨hs, rfl, rfl, rfl⟩
  have hraises := raises_transformToNodeIds client reader fuel startNodeId pTypeDefinition s
  refine (Prog.Ends.and hkeeps hraises).mono fun out s₁ h₁ => ?_
  obtain ⟨⟨hsame, -⟩, hthrown⟩ := h₁
  cases out with
  | stuck w => exact ⟨fun _ h => (by cases h), fun _ h => by cases h⟩
  | throw e =>
    simp only [Outcome.follow_throw, Outcome.rescue_throw, hthrown e rfl, Bool.false_eq_true,
      if_false, Prog.ends_throw]
    refine ⟨fun _ h => (by cases h), fun _ h => ?_⟩
    cases h
    exact ⟨⟨_, rfl⟩, hsame⟩
  | ok node =>
    simp only [Outcome.follow_ok, Prog.ends_pure, Prog.ends_bind]
    refine (ends_subscribeValues client node s₁).mono fun out s₂ h₂ => ?_
    obtain ⟨rfl, hsets⟩ := h₂
    refine ⟨fun _ _ => ⟨node, ?_⟩, fun _ h => by cases h⟩
    rw [← hsame.dataSets, ← hsets]
    rfl

/-! ### What the data client keeps -/

section World

variable {client}

theorem keeps_ask_world {α : Type} {f : ω → Except Exception α × ω}
    (hf : ∀ w, K w → K (f w).2) :
    (ask f).Keeps (fun s : Session ω => K s.world) fun _ => True := by
  intro s hs
  rw [Prog.Leaves, ask, Prog.ends_zoom, Prog.ends_call]
  have hworld : ∀ w, (f s.world).2 = w → K w := fun w hw => hw ▸ hf s.world hs
  exact ⟨fun a w h => ⟨hworld w (by rw [h]), fun _ _ => trivial⟩,
    fun e w h => ⟨hworld w (by rw [h]), fun _ _ => trivial⟩⟩

/-- What every call of the data client keeps, **`addDataSet`** keeps, however it ends. -/
theorem keeps_addDataSet_world (hclient : client.CallsKeep K) (fuel : ℕ) (startNodeId : NodeId)
    (pTypeDefinition : NodeRef) (channel onlineChannel : String) :
    (addDataSet client reader fuel startNodeId pTypeDefinition channel onlineChannel).Keeps
      (fun s => K s.world) fun _ => True := by
  have hexpansion : (transformToNodeIds client reader fuel startNodeId pTypeDefinition).Keeps
      (fun s => K s.world) fun _ => True := by
    refine keeps_expansion client reader ⟨?_, ?_, ?_, ?_, ?_, ?_⟩ fuel startNodeId pTypeDefinition
    · exact fun n q => keeps_ask_world (hclient.reads.translateBrowsePathToNodeId n q)
    · exact fun n ctx => keeps_ask_world (hclient.reads.browse n ctx)
    · exact fun n ref t => keeps_ask_world
        (hclient.reads.browseWithResultTypeFilter n (.withReference ref) t)
    · exact fun n s hs => ⟨hs, fun _ _ => trivial⟩
    · exact fun s hs => ⟨hs, fun _ _ => trivial⟩
    · exact fun n found => Prog.keeps_modify fun s hs => hs
  have hsubscribe : ∀ node, (subscribeValues client node).Keeps (fun s => K s.world)
      fun _ => True := by
    intro node
    rw [subscribeValues_eq]
    refine Prog.Keeps.forEach fun v _ => .catching (Prog.keeps_get.bind fun s _ => ?_) fun ex =>
      Prog.keeps_pure trivial
    split_ifs
    · exact Prog.keeps_pure trivial
    · exact (keeps_ask_world (hclient.subscribe v.2 ⟨v.1⟩)).bind fun _ _ =>
        Prog.keeps_modify fun _ hs => hs
  have hprepare : (prepareDataSetStorage client reader fuel startNodeId pTypeDefinition channel
      onlineChannel).Keeps (fun s => K s.world) fun _ => True :=
    hexpansion.bind fun node _ => Prog.keeps_pure trivial
  refine .catching ?_ fun ex => ?_
  · exact hprepare.bind fun storage _ => (hsubscribe storage.node).bind fun _ _ =>
      Prog.keeps_modify fun _ hs => hs
  · split_ifs
    · exact Prog.keeps_pure trivial
    · exact Prog.keeps_throw

end World

end DashboardClient

end UmatiDashboard
