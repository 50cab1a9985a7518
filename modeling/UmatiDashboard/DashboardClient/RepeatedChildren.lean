import UmatiDashboard.DashboardClient.Notifications
import UmatiDashboard.DashboardClient.Repetitions

/-!
# Repeated children are not published

An echo subscribes nothing that is not subscribed for an earlier sibling, so its node objects hear
nothing, and it is not rendered, since the sibling has its browse name. So the trees that `Same`
relates are rendered as the same JSON (`same_modelToJson`), whatever is notified afterwards.
-/

namespace UmatiDashboard

namespace DashboardClient

open ModelToJson

/-! ### The nodes subscribed for both trees -/

theorem childVariables_cons (n : Node) (ns : List Node) :
    childVariables (n :: ns) = childVariables [n] ++ childVariables ns := by
  cases n <;> simp [childVariables]

/-- The nodes that are subscribed for a list of variables. -/
def ids (vs : List (NodePtr × NodeId)) : List NodeId := vs.map Prod.snd

theorem mem_ids_cons {n : Node} {ns : List Node} {x : NodeId} :
    x ∈ ids (childVariables (n :: ns)) ↔ x ∈ childIds n ∨ x ∈ ids (childVariables ns) := by
  rw [childVariables_cons, ids, List.map_append, List.mem_append]
  rfl

theorem Same.definition {n m : Node} (h : Same n m) : m.definition = n.definition := by
  cases n with
  | simple =>
    simp only [Same] at h
    obtain ⟨_, _, rfl, _⟩ := h
    rfl
  | placeholder =>
    simp only [Same] at h
    obtain ⟨_, rfl, _⟩ := h
    rfl

theorem Same.isSimple {n m : Node} (h : Same n m) (hn : isSimple n = true) :
    DashboardClient.isSimple m = true := by
  cases n with
  | simple =>
    simp only [Same] at h
    obtain ⟨_, _, rfl, _⟩ := h
    rfl
  | placeholder => cases hn

mutual

/-- For a node and as a child, both trees subscribe the same nodes. -/
theorem same_ids : ∀ (n : Node) {m : Node}, Same n m →
    (∀ x, x ∈ ids (nodeVariables n) ↔ x ∈ ids (nodeVariables m)) ∧
      ∀ x, x ∈ childIds n ↔ x ∈ childIds m
  | .simple d ptr nodeId typeNodeId b childNodes, m, h => by
    simp only [Same] at h
    obtain ⟨ptr', childNodes', rfl, hchildren⟩ := h
    have hbelow := sameChildren_ids childNodes hchildren
    have hnode : ∀ x, x ∈ ids (nodeVariables (.simple d ptr nodeId typeNodeId b childNodes)) ↔
        x ∈ ids (nodeVariables (.simple d ptr' nodeId typeNodeId b childNodes')) := by
      intro x
      have hiff : x ∈ ids (childVariables childNodes) ↔ x ∈ ids (childVariables childNodes') :=
        ⟨fun hx => (hbelow.2 x hx).resolve_right (by simp), hbelow.1 x⟩
      simp only [ids, nodeVariables, List.map_append, List.mem_append] at hiff ⊢
      rw [hiff]
      split_ifs <;> simp
    refine ⟨hnode, fun x => ?_⟩
    have hx := hnode x
    simp only [ids] at hx
    simp only [childIds, childVariables, List.append_nil]
    split
    · exact hx
    · exact hx
    · exact Iff.rfl
  | .placeholder d is, m, h => by
    simp only [Same] at h
    obtain ⟨is', rfl, his⟩ := h
    refine ⟨fun x => by simp [nodeVariables], fun x => ?_⟩
    have hx := sameInstances_ids is his x
    simp only [ids] at hx
    simp only [childIds, childVariables, List.append_nil]
    split
    · exact hx
    · exact hx
    · exact Iff.rfl

/-- What only the first tree subscribes for the children is subscribed for an earlier one. -/
theorem sameChildren_ids : ∀ (ns : List Node) {earlier ms : List Node},
    SameChildren earlier ns ms →
    (∀ x ∈ ids (childVariables ms), x ∈ ids (childVariables ns)) ∧
      ∀ x ∈ ids (childVariables ns),
        x ∈ ids (childVariables ms) ∨ ∃ f ∈ earlier, x ∈ childIds f
  | [], earlier, ms, h => by
    simp only [SameChildren] at h
    subst h
    exact ⟨fun _ h => h, fun _ h => Or.inl h⟩
  | n :: ns, earlier, ms, h => by
    simp only [SameChildren] at h
    rcases h with ⟨m, ms', rfl, hm, hrest⟩ | ⟨⟨f, hf, hecho⟩, hrest⟩
    · have hn := (same_ids n hm).2
      have hbelow := sameChildren_ids ns hrest
      constructor
      · intro x hx
        rw [mem_ids_cons] at hx ⊢
        exact hx.imp (hn x).mpr (hbelow.1 x)
      · intro x hx
        rw [mem_ids_cons] at hx ⊢
        rcases hx with hx | hx
        · exact Or.inl (Or.inl ((hn x).mp hx))
        · rcases hbelow.2 x hx with hx | ⟨f, hf, hx⟩
          · exact Or.inl (Or.inr hx)
          · rcases List.mem_append.mp hf with hf | hf
            · exact Or.inr ⟨f, hf, hx⟩
            · obtain rfl := List.mem_singleton.mp hf
              exact Or.inl (Or.inl ((hn x).mp hx))
    · have hbelow := sameChildren_ids ns hrest
      constructor
      · intro x hx
        rw [mem_ids_cons]
        exact Or.inr (hbelow.1 x hx)
      · intro x hx
        rw [mem_ids_cons] at hx
        rcases hx with hx | hx
        · exact Or.inr ⟨f, hf, hecho.2 x hx⟩
        · rcases hbelow.2 x hx with hx | ⟨f', hf', hx⟩
          · exact Or.inl hx
          · rcases List.mem_append.mp hf' with hf' | hf'
            · exact Or.inr ⟨f', hf', hx⟩
            · obtain rfl := List.mem_singleton.mp hf'
              exact Or.inr ⟨f, hf, hecho.2 x hx⟩

theorem sameInstances_ids : ∀ (is : List (PlaceholderElement Node))
    {js : List (PlaceholderElement Node)}, SameInstances is js →
    ∀ x, x ∈ ids (instanceVariables is) ↔ x ∈ ids (instanceVariables js)
  | [], js, h, x => by
    simp only [SameInstances] at h
    subst h
    exact Iff.rfl
  | ⟨pNode, browseName, typeDefinition⟩ :: is, js, h, x => by
    simp only [SameInstances] at h
    obtain ⟨-, pNode', rest', rfl, hp, hrest⟩ := h
    have hnode := (same_ids pNode hp).1 x
    have hbelow := sameInstances_ids is hrest x
    simp only [ids, instanceVariables, List.map_append, List.mem_append] at hnode hbelow ⊢
    rw [hnode, hbelow]

end

/-! ### The JSON of both trees -/

/-- Each variable shows what `h` says of the node it hears. -/
def Shows (h : Option NodeId → Json) (v : NodePtr → Json) (seen : List NodeId)
    (vs : List (NodePtr × NodeId)) : Prop :=
  Assigned (fun ptr o => v ptr = h o) seen vs

variable {h : Option NodeId → Json} {v w : NodePtr → Json}

/-- The variables of a simple node as a child are its variables, or none. -/
theorem Assigned.child {R : NodePtr → Option NodeId → Prop} {seen : List NodeId} {n : Node}
    (hn : isSimple n = true) (hassigned : Assigned R seen (nodeVariables n)) :
    Assigned R seen (childVariables [n]) := by
  cases n with
  | placeholder => cases hn
  | simple d ptr nodeId typeNodeId b childNodes =>
    simp only [childVariables, List.append_nil]
    split
    · exact hassigned
    · exact hassigned
    · trivial

theorem sameChildren_isEmpty {ns ms : List Node} (hsame : SameChildren [] ns ms) :
    ns.isEmpty = ms.isEmpty := by
  cases ns with
  | nil =>
    simp only [SameChildren] at hsame
    rw [hsame]
  | cons n ns =>
    simp only [SameChildren] at hsame
    rcases hsame with ⟨m, ms', rfl, -⟩ | ⟨⟨f, hf, -⟩, -⟩
    · rfl
    · exact absurd hf List.not_mem_nil

/-- Adding the same nodes to lists that note the same nodes. -/
theorem noted_congr {seen seen' new new' : List NodeId}
    (hseen : ∀ x, Noted seen x ↔ Noted seen' x) (hnew : ∀ x, x ∈ new ↔ x ∈ new') (x : NodeId) :
    Noted (seen ++ new) x ↔ Noted (seen' ++ new') x := by
  have hnoted : Noted new x ↔ Noted new' x :=
    exists_congr fun y => and_congr_left fun _ => hnew y
  rw [noted_append, noted_append, hseen, hnoted]

/-- Noting nodes again changes nothing. -/
theorem noted_absorb {seen new : List NodeId} (hnew : ∀ x ∈ new, x ∈ seen) (x : NodeId) :
    Noted (seen ++ new) x ↔ Noted seen x := by
  rw [noted_append]
  constructor
  · rintro (hx | ⟨y, hy, hyx⟩)
    · exact hx
    · exact ⟨y, hnew y hy, hyx⟩
  · exact Or.inl

mutual

/-- **Trees that differ by echoes are rendered as the same JSON**, when the variables of both show
the values of the nodes they hear. -/
theorem same_modelToJson : ∀ (n : Node) {m : Node} {seen seen' : List NodeId}, Same n m →
    (∀ x, Noted seen x ↔ Noted seen' x) → Shows h v seen (childVariables [n]) →
    Shows h w seen' (childVariables [m]) → modelToJson v {} n = modelToJson w {} m
  | .simple d ptr nodeId typeNodeId b childNodes, m, seen, seen', hsame, hseen, hn, hm => by
    simp only [Same] at hsame
    obtain ⟨ptr', childNodes', rfl, hchildren⟩ := hsame
    cases hrule : isSimpleRule d.modellingRule with
    | false => rw [modelToJson_simple_of_not_rule hrule, modelToJson_simple_of_not_rule hrule]
    | true =>
      have hor : d.modellingRule = .mandatory ∨ d.modellingRule = .optional := by
        simpa [isSimpleRule] using hrule
      -- as a child the node is subscribed with everything below it
      have hvariables : ∀ (p : NodePtr) (cs : List Node),
          childVariables [.simple d p nodeId typeNodeId b cs] =
            (if isMandatoryOrOptionalVariable d then [(p, nodeId)] else []) ++
              childVariables cs := by
        intro p cs
        rcases hor with hr | hr <;>
          simp only [childVariables, hr, List.append_nil, nodeVariables]
      rw [Shows, hvariables, Assigned.append] at hn hm
      have hbelow : childrenToJson v {} [] .null childNodes =
          childrenToJson w {} [] .null childNodes' :=
        same_childrenToJson childNodes hchildren (by simp) (by simp)
          (noted_congr hseen fun x => by split_ifs <;> simp) hn.2 hm.2
      have hown :
          ownJson v {} d ptr nodeId childNodes = ownJson w {} d ptr' nodeId childNodes' := by
        cases hclass : isVariableClass d.nodeClass with
        | false => simp [ownJson, hclass]
        | true =>
          have hvar : isMandatoryOrOptionalVariable d = true := by
            rcases hor with hr | hr <;> simp [isMandatoryOrOptionalVariable, hclass, hr]
          rw [if_pos hvar] at hn hm
          have hvalue : v ptr = w ptr' := by
            by_cases hnoted : Noted seen nodeId
            · exact (hn.1.1 hnoted).trans (hm.1.1 ((hseen _).mp hnoted)).symm
            · exact (hn.1.2.1 hnoted).trans
                (hm.1.2.1 fun hnoted' => hnoted ((hseen _).mpr hnoted')).symm
          simp only [ownJson, hvalue, sameChildren_isEmpty hchildren]
      simp only [modelToJson, hown, hbelow]
  | .placeholder d is, m, seen, seen', hsame, hseen, hn, hm => by
    simp only [Same] at hsame
    obtain ⟨is', rfl, his⟩ := hsame
    cases hrule : isPlaceholderRule d.modellingRule with
    | false =>
      rw [modelToJson_placeholder_of_not_rule hrule, modelToJson_placeholder_of_not_rule hrule]
    | true =>
      have hor : d.modellingRule = .mandatoryPlaceholder ∨
          d.modellingRule = .optionalPlaceholder := by
        simpa [isPlaceholderRule] using hrule
      have hvariables : ∀ js : List (PlaceholderElement Node),
          childVariables [.placeholder d js] = instanceVariables js := by
        intro js
        rcases hor with hr | hr <;> simp only [childVariables, hr, List.append_nil]
      rw [Shows, hvariables] at hn hm
      have hbelow : instancesToJson v {} .null is = instancesToJson w {} .null is' :=
        same_instancesToJson is his hseen hn hm
      simp only [modelToJson, hbelow]

theorem same_childrenToJson : ∀ (ns : List Node) {earlier ms : List Node}
    {visited : List QualifiedName} {children : Json} {seen seen' : List NodeId},
    SameChildren earlier ns ms → (∀ f ∈ earlier, f.definition.specifiedBrowseName ∈ visited) →
    (∀ f ∈ earlier, ∀ x ∈ childIds f, x ∈ seen) → (∀ x, Noted seen x ↔ Noted seen' x) →
    Shows h v seen (childVariables ns) → Shows h w seen' (childVariables ms) →
    childrenToJson v {} visited children ns = childrenToJson w {} visited children ms
  | [], earlier, ms, visited, children, seen, seen', hsame, _, _, _, _, _ => by
    simp only [SameChildren] at hsame
    subst hsame
    rfl
  | n :: ns, earlier, ms, visited, children, seen, seen', hsame, hvisited, hids, hseen, hn, hm => by
    rw [Shows, childVariables_cons, Assigned.append] at hn
    have hids' : ∀ f ∈ earlier ++ [n], ∀ x ∈ childIds f, x ∈ seen ++ ids (childVariables [n]) := by
      intro f hf x hx
      rcases List.mem_append.mp hf with hf | hf
      · exact List.mem_append_left _ (hids f hf x hx)
      · obtain rfl := List.mem_singleton.mp hf
        exact List.mem_append_right _ hx
    have hvisited' : ∀ {names : List QualifiedName}, (∀ q ∈ visited, q ∈ names) →
        n.definition.specifiedBrowseName ∈ names →
        ∀ f ∈ earlier ++ [n], f.definition.specifiedBrowseName ∈ names := by
      intro names hsub hname f hf
      rcases List.mem_append.mp hf with hf | hf
      · exact hsub _ (hvisited f hf)
      · obtain rfl := List.mem_singleton.mp hf
        exact hname
    simp only [SameChildren] at hsame
    -- the first child is left in both lists, or it is the echo of an earlier one
    rcases hsame with ⟨m, ms', rfl, hnm, hrest⟩ | ⟨⟨f, hf, hecho⟩, hrest⟩
    · rw [Shows, childVariables_cons, Assigned.append] at hm
      have hjson := same_modelToJson n hnm hseen hn.1 hm.1
      have hseen' := noted_congr hseen (same_ids n hnm).2
      have hlater : ∀ (names : List QualifiedName) (j : Json), (∀ q ∈ visited, q ∈ names) →
          n.definition.specifiedBrowseName ∈ names →
          childrenToJson v {} names j ns = childrenToJson w {} names j ms' := fun _ j hsub hname =>
        same_childrenToJson ns hrest (hvisited' hsub hname) hids' hseen' hn.2 hm.2
      simp only [childrenToJson, hnm.definition, hjson]
      split_ifs with hmem
      · exact hlater visited children (fun _ hq => hq) hmem
      · have hsub : ∀ q ∈ visited, q ∈ visited ++ [n.definition.specifiedBrowseName] :=
          fun q hq => List.mem_append_left _ hq
        have hname : n.definition.specifiedBrowseName ∈
            visited ++ [n.definition.specifiedBrowseName] :=
          List.mem_append_right _ (List.mem_singleton_self _)
        simp only [hlater _ _ hsub hname]
    · -- the browse name of the echo is visited, and its nodes are subscribed
      have hmem : n.definition.specifiedBrowseName ∈ visited := by
        rw [hecho.1]
        exact hvisited f hf
      have hseen' : ∀ x, Noted (seen ++ ids (childVariables [n])) x ↔ Noted seen' x := fun x =>
        (noted_absorb (fun y hy => hids f hf y (hecho.2 y hy)) x).trans (hseen x)
      have hskip : childrenToJson v {} visited children (n :: ns) =
          childrenToJson v {} visited children ns := by
        simp only [childrenToJson, hmem, if_true]
      rw [hskip]
      exact same_childrenToJson ns hrest (hvisited' (fun _ hq => hq) hmem) hids' hseen' hn.2 hm

theorem same_instancesToJson : ∀ (is : List (PlaceholderElement Node))
    {js : List (PlaceholderElement Node)} {elements : Json} {seen seen' : List NodeId},
    SameInstances is js → (∀ x, Noted seen x ↔ Noted seen' x) →
    Shows h v seen (instanceVariables is) → Shows h w seen' (instanceVariables js) →
    instancesToJson v {} elements is = instancesToJson w {} elements js
  | [], js, elements, seen, seen', hsame, _, _, _ => by
    simp only [SameInstances] at hsame
    subst hsame
    rfl
  | ⟨pNode, browseName, typeDefinition⟩ :: is, js, elements, seen, seen', hsame, hseen, hn, hm => by
    simp only [SameInstances] at hsame
    obtain ⟨hsimple, pNode', rest', rfl, hp, hrest⟩ := hsame
    rw [Shows, instanceVariables, Assigned.append] at hn hm
    have hjson := same_modelToJson pNode hp hseen (hn.1.child hsimple)
      (hm.1.child (hp.isSimple hsimple))
    have hseen' := noted_congr hseen (same_ids pNode hp).1
    have hlater : ∀ j : Json, instancesToJson v {} j is = instancesToJson w {} j rest' := fun j =>
      same_instancesToJson is hrest hseen' hn.2 hm.2
    simp only [instancesToJson, hjson, hlater]

end

/-! ### Adding a machine -/

variable {ω : Type} (client : IDashboardDataClient ω) (reader : OpcUaTypeReader)

/-- Add a machine, deliver the notifications, and render the data set that was added. -/
def addAndGetJson (fuel : ℕ) (startNodeId : NodeId) (pTypeDefinition : NodeRef)
    (channel onlineChannel : String) (notifications : List (NodeId × Json)) :
    ClientM ω (Option (Except Exception Json)) := do
  addDataSet client reader fuel startNodeId pTypeDefinition channel onlineChannel
  let s ← Prog.get
  pure (s.this.dataSets.getLast?.map fun d => getJson (notifyAll s.this d notifications))

/-- The tree of an expansion that returned, and what the expansion has left alone. -/
structure NewTree (s : Session ω) (node : Node) (s₁ : Session ω) : Prop where
  simple : isSimple node = true
  held : heldNodes s₁.this = heldNodes s.this
  callbacks : s₁.this.callbacks = s.this.callbacks
  allocated : Allocated s.this.nextPtr s₁.this.nextPtr (Node.variablePtrs node)

theorem newTree_of_run {fuel : ℕ} {n : NodeId} {t : NodeRef} {s s₁ : Session ω} {node : Node}
    (hok : (transformToNodeIds client reader fuel n t).run s = (.ok node, s₁)) :
    NewTree s node s₁ := by
  have huntouched := keeps_transformToNodeIds client reader (K := fun _ => True) (c := s.this)
    (IDashboardDataClient.readsKeep_of_forall fun _ => trivial) fuel n t s ⟨trivial, rfl, rfl, rfl⟩
  have halloc := leaves_transformToNodeIds client reader fuel n t s
  have hexpanded := leaves_expanded client reader fuel n t s
  rw [Prog.Leaves, Prog.ends_iff_run, hok] at huntouched halloc hexpanded
  obtain ⟨-, ptr, childNodes, rfl⟩ := hexpanded.2 _ rfl
  refine ⟨rfl, ?_, huntouched.1.callbacks, halloc.2 _ rfl⟩
  rw [heldNodes, huntouched.1.subscribedValues]
  rfl

variable {client}

/-- Subscribing a new tree. -/
theorem NewTree.run_subscribeValues (hsub : client.Subscribes) {s s₁ : Session ω} {node : Node}
    (hs : Fresh s.this) (hnew : NewTree s node s₁) :
    ∃ s₂, (subscribeValues client node).run s₁ = (.ok (), s₂) ∧
      Assigned (Hears s₂.this.callbacks) (heldNodes s.this) (nodeVariables node) := by
  have hsublist := nodeVariables_sublist node
  have hfresh : ∀ cb ∈ s₁.this.callbacks, cb.2.pNode ∉ (nodeVariables node).map Prod.fst := by
    intro cb hcb hmem
    rw [hnew.callbacks] at hcb
    have hge := (hnew.allocated.2 _ (hsublist.subset hmem)).1
    exact Nat.not_lt.mpr hge (hs cb hcb)
  obtain ⟨s₂, hrun, -, -, hassigned⟩ :=
    run_subscribeAll hsub (nodeVariables node) s₁ (hsublist.nodup hnew.allocated.1) hfresh
  rw [hnew.held] at hassigned
  rw [subscribeValues_eq]
  exact ⟨s₂, hrun, hassigned⟩

/-- What the variables of a new data set show after notifications. -/
theorem shows_notifyAll {c : DashboardClient} {seen : List NodeId}
    {vs : List (NodePtr × NodeId)} (hassigned : Assigned (Hears c.callbacks) seen vs)
    (notifications : List (NodeId × Json)) {d : DataSetStorage} (hd : d.values = ∅) :
    Shows (fun o => heard notifications o .null) (getValue (notifyAll c d notifications)) seen
      vs := by
  refine hassigned.mono fun v _ o ho => ?_
  have hnull : getValue d v.1 = .null := by
    rw [getValue, hd]
    simp
  rw [getValue_notifyAll ho, hnull]

/-- New data sets whose trees differ by echoes show the same JSON. -/
theorem getJson_notifyAll_same {c c' : DashboardClient} {d d' : DataSetStorage}
    {seen : List NodeId} (hd : d.values = ∅) (hd' : d'.values = ∅)
    (hsimple : isSimple d.node = true) (hsame : Same d.node d'.node)
    (hassigned : Assigned (Hears c.callbacks) seen (nodeVariables d.node))
    (hassigned' : Assigned (Hears c'.callbacks) seen (nodeVariables d'.node))
    (notifications : List (NodeId × Json)) :
    getJson (notifyAll c d notifications) = getJson (notifyAll c' d' notifications) := by
  have hshows := shows_notifyAll (hassigned.child hsimple) notifications hd
  have hshows' := shows_notifyAll (hassigned'.child (hsame.isSimple hsimple)) notifications hd'
  rw [getJson, getJson, node_notifyAll, node_notifyAll]
  exact same_modelToJson d.node hsame (fun _ => Iff.rfl) hshows hshows'

/-- **Repeated children of a type are not published**: dropping the later repetitions from the
child lists of the types, from any of the lists and at any depth, changes nothing of the JSON. -/
theorem addAndGetJson_dropRepetitions {A : Answers} (hA : client.AnswersBy A)
    (hN : A.NeverFails) (hsub : client.Subscribes) (P : ListRef → Bool) {s : Session ω}
    (hs : Reachable client s) (fuel : ℕ) (startNodeId : NodeId) (pTypeDefinition : NodeRef)
    (channel onlineChannel : String) (notifications : List (NodeId × Json)) :
    ((addAndGetJson client reader fuel startNodeId pTypeDefinition channel onlineChannel
        notifications).run s).1 =
      ((addAndGetJson client (reader.dropRepetitions P) fuel startNodeId pTypeDefinition channel
        onlineChannel notifications).run s).1 := by
  have hexpansions : Prog.EndAlike
      (transformToNodeIds client reader fuel startNodeId pTypeDefinition) s
      (transformToNodeIds client (reader.dropRepetitions P) fuel startNodeId pTypeDefinition) s
      fun node s₁ node' s₁' => Same node node' ∧ NewTree s node s₁ ∧ NewTree s node' s₁' := by
    refine (((same_transformToNodeIds hA hA hN P fuel startNodeId pTypeDefinition s s
      (SameReached.refl s)).and_left fun _ _ => newTree_of_run client reader).and_right
        fun _ _ => newTree_of_run client (reader.dropRepetitions P)).mono ?_
    rintro node s₁ node' s₁' ⟨⟨halike, hnew⟩, hnew'⟩
    exact ⟨halike.2.1, hnew, hnew'⟩
  have hstorages : Prog.EndAlike
      (prepareDataSetStorage client reader fuel startNodeId pTypeDefinition channel
        onlineChannel) s
      (prepareDataSetStorage client (reader.dropRepetitions P) fuel startNodeId pTypeDefinition
        channel onlineChannel) s
      fun d s₁ d' s₁' => d.values = ∅ ∧ d'.values = ∅ ∧ Same d.node d'.node ∧
        NewTree s d.node s₁ ∧ NewTree s d'.node s₁' :=
    hexpansions.bind fun node s₁ node' s₁' h => .ret ⟨rfl, rfl, h⟩
  have hadd : Prog.EndAlike
      (addDataSet client reader fuel startNodeId pTypeDefinition channel onlineChannel) s
      (addDataSet client (reader.dropRepetitions P) fuel startNodeId pTypeDefinition channel
        onlineChannel) s
      fun _ s₁ _ s₁' =>
        s₁.this.dataSets.getLast?.map (fun d => getJson (notifyAll s₁.this d notifications)) =
          s₁'.this.dataSets.getLast?.map fun d => getJson (notifyAll s₁'.this d notifications) := by
    refine .catching (hstorages.bind ?_)
    rintro d s₁ d' s₁' ⟨hd, hd', hsame, hnew, hnew'⟩
    obtain ⟨s₂, hrun, hassigned⟩ := hnew.run_subscribeValues hsub hs.fresh
    obtain ⟨s₂', hrun', hassigned'⟩ := hnew'.run_subscribeValues hsub hs.fresh
    have hsubscribe : Prog.EndAlike (subscribeValues client d.node) s₁
        (subscribeValues client d'.node) s₁' fun _ t _ t' => t = s₂ ∧ t' = s₂' :=
      Or.inl ⟨(), s₂, (), s₂', hrun, hrun', rfl, rfl⟩
    -- the data sets that are added are the last ones
    refine hsubscribe.bind ?_
    rintro _ _ _ _ ⟨rfl, rfl⟩
    refine Or.inl ⟨_, _, _, _, rfl, rfl, ?_⟩
    simp only [List.getLast?_concat, Option.map_some]
    exact congrArg some (getJson_notifyAll_same hd hd' hnew.simple hsame hassigned hassigned'
      notifications)
  refine Prog.EndAlike.fst_run_eq (Q := fun j _ j' _ => j = j') (hadd.bind ?_) fun _ _ _ _ h => h
  intro _ s₁ _ s₁' h
  exact Or.inl ⟨_, _, _, _, rfl, rfl, h⟩

/-! ### A child that is listed twice -/

namespace RepeatedChild

/-- A server with one variable, which every browse name leads to. -/
def answers : Answers where
  browse _ _ := .ok []
  browseWithResultTypeFilter _ _ _ := .ok []
  translateBrowsePathToNodeId _ _ := .ok ⟨"", "i=2"⟩

/-- A type with a variable that its child list names twice. -/
def typeReader : OpcUaTypeReader :=
  { OpcUaTypeReader.create [] [] with
    heap :=
      { nodes := fun n =>
          if n = 0 then
            ⟨⟨.mandatory, .object, default, default, ⟨"", "Machine"⟩⟩, 0, false⟩
          else ⟨⟨.mandatory, .variable, default, default, ⟨"", "Speed"⟩⟩, 1, true⟩
        lists := fun l => if l = 0 then [1, 1] else []
        next := 2 } }

def session : Session Unit := ⟨(), DashboardClient.new⟩

theorem neverFails_answers : answers.NeverFails :=
  ⟨fun _ _ => ⟨_, rfl⟩, fun _ _ _ => ⟨_, rfl⟩, fun _ _ => ⟨_, rfl⟩⟩

end RepeatedChild

open RepeatedChild in
theorem addAndGetJson_dropRepetitions_twice :
    typeReader.heap.children 0 = [1, 1] ∧
      (typeReader.dropRepetitions fun _ => true).heap.children 0 = [1] ∧
      ((addAndGetJson answers.client typeReader 2 ⟨"", "i=1"⟩ 0 "" ""
          [(⟨"", "i=2"⟩, .integer 7)]).run session).1 =
        .ok (some (.ok (.object [("Speed", .integer 7)]))) ∧
      ((addAndGetJson answers.client typeReader 2 ⟨"", "i=1"⟩ 0 "" ""
          [(⟨"", "i=2"⟩, .integer 7)]).run session).1 =
        ((addAndGetJson answers.client (typeReader.dropRepetitions fun _ => true) 2 ⟨"", "i=1"⟩ 0
          "" "" [(⟨"", "i=2"⟩, .integer 7)]).run session).1 :=
  ⟨rfl, rfl, by with_unfolding_all rfl,
    addAndGetJson_dropRepetitions typeReader answers.answersBy_client neverFails_answers
      answers.subscribes_client _ (.new ()) 2 _ 0 "" "" _⟩

end DashboardClient

end UmatiDashboard
