import UmatiDashboard.DataClient.Answers
import UmatiDashboard.DashboardClient.Expansion

/-!
# What a variable hears

Each node identifier is subscribed once per client, for the node object that asks first. A later
node object with the same identifier is not subscribed, so no notification ever reaches it.
`assigned_subscribeAll` says which node object hears which node after a tree was subscribed, and
`getValue_notifyAll` what value it then shows.
-/

namespace UmatiDashboard

theorem NodeId.equals_trans {a b c : NodeId} (hab : a.equals b = true) (hbc : b.equals c = true) :
    a.equals c = true := by
  simp only [equals, Bool.and_eq_true, beq_iff_eq] at *
  exact ⟨hab.1.trans hbc.1, hab.2.trans hbc.2⟩

namespace DashboardClient

/-! ### Notifications -/

/-- Several notifications, one after the other. -/
def notifyAll (c : DashboardClient) (d : DataSetStorage) (notifications : List (NodeId × Json)) :
    DataSetStorage :=
  notifications.foldl (fun d v => notify c d v.1 v.2) d

/-- The value shown after the notifications by a node object that hears one node, or none. -/
def heard (notifications : List (NodeId × Json)) (heardNode : Option NodeId) (value : Json) :
    Json :=
  notifications.foldl (fun value v => if heardNode = some v.1 then v.2 else value) value

/-- The node that the node object `ptr` hears. -/
def Hears (callbacks : List (NodeId × NewValueCallback)) (ptr : NodePtr)
    (heardNode : Option NodeId) : Prop :=
  ∀ n, (n, ⟨ptr⟩) ∈ callbacks ↔ heardNode = some n

/-- A notification writes the value under the node objects that hear the node. -/
theorem getValue_notify {c : DashboardClient} {ptr : NodePtr} {heardNode : Option NodeId}
    (h : Hears c.callbacks ptr heardNode) (d : DataSetStorage) (n : NodeId) (value : Json) :
    getValue (notify c d n value) ptr = if heardNode = some n then value else getValue d ptr := by
  -- the induction is over the closures that run
  have hwrites : ∀ (cbs : List (NodeId × NewValueCallback))
      (values : Std.ExtTreeMap NodePtr Json compare),
      (cbs.foldl (fun values cb => if cb.1 = n then values.insert cb.2.pNode value else values)
        values)[ptr]? = if (n, ⟨ptr⟩) ∈ cbs then some value else values[ptr]? := by
    intro cbs
    induction cbs with
    | nil => simp
    | cons cb cbs ih =>
      intro values
      obtain ⟨m, ⟨p⟩⟩ := cb
      rw [List.foldl_cons, ih]
      by_cases hmem : (n, (⟨ptr⟩ : NewValueCallback)) ∈ cbs
      · rw [if_pos hmem, if_pos (List.mem_cons_of_mem _ hmem)]
      · rw [if_neg hmem]
        by_cases hm : m = n
        · rw [if_pos hm, Std.ExtTreeMap.getElem?_insert]
          simp only [Std.LawfulEqCmp.compare_eq_iff_eq]
          by_cases hp : p = ptr
          · rw [if_pos hp, if_pos (by simp [hm, hp])]
          · rw [if_neg hp, if_neg]
            simp only [List.mem_cons, Prod.mk.injEq, NewValueCallback.mk.injEq, hmem, or_false]
            exact fun heq => hp heq.2.symm
        · rw [if_neg hm, if_neg]
          simp only [List.mem_cons, Prod.mk.injEq, NewValueCallback.mk.injEq, hmem, or_false]
          exact fun heq => hm heq.1.symm
  have hvalue : getValue (notify c d n value) ptr =
      ((if (n, ⟨ptr⟩) ∈ c.callbacks then some value else d.values[ptr]?) : Option Json).getD
        .null := by
    rw [← hwrites c.callbacks d.values]
    rfl
  rw [hvalue]
  by_cases hn : heardNode = some n
  · rw [if_pos ((h n).mpr hn), if_pos hn]
    rfl
  · rw [if_neg fun hmem => hn ((h n).mp hmem), if_neg hn]
    rfl

/-- **What a node object shows** after notifications. -/
theorem getValue_notifyAll {c : DashboardClient} {ptr : NodePtr} {heardNode : Option NodeId}
    (h : Hears c.callbacks ptr heardNode) (notifications : List (NodeId × Json))
    (d : DataSetStorage) :
    getValue (notifyAll c d notifications) ptr =
      heard notifications heardNode (getValue d ptr) := by
  induction notifications generalizing d with
  | nil => rfl
  | cons v vs ih =>
    have hstep : notifyAll c d (v :: vs) = notifyAll c (notify c d v.1 v.2) vs := rfl
    rw [hstep, ih, getValue_notify h]
    rfl

/-- Notifications change nothing but the values. -/
theorem node_notifyAll (c : DashboardClient) (notifications : List (NodeId × Json))
    (d : DataSetStorage) : (notifyAll c d notifications).node = d.node := by
  induction notifications generalizing d with
  | nil => rfl
  | cons v vs ih => exact ih (notify c d v.1 v.2)

/-! ### Who is subscribed -/

/-- A node with this identifier is in the list. -/
def Noted (seen : List NodeId) (n : NodeId) : Prop := ∃ m ∈ seen, m.equals n = true

theorem noted_append {seen seen' : List NodeId} {n : NodeId} :
    Noted (seen ++ seen') n ↔ Noted seen n ∨ Noted seen' n := by
  simp only [Noted, List.mem_append, or_and_right, exists_or]

/-- Noting a node once more changes nothing. -/
theorem noted_concat_of_noted {seen : List NodeId} {n : NodeId} (h : Noted seen n) (m : NodeId) :
    Noted (seen ++ [n]) m ↔ Noted seen m := by
  rw [noted_append]
  refine ⟨?_, Or.inl⟩
  rintro (hm | ⟨_, hmem, hm⟩)
  · exact hm
  · obtain rfl := List.mem_singleton.mp hmem
    obtain ⟨k, hk, hkn⟩ := h
    exact ⟨k, hk, NodeId.equals_trans hkn hm⟩

/-- Of the variables with one identifier only the first is related to it, and none of them if the
identifier was seen before. -/
def Assigned (R : NodePtr → Option NodeId → Prop) :
    List NodeId → List (NodePtr × NodeId) → Prop
  | _, [] => True
  | seen, (ptr, n) :: vs =>
    (Noted seen n → R ptr none) ∧ (¬ Noted seen n → R ptr (some n)) ∧
      Assigned R (seen ++ [n]) vs

theorem Assigned.mono {R R' : NodePtr → Option NodeId → Prop} {seen : List NodeId}
    {vs : List (NodePtr × NodeId)} (hR : ∀ v ∈ vs, ∀ o, R v.1 o → R' v.1 o)
    (h : Assigned R seen vs) : Assigned R' seen vs := by
  induction vs generalizing seen with
  | nil => trivial
  | cons v vs ih =>
    obtain ⟨hnoted, hnew, hrest⟩ := h
    have hv := hR v List.mem_cons_self
    exact ⟨fun hn => hv none (hnoted hn), fun hn => hv (some v.2) (hnew hn),
      ih (fun v' hv' => hR v' (List.mem_cons_of_mem _ hv')) hrest⟩

theorem Assigned.congr {R : NodePtr → Option NodeId → Prop} {seen seen' : List NodeId}
    {vs : List (NodePtr × NodeId)} (hseen : ∀ n, Noted seen n ↔ Noted seen' n)
    (h : Assigned R seen vs) : Assigned R seen' vs := by
  induction vs generalizing seen seen' with
  | nil => trivial
  | cons v vs ih =>
    obtain ⟨hnoted, hnew, hrest⟩ := h
    refine ⟨fun hn => hnoted ((hseen _).mpr hn), fun hn => hnew fun hn' => hn ((hseen _).mp hn'),
      ih (fun n => ?_) hrest⟩
    rw [noted_append, noted_append, hseen]

theorem Assigned.append {R : NodePtr → Option NodeId → Prop} {seen : List NodeId}
    {vs ws : List (NodePtr × NodeId)} :
    Assigned R seen (vs ++ ws) ↔
      Assigned R seen vs ∧ Assigned R (seen ++ vs.map Prod.snd) ws := by
  induction vs generalizing seen with
  | nil => simp [Assigned]
  | cons v vs ih =>
    have hcons : Assigned R seen (v :: vs ++ ws) ↔ (Noted seen v.2 → R v.1 none) ∧
        (¬ Noted seen v.2 → R v.1 (some v.2)) ∧ Assigned R (seen ++ [v.2]) (vs ++ ws) := Iff.rfl
    have hcons' : Assigned R seen (v :: vs) ↔ (Noted seen v.2 → R v.1 none) ∧
        (¬ Noted seen v.2 → R v.1 (some v.2)) ∧ Assigned R (seen ++ [v.2]) vs := Iff.rfl
    rw [hcons, hcons', ih, List.map_cons, List.append_assoc, List.singleton_append]
    simp only [and_assoc]

/-- Of the variables with one identifier one at most is related to it, and none of them if the
identifier was seen before. If nothing fails (`F`), it is the first one. -/
def HeardOnce (F : Prop) (R : NodePtr → Option NodeId → Prop) :
    List NodeId → List (NodePtr × NodeId) → Prop
  | _, [] => True
  | seen, (ptr, n) :: vs =>
    ((F ∨ Noted seen n) ∧ R ptr none ∧ HeardOnce F R seen vs) ∨
      (¬ Noted seen n ∧ R ptr (some n) ∧ HeardOnce F R (seen ++ [n]) vs)

namespace HeardOnce

variable {F : Prop} {R : NodePtr → Option NodeId → Prop} {seen : List NodeId}
  {vs : List (NodePtr × NodeId)}

/-- Where nothing fails, the first variable is the one. -/
theorem assigned (hF : ¬ F) (h : HeardOnce F R seen vs) : Assigned R seen vs := by
  induction vs generalizing seen with
  | nil => trivial
  | cons v vs ih =>
    rcases h with ⟨hnoted, hnone, hrest⟩ | ⟨hnew, hsome, hrest⟩
    · have hnoted := hnoted.resolve_left hF
      exact ⟨fun _ => hnone, fun hnew => absurd hnoted hnew,
        (ih hrest).congr fun m => (noted_concat_of_noted hnoted m).symm⟩
    · exact ⟨fun hnoted => absurd hnoted hnew, fun _ => hsome, ih hrest⟩

theorem related (h : HeardOnce F R seen vs) : ∀ v ∈ vs, R v.1 none ∨ R v.1 (some v.2) := by
  induction vs generalizing seen with
  | nil => exact fun v hv => absurd hv List.not_mem_nil
  | cons w vs ih =>
    intro v hv
    rcases h with ⟨-, hnone, hrest⟩ | ⟨-, hsome, hrest⟩
    · rcases List.mem_cons.mp hv with rfl | hv
      · exact Or.inl hnone
      · exact ih hrest v hv
    · rcases List.mem_cons.mp hv with rfl | hv
      · exact Or.inr hsome
      · exact ih hrest v hv

/-- An identifier that was seen is related to no variable. -/
theorem unrelated (h : HeardOnce F R seen vs) : ∀ v ∈ vs, Noted seen v.2 → R v.1 none := by
  induction vs generalizing seen with
  | nil => exact fun v hv => absurd hv List.not_mem_nil
  | cons w vs ih =>
    intro v hv hnoted
    rcases h with ⟨-, hnone, hrest⟩ | ⟨hnew, -, hrest⟩
    · rcases List.mem_cons.mp hv with rfl | hv
      · exact hnone
      · exact ih hrest v hv hnoted
    · rcases List.mem_cons.mp hv with rfl | hv
      · exact absurd hnoted hnew
      · exact ih hrest v hv (noted_append.mpr (Or.inl hnoted))

/-- **Of two variables with one identifier** one is related to nothing. -/
theorem pairwise (h : HeardOnce F R seen vs) :
    vs.Pairwise fun v w => v.2.equals w.2 = true → R v.1 none ∨ R w.1 none := by
  induction vs generalizing seen with
  | nil => exact List.Pairwise.nil
  | cons v vs ih =>
    rcases h with ⟨-, hnone, hrest⟩ | ⟨-, -, hrest⟩
    · exact List.Pairwise.cons (fun _ _ _ => Or.inl hnone) (ih hrest)
    · refine List.Pairwise.cons (fun w hw heq => Or.inr (hrest.unrelated w hw ?_)) (ih hrest)
      exact noted_append.mpr (Or.inr ⟨v.2, List.mem_singleton_self _, heq⟩)

end HeardOnce

variable {ω : Type} {client : IDashboardDataClient ω}

/-- The nodes of the handles held. -/
def heldNodes (c : DashboardClient) : List NodeId :=
  c.subscribedValues.filterMap (Option.map ValueSubscriptionHandle.nodeId)

theorem isSubscribed_iff (c : DashboardClient) (n : NodeId) :
    isSubscribed c n = true ↔ Noted (heldNodes c) n := by
  simp only [isSubscribed, List.any_eq_true, Noted, heldNodes, List.mem_filterMap]
  constructor
  · rintro ⟨v, hv, hn⟩
    cases v with
    | none => simp at hn
    | some h => exact ⟨h.nodeId, ⟨some h, hv, rfl⟩, hn⟩
  · rintro ⟨m, ⟨v, hv, hm⟩, hn⟩
    cases v with
    | none => simp at hm
    | some h =>
      obtain rfl := Option.some.inj hm
      exact ⟨some h, hv, hn⟩

/-- A node that is held already is not subscribed again. -/
theorem run_subscribeValue_of_noted {s : Session ω} {n : NodeId}
    (h : Noted (heldNodes s.this) n) (ptr : NodePtr) :
    (subscribeValue client ptr n).run s = (.ok (), s) := by
  have hheld : isSubscribed s.this n = true := (isSubscribed_iff s.this n).mpr h
  simp only [subscribeValue, Prog.run_catching, Prog.run_bind]
  simp only [Prog.get, Prog.run, hheld, if_true]
  rfl

variable (client) in
/-- Whatever comes of subscribing a node, a closure is stored if and only if a handle is held. -/
theorem run_subscribeValue (s : Session ω) (ptr : NodePtr) (n : NodeId) :
    ∃ s', (subscribeValue client ptr n).run s = (.ok (), s') ∧
      s'.this.dataSets = s.this.dataSets ∧
        ((¬ client.Subscribes ∨ Noted (heldNodes s.this) n) ∧
            s'.this.callbacks = s.this.callbacks ∧ heldNodes s'.this = heldNodes s.this ∨
          ¬ Noted (heldNodes s.this) n ∧ s'.this.callbacks = s.this.callbacks ++ [(n, ⟨ptr⟩)] ∧
            heldNodes s'.this = heldNodes s.this ++ [n]) := by
  by_cases hn : Noted (heldNodes s.this) n
  · exact ⟨s, run_subscribeValue_of_noted hn ptr, rfl, Or.inl ⟨Or.inr hn, rfl, rfl⟩⟩
  · have hheld : isSubscribed s.this n = false :=
      Bool.eq_false_iff.mpr fun hs => hn ((isSubscribed_iff s.this n).mp hs)
    have hget : (Prog.get : ClientM ω (Session ω)).run s = (.ok s, s) := rfl
    -- without a handle nothing is noted, which a client that subscribes never answers
    have hfails : (∀ h, (client.subscribe n ⟨ptr⟩ s.world).1 ≠ .ok (some h)) →
        ¬ client.Subscribes ∨ Noted (heldNodes s.this) n := by
      refine fun hnone => Or.inl fun hsub => ?_
      obtain ⟨h, hh⟩ := hsub n ⟨ptr⟩ s.world
      exact hnone h hh
    rcases hcall : client.subscribe n ⟨ptr⟩ s.world with ⟨e | (_ | handle), w⟩
    · -- a failing call is swallowed
      have hask : (ask (client.subscribe n ⟨ptr⟩)).run s = (.throw e, { s with world := w }) := by
        simp [ask, Prog.run, Prog.zoom, Prog.call, hcall]
      have hrun : (subscribeValue client ptr n).run s = (.ok (), { s with world := w }) := by
        simp only [subscribeValue, Prog.run_catching, Prog.run_bind, hget, hheld,
          Bool.false_eq_true, if_false, hask]
        rfl
      exact ⟨_, hrun, rfl, Or.inl ⟨hfails fun h => by simp [hcall], rfl, rfl⟩⟩
    · have hask : (ask (client.subscribe n ⟨ptr⟩)).run s = (.ok none, { s with world := w }) := by
        simp [ask, Prog.run, Prog.zoom, Prog.call, hcall]
      have hrun : (subscribeValue client ptr n).run s = (.ok (),
          { world := w
            this := { s.this with subscribedValues := s.this.subscribedValues ++ [none] } }) := by
        simp only [subscribeValue, Prog.run_catching, Prog.run_bind, hget, hheld,
          Bool.false_eq_true, if_false, hask]
        rfl
      exact ⟨_, hrun, rfl, Or.inl ⟨hfails fun h => by simp [hcall], rfl, by simp [heldNodes]⟩⟩
    · have hnode : handle.nodeId = n := client.subscribe_nodeId n ⟨ptr⟩ s.world handle w hcall
      have hask : (ask (client.subscribe n ⟨ptr⟩)).run s =
          (.ok (some handle), { s with world := w }) := by
        simp [ask, Prog.run, Prog.zoom, Prog.call, hcall]
      have hrun : (subscribeValue client ptr n).run s = (.ok (),
          { world := w
            this := { s.this with
              subscribedValues := s.this.subscribedValues ++ [some handle]
              callbacks := s.this.callbacks ++ [(n, ⟨ptr⟩)] } }) := by
        simp only [subscribeValue, Prog.run_catching, Prog.run_bind, hget, hheld,
          Bool.false_eq_true, if_false, hask]
        rfl
      exact ⟨_, hrun, rfl, Or.inr ⟨hn, rfl, by simp [heldNodes, hnode]⟩⟩

variable (client) in
/-- **Subscribing a list of variables** with node objects of their own: of the variables with one
identifier one at most hears its node, and the others hear nothing. -/
theorem run_subscribeAll_heardOnce : ∀ (vs : List (NodePtr × NodeId))
    (s : Session ω), (vs.map Prod.fst).Nodup →
    (∀ cb ∈ s.this.callbacks, cb.2.pNode ∉ vs.map Prod.fst) →
    ∃ s', (subscribeAll client vs).run s = (.ok (), s') ∧
      s'.this.dataSets = s.this.dataSets ∧
        (∀ p, p ∉ vs.map Prod.fst → ∀ n, (n, ⟨p⟩) ∈ s'.this.callbacks ↔
          (n, ⟨p⟩) ∈ s.this.callbacks) ∧
          HeardOnce (¬ client.Subscribes) (Hears s'.this.callbacks) (heldNodes s.this) vs
  | [], s, _, _ => ⟨s, rfl, rfl, fun _ _ _ => Iff.rfl, trivial⟩
  | (ptr, n) :: vs, s, hnodup, hfresh => by
    rw [List.map_cons, List.nodup_cons] at hnodup
    have hunheard : ∀ m, (m, (⟨ptr⟩ : NewValueCallback)) ∉ s.this.callbacks := fun m hm =>
      hfresh (m, ⟨ptr⟩) hm (by simp)
    obtain ⟨s₁, hrun₁, hdata₁, hstep⟩ := run_subscribeValue client s ptr n
    -- the later variables have other node objects, so their subscription is not in the way
    have hfresh₁ : ∀ cb ∈ s₁.this.callbacks, cb.2.pNode ∉ vs.map Prod.fst := by
      intro cb hcb hmem
      rcases hstep with ⟨-, hcallbacks, -⟩ | ⟨-, hcallbacks, -⟩ <;> rw [hcallbacks] at hcb
      · exact hfresh cb hcb (List.mem_cons_of_mem _ hmem)
      · rcases List.mem_append.mp hcb with hcb | hcb
        · exact hfresh cb hcb (List.mem_cons_of_mem _ hmem)
        · obtain rfl := List.mem_singleton.mp hcb
          exact hnodup.1 hmem
    obtain ⟨s', hrun, hdata, hothers, hheard⟩ := run_subscribeAll_heardOnce vs s₁ hnodup.2 hfresh₁
    have hcons : (subscribeAll client ((ptr, n) :: vs)).run s = (.ok (), s') := by
      have hsplit : subscribeAll client ((ptr, n) :: vs) =
          (subscribeValue client ptr n >>= fun _ => subscribeAll client vs) := rfl
      rw [hsplit, Prog.run_bind, hrun₁]
      exact hrun
    refine ⟨s', hcons, hdata.trans hdata₁, fun p hp m => ?_, ?_⟩
    · rw [hothers p (fun hmem => hp (List.mem_cons_of_mem _ hmem)) m]
      rcases hstep with ⟨-, hcallbacks, -⟩ | ⟨-, hcallbacks, -⟩ <;> rw [hcallbacks]
      have hne : p ≠ ptr := fun heq => hp (by simp [heq])
      simp [hne]
    · rcases hstep with ⟨hnoted, hcallbacks, hheld⟩ | ⟨hnew, hcallbacks, hheld⟩
      · refine Or.inl ⟨hnoted, fun m => ?_, hheld ▸ hheard⟩
        simp [hothers ptr hnodup.1 m, hcallbacks, hunheard m]
      · refine Or.inr ⟨hnew, fun m => ?_, hheld ▸ hheard⟩
        rw [hothers ptr hnodup.1 m, hcallbacks]
        simp [hunheard m, eq_comm]

/-- If nothing fails, the first variable of each identifier hears its node. -/
theorem run_subscribeAll (hsub : client.Subscribes) (vs : List (NodePtr × NodeId))
    (s : Session ω) (hnodup : (vs.map Prod.fst).Nodup)
    (hfresh : ∀ cb ∈ s.this.callbacks, cb.2.pNode ∉ vs.map Prod.fst) :
    ∃ s', (subscribeAll client vs).run s = (.ok (), s') ∧
      s'.this.dataSets = s.this.dataSets ∧
        (∀ p, p ∉ vs.map Prod.fst → ∀ n, (n, ⟨p⟩) ∈ s'.this.callbacks ↔
          (n, ⟨p⟩) ∈ s.this.callbacks) ∧
          Assigned (Hears s'.this.callbacks) (heldNodes s.this) vs := by
  obtain ⟨s', hrun, hdata, hothers, hheard⟩ := run_subscribeAll_heardOnce client vs s hnodup hfresh
  exact ⟨s', hrun, hdata, hothers, hheard.assigned fun hfails => hfails hsub⟩

/-! ### The closures belong to node objects that exist -/

mutual

/-- The node objects that are subscribed for a tree are among its variables. -/
theorem nodeVariables_sublist : ∀ n : Node,
    ((nodeVariables n).map Prod.fst).Sublist (Node.variablePtrs n)
  | .simple d ptr nodeId typeNodeId b childNodes => by
    simp only [nodeVariables, Node.variablePtrs, List.map_append]
    refine List.Sublist.append ?_ (childVariables_sublist childNodes)
    cases hclass : ModelToJson.isVariableClass d.nodeClass with
    | false => simp [isMandatoryOrOptionalVariable, hclass]
    | true =>
      rw [if_pos rfl]
      split_ifs <;> simp
  | .placeholder d instances => by simp [nodeVariables]

theorem childVariables_sublist : ∀ ns : List Node,
    ((childVariables ns).map Prod.fst).Sublist (Node.variablePtrsOfChildren ns)
  | [] => by simp [childVariables]
  | .simple d ptr nodeId typeNodeId b childNodes :: ns => by
    simp only [childVariables, Node.variablePtrsOfChildren, List.map_append]
    refine List.Sublist.append ?_ (childVariables_sublist ns)
    split
    · exact nodeVariables_sublist _
    · exact nodeVariables_sublist _
    · simp
  | .placeholder d instances :: ns => by
    simp only [childVariables, Node.variablePtrsOfChildren, List.map_append]
    refine List.Sublist.append ?_ (childVariables_sublist ns)
    simp only [Node.variablePtrs]
    split
    · exact instanceVariables_sublist instances
    · exact instanceVariables_sublist instances
    · simp

theorem instanceVariables_sublist : ∀ is : List (PlaceholderElement Node),
    ((instanceVariables is).map Prod.fst).Sublist (Node.variablePtrsOfInstances is)
  | [] => by simp [instanceVariables]
  | ⟨pNode, _, _⟩ :: is => by
    simp only [instanceVariables, Node.variablePtrsOfInstances, List.map_append]
    exact (nodeVariables_sublist pNode).append (instanceVariables_sublist is)

end

/-- Every closure writes under a node object that was allocated. -/
def Fresh (c : DashboardClient) : Prop := ∀ cb ∈ c.callbacks, cb.2.pNode < c.nextPtr

variable (client)

/-- The elementary steps of an expansion subscribe nothing. -/
theorem stepsKeep_fresh : StepsKeep client fun s => Fresh s.this := by
  refine ⟨fun _ _ => keeps_ask_this _ _, fun _ _ => keeps_ask_this _ _,
    fun _ _ _ => keeps_ask_this _ _,
    fun _ s hs => ⟨hs, fun _ _ => trivial⟩, fun s hs => ⟨fun cb hcb => ?_, fun _ _ => trivial⟩,
    fun _ _ => Prog.keeps_modify fun s hs => hs⟩
  exact Nat.lt_succ_of_lt (hs cb hcb)

theorem leaves_subscribeValue {s : Session ω} (hs : Fresh s.this) {ptr : NodePtr}
    (hptr : ptr < s.this.nextPtr) (n : NodeId) :
    (subscribeValue client ptr n).Leaves s (fun s' => Fresh s'.this)
      fun _ s' => s'.this.nextPtr = s.this.nextPtr := by
  rw [Prog.Leaves, subscribeValue, Prog.ends_catching, Prog.ends_bind, Prog.ends_get,
    Outcome.follow_ok]
  split_ifs
  · exact ⟨hs, fun _ _ => rfl⟩
  · rw [Prog.ends_bind, ask, Prog.ends_zoom, Prog.ends_call]
    refine ⟨fun handle w _ => ⟨fun cb hcb => ?_, fun _ _ => rfl⟩,
      fun e w _ => ⟨hs, fun _ _ => rfl⟩⟩
    cases handle with
    | none => exact hs cb hcb
    | some _ =>
      rcases List.mem_append.mp hcb with hcb | hcb
      · exact hs cb hcb
      · obtain rfl := List.mem_singleton.mp hcb
        exact hptr

/-- Adding a machine keeps the closures in order, however it ends. -/
theorem keeps_fresh_addDataSet (reader : OpcUaTypeReader) (fuel : ℕ) (startNodeId : NodeId)
    (pTypeDefinition : NodeRef) (channel onlineChannel : String) :
    (addDataSet client reader fuel startNodeId pTypeDefinition channel onlineChannel).Keeps
      (fun s => Fresh s.this) fun _ => True := by
  refine .catching (fun s hs => ?_) fun ex => ?_
  · have hkeeps := keeps_expansion client reader (stepsKeep_fresh client) fuel startNodeId
      pTypeDefinition s hs
    have halloc := leaves_transformToNodeIds client reader fuel startNodeId pTypeDefinition s
    have hexpand : (transformToNodeIds client reader fuel startNodeId pTypeDefinition).Leaves s
        (fun s' => Fresh s'.this) fun node s' =>
          ∀ v ∈ nodeVariables node, v.1 < s'.this.nextPtr := by
      refine (Prog.Ends.and hkeeps halloc).mono ?_
      rintro out s' ⟨⟨hfresh, -⟩, -, halloc⟩
      refine ⟨hfresh, fun node hok v hv => ?_⟩
      exact ((halloc node hok).2 v.1
        ((nodeVariables_sublist node).subset (List.mem_map_of_mem hv))).2
    have hstorage : (prepareDataSetStorage client reader fuel startNodeId pTypeDefinition channel
        onlineChannel).Leaves s (fun s' => Fresh s'.this) fun storage s' =>
          ∀ v ∈ nodeVariables storage.node, v.1 < s'.this.nextPtr :=
      hexpand.bind fun node s₁ hs₁ hptrs => Prog.leaves_pure hs₁ hptrs
    refine hstorage.bind fun storage s₁ hs₁ hptrs => ?_
    have hsubscribe : (subscribeValues client storage.node).Leaves s₁ (fun s' => Fresh s'.this)
        fun _ _ => True := by
      rw [subscribeValues_eq, subscribeAll]
      refine (Prog.leaves_forEach
        (fun (vs : List (NodePtr × NodeId)) (s' : Session ω) => ∀ v ∈ vs, v.1 < s'.this.nextPtr)
        (fun v vs s₂ hs₂ hI => ?_) _ hs₁ hptrs).mono fun _ _ _ _ => trivial
      refine (leaves_subscribeValue client hs₂ (hI v List.mem_cons_self) v.2).mono ?_
      intro _ s₃ _ heq v' hv'
      rw [heq]
      exact hI v' (List.mem_cons_of_mem _ hv')
    exact hsubscribe.bind fun _ s₂ hs₂ _ =>
      Prog.leaves_modify (J := fun s : Session ω => Fresh s.this) hs₂ trivial
  · split_ifs
    · exact Prog.keeps_pure trivial
    · exact Prog.keeps_throw

/-- The sessions of a client that is used as the observer uses it, while the data client behind it
does whatever it does. -/
inductive Reachable (client : IDashboardDataClient ω) : Session ω → Prop where
  | new (w : ω) : Reachable client ⟨w, DashboardClient.new⟩
  | world {s : Session ω} (w : ω) : Reachable client s → Reachable client { s with world := w }
  | addDataSet {s : Session ω} (reader : OpcUaTypeReader) (fuel : ℕ) (startNodeId : NodeId)
      (pTypeDefinition : NodeRef) (channel onlineChannel : String) : Reachable client s →
      Reachable client ((addDataSet client reader fuel startNodeId pTypeDefinition channel
        onlineChannel).run s).2
  | unsubscribe {s : Session ω} : Reachable client s →
      Reachable client ((unsubscribe client).run s).2

/-- **In every reachable session** each closure belongs to a node object that exists. -/
theorem Reachable.fresh {s : Session ω} (h : Reachable client s) : Fresh s.this := by
  induction h with
  | new w => exact fun cb hcb => absurd hcb List.not_mem_nil
  | world w _ ih => exact ih
  | addDataSet reader fuel n t channel onlineChannel _ ih =>
    exact (keeps_fresh_addDataSet client reader fuel n t channel onlineChannel _ ih).1
  | unsubscribe _ ih => exact ih

end DashboardClient

end UmatiDashboard
