import UmatiDashboard.DashboardClient.DataSets
import UmatiDashboard.DashboardClient.ShownValues
import UmatiDashboard.Util.Allocated

/-!
# What the expansion allocates and reaches

The node objects of an expanded tree are new and stand at one place of the tree each
(`leaves_transformToNodeIds`), whatever the server answers. A node that was reached stays reached
(`keeps_reached`), and a node that was reached before is not expanded again.
-/

namespace UmatiDashboard

namespace DashboardClient

open Node

variable {ω : Type} (client : IDashboardDataClient ω) (reader : OpcUaTypeReader)

/-! ### What an expansion uses up -/

/-- An account of what is used up from one session to another: it adds up along a run, and what is
used up for a tree that is thrown away is lost. -/
structure Ledger {X : Type} (R : Session ω → Session ω → List X → Prop) : Prop where
  append : ∀ {s s' s'' l l'}, R s s' l → R s' s'' l' → R s s'' (l ++ l')
  lose : ∀ {s s' l}, R s s' l → R s s' []
  frame : ∀ {s s'}, s'.this.nextPtr = s.this.nextPtr →
    s'.this.browsedNodes = s.this.browsedNodes → R s s' []

section Children

variable {X : Type} {R : Session ω → Session ω → List X → Prop} (hR : Ledger R)

include hR

theorem Ledger.ask {α : Type} (g : ω → Except Exception α × ω) (s : Session ω) :
    (DashboardClient.ask g).Leaves s (R s · []) fun _ s' => R s s' [] := by
  rw [Prog.Leaves, DashboardClient.ask, Prog.ends_zoom, Prog.ends_call]
  exact ⟨fun _ _ _ => ⟨hR.frame rfl rfl, fun _ _ => hR.frame rfl rfl⟩,
    fun _ _ _ => ⟨hR.frame rfl rfl, fun _ _ => hR.frame rfl rfl⟩⟩

/-- A further part of a run. -/
theorem Ledger.after {α : Type} {p : ClientM ω α} {s s₁ : Session ω} {l : List X}
    {used : α → List X} (h : R s s₁ l)
    (hp : p.Leaves s₁ (R s₁ · []) fun a s' => R s₁ s' (used a)) :
    p.Leaves s₁ (R s · []) fun a s' => R s s' (l ++ used a) :=
  (hp.mono fun _ _ _ hused => hR.append h hused).weaken fun _ hs' => hR.append (hR.lose h) hs'

/-- The type of a candidate uses up nothing. -/
theorem Ledger.placeholderTypeDefinition (browseResult : BrowseResult) (s : Session ω) :
    (placeholderTypeDefinition client browseResult).Leaves s (R s · []) fun _ s' => R s s' [] := by
  unfold DashboardClient.placeholderTypeDefinition
  split_ifs
  · refine (hR.ask _ s).bind fun ifs s₁ hs₁ _ => ?_
    cases ifs with
    | nil => exact ⟨hs₁, fun _ h => by cases h⟩
    | cons first rest => exact Prog.leaves_pure hs₁ hs₁
  · exact Prog.leaves_pure (hR.frame rfl rfl) (hR.frame rfl rfl)

variable {collect : Node → List X} {f : NodeId → NodeRef → ClientM ω Node}
  (hf : ∀ n t s, (f n t).Leaves s (R s · []) fun node s' => R s s' (collect node))

include hf

theorem leaves_optionalAndMandatory (startNode : NodeId) (found : List Node) (pChild : NodeRef)
    (s : Session ω) :
    (optionalAndMandatoryTransformToNodeId client reader f startNode found pChild).Leaves s
      (R s · []) fun r s' => ∃ new, r.2 = found ++ new ∧ R s s' (new.flatMap collect) := by
  have hnone : ∀ {b : Bool} {s' : Session ω}, R s s' [] →
      (pure (b, found) : ClientM ω (Bool × List Node)).Leaves s' (R s · [])
        fun r s' => ∃ new, r.2 = found ++ new ∧ R s s' (new.flatMap collect) := fun hs' =>
    Prog.leaves_pure hs' ⟨[], (List.append_nil _).symm, hs'⟩
  refine .catching ?_ fun ex s' hs' => ?_
  · refine (hR.ask _ s).bind fun childNodeId s₁ hs₁ _ => ?_
    split_ifs
    · exact hnone hs₁
    · refine (hR.after hs₁ (hf childNodeId pChild s₁)).bind fun node s₂ hs₂ hnode => ?_
      exact Prog.leaves_pure hs₂ ⟨[node], rfl, by simpa using hnode⟩
  · split
    · split_ifs
      · exact Prog.leaves_throw hs'
      · exact hnone hs'
    · split_ifs
      · exact Prog.leaves_throw hs'
      · exact hnone hs'

theorem leaves_preparePlaceholderNodesTypeId (browseResults : List BrowseResult)
    (s : Session ω) :
    (preparePlaceholderNodesTypeId client reader f browseResults).Leaves s (R s · [])
      fun is s' => R s s' (is.flatMap fun el => collect el.pNode) := by
  have hstart : R s s (([] : List (PlaceholderElement Node)).flatMap fun el =>
      collect el.pNode) := hR.frame rfl rfl
  refine Prog.leaves_foldEach (J := (R s · []))
    (fun _ (is : List (PlaceholderElement Node)) s' =>
      R s s' (is.flatMap fun el => collect el.pNode))
    (fun browseResult _ is s₁ _ hI => ?_) browseResults hstart hstart
  refine (hR.after hI (hR.placeholderTypeDefinition client browseResult s₁)).bind
    fun typeDefinition s₂ hs₂ htype => ?_
  rw [List.append_nil] at htype
  split
  · refine (hR.after htype (hf browseResult.nodeId _ s₂)).bind fun node s₃ hs₃ hnode => ?_
    exact Prog.leaves_pure hs₃ (by simpa using hnode)
  · exact Prog.leaves_pure hs₂ htype

variable (hcollect : ∀ d is, collect (.placeholder d is) = is.flatMap fun el => collect el.pNode)

include hcollect

theorem leaves_optionalAndMandatoryPlaceholder (startNode : NodeId) (found : List Node)
    (pChild : NodeRef) (s : Session ω) :
    (optionalAndMandatoryPlaceholderTransformToNodeId client reader f startNode found
      pChild).Leaves s (R s · []) fun r s' => ∃ new, r.2 = found ++ new ∧
        R s s' (new.flatMap collect) := by
  refine .catching ?_ fun ex s' hs' => ?_
  · have hbrowse : (browsePlaceholder client reader f startNode pChild).Leaves s (R s · [])
        fun node s' => R s s' (collect node) := by
      refine (hR.ask _ s).bind fun browseResults s₁ hs₁ _ => ?_
      refine (hR.after hs₁ (leaves_preparePlaceholderNodesTypeId client reader hR hf browseResults
        s₁)).bind fun is s₂ hs₂ his => Prog.leaves_pure hs₂ ?_
      rw [hcollect]
      exact his
    refine hbrowse.bind fun node s₁ hs₁ hnode => ?_
    exact Prog.leaves_pure hs₁ ⟨[node], rfl, by simpa using hnode⟩
  · split_ifs
    · exact Prog.leaves_throw hs'
    · exact Prog.leaves_pure hs' ⟨[], (List.append_nil _).symm, hs'⟩

theorem leaves_transformChild (startNode : NodeId) (found : List Node) (pChild : NodeRef)
    (s : Session ω) :
    (transformChild client reader f startNode found pChild).Leaves s (R s · [])
      fun found' s' => ∃ new, found' = found ++ new ∧ R s s' (new.flatMap collect) := by
  have hnamed := leaves_optionalAndMandatory client reader hR hf startNode found pChild s
  have hplaceholder :=
    leaves_optionalAndMandatoryPlaceholder client reader hR hf hcollect startNode found pChild s
  unfold transformChild
  split
  · exact hnamed.bind fun _ _ hs' h => Prog.leaves_pure hs' h
  · exact hnamed.bind fun _ _ hs' h => Prog.leaves_pure hs' h
  · exact hplaceholder.bind fun _ _ hs' h => Prog.leaves_pure hs' h
  · exact hplaceholder.bind fun _ _ hs' h => Prog.leaves_pure hs' h
  · have hrefl : R s s [] := hR.frame rfl rfl
    exact Prog.leaves_pure hrefl ⟨[], (List.append_nil _).symm, hrefl⟩

/-- The children of a node use up what their trees do. -/
theorem leaves_findChildNodes (startNode : NodeId) (pTypeDefinition : NodeRef) (s : Session ω) :
    (findChildNodes client reader f startNode pTypeDefinition).Leaves s (R s · [])
      fun found s' => R s s' (found.flatMap collect) := by
  have hfold : (Prog.foldEach (transformChild client reader f startNode) []
      (reader.heap.children pTypeDefinition)).Leaves s (R s · [])
        fun found s' => R s s' (found.flatMap collect) := by
    refine Prog.leaves_foldEach (fun _ (found : List Node) s' => R s s' (found.flatMap collect))
      (fun pChild _ found s₁ _ hI => ?_) _ (hR.frame rfl rfl) (hR.frame rfl rfl)
    refine ((leaves_transformChild client reader hR hf hcollect startNode found pChild s₁).mono
      ?_).weaken fun _ hs' => hR.append (hR.lose hI) hs'
    rintro _ s₂ - ⟨new, rfl, hnew⟩
    rw [List.flatMap_append]
    exact hR.append hI hnew
  refine hfold.bind fun found s₁ hs₁ hfound => ?_
  have hstore : R s₁ { s₁ with this := { s₁.this with
      browsedNodesChildNodes := s₁.this.browsedNodesChildNodes.insert startNode found } } [] :=
    hR.frame rfl rfl
  refine Prog.Leaves.bind (Q := fun _ s' => R s s' (found.flatMap collect))
    (Prog.leaves_modify (hR.append hs₁ hstore) ?_) fun _ _ hs₂ h => Prog.leaves_pure hs₂ h
  have hboth := hR.append hfound hstore
  rwa [List.append_nil] at hboth

end Children

/-! ### New node objects -/

theorem variablePtrsOfChildren_eq_flatMap (ns : List Node) :
    variablePtrsOfChildren ns = ns.flatMap variablePtrs := by
  induction ns with
  | nil => simp [variablePtrsOfChildren]
  | cons n ns ih => simp [variablePtrsOfChildren, ih]

theorem variablePtrsOfInstances_eq_flatMap (is : List (PlaceholderElement Node)) :
    variablePtrsOfInstances is = is.flatMap fun el => variablePtrs el.pNode := by
  induction is with
  | nil => simp [variablePtrsOfInstances]
  | cons el is ih =>
    obtain ⟨pNode, browseName, typeDefinition⟩ := el
    simp [variablePtrsOfInstances, ih]

/-- No address below `k` is given out any more. -/
def Above (k : NodePtr) (s : Session ω) : Prop := k ≤ s.this.nextPtr

/-- The node objects of a run are allocated by it. -/
def Allocates (s s' : Session ω) (ptrs : List NodePtr) : Prop :=
  Above s.this.nextPtr s' ∧ Allocated s.this.nextPtr s'.this.nextPtr ptrs

theorem ledger_allocates : Ledger (Allocates : Session ω → Session ω → List NodePtr → Prop) where
  append h h' := ⟨Nat.le_trans h.1 h'.1, h.2.append h'.2 h.1 h'.1⟩
  lose h := ⟨h.1, allocated_nil _ _⟩
  frame hptr _ := ⟨Nat.le_of_eq hptr.symm, allocated_nil _ _⟩

theorem leaves_allocates : ∀ (fuel : ℕ) (startNode : NodeId) (pTypeDefinition : NodeRef)
    (s : Session ω),
    (transformToNodeIds client reader fuel startNode pTypeDefinition).Leaves s (Allocates s · [])
      fun node s' => Allocates s s' (variablePtrs node)
  | 0, _, _, s => ⟨ledger_allocates.frame rfl rfl, fun _ h => by cases h⟩
  | fuel + 1, startNode, pTypeDefinition, s => by
    have ih := leaves_allocates fuel
    have hinsert : (insertBrowsed startNode : ClientM ω Bool).Leaves s (Allocates s · [])
        fun _ s' => Allocates s s' [] :=
      ⟨⟨le_refl _, allocated_nil _ _⟩, fun _ _ => ⟨le_refl _, allocated_nil _ _⟩⟩
    refine hinsert.bind fun isNew s₁ hs₁ _ => ?_
    refine Prog.Leaves.bind (Q := fun found s' => Allocates s s' (found.flatMap variablePtrs)) ?_
      fun found s₂ hs₂ halloc => ?_
    · split_ifs
      · exact ledger_allocates.after hs₁ (leaves_findChildNodes client reader ledger_allocates ih
          (fun d is => by rw [variablePtrs, variablePtrsOfInstances_eq_flatMap]) startNode
          pTypeDefinition s₁)
      · exact Prog.leaves_pure hs₁ hs₁
    · -- the object of the node itself comes last
      have hself : Allocates s₂ { s₂ with this := { s₂.this with nextPtr := s₂.this.nextPtr + 1 } }
          (if ModelToJson.isVariableClass (reader.node pTypeDefinition).nodeClass then
            [s₂.this.nextPtr] else []) := by
        refine ⟨Nat.le_succ _, ?_⟩
        split_ifs
        · exact ⟨List.pairwise_singleton _ _, by simp⟩
        · exact allocated_nil _ _
      have hboth := ledger_allocates.append halloc hself
      refine ⟨ledger_allocates.lose hboth, fun node hnode => ?_⟩
      cases hnode
      refine ⟨hboth.1, ?_⟩
      rw [variablePtrs, variablePtrsOfChildren_eq_flatMap]
      exact hboth.2.swap

/-- **The node objects of an expanded tree are new**, and each of them stands at one place. -/
theorem leaves_transformToNodeIds (fuel : ℕ) (startNode : NodeId) (pTypeDefinition : NodeRef)
    (s : Session ω) :
    (transformToNodeIds client reader fuel startNode pTypeDefinition).Leaves s
      (Above s.this.nextPtr) fun node s' =>
        Allocated s.this.nextPtr s'.this.nextPtr (variablePtrs node) :=
  ((leaves_allocates client reader fuel startNode pTypeDefinition s).mono fun _ _ _ h => h.2).weaken
    fun _ h => h.1

/-! ### Reached nodes -/

/-- A call does not touch the dashboard client. -/
theorem keeps_ask_this {α : Type} (P : DashboardClient → Prop) (g : ω → Except Exception α × ω) :
    (ask g).Keeps (fun s : Session ω => P s.this) fun _ => True := by
  intro s hs
  rw [Prog.Leaves, ask, Prog.ends_zoom, Prog.ends_call]
  exact ⟨fun _ _ _ => ⟨hs, fun _ _ => trivial⟩, fun _ _ _ => ⟨hs, fun _ _ => trivial⟩⟩

/-- The elementary steps forget no reached node. -/
theorem stepsKeep_reached (x : NodeId) :
    StepsKeep client fun s => x ∈ s.this.browsedNodes := by
  have hask := fun {α : Type} (g : ω → Except Exception α × ω) =>
    keeps_ask_this (fun c => x ∈ c.browsedNodes) g
  refine ⟨fun _ _ => hask _, fun _ _ => hask _, fun _ _ _ => hask _, ?_,
    fun s hs => ⟨hs, fun _ _ => trivial⟩, fun _ _ => Prog.keeps_modify fun s hs => hs⟩
  intro n s hs
  exact ⟨Std.ExtTreeSet.mem_insert.mpr (Or.inr hs), fun _ _ => trivial⟩

/-- A node that was reached stays reached. -/
theorem keeps_reached (x : NodeId) (fuel : ℕ) (startNode : NodeId) (pTypeDefinition : NodeRef) :
    (transformToNodeIds client reader fuel startNode pTypeDefinition).Keeps
      (fun s => x ∈ s.this.browsedNodes) fun _ => True :=
  keeps_expansion client reader (stepsKeep_reached client x) fuel startNode pTypeDefinition

/-- The node object that stands for `startNode` expanded by a type. -/
def expanded (startNode : NodeId) (pTypeDefinition : NodeRef) (ptr : NodePtr)
    (childNodes : List Node) : Node :=
  .simple (reader.node pTypeDefinition).toNodeDefinition ptr startNode
    (reader.node pTypeDefinition).specifiedTypeNodeId
    (reader.node pTypeDefinition).ofBaseDataVariableType childNodes

/-- However an expansion ends, it has reached its node. -/
theorem leaves_reached (fuel : ℕ) (startNode : NodeId) (pTypeDefinition : NodeRef)
    (s : Session ω) :
    (transformToNodeIds client reader (fuel + 1) startNode pTypeDefinition).Leaves s
      (fun s' => startNode ∈ s'.this.browsedNodes)
      fun node _ => ∃ ptr childNodes,
        node = expanded reader startNode pTypeDefinition ptr childNodes := by
  have hinsert : (insertBrowsed startNode : ClientM ω Bool).Leaves s
      (fun s' => startNode ∈ s'.this.browsedNodes) fun _ _ => True :=
    ⟨Std.ExtTreeSet.mem_insert_self, fun _ _ => trivial⟩
  have hsteps := stepsKeep_reached client startNode
  refine hinsert.bind fun isNew s₁ hs₁ _ => ?_
  refine Prog.Leaves.bind (Q := fun _ _ => True) ?_ fun found s₂ hs₂ _ => ?_
  · split_ifs
    · exact keeps_findChildNodes client reader hsteps
        (keeps_expansion client reader hsteps fuel) startNode pTypeDefinition s₁ hs₁
    · exact Prog.leaves_pure hs₁ trivial
  · exact (hsteps.allocate s₂ hs₂).bind fun ptr s₃ hs₃ _ =>
      Prog.leaves_pure hs₃ ⟨ptr, found, rfl⟩

/-- **An expansion that returns** has reached its node. -/
theorem leaves_expanded (fuel : ℕ) (startNode : NodeId) (pTypeDefinition : NodeRef)
    (s : Session ω) :
    (transformToNodeIds client reader fuel startNode pTypeDefinition).Leaves s (fun _ => True)
      fun node s' => startNode ∈ s'.this.browsedNodes ∧
        ∃ ptr childNodes, node = expanded reader startNode pTypeDefinition ptr childNodes := by
  cases fuel with
  | zero => exact ⟨trivial, fun _ h => by cases h⟩
  | succ fuel =>
    have hreached := leaves_reached client reader fuel startNode pTypeDefinition s
    exact (hreached.mono fun _ _ hs' h => ⟨hs', h⟩).weaken fun _ _ => trivial

/-- **A reached node is not expanded again.** -/
theorem run_of_reached {fuel : ℕ} {startNode : NodeId} {pTypeDefinition : NodeRef}
    {s : Session ω} (hs : startNode ∈ s.this.browsedNodes) :
    (transformToNodeIds client reader (fuel + 1) startNode pTypeDefinition).run s =
      (.ok (expanded reader startNode pTypeDefinition s.this.nextPtr []),
        { s with this := { s.this with
            browsedNodes := s.this.browsedNodes.insert startNode
            nextPtr := s.this.nextPtr + 1 } }) := by
  have hcontains : s.this.browsedNodes.contains startNode = true :=
    Std.ExtTreeSet.contains_iff_mem.mpr hs
  simp only [transformToNodeIds, Prog.run_bind]
  simp only [insertBrowsed, Prog.run, hcontains]
  rfl

/-! ### Runs against a deterministic server -/

/-- A call that is answered. -/
theorem run_ask {α : Type} {g : ω → Except Exception α × ω} {s : Session ω} {a : α}
    (h : (g s.world).1 = .ok a) :
    (ask g).run s = (.ok a, { s with world := (g s.world).2 }) := by
  rcases hg : g s.world with ⟨answer, w⟩
  rw [hg] at h
  obtain rfl : answer = .ok a := h
  simp [ask, Prog.run, Prog.zoom, Prog.call, hg]

/-- A call that fails. -/
theorem run_ask_of_error {α : Type} {g : ω → Except Exception α × ω} {s : Session ω}
    {e : Exception} (h : (g s.world).1 = .error e) :
    (ask g).run s = (.throw e, { s with world := (g s.world).2 }) := by
  rcases hg : g s.world with ⟨answer, w⟩
  rw [hg] at h
  obtain rfl : answer = .error e := h
  simp [ask, Prog.run, Prog.zoom, Prog.call, hg]

end DashboardClient

end UmatiDashboard
