import UmatiDashboard.DashboardClient.Repetitions

/-!
# Which exceptions come up from an instance

The expansion of a type on an instance ends at the first exception that no handler below has
dropped, and on its way up an exception changes its class: a named child makes it a
`MachineInvalidChildException`, a mandatory placeholder a bare `std::exception`. An `InstanceTree`
is what the server has to say about an instance, as far as the expansion asks for it; `forwards`
computes from the tree alone what comes up to its root, and `sends_transformToNodeIds` says that
the expansion of an instance whose nodes are all different ends just so.
-/

namespace UmatiDashboard

mutual

/-- A node with what there is for the children of its type. -/
inductive InstanceTree where
  | node (nodeId : NodeId) (children : List InstanceChild)

/-- What there is for a child of a type. -/
inductive InstanceChild where
  /-- a named child whose browse name is translated to a null id, or not at all -/
  | unresolved (mandatory : Bool) (thrown : Option Exception)
  | named (mandatory : Bool) (child : InstanceTree)
  | placeholder (mandatory : Bool) (candidates : List InstanceCandidate)
  /-- a child without modelling rule -/
  | ignored

/-- A node that a placeholder may stand for. -/
inductive InstanceCandidate where
  | typed (tree : InstanceTree)
  /-- the type map has no entry for its type -/
  | untyped
  /-- a `BaseObjectType` without an interface -/
  | withoutInterface

end

mutual

/-- The nodes of a tree. -/
def InstanceTree.nodeIds : InstanceTree → List NodeId
  | .node nodeId children => nodeId :: childrenNodeIds children

def childrenNodeIds : List InstanceChild → List NodeId
  | [] => []
  | child :: rest => child.nodeIds ++ childrenNodeIds rest

def InstanceChild.nodeIds : InstanceChild → List NodeId
  | .unresolved _ _ => []
  | .named _ child => child.nodeIds
  | .placeholder _ candidates => candidatesNodeIds candidates
  | .ignored => []

def candidatesNodeIds : List InstanceCandidate → List NodeId
  | [] => []
  | candidate :: rest => candidate.nodeIds ++ candidatesNodeIds rest

def InstanceCandidate.nodeIds : InstanceCandidate → List NodeId
  | .typed tree => tree.nodeIds
  | .untyped => []
  | .withoutInterface => []

end

/-! ### The instance on a server -/

/-- The rule of a named child. -/
def namedRule (mandatory : Bool) : ModellingRule := if mandatory then .mandatory else .optional

/-- The rule of a placeholder. -/
def placeholderRule (mandatory : Bool) : ModellingRule :=
  if mandatory then .mandatoryPlaceholder else .optionalPlaceholder

namespace DashboardClient

section ExpandsTo

variable (A : Answers) (reader : OpcUaTypeReader)

/-- The browse name leads to no node: it is translated to a null id, or an exception is thrown. -/
def Unresolved (n : NodeId) (q : QualifiedName) : Option Exception → Prop
  | none => ∃ x, A.translateBrowsePathToNodeId n q = .ok x ∧ x.isNull = true
  | some ex => A.translateBrowsePathToNodeId n q = .error ex

mutual

/-- The type, followed on the server from node `n`, leads to the tree. -/
def ExpandsTo (n : NodeId) (t : NodeRef) : InstanceTree → Prop
  | .node nodeId children => nodeId = n ∧ ChildrenExpandTo n (reader.heap.children t) children

def ChildrenExpandTo (n : NodeId) : List NodeRef → List InstanceChild → Prop
  | [], [] => True
  | pChild :: pChildren, child :: children =>
    ChildExpandsTo n pChild child ∧ ChildrenExpandTo n pChildren children
  | _, _ => False

def ChildExpandsTo (n : NodeId) (pChild : NodeRef) : InstanceChild → Prop
  | .unresolved mandatory thrown =>
    (reader.node pChild).modellingRule = namedRule mandatory ∧
      Unresolved A n (reader.node pChild).specifiedBrowseName thrown
  | .named mandatory child =>
    (reader.node pChild).modellingRule = namedRule mandatory ∧
      ∃ x, A.translateBrowsePathToNodeId n (reader.node pChild).specifiedBrowseName = .ok x ∧
        x.isNull = false ∧ ExpandsTo x pChild child
  | .placeholder mandatory candidates =>
    (reader.node pChild).modellingRule = placeholderRule mandatory ∧
      ∃ browseResults, A.browseTyped n (reader.node pChild).referenceType
          (reader.node pChild).specifiedTypeNodeId = .ok browseResults ∧
        CandidatesExpandTo browseResults candidates
  | .ignored => (reader.node pChild).modellingRule = .none

def CandidatesExpandTo : List BrowseResult → List InstanceCandidate → Prop
  | [], [] => True
  | r :: rs, candidate :: candidates =>
    CandidateExpandsTo r candidate ∧ CandidatesExpandTo rs candidates
  | _, _ => False

def CandidateExpandsTo (r : BrowseResult) : InstanceCandidate → Prop
  | .typed tree => ∃ typeDefinition t, candidateType A r = some typeDefinition ∧
      reader.typeMap[typeDefinition]? = some t ∧ ExpandsTo r.nodeId t tree
  | .untyped => ∃ typeDefinition, candidateType A r = some typeDefinition ∧
      reader.typeMap[typeDefinition]? = none
  | .withoutInterface => r.typeDefinition.id = WellKnown.baseObjectType.id ∧
      A.browse r.nodeId .hasInterface = .ok []

end

end ExpandsTo

end DashboardClient

/-! ### What comes up -/

/-- What comes up from a part of an instance: nothing, a `MachineInvalidChildException` with
`hasInvalidMandatoryChild`, a bare `std::exception`, or no defined behaviour. -/
inductive Forwarded where
  | nothing
  | invalidChild
  | bare
  | undefined
  deriving DecidableEq

namespace Forwarded

/-- The next part is only processed if nothing has come up. -/
def next : Forwarded → Forwarded → Forwarded
  | nothing, g => g
  | f, _ => f

/-- The handler of a named child. -/
def throughNamed (mandatory : Bool) : Forwarded → Forwarded
  | bare => if mandatory then invalidChild else nothing
  | f => f

/-- The handler of a placeholder. -/
def throughPlaceholder (mandatory : Bool) : Forwarded → Forwarded
  | invalidChild => if mandatory then bare else nothing
  | bare => if mandatory then bare else nothing
  | f => f

/-- What the handler of a named child sees of an exception of the data client. -/
def ofException : Exception → Forwarded
  | .machineInvalidChild _ hasInvalidMandatoryChild =>
    if hasInvalidMandatoryChild then invalidChild else nothing
  | _ => bare

/-- An exception comes up. -/
def IsThrown (f : Forwarded) : Prop := f = invalidChild ∨ f = bare

instance : DecidablePred IsThrown := fun f => inferInstanceAs (Decidable (f = _ ∨ f = _))

/-- How a computation ends from which `f` comes up. -/
inductive Describes {α : Type} : Forwarded → Outcome Exception α → Prop
  | nothing (a : α) : Describes .nothing (.ok a)
  | invalidChild (what : String) : Describes .invalidChild (.throw (.machineInvalidChild what true))
  | bare (what : String) : Describes .bare (.throw (.std what))
  | undefined : Describes .undefined (.stuck .undefined)

theorem Describes.isThrown_iff {α : Type} {f : Forwarded} {out : Outcome Exception α}
    (h : f.Describes out) : f.IsThrown ↔ ∃ e, out = .throw e := by
  cases h <;> simp [IsThrown]

end Forwarded

mutual

/-- What comes up from a node: what comes up first from its children. -/
def InstanceTree.forwards : InstanceTree → Forwarded
  | .node _ children => forwardsOfChildren children

def forwardsOfChildren : List InstanceChild → Forwarded
  | [] => .nothing
  | child :: rest => child.forwards.next (forwardsOfChildren rest)

def InstanceChild.forwards : InstanceChild → Forwarded
  | .unresolved _ none => .nothing
  | .unresolved mandatory (some ex) => (Forwarded.ofException ex).throughNamed mandatory
  | .named mandatory child => child.forwards.throughNamed mandatory
  | .placeholder mandatory candidates =>
    (forwardsOfCandidates candidates).throughPlaceholder mandatory
  | .ignored => .nothing

def forwardsOfCandidates : List InstanceCandidate → Forwarded
  | [] => .nothing
  | candidate :: rest => candidate.forwards.next (forwardsOfCandidates rest)

def InstanceCandidate.forwards : InstanceCandidate → Forwarded
  | .typed tree => tree.forwards
  | .untyped => .nothing
  | .withoutInterface => .undefined

end

namespace DashboardClient

/-! ### Expanding the instance -/

variable {ω α β : Type}

/-- All nodes that were reached in between are among `ids`. -/
def ReachesOnly (s s' : Session ω) (ids : List NodeId) : Prop :=
  ∀ x ∈ s'.this.browsedNodes, x ∈ s.this.browsedNodes ∨ x ∈ ids

/-- The nodes are different, and none of them was reached. -/
structure Unreached (ids : List NodeId) (s : Session ω) : Prop where
  nodup : ids.Nodup
  notMem : ∀ x ∈ ids, x ∉ s.this.browsedNodes

/-- The program reaches nodes among `ids`, and `f` comes up from it. -/
def Sends (p : ClientM ω α) (s : Session ω) (f : Forwarded) (ids : List NodeId) : Prop :=
  p.Ends s fun out s' => f.Describes out ∧ ReachesOnly s s' ids

theorem ReachesOnly.refl (s : Session ω) : ReachesOnly s s [] := fun _ => Or.inl

theorem ReachesOnly.trans {s s₁ s₂ : Session ω} {ids ids' : List NodeId}
    (h : ReachesOnly s s₁ ids) (h' : ReachesOnly s₁ s₂ ids') : ReachesOnly s s₂ (ids ++ ids') := by
  intro x hx
  rw [List.mem_append]
  rcases h' x hx with hx | hx
  · exact (h x hx).imp id Or.inl
  · exact Or.inr (Or.inr hx)

theorem Unreached.left {ids ids' : List NodeId} {s : Session ω} (h : Unreached (ids ++ ids') s) :
    Unreached ids s where
  nodup := (List.nodup_append.mp h.nodup).1
  notMem x hx := h.notMem x (List.mem_append_left ids' hx)

/-- What was not reached before and is not reached on the way. -/
theorem Unreached.right {ids ids' : List NodeId} {s s' : Session ω} (h : Unreached (ids ++ ids') s)
    (hs' : ReachesOnly s s' ids) : Unreached ids' s' where
  nodup := (List.nodup_append.mp h.nodup).2.1
  notMem x hx hx' := by
    rcases hs' x hx' with hx' | hx'
    · exact h.notMem x (List.mem_append_right ids hx) hx'
    · exact (List.nodup_append.mp h.nodup).2.2 x hx' x hx rfl

theorem sends_pure {s : Session ω} {a : α} : Sends (pure a) s .nothing [] :=
  ⟨.nothing a, .refl s⟩

theorem Sends.bind {p : ClientM ω α} {k : α → ClientM ω β} {s : Session ω} {f g : Forwarded}
    {ids ids' : List NodeId} (hp : Sends p s f ids)
    (hk : ∀ a s', ReachesOnly s s' ids → Sends (k a) s' g ids') :
    Sends (p >>= k) s (f.next g) (ids ++ ids') := by
  have hleft : ∀ {s'}, ReachesOnly s s' ids → ReachesOnly s s' (ids ++ ids') := fun h x hx =>
    (h x hx).imp id fun hx => List.mem_append_left ids' hx
  rw [Sends, Prog.ends_bind]
  refine Prog.Ends.mono hp fun out s' ho => ?_
  obtain ⟨hdesc, hreach⟩ := ho
  cases hdesc with
  | nothing a =>
    rw [Outcome.follow_ok]
    exact Prog.Ends.mono (hk a s' hreach) fun _ _ h => ⟨h.1, hreach.trans h.2⟩
  | invalidChild what => exact ⟨.invalidChild what, hleft hreach⟩
  | bare what => exact ⟨.bare what, hleft hreach⟩
  | undefined => exact ⟨.undefined, hleft hreach⟩

theorem Sends.map {p : ClientM ω α} {h : α → β} {s : Session ω} {f : Forwarded}
    {ids : List NodeId} (hp : Sends p s f ids) : Sends (h <$> p) s f ids := by
  rw [Sends, Prog.ends_map]
  refine Prog.Ends.mono hp fun out s' ho => ?_
  obtain ⟨hdesc, hreach⟩ := ho
  cases hdesc with
  | nothing a => exact ⟨.nothing _, hreach⟩
  | invalidChild what => exact ⟨.invalidChild what, hreach⟩
  | bare what => exact ⟨.bare what, hreach⟩
  | undefined => exact ⟨.undefined, hreach⟩

/-- A call that is answered reaches no node. -/
theorem sends_ask {g : ω → Except Exception α × ω} {k : α → ClientM ω β} {s : Session ω} {a : α}
    {f : Forwarded} {ids : List NodeId} (hg : (g s.world).1 = .ok a)
    (hk : ∀ w, Sends (k a) { s with world := w } f ids) : Sends (ask g >>= k) s f ids := by
  rw [Sends, Prog.ends_bind, Prog.Ends, run_ask hg]
  exact hk _

variable {client : IDashboardDataClient ω} {A : Answers} {reader : OpcUaTypeReader}
  {transform : NodeId → NodeRef → ClientM ω Node}

/-- Instances with at most `k` nodes are expanded as their trees say. -/
def Follows (A : Answers) (reader : OpcUaTypeReader) (transform : NodeId → NodeRef → ClientM ω Node)
    (k : ℕ) : Prop :=
  ∀ (tree : InstanceTree) (n : NodeId) (t : NodeRef) (s : Session ω), ExpandsTo A reader n t tree →
    tree.nodeIds.length ≤ k → Unreached tree.nodeIds s →
    Sends (transform n t) s tree.forwards tree.nodeIds

/-- A named child that is resolved. -/
theorem sends_named (hA : client.AnswersBy A) {n x : NodeId} {pChild : NodeRef} {s : Session ω}
    {mandatory : Bool} {f : Forwarded} {ids : List NodeId} (found : List Node)
    (hrule : (reader.node pChild).modellingRule = namedRule mandatory)
    (hx : A.translateBrowsePathToNodeId n (reader.node pChild).specifiedBrowseName = .ok x)
    (hnull : x.isNull = false)
    (hchild : ∀ w, Sends (transform x pChild) { s with world := w } f ids) :
    Sends (optionalAndMandatoryTransformToNodeId client reader transform n found pChild) s
      (f.throughNamed mandatory) ids := by
  have hresolved : Sends (do
      let childNodeId ← ask (client.translateBrowsePathToNodeId n
        (reader.node pChild).specifiedBrowseName)
      if childNodeId.isNull then
        pure (false, found)
      else
        let node ← transform childNodeId pChild
        pure (true, found ++ [node])) s f ids := by
    refine sends_ask ((hA.translateBrowsePathToNodeId n _ s.world).trans hx) fun w => ?_
    rw [hnull]
    exact (hchild w).map
  rw [Sends, optionalAndMandatoryTransformToNodeId, Prog.ends_catching]
  refine Prog.Ends.mono hresolved fun out s' ho => ?_
  obtain ⟨hdesc, hreach⟩ := ho
  cases hdesc with
  | nothing a => exact ⟨.nothing a, hreach⟩
  | invalidChild what => exact ⟨.invalidChild _, hreach⟩
  | undefined => exact ⟨.undefined, hreach⟩
  | bare what =>
    dsimp only [Outcome.rescue_throw]
    cases mandatory with
    | true =>
      rw [if_pos (by simp [hrule, namedRule])]
      exact ⟨.invalidChild _, hreach⟩
    | false =>
      rw [if_neg (by simp [hrule, namedRule])]
      exact ⟨.nothing _, hreach⟩

/-- A named child that is not resolved. -/
theorem sends_unresolved (hA : client.AnswersBy A) {n : NodeId} {pChild : NodeRef} {s : Session ω}
    {mandatory : Bool} {thrown : Option Exception} (found : List Node)
    (hrule : (reader.node pChild).modellingRule = namedRule mandatory)
    (hthrown : Unresolved A n (reader.node pChild).specifiedBrowseName thrown) :
    Sends (optionalAndMandatoryTransformToNodeId client reader transform n found pChild) s
      (InstanceChild.unresolved mandatory thrown).forwards [] := by
  cases thrown with
  | none =>
    obtain ⟨x, hx, hnull⟩ := hthrown
    have hask := run_ask (s := s) ((hA.translateBrowsePathToNodeId n _ s.world).trans hx)
    simp only [Sends, optionalAndMandatoryTransformToNodeId, Prog.ends_catching, Prog.ends_bind]
    rw [Prog.Ends, hask, Outcome.follow_ok, if_pos hnull]
    exact ⟨.nothing _, fun _ => Or.inl⟩
  | some ex =>
    have hask := run_ask_of_error (s := s)
      ((hA.translateBrowsePathToNodeId n _ s.world).trans hthrown)
    simp only [Sends, optionalAndMandatoryTransformToNodeId, Prog.ends_catching, Prog.ends_bind]
    rw [Prog.Ends, hask, Outcome.follow_throw]
    dsimp only [Outcome.rescue_throw]
    cases ex with
    | machineInvalidChild what hasInvalidMandatoryChild =>
      cases hasInvalidMandatoryChild with
      | true => exact ⟨.invalidChild _, fun _ => Or.inl⟩
      | false => exact ⟨.nothing _, fun _ => Or.inl⟩
    | _ =>
      cases mandatory with
      | true =>
        dsimp only
        rw [if_pos (by simp [hrule, namedRule])]
        exact ⟨.invalidChild _, fun _ => Or.inl⟩
      | false =>
        dsimp only
        rw [if_neg (by simp [hrule, namedRule])]
        exact ⟨.nothing _, fun _ => Or.inl⟩

/-- The candidates of a placeholder. -/
theorem sends_candidate (hA : client.AnswersBy A) {k : ℕ} (hfollows : Follows A reader transform k)
    {r : BrowseResult} {candidate : InstanceCandidate} {s : Session ω}
    (h : CandidateExpandsTo A reader r candidate) (hk : candidate.nodeIds.length ≤ k)
    (hs : Unreached candidate.nodeIds s) (instances : List (PlaceholderElement Node)) :
    Sends (preparePlaceholderNodeTypeId client reader transform instances r) s candidate.forwards
      candidate.nodeIds := by
  cases candidate with
  | typed tree =>
    obtain ⟨typeDefinition, t, htype, hentry, htree⟩ := h
    obtain ⟨w, hrun⟩ := run_placeholderTypeDefinition hA htype s
    rw [Sends, preparePlaceholderNodeTypeId, Prog.ends_bind, Prog.Ends, hrun, Outcome.follow_ok,
      hentry]
    exact (hfollows tree r.nodeId t { s with world := w } htree hk ⟨hs.nodup, hs.notMem⟩).map
  | untyped =>
    obtain ⟨typeDefinition, htype, hentry⟩ := h
    obtain ⟨w, hrun⟩ := run_placeholderTypeDefinition hA htype s
    rw [Sends, preparePlaceholderNodeTypeId, Prog.ends_bind, Prog.Ends, hrun, Outcome.follow_ok,
      hentry]
    exact ⟨.nothing _, fun _ => Or.inl⟩
  | withoutInterface =>
    obtain ⟨hobject, hbrowse⟩ := h
    have hask := run_ask (s := s) ((hA.browse r.nodeId .hasInterface s.world).trans hbrowse)
    simp only [Sends, preparePlaceholderNodeTypeId, placeholderTypeDefinition, if_pos hobject,
      Prog.ends_bind]
    rw [Prog.Ends, hask]
    exact ⟨.undefined, fun _ => Or.inl⟩

theorem sends_candidates (hA : client.AnswersBy A) {k : ℕ}
    (hfollows : Follows A reader transform k) :
    ∀ {rs : List BrowseResult} {candidates : List InstanceCandidate} {s : Session ω},
      CandidatesExpandTo A reader rs candidates → (candidatesNodeIds candidates).length ≤ k →
      Unreached (candidatesNodeIds candidates) s → ∀ instances : List (PlaceholderElement Node),
      Sends (Prog.foldEach (preparePlaceholderNodeTypeId client reader transform) instances rs) s
        (forwardsOfCandidates candidates) (candidatesNodeIds candidates)
  | [], [], _, _, _, _, _ => sends_pure
  | r :: rs, candidate :: candidates, s, h, hk, hs, instances => by
    rw [candidatesNodeIds] at hk hs ⊢
    rw [List.length_append] at hk
    exact (sends_candidate hA hfollows h.1 (by omega) hs.left instances).bind fun _ _ hs' =>
      sends_candidates hA hfollows h.2 (by omega) (hs.right hs') _

/-- A placeholder. -/
theorem sends_placeholder (hA : client.AnswersBy A) {k : ℕ}
    (hfollows : Follows A reader transform k) {n : NodeId} {pChild : NodeRef} {s : Session ω}
    {mandatory : Bool} {candidates : List InstanceCandidate} (found : List Node)
    (h : ChildExpandsTo A reader n pChild (.placeholder mandatory candidates))
    (hk : (candidatesNodeIds candidates).length ≤ k)
    (hs : Unreached (candidatesNodeIds candidates) s) :
    Sends
      (optionalAndMandatoryPlaceholderTransformToNodeId client reader transform n found pChild) s
      ((forwardsOfCandidates candidates).throughPlaceholder mandatory)
      (candidatesNodeIds candidates) := by
  obtain ⟨hrule, browseResults, hbrowse, hcandidates⟩ := h
  have hbrowsed : Sends (do
      let placeholderNode ← browsePlaceholder client reader transform n pChild
      pure (true, found ++ [placeholderNode])) s (forwardsOfCandidates candidates)
        (candidatesNodeIds candidates) := by
    refine Sends.map (sends_ask ((hA.browseWithResultTypeFilter n _ _ s.world).trans hbrowse)
      fun w => ?_)
    have hw : Unreached (candidatesNodeIds candidates) { s with world := w } :=
      ⟨hs.nodup, hs.notMem⟩
    exact (sends_candidates hA hfollows hcandidates hk hw []).map
  rw [Sends, optionalAndMandatoryPlaceholderTransformToNodeId, Prog.ends_catching]
  refine Prog.Ends.mono hbrowsed fun out s' ho => ?_
  obtain ⟨hdesc, hreach⟩ := ho
  -- what the handler makes of an exception depends on the modelling rule only
  have hthrown : ∀ ex : Exception, Prog.Ends
      (if (reader.node pChild).modellingRule ≠ .optionalPlaceholder then Prog.throw ex.sliced
        else pure (false, found)) s' fun out s' =>
          (if mandatory then Forwarded.bare else .nothing).Describes out ∧
            ReachesOnly s s' (candidatesNodeIds candidates) := by
    intro ex
    cases mandatory with
    | true =>
      rw [if_pos (by simp [hrule, placeholderRule])]
      exact ⟨.bare _, hreach⟩
    | false =>
      rw [if_neg (by simp [hrule, placeholderRule])]
      exact ⟨.nothing _, hreach⟩
  generalize forwardsOfCandidates candidates = f at hdesc
  cases hdesc with
  | nothing a => exact ⟨.nothing a, hreach⟩
  | invalidChild what => exact hthrown _
  | bare what => exact hthrown _
  | undefined => exact ⟨.undefined, hreach⟩

theorem transformChild_named {n : NodeId} {pChild : NodeRef} {mandatory : Bool}
    {found : List Node} (hrule : (reader.node pChild).modellingRule = namedRule mandatory) :
    transformChild client reader transform n found pChild =
      Prod.snd <$> optionalAndMandatoryTransformToNodeId client reader transform n found
        pChild := by
  cases mandatory <;> simp [transformChild, hrule, namedRule]

theorem transformChild_placeholder {n : NodeId} {pChild : NodeRef} {mandatory : Bool}
    {found : List Node} (hrule : (reader.node pChild).modellingRule = placeholderRule mandatory) :
    transformChild client reader transform n found pChild =
      Prod.snd <$> optionalAndMandatoryPlaceholderTransformToNodeId client reader transform n found
        pChild := by
  cases mandatory <;> simp [transformChild, hrule, placeholderRule]

/-- A child of a type. -/
theorem sends_child (hA : client.AnswersBy A) {k : ℕ} (hfollows : Follows A reader transform k)
    {n : NodeId} {pChild : NodeRef} {child : InstanceChild} {s : Session ω}
    (h : ChildExpandsTo A reader n pChild child) (hk : child.nodeIds.length ≤ k)
    (hs : Unreached child.nodeIds s) (found : List Node) :
    Sends (transformChild client reader transform n found pChild) s child.forwards
      child.nodeIds := by
  cases child with
  | unresolved mandatory thrown =>
    obtain ⟨hrule, hthrown⟩ := h
    rw [transformChild_named hrule]
    exact (sends_unresolved hA found hrule hthrown).map
  | named mandatory child =>
    obtain ⟨hrule, x, hx, hnull, hchild⟩ := h
    rw [transformChild_named hrule]
    exact (sends_named hA found hrule hx hnull fun w =>
      hfollows child x pChild { s with world := w } hchild hk ⟨hs.nodup, hs.notMem⟩).map
  | placeholder mandatory candidates =>
    rw [transformChild_placeholder h.1]
    exact (sends_placeholder hA hfollows found h hk hs).map
  | ignored =>
    have hrule : (reader.node pChild).modellingRule = .none := h
    simp only [transformChild, hrule]
    exact sends_pure

theorem sends_children (hA : client.AnswersBy A) {k : ℕ} (hfollows : Follows A reader transform k)
    {n : NodeId} : ∀ {pChildren : List NodeRef} {children : List InstanceChild} {s : Session ω},
      ChildrenExpandTo A reader n pChildren children → (childrenNodeIds children).length ≤ k →
      Unreached (childrenNodeIds children) s → ∀ found : List Node,
      Sends (Prog.foldEach (transformChild client reader transform n) found pChildren) s
        (forwardsOfChildren children) (childrenNodeIds children)
  | [], [], _, _, _, _, _ => sends_pure
  | pChild :: pChildren, child :: children, s, h, hk, hs, found => by
    rw [childrenNodeIds] at hk hs ⊢
    rw [List.length_append] at hk
    exact (sends_child hA hfollows h.1 (by omega) hs.left found).bind fun _ _ hs' =>
      sends_children hA hfollows h.2 (by omega) (hs.right hs') _

/-- What follows reaches no node and ends well. -/
theorem Sends.andThen {p : ClientM ω α} {k : α → ClientM ω β} {s : Session ω} {f : Forwarded}
    {ids : List NodeId} (hp : Sends p s f ids) (hk : ∀ a s', Sends (k a) s' .nothing []) :
    Sends (p >>= k) s f ids := by
  have h := hp.bind fun a s' _ => hk a s'
  have hnext : f.next .nothing = f := by cases f <;> rfl
  rwa [hnext, List.append_nil] at h

theorem sends_allocate {k : NodePtr → α} {s : Session ω} :
    Sends (do let ptr ← allocate; pure (k ptr)) s .nothing [] :=
  ⟨.nothing _, fun _ => Or.inl⟩

theorem sends_findChildNodes (hA : client.AnswersBy A) {k : ℕ}
    (hfollows : Follows A reader transform k) {n : NodeId} {t : NodeRef}
    {children : List InstanceChild} {s : Session ω}
    (h : ChildrenExpandTo A reader n (reader.heap.children t) children)
    (hk : (childrenNodeIds children).length ≤ k) (hs : Unreached (childrenNodeIds children) s) :
    Sends (findChildNodes client reader transform n t) s (forwardsOfChildren children)
      (childrenNodeIds children) :=
  (sends_children hA hfollows h hk hs []).andThen fun _ _ => ⟨.nothing _, fun _ => Or.inl⟩

/-- **The expansion of an instance** ends as its tree says, by induction on the fuel: a child has
fewer nodes. -/
theorem sends_transformToNodeIds (hA : client.AnswersBy A) (fuel : ℕ) :
    Follows A reader (transformToNodeIds client reader fuel) fuel := by
  induction fuel with
  | zero =>
    intro tree n t s _ hk
    cases tree
    exact absurd hk (by simp [InstanceTree.nodeIds])
  | succ fuel ih =>
    intro tree n t s htree hk hs
    cases tree with
    | node nodeId children =>
      obtain ⟨rfl, hchildren⟩ := htree
      rw [InstanceTree.nodeIds] at hk hs ⊢
      rw [List.length_cons] at hk
      obtain ⟨hnot, hnodup⟩ := List.nodup_cons.mp hs.nodup
      have hcontains : s.this.browsedNodes.contains nodeId = false := by
        rw [Bool.eq_false_iff, ne_eq, Std.ExtTreeSet.contains_iff_mem]
        exact hs.notMem nodeId List.mem_cons_self
      have hreach : ReachesOnly s (insertBrowsed nodeId s).2 [nodeId] := by
        intro x hx
        rcases Std.ExtTreeSet.mem_insert.mp hx with heq | hx
        · exact Or.inr (List.mem_singleton.mpr (Std.LawfulEqCmp.eq_of_compare heq).symm)
        · exact Or.inl hx
      have hrest : Unreached (childrenNodeIds children) (insertBrowsed nodeId s).2 :=
        Unreached.right (show Unreached ([nodeId] ++ childrenNodeIds children) s from hs) hreach
      have hsend := (sends_findChildNodes hA ih hchildren (by omega) hrest).andThen
        fun found s' => @sends_allocate ω Node (fun ptr => expanded reader nodeId t ptr found) s'
      rw [Sends, transformToNodeIds, Prog.ends_bind, Prog.Ends]
      have hnew : (insertBrowsed nodeId s).1 = .ok true := by simp [insertBrowsed, hcontains]
      simp only [Prog.run, hnew, Outcome.follow_ok, if_true]
      exact hsend.mono fun _ _ ho => ⟨ho.1, hreach.trans ho.2⟩

end DashboardClient

end UmatiDashboard
