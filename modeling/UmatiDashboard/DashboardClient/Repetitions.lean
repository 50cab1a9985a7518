import UmatiDashboard.DataClient.Answers
import UmatiDashboard.DashboardClient.Expansion
import UmatiDashboard.Effect.TwoRuns

/-!
# Repeated children of a type

`toStructureNode` appends the children of a declaration to its list once more each time it is
called, so a child list may hold the same node several times. Expanding the later occurrences
finds nodes that were reached before: they become nodes without children, which have the browse
name of an earlier sibling and subscribe nothing new. `Same` relates the tree that is expanded
from lists with repetitions to the one expanded from lists without them, and
`same_transformToNodeIds` says that the two expansions go side by side.
-/

namespace UmatiDashboard

/-- Drop the elements that occurred before. -/
def firstOccurrences : List NodeRef → List NodeRef → List NodeRef
  | _, [] => []
  | seen, n :: ns =>
    if n ∈ seen then firstOccurrences seen ns else n :: firstOccurrences (seen ++ [n]) ns

/-- The type map with the later repetitions dropped from the child lists in `P`. -/
def OpcUaTypeReader.dropRepetitions (reader : OpcUaTypeReader) (P : ListRef → Bool) :
    OpcUaTypeReader :=
  { reader with
    heap := { reader.heap with
      lists := fun l =>
        if P l then firstOccurrences [] (reader.heap.lists l) else reader.heap.lists l } }

/-- Some of the elements that occurred before are left out. -/
def Thinned : List NodeRef → List NodeRef → List NodeRef → Prop
  | _, [], ms => ms = []
  | seen, n :: ns, ms =>
    (∃ ms', ms = n :: ms' ∧ Thinned (seen ++ [n]) ns ms') ∨ n ∈ seen ∧ Thinned seen ns ms

theorem thinned_firstOccurrences : ∀ seen ns, Thinned seen ns (firstOccurrences seen ns)
  | _, [] => rfl
  | seen, n :: ns => by
    simp only [firstOccurrences]
    split_ifs with h
    · exact Or.inr ⟨h, thinned_firstOccurrences seen ns⟩
    · exact Or.inl ⟨_, rfl, thinned_firstOccurrences (seen ++ [n]) ns⟩

theorem thinned_refl : ∀ seen ns, Thinned seen ns ns
  | _, [] => rfl
  | seen, n :: ns => Or.inl ⟨ns, rfl, thinned_refl (seen ++ [n]) ns⟩

theorem OpcUaTypeReader.thinned_children (reader : OpcUaTypeReader) (P : ListRef → Bool)
    (n : NodeRef) :
    Thinned [] (reader.heap.children n) ((reader.dropRepetitions P).heap.children n) := by
  have hchildren : (reader.dropRepetitions P).heap.children n =
      if P (reader.heap.nodes n).specifiedChildNodes then
        firstOccurrences [] (reader.heap.children n) else reader.heap.children n := rfl
  rw [hchildren]
  split_ifs
  · exact thinned_firstOccurrences [] _
  · exact thinned_refl [] _

namespace DashboardClient

/-! ### Trees that differ by repetitions -/

/-- The node is a `SimpleNode`, as every instance of a placeholder is. -/
def isSimple : Node → Bool
  | .simple .. => true
  | .placeholder .. => false

/-- The nodes that are subscribed for a child. -/
def childIds (n : Node) : List NodeId := (childVariables [n]).map Prod.snd

/-- The node has the browse name of an earlier sibling and subscribes no node that the sibling does
not subscribe. -/
def Echo (earlier n : Node) : Prop :=
  n.definition.specifiedBrowseName = earlier.definition.specifiedBrowseName ∧
    ∀ x ∈ childIds n, x ∈ childIds earlier

mutual

/-- The second tree is the first one without some echoes, and with other node objects. -/
def Same : Node → Node → Prop
  | .simple d _ nodeId typeNodeId b childNodes, m =>
    ∃ ptr childNodes', m = .simple d ptr nodeId typeNodeId b childNodes' ∧
      SameChildren [] childNodes childNodes'
  | .placeholder d instances, m =>
    ∃ instances', m = .placeholder d instances' ∧ SameInstances instances instances'

/-- The same for the children that come after `earlier`. -/
def SameChildren : List Node → List Node → List Node → Prop
  | _, [], ms => ms = []
  | earlier, n :: ns, ms =>
    (∃ m ms', ms = m :: ms' ∧ Same n m ∧ SameChildren (earlier ++ [n]) ns ms') ∨
      (∃ f ∈ earlier, Echo f n) ∧ SameChildren (earlier ++ [n]) ns ms

def SameInstances : List (PlaceholderElement Node) → List (PlaceholderElement Node) → Prop
  | [], ms => ms = []
  | ⟨pNode, browseName, typeDefinition⟩ :: rest, ms =>
    isSimple pNode = true ∧ ∃ pNode' rest', ms = ⟨pNode', browseName, typeDefinition⟩ :: rest' ∧
      Same pNode pNode' ∧ SameInstances rest rest'

end

/-- One more child in both trees. -/
theorem SameChildren.concat {n m : Node} (h : Same n m) {earlier ns ms : List Node}
    (hsame : SameChildren earlier ns ms) : SameChildren earlier (ns ++ [n]) (ms ++ [m]) := by
  induction ns generalizing earlier ms with
  | nil =>
    simp only [SameChildren] at hsame
    subst hsame
    simp only [List.nil_append, SameChildren]
    exact Or.inl ⟨m, [], rfl, h, rfl⟩
  | cons n' ns ih =>
    simp only [List.cons_append, SameChildren] at hsame ⊢
    rcases hsame with ⟨m', ms', rfl, hm, hrest⟩ | ⟨hecho, hrest⟩
    · exact Or.inl ⟨m', ms' ++ [m], rfl, hm, ih hrest⟩
    · exact Or.inr ⟨hecho, ih hrest⟩

/-- One more echo in the first tree. -/
theorem SameChildren.echo {f n : Node} (h : Echo f n) {earlier ns ms : List Node}
    (hf : f ∈ earlier ++ ns) (hsame : SameChildren earlier ns ms) :
    SameChildren earlier (ns ++ [n]) ms := by
  induction ns generalizing earlier ms with
  | nil =>
    simp only [SameChildren] at hsame
    subst hsame
    simp only [List.nil_append, SameChildren]
    exact Or.inr ⟨⟨f, by simpa using hf, h⟩, trivial⟩
  | cons n' ns ih =>
    have hf' : f ∈ (earlier ++ [n']) ++ ns := by simpa using hf
    simp only [List.cons_append, SameChildren] at hsame ⊢
    rcases hsame with ⟨m', ms', rfl, hm, hrest⟩ | ⟨hecho, hrest⟩
    · exact Or.inl ⟨m', ms', rfl, hm, ih hf' hrest⟩
    · exact Or.inr ⟨hecho, ih hf' hrest⟩

theorem SameInstances.concat {pNode pNode' : Node} (hsimple : isSimple pNode = true)
    (h : Same pNode pNode') (browseName : QualifiedName) (typeDefinition : NodeId)
    {is js : List (PlaceholderElement Node)} (hsame : SameInstances is js) :
    SameInstances (is ++ [⟨pNode, browseName, typeDefinition⟩])
      (js ++ [⟨pNode', browseName, typeDefinition⟩]) := by
  induction is generalizing js with
  | nil =>
    simp only [SameInstances] at hsame
    subst hsame
    simp only [List.nil_append, SameInstances]
    exact ⟨hsimple, pNode', [], rfl, h, rfl⟩
  | cons el is ih =>
    obtain ⟨p, bn, td⟩ := el
    simp only [List.cons_append, SameInstances] at hsame ⊢
    obtain ⟨hs, p', rest, rfl, hp, hrest⟩ := hsame
    exact ⟨hs, p', rest ++ [⟨pNode', browseName, typeDefinition⟩], rfl, hp, ih hrest⟩

/-! ### Children that were processed before -/

variable {ω : Type} {client : IDashboardDataClient ω} {A : Answers} {reader : OpcUaTypeReader}

/-- The type by which a candidate of a placeholder is expanded. -/
def candidateType (A : Answers) (browseResult : BrowseResult) : Option NodeId :=
  if browseResult.typeDefinition.id = WellKnown.baseObjectType.id then
    match A.browse browseResult.nodeId .hasInterface with
    | .ok (first :: _) => some first.nodeId
    | _ => none
  else some browseResult.typeDefinition

/-- The node has been expanded by the type, at least with fuel one. -/
def Reached (reader : OpcUaTypeReader) (fuel : ℕ) (s : Session ω) (n : NodeId) (t : NodeRef)
    (ids : List NodeId) : Prop :=
  0 < fuel ∧ n ∈ s.this.browsedNodes ∧
    (isMandatoryOrOptionalVariable (reader.node t).toNodeDefinition = true → n ∈ ids)

/-- The child `pChild` of `startNode` has been processed: what it leads to is reached, and if it
leads to a node at all, there is one among those found that subscribes all of it. -/
def Settled (A : Answers) (reader : OpcUaTypeReader) (fuel : ℕ) (startNode : NodeId)
    (found : List Node) (s : Session ω) (pChild : NodeRef) : Prop :=
  match (reader.node pChild).modellingRule with
  | .optional | .mandatory =>
    ∃ x, A.translateBrowsePathToNodeId startNode (reader.node pChild).specifiedBrowseName = .ok x ∧
      (x.isNull = true ∨ ∃ f ∈ found, f.definition = (reader.node pChild).toNodeDefinition ∧
        Reached reader fuel s x pChild (childIds f))
  | .optionalPlaceholder | .mandatoryPlaceholder =>
    ∃ browseResults, A.browseTyped startNode (reader.node pChild).referenceType
        (reader.node pChild).specifiedTypeNodeId = .ok browseResults ∧
      ∃ f ∈ found, f.definition = (reader.node pChild).toNodeDefinition ∧
        ∀ r ∈ browseResults, ∃ typeDefinition, candidateType A r = some typeDefinition ∧
          ∀ t, reader.typeMap[typeDefinition]? = some t →
            Reached reader fuel s r.nodeId t (childIds f)
  | .none => True

/-- A processed child stays processed. -/
theorem Settled.mono {fuel : ℕ} {startNode : NodeId} {found found' : List Node}
    {s s' : Session ω} {pChild : NodeRef} (h : Settled A reader fuel startNode found s pChild)
    (hfound : ∀ f ∈ found, f ∈ found')
    (hreached : ∀ x, x ∈ s.this.browsedNodes → x ∈ s'.this.browsedNodes) :
    Settled A reader fuel startNode found' s' pChild := by
  have hmono : ∀ {n : NodeId} {t : NodeRef} {ids : List NodeId}, Reached reader fuel s n t ids →
      Reached reader fuel s' n t ids := fun h => ⟨h.1, hreached _ h.2.1, h.2.2⟩
  unfold Settled at h ⊢
  split at h
  · obtain ⟨x, hx, hnull | ⟨f, hf, hd, hr⟩⟩ := h
    · exact ⟨x, hx, Or.inl hnull⟩
    · exact ⟨x, hx, Or.inr ⟨f, hfound f hf, hd, hmono hr⟩⟩
  · obtain ⟨x, hx, hnull | ⟨f, hf, hd, hr⟩⟩ := h
    · exact ⟨x, hx, Or.inl hnull⟩
    · exact ⟨x, hx, Or.inr ⟨f, hfound f hf, hd, hmono hr⟩⟩
  · obtain ⟨rs, hrs, f, hf, hd, hall⟩ := h
    refine ⟨rs, hrs, f, hfound f hf, hd, fun r hr => ?_⟩
    obtain ⟨td, htd, ht⟩ := hall r hr
    exact ⟨td, htd, fun t h => hmono (ht t h)⟩
  · obtain ⟨rs, hrs, f, hf, hd, hall⟩ := h
    refine ⟨rs, hrs, f, hfound f hf, hd, fun r hr => ?_⟩
    obtain ⟨td, htd, ht⟩ := hall r hr
    exact ⟨td, htd, fun t h => hmono (ht t h)⟩
  · trivial

/-- The two sessions have reached the same nodes. -/
def SameReached {ω' : Type} (s : Session ω) (s' : Session ω') : Prop :=
  ∀ x, x ∈ s.this.browsedNodes ↔ x ∈ s'.this.browsedNodes

theorem SameReached.refl (s : Session ω) : SameReached s s := fun _ => Iff.rfl

/-- Expanding a reached node yields a node without children. -/
theorem run_reached (client : IDashboardDataClient ω) {fuel : ℕ} {s : Session ω} {n : NodeId}
    {t : NodeRef} {ids : List NodeId} (h : Reached reader fuel s n t ids) :
    ∃ ptr s', (transformToNodeIds client reader fuel n t).run s =
        (.ok (expanded reader n t ptr []), s') ∧ SameReached s' s := by
  obtain ⟨hfuel, hn, -⟩ := h
  obtain ⟨fuel, rfl⟩ := Nat.exists_eq_succ_of_ne_zero (Nat.pos_iff_ne_zero.mp hfuel)
  refine ⟨_, _, run_of_reached client reader hn, fun x => ?_⟩
  rw [Std.ExtTreeSet.mem_insert, Std.LawfulEqCmp.compare_eq_iff_eq]
  constructor
  · rintro (rfl | hx)
    · exact hn
    · exact hx
  · exact Or.inr

/-- The type of a candidate, when the server has it. -/
theorem run_placeholderTypeDefinition (hA : client.AnswersBy A) {r : BrowseResult}
    {typeDefinition : NodeId} (h : candidateType A r = some typeDefinition) (s : Session ω) :
    ∃ w, (placeholderTypeDefinition client r).run s =
      (.ok typeDefinition, { s with world := w }) := by
  simp only [candidateType] at h
  unfold placeholderTypeDefinition
  split_ifs at h ⊢
  · split at h
    · rename_i first rest hbrowse
      obtain rfl := Option.some.inj h
      have hask := run_ask (s := s) ((hA.browse r.nodeId .hasInterface s.world).trans hbrowse)
      refine ⟨(client.browse r.nodeId .hasInterface s.world).2, ?_⟩
      rw [Prog.run_bind, hask]
      rfl
    · cases h
  · obtain rfl := Option.some.inj h
    exact ⟨s.world, rfl⟩

/-- What a node without children subscribes. -/
theorem childIds_expanded {n : NodeId} {t : NodeRef} {ptr : NodePtr} {x : NodeId}
    (h : x ∈ childIds (expanded reader n t ptr [])) :
    isMandatoryOrOptionalVariable (reader.node t).toNodeDefinition = true ∧ x = n := by
  simp only [childIds, expanded, childVariables, List.append_nil] at h
  split at h
  · simp only [nodeVariables, childVariables, List.append_nil] at h
    split_ifs at h with hvar
    · exact ⟨hvar, by simpa using h⟩
    · simp at h
  · simp only [nodeVariables, childVariables, List.append_nil] at h
    split_ifs at h with hvar
    · exact ⟨hvar, by simpa using h⟩
    · simp at h
  · simp at h

/-- **Processing a named child again** finds nothing, or an echo. -/
theorem run_settled_named (hA : client.AnswersBy A) {fuel : ℕ} {startNode : NodeId}
    {found : List Node} {s : Session ω} {pChild : NodeRef} {x : NodeId}
    (hx : A.translateBrowsePathToNodeId startNode (reader.node pChild).specifiedBrowseName = .ok x)
    (h : x.isNull = true ∨ ∃ f ∈ found, f.definition = (reader.node pChild).toNodeDefinition ∧
      Reached reader fuel s x pChild (childIds f)) :
    ∃ r s', (optionalAndMandatoryTransformToNodeId client reader
        (transformToNodeIds client reader fuel) startNode found pChild).run s = (.ok r, s') ∧
      SameReached s' s ∧
        (r.2 = found ∨ ∃ e, r.2 = found ++ [e] ∧ ∃ f ∈ found, Echo f e) := by
  have hask := run_ask (s := s) ((hA.translateBrowsePathToNodeId startNode
    (reader.node pChild).specifiedBrowseName s.world).trans hx)
  rcases hnull : x.isNull with _ | _
  · rw [hnull] at h
    obtain ⟨f, hf, hd, hr⟩ := h.resolve_left (by simp)
    have hr' : Reached reader fuel
        { s with world := (client.translateBrowsePathToNodeId startNode
          (reader.node pChild).specifiedBrowseName s.world).2 } x pChild (childIds f) := hr
    obtain ⟨ptr, s', hrun, hsame⟩ := run_reached client hr'
    refine ⟨(true, found ++ [expanded reader x pChild ptr []]), s', ?_, hsame,
      Or.inr ⟨_, rfl, f, hf, ?_, fun y hy => ?_⟩⟩
    · simp only [optionalAndMandatoryTransformToNodeId, Prog.run_catching, Prog.run_bind, hask,
        hnull, Bool.false_eq_true, if_false, hrun]
      rfl
    · rw [hd]
      rfl
    · obtain ⟨hvar, rfl⟩ := childIds_expanded hy
      exact hr.2.2 hvar
  · refine ⟨(false, found), { s with world := (client.translateBrowsePathToNodeId startNode
      (reader.node pChild).specifiedBrowseName s.world).2 }, ?_, fun _ => Iff.rfl, Or.inl rfl⟩
    simp only [optionalAndMandatoryTransformToNodeId, Prog.run_catching, Prog.run_bind, hask, hnull,
      if_true]
    rfl

theorem instanceVariables_append (is js : List (PlaceholderElement Node)) :
    instanceVariables (is ++ js) = instanceVariables is ++ instanceVariables js := by
  induction is with
  | nil => simp [instanceVariables]
  | cons el is ih =>
    obtain ⟨pNode, browseName, typeDefinition⟩ := el
    simp [instanceVariables, ih]

theorem instanceVariables_eq_flatMap (is : List (PlaceholderElement Node)) :
    instanceVariables is = is.flatMap fun el => nodeVariables el.pNode := by
  induction is with
  | nil => simp [instanceVariables]
  | cons el is ih =>
    obtain ⟨pNode, browseName, typeDefinition⟩ := el
    simp [instanceVariables, ih]

/-- The instances of a placeholder subscribe nothing but `ids`. -/
def Within (is : List (PlaceholderElement Node)) (ids : List NodeId) : Prop :=
  ∀ x ∈ (instanceVariables is).map Prod.snd, x ∈ ids

/-- Processing a candidate again. -/
theorem run_settled_candidate (hA : client.AnswersBy A) {fuel : ℕ} {s : Session ω}
    {r : BrowseResult} {ids : List NodeId} {typeDefinition : NodeId}
    (htype : candidateType A r = some typeDefinition)
    (h : ∀ t, reader.typeMap[typeDefinition]? = some t → Reached reader fuel s r.nodeId t ids)
    {is : List (PlaceholderElement Node)} (his : Within is ids) :
    ∃ is' s', (preparePlaceholderNodeTypeId client reader (transformToNodeIds client reader fuel)
        is r).run s = (.ok is', s') ∧ SameReached s' s ∧ Within is' ids := by
  obtain ⟨w, htd⟩ := run_placeholderTypeDefinition hA htype s
  cases ht : reader.typeMap[typeDefinition]? with
  | none =>
    refine ⟨is, { s with world := w }, ?_, fun _ => Iff.rfl, his⟩
    simp only [preparePlaceholderNodeTypeId, Prog.run_bind, htd, ht]
    rfl
  | some t =>
    have hr : Reached reader fuel { s with world := w } r.nodeId t ids := h t ht
    obtain ⟨ptr, s', hrun, hsame⟩ := run_reached client hr
    refine ⟨is ++ [⟨expanded reader r.nodeId t ptr [], r.browseName, typeDefinition⟩], s', ?_,
      hsame, fun x hx => ?_⟩
    · simp only [preparePlaceholderNodeTypeId, Prog.run_bind, htd, ht, hrun]
      rfl
    · rw [instanceVariables_append, List.map_append, List.mem_append] at hx
      rcases hx with hx | hx
      · exact his x hx
      · simp only [instanceVariables, expanded, nodeVariables, childVariables,
          List.append_nil] at hx
        split_ifs at hx with hvar
        · rw [List.map_singleton, List.mem_singleton] at hx
          rw [hx]
          exact hr.2.2 hvar
        · simp at hx

/-- **Processing a placeholder again** finds an echo. -/
theorem run_settled_placeholder (hA : client.AnswersBy A) {fuel : ℕ} {startNode : NodeId}
    {found : List Node} {s : Session ω} {pChild : NodeRef} {browseResults : List BrowseResult}
    (hbrowse : A.browseTyped startNode (reader.node pChild).referenceType
      (reader.node pChild).specifiedTypeNodeId = .ok browseResults) {f : Node} (hf : f ∈ found)
    (hd : f.definition = (reader.node pChild).toNodeDefinition)
    (hrule : (reader.node pChild).modellingRule = .optionalPlaceholder ∨
      (reader.node pChild).modellingRule = .mandatoryPlaceholder)
    (hall : ∀ r ∈ browseResults, ∃ typeDefinition, candidateType A r = some typeDefinition ∧
      ∀ t, reader.typeMap[typeDefinition]? = some t →
        Reached reader fuel s r.nodeId t (childIds f)) :
    ∃ r s', (optionalAndMandatoryPlaceholderTransformToNodeId client reader
        (transformToNodeIds client reader fuel) startNode found pChild).run s = (.ok r, s') ∧
      SameReached s' s ∧ ∃ e, r.2 = found ++ [e] ∧ ∃ f ∈ found, Echo f e := by
  have hask := run_ask (s := s) ((hA.browseWithResultTypeFilter startNode
    (.withReference (reader.node pChild).referenceType) (reader.node pChild).specifiedTypeNodeId
    s.world).trans hbrowse)
  -- the loop over the candidates, from any state with the same nodes reached
  have hloop : ∀ (rs : List BrowseResult), (∀ r ∈ rs, r ∈ browseResults) →
      ∀ (is : List (PlaceholderElement Node)) (s₁ : Session ω), SameReached s₁ s →
        Within is (childIds f) →
        ∃ is' s', (Prog.foldEach (preparePlaceholderNodeTypeId client reader
          (transformToNodeIds client reader fuel)) is rs).run s₁ = (.ok is', s') ∧
            SameReached s' s ∧ Within is' (childIds f) := by
    intro rs
    induction rs with
    | nil => exact fun _ is s₁ hs₁ his => ⟨is, s₁, rfl, hs₁, his⟩
    | cons r rs ih =>
      intro hmem is s₁ hs₁ his
      obtain ⟨typeDefinition, htype, hreached⟩ := hall r (hmem r List.mem_cons_self)
      obtain ⟨is₂, s₂, hrun, hsame, his₂⟩ := run_settled_candidate hA htype
        (s := s₁) (fun t ht => ⟨(hreached t ht).1, (hs₁ _).mpr (hreached t ht).2.1,
          (hreached t ht).2.2⟩) his
      obtain ⟨is', s', hrest, hsame', his'⟩ :=
        ih (fun r' hr' => hmem r' (List.mem_cons_of_mem _ hr')) is₂ s₂
          (fun x => (hsame x).trans (hs₁ x)) his₂
      refine ⟨is', s', ?_, hsame', his'⟩
      rw [Prog.foldEach_cons, Prog.run_bind, hrun]
      exact hrest
  have hstart : SameReached { s with world := (client.browseWithResultTypeFilter startNode
      (.withReference (reader.node pChild).referenceType) (reader.node pChild).specifiedTypeNodeId
      s.world).2 } s := fun _ => Iff.rfl
  obtain ⟨is, s', hrun, hsame, his⟩ := hloop browseResults (fun _ h => h) [] _ hstart
    (by simp [Within, instanceVariables])
  refine ⟨(true, found ++ [.placeholder (reader.node pChild).toNodeDefinition is]), s', ?_, hsame,
    _, rfl, f, hf, ?_, ?_⟩
  · simp only [optionalAndMandatoryPlaceholderTransformToNodeId, browsePlaceholder,
      preparePlaceholderNodesTypeId, Prog.run_catching, Prog.run_bind,
      IDashboardDataClient.browseTyped, hask, hrun]
    rfl
  · rw [hd]
    rfl
  · intro x hx
    rcases hrule with h | h <;>
    · simp only [childIds, childVariables, h, List.append_nil] at hx
      exact his x hx

theorem run_map_snd {p : ClientM ω (Bool × List Node)} {s s' : Session ω}
    {r : Bool × List Node} (h : p.run s = (.ok r, s')) :
    (Prod.snd <$> p).run s = (.ok r.2, s') := by
  have hbind : (Prod.snd <$> p).run s = (p >>= fun r => pure r.2).run s := rfl
  rw [hbind, Prog.run_bind, h]
  rfl

/-- **Processing a child again** reaches nothing new and finds nothing, or an echo. -/
theorem run_settled (hA : client.AnswersBy A) {fuel : ℕ} {startNode : NodeId}
    {found : List Node} {s : Session ω} {pChild : NodeRef}
    (h : Settled A reader fuel startNode found s pChild) :
    ∃ found' s', (transformChild client reader (transformToNodeIds client reader fuel) startNode
        found pChild).run s = (.ok found', s') ∧ SameReached s' s ∧
      (found' = found ∨ ∃ e, found' = found ++ [e] ∧ ∃ f ∈ found, Echo f e) := by
  unfold Settled at h
  unfold transformChild
  cases hrule : (reader.node pChild).modellingRule with
  | none => exact ⟨found, s, rfl, SameReached.refl s, Or.inl rfl⟩
  | optional =>
    rw [hrule] at h
    obtain ⟨x, hx, h⟩ := h
    obtain ⟨r, s', hrun, hsame, hfound⟩ := run_settled_named hA hx h
    exact ⟨r.2, s', run_map_snd hrun, hsame, hfound⟩
  | mandatory =>
    rw [hrule] at h
    obtain ⟨x, hx, h⟩ := h
    obtain ⟨r, s', hrun, hsame, hfound⟩ := run_settled_named hA hx h
    exact ⟨r.2, s', run_map_snd hrun, hsame, hfound⟩
  | optionalPlaceholder =>
    rw [hrule] at h
    obtain ⟨rs, hrs, f, hf, hd, hall⟩ := h
    obtain ⟨r, s', hrun, hsame, hfound⟩ :=
      run_settled_placeholder hA hrs hf hd (Or.inl hrule) hall
    exact ⟨r.2, s', run_map_snd hrun, hsame, Or.inr hfound⟩
  | mandatoryPlaceholder =>
    rw [hrule] at h
    obtain ⟨rs, hrs, f, hf, hd, hall⟩ := h
    obtain ⟨r, s', hrun, hsame, hfound⟩ :=
      run_settled_placeholder hA hrs hf hd (Or.inr hrule) hall
    exact ⟨r.2, s', run_map_snd hrun, hsame, Or.inr hfound⟩

/-! ### The two expansions side by side -/

/-- A candidate of a placeholder was processed: its node is reached, and it is subscribed by the
instances if it is a variable. -/
def Covered (A : Answers) (reader : OpcUaTypeReader) (fuel : ℕ)
    (is : List (PlaceholderElement Node)) (s : Session ω) (r : BrowseResult) : Prop :=
  ∃ td, candidateType A r = some td ∧ ∀ ty, reader.typeMap[td]? = some ty →
    Reached reader fuel s r.nodeId ty ((instanceVariables is).map Prod.snd)

theorem Covered.mono {fuel : ℕ} {is js : List (PlaceholderElement Node)} {s s' : Session ω}
    {r : BrowseResult} (h : Covered A reader fuel is s r) (hsub : ∀ el ∈ is, el ∈ js)
    (hreached : ∀ x, x ∈ s.this.browsedNodes → x ∈ s'.this.browsedNodes) :
    Covered A reader fuel js s' r := by
  obtain ⟨td, htd, hty⟩ := h
  refine ⟨td, htd, fun ty h => ?_⟩
  obtain ⟨hfuel, hn, hids⟩ := hty ty h
  refine ⟨hfuel, hreached _ hn, fun hv => ?_⟩
  have hmem := hids hv
  rw [instanceVariables_eq_flatMap, List.map_flatMap, List.mem_flatMap] at hmem ⊢
  obtain ⟨el, hel, hx⟩ := hmem
  exact ⟨el, hsub el hel, hx⟩

section Alike

variable {ω' : Type} {client' : IDashboardDataClient ω'} (P : ListRef → Bool) (fuel : ℕ)

/-- How the expansions of `n` by `t` end, from a session where the nodes of `s` are reached. -/
def Alike (reader : OpcUaTypeReader) (fuel : ℕ) (n : NodeId) (t : NodeRef) (s : Session ω)
    (node : Node) (s' : Session ω) (node' : Node) (t' : Session ω') : Prop :=
  SameReached s' t' ∧ Same node node' ∧ (∀ x, x ∈ s.this.browsedNodes → x ∈ s'.this.browsedNodes) ∧
    0 < fuel ∧ n ∈ s'.this.browsedNodes ∧
      ∃ ptr childNodes, node = expanded reader n t ptr childNodes

variable (hA : client.AnswersBy A) (hA' : client'.AnswersBy A) (hN : A.NeverFails)
  (ih : ∀ (n : NodeId) (t : NodeRef) (s : Session ω) (s' : Session ω'), SameReached s s' →
    Prog.EndAlike (transformToNodeIds client reader fuel n t) s
      (transformToNodeIds client' (reader.dropRepetitions P) fuel n t) s'
      (Alike reader fuel n t s))

/-- How the loops over the children end, after one more child. -/
def FoundAlike (A : Answers) (reader : OpcUaTypeReader) (fuel : ℕ) (startNode : NodeId)
    (pChild : NodeRef) (found : List Node) (s : Session ω) (r : List Node) (s' : Session ω)
    (r' : List Node) (t' : Session ω') : Prop :=
  SameReached s' t' ∧ SameChildren [] r r' ∧
    (∀ x, x ∈ s.this.browsedNodes → x ∈ s'.this.browsedNodes) ∧ (∀ f ∈ found, f ∈ r) ∧
      Settled A reader fuel startNode r s' pChild

theorem endAlike_ask {α : Type} {g : ω → Except Exception α × ω}
    {g' : ω' → Except Exception α × ω'} {s : Session ω} {t : Session ω'} {a : α}
    (h : (g s.world).1 = .ok a) (h' : (g' t.world).1 = .ok a) :
    Prog.EndAlike (ask g) s (ask g') t fun b s' b' t' =>
      b = a ∧ b' = a ∧ s'.this = s.this ∧ t'.this = t.this :=
  Or.inl ⟨a, _, a, _, run_ask h, run_ask h', rfl, rfl, rfl, rfl⟩

/-- The node itself is subscribed if it is a variable. -/
theorem mem_childIds_expanded {n : NodeId} {t : NodeRef} {ptr : NodePtr} {childNodes : List Node}
    (hrule : (reader.node t).modellingRule = .optional ∨
      (reader.node t).modellingRule = .mandatory)
    (hvar : isMandatoryOrOptionalVariable (reader.node t).toNodeDefinition = true) :
    n ∈ childIds (expanded reader n t ptr childNodes) := by
  rcases hrule with h | h <;>
    simp [childIds, expanded, childVariables, nodeVariables, h, hvar]

include hA hA' hN

theorem endAlike_placeholderTypeDefinition (r : BrowseResult) {s : Session ω} {t : Session ω'} :
    Prog.EndAlike (placeholderTypeDefinition client r) s (placeholderTypeDefinition client' r) t
      fun td s' td' t' => candidateType A r = some td ∧ td = td' ∧ s'.this = s.this ∧
        t'.this = t.this := by
  unfold placeholderTypeDefinition candidateType
  split_ifs
  · obtain ⟨ifs, hifs⟩ := hN.browse r.nodeId .hasInterface
    refine .bind (endAlike_ask ((hA.browse r.nodeId .hasInterface s.world).trans hifs)
      ((hA'.browse r.nodeId .hasInterface t.world).trans hifs)) ?_
    rintro _ s₁ ifs t₁ ⟨rfl, rfl, hs₁, ht₁⟩
    rw [hifs]
    cases ifs with
    | nil => exact Or.inr ⟨.undefined, s₁, t₁, rfl, rfl⟩
    | cons first rest => exact .ret ⟨rfl, rfl, hs₁, ht₁⟩
  · exact .ret ⟨rfl, rfl, rfl, rfl⟩

include ih

theorem endAlike_named {startNode : NodeId} {pChild : NodeRef}
    (hrule : (reader.node pChild).modellingRule = .optional ∨
      (reader.node pChild).modellingRule = .mandatory)
    {found found' : List Node} (hfound : SameChildren [] found found') {s : Session ω}
    {t : Session ω'} (hs : SameReached s t) :
    Prog.EndAlike
      (optionalAndMandatoryTransformToNodeId client reader (transformToNodeIds client reader fuel)
        startNode found pChild) s
      (optionalAndMandatoryTransformToNodeId client' (reader.dropRepetitions P)
        (transformToNodeIds client' (reader.dropRepetitions P) fuel) startNode found' pChild) t
      fun r s' r' t' => FoundAlike A reader fuel startNode pChild found s r.2 s' r'.2 t' := by
  obtain ⟨x, hx⟩ :=
    hN.translateBrowsePathToNodeId startNode (reader.node pChild).specifiedBrowseName
  have hsettled : ∀ {r : List Node} {s' : Session ω}, (x.isNull = true ∨ ∃ f ∈ r,
      f.definition = (reader.node pChild).toNodeDefinition ∧
        Reached reader fuel s' x pChild (childIds f)) →
      Settled A reader fuel startNode r s' pChild := by
    intro r s' h
    unfold Settled
    rcases hrule with hr | hr <;> rw [hr] <;> exact ⟨x, hx, h⟩
  refine .catching (.bind (endAlike_ask
    ((hA.translateBrowsePathToNodeId startNode _ s.world).trans hx)
    ((hA'.translateBrowsePathToNodeId startNode _ t.world).trans hx)) ?_)
  rintro _ s₁ _ t₁ ⟨rfl, rfl, hs₁, ht₁⟩
  have hsame₁ : SameReached s₁ t₁ := by
    intro y
    rw [hs₁, ht₁]
    exact hs y
  split_ifs with hnull
  · refine .ret ⟨hsame₁, hfound, fun y hy => ?_, fun f hf => hf, hsettled (Or.inl hnull)⟩
    rw [hs₁]
    exact hy
  · refine (ih _ pChild s₁ t₁ hsame₁).bind ?_
    rintro node s₂ node' t₂ ⟨hsame, hnode, hmono, hfuel, hreached, ptr, childNodes, rfl⟩
    refine .ret ⟨hsame, hfound.concat hnode, fun y hy => hmono y ?_,
      fun f hf => List.mem_append_left _ hf, hsettled (Or.inr ⟨_, List.mem_append_right _
        (List.mem_singleton_self _), rfl, hfuel, hreached, mem_childIds_expanded hrule⟩)⟩
    rw [hs₁]
    exact hy

/-- One candidate of a placeholder in both expansions. -/
theorem endAlike_candidate (r : BrowseResult) {is is' : List (PlaceholderElement Node)}
    (his : SameInstances is is') {s : Session ω} {t : Session ω'} (hs : SameReached s t) :
    Prog.EndAlike
      (preparePlaceholderNodeTypeId client reader (transformToNodeIds client reader fuel) is r) s
      (preparePlaceholderNodeTypeId client' (reader.dropRepetitions P)
        (transformToNodeIds client' (reader.dropRepetitions P) fuel) is' r) t
      fun js s' js' t' => SameReached s' t' ∧ SameInstances js js' ∧
        (∀ x, x ∈ s.this.browsedNodes → x ∈ s'.this.browsedNodes) ∧ (∀ el ∈ is, el ∈ js) ∧
        Covered A reader fuel js s' r := by
  refine (endAlike_placeholderTypeDefinition hA hA' hN r).bind ?_
  rintro td s₁ _ t₁ ⟨htd, rfl, hs₁, ht₁⟩
  have hsame₁ : SameReached s₁ t₁ := by
    intro y
    rw [hs₁, ht₁]
    exact hs y
  have hmap : (reader.dropRepetitions P).typeMap = reader.typeMap := rfl
  rw [hmap]
  cases hty : reader.typeMap[td]? with
  | none =>
    refine .ret ⟨hsame₁, his, fun y hy => ?_, fun el hel => hel, td, htd, fun ty h => ?_⟩
    · rw [hs₁]
      exact hy
    · rw [hty] at h
      cases h
  | some ty =>
    refine (ih r.nodeId ty s₁ t₁ hsame₁).bind ?_
    rintro node s₂ node' t₂ ⟨hsame, hnode, hmono, hfuel, hreached, ptr, childNodes, rfl⟩
    refine .ret ⟨hsame, his.concat rfl hnode _ _, fun y hy => hmono y ?_,
      fun el hel => List.mem_append_left _ hel, td, htd,
      fun ty' h => ⟨hfuel, hreached, fun hv => ?_⟩⟩
    · rw [hs₁]
      exact hy
    · obtain rfl : ty = ty' := Option.some.inj (hty.symm.trans h)
      rw [instanceVariables_append]
      simp [instanceVariables, expanded, nodeVariables, hv]

/-- A placeholder in both expansions. -/
theorem endAlike_placeholder {startNode : NodeId} {pChild : NodeRef}
    (hrule : (reader.node pChild).modellingRule = .optionalPlaceholder ∨
      (reader.node pChild).modellingRule = .mandatoryPlaceholder)
    {found found' : List Node} (hfound : SameChildren [] found found') {s : Session ω}
    {t : Session ω'} (hs : SameReached s t) :
    Prog.EndAlike
      (optionalAndMandatoryPlaceholderTransformToNodeId client reader
        (transformToNodeIds client reader fuel) startNode found pChild) s
      (optionalAndMandatoryPlaceholderTransformToNodeId client' (reader.dropRepetitions P)
        (transformToNodeIds client' (reader.dropRepetitions P) fuel) startNode found' pChild) t
      fun r s' r' t' => FoundAlike A reader fuel startNode pChild found s r.2 s' r'.2 t' := by
  obtain ⟨browseResults, hbrowse⟩ := hN.browseWithResultTypeFilter startNode
    (.withReference (reader.node pChild).referenceType) (reader.node pChild).specifiedTypeNodeId
  have hloop : ∀ {s₁ : Session ω} {t₁ : Session ω'}, SameReached s₁ t₁ →
      Prog.EndAlike
        (preparePlaceholderNodesTypeId client reader (transformToNodeIds client reader fuel)
          browseResults) s₁
        (preparePlaceholderNodesTypeId client' (reader.dropRepetitions P)
          (transformToNodeIds client' (reader.dropRepetitions P) fuel) browseResults) t₁
        fun is s' is' t' => SameReached s' t' ∧ SameInstances is is' ∧
          (∀ x, x ∈ s₁.this.browsedNodes → x ∈ s'.this.browsedNodes) ∧
            ∀ r ∈ browseResults, Covered A reader fuel is s' r := by
    intro s₁ t₁ hs₁
    refine (Prog.EndAlike.foldEach (fun rs is s' is' t' => SameReached s' t' ∧
      SameInstances is is' ∧ (∀ x, x ∈ s₁.this.browsedNodes → x ∈ s'.this.browsedNodes) ∧
        ∀ r ∈ browseResults, r ∈ rs ∨ Covered A reader fuel is s' r) ?_ browseResults
      ⟨hs₁, by simp [SameInstances], fun _ h => h, fun r hr => Or.inl hr⟩).mono ?_
    · rintro r rs is s' is' t' ⟨hsame, his, hmono, hall⟩
      refine (endAlike_candidate P fuel hA hA' hN ih r his hsame).mono ?_
      rintro js s₂ js' t₂ ⟨hsame₂, hjs, hmono₂, hsub, hcovered⟩
      refine ⟨hsame₂, hjs, fun x hx => hmono₂ x (hmono x hx), fun r' hr' => ?_⟩
      rcases hall r' hr' with hmem | hr'
      · rcases List.mem_cons.mp hmem with rfl | hmem
        · exact Or.inr hcovered
        · exact Or.inl hmem
      · exact Or.inr (hr'.mono hsub hmono₂)
    · rintro is s' is' t' ⟨hsame, his, hmono, hall⟩
      exact ⟨hsame, his, hmono, fun r hr => (hall r hr).resolve_left List.not_mem_nil⟩
  have hbrowsed : Prog.EndAlike
      (browsePlaceholder client reader (transformToNodeIds client reader fuel) startNode pChild) s
      (browsePlaceholder client' (reader.dropRepetitions P)
        (transformToNodeIds client' (reader.dropRepetitions P) fuel) startNode pChild) t
      fun node s' node' t' => SameReached s' t' ∧ Same node node' ∧
        (∀ x, x ∈ s.this.browsedNodes → x ∈ s'.this.browsedNodes) ∧
          ∃ is, node = .placeholder (reader.node pChild).toNodeDefinition is ∧
            ∀ r ∈ browseResults, Covered A reader fuel is s' r := by
    refine .bind (endAlike_ask
      ((hA.browseWithResultTypeFilter startNode _ _ s.world).trans hbrowse)
      ((hA'.browseWithResultTypeFilter startNode _ _ t.world).trans hbrowse)) ?_
    rintro _ s₁ _ t₁ ⟨rfl, rfl, hs₁, ht₁⟩
    have hsame₁ : SameReached s₁ t₁ := by
      intro y
      rw [hs₁, ht₁]
      exact hs y
    refine (hloop hsame₁).bind ?_
    rintro is s₂ is' t₂ ⟨hsame, his, hmono, hall⟩
    refine .ret ⟨hsame, ?_, fun y hy => hmono y ?_, is, rfl, hall⟩
    · simp only [Same]
      exact ⟨is', rfl, his⟩
    · rw [hs₁]
      exact hy
  refine .catching (hbrowsed.bind ?_)
  rintro _ s₁ node' t₁ ⟨hsame, hnode, hmono, is, rfl, hall⟩
  refine .ret ⟨hsame, hfound.concat hnode, hmono, fun f hf => List.mem_append_left _ hf, ?_⟩
  -- the placeholder found subscribes what its instances subscribe
  have hids : childIds (.placeholder (reader.node pChild).toNodeDefinition is) =
      (instanceVariables is).map Prod.snd := by
    rcases hrule with h | h <;> simp [childIds, childVariables, h]
  unfold Settled
  rcases hrule with h | h <;>
  · rw [h]
    refine ⟨browseResults, hbrowse, _, List.mem_append_right _ (List.mem_singleton_self _), rfl,
      fun r hr => ?_⟩
    rw [hids]
    exact hall r hr

/-- **One child in both expansions.** -/
theorem endAlike_transformChild {startNode : NodeId} {pChild : NodeRef}
    {found found' : List Node} (hfound : SameChildren [] found found') {s : Session ω}
    {t : Session ω'} (hs : SameReached s t) :
    Prog.EndAlike
      (transformChild client reader (transformToNodeIds client reader fuel) startNode found
        pChild) s
      (transformChild client' (reader.dropRepetitions P)
        (transformToNodeIds client' (reader.dropRepetitions P) fuel) startNode found' pChild) t
      (FoundAlike A reader fuel startNode pChild found s) := by
  have hnode : (reader.dropRepetitions P).node pChild = reader.node pChild := rfl
  unfold transformChild
  rw [hnode]
  cases hrule : (reader.node pChild).modellingRule with
  | none =>
    refine .ret ⟨hs, hfound, fun _ h => h, fun _ h => h, ?_⟩
    unfold Settled
    rw [hrule]
    trivial
  | optional => exact .map (endAlike_named P fuel hA hA' hN ih (Or.inl hrule) hfound hs)
  | mandatory => exact .map (endAlike_named P fuel hA hA' hN ih (Or.inr hrule) hfound hs)
  | optionalPlaceholder =>
    exact .map (endAlike_placeholder P fuel hA hA' hN ih (Or.inl hrule) hfound hs)
  | mandatoryPlaceholder =>
    exact .map (endAlike_placeholder P fuel hA hA' hN ih (Or.inr hrule) hfound hs)

/-- **The loop over the children**: an occurrence that is left out on the second side finds nothing
new on the first one. -/
theorem endAlike_children {startNode : NodeId} : ∀ (ns seen ms : List NodeRef),
    Thinned seen ns ms → ∀ {found found' : List Node} {s : Session ω} {t : Session ω'},
    SameChildren [] found found' → SameReached s t →
    (∀ c ∈ seen, Settled A reader fuel startNode found s c) →
    Prog.EndAlike
      (Prog.foldEach (transformChild client reader (transformToNodeIds client reader fuel)
        startNode) found ns) s
      (Prog.foldEach (transformChild client' (reader.dropRepetitions P)
        (transformToNodeIds client' (reader.dropRepetitions P) fuel) startNode) found' ms) t
      fun r s' r' t' => SameReached s' t' ∧ SameChildren [] r r'
  | [], _, ms, hthin, _, _, _, _, hfound, hs, _ => by
    simp only [Thinned] at hthin
    subst hthin
    exact .ret ⟨hs, hfound⟩
  | n :: ns, seen, ms, hthin, found, found', s, t, hfound, hs, hseen => by
    simp only [Thinned] at hthin
    rcases hthin with ⟨ms', rfl, hthin⟩ | ⟨hn, hthin⟩
    · refine (endAlike_transformChild P fuel hA hA' hN ih hfound hs).bind ?_
      rintro r s₁ r' t₁ ⟨hsame, hr, hmono, hsub, hsettled⟩
      refine endAlike_children ns (seen ++ [n]) ms' hthin hr hsame fun c hc => ?_
      rcases List.mem_append.mp hc with hc | hc
      · exact (hseen c hc).mono hsub hmono
      · rw [List.mem_singleton] at hc
        rw [hc]
        exact hsettled
    · obtain ⟨r, s₁, hrun, hreached, hr⟩ := run_settled hA (hseen n hn)
      refine Prog.EndAlike.bind_left hrun ?_
      have hsame : SameReached s₁ t := fun x => (hreached x).trans (hs x)
      have hsub : ∀ f ∈ found, f ∈ r := by
        rcases hr with rfl | ⟨e, rfl, -⟩
        · exact fun f hf => hf
        · exact fun f hf => List.mem_append_left _ hf
      have hfound₁ : SameChildren [] r found' := by
        rcases hr with rfl | ⟨e, rfl, f, hf, hecho⟩
        · exact hfound
        · exact hfound.echo hecho (by simpa using hf)
      exact endAlike_children ns seen ms hthin hfound₁ hsame fun c hc =>
        (hseen c hc).mono hsub fun x hx => (hreached x).mpr hx

end Alike

/-- **The expansions by a type with repetitions and by the type without them** go side by side. -/
theorem same_transformToNodeIds {ω' : Type} {client' : IDashboardDataClient ω'}
    (hA : client.AnswersBy A) (hA' : client'.AnswersBy A) (hN : A.NeverFails)
    (P : ListRef → Bool) : ∀ (fuel : ℕ) (n : NodeId) (t : NodeRef) (s : Session ω)
    (s' : Session ω'), SameReached s s' →
    Prog.EndAlike (transformToNodeIds client reader fuel n t) s
      (transformToNodeIds client' (reader.dropRepetitions P) fuel n t) s'
      (Alike reader fuel n t s)
  | 0, _, _, _, _, _ => .stuck
  | fuel + 1, n, t, s, s', hs => by
    have ih := same_transformToNodeIds hA hA' hN P fuel
    have hinsert : Prog.EndAlike (insertBrowsed n : ClientM ω Bool) s
        (insertBrowsed n : ClientM ω' Bool) s' fun b s₁ b' s₁' => b = b' ∧ SameReached s₁ s₁' := by
      refine Or.inl ⟨_, _, _, _, rfl, rfl, ?_, fun x => ?_⟩
      · have hcontains : s.this.browsedNodes.contains n = s'.this.browsedNodes.contains n := by
          rw [Bool.eq_iff_iff, Std.ExtTreeSet.contains_iff_mem, Std.ExtTreeSet.contains_iff_mem]
          exact hs n
        rw [hcontains]
      · rw [Std.ExtTreeSet.mem_insert, Std.ExtTreeSet.mem_insert]
        exact or_congr_right (hs x)
    have hrun : Prog.EndAlike (transformToNodeIds client reader (fuel + 1) n t) s
        (transformToNodeIds client' (reader.dropRepetitions P) (fuel + 1) n t) s'
        fun node s₁ node' s₁' => SameReached s₁ s₁' ∧ Same node node' := by
      refine hinsert.bind ?_
      rintro isNew s₁ _ s₁' ⟨rfl, hs₁⟩
      refine Prog.EndAlike.bind (Q := fun found s₂ found' s₂' => SameReached s₂ s₂' ∧
        SameChildren [] found found') ?_ ?_
      · split_ifs
        · refine (endAlike_children P fuel hA hA' hN ih _ [] _ (reader.thinned_children P t)
            (by simp [SameChildren]) hs₁ fun c hc => absurd hc List.not_mem_nil).bind ?_
          rintro found s₂ found' s₂' ⟨hs₂, hfound⟩
          exact Or.inl ⟨_, _, _, _, rfl, rfl, hs₂, hfound⟩
        · exact .ret ⟨hs₁, by simp [SameChildren]⟩
      · rintro found s₂ found' s₂' ⟨hs₂, hfound⟩
        refine Or.inl ⟨_, _, _, _, rfl, rfl, hs₂, ?_⟩
        simp only [Same]
        exact ⟨_, _, rfl, hfound⟩
    -- what is reached stays reached, and the node that was expanded is
    have hmono : ∀ (node : Node) (s₁ : Session ω),
        (transformToNodeIds client reader (fuel + 1) n t).run s = (.ok node, s₁) →
        ∀ x, x ∈ s.this.browsedNodes → x ∈ s₁.this.browsedNodes := by
      intro node s₁ hok x hx
      have hkept := (keeps_reached client reader x (fuel + 1) n t s hx).1
      rwa [hok] at hkept
    have hexpanded : ∀ (node : Node) (s₁ : Session ω),
        (transformToNodeIds client reader (fuel + 1) n t).run s = (.ok node, s₁) →
        n ∈ s₁.this.browsedNodes ∧
          ∃ ptr childNodes, node = expanded reader n t ptr childNodes := by
      intro node s₁ hok
      have hleaves := (leaves_expanded client reader (fuel + 1) n t s).2
      rw [hok] at hleaves
      exact hleaves node rfl
    refine ((hrun.and_left hmono).and_left hexpanded).mono ?_
    rintro node s₁ node' s₁' ⟨⟨⟨hsame, hnode⟩, hreached⟩, hn, hform⟩
    exact ⟨hsame, hnode, hreached, Nat.succ_pos fuel, hn, hform⟩

end DashboardClient

end UmatiDashboard
