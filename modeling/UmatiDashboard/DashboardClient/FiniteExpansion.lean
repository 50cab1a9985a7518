import Mathlib.Data.Finset.Filter
import Mathlib.Data.Finset.Card
import UmatiDashboard.DataClient.Answers
import UmatiDashboard.DashboardClient.Expansion
import UmatiDashboard.DashboardClient.Fuel
import UmatiDashboard.Effect.Settles

/-!
# Expanding an instance on a finite server

Neither the types nor the nodes get smaller along an expansion: children share their lists, and
references run in circles. What gets smaller is the number of nodes that are not reached yet. A
node is entered into `browsedNodes` before its children are expanded, and it stays there whatever
is thrown and caught below; so no more levels are open at a time than the server has nodes
(`expansion_terminates`). For the same reason the children of a node are **asked for** in one pass
over the child list of one type at most, and what is found for them is what the server answered.
-/

namespace UmatiDashboard

/-! ### Questions about the children of a node -/

/-- What is asked about a child: a browse name that is to be translated, or the context and type of
a Browse for a placeholder. -/
abbrev Question : Type := QualifiedName ⊕ (BrowseContext × NodeId)

/-- The question about a child of the node that a call asks. -/
def ClientCall.question (n : NodeId) : ClientCall → Option Question
  | .translateBrowsePathToNodeId m q _ => if m = n then some (.inl q) else none
  | .browseWithResultTypeFilter m ctx t _ => if m = n then some (.inr (ctx, t)) else none
  | _ => none

/-- The questions about the children of a node, in the order of the calls. -/
def asked (n : NodeId) (calls : List ClientCall) : List Question :=
  calls.filterMap (ClientCall.question n)

namespace OpcUaTypeReader

variable (reader : OpcUaTypeReader)

/-- The question about a child of a type. -/
def question (pChild : NodeRef) : Option Question :=
  match (reader.node pChild).modellingRule with
  | .optional | .mandatory => some (.inl (reader.node pChild).specifiedBrowseName)
  | .optionalPlaceholder | .mandatoryPlaceholder =>
    some (.inr (.withReference (reader.node pChild).referenceType,
      (reader.node pChild).specifiedTypeNodeId))
  | .none => none

/-- The questions of one pass over the children of a type. -/
def questions (pTypeDefinition : NodeRef) : List Question :=
  (reader.heap.children pTypeDefinition).filterMap reader.question

end OpcUaTypeReader

namespace DashboardClient

open Node

variable {ω : Type}

/-! ### Trees that the server's answers bear out -/

mutual

/-- The children below a node are those that the server has answered for it. -/
def BornOut (calls : List ClientCall) (parent : NodeId) : List Node → Prop
  | [] => True
  | n :: rest => ChildBornOut calls parent n ∧ BornOut calls parent rest

/-- A named child has the identifier that its browse name was translated to. -/
def ChildBornOut (calls : List ClientCall) (parent : NodeId) : Node → Prop
  | .simple d _ nodeId _ _ childNodes =>
    .translateBrowsePathToNodeId parent d.specifiedBrowseName (.ok nodeId) ∈ calls ∧
      BornOut calls nodeId childNodes
  | .placeholder d instances => InstancesBornOut calls parent d instances

/-- An instance has the identifier and the browse name of a result of the placeholder's Browse. -/
def InstancesBornOut (calls : List ClientCall) (parent : NodeId) (d : NodeDefinition) :
    List (PlaceholderElement Node) → Prop
  | [] => True
  | ⟨pNode, browseName, _⟩ :: rest =>
    InstanceBornOut calls parent d browseName pNode ∧ InstancesBornOut calls parent d rest

def InstanceBornOut (calls : List ClientCall) (parent : NodeId) (d : NodeDefinition)
    (browseName : QualifiedName) : Node → Prop
  | .simple _ _ nodeId _ _ childNodes =>
    (∃ results, ∃ r ∈ results, .browseWithResultTypeFilter parent (.withReference d.referenceType)
        d.specifiedTypeNodeId (.ok results) ∈ calls ∧ r.nodeId = nodeId ∧
        r.browseName = browseName) ∧
      BornOut calls nodeId childNodes
  | .placeholder .. => False

end

mutual

/-- Later calls change nothing. -/
theorem BornOut.mono {calls calls' : List ClientCall} (hle : calls ⊆ calls') {parent : NodeId} :
    ∀ {ns : List Node}, BornOut calls parent ns → BornOut calls' parent ns
  | [], _ => trivial
  | _ :: _, h => ⟨ChildBornOut.mono hle h.1, BornOut.mono hle h.2⟩

theorem ChildBornOut.mono {calls calls' : List ClientCall} (hle : calls ⊆ calls')
    {parent : NodeId} : ∀ {n : Node}, ChildBornOut calls parent n → ChildBornOut calls' parent n
  | .simple .., h => ⟨hle h.1, BornOut.mono hle h.2⟩
  | .placeholder .., h => InstancesBornOut.mono hle h

theorem InstancesBornOut.mono {calls calls' : List ClientCall} (hle : calls ⊆ calls')
    {parent : NodeId} {d : NodeDefinition} : ∀ {instances : List (PlaceholderElement Node)},
      InstancesBornOut calls parent d instances → InstancesBornOut calls' parent d instances
  | [], _ => trivial
  | ⟨_, _, _⟩ :: _, h => ⟨InstanceBornOut.mono hle h.1, InstancesBornOut.mono hle h.2⟩

theorem InstanceBornOut.mono {calls calls' : List ClientCall} (hle : calls ⊆ calls')
    {parent : NodeId} {d : NodeDefinition} {browseName : QualifiedName} :
    ∀ {n : Node}, InstanceBornOut calls parent d browseName n →
      InstanceBornOut calls' parent d browseName n
  | .simple .., h => by
    obtain ⟨results, r, hr, hcall, hresult⟩ := h.1
    exact ⟨⟨results, r, hr, hle hcall, hresult⟩, BornOut.mono hle h.2⟩
  | .placeholder .., h => h

end

theorem BornOut.concat {calls : List ClientCall} {parent : NodeId} {n : Node} :
    ∀ {ns : List Node}, BornOut calls parent ns → ChildBornOut calls parent n →
      BornOut calls parent (ns ++ [n])
  | [], _, hn => ⟨hn, trivial⟩
  | _ :: _, h, hn => ⟨h.1, BornOut.concat h.2 hn⟩

theorem InstancesBornOut.concat {calls : List ClientCall} {parent : NodeId} {d : NodeDefinition}
    {pNode : Node} {browseName : QualifiedName} {typeDefinition : NodeId} :
    ∀ {instances : List (PlaceholderElement Node)}, InstancesBornOut calls parent d instances →
      InstanceBornOut calls parent d browseName pNode →
      InstancesBornOut calls parent d (instances ++ [⟨pNode, browseName, typeDefinition⟩])
  | [], _, hn => ⟨hn, trivial⟩
  | ⟨_, _, _⟩ :: _, h, hn => ⟨h.1, InstancesBornOut.concat h.2 hn⟩

/-! ### Progress of an expansion -/

/-- The client's members after a call that is recorded. -/
def Session.record (s : Session (Recorded ω)) (c : ClientCall) (w : ω) : Session (Recorded ω) :=
  { s with world := ⟨w, s.world.calls ++ [c]⟩ }

/-- The questions about the children of `n` that a session has asked. -/
def Session.asked (s : Session (Recorded ω)) (n : NodeId) : List Question :=
  UmatiDashboard.asked n s.world.calls

theorem asked_record (s : Session (Recorded ω)) (c : ClientCall) (w : ω) (n : NodeId) :
    (s.record c w).asked n = s.asked n ++ (c.question n).toList := by
  have hone : asked n [c] = (c.question n).toList := by
    simp only [UmatiDashboard.asked, List.filterMap_cons, List.filterMap_nil]
    cases c.question n with
    | none => rfl
    | some q => rfl
  rw [Session.asked, Session.asked, ← hone]
  exact List.filterMap_append

variable (reader : OpcUaTypeReader) {s s' s'' : Session (Recorded ω)}

/-- The children of a node that was reached are not asked for again; those of any other node are
asked for in one pass over a type at most, and only if the node is reached. -/
structure AsksOnce (n : NodeId) (s s' : Session (Recorded ω)) : Prop where
  reached : n ∈ s.this.browsedNodes → s'.asked n = s.asked n
  fresh : n ∉ s.this.browsedNodes → s.asked n = [] →
    (∃ t, s'.asked n <+: reader.questions t) ∧ (n ∉ s'.this.browsedNodes → s'.asked n = [])

/-- The nodes and the calls of a session remain. -/
structure Extends (s s' : Session (Recorded ω)) : Prop where
  calls : s.world.calls <+: s'.world.calls
  browsedNodes : ∀ n, n ∈ s.this.browsedNodes → n ∈ s'.this.browsedNodes

/-- What an expansion does to the record. -/
structure Progress (s s' : Session (Recorded ω)) : Prop extends Extends s s' where
  asksOnce : ∀ n, AsksOnce reader n s s'

/-- What the expansion of a child does to the record, as seen from the node `own` whose child it
is: the questions `l` are asked about the children of this node. -/
structure ChildProgress (own : NodeId) (l : List Question) (s s' : Session (Recorded ω)) :
    Prop extends Extends s s' where
  asks : s'.asked own = s.asked own ++ l
  asksOnce : ∀ n, n ≠ own → AsksOnce reader n s s'

variable {reader} {own : NodeId} {l l' : List Question}

theorem Extends.refl (s : Session (Recorded ω)) : Extends s s := ⟨List.prefix_rfl, fun _ h => h⟩

theorem Extends.trans (h : Extends s s') (h' : Extends s' s'') : Extends s s'' :=
  ⟨h.calls.trans h'.calls, fun n hn => h'.browsedNodes n (h.browsedNodes n hn)⟩

theorem AsksOnce.refl (n : NodeId) (s : Session (Recorded ω)) : AsksOnce reader n s s := by
  refine ⟨fun _ => rfl, fun _ hnone => ⟨⟨0, ?_⟩, fun _ => hnone⟩⟩
  rw [hnone]
  exact List.nil_prefix

theorem AsksOnce.trans {n : NodeId} (hle : Extends s s') (hle' : Extends s' s'')
    (h : AsksOnce reader n s s') (h' : AsksOnce reader n s' s'') : AsksOnce reader n s s'' := by
  refine ⟨fun hn => ?_, fun hn hnone => ?_⟩
  · rw [h'.reached (hle.browsedNodes n hn), h.reached hn]
  · by_cases hn' : n ∈ s'.this.browsedNodes
    · -- reached by the first part, so the second one does not ask
      rw [h'.reached hn']
      exact ⟨(h.fresh hn hnone).1, fun hn'' => absurd (hle'.browsedNodes n hn') hn''⟩
    · exact h'.fresh hn' ((h.fresh hn hnone).2 hn')

/-- What neither calls the server nor reaches a node is no progress. -/
theorem Progress.of_same (hcalls : s'.world.calls = s.world.calls)
    (hbrowsed : ∀ n, n ∈ s'.this.browsedNodes ↔ n ∈ s.this.browsedNodes) :
    Progress reader s s' := by
  have hasked : ∀ n, s'.asked n = s.asked n := fun n => by
    rw [Session.asked, Session.asked, hcalls]
  refine ⟨⟨hcalls ▸ List.prefix_rfl, fun n hn => (hbrowsed n).mpr hn⟩, fun n => ?_⟩
  have hrefl : AsksOnce reader n s s := .refl n s
  refine ⟨fun _ => hasked n, fun hn hnone => ?_⟩
  rw [hasked, hbrowsed]
  exact hrefl.fresh hn hnone

theorem Progress.trans (h : Progress reader s s') (h' : Progress reader s' s'') :
    Progress reader s s'' :=
  ⟨h.toExtends.trans h'.toExtends,
    fun n => (h.asksOnce n).trans h.toExtends h'.toExtends (h'.asksOnce n)⟩

theorem ChildProgress.refl (s : Session (Recorded ω)) : ChildProgress reader own [] s s :=
  ⟨.refl s, by simp, fun n _ => .refl n s⟩

theorem ChildProgress.trans (h : ChildProgress reader own l s s')
    (h' : ChildProgress reader own l' s' s'') : ChildProgress reader own (l ++ l') s s'' := by
  refine ⟨h.toExtends.trans h'.toExtends, ?_, fun n hn => ?_⟩
  · rw [h'.asks, h.asks, List.append_assoc]
  · exact (h.asksOnce n hn).trans h.toExtends h'.toExtends (h'.asksOnce n hn)

/-- A further part that asks nothing about the node. -/
theorem ChildProgress.trans_nil (h : ChildProgress reader own l s s')
    (h' : ChildProgress reader own [] s' s'') : ChildProgress reader own l s s'' := by
  have := h.trans h'
  rwa [List.append_nil] at this

/-- **The expansion of another node** asks nothing about a node that was reached. -/
theorem Progress.child (h : Progress reader s s') (hown : own ∈ s.this.browsedNodes) :
    ChildProgress reader own [] s s' := by
  refine ⟨h.toExtends, ?_, fun n _ => h.asksOnce n⟩
  rw [(h.asksOnce own).reached hown, List.append_nil]

/-- A call that asks nothing about a node. -/
theorem AsksOnce.record {n : NodeId} {c : ClientCall} (w : ω) (hc : c.question n = none) :
    AsksOnce reader n s (s.record c w) := by
  have hsame : (s.record c w).asked n = s.asked n := by
    rw [asked_record, hc, Option.toList_none, List.append_nil]
  have hrefl : AsksOnce reader n s s := .refl n s
  refine ⟨fun _ => hsame, fun hn hnone => ?_⟩
  rw [hsame]
  exact hrefl.fresh hn hnone

theorem Progress.record {c : ClientCall} (w : ω) (hc : ∀ n, c.question n = none) :
    Progress reader s (s.record c w) :=
  ⟨⟨List.prefix_append _ _, fun _ h => h⟩, fun n => .record w (hc n)⟩

/-- A question about a child of the node. -/
theorem ChildProgress.record {c : ClientCall} {q : Question} (w : ω)
    (hown : c.question own = some q) (hc : ∀ n, n ≠ own → c.question n = none) :
    ChildProgress reader own [q] s (s.record c w) := by
  refine ⟨⟨List.prefix_append _ _, fun _ h => h⟩, ?_, fun n hn => .record w (hc n hn)⟩
  rw [asked_record, hown, Option.toList_some]

/-- **A new node** is reached before its children are asked for. -/
theorem ChildProgress.reach {t : NodeRef} {s₁ : Session (Recorded ω)}
    (h : ChildProgress reader own l s₁ s') (hnew : own ∉ s.this.browsedNodes)
    (hcalls : s₁.world.calls = s.world.calls)
    (hbrowsed : s₁.this.browsedNodes = s.this.browsedNodes.insert own)
    (hl : l <+: reader.questions t) :
    Progress reader s s' := by
  have hasked : ∀ n, s₁.asked n = s.asked n := fun n => by
    rw [Session.asked, Session.asked, hcalls]
  have hmem : ∀ n : NodeId, n ≠ own → (n ∈ s₁.this.browsedNodes ↔ n ∈ s.this.browsedNodes) := by
    intro n hn
    rw [hbrowsed, Std.ExtTreeSet.mem_insert, Std.LawfulEqCmp.compare_eq_iff_eq]
    exact ⟨fun h => h.resolve_left fun heq => hn heq.symm, Or.inr⟩
  have hself : own ∈ s₁.this.browsedNodes := by
    rw [hbrowsed]
    exact Std.ExtTreeSet.mem_insert_self
  refine ⟨⟨hcalls ▸ h.calls, fun n hn => h.browsedNodes n ?_⟩, fun n => ?_⟩
  · rw [hbrowsed]
    exact Std.ExtTreeSet.mem_insert.mpr (Or.inr hn)
  · by_cases hn : n = own
    · subst hn
      refine ⟨fun hn => absurd hn hnew, fun _ hnone => ?_⟩
      have hasks : s'.asked n = l := by rw [h.asks, hasked, hnone, List.nil_append]
      rw [hasks]
      exact ⟨⟨t, hl⟩, fun hn' => absurd (h.browsedNodes n hself) hn'⟩
    · have honce := h.asksOnce n hn
      refine ⟨fun hn' => ?_, fun hn' hnone => ?_⟩
      · rw [honce.reached ((hmem n hn).mpr hn'), hasked]
      · exact honce.fresh (fun h => hn' ((hmem n hn).mp h)) (by rw [hasked, hnone])

/-! ### The nodes that are not reached yet -/

/-- How many nodes of the server a session has not reached. -/
def unreached (U : Finset NodeId) (s : Session (Recorded ω)) : ℕ :=
  (U.filter fun n => n ∉ s.this.browsedNodes).card

/-- The calls since the first `k`. -/
def Session.since (s : Session (Recorded ω)) (k : ℕ) : List ClientCall := s.world.calls.drop k

/-- Every node that is given out as a child is a node of `U`. -/
structure AnswersIn (client : IDashboardDataClient ω) (U : Finset NodeId) : Prop where
  translate : ∀ n q w x, (client.translateBrowsePathToNodeId n q w).1 = .ok x →
    x.isNull = false → x ∈ U
  browse : ∀ n ctx t w l, (client.browseWithResultTypeFilter n ctx t w).1 = .ok l →
    ∀ r ∈ l, r.nodeId ∈ U

/-- A session that fewer levels than `fuel` can be opened in, and that has made `k` calls. -/
structure Ready (U : Finset NodeId) (fuel k : ℕ) (s : Session (Recorded ω)) : Prop where
  unreached : unreached U s < fuel
  calls : k ≤ s.world.calls.length

/-- The one way to get stuck: the first of no interfaces is accessed. -/
def NoInterface (k : ℕ) (w : Stuck) (s : Session (Recorded ω)) : Prop :=
  w = .undefined ∧ ∃ m, ClientCall.browse m .hasInterface (.ok []) ∈ s.since k

section Measure

variable {U : Finset NodeId} {fuel k : ℕ}

theorem unreached_le (h : Extends s s') : unreached U s' ≤ unreached U s := by
  refine Finset.card_le_card fun n hn => ?_
  rw [Finset.mem_filter] at hn ⊢
  exact ⟨hn.1, fun hn' => hn.2 (h.browsedNodes n hn')⟩

/-- **The measure**: a node of the server that is reached is one less to come. -/
theorem unreached_lt (hown : own ∈ U) (hnew : own ∉ s.this.browsedNodes)
    (hself : own ∈ s'.this.browsedNodes)
    (hle : ∀ n, n ∈ s.this.browsedNodes → n ∈ s'.this.browsedNodes) :
    unreached U s' < unreached U s := by
  refine Finset.card_lt_card ((Finset.ssubset_iff_of_subset fun n hn => ?_).mpr ⟨own, ?_, ?_⟩)
  · rw [Finset.mem_filter] at hn ⊢
    exact ⟨hn.1, fun hn' => hn.2 (hle n hn')⟩
  · exact Finset.mem_filter.mpr ⟨hown, hnew⟩
  · exact fun h => (Finset.mem_filter.mp h).2 hself

theorem Ready.extend (hready : Ready U fuel k s) (h : Extends s s') : Ready U fuel k s' :=
  ⟨Nat.lt_of_le_of_lt (unreached_le h) hready.unreached, hready.calls.trans h.calls.length_le⟩

theorem since_subset (h : Extends s s') : s.since k ⊆ s'.since k :=
  (h.calls.drop k).subset

theorem mem_since_record (hk : k ≤ s.world.calls.length) (c : ClientCall) (w : ω) :
    c ∈ (s.record c w).since k := by
  rw [Session.since, Session.record, List.drop_append_of_le_length hk]
  exact List.mem_append_right _ List.mem_cons_self

end Measure

/-! ### One child -/

/-- **A recorded call** answers, and leaves its record. -/
theorem settles_ask_recorded {α : Type} {record : Except Exception α → ClientCall}
    {g : ω → Except Exception α × ω} {J : Session (Recorded ω) → Prop}
    {W : Stuck → Session (Recorded ω) → Prop} {Q : α → Session (Recorded ω) → Prop}
    (hJ : J (s.record (record (g s.world.state).1) (g s.world.state).2))
    (hQ : ∀ a, (g s.world.state).1 = .ok a →
      Q a (s.record (record (.ok a)) (g s.world.state).2)) :
    (ask (Recorded.call record g)).Settles s J W Q := by
  have hends : (ask (Recorded.call record g)).Ends s fun out s' => J s' ∧
      (∀ a, out = .ok a → Q a s') ∧ ∀ w, out = .stuck w → W w s' := by
    rw [ask, Prog.ends_zoom, Prog.ends_call]
    constructor
    · intro a w h
      obtain ⟨ha, rfl⟩ := Prod.mk.inj h
      refine ⟨hJ, fun a' ha' => ?_, fun w' hw' => by cases hw'⟩
      obtain rfl := Outcome.ok.inj ha'
      have hQ := hQ a ha
      rwa [← ha] at hQ
    · intro e w h
      obtain ⟨-, rfl⟩ := Prod.mk.inj h
      exact ⟨hJ, fun a ha => (by cases ha), fun w' hw' => by cases hw'⟩
  exact ⟨hends.mono fun _ _ h => ⟨h.1, h.2.1⟩, hends.mono fun _ _ h => h.2.2⟩

/-- The expansions of the nodes of `U`, in sessions that are ready for them, are what they should
be. -/
def ExpandsBelow (reader : OpcUaTypeReader) (U : Finset NodeId) (fuel k : ℕ)
    (f : NodeId → NodeRef → ClientM (Recorded ω) Node) : Prop :=
  ∀ n ∈ U, ∀ t s, Ready U fuel k s →
    (f n t).Settles s (Progress reader s) (NoInterface k) fun node s' => ∃ ptr childNodes,
      node = expanded reader n t ptr childNodes ∧ BornOut (s'.since k) n childNodes

section Children

variable {client : IDashboardDataClient ω} {U : Finset NodeId} {fuel k : ℕ}
  {f : NodeId → NodeRef → ClientM (Recorded ω) Node} (hf : ExpandsBelow reader U fuel k f)

include hf

/-- A candidate of a placeholder asks nothing about the node of the placeholder. -/
theorem settles_preparePlaceholderNodeTypeId {d : NodeDefinition}
    {browseResults : List BrowseResult} {instances : List (PlaceholderElement Node)}
    {browseResult : BrowseResult}
    (hready : Ready U fuel k s) (hown : own ∈ s.this.browsedNodes)
    (hmem : browseResult.nodeId ∈ U) (hresult : browseResult ∈ browseResults)
    (hcall : ClientCall.browseWithResultTypeFilter own (.withReference d.referenceType)
      d.specifiedTypeNodeId (.ok browseResults) ∈ s.since k)
    (hinstances : InstancesBornOut (s.since k) own d instances) :
    (preparePlaceholderNodeTypeId client.recorded reader f instances browseResult).Settles s
      (ChildProgress reader own [] s) (NoInterface k)
      fun instances s' => InstancesBornOut (s'.since k) own d instances := by
  have htype : (placeholderTypeDefinition client.recorded browseResult).Settles s
      (ChildProgress reader own [] s) (NoInterface k) fun _ _ => True := by
    unfold placeholderTypeDefinition
    split_ifs
    · have hrecord : ∀ answer w, ChildProgress reader own [] s
          (s.record (.browse browseResult.nodeId .hasInterface answer) w) := fun answer w =>
        (Progress.record w fun _ => rfl).child hown
      refine Prog.Settles.bind (settles_ask_recorded (hrecord _ _) (Q := fun ifs s' =>
        ClientCall.browse browseResult.nodeId .hasInterface (.ok ifs) ∈ s'.since k)
        fun ifs _ => mem_since_record hready.calls _ _) fun ifs s₁ h₁ hifs => ?_
      refine Prog.Settles.bind (Prog.settles_front h₁ (fun hnil => ?_)
        (Q := fun _ _ => True) fun _ _ => trivial) fun first s₂ h₂ _ =>
          Prog.settles_pure h₂ trivial
      exact ⟨rfl, browseResult.nodeId, hnil ▸ hifs⟩
    · exact Prog.settles_pure (.refl s) trivial
  -- the lookup reaches no node; what the instance reaches, its expansion does
  refine htype.bind fun typeDefinition s₁ h₁ _ => ?_
  have hle₁ := since_subset (k := k) h₁.toExtends
  split
  · rename_i sharedPossibleType _
    have hnode := hf browseResult.nodeId hmem sharedPossibleType s₁
      (hready.extend h₁.toExtends)
    have hown₁ := h₁.browsedNodes own hown
    have hnode : (f browseResult.nodeId sharedPossibleType).Settles s₁
        (ChildProgress reader own [] s) (NoInterface k) fun node s' => InstancesBornOut
          (s'.since k) own d (instances ++ [⟨node, browseResult.browseName, typeDefinition⟩]) := by
      refine (hnode.mono fun node s₂ h₂ hexpanded => ?_).weaken
        fun s₂ h₂ => h₁.trans_nil (h₂.child hown₁)
      obtain ⟨ptr, childNodes, rfl, hborn⟩ := hexpanded
      have hle := List.Subset.trans hle₁ (since_subset (k := k) h₂.toExtends)
      exact (hinstances.mono hle).concat
        ⟨⟨browseResults, browseResult, hresult, hle hcall, rfl, rfl⟩, hborn⟩
    exact hnode.bind fun node s₂ h₂ hborn => Prog.settles_pure h₂ hborn
  · exact Prog.settles_pure h₁ (hinstances.mono hle₁)

variable (hU : AnswersIn client U)

include hU

/-- A named child: its browse name is asked for, whatever comes of it. -/
theorem settles_optionalAndMandatory {found : List Node} (pChild : NodeRef)
    (hready : Ready U fuel k s) (hown : own ∈ s.this.browsedNodes)
    (hfound : BornOut (s.since k) own found) :
    (optionalAndMandatoryTransformToNodeId client.recorded reader f own found pChild).Settles s
      (ChildProgress reader own [.inl (reader.node pChild).specifiedBrowseName] s)
      (NoInterface k) fun r s' => BornOut (s'.since k) own r.2 := by
  have hkeep : ∀ {b : Bool} {s' : Session (Recorded ω)},
      ChildProgress reader own [.inl (reader.node pChild).specifiedBrowseName] s s' →
      (pure (b, found) : ClientM (Recorded ω) (Bool × List Node)).Settles s'
        (ChildProgress reader own [.inl (reader.node pChild).specifiedBrowseName] s)
        (NoInterface k) fun r s' => BornOut (s'.since k) own r.2 := fun h =>
    Prog.settles_pure h (hfound.mono (since_subset h.toExtends))
  have hask : ∀ answer w, ChildProgress reader own
      [.inl (reader.node pChild).specifiedBrowseName] s (s.record
        (.translateBrowsePathToNodeId own (reader.node pChild).specifiedBrowseName answer) w) :=
    fun answer w => ChildProgress.record w (if_pos rfl) fun n hn => if_neg (Ne.symm hn)
  refine .catching ?_ fun ex s' h => ?_
  · refine Prog.Settles.bind (settles_ask_recorded (hask _ _) (Q := fun childNodeId s' =>
      (childNodeId.isNull = false → childNodeId ∈ U) ∧ ClientCall.translateBrowsePathToNodeId own
        (reader.node pChild).specifiedBrowseName (.ok childNodeId) ∈ s'.since k)
      fun childNodeId hanswer => ⟨hU.translate _ _ _ _ hanswer,
        mem_since_record hready.calls _ _⟩) fun childNodeId s₁ h₁ hQ => ?_
    obtain ⟨hmem, hcall⟩ := hQ
    split_ifs with hnull
    · exact hkeep h₁
    · have hnode := hf childNodeId (hmem (by simpa using hnull)) pChild s₁
        (hready.extend h₁.toExtends)
      have hown₁ := h₁.browsedNodes own hown
      have hnode : (f childNodeId pChild).Settles s₁ (ChildProgress reader own
          [.inl (reader.node pChild).specifiedBrowseName] s) (NoInterface k)
          fun node s' => BornOut (s'.since k) own (found ++ [node]) := by
        refine (hnode.mono fun node s₂ h₂ hexpanded => ?_).weaken
          fun s₂ h₂ => h₁.trans_nil (h₂.child hown₁)
        obtain ⟨ptr, childNodes, rfl, hborn⟩ := hexpanded
        have hle := since_subset (k := k) (h₁.toExtends.trans h₂.toExtends)
        exact (hfound.mono hle).concat ⟨since_subset h₂.toExtends hcall, hborn⟩
      exact hnode.bind fun node s₂ h₂ hborn => Prog.settles_pure h₂ hborn
  · -- the handler throws an exception of its own, or drops the child
    split
    · split_ifs
      · exact Prog.settles_throw h
      · exact hkeep h
    · split_ifs
      · exact Prog.settles_throw h
      · exact hkeep h

/-- A placeholder: the Browse for it is made, whatever comes of it. -/
theorem settles_optionalAndMandatoryPlaceholder {found : List Node} (pChild : NodeRef)
    (hready : Ready U fuel k s) (hown : own ∈ s.this.browsedNodes)
    (hfound : BornOut (s.since k) own found) :
    (optionalAndMandatoryPlaceholderTransformToNodeId client.recorded reader f own found
      pChild).Settles s (ChildProgress reader own [.inr (.withReference
        (reader.node pChild).referenceType, (reader.node pChild).specifiedTypeNodeId)] s)
      (NoInterface k) fun r s' => BornOut (s'.since k) own r.2 := by
  have hask : ∀ answer w, ChildProgress reader own [.inr (.withReference
      (reader.node pChild).referenceType, (reader.node pChild).specifiedTypeNodeId)] s
      (s.record (.browseWithResultTypeFilter own (.withReference
        (reader.node pChild).referenceType) (reader.node pChild).specifiedTypeNodeId answer) w) :=
    fun answer w => ChildProgress.record w (if_pos rfl) fun n hn => if_neg (Ne.symm hn)
  refine .catching ?_ fun ex s' h => ?_
  · refine Prog.Settles.bind (Q := fun node s' => ChildBornOut (s'.since k) own node ∧
      BornOut (s'.since k) own found) ?_ fun node s₁ h₁ hborn =>
        Prog.settles_pure h₁ (hborn.2.concat hborn.1)
    refine Prog.Settles.bind (settles_ask_recorded (hask _ _) (Q := fun browseResults s' =>
      (∀ r ∈ browseResults, r.nodeId ∈ U) ∧ ClientCall.browseWithResultTypeFilter own
        (.withReference (reader.node pChild).referenceType)
        (reader.node pChild).specifiedTypeNodeId (.ok browseResults) ∈ s'.since k)
      fun browseResults hanswer => ⟨hU.browse _ _ _ _ _ hanswer,
        mem_since_record hready.calls _ _⟩) fun browseResults s₁ h₁ hQ => ?_
    obtain ⟨hmem, hcall⟩ := hQ
    -- the loop over the candidates
    have hfold : (preparePlaceholderNodesTypeId client.recorded reader f browseResults).Settles s₁
        (ChildProgress reader own [] s₁) (NoInterface k) fun instances s' =>
          InstancesBornOut (s'.since k) own (reader.node pChild).toNodeDefinition instances := by
      have hnone : InstancesBornOut (s₁.since k) own (reader.node pChild).toNodeDefinition [] :=
        trivial
      refine (Prog.settles_foldEach (fun rest instances s' => rest ⊆ browseResults ∧
        InstancesBornOut (s'.since k) own (reader.node pChild).toNodeDefinition instances)
        (fun r rest instances s₂ h₂ hI => ?_) browseResults (.refl s₁)
        ⟨List.Subset.refl _, hnone⟩).mono fun _ _ _ hI => hI.2
      obtain ⟨hrest, hinstances⟩ := hI
      have hr := hrest List.mem_cons_self
      have hle := h₁.toExtends.trans h₂.toExtends
      refine ((settles_preparePlaceholderNodeTypeId hf (hready.extend hle)
        (hle.browsedNodes own hown) (hmem r hr) hr (since_subset h₂.toExtends hcall)
        hinstances).mono fun _ _ _ hnew => ⟨?_, hnew⟩).weaken fun _ h₃ => h₂.trans_nil h₃
      exact fun x hx => hrest (List.mem_cons_of_mem r hx)
    refine (hfold.weaken fun _ h₂ => h₁.trans_nil h₂).bind fun instances s₂ h₂ hborn =>
      Prog.settles_pure h₂ ⟨hborn, hfound.mono (since_subset h₂.toExtends)⟩
  · split_ifs
    · exact Prog.settles_throw h
    · exact Prog.settles_pure h (hfound.mono (since_subset h.toExtends))

/-- **One child** of the type: the question about it is asked. -/
theorem settles_transformChild {found : List Node} (pChild : NodeRef)
    (hready : Ready U fuel k s) (hown : own ∈ s.this.browsedNodes)
    (hfound : BornOut (s.since k) own found) :
    (transformChild client.recorded reader f own found pChild).Settles s
      (ChildProgress reader own (reader.question pChild).toList s) (NoInterface k)
      fun found' s' => BornOut (s'.since k) own found' := by
  have hnamed := settles_optionalAndMandatory hf hU pChild hready hown hfound
  have hplaceholder := settles_optionalAndMandatoryPlaceholder hf hU pChild hready hown hfound
  unfold transformChild OpcUaTypeReader.question
  cases (reader.node pChild).modellingRule with
  | optional => exact hnamed.map fun r s' _ hborn => hborn
  | mandatory => exact hnamed.map fun r s' _ hborn => hborn
  | optionalPlaceholder => exact hplaceholder.map fun r s' _ hborn => hborn
  | mandatoryPlaceholder => exact hplaceholder.map fun r s' _ hborn => hborn
  | none => exact Prog.settles_pure (.refl s) hfound

/-- **The children of a node** are asked for in one pass over the type, which may end early. -/
theorem settles_findChildNodes (pTypeDefinition : NodeRef) (hready : Ready U fuel k s)
    (hown : own ∈ s.this.browsedNodes) :
    (findChildNodes client.recorded reader f own pTypeDefinition).Settles s
      (fun s' => ∃ l, l <+: reader.questions pTypeDefinition ∧ ChildProgress reader own l s s')
      (NoInterface k) fun found s' => BornOut (s'.since k) own found := by
  have hfold : (Prog.foldEach (transformChild client.recorded reader f own) []
      (reader.heap.children pTypeDefinition)).Settles s
      (fun s' => ∃ l, l <+: reader.questions pTypeDefinition ∧ ChildProgress reader own l s s')
      (NoInterface k) fun found s' => BornOut (s'.since k) own found := by
    have hstart : BornOut (s.since k) own [] := trivial
    -- of the questions of the type, those of the children still to come are left
    refine (Prog.settles_foldEach (fun rest found s' => BornOut (s'.since k) own found ∧
      ∃ l, l ++ rest.filterMap reader.question = reader.questions pTypeDefinition ∧
        ChildProgress reader own l s s')
      (fun pChild rest found s₁ _ hI => ?_) (reader.heap.children pTypeDefinition)
      ⟨[], List.nil_prefix, .refl s⟩ ⟨hstart, [], rfl, .refl s⟩).mono fun _ _ _ hI => hI.1
    obtain ⟨hfound, l, hl, h₁⟩ := hI
    have hcons : (l ++ (reader.question pChild).toList) ++ rest.filterMap reader.question =
        reader.questions pTypeDefinition := by
      rw [← hl, List.append_assoc]
      cases hq : reader.question pChild with
      | none => simp [hq]
      | some q => simp [hq]
    refine ((settles_transformChild hf hU pChild (hready.extend h₁.toExtends)
      (h₁.browsedNodes own hown) hfound).mono fun found' s₂ h₂ hborn =>
        ⟨hborn, _, hcons, h₁.trans h₂⟩).weaken fun s₂ h₂ => ⟨_, ⟨_, hcons⟩, h₁.trans h₂⟩
  refine hfold.bind fun found s₁ h₁ hborn => ?_
  obtain ⟨l, hl, h₁⟩ := h₁
  have hstore : Progress reader s₁ { s₁ with this := { s₁.this with
      browsedNodesChildNodes := s₁.this.browsedNodesChildNodes.insert own found } } :=
    .of_same rfl fun _ => Iff.rfl
  exact Prog.Settles.bind (Q := fun _ s' => BornOut (s'.since k) own found)
    (Prog.settles_modify ⟨l, hl, h₁.trans_nil (hstore.child (h₁.browsedNodes own hown))⟩ hborn)
    fun _ s₂ h₂ hborn => Prog.settles_pure h₂ hborn

end Children

/-! ### All levels -/

/-- **An expansion within the fuel** makes progress however it ends, and what it returns is borne
out by the answers. -/
theorem settles_transformToNodeIds {client : IDashboardDataClient ω} {U : Finset NodeId}
    (hU : AnswersIn client U) (k : ℕ) : ∀ fuel : ℕ,
    ExpandsBelow reader U fuel k (transformToNodeIds client.recorded reader fuel)
  | 0, _, _, _, _, hready => absurd hready.unreached (Nat.not_lt_zero _)
  | fuel + 1, startNode, hstart, pTypeDefinition, s, hready => by
    have ih := settles_transformToNodeIds hU k fuel
    -- the session in which the children are expanded
    let s₁ : Session (Recorded ω) :=
      { s with this := { s.this with browsedNodes := s.this.browsedNodes.insert startNode } }
    have hself : startNode ∈ s₁.this.browsedNodes := Std.ExtTreeSet.mem_insert_self
    have hle : ∀ n, n ∈ s.this.browsedNodes → n ∈ s₁.this.browsedNodes := fun n hn =>
      Std.ExtTreeSet.mem_insert.mpr (Or.inr hn)
    have hreach : Progress reader s s₁ := by
      by_cases hmem : startNode ∈ s.this.browsedNodes
      · refine .of_same rfl fun n => ⟨fun hn => ?_, hle n⟩
        rcases Std.ExtTreeSet.mem_insert.mp hn with heq | hn
        · rwa [← Std.LawfulEqCmp.eq_of_compare heq]
        · exact hn
      · have hrefl : ChildProgress reader startNode [] s₁ s₁ := .refl s₁
        exact hrefl.reach (t := pTypeDefinition) hmem rfl rfl List.nil_prefix
    have hinsert : (insertBrowsed startNode : ClientM (Recorded ω) Bool).Settles s
        (Progress reader s) (NoInterface k)
        fun isNew s' => s' = s₁ ∧ (isNew = true → startNode ∉ s.this.browsedNodes) := by
      refine ⟨⟨hreach, fun isNew h => ?_⟩, fun w h => by cases h⟩
      obtain rfl := Outcome.ok.inj h
      exact ⟨rfl, fun hnew hmem => by simp [Std.ExtTreeSet.contains_iff_mem.mpr hmem] at hnew⟩
    refine hinsert.bind fun isNew s' _ hQ => ?_
    obtain ⟨rfl, hnew⟩ := hQ
    refine Prog.Settles.bind (Q := fun found s' => BornOut (s'.since k) startNode found) ?_
      fun found s₂ h₂ hborn => ?_
    · split_ifs with hisNew
      · -- one node of the server less to come
        have hready₁ : Ready U fuel k s₁ :=
          ⟨Nat.lt_of_lt_of_le (unreached_lt hstart (hnew hisNew) hself hle)
            (Nat.le_of_lt_succ hready.unreached), hready.calls⟩
        refine (settles_findChildNodes ih hU pTypeDefinition hready₁ hself).weaken fun s₂ h => ?_
        obtain ⟨l, hl, h⟩ := h
        exact h.reach (hnew hisNew) rfl rfl hl
      · exact Prog.settles_pure hreach trivial
    · have hallocate : Progress reader s₂ { s₂ with this := { s₂.this with
          nextPtr := s₂.this.nextPtr + 1 } } := .of_same rfl fun _ => Iff.rfl
      refine ⟨⟨h₂.trans hallocate, fun node hnode => ?_⟩, fun w h => by cases h⟩
      obtain rfl := Outcome.ok.inj hnode
      exact ⟨s₂.this.nextPtr, found, rfl, hborn⟩

/-! ### The runs of a client -/

/-- The sessions of a client in use, with the calls it has made. The type reader is the one that the
client was made with. Of an expansion that runs out of fuel nothing is used. -/
inductive RecordedRuns (client : IDashboardDataClient ω) (reader : OpcUaTypeReader) :
    Session (Recorded ω) → Prop where
  | new (w : ω) : RecordedRuns client reader ⟨⟨w, []⟩, DashboardClient.new⟩
  | world {s : Session (Recorded ω)} (w : ω) : RecordedRuns client reader s →
      RecordedRuns client reader { s with world := { s.world with state := w } }
  | addDataSet {s : Session (Recorded ω)} (fuel : ℕ) (startNodeId : NodeId)
      (pTypeDefinition : NodeRef) (channel onlineChannel : String) :
      RecordedRuns client reader s →
      ((addDataSet client.recorded reader fuel startNodeId pTypeDefinition channel
        onlineChannel).run s).1 ≠ .stuck .outOfFuel →
      RecordedRuns client reader ((addDataSet client.recorded reader fuel startNodeId
        pTypeDefinition channel onlineChannel).run s).2
  | unsubscribe {s : Session (Recorded ω)} : RecordedRuns client reader s →
      RecordedRuns client reader ((unsubscribe client.recorded).run s).2

variable (reader) in
/-- The children of every node have been asked for in one pass over a type of the reader at most,
and not at all if the node is not reached. -/
def AskedOnce (s : Session (Recorded ω)) : Prop :=
  ∀ n, (∃ t, s.asked n <+: reader.questions t) ∧ (n ∉ s.this.browsedNodes → s.asked n = [])

theorem Progress.askedOnce (h : Progress reader s s') (hs : AskedOnce reader s) :
    AskedOnce reader s' := by
  intro n
  by_cases hn : n ∈ s.this.browsedNodes
  · rw [(h.asksOnce n).reached hn]
    exact ⟨(hs n).1, fun hn' => absurd (h.browsedNodes n hn) hn'⟩
  · exact (h.asksOnce n).fresh hn ((hs n).2 hn)

section Runs

variable {client : IDashboardDataClient ω} {U : Finset NodeId}

/-- Fewer levels than there are nodes are open at a time. -/
theorem ready_insert (U : Finset NodeId) (startNode : NodeId) (s : Session (Recorded ω)) {fuel : ℕ}
    (hfuel : (insert startNode U).card < fuel) :
    Ready (insert startNode U) fuel s.world.calls.length s :=
  ⟨Nat.lt_of_le_of_lt (Finset.card_filter_le _ _) hfuel, le_refl _⟩

theorem AnswersIn.insert (hU : AnswersIn client U) (startNode : NodeId) :
    AnswersIn client (insert startNode U) :=
  ⟨fun n q w x hx hnull => Finset.mem_insert_of_mem (hU.translate n q w x hx hnull),
    fun n ctx t w l hl r hr => Finset.mem_insert_of_mem (hU.browse n ctx t w l hl r hr)⟩

/-- **An expansion within the fuel**, in whatever session. -/
theorem settles_expansion (hU : AnswersIn client U) (reader : OpcUaTypeReader) {fuel : ℕ}
    (startNode : NodeId) (hfuel : (insert startNode U).card < fuel) (pTypeDefinition : NodeRef)
    (s : Session (Recorded ω)) :
    (transformToNodeIds client.recorded reader fuel startNode pTypeDefinition).Settles s
      (Progress reader s) (NoInterface s.world.calls.length) fun node s' => ∃ ptr childNodes,
        node = expanded reader startNode pTypeDefinition ptr childNodes ∧
          BornOut (s'.since s.world.calls.length) startNode childNodes :=
  settles_transformToNodeIds (hU.insert startNode) s.world.calls.length fuel startNode
    (Finset.mem_insert_self _ _) pTypeDefinition s (ready_insert U startNode s hfuel)

/-- Subscribing does not ask for children. -/
theorem keeps_progress_subscribeValues (s : Session (Recorded ω)) (node : Node) :
    (subscribeValues client.recorded node).Keeps (Progress reader s) fun _ => True := by
  rw [subscribeValues_eq, subscribeAll]
  refine Prog.Keeps.forEach fun v _ => .catching ?_ fun _ => Prog.keeps_pure trivial
  refine Prog.keeps_get.bind fun s₁ h₁ => ?_
  split_ifs
  · exact Prog.keeps_pure trivial
  · refine Prog.Keeps.bind (V := fun _ => True) ?_ fun value _ => Prog.keeps_modify fun s₂ h₂ => ?_
    · intro s₂ h₂
      rw [Prog.Leaves, ask, Prog.ends_zoom, Prog.ends_call]
      have hsubscribe : ∀ w, Progress reader s { s₂ with world := { s₂.world with state := w } } :=
        fun w => h₂.trans (.of_same rfl fun _ => Iff.rfl)
      constructor
      · intro a w h
        obtain ⟨-, rfl⟩ := Prod.mk.inj h
        exact ⟨hsubscribe _, fun _ _ => trivial⟩
      · intro e w h
        obtain ⟨-, rfl⟩ := Prod.mk.inj h
        exact ⟨hsubscribe _, fun _ _ => trivial⟩
    · exact h₂.trans (.of_same rfl fun _ => Iff.rfl)

theorem progress_addDataSet (hU : AnswersIn client U) (reader : OpcUaTypeReader) {fuel : ℕ}
    (startNodeId : NodeId) (pTypeDefinition : NodeRef) (channel onlineChannel : String)
    (s : Session (Recorded ω))
    (hfuel : ((addDataSet client.recorded reader fuel startNodeId pTypeDefinition channel
      onlineChannel).run s).1 ≠ .stuck .outOfFuel) :
    Progress reader s ((addDataSet client.recorded reader fuel startNodeId pTypeDefinition channel
      onlineChannel).run s).2 := by
  -- the run is the same with more fuel
  obtain ⟨enough, hle, hlt⟩ : ∃ enough, fuel ≤ enough ∧ (insert startNodeId U).card < enough :=
    ⟨max fuel ((insert startNodeId U).card + 1), Nat.le_max_left _ _,
      Nat.lt_of_succ_le (Nat.le_max_right _ _)⟩
  rw [← (approximates_addDataSet client.recorded reader hle startNodeId pTypeDefinition channel
    onlineChannel).run_eq hfuel]
  have hsettles := settles_expansion hU reader startNodeId hlt pTypeDefinition s
  have hstorage : (prepareDataSetStorage client.recorded reader enough startNodeId pTypeDefinition
      channel onlineChannel).Leaves s (Progress reader s) fun _ _ => True :=
    hsettles.leaves.bind fun _ _ h _ => Prog.leaves_pure h trivial
  have hadd : (addDataSet client.recorded reader enough startNodeId pTypeDefinition channel
      onlineChannel).Leaves s (Progress reader s) fun _ _ => True := by
    refine .catching (hstorage.bind fun d s₁ h₁ _ => ?_) fun ex s₁ h₁ => ?_
    · refine (keeps_progress_subscribeValues s d.node s₁ h₁).bind fun _ s₂ h₂ _ => ?_
      exact Prog.leaves_modify (h₂.trans (.of_same rfl fun _ => Iff.rfl)) trivial
    · split_ifs
      · exact Prog.leaves_pure h₁ trivial
      · exact Prog.leaves_throw h₁
  exact hadd.1

/-- **In every run** the children of a node are asked for once at most. -/
theorem RecordedRuns.askedOnce (hU : AnswersIn client U) {s : Session (Recorded ω)}
    (h : RecordedRuns client reader s) : AskedOnce reader s := by
  induction h with
  | new w => exact fun n => ⟨⟨0, List.nil_prefix⟩, fun _ => rfl⟩
  | world w _ ih => exact ih
  | addDataSet fuel n t channel onlineChannel _ hfuel ih =>
    exact (progress_addDataSet hU reader n t channel onlineChannel _ hfuel).askedOnce ih
  | unsubscribe _ ih => exact ih

/-- **Expansion terminates and is sound.** On a server with finitely many nodes, and in whatever
session of a client, an expansion ends the same way with any greater fuel than there are nodes: it
returns, throws, or accesses the first of an empty list of interfaces. The children of each node,
also of one that is reached in this expansion, have then been asked for in one pass over one type
at most in the client's life, and not again if the node had been reached before. The tree that is
returned has the start node at its root, and every node below carries what the server answered for
its parent during this expansion. -/
theorem expansion_terminates (hU : AnswersIn client U) {s : Session (Recorded ω)}
    (hs : RecordedRuns client reader s) (startNode : NodeId) (pTypeDefinition : NodeRef) :
    ∃ (out : Outcome Exception Node) (s' : Session (Recorded ω)),
      (∀ fuel, (insert startNode U).card < fuel →
        (transformToNodeIds client.recorded reader fuel startNode pTypeDefinition).run s =
          (out, s')) ∧
      (∀ w, out = .stuck w → NoInterface s.world.calls.length w s') ∧
      AskedOnce reader s' ∧ (∀ n, n ∈ s.this.browsedNodes → s'.asked n = s.asked n) ∧
      ∀ node, out = .ok node → ∃ ptr childNodes,
        node = expanded reader startNode pTypeDefinition ptr childNodes ∧
          BornOut (s'.since s.world.calls.length) startNode childNodes := by
  have hsettles := settles_expansion hU reader startNode (Nat.lt_succ_self _) pTypeDefinition s
  have hprogress := hsettles.leaves.1
  refine ⟨_, _, fun fuel hfuel => ?_, hsettles.stuck, hprogress.askedOnce (hs.askedOnce hU),
    fun n hn => (hprogress.asksOnce n).reached hn, hsettles.leaves.2⟩
  have hle : (insert startNode U).card + 1 ≤ fuel := hfuel
  refine (approximates_transformToNodeIds client.recorded reader hle startNode
    pTypeDefinition).run_eq fun hout => ?_
  exact Stuck.noConfusion (hsettles.stuck _ hout).1

end Runs

/-! ### Two parts of each other -/

namespace CircularParts

/-- A server with two nodes, each of which is a part of the other one. -/
def answers : Answers where
  browse _ _ := .ok []
  browseWithResultTypeFilter _ _ _ := .ok []
  translateBrowsePathToNodeId n _ := .ok (if n = ⟨"", "i=1"⟩ then ⟨"", "i=2"⟩ else ⟨"", "i=1"⟩)

/-- A type that is the type of its own part. -/
def typeReader : OpcUaTypeReader :=
  { OpcUaTypeReader.create [] [] with
    heap :=
      { nodes := fun _ => ⟨⟨.mandatory, .object, default, default, ⟨"", "Part"⟩⟩, 0, false⟩
        lists := fun _ => [0]
        next := 1 } }

theorem answersIn_client : AnswersIn answers.client {⟨"", "i=1"⟩, ⟨"", "i=2"⟩} := by
  refine ⟨fun n q w x hx _ => ?_, fun n ctx t w l hl r hr => ?_⟩
  · obtain rfl : (if n = ⟨"", "i=1"⟩ then ⟨"", "i=2"⟩ else ⟨"", "i=1"⟩) = x := Except.ok.inj hx
    split_ifs
    · simp
    · simp
  · obtain rfl : [] = l := Except.ok.inj hl
    exact absurd hr List.not_mem_nil

end CircularParts

open CircularParts in
theorem expansion_terminates_circularParts :
    ∃ s' ptr childNodes, (∀ fuel, 2 < fuel →
      (transformToNodeIds answers.client.recorded typeReader fuel ⟨"", "i=1"⟩ 0).run
        ⟨⟨(), []⟩, .new⟩ = (.ok (expanded typeReader ⟨"", "i=1"⟩ 0 ptr childNodes), s')) ∧
      AskedOnce typeReader s' ∧ BornOut (s'.since 0) ⟨"", "i=1"⟩ childNodes := by
  have hnew : RecordedRuns answers.client typeReader ⟨⟨(), []⟩, .new⟩ := .new ()
  obtain ⟨out, s', hrun, -, honce, -, hsound⟩ := expansion_terminates answersIn_client
    hnew ⟨"", "i=1"⟩ 0
  have hcard : (insert (⟨"", "i=1"⟩ : NodeId)
      {⟨"", "i=1"⟩, ⟨"", "i=2"⟩} : Finset NodeId).card = 2 := by
    decide
  rw [hcard] at hrun
  have hreturns : ((transformToNodeIds answers.client.recorded typeReader 3 ⟨"", "i=1"⟩ 0).run
      ⟨⟨(), []⟩, .new⟩).1.Returns := by
    decide +kernel
  rw [hrun 3 (Nat.lt_succ_self 2)] at hreturns
  obtain ⟨node, rfl⟩ := Outcome.returns_iff.mp hreturns
  obtain ⟨ptr, childNodes, rfl, hborn⟩ := hsound node rfl
  exact ⟨s', ptr, childNodes, hrun, honce, hborn⟩

end DashboardClient

end UmatiDashboard
