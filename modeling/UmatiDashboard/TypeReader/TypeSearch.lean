import UmatiDashboard.Effect.Prog
import UmatiDashboard.TypeReader.BrowsedTree
import UmatiDashboard.TypeReader.LoadedTypes
import UmatiDashboard.Util.NestedSearch

/-!
# Asking the server for its types

`browseTypes` calls the data client for each node it meets, and itself for each reference. Here it
is a program of the answers of a server, with fuel, that keeps the parent pointers of the
`StructureBiNode`s beside the tree. What it returns is what the trees of `BrowseTypes` say, for the
trees that the answers unfold to (`follows_browseTypes`), and the parent pointers lead along the
chains of that tree.
-/

namespace UmatiDashboard

open NestedSearch (Step Ending runSteps ending)

/-- The answers of a server that browsing the types depends on. -/
structure TypeAnswers where
  /-- `Browse` with the context `ObjectAndVariableWithTypes` -/
  browse : NodeId → Except Exception (List BrowseResult)
  browseModellingRule : NodeId → Except Exception ModellingRule

/-- The state of the browsing phase with the parent pointers. -/
structure LinkedBrowse where
  types : TypeBrowse
  /-- `parent.lock()` of the `StructureBiNode` of a structure node -/
  parents : NodeRef → Option NodeRef

namespace LinkedBrowse

/-- Before anything is browsed. -/
def start (nameToId : Std.ExtTreeMap String NodeId compare) : LinkedBrowse :=
  ⟨.start nameToId, fun _ => none⟩

/-- File a Browse answer below a parent. -/
def file (entry : BrowseResult) (rule : ModellingRule) (flag : Bool) (parent : Option NodeRef)
    (s : LinkedBrowse) : (NodeRef × Bool) × LinkedBrowse :=
  let filed := s.types.handleBrowseTypeResult entry rule flag
  (filed.1, ⟨filed.2, Function.update s.parents filed.1.1 parent⟩)

/-- What a weak pointer to a node that was filed leads to: the map holds the types, and a parent
the nodes below it. -/
def lock (filed : NodeRef × Bool) (parent : Option NodeRef) : Option NodeRef :=
  if filed.2 || parent.isSome then some filed.1 else none

/-- The loop of `setupTypeMap` that follows the parent pointers. -/
def bloodline (parents : NodeRef → Option NodeRef) : ℕ → Option NodeRef → Option (List NodeRef)
  | _, none => some []
  | 0, some _ => none
  | fuel + 1, some r => (bloodline parents fuel (parents r)).map (r :: ·)

end LinkedBrowse

namespace TypeAnswers

variable (A : TypeAnswers)

/-- The modelling rule of a node; none if it cannot be found out. -/
def modellingRule (n : NodeId) : Except Exception ModellingRule :=
  match A.browseModellingRule n with
  | .ok rule => .ok rule
  | .error e => if e.isUmatiException then .ok .none else .error e

/-- An answer of the server. -/
def answer {α : Type} (a : Except Exception α) : Prog Exception LinkedBrowse α :=
  .call fun s => (a, s)

/-- File a Browse answer. -/
def filing (entry : BrowseResult) (rule : ModellingRule) (flag : Bool) (parent : Option NodeRef) :
    Prog Exception LinkedBrowse (NodeRef × Bool) :=
  .call fun s => (.ok (s.file entry rule flag parent).1, (s.file entry rule flag parent).2)

/-- The body of the loop of `browseTypes`. -/
def browseResult (flag : Bool)
    (browse : NodeId → Option NodeRef → Prog Exception LinkedBrowse (List StructureBiNode))
    (parent : Option NodeRef) (children : List StructureBiNode) (r : BrowseResult) :
    Prog Exception LinkedBrowse (List StructureBiNode) := do
  let rule ← answer (A.modellingRule r.nodeId)
  let filed ← filing r rule flag parent
  let below ← browse r.nodeId (LinkedBrowse.lock filed parent)
  pure (children ++ [.mk filed.1 r.nodeId filed.2 (filed.2 && flag) below])

/-- Browse the references of a node, and below each of them. -/
def browseTypes (flag : Bool) :
    ℕ → NodeId → Option NodeRef → Prog Exception LinkedBrowse (List StructureBiNode)
  | 0, _, _ => .stuck .outOfFuel
  | fuel + 1, startNodeId, parent => do
    let browseResults ← answer (A.browse startNodeId)
    Prog.foldEach (A.browseResult flag (browseTypes flag fuel) parent) [] browseResults

/-- Browse from one starting point. -/
def browseFrom (fuel : ℕ) (startNodeId : NodeId) (flag : Bool) :
    Prog Exception LinkedBrowse StructureBiNode := do
  let filed ← filing (TypeBrowse.startEntry startNodeId) .mandatory flag none
  let below ← A.browseTypes flag fuel startNodeId (LinkedBrowse.lock filed none)
  pure (.mk filed.1 startNodeId filed.2 (filed.2 && flag) below)

/-- Browse the variable types and then the object types. -/
def browseHierarchy (fuel : ℕ) : Prog Exception LinkedBrowse (List StructureBiNode) := do
  let v ← A.browseFrom fuel WellKnown.baseVariableType true
  let o ← A.browseFrom fuel WellKnown.baseObjectType false
  pure [v, o]

/-! ### The plan -/

/-- The steps for one reference: its modelling rule, and what is below it. -/
def resultSteps (r : BrowseResult) : List (Step (Option NodeId)) :=
  [match A.modellingRule r.nodeId with
    | .ok _ => .done
    | .error _ => .abort,
    .nested (some r.nodeId)]

/-- The steps below a node; below no node stand the two starting points. -/
def steps : Option NodeId → List (Step (Option NodeId))
  | none => [.nested (some WellKnown.baseVariableType), .nested (some WellKnown.baseObjectType)]
  | some n =>
    match A.browse n with
    | .error _ => [.abort]
    | .ok results => results.flatMap A.resultSteps

end TypeAnswers

/-! ### Trees of answers -/

namespace BrowseTree

variable (A : TypeAnswers)

mutual

/-- The tree is what the server answers below its reference. -/
def Answered : BrowseTree → Prop
  | node e rule references => A.modellingRule e.nodeId = .ok rule ∧
      A.browse e.nodeId = .ok (references.map entry) ∧ AnsweredAll references

def AnsweredAll : List BrowseTree → Prop
  | [] => True
  | t :: ts => t.Answered ∧ AnsweredAll ts

end

end BrowseTree

/-- How browsing ends. -/
def Outcome.ending {ε α : Type} : Outcome ε α → Ending
  | .ok _ => .returned
  | .throw _ => .aborted
  | .stuck .outOfFuel => .unfinished
  | .stuck _ => .aborted

theorem Outcome.ending_eq_unfinished_iff {ε α : Type} {out : Outcome ε α} :
    out.ending = .unfinished ↔ out = .stuck .outOfFuel := by
  cases out with
  | ok a => simp [Outcome.ending]
  | throw e => simp [Outcome.ending]
  | stuck w => cases w <;> simp [Outcome.ending]

theorem Outcome.ending_eq_returned_iff {ε α : Type} {out : Outcome ε α} :
    out.ending = .returned ↔ ∃ a, out = .ok a := by
  cases out with
  | ok a => simp [Outcome.ending]
  | throw e => simp [Outcome.ending]
  | stuck w => cases w <;> simp [Outcome.ending]

namespace LinkedBrowse

open StructureBiNode

/-- The parent pointers of new nodes, whose trees hang below a node, lead along their chains. The
nodes that were there keep theirs. -/
structure Links (s s' : LinkedBrowse) (parent : Option NodeRef) (bs : List StructureBiNode) :
    Prop where
  old : ∀ r < s.types.heap.next, s'.parents r = s.parents r
  new : ∀ up : List StructureBiNode, up.head?.map structureNode = parent →
    ∀ line ∈ chainsAll up bs, s'.parents (headRef line) = line.tail.head?.map structureNode

variable {s s₁ s₂ : LinkedBrowse} {parent : Option NodeRef} {b : StructureBiNode}
  {bs : List StructureBiNode}

/-- A node that was filed, with the nodes below it. -/
theorem Links.node {entry : BrowseResult} {rule : ModellingRule} {flag o : Bool} {i : NodeId}
    (hheap : TypeBrowse.Unfilled s.types.heap)
    (h : Links (s.file entry rule flag parent).2 s₂
      (lock (s.file entry rule flag parent).1 parent) bs) :
    Links s s₂ parent
      [.mk (s.file entry rule flag parent).1.1 i (s.file entry rule flag parent).1.2 o bs] := by
  obtain ⟨-, hnode, hnext⟩ := TypeBrowse.unfilled_handleBrowseTypeResult hheap entry rule flag
  have hfile : (s.file entry rule flag parent).1.1 = s.types.heap.next := hnode
  have hparents : (s.file entry rule flag parent).2.parents =
      Function.update s.parents s.types.heap.next parent := by
    rw [← hfile]
    rfl
  have hold := h.old
  rw [show (s.file entry rule flag parent).2.types.heap.next = s.types.heap.next + 1 from hnext,
    hparents] at hold
  refine ⟨fun r hr => ?_, fun up hup line hline => ?_⟩
  · rw [hold r (by omega), Function.update_of_ne (Nat.ne_of_lt hr)]
  · rw [chainsAll, chainsAll, List.append_nil, chains] at hline
    have hkept : (!up.isEmpty) = parent.isSome := by
      rw [← hup]
      cases up <;> rfl
    rw [hkept] at hline
    split_ifs at hline with hlock
    · rcases List.mem_cons.mp hline with rfl | hline
      · change s₂.parents (s.file entry rule flag parent).1.1 = up.head?.map structureNode
        rw [hfile, hold _ (by omega), Function.update_self, hup]
      · exact h.new _ (by rw [lock, if_pos hlock]; rfl) line hline
    · exact h.new [] (by rw [lock, if_neg hlock]; rfl) line hline

/-- The nodes of one reference and those of the others. -/
theorem Links.cons (h : Links s s₁ parent [b]) (h' : Links s₁ s₂ parent bs)
    (hle : s.types.heap.next ≤ s₁.types.heap.next)
    (hrefs : ∀ r ∈ b.refs, r < s₁.types.heap.next) : Links s s₂ parent (b :: bs) := by
  refine ⟨fun r hr => (h'.old r (by omega)).trans (h.old r hr), fun up hup line hline => ?_⟩
  rw [chainsAll, List.mem_append] at hline
  rcases hline with hline | hline
  · have href : headRef line ∈ b.refs :=
      (map_headRef_chains b up).subset (List.mem_map_of_mem hline)
    rw [h'.old _ (hrefs _ href)]
    exact h.new up hup line (by simpa [chainsAll] using hline)
  · exact h'.new up hup line hline

end LinkedBrowse

namespace TypeAnswers

open LinkedBrowse BrowseTree

variable {A : TypeAnswers} {flag : Bool} {s : LinkedBrowse} {parent : Option NodeRef}

/-- Browsing has gone through these references. -/
structure Returned (A : TypeAnswers) (flag : Bool) (parent : Option NodeRef)
    (results : List BrowseResult) (s s' : LinkedBrowse) (bs : List StructureBiNode)
    (ts : List BrowseTree) : Prop where
  entries : ts.map entry = results
  answered : AnsweredAll A ts
  nodes : bs = (TypeBrowse.browseTypes flag ts s.types).1
  types : s'.types = (TypeBrowse.browseTypes flag ts s.types).2
  links : Links s s' parent bs

/-- Browsing follows a plan. -/
def Follows (A : TypeAnswers) (flag : Bool)
    (browse : NodeId → Option NodeRef → Prog Exception LinkedBrowse (List StructureBiNode))
    (plan : Option NodeId → Ending) : Prop :=
  ∀ n parent s, TypeBrowse.Unfilled s.types.heap →
    (browse n parent).Ends s fun out s' => out.ending = plan (some n) ∧
      ∀ bs, out = .ok bs → ∃ results ts, A.browse n = .ok results ∧
        Returned A flag parent results s s' bs ts

theorem ends_answer {α : Type} {a : Except Exception α}
    {Q : Outcome Exception α → LinkedBrowse → Prop} :
    (answer a).Ends s Q ↔ (∀ x, a = .ok x → Q (.ok x) s) ∧ ∀ e, a = .error e → Q (.throw e) s := by
  rw [answer, Prog.ends_call]
  cases a <;> simp

theorem ends_filing {entry : BrowseResult} {rule : ModellingRule}
    {Q : Outcome Exception (NodeRef × Bool) → LinkedBrowse → Prop} :
    (filing entry rule flag parent).Ends s Q ↔
      Q (.ok (s.file entry rule flag parent).1) (s.file entry rule flag parent).2 :=
  Iff.rfl

variable {browse : NodeId → Option NodeRef → Prog Exception LinkedBrowse (List StructureBiNode)}
  {plan : Option NodeId → Ending}

/-- One reference. -/
theorem ends_browseResult (hbrowse : Follows A flag browse plan)
    (hheap : TypeBrowse.Unfilled s.types.heap) (children : List StructureBiNode)
    (r : BrowseResult) :
    (A.browseResult flag browse parent children r).Ends s fun out s' =>
      out.ending = runSteps plan (A.resultSteps r) ∧
        ∀ bs, out = .ok bs → ∃ t : BrowseTree, t.entry = r ∧ t.Answered A ∧
          bs = children ++ [(TypeBrowse.browseTree flag t s.types).1] ∧
          s'.types = (TypeBrowse.browseTree flag t s.types).2 ∧
          Links s s' parent [(TypeBrowse.browseTree flag t s.types).1] := by
  rw [browseResult, resultSteps, Prog.ends_bind, ends_answer]
  refine ⟨fun rule hrule => ?_, fun e he => ?_⟩
  · rw [Outcome.follow_ok, Prog.ends_bind, hrule]
    dsimp only
    rw [NestedSearch.runSteps_cons, NestedSearch.runSteps_nested]
    have hfile := TypeBrowse.unfilled_handleBrowseTypeResult hheap r rule flag
    rw [ends_filing, Outcome.follow_ok, Prog.ends_bind]
    refine (hbrowse r.nodeId _ _ hfile.1).mono fun out s' h => ?_
    obtain ⟨hending, hok⟩ := h
    rw [← hending]
    cases out with
    | throw e => exact ⟨rfl, fun bs h => by cases h⟩
    | stuck w =>
      refine ⟨?_, fun bs h => by cases h⟩
      cases w <;> rfl
    | ok below =>
      obtain ⟨results, ts, hanswer, hreturned⟩ := hok below rfl
      refine ⟨rfl, fun bs h => ⟨.node r rule ts, rfl, ?_⟩⟩
      obtain rfl := Outcome.ok.inj h
      have hnodes := hreturned.nodes
      refine ⟨⟨hrule, hreturned.entries ▸ hanswer, hreturned.answered⟩, ?_, hreturned.types, ?_⟩
      · rw [hnodes]
        rfl
      · have hlinks := Links.node (i := r.nodeId)
          (o := (s.file r rule flag parent).1.2 && flag) hheap hreturned.links
        rw [hnodes] at hlinks
        exact hlinks
  · rw [he]
    exact ⟨rfl, fun bs h => by cases h⟩

/-- **The references of one answer**, one after the other. -/
theorem ends_browseResults (hbrowse : Follows A flag browse plan) :
    ∀ (results : List BrowseResult) (children : List StructureBiNode) (s : LinkedBrowse),
      TypeBrowse.Unfilled s.types.heap →
      (Prog.foldEach (A.browseResult flag browse parent) children results).Ends s fun out s' =>
        out.ending = runSteps plan (results.flatMap A.resultSteps) ∧
          ∀ bs, out = .ok bs → ∃ bs' ts, bs = children ++ bs' ∧
            Returned A flag parent results s s' bs' ts
  | [], children, s, _ => ⟨rfl, fun bs h => ⟨[], [], by simpa using (Outcome.ok.inj h).symm, rfl,
      trivial, rfl, rfl, fun _ _ => rfl,
      fun up _ line hline => by simp [StructureBiNode.chainsAll] at hline⟩⟩
  | r :: results, children, s, hheap => by
    rw [Prog.foldEach_cons, Prog.ends_bind, List.flatMap_cons]
    refine (ends_browseResult hbrowse hheap children r).mono fun out s₁ h => ?_
    obtain ⟨hending, hok⟩ := h
    cases out with
    | throw e =>
      rw [NestedSearch.runSteps_append_of_ne (by simp [← hending, Outcome.ending])]
      exact ⟨hending, fun bs h => by cases h⟩
    | stuck w =>
      rw [NestedSearch.runSteps_append_of_ne (by rw [← hending]; cases w <;> simp [Outcome.ending])]
      exact ⟨by cases w <;> exact hending, fun bs h => by cases h⟩
    | ok children' =>
      rw [NestedSearch.runSteps_append hending.symm, Outcome.follow_ok]
      obtain ⟨t, hentry, hanswered, rfl, htypes, hlinks⟩ := hok children' rfl
      have hunfilled := TypeBrowse.unfilled_browseTree flag t s.types hheap
      rw [← htypes] at hunfilled
      refine (ends_browseResults hbrowse results _ s₁ hunfilled.1).mono fun out s₂ h => ?_
      refine ⟨h.1, fun bs hbs => ?_⟩
      obtain ⟨bs', ts, rfl, hreturned⟩ := h.2 bs hbs
      refine ⟨(TypeBrowse.browseTree flag t s.types).1 :: bs', t :: ts, by simp, ?_, ?_, ?_, ?_, ?_⟩
      · rw [List.map_cons, hentry, hreturned.entries]
      · exact ⟨hanswered, hreturned.answered⟩
      · rw [hreturned.nodes, htypes]
        rfl
      · rw [hreturned.types, htypes]
        rfl
      · exact hlinks.cons hreturned.links hunfilled.2.1 fun r hr => (hunfilled.2.2.2 r hr).2

/-- **Browsing follows its plan**, with any fuel. -/
theorem follows_browseTypes : ∀ fuel : ℕ,
    Follows A flag (A.browseTypes flag fuel) (ending A.steps fuel)
  | 0 => fun _ _ _ _ => ⟨rfl, fun bs h => by cases h⟩
  | fuel + 1 => by
    intro n parent s hheap
    rw [browseTypes, ending, steps, Prog.ends_bind, ends_answer]
    refine ⟨fun results hresults => ?_, fun e he => ?_⟩
    · rw [hresults, Outcome.follow_ok]
      dsimp only
      refine (ends_browseResults (follows_browseTypes fuel) results [] s hheap).mono
        fun out s' h => ⟨h.1, fun bs hbs => ?_⟩
      obtain ⟨bs', ts, rfl, hreturned⟩ := h.2 bs hbs
      exact ⟨results, ts, rfl, hreturned⟩
    · rw [he]
      exact ⟨rfl, fun bs h => by cases h⟩

end TypeAnswers

end UmatiDashboard
