import UmatiDashboard.DashboardClient.DataSets
import UmatiDashboard.DashboardClient.InstanceTree
import UmatiDashboard.TypeReader.SetupTypeMap

/-!
# Validating an instance

An instance violates its type if a node that is reached through resolved children and through typed
instances of mandatory placeholders has a mandatory child that is not resolved (`Violates`). The
expansion throws exactly if an exception comes up to the root of the instance tree
(`throws_transformToNodeIds_iff`). The two differ where a mandatory child is translated to a null
id, and where an optional child drops the bare exception of a mandatory placeholder.
-/

namespace UmatiDashboard

/-! ### Violations -/

mutual

/-- The tree has a mandatory child that is not resolved, where it counts. -/
def InstanceTree.Violates : InstanceTree → Prop
  | .node _ children => childrenViolate children

def childrenViolate : List InstanceChild → Prop
  | [] => False
  | child :: rest => child.Violates ∨ childrenViolate rest

def InstanceChild.Violates : InstanceChild → Prop
  | .unresolved mandatory _ => mandatory = true
  | .named _ child => child.Violates
  | .placeholder mandatory candidates => mandatory = true ∧ candidatesViolate candidates
  | .ignored => False

def candidatesViolate : List InstanceCandidate → Prop
  | [] => False
  | candidate :: rest => candidate.Violates ∨ candidatesViolate rest

def InstanceCandidate.Violates : InstanceCandidate → Prop
  | .typed tree => tree.Violates
  | .untyped => False
  | .withoutInterface => False

end

theorem childrenViolate_iff {children : List InstanceChild} :
    childrenViolate children ↔ ∃ child ∈ children, child.Violates := by
  induction children with
  | nil => simp [childrenViolate]
  | cons child rest ih => simp [childrenViolate, ih]

theorem candidatesViolate_iff {candidates : List InstanceCandidate} :
    candidatesViolate candidates ↔ ∃ candidate ∈ candidates, candidate.Violates := by
  induction candidates with
  | nil => simp [candidatesViolate]
  | cons candidate rest ih => simp [candidatesViolate, ih]

namespace DashboardClient

section Violates

variable (A : Answers) (reader : OpcUaTypeReader)

/-- **The instance violates its type**: a node that is reached from `n` through resolved named
children and through typed instances of mandatory placeholders has a mandatory child whose browse
name is translated to a null id, or not at all. -/
inductive Violates : NodeId → NodeRef → Prop where
  | mandatory {n : NodeId} {t pChild : NodeRef} :
      pChild ∈ reader.heap.children t → (reader.node pChild).modellingRule = .mandatory →
      (∀ x, A.translateBrowsePathToNodeId n (reader.node pChild).specifiedBrowseName = .ok x →
        x.isNull = true) → Violates n t
  | named {n x : NodeId} {t pChild : NodeRef} :
      pChild ∈ reader.heap.children t →
      (reader.node pChild).modellingRule = .mandatory ∨
        (reader.node pChild).modellingRule = .optional →
      A.translateBrowsePathToNodeId n (reader.node pChild).specifiedBrowseName = .ok x →
      x.isNull = false → Violates x pChild → Violates n t
  | placeholder {n typeDefinition : NodeId} {t pChild sharedPossibleType : NodeRef}
      {browseResults : List BrowseResult} {r : BrowseResult} :
      pChild ∈ reader.heap.children t →
      (reader.node pChild).modellingRule = .mandatoryPlaceholder →
      A.browseTyped n (reader.node pChild).referenceType
        (reader.node pChild).specifiedTypeNodeId = .ok browseResults →
      r ∈ browseResults → candidateType A r = some typeDefinition →
      reader.typeMap[typeDefinition]? = some sharedPossibleType →
      Violates r.nodeId sharedPossibleType → Violates n t

end Violates

variable {A : Answers} {reader : OpcUaTypeReader}

/-- A child of the type has its part in the tree. -/
theorem exists_child_of_mem {n : NodeId} {pChild : NodeRef} :
    ∀ {pChildren : List NodeRef} {children : List InstanceChild},
      ChildrenExpandTo A reader n pChildren children → pChild ∈ pChildren →
      ∃ child ∈ children, ChildExpandsTo A reader n pChild child
  | p :: pChildren, child :: children, h, hmem => by
    rcases List.mem_cons.mp hmem with rfl | hmem
    · exact ⟨child, List.mem_cons_self, h.1⟩
    · obtain ⟨child', hmem', h'⟩ := exists_child_of_mem h.2 hmem
      exact ⟨child', List.mem_cons_of_mem _ hmem', h'⟩

theorem exists_candidate_of_mem {r : BrowseResult} :
    ∀ {rs : List BrowseResult} {candidates : List InstanceCandidate},
      CandidatesExpandTo A reader rs candidates → r ∈ rs →
      ∃ candidate ∈ candidates, CandidateExpandsTo A reader r candidate
  | r' :: rs, candidate :: candidates, h, hmem => by
    rcases List.mem_cons.mp hmem with rfl | hmem
    · exact ⟨candidate, List.mem_cons_self, h.1⟩
    · obtain ⟨candidate', hmem', h'⟩ := exists_candidate_of_mem h.2 hmem
      exact ⟨candidate', List.mem_cons_of_mem _ hmem', h'⟩

/-- The rule of a child says which part of the tree it has. -/
theorem namedRule_eq_mandatory {mandatory : Bool} :
    namedRule mandatory = .mandatory ↔ mandatory = true := by
  cases mandatory <;> simp [namedRule]

theorem Violates.tree {n : NodeId} {t : NodeRef} (h : Violates A reader n t) :
    ∀ {tree : InstanceTree}, ExpandsTo A reader n t tree → tree.Violates := by
  induction h with
  | @mandatory n t pChild hmem hrule hnull =>
    rintro ⟨nodeId, children⟩ ⟨rfl, hchildren⟩
    obtain ⟨child, hchild, hexpands⟩ := exists_child_of_mem hchildren hmem
    -- the answer and the rule leave one form for the child in the tree
    refine childrenViolate_iff.mpr ⟨child, hchild, ?_⟩
    cases child with
    | unresolved mandatory thrown => exact namedRule_eq_mandatory.mp (hexpands.1.symm.trans hrule)
    | named mandatory child =>
      obtain ⟨-, x, hx, hnotNull, -⟩ := hexpands
      rw [hnull x hx] at hnotNull
      cases hnotNull
    | placeholder mandatory candidates =>
      have hrule' := hexpands.1.symm.trans hrule
      cases mandatory <;> cases hrule'
    | ignored => cases hexpands.symm.trans hrule
  | @named n x t pChild hmem hrule hx hnull _ ih =>
    rintro ⟨nodeId, children⟩ ⟨rfl, hchildren⟩
    obtain ⟨child, hchild, hexpands⟩ := exists_child_of_mem hchildren hmem
    refine childrenViolate_iff.mpr ⟨child, hchild, ?_⟩
    cases child with
    | unresolved mandatory thrown =>
      obtain ⟨-, hunresolved⟩ := hexpands
      cases thrown with
      | none =>
        obtain ⟨y, hy, hynull⟩ := hunresolved
        obtain rfl := Except.ok.inj (hy.symm.trans hx)
        rw [hnull] at hynull
        cases hynull
      | some ex => cases hunresolved.symm.trans hx
    | named mandatory child =>
      obtain ⟨-, y, hy, -, hexpands⟩ := hexpands
      obtain rfl := Except.ok.inj (hy.symm.trans hx)
      exact ih hexpands
    | placeholder mandatory candidates =>
      rw [hexpands.1] at hrule
      cases mandatory <;> simp [placeholderRule] at hrule
    | ignored =>
      rw [show (reader.node pChild).modellingRule = .none from hexpands] at hrule
      simp at hrule
  | @placeholder n typeDefinition t pChild sharedPossibleType rs r hmem hrule hrs hr htype hentry _
      ih =>
    rintro ⟨nodeId, children⟩ ⟨rfl, hchildren⟩
    obtain ⟨child, hchild, hexpands⟩ := exists_child_of_mem hchildren hmem
    refine childrenViolate_iff.mpr ⟨child, hchild, ?_⟩
    cases child with
    | unresolved mandatory thrown =>
      have hrule' := hexpands.1.symm.trans hrule
      cases mandatory <;> cases hrule'
    | named mandatory child =>
      have hrule' := hexpands.1.symm.trans hrule
      cases mandatory <;> cases hrule'
    | ignored => cases hexpands.symm.trans hrule
    | placeholder mandatory candidates =>
      obtain ⟨hrule', rs', hrs', hcandidates⟩ := hexpands
      obtain rfl := Except.ok.inj (hrs'.symm.trans hrs)
      obtain ⟨candidate, hcandidate, hexpands⟩ := exists_candidate_of_mem hcandidates hr
      refine ⟨?_, candidatesViolate_iff.mpr ⟨candidate, hcandidate, ?_⟩⟩
      · cases mandatory with
        | true => rfl
        | false => cases hrule'.symm.trans hrule
      · cases candidate with
        | typed tree =>
          obtain ⟨typeDefinition', t', htype', hentry', hexpands⟩ := hexpands
          obtain rfl := Option.some.inj (htype'.symm.trans htype)
          obtain rfl := Option.some.inj (hentry'.symm.trans hentry)
          exact ih hexpands
        | untyped =>
          obtain ⟨typeDefinition', htype', hentry'⟩ := hexpands
          obtain rfl := Option.some.inj (htype'.symm.trans htype)
          cases hentry'.symm.trans hentry
        | withoutInterface =>
          obtain ⟨hbase, hbrowse⟩ := hexpands
          simp [candidateType, hbase, hbrowse] at htype

mutual

theorem violates_of_tree : ∀ (tree : InstanceTree) {n : NodeId} {t : NodeRef},
    ExpandsTo A reader n t tree → tree.Violates → Violates A reader n t
  | .node _ children, n, t, h, hviolates => by
    obtain ⟨pChild, hmem, hchild⟩ := violates_of_children children h.2 hviolates
    exact hchild t hmem

theorem violates_of_children : ∀ (children : List InstanceChild) {n : NodeId}
    {pChildren : List NodeRef}, ChildrenExpandTo A reader n pChildren children →
    childrenViolate children →
    ∃ pChild ∈ pChildren, ∀ t, pChild ∈ reader.heap.children t → Violates A reader n t
  | child :: rest, n, pChild :: pChildren, h, hviolates => by
    rcases hviolates with hviolates | hviolates
    · exact ⟨pChild, List.mem_cons_self, fun t => violates_of_child child h.1 hviolates⟩
    · obtain ⟨p, hp, hviolates⟩ := violates_of_children rest h.2 hviolates
      exact ⟨p, List.mem_cons_of_mem _ hp, hviolates⟩

theorem violates_of_child : ∀ (child : InstanceChild) {n : NodeId} {pChild t : NodeRef},
    ChildExpandsTo A reader n pChild child → child.Violates →
    pChild ∈ reader.heap.children t → Violates A reader n t
  | .unresolved mandatory thrown, n, pChild, t, h, hviolates, hmem => by
    obtain ⟨hrule, hunresolved⟩ := h
    refine .mandatory hmem (hrule.trans (namedRule_eq_mandatory.mpr hviolates)) fun x hx => ?_
    cases thrown with
    | none =>
      obtain ⟨y, hy, hynull⟩ := hunresolved
      obtain rfl := Except.ok.inj (hy.symm.trans hx)
      exact hynull
    | some ex => cases hunresolved.symm.trans hx
  | .named mandatory child, n, pChild, t, h, hviolates, hmem => by
    obtain ⟨hrule, x, hx, hnull, hexpands⟩ := h
    refine .named hmem ?_ hx hnull (violates_of_tree child hexpands hviolates)
    cases mandatory with
    | true => exact Or.inl hrule
    | false => exact Or.inr hrule
  | .placeholder mandatory candidates, n, pChild, t, h, hviolates, hmem => by
    obtain ⟨hrule, rs, hrs, hcandidates⟩ := h
    obtain ⟨rfl, hviolates⟩ := hviolates
    obtain ⟨r, hr, typeDefinition, t', htype, hentry, hinstance⟩ :=
      violates_of_candidates candidates hcandidates hviolates
    exact .placeholder hmem hrule hrs hr htype hentry hinstance

theorem violates_of_candidates : ∀ (candidates : List InstanceCandidate)
    {rs : List BrowseResult}, CandidatesExpandTo A reader rs candidates →
    candidatesViolate candidates →
    ∃ r ∈ rs, ∃ typeDefinition t, candidateType A r = some typeDefinition ∧
      reader.typeMap[typeDefinition]? = some t ∧ Violates A reader r.nodeId t
  | candidate :: rest, r :: rs, h, hviolates => by
    rcases hviolates with hviolates | hviolates
    · cases candidate with
      | typed tree =>
        obtain ⟨typeDefinition, t, htype, hentry, hexpands⟩ := h.1
        exact ⟨r, List.mem_cons_self, typeDefinition, t, htype, hentry,
          violates_of_tree tree hexpands hviolates⟩
      | untyped => exact hviolates.elim
      | withoutInterface => exact hviolates.elim
    · obtain ⟨r', hr', hinstance⟩ := violates_of_candidates rest h.2 hviolates
      exact ⟨r', List.mem_cons_of_mem _ hr', hinstance⟩

end

/-- **The tree shows the violations** of an instance. -/
theorem violates_iff_tree {n : NodeId} {t : NodeRef} {tree : InstanceTree}
    (h : ExpandsTo A reader n t tree) : Violates A reader n t ↔ tree.Violates :=
  ⟨fun hviolates => hviolates.tree h, violates_of_tree tree h⟩

/-! ### What is thrown -/

variable {ω α : Type} {client : IDashboardDataClient ω}

/-- The program ends in an exception. -/
def Throws (p : ClientM ω α) (s : Session ω) : Prop := ∃ e s', p.run s = (.throw e, s')

theorem throws_iff_fst {p : ClientM ω α} {s : Session ω} :
    Throws p s ↔ ∃ e, (p.run s).1 = .throw e :=
  ⟨fun ⟨e, _, h⟩ => ⟨e, by rw [h]⟩, fun ⟨e, h⟩ => ⟨e, _, Prod.ext h rfl⟩⟩

/-- **The expansion throws** exactly if an exception comes up to the root of the tree. -/
theorem throws_transformToNodeIds_iff (hA : client.AnswersBy A) {n : NodeId} {t : NodeRef}
    {tree : InstanceTree} {s : Session ω} {fuel : ℕ} (htree : ExpandsTo A reader n t tree)
    (hs : Unreached tree.nodeIds s) (hfuel : tree.nodeIds.length ≤ fuel) :
    Throws (transformToNodeIds client reader fuel n t) s ↔ tree.forwards.IsThrown := by
  have hsends := (sends_transformToNodeIds hA fuel tree n t s htree hfuel hs).1
  rw [throws_iff_fst, hsends.isThrown_iff]

/-- **`addDataSet` throws** exactly if the expansion does: subscribing swallows every exception. -/
theorem throws_addDataSet_iff {fuel : ℕ} {n : NodeId} {t : NodeRef} {s : Session ω}
    (channel onlineChannel : String) :
    Throws (addDataSet client reader fuel n t channel onlineChannel) s ↔
      Throws (transformToNodeIds client reader fuel n t) s := by
  have hends : (addDataSet client reader fuel n t channel onlineChannel).Ends s fun out _ =>
      (∃ e, out = .throw e) ↔ ∃ e, ((transformToNodeIds client reader fuel n t).run s).1 =
        .throw e := by
    rw [addDataSet, Prog.ends_catching, Prog.ends_bind, prepareDataSetStorage, Prog.ends_bind]
    have hraises : (transformToNodeIds client reader fuel n t).Ends s fun out _ =>
        out = ((transformToNodeIds client reader fuel n t).run s).1 ∧
          ∀ e, out = .throw e → e.isOpcUaException = false :=
      ⟨rfl, fun e he => raises_transformToNodeIds client reader fuel n t s e he⟩
    refine hraises.mono fun out s₁ h₁ => ?_
    obtain ⟨hout, hthrown⟩ := h₁
    rw [← hout]
    cases out with
    | stuck w => exact iff_of_false (by rintro ⟨e, he⟩; cases he) (by rintro ⟨e, he⟩; cases he)
    | throw e =>
      simp only [Outcome.follow_throw, Outcome.rescue_throw, hthrown e rfl, Bool.false_eq_true,
        if_false, Prog.ends_throw]
      exact iff_of_true ⟨_, rfl⟩ ⟨_, rfl⟩
    | ok node =>
      simp only [Outcome.follow_ok, Prog.ends_pure, Prog.ends_bind]
      refine (ends_subscribeValues client node s₁).mono fun out s₂ h₂ => ?_
      obtain ⟨rfl, -⟩ := h₂
      exact iff_of_false (by rintro ⟨e, he⟩; cases he) (by rintro ⟨e, he⟩; cases he)
  rw [throws_iff_fst, throws_iff_fst]
  exact hends

end DashboardClient

/-! ### Violations that are concealed -/

mutual

/-- Every candidate of a placeholder has a type, and the data client throws no exception of the
class that the expansion throws itself. -/
def InstanceTree.Ordinary : InstanceTree → Prop
  | .node _ children => childrenOrdinary children

def childrenOrdinary : List InstanceChild → Prop
  | [] => True
  | child :: rest => child.Ordinary ∧ childrenOrdinary rest

def InstanceChild.Ordinary : InstanceChild → Prop
  | .unresolved _ none => True
  | .unresolved _ (some ex) => Forwarded.ofException ex = .bare
  | .named _ child => child.Ordinary
  | .placeholder _ candidates => candidatesOrdinary candidates
  | .ignored => True

def candidatesOrdinary : List InstanceCandidate → Prop
  | [] => True
  | candidate :: rest => candidate.Ordinary ∧ candidatesOrdinary rest

def InstanceCandidate.Ordinary : InstanceCandidate → Prop
  | .typed tree => tree.Ordinary
  | .untyped => True
  | .withoutInterface => False

end

/-- The child is a mandatory placeholder. -/
def InstanceChild.IsMandatoryPlaceholder : InstanceChild → Prop
  | .placeholder mandatory _ => mandatory = true
  | _ => False

mutual

/-- **All violations are concealed.** A mandatory child conceals that its browse name is translated
to a null id, and an optional child what is in it, if the first of its children that do not conceal
everything is a mandatory placeholder. -/
def InstanceTree.Concealed : InstanceTree → Prop
  | .node _ children => childrenConcealed children

def childrenConcealed : List InstanceChild → Prop
  | [] => True
  | child :: rest => child.Concealed ∧ childrenConcealed rest

/-- The first child that does not conceal everything is a mandatory placeholder. -/
def InstanceTree.PlaceholderFirst : InstanceTree → Prop
  | .node _ children => childrenPlaceholderFirst children

def childrenPlaceholderFirst : List InstanceChild → Prop
  | [] => False
  | child :: rest => (child.Concealed ∧ childrenPlaceholderFirst rest) ∨
      (¬ child.Concealed ∧ child.IsMandatoryPlaceholder)

def InstanceChild.Concealed : InstanceChild → Prop
  | .unresolved mandatory thrown => mandatory = true → thrown = none
  | .named true child => child.Concealed
  | .named false child => child.Concealed ∨ child.PlaceholderFirst
  | .placeholder true candidates => candidatesConcealed candidates
  | .placeholder false _ => True
  | .ignored => True

def candidatesConcealed : List InstanceCandidate → Prop
  | [] => True
  | candidate :: rest => candidate.Concealed ∧ candidatesConcealed rest

def InstanceCandidate.Concealed : InstanceCandidate → Prop
  | .typed tree => tree.Concealed
  | .untyped => True
  | .withoutInterface => True

end

namespace Forwarded

/-- What comes up, if anything, comes from a violation, and nothing comes up exactly if all is
concealed. -/
structure Reveals (f : Forwarded) (violates concealed : Prop) : Prop where
  thrown : f.IsThrown → violates
  nothing : f = .nothing ↔ concealed
  defined : f ≠ .undefined

variable {f g : Forwarded} {P Q C D : Prop}

theorem Reveals.isThrown_iff (hf : f.Reveals P C) : f.IsThrown ↔ ¬ C := by
  obtain ⟨-, hnothing, hdefined⟩ := hf
  rw [← hnothing]
  cases f with
  | undefined => exact absurd rfl hdefined
  | nothing => simp [IsThrown]
  | invalidChild => simp [IsThrown]
  | bare => simp [IsThrown]

theorem reveals_nothing : Reveals .nothing False True := ⟨by simp [IsThrown], by simp, by simp⟩

theorem Reveals.next (hf : f.Reveals P C) (hg : g.Reveals Q D) :
    (f.next g).Reveals (P ∨ Q) (C ∧ D) := by
  obtain ⟨hthrown, hnothing, hdefined⟩ := hf
  cases f with
  | undefined => exact absurd rfl hdefined
  | nothing =>
    refine ⟨fun h => Or.inr (hg.thrown h), ?_, hg.defined⟩
    rw [and_iff_right (hnothing.mp rfl)]
    exact hg.nothing
  | invalidChild =>
    have hC : ¬ C := fun h => by cases hnothing.mpr h
    exact ⟨fun h => Or.inl (hthrown h), iff_of_false (by simp [Forwarded.next]) fun h => hC h.1,
      hdefined⟩
  | bare =>
    have hC : ¬ C := fun h => by cases hnothing.mpr h
    exact ⟨fun h => Or.inl (hthrown h), iff_of_false (by simp [Forwarded.next]) fun h => hC h.1,
      hdefined⟩

/-- A mandatory child hands everything on. -/
theorem Reveals.throughNamed_true (hf : f.Reveals P C) : (f.throughNamed true).Reveals P C := by
  obtain ⟨hthrown, hnothing, hdefined⟩ := hf
  rw [← hnothing]
  cases f with
  | undefined => exact absurd rfl hdefined
  | nothing => exact ⟨hthrown, Iff.rfl, hdefined⟩
  | invalidChild => exact ⟨hthrown, Iff.rfl, hdefined⟩
  | bare => exact ⟨fun _ => hthrown (Or.inr rfl), by simp [throughNamed], by simp [throughNamed]⟩

/-- An optional child drops a bare exception. -/
theorem Reveals.throughNamed_false (hf : f.Reveals P C) (hbare : f = .bare ↔ D) :
    (f.throughNamed false).Reveals P (C ∨ D) := by
  obtain ⟨hthrown, hnothing, hdefined⟩ := hf
  rw [← hnothing, ← hbare]
  cases f with
  | undefined => exact absurd rfl hdefined
  | nothing => exact ⟨hthrown, by simp [throughNamed], hdefined⟩
  | invalidChild => exact ⟨hthrown, by simp [throughNamed], hdefined⟩
  | bare => exact ⟨by simp [throughNamed, IsThrown], by simp [throughNamed], by simp [throughNamed]⟩

/-- A mandatory placeholder hands everything on, as a bare exception. -/
theorem Reveals.throughPlaceholder_true (hf : f.Reveals P C) :
    (f.throughPlaceholder true).Reveals P C := by
  obtain ⟨hthrown, hnothing, hdefined⟩ := hf
  rw [← hnothing]
  cases f with
  | undefined => exact absurd rfl hdefined
  | nothing => exact ⟨hthrown, Iff.rfl, hdefined⟩
  | invalidChild =>
    exact ⟨fun _ => hthrown (Or.inl rfl), by simp [throughPlaceholder],
      by simp [throughPlaceholder]⟩
  | bare => exact ⟨hthrown, Iff.rfl, hdefined⟩

/-- An optional placeholder drops every exception. -/
theorem throughPlaceholder_false_of_ne (hf : f ≠ .undefined) :
    f.throughPlaceholder false = .nothing := by
  cases f with
  | undefined => exact absurd rfl hf
  | nothing => rfl
  | invalidChild => rfl
  | bare => rfl

end Forwarded

mutual

/-- **What comes up reveals the violations** that are not concealed; it is a bare exception exactly
if a mandatory placeholder is the first to hand something on. -/
theorem InstanceTree.Ordinary.reveals : ∀ {tree : InstanceTree}, tree.Ordinary →
    tree.forwards.Reveals tree.Violates tree.Concealed ∧
      (tree.forwards = .bare ↔ tree.PlaceholderFirst)
  | .node _ _, h => childrenOrdinary_reveals h

theorem childrenOrdinary_reveals : ∀ {children : List InstanceChild}, childrenOrdinary children →
    (forwardsOfChildren children).Reveals (childrenViolate children) (childrenConcealed children) ∧
      (forwardsOfChildren children = .bare ↔ childrenPlaceholderFirst children)
  | [], _ => ⟨Forwarded.reveals_nothing, iff_of_false (fun h => by cases h) id⟩
  | child :: rest, h => by
    obtain ⟨hchild, hbare⟩ := InstanceChild.Ordinary.reveals h.1
    obtain ⟨hrest, hbareRest⟩ := childrenOrdinary_reveals h.2
    refine ⟨hchild.next hrest, ?_⟩
    rw [forwardsOfChildren, childrenPlaceholderFirst, ← hchild.nothing, ← hbareRest]
    cases hforwards : child.forwards with
    | nothing => simp [Forwarded.next]
    | bare => simp [Forwarded.next, hbare.mp hforwards]
    | invalidChild =>
      have hrevealed : ¬ child.Concealed := fun h => by
        rw [← hchild.nothing, hforwards] at h
        cases h
      have hnot : ¬ child.IsMandatoryPlaceholder := fun h => by
        have hsame := hbare.mpr ⟨h, hrevealed⟩
        rw [hforwards] at hsame
        cases hsame
      simp [Forwarded.next, hnot]
    | undefined => exact absurd hforwards hchild.defined

theorem InstanceChild.Ordinary.reveals : ∀ {child : InstanceChild}, child.Ordinary →
    child.forwards.Reveals child.Violates child.Concealed ∧
      (child.forwards = .bare ↔ child.IsMandatoryPlaceholder ∧ ¬ child.Concealed)
  | .unresolved mandatory none, _ =>
    ⟨⟨fun h => by simp [Forwarded.IsThrown, InstanceChild.forwards] at h,
      iff_of_true rfl fun _ => rfl, by simp [InstanceChild.forwards]⟩,
      iff_of_false (fun h => by cases h) fun h => h.1⟩
  | .unresolved mandatory (some ex), h => by
    have hbare : Forwarded.ofException ex = .bare := h
    rw [InstanceChild.forwards, hbare]
    cases mandatory with
    | true =>
      exact ⟨⟨fun _ => rfl, iff_of_false (by simp [Forwarded.throughNamed])
        (by simp [InstanceChild.Concealed]), by simp [Forwarded.throughNamed]⟩,
        iff_of_false (by simp [Forwarded.throughNamed]) fun h => h.1⟩
    | false =>
      exact ⟨⟨by simp [Forwarded.throughNamed, Forwarded.IsThrown], iff_of_true rfl
        (by simp [InstanceChild.Concealed]), by simp [Forwarded.throughNamed]⟩,
        iff_of_false (by simp [Forwarded.throughNamed]) fun h => h.1⟩
  | .named true child, h => by
    have hchild : child.forwards.Reveals child.Violates child.Concealed :=
      (InstanceTree.Ordinary.reveals h).1
    refine ⟨hchild.throughNamed_true, iff_of_false ?_ fun h => h.1⟩
    rw [InstanceChild.forwards]
    cases child.forwards <;> simp [Forwarded.throughNamed]
  | .named false child, h => by
    obtain ⟨hchild, hbare⟩ : child.forwards.Reveals child.Violates child.Concealed ∧
      (child.forwards = .bare ↔ child.PlaceholderFirst) := InstanceTree.Ordinary.reveals h
    refine ⟨hchild.throughNamed_false hbare, iff_of_false ?_ fun h => h.1⟩
    rw [InstanceChild.forwards]
    cases child.forwards <;> simp [Forwarded.throughNamed]
  | .placeholder true candidates, h => by
    have hcandidates := (candidatesOrdinary_reveals h).throughPlaceholder_true
    refine ⟨⟨fun h => ⟨rfl, hcandidates.thrown h⟩, hcandidates.nothing, hcandidates.defined⟩, ?_⟩
    -- nothing but a bare exception comes out of a placeholder
    rw [InstanceChild.Concealed, ← hcandidates.nothing, InstanceChild.forwards]
    have hdefined := (candidatesOrdinary_reveals h).defined
    cases hforwards : forwardsOfCandidates candidates with
    | undefined => exact absurd hforwards hdefined
    | nothing => simp [Forwarded.throughPlaceholder]
    | invalidChild => simp [Forwarded.throughPlaceholder, InstanceChild.IsMandatoryPlaceholder]
    | bare => simp [Forwarded.throughPlaceholder, InstanceChild.IsMandatoryPlaceholder]
  | .placeholder false candidates, h => by
    have hdefined := (candidatesOrdinary_reveals h).defined
    rw [InstanceChild.forwards, Forwarded.throughPlaceholder_false_of_ne hdefined]
    exact ⟨⟨by simp [Forwarded.IsThrown], iff_of_true rfl trivial, by simp⟩,
      iff_of_false (by simp) fun h => by cases h.1⟩
  | .ignored, _ => ⟨Forwarded.reveals_nothing, iff_of_false (fun h => by cases h) fun h => h.1⟩

theorem candidatesOrdinary_reveals : ∀ {candidates : List InstanceCandidate},
    candidatesOrdinary candidates →
    (forwardsOfCandidates candidates).Reveals (candidatesViolate candidates)
      (candidatesConcealed candidates)
  | [], _ => Forwarded.reveals_nothing
  | candidate :: rest, h => by
    refine Forwarded.Reveals.next ?_ (candidatesOrdinary_reveals h.2)
    cases candidate with
    | typed tree => exact (InstanceTree.Ordinary.reveals h.1).1
    | untyped => exact Forwarded.reveals_nothing
    | withoutInterface => exact h.1.elim

end

namespace DashboardClient

variable {A : Answers} {reader : OpcUaTypeReader} {ω : Type} {client : IDashboardDataClient ω}

/-- **Validation.** The expansion of an instance, and so `addDataSet`, throws exactly for the
instances with a violation, exactly if an exception comes up to the root of the instance when there
is a violation and not otherwise: on an ordinary instance, if it does not conceal all its
violations. -/
theorem throws_iff_violates_iff (hA : client.AnswersBy A) {n : NodeId} {t : NodeRef}
    {tree : InstanceTree} {s : Session ω} {fuel : ℕ} (htree : ExpandsTo A reader n t tree)
    (hs : Unreached tree.nodeIds s) (hfuel : tree.nodeIds.length ≤ fuel)
    (channel onlineChannel : String) :
    let validates :=
      (Throws (transformToNodeIds client reader fuel n t) s ↔ Violates A reader n t) ∧
      (Throws (addDataSet client reader fuel n t channel onlineChannel) s ↔ Violates A reader n t)
    (validates ↔ (Violates A reader n t ↔ tree.forwards.IsThrown)) ∧
      (tree.Ordinary → (validates ↔ ¬ (Violates A reader n t ∧ tree.Concealed))) := by
  rw [throws_addDataSet_iff, and_self, throws_transformToNodeIds_iff hA htree hs hfuel]
  refine ⟨Iff.comm, fun hordinary => ?_⟩
  obtain ⟨hreveals, -⟩ := hordinary.reveals
  have hthrown := hreveals.thrown
  rw [violates_iff_tree htree]
  rw [hreveals.isThrown_iff] at hthrown ⊢
  tauto

/-! ### A press -/

namespace Press

/-- A press has a drive, which is mandatory, and a hydraulic unit, which is optional. A unit has at
least one pump, and a pump a pressure. -/
def types : TypeHierarchy where
  variableTypes := []
  objectTypes :=
    [.node ⟨.objectType, ⟨"urn:press", "i=1"⟩, ⟨"", ""⟩, WellKnown.hasComponent,
      ⟨"urn:press", "PressType"⟩⟩ .optional
      [.node ⟨.object, ⟨"urn:press", "i=21"⟩, ⟨"urn:press", "i=3"⟩, WellKnown.hasComponent,
          ⟨"urn:press", "Drive"⟩⟩ .mandatory [],
        .node ⟨.object, ⟨"urn:press", "i=22"⟩, ⟨"urn:press", "i=4"⟩, WellKnown.hasComponent,
          ⟨"urn:press", "Unit"⟩⟩ .optional
          [.node ⟨.object, ⟨"urn:press", "i=23"⟩, ⟨"urn:press", "i=2"⟩, WellKnown.hasComponent,
            ⟨"urn:press", "Pump"⟩⟩ .mandatoryPlaceholder []]],
      .node ⟨.objectType, ⟨"urn:press", "i=2"⟩, ⟨"", ""⟩, WellKnown.hasComponent,
        ⟨"urn:press", "PumpType"⟩⟩ .optional
        [.node ⟨.variable, ⟨"urn:press", "i=24"⟩, ⟨"urn:press", "i=5"⟩, WellKnown.hasComponent,
          ⟨"urn:press", "Pressure"⟩⟩ .mandatory []]]

def typeReader : OpcUaTypeReader :=
  (OpcUaTypeReader.create ["urn:press"] []).readTypes types [WellKnown.ns0Uri, "urn:press"]

/-- The entry of the type of the press. -/
def pressType : NodeRef := (typeReader.typeMap[(⟨"urn:press", "i=1"⟩ : NodeId)]?).getD 0

def press : NodeId := ⟨"urn:press", "i=10"⟩
def drive : NodeId := ⟨"urn:press", "i=11"⟩
def hydraulicUnit : NodeId := ⟨"urn:press", "i=12"⟩
def pump : NodeId := ⟨"urn:press", "i=13"⟩

/-- A server that translates the names of the drive and of the unit to these nodes. The unit has a
pump without a pressure. -/
def answers (driveNodeId unitNodeId : NodeId) : Answers where
  browse _ _ := .ok []
  browseWithResultTypeFilter _ _ _ :=
    .ok [⟨.object, pump, ⟨"urn:press", "i=2"⟩, WellKnown.hasComponent, ⟨"urn:press", "P1"⟩⟩]
  translateBrowsePathToNodeId _ q :=
    if q.name = "Drive" then .ok driveNodeId
    else if q.name = "Unit" then .ok unitNodeId
    else .error (.opcUa "BadNoMatch")

private theorem children_pressType : typeReader.heap.children pressType = [3, 4] := by
  decide +kernel

private theorem node_drive : (typeReader.node 3).modellingRule = namedRule true ∧
    (typeReader.node 3).specifiedBrowseName = ⟨"urn:press", "Drive"⟩ ∧
    typeReader.heap.children 3 = [] := by
  decide +kernel

private theorem node_unit : (typeReader.node 4).modellingRule = namedRule false ∧
    (typeReader.node 4).specifiedBrowseName = ⟨"urn:press", "Unit"⟩ ∧
    typeReader.heap.children 4 = [5] := by
  decide +kernel

private theorem node_pump : (typeReader.node 5).modellingRule = placeholderRule true ∧
    typeReader.typeMap[(⟨"urn:press", "i=2"⟩ : NodeId)]? = some (9 : NodeRef) ∧
    typeReader.heap.children (9 : NodeRef) = [7] := by
  decide +kernel

private theorem node_pressure : (typeReader.node 7).modellingRule = namedRule true ∧
    (typeReader.node 7).specifiedBrowseName = ⟨"urn:press", "Pressure"⟩ := by
  decide +kernel

/-- The press without drive and unit. -/
def bare : InstanceTree := .node press [.unresolved true none, .unresolved false none]

/-- The press whose unit has a pump without a pressure. -/
def pressureless : InstanceTree :=
  .node press [.named true (.node drive []),
    .named false (.node hydraulicUnit [.placeholder true
      [.typed (.node pump [.unresolved true (some (.opcUa "BadNoMatch"))])]])]

theorem expandsTo_bare :
    ExpandsTo (answers ⟨"", ""⟩ ⟨"", ""⟩) typeReader press pressType bare := by
  refine ⟨rfl, ?_⟩
  rw [children_pressType]
  refine ⟨⟨node_drive.1, ⟨"", ""⟩, ?_, rfl⟩, ⟨node_unit.1, ⟨"", ""⟩, ?_, rfl⟩, trivial⟩
  · rw [node_drive.2.1]
    decide
  · rw [node_unit.2.1]
    decide

theorem expandsTo_pressureless :
    ExpandsTo (answers drive hydraulicUnit) typeReader press pressType pressureless := by
  refine ⟨rfl, ?_⟩
  rw [children_pressType]
  refine ⟨⟨node_drive.1, drive, ?_, rfl, rfl, ?_⟩,
    ⟨node_unit.1, hydraulicUnit, ?_, rfl, rfl, ?_⟩, trivial⟩
  · rw [node_drive.2.1]
    decide
  · rw [node_drive.2.2]
    trivial
  · rw [node_unit.2.1]
    decide
  · rw [node_unit.2.2]
    refine ⟨⟨node_pump.1, _, rfl, ⟨_, 9, rfl, node_pump.2.1, rfl, ?_⟩, trivial⟩, trivial⟩
    rw [node_pump.2.2]
    refine ⟨⟨node_pressure.1, ?_⟩, trivial⟩
    rw [node_pressure.2, Unresolved]
    decide

theorem not_throws {A : Answers} {tree : InstanceTree}
    (h : ExpandsTo A typeReader press pressType tree) (hnodup : tree.nodeIds.Nodup)
    (hquiet : ¬ tree.forwards.IsThrown) :
    ¬ Throws (transformToNodeIds A.client typeReader tree.nodeIds.length press pressType)
      ⟨(), .new⟩ := by
  have hs : Unreached tree.nodeIds (⟨(), .new⟩ : Session Unit) :=
    ⟨hnodup, fun x _ => Std.ExtTreeSet.not_mem_empty⟩
  rwa [throws_transformToNodeIds_iff A.answersBy_client h hs (Nat.le_refl _)]

end Press

open Press in
/-- A null id for a mandatory child is accepted, and so is a pump without pressure, because the unit
that has it is optional. -/
theorem not_throws_iff_violates :
    (¬ ∀ (A : Answers) (reader : OpcUaTypeReader) (n : NodeId) (t : NodeRef) (tree : InstanceTree)
      (fuel : ℕ), ExpandsTo A reader n t tree → tree.nodeIds.Nodup → tree.nodeIds.length ≤ fuel →
      (Throws (transformToNodeIds A.client reader fuel n t) ⟨(), .new⟩ ↔ Violates A reader n t)) ∧
    ¬ ∀ (A : Answers) (reader : OpcUaTypeReader) (n : NodeId) (t : NodeRef) (tree : InstanceTree)
      (fuel : ℕ), ExpandsTo A reader n t tree → tree.nodeIds.Nodup → tree.nodeIds.length ≤ fuel →
      (∀ n q x, A.translateBrowsePathToNodeId n q = .ok x → x.isNull = false) →
      (Throws (transformToNodeIds A.client reader fuel n t) ⟨(), .new⟩ ↔
        Violates A reader n t) := by
  constructor
  · intro hall
    have hviolates : bare.Violates := Or.inl rfl
    refine not_throws expandsTo_bare (by decide) (by decide) ?_
    rw [hall _ _ _ _ _ _ expandsTo_bare (by decide) (Nat.le_refl _)]
    exact (violates_iff_tree expandsTo_bare).mpr hviolates
  · intro hall
    have hviolates : pressureless.Violates := Or.inr (Or.inl (Or.inl ⟨rfl, Or.inl (Or.inl rfl)⟩))
    have hnotNull : ∀ n q x, (answers drive hydraulicUnit).translateBrowsePathToNodeId n q = .ok x →
        x.isNull = false := by
      intro n q x hx
      simp only [answers] at hx
      split_ifs at hx
      · obtain rfl := Except.ok.inj hx
        rfl
      · obtain rfl := Except.ok.inj hx
        rfl
    refine not_throws expandsTo_pressureless (by decide) (by decide) ?_
    rw [hall _ _ _ _ _ _ expandsTo_pressureless (by decide) (Nat.le_refl _) hnotNull]
    exact (violates_iff_tree expandsTo_pressureless).mpr hviolates

open Press in
/-- The expansion of the press without a pressure, and the addition of its data set, do not throw:
its violation is concealed. -/
theorem throws_iff_violates_iff_press :
    let p := transformToNodeIds (answers drive hydraulicUnit).client typeReader 4 press pressType
    let q := addDataSet (answers drive hydraulicUnit).client typeReader 4 press pressType "c" "o"
    Violates (answers drive hydraulicUnit) typeReader press pressType ∧
      ¬ ((Throws p ⟨(), .new⟩ ↔ Violates (answers drive hydraulicUnit) typeReader press pressType) ∧
        (Throws q ⟨(), .new⟩ ↔
          Violates (answers drive hydraulicUnit) typeReader press pressType)) := by
  have hs : Unreached pressureless.nodeIds (⟨(), .new⟩ : Session Unit) :=
    ⟨by decide, fun x _ => Std.ExtTreeSet.not_mem_empty⟩
  have hviolates : Violates (answers drive hydraulicUnit) typeReader press pressType :=
    (violates_iff_tree expandsTo_pressureless).mpr
      (Or.inr (Or.inl (Or.inl ⟨rfl, Or.inl (Or.inl rfl)⟩)))
  have hiff := throws_iff_violates_iff (answers drive hydraulicUnit).answersBy_client
    expandsTo_pressureless hs (show 4 ≤ 4 by decide) "c" "o"
  have hordinary : pressureless.Ordinary := by
    simp [pressureless, InstanceTree.Ordinary, childrenOrdinary, InstanceChild.Ordinary,
      candidatesOrdinary, InstanceCandidate.Ordinary, Forwarded.ofException]
  refine ⟨hviolates, fun hvalidates => (hiff.2 hordinary).mp hvalidates ⟨hviolates, ?_⟩⟩
  simp [pressureless, InstanceTree.Concealed, childrenConcealed, InstanceChild.Concealed,
    InstanceTree.PlaceholderFirst, childrenPlaceholderFirst, InstanceChild.IsMandatoryPlaceholder,
    candidatesConcealed, InstanceCandidate.Concealed]

end DashboardClient

end UmatiDashboard
