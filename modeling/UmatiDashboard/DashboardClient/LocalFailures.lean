import UmatiDashboard.DashboardClient.Expansion
import UmatiDashboard.DataClient.Answers
import UmatiDashboard.Effect.Skipping
import UmatiDashboard.TypeReader.SetupTypeMap

/-!
# Failing instances of an optional placeholder

An exception of one candidate ends the loop over the candidates of a placeholder, and the handler
of an optional placeholder drops the placeholder as a whole. What the candidates have reached stays
in `browsedNodes`, so that a node below the dropped instances is not expanded where it is reached
again.

A failure would be **local** if only the candidates that fail were left out, and if what they have
reached were forgotten; `remainingInstances` is the loop that does so. The code comes to the same
instances and the same `browsedNodes` if and only if no candidate fails, but for one case in which
there is nothing to lose (`failsLocally_iff`).
-/

namespace UmatiDashboard

namespace DashboardClient

open Node
open Prog (FirstFailure foldSkipping)

variable {ω : Type} (client : IDashboardDataClient ω) (reader : OpcUaTypeReader)

/-! ### Local failures -/

/-- What was reached since a session is forgotten. -/
def forget (s s' : Session ω) : Session ω :=
  { s' with this := { s'.this with browsedNodes := s.this.browsedNodes } }

/-- One candidate of a placeholder. -/
abbrev candidate (fuel : ℕ) :
    List (PlaceholderElement Node) → BrowseResult → ClientM ω (List (PlaceholderElement Node)) :=
  preparePlaceholderNodeTypeId client reader (transformToNodeIds client reader fuel)

/-- The instances of a placeholder that remain when the failing ones alone are left out, and what
these have reached is forgotten. -/
def remainingInstances (fuel : ℕ) (startNode : NodeId) (pChild : NodeRef) :
    ClientM ω (List (PlaceholderElement Node)) := do
  let child := reader.node pChild
  let browseResults ←
    (ask (client.browseTyped startNode child.referenceType child.specifiedTypeNodeId)).catching
      fun _ => pure []
  foldSkipping forget (candidate client reader fuel) [] browseResults

/-- If the placeholder is done with, its instances are those that remain when the failing ones
alone are left out, and the nodes reached are those that are reached then. A placeholder without
instances may be missing. -/
def FailsLocally (fuel : ℕ) (startNode : NodeId) (found : List Node) (pChild : NodeRef)
    (s : Session ω) : Prop :=
  ∀ b found' s', (optionalAndMandatoryPlaceholderTransformToNodeId client reader
      (transformToNodeIds client reader fuel) startNode found pChild).run s =
        (.ok (b, found'), s') →
    ∃ instances s'', (remainingInstances client reader fuel startNode pChild).run s =
        (.ok instances, s'') ∧
      (found' = found ++ [.placeholder (reader.node pChild).toNodeDefinition instances] ∨
        instances = [] ∧ found' = found) ∧
      ∀ n : NodeId, n ∈ s'.this.browsedNodes ↔ n ∈ s''.this.browsedNodes

/-- The Browse for the interface of a candidate fails. -/
def InterfaceFails (r : BrowseResult) (s : Session ω) : Prop :=
  r.typeDefinition.id = WellKnown.baseObjectType.id ∧
    ∃ e, (client.browse r.nodeId .hasInterface s.world).1 = .error e

/-! ### One candidate -/

variable {s s' : Session ω}

variable {client reader} in
/-- **An expansion that throws** has reached a new node. -/
theorem reached_of_throw {fuel : ℕ} {startNode : NodeId} {pTypeDefinition : NodeRef}
    {e : Exception}
    (h : (transformToNodeIds client reader fuel startNode pTypeDefinition).run s =
      (.throw e, s')) :
    startNode ∉ s.this.browsedNodes ∧ startNode ∈ s'.this.browsedNodes := by
  obtain ⟨fuel, rfl⟩ : ∃ k, fuel = k + 1 := by
    refine Nat.exists_eq_succ_of_ne_zero fun hzero => ?_
    subst hzero
    exact absurd (congrArg Prod.fst h) (Outcome.stuck_ne_throw _ _)
  refine ⟨fun hmem => ?_, ?_⟩
  · rw [run_of_reached client reader hmem] at h
    exact absurd (congrArg Prod.fst h) (Outcome.ok_ne_throw _ _)
  · have hreached := (leaves_reached client reader fuel startNode pTypeDefinition s).1
    rwa [h] at hreached

/-- The type of a candidate is looked up without an exception, unless the Browse for its interface
fails. -/
theorem ends_placeholderTypeDefinition (r : BrowseResult) (s : Session ω) :
    (placeholderTypeDefinition client r).Ends s fun out s' =>
      s'.this = s.this ∧ ((∃ e, out = .throw e) ↔ InterfaceFails client r s) := by
  unfold placeholderTypeDefinition
  split_ifs with hbase
  · rw [Prog.ends_bind, ask, Prog.ends_zoom, Prog.ends_call]
    constructor
    · intro ifs w h
      have hsucceeds : ¬ InterfaceFails client r s := by
        rintro ⟨-, e, he⟩
        rw [h] at he
        cases he
      rw [Outcome.follow_ok, Prog.ends_bind, Prog.ends_front]
      refine ⟨fun first rest _ => ⟨rfl, fun h => ?_, fun h => absurd h hsucceeds⟩,
        fun _ => ⟨rfl, fun h => ?_, fun h => absurd h hsucceeds⟩⟩
      · obtain ⟨e, he⟩ := h
        cases he
      · obtain ⟨e, he⟩ := h
        cases he
    · intro e w h
      exact ⟨rfl, fun _ => ⟨hbase, e, by rw [h]⟩, fun _ => ⟨e, rfl⟩⟩
  · refine ⟨rfl, fun h => ?_, fun h => absurd h.1 hbase⟩
    obtain ⟨e, he⟩ := h
    cases he

/-- **One candidate**: it is passed over, it becomes an instance, or it throws, and then it has
reached a new node unless the Browse for its interface has failed. -/
theorem ends_candidate (fuel : ℕ) (instances : List (PlaceholderElement Node)) (r : BrowseResult)
    (s : Session ω) :
    (candidate client reader fuel instances r).Ends s fun out s' =>
      (∀ instances', out = .ok instances' →
        (instances' = instances ∧ ∀ n, n ∈ s'.this.browsedNodes ↔ n ∈ s.this.browsedNodes) ∨
          ∃ el, instances' = instances ++ [el]) ∧
      ∀ e, out = .throw e →
        (InterfaceFails client r s ∧ ∀ n, n ∈ s'.this.browsedNodes ↔ n ∈ s.this.browsedNodes) ∨
          ¬ InterfaceFails client r s ∧
            r.nodeId ∉ s.this.browsedNodes ∧ r.nodeId ∈ s'.this.browsedNodes := by
  rw [candidate, preparePlaceholderNodeTypeId, Prog.ends_bind]
  refine (ends_placeholderTypeDefinition client r s).mono fun out s₁ h₁ => ?_
  obtain ⟨hsame, hthrow⟩ := h₁
  have hreached : ∀ n, n ∈ s₁.this.browsedNodes ↔ n ∈ s.this.browsedNodes := fun n => by rw [hsame]
  cases out with
  | stuck w => exact ⟨fun _ h => (by cases h), fun _ h => by cases h⟩
  | throw e =>
    exact ⟨fun _ h => (by cases h), fun e' _ => Or.inl ⟨hthrow.mp ⟨e, rfl⟩, hreached⟩⟩
  | ok typeDefinition =>
    have hsucceeds : ¬ InterfaceFails client r s := by
      rw [← hthrow]
      simp
    rw [Outcome.follow_ok]
    split
    · rename_i sharedPossibleType _
      rw [Prog.ends_bind]
      -- an expansion that fails has entered the candidate among the browsed nodes
      rcases hrun : (transformToNodeIds client reader fuel r.nodeId sharedPossibleType).run s₁
        with ⟨node | e | w, s₂⟩
      · rw [Prog.Ends, hrun]
        refine ⟨fun _ h => ?_, fun _ h => by cases h⟩
        obtain rfl := Outcome.ok.inj h
        exact Or.inr ⟨_, rfl⟩
      · rw [Prog.Ends, hrun]
        refine ⟨fun _ h => (by cases h), fun _ _ => Or.inr ⟨hsucceeds, ?_⟩⟩
        rw [← hsame]
        exact reached_of_throw hrun
      · rw [Prog.Ends, hrun]
        exact ⟨fun _ h => (by cases h), fun _ h => by cases h⟩
    · refine ⟨fun _ h => ?_, fun _ h => by cases h⟩
      obtain rfl := Outcome.ok.inj h
      exact Or.inl ⟨rfl, hreached⟩

/-- **The loop that skips** keeps the instances it has; if it adds none, it has reached nothing. -/
theorem ends_foldSkipping_candidate (fuel : ℕ) (browseResults : List BrowseResult)
    (instances : List (PlaceholderElement Node)) (s : Session ω) :
    (foldSkipping forget (candidate client reader fuel) instances browseResults).Ends s
      fun out s' => ∀ instances', out = .ok instances' → ∃ more, instances' = instances ++ more ∧
        (more = [] → ∀ n, n ∈ s'.this.browsedNodes ↔ n ∈ s.this.browsedNodes) := by
  refine Prog.ends_foldEach (fun _ instances₁ s₁ => ∃ more, instances₁ = instances ++ more ∧
    (more = [] → ∀ n, n ∈ s₁.this.browsedNodes ↔ n ∈ s.this.browsedNodes))
    (fun r rest instances₁ s₁ hI => ?_) (fun instances₁ s₁ hI instances' h => ?_) browseResults
    ⟨[], (List.append_nil _).symm, fun _ _ => Iff.rfl⟩
  · obtain ⟨more, rfl, hnone⟩ := hI
    rw [Prog.ends_attempt]
    refine (ends_candidate client reader fuel _ r s₁).mono fun out s₂ h₂ => ?_
    obtain ⟨hok, -⟩ := h₂
    cases out with
    | stuck w => exact fun _ h => by cases h
    | throw e => exact ⟨more, rfl, hnone⟩
    | ok instances₂ =>
      rcases hok instances₂ rfl with ⟨rfl, hsame⟩ | ⟨el, rfl⟩
      · exact ⟨more, rfl, fun hmore n => (hsame n).trans (hnone hmore n)⟩
      · exact ⟨more ++ [el], by simp, fun hmore => absurd hmore (by simp)⟩
  · obtain rfl := Outcome.ok.inj h
    exact hI

variable {client reader}

/-- If no instance remains, then what does not fail has reached nothing. -/
theorem reached_of_none_remains {fuel : ℕ} {browseResults : List BrowseResult}
    {s₁ s₂ s₃ : Session ω} {instances : List (PlaceholderElement Node)} {r : BrowseResult}
    (hfirst : FirstFailure (candidate client reader fuel) [] browseResults s₁ instances r s₂)
    (hnone : (foldSkipping forget (candidate client reader fuel) [] browseResults).run s₁ =
      (.ok [], s₃)) (n : NodeId) :
    (n ∈ s₂.this.browsedNodes ↔ n ∈ s₁.this.browsedNodes) ∧
      (n ∈ s₃.this.browsedNodes ↔ n ∈ s₁.this.browsedNodes) := by
  -- the instances before the first failure are among those that remain
  have hinstances : instances = [] := by
    obtain ⟨after, hafter⟩ := hfirst.run_foldSkipping forget
    have hrest := ends_foldSkipping_candidate client reader fuel (r :: after) instances s₂
    rw [Prog.Ends, ← hafter, hnone] at hrest
    obtain ⟨more, hmore, -⟩ := hrest [] rfl
    exact (List.append_eq_nil_iff.mp hmore.symm).1
  constructor
  · obtain ⟨before, after, -, hrun, -⟩ := hfirst
    have hbefore := ends_foldSkipping_candidate client reader fuel before [] s₁
    have hreturns : ∀ e, ((Prog.foldEach (candidate client reader fuel) [] before).run s₁).1 ≠
        .throw e := fun e => by simp [hrun]
    rw [Prog.Ends, Prog.run_foldSkipping hreturns, hrun] at hbefore
    obtain ⟨more, hmore, hreached⟩ := hbefore instances rfl
    exact hreached (by simpa [hinstances] using hmore.symm) n
  · have hall := ends_foldSkipping_candidate client reader fuel browseResults [] s₁
    rw [Prog.Ends, hnone] at hall
    obtain ⟨more, hmore, hreached⟩ := hall [] rfl
    exact hreached (by simpa using hmore.symm) n

/-! ### When failures are local -/

section Answered

variable {fuel : ℕ} {startNode : NodeId} {found : List Node} {pChild : NodeRef}
  {browseResults : List BrowseResult} {s₁ : Session ω}
  (hask : (ask (client.browseTyped startNode (reader.node pChild).referenceType
    (reader.node pChild).specifiedTypeNodeId)).run s = (.ok browseResults, s₁))

include hask

theorem run_remainingInstances :
    (remainingInstances client reader fuel startNode pChild).run s =
      (foldSkipping forget (candidate client reader fuel) [] browseResults).run s₁ := by
  rw [remainingInstances, Prog.run_bind, Prog.run_catching, hask]

/-- What the placeholder comes to when its candidates are known. -/
theorem run_optionalPlaceholder (fuel : ℕ) (found : List Node)
    (hrule : (reader.node pChild).modellingRule = .optionalPlaceholder) :
    (optionalAndMandatoryPlaceholderTransformToNodeId client reader
        (transformToNodeIds client reader fuel) startNode found pChild).run s =
      ((do
        let instances ← Prog.foldEach (candidate client reader fuel) [] browseResults
        pure (true, found ++ [.placeholder (reader.node pChild).toNodeDefinition instances]) :
          ClientM ω (Bool × List Node)).catching fun _ => pure (false, found)).run s₁ := by
  simp only [optionalAndMandatoryPlaceholderTransformToNodeId, browsePlaceholder,
    preparePlaceholderNodesTypeId, Prog.run_catching, Prog.run_bind, hask, hrule]
  rcases hloop : (Prog.foldEach (candidate client reader fuel) [] browseResults).run s₁
    with ⟨instances | e | w, s₂⟩
  · rfl
  · rfl
  · rfl

/-- **When failures are local**, once the candidates are known. -/
theorem failsLocally_iff_of_answered
    (hrule : (reader.node pChild).modellingRule = .optionalPlaceholder) :
    FailsLocally client reader fuel startNode found pChild s ↔
      ∀ instances r s₂,
        FirstFailure (candidate client reader fuel) [] browseResults s₁ instances r s₂ →
        InterfaceFails client r s₂ ∧
          ((remainingInstances client reader fuel startNode pChild).run s).1 = .ok [] := by
  have hremaining : (remainingInstances client reader fuel startNode pChild).run s =
      (foldSkipping forget (candidate client reader fuel) [] browseResults).run s₁ :=
    run_remainingInstances hask
  have hcode := run_optionalPlaceholder hask fuel found hrule
  rw [Prog.run_catching, Prog.run_bind] at hcode
  rcases hloop : (Prog.foldEach (candidate client reader fuel) [] browseResults).run s₁
    with ⟨instances | e | w, s₂⟩
  · -- no candidate fails
    have hreturns : ∀ e, ((Prog.foldEach (candidate client reader fuel) [] browseResults).run
        s₁).1 ≠ .throw e := fun e => by simp [hloop]
    refine ⟨fun _ instances' r s₃ hfirst => ?_, fun _ b found' s' h => ?_⟩
    · obtain ⟨e, he⟩ := hfirst.throws
      exact absurd he (hreturns e)
    · rw [hcode, hloop] at h
      obtain ⟨hout, rfl⟩ := Prod.mk.inj h
      obtain ⟨-, rfl⟩ := Prod.mk.inj (Outcome.ok.inj hout)
      refine ⟨instances, s₂, ?_, Or.inl rfl, fun _ => Iff.rfl⟩
      rw [hremaining, Prog.run_foldSkipping hreturns, hloop]
  · -- the placeholder is dropped, with what the first failure has reached
    have hdropped : (optionalAndMandatoryPlaceholderTransformToNodeId client reader
        (transformToNodeIds client reader fuel) startNode found pChild).run s =
          (.ok (false, found), s₂) := by
      rw [hcode, hloop]
      rfl
    constructor
    · intro hlocal instances r s₃ hfirst
      obtain ⟨remaining, s₄, hrun, hfound, hsame⟩ := hlocal false found s₂ hdropped
      obtain rfl : remaining = [] := by
        rcases hfound with h | h
        · simp at h
        · exact h.1
      have hreached := reached_of_none_remains hfirst (hremaining.symm.trans hrun)
      have hfailed := ends_candidate client reader fuel instances r s₃
      rw [Prog.Ends, ← hfirst.run_eq, hloop] at hfailed
      refine ⟨?_, by rw [hrun]⟩
      rcases hfailed.2 e rfl with ⟨hinterface, -⟩ | ⟨-, hnew, hnow⟩
      · exact hinterface
      · have hfirst := (hreached r.nodeId).2.mp ((hsame r.nodeId).mp hnow)
        exact absurd ((hreached r.nodeId).1.mpr hfirst) hnew
    · intro hall b found' s' h
      rw [hdropped] at h
      obtain ⟨hout, rfl⟩ := Prod.mk.inj h
      obtain ⟨-, rfl⟩ := Prod.mk.inj (Outcome.ok.inj hout)
      obtain ⟨instances, r, s₃, hfirst, hr⟩ := Prog.exists_firstFailure hloop
      obtain ⟨hinterface, hnone⟩ := hall instances r s₃ hfirst
      have hrun : (remainingInstances client reader fuel startNode pChild).run s =
          (.ok [], _) := Prod.ext hnone rfl
      refine ⟨[], _, hrun, Or.inr ⟨rfl, rfl⟩, fun n => ?_⟩
      have hreached := reached_of_none_remains hfirst (hremaining.symm.trans hrun)
      have hfailed := ends_candidate client reader fuel instances r s₃
      rw [Prog.Ends, hr] at hfailed
      rcases hfailed.2 e rfl with ⟨-, hsame⟩ | ⟨hsucceeds, -⟩
      · rw [hsame, (hreached n).1, (hreached n).2]
      · exact absurd hinterface hsucceeds
  · -- nothing is said about undefined behaviour
    refine ⟨fun _ instances' r s₃ hfirst => ?_, fun _ b found' s' h => ?_⟩
    · obtain ⟨e, he⟩ := hfirst.throws
      rw [hloop] at he
      exact absurd he (Outcome.stuck_ne_throw _ _)
    · rw [hcode, hloop] at h
      exact absurd (congrArg Prod.fst h) (by simp)

end Answered

/-- **When failures are local.** The instances of an optional placeholder and the nodes reached
are those that they should be if and only if no candidate fails, or there is nothing to lose: the
first failure is that of a Browse for an interface, and no other candidate becomes an instance. -/
theorem failsLocally_iff {fuel : ℕ} {startNode : NodeId} {found : List Node} {pChild : NodeRef}
    (hrule : (reader.node pChild).modellingRule = .optionalPlaceholder) :
    FailsLocally client reader fuel startNode found pChild s ↔
      ∀ browseResults s₁, (ask (client.browseTyped startNode (reader.node pChild).referenceType
          (reader.node pChild).specifiedTypeNodeId)).run s = (.ok browseResults, s₁) →
        ∀ instances r s₂,
          FirstFailure (candidate client reader fuel) [] browseResults s₁ instances r s₂ →
          InterfaceFails client r s₂ ∧
            ((remainingInstances client reader fuel startNode pChild).run s).1 = .ok [] := by
  rcases hask : (ask (client.browseTyped startNode (reader.node pChild).referenceType
    (reader.node pChild).specifiedTypeNodeId)).run s with ⟨browseResults | e | w, s₁⟩
  · rw [failsLocally_iff_of_answered hask hrule]
    refine ⟨fun h browseResults' s₁' hsame => ?_, fun h => h browseResults s₁ rfl⟩
    obtain ⟨hout, rfl⟩ := Prod.mk.inj hsame
    obtain rfl := Outcome.ok.inj hout
    exact h
  · -- without candidates there is no placeholder, and nothing is reached
    refine ⟨fun _ _ _ h => absurd (congrArg Prod.fst h).symm (Outcome.ok_ne_throw _ _),
      fun _ b found' s' h => ?_⟩
    have hdropped : (optionalAndMandatoryPlaceholderTransformToNodeId client reader
        (transformToNodeIds client reader fuel) startNode found pChild).run s =
          (.ok (false, found), s₁) := by
      simp only [optionalAndMandatoryPlaceholderTransformToNodeId, browsePlaceholder,
        Prog.run_catching, Prog.run_bind, hask, hrule]
      rfl
    rw [hdropped] at h
    obtain ⟨hout, rfl⟩ := Prod.mk.inj h
    obtain ⟨-, rfl⟩ := Prod.mk.inj (Outcome.ok.inj hout)
    refine ⟨[], s₁, ?_, Or.inr ⟨rfl, rfl⟩, fun _ => Iff.rfl⟩
    rw [remainingInstances, Prog.run_bind, Prog.run_catching, hask]
    rfl
  · refine ⟨fun _ _ _ h => absurd (congrArg Prod.fst h) (by simp), fun _ b found' s' h => ?_⟩
    simp only [optionalAndMandatoryPlaceholderTransformToNodeId, browsePlaceholder,
      Prog.run_catching, Prog.run_bind, hask] at h
    exact absurd (congrArg Prod.fst h) (by simp)

/-! ### A rack with a port that a slot shares -/

namespace SharedPort

/-- An optional port with a state. -/
def port : BrowseTree :=
  .node ⟨.object, ⟨"urn:rack", "i=31"⟩, ⟨"urn:rack", "i=3"⟩, WellKnown.hasComponent,
    ⟨"urn:rack", "Port"⟩⟩ .optional
    [.node ⟨.variable, ⟨"urn:rack", "i=32"⟩, ⟨"urn:rack", "i=4"⟩, WellKnown.hasComponent,
      ⟨"urn:rack", "State"⟩⟩ .optional []]

/-- A rack has slots, which are optional, and a port. A slot has a port and a serial number, which
is mandatory. -/
def types : TypeHierarchy where
  variableTypes :=
    [.node ⟨.variableType, ⟨"urn:rack", "i=4"⟩, ⟨"", ""⟩, WellKnown.hasComponent,
      ⟨"urn:rack", "StateType"⟩⟩ .optional []]
  objectTypes :=
    [.node ⟨.objectType, ⟨"urn:rack", "i=1"⟩, ⟨"", ""⟩, WellKnown.hasComponent,
      ⟨"urn:rack", "RackType"⟩⟩ .optional
      [.node ⟨.object, ⟨"urn:rack", "i=21"⟩, ⟨"urn:rack", "i=2"⟩, WellKnown.hasComponent,
        ⟨"urn:rack", "Slot"⟩⟩ .optionalPlaceholder [], port],
      .node ⟨.objectType, ⟨"urn:rack", "i=2"⟩, ⟨"", ""⟩, WellKnown.hasComponent,
        ⟨"urn:rack", "SlotType"⟩⟩ .optional
        [port,
        .node ⟨.variable, ⟨"urn:rack", "i=22"⟩, ⟨"urn:rack", "i=4"⟩, WellKnown.hasComponent,
          ⟨"urn:rack", "Serial"⟩⟩ .mandatory []]]

def typeReader : OpcUaTypeReader :=
  (OpcUaTypeReader.create ["urn:rack"] []).readTypes types [WellKnown.ns0Uri, "urn:rack"]

/-- The entry of the rack type. -/
def portedRack : NodeRef := (typeReader.typeMap[(⟨"urn:rack", "i=1"⟩ : NodeId)]?).getD 0

/-- The placeholder for the slots. -/
def slots : NodeRef := (typeReader.heap.children portedRack).headD 0

/-- A slot of the server. -/
def slot (id name : String) : BrowseResult :=
  ⟨.object, ⟨"urn:rack", id⟩, ⟨"urn:rack", "i=2"⟩, WellKnown.hasComponent, ⟨"urn:rack", name⟩⟩

/-- The first slot shares the port of the rack and has no serial number. -/
def answers (found : List BrowseResult) : Answers where
  browse _ _ := .ok []
  browseWithResultTypeFilter _ _ _ := .ok found
  translateBrowsePathToNodeId n q :=
    if q.name = "State" then .ok ⟨"urn:rack", "i=16"⟩
    else if q.name = "Serial" then
      if n.id = "i=11" then .error (.opcUa "BadNoMatch") else .ok ⟨"urn:rack", "i=14"⟩
    else if n.id = "i=12" then .ok ⟨"", ""⟩
    else .ok ⟨"urn:rack", "i=15"⟩

/-- The server with both slots. -/
def twoSlots : Answers := answers [slot "i=11" "Slot1", slot "i=12" "Slot2"]

def rack : NodeId := ⟨"urn:rack", "i=10"⟩

/-- The expansion of the placeholder on the server with both slots. -/
def expandedSlots : Prog Exception (Session Unit) (Bool × List Node) :=
  optionalAndMandatoryPlaceholderTransformToNodeId twoSlots.client typeReader
    (transformToNodeIds twoSlots.client typeReader 4) rack [] slots

/-- The slots that should remain of them. -/
def remainingSlots : Prog Exception (Session Unit) (List (PlaceholderElement Node)) :=
  remainingInstances twoSlots.client typeReader 4 rack slots

def session : Session Unit := ⟨(), .new⟩

end SharedPort

open SharedPort in
/-- The second slot is a slot of the rack, if it is the only one. -/
theorem failsLocally_secondSlot :
    FailsLocally (answers [slot "i=12" "Slot2"]).client typeReader 4 rack [] slots session := by
  refine (failsLocally_iff (by decide +kernel)).mpr fun browseResults s₁ hask instances r s₂
    hfirst => ?_
  have hanswer : (ask ((answers [slot "i=12" "Slot2"]).client.browseTyped rack
      (typeReader.node slots).referenceType (typeReader.node slots).specifiedTypeNodeId)).run
        session = (.ok [slot "i=12" "Slot2"], session) := rfl
  obtain ⟨hout, rfl⟩ := Prod.mk.inj (hanswer.symm.trans hask)
  obtain rfl := Outcome.ok.inj hout
  have hreturns : ((Prog.foldEach (candidate (answers [slot "i=12" "Slot2"]).client typeReader 4) []
      [slot "i=12" "Slot2"]).run session).1.Returns := by
    decide +kernel
  obtain ⟨e, he⟩ := hfirst.throws
  rw [he] at hreturns
  exact absurd hreturns (Outcome.not_returns_throw e)

open SharedPort in
/-- The second slot is dropped when the first one fails. -/
theorem not_failsLocally :
    ¬ ∀ (A : Answers) (expectedObjectTypeNamespaces namespaces : List String)
      (namespaceInformations : List NamespaceInformation) (H : TypeHierarchy) (fuel : ℕ)
      (startNode : NodeId) (found : List Node) (pChild : NodeRef) (s : Session Unit),
      (((OpcUaTypeReader.create expectedObjectTypeNamespaces namespaceInformations).readTypes H
        namespaces).node pChild).modellingRule = .optionalPlaceholder →
      FailsLocally A.client ((OpcUaTypeReader.create expectedObjectTypeNamespaces
        namespaceInformations).readTypes H namespaces) fuel startNode found pChild s := by
  intro hall
  have hlocal : FailsLocally twoSlots.client typeReader 4 rack [] slots session :=
    hall twoSlots ["urn:rack"] [WellKnown.ns0Uri, "urn:rack"] [] types 4 rack [] slots session
      (by decide +kernel)
  have hreturns : (expandedSlots.run session).1.Returns := by
    decide +kernel
  obtain ⟨⟨b, found'⟩, hreturns⟩ := Outcome.returns_iff.mp hreturns
  have hrun : expandedSlots.run session = (.ok (b, found'), (expandedSlots.run session).2) :=
    Prod.ext hreturns rfl
  obtain ⟨instances, s'', hslots, hpublished, -⟩ := hlocal b found' _ hrun
  have hinstances : remainingSlots.run session = (.ok instances, s'') := hslots
  have hfound : (((fun r => r.2.length) <$> expandedSlots).run session).1 = .ok 0 := by
    decide +kernel
  have hremaining : (((fun is => is.length) <$> remainingSlots).run session).1 = .ok 1 := by
    decide +kernel
  rw [Prog.fst_run_map hrun] at hfound
  rw [Prog.fst_run_map hinstances] at hremaining
  have hnone : found'.length = 0 := Outcome.ok.inj hfound
  have hone : instances.length = 1 := Outcome.ok.inj hremaining
  rcases hpublished with h | h
  · rw [h, List.length_append] at hnone
    exact absurd hnone (Nat.succ_ne_zero _)
  · rw [h.1] at hone
    exact absurd hone.symm (Nat.succ_ne_zero 0)

open SharedPort in
/-- Nor is the state of the port found, although the rack has the port. -/
example : ((variablePtrs <$> transformToNodeIds twoSlots.client typeReader 4 rack portedRack).run
    session).1 = .ok [] := by
  decide +kernel

end DashboardClient

end UmatiDashboard
