import UmatiDashboard.DataClient.Answers
import UmatiDashboard.Effect.Keeps
import UmatiDashboard.Gateway.MainLoop
import UmatiDashboard.TypeReader.TypeSearchTermination

/-!
# Reading the types over a data client

`readTypes` sees the server through the data client, whose calls may fail at any time. If a Browse
fails, the attempt fails; if `BrowseModellingRule` fails, browsing goes on with the rule none. So an
attempt that returns has seen all the types of the server, and only rules may be missing
(`leaves_browseHierarchy`).
-/

namespace UmatiDashboard

/-! ### Modelling rules -/

namespace BrowseContext

/-- Objects, variables and their types. -/
def objectAndVariableWithTypes : BrowseContext :=
  { nodeClassMask := 0x1B, referenceTypeId := WellKnown.hierarchicalReferences }

def objects : BrowseContext := { nodeClassMask := 0x01 }

end BrowseContext

/-- The modelling rule that an object of this name stands for. -/
def ModellingRule.ofName (name : String) : Option ModellingRule :=
  if name = "Mandatory" then some .mandatory
  else if name = "Optional" then some .optional
  else if name = "MandatoryPlaceholder" then some .mandatoryPlaceholder
  else if name = "OptionalPlaceholder" then some .optionalPlaceholder
  else none

/-- The loop of `BrowseModellingRule`. -/
def ModellingRule.ofResults (browseResults : List BrowseResult) : ModellingRule :=
  (browseResults.findSome? fun browseResult => ofName browseResult.browseName.name).getD .optional

/-- The answers of a server about its types. -/
def Answers.typeAnswers (A : Answers) : TypeAnswers where
  browse n := A.browse n .objectAndVariableWithTypes
  browseModellingRule n := (A.browse n .objects).map ModellingRule.ofResults

/-! ### The program -/

/-- What `readTypes` does when it has browsed the types. -/
def OpcUaTypeReader.fill (reader : OpcUaTypeReader) (namespaces : List String)
    (browsed : List StructureBiNode × TypeBrowse) : OpcUaTypeReader :=
  let st := (TypeMapState.setupNamespaces (bidirectionalTypeMap browsed.1) namespaces
    reader.expectedObjectTypeNamespaces ⟨browsed.2.heap, reader.typeMap⟩).updateTypeMap
  { reader with
    heap := st.heap
    typeMap := st.typeMap
    nameToId := browsed.2.nameToId }.updateObjectTypeNames

theorem OpcUaTypeReader.fill_browse (reader : OpcUaTypeReader) (H : TypeHierarchy)
    (namespaces : List String) :
    reader.fill namespaces (H.browse reader.nameToId) = reader.readTypes H namespaces := rfl

namespace IDashboardDataClient

variable {ω : Type} (client : IDashboardDataClient ω)

/-- Browsing the types, with the state of the client. -/
abbrev TypesM (ω : Type) := Prog Exception (LinkedBrowse × ω)

/-- Ask the client. -/
def askTypes {α : Type} (f : ω → Except Exception α × ω) : TypesM ω α :=
  .call fun s => ((f s.2).1, (s.1, (f s.2).2))

/-- File a Browse answer. -/
def fileType (entry : BrowseResult) (rule : ModellingRule) (flag : Bool)
    (parent : Option NodeRef) : TypesM ω (NodeRef × Bool) :=
  .call fun s => (.ok (s.1.file entry rule flag parent).1,
    ((s.1.file entry rule flag parent).2, s.2))

def browseModellingRule (nodeId : NodeId) : TypesM ω ModellingRule := do
  let browseResults ← askTypes (client.browse nodeId .objects)
  pure (.ofResults browseResults)

/-- The rule of a node that `browseTypes` comes to; none if it cannot be found out. -/
def modellingRule (nodeId : NodeId) : TypesM ω ModellingRule :=
  (client.browseModellingRule nodeId).catching fun e =>
    if e.isUmatiException then pure .none else .throw e

/-- The body of the loop of `browseTypes`. -/
def browseTypeResult (flag : Bool)
    (browse : NodeId → Option NodeRef → TypesM ω (List StructureBiNode))
    (parent : Option NodeRef) (children : List StructureBiNode) (browseResult : BrowseResult) :
    TypesM ω (List StructureBiNode) := do
  let rule ← client.modellingRule browseResult.nodeId
  let current ← fileType browseResult rule flag parent
  let below ← browse browseResult.nodeId (LinkedBrowse.lock current parent)
  pure (children ++ [.mk current.1 browseResult.nodeId current.2 (current.2 && flag) below])

/-- Browse the references of a node, and below each of them. -/
def browseTypes (flag : Bool) : ℕ → NodeId → Option NodeRef → TypesM ω (List StructureBiNode)
  | 0, _, _ => .stuck .outOfFuel
  | fuel + 1, startNodeId, parent => do
    let browseResults ← askTypes (client.browse startNodeId .objectAndVariableWithTypes)
    Prog.foldEach (client.browseTypeResult flag (browseTypes flag fuel) parent) [] browseResults

/-- Browse from one starting point. -/
def browseTypesFrom (fuel : ℕ) (startNodeId : NodeId) (flag : Bool) :
    TypesM ω StructureBiNode := do
  let startType ← fileType (TypeBrowse.startEntry startNodeId) .mandatory flag none
  let below ← client.browseTypes flag fuel startNodeId (LinkedBrowse.lock startType none)
  pure (.mk startType.1 startNodeId startType.2 (startType.2 && flag) below)

/-- Browse the variable types and then the object types. -/
def browseHierarchy (fuel : ℕ) : TypesM ω (List StructureBiNode × TypeBrowse) := do
  let variableTypes ← client.browseTypesFrom fuel WellKnown.baseVariableType true
  let objectTypes ← client.browseTypesFrom fuel WellKnown.baseObjectType false
  let s ← Prog.get
  pure ([variableTypes, objectTypes], s.1.types)

/-- `readTypes`. The names that were found stay with the type reader, also if it throws. -/
def readTypes (fuel : ℕ) (namespaces : List String) :
    Prog Exception (OpcUaTypeReader × ω) Unit := do
  let browsed ← (client.browseHierarchy fuel).zoom (fun r => (.start r.1.nameToId, r.2))
    fun s r => ({ r.1 with nameToId := s.1.types.nameToId }, s.2)
  Prog.modify fun r => (r.1.fill namespaces browsed, r.2)

/-- The loop of `main` that reads the types, with what happens to the client before each
attempt. -/
def readTypesLoop (fuel : ℕ) (namespaces : List String) :
    List (ω → ω) → Prog Exception (OpcUaTypeReader × ω) Unit
  | [] => .stuck .outOfFuel
  | meanwhile :: rest => do
    Prog.modify fun r => (r.1, meanwhile r.2)
    (client.readTypes fuel namespaces).catching fun e =>
      if Gateway.isRetried e then readTypesLoop fuel namespaces rest else .throw e

end IDashboardDataClient

/-! ### What is seen of the server -/

/-- The client answers every Browse as the server does, or it fails. -/
def IDashboardDataClient.BrowsesAs {ω : Type} (client : IDashboardDataClient ω) (A : Answers)
    (mayFail : Prop) : Prop :=
  ∀ n ctx w, (client.browse n ctx w).1 = A.browse n ctx ∨
    mayFail ∧ ∃ e, (client.browse n ctx w).1 = .error e

/-- The rule is the one of the node, or none because a call has failed. -/
def Answers.SeesRule (A : Answers) (mayFail : Prop) (n : NodeId) (rule : ModellingRule) : Prop :=
  A.typeAnswers.modellingRule n = .ok rule ∨ mayFail ∧ rule = .none

namespace BrowseTree

section Seen

variable (A : Answers) (mayFail : Prop)

mutual

/-- The tree is the one below its reference, but for rules that a failed call has left out. -/
def SeenBy : BrowseTree → Prop
  | node e rule references => A.SeesRule mayFail e.nodeId rule ∧
      A.typeAnswers.browse e.nodeId = .ok (references.map entry) ∧ SeenByAll references

def SeenByAll : List BrowseTree → Prop
  | [] => True
  | t :: ts => t.SeenBy ∧ SeenByAll ts

end

end Seen

mutual

/-- The tree without its rules. -/
def withoutRules : BrowseTree → BrowseTree
  | node e _ references => node e .none (withoutRulesAll references)

def withoutRulesAll : List BrowseTree → List BrowseTree
  | [] => []
  | t :: ts => t.withoutRules :: withoutRulesAll ts

end

theorem entry_withoutRules : ∀ t : BrowseTree, t.withoutRules.entry = t.entry
  | node _ _ _ => rfl

theorem map_entry_withoutRulesAll : ∀ ts : List BrowseTree,
    (withoutRulesAll ts).map entry = ts.map entry
  | [] => rfl
  | t :: ts => by
    rw [withoutRulesAll, List.map_cons, List.map_cons, entry_withoutRules,
      map_entry_withoutRulesAll ts]

mutual

theorem typesFound_withoutRules : ∀ t : BrowseTree, t.withoutRules.typesFound = t.typesFound
  | node e rule references => by
    rw [withoutRules, typesFound, typesFound, typesFoundAll_withoutRulesAll references]

theorem typesFoundAll_withoutRulesAll : ∀ ts : List BrowseTree,
    typesFoundAll (withoutRulesAll ts) = typesFoundAll ts
  | [] => rfl
  | t :: ts => by
    rw [withoutRulesAll, typesFoundAll, typesFoundAll, typesFound_withoutRules t,
      typesFoundAll_withoutRulesAll ts]

end

variable {A : Answers} {mayFail : Prop}

mutual

/-- Without its rules the tree is that of a server that tells no rules. -/
theorem SeenBy.answered : ∀ {t : BrowseTree}, t.SeenBy A mayFail →
    t.withoutRules.Answered ⟨A.typeAnswers.browse, fun _ => .ok .none⟩
  | node e rule references, h =>
    ⟨rfl, by rw [map_entry_withoutRulesAll]; exact h.2.1, SeenByAll.answeredAll h.2.2⟩

theorem SeenByAll.answeredAll : ∀ {ts : List BrowseTree}, SeenByAll A mayFail ts →
    AnsweredAll ⟨A.typeAnswers.browse, fun _ => .ok .none⟩ (withoutRulesAll ts)
  | [], _ => trivial
  | _ :: _, h => ⟨SeenBy.answered h.1, SeenByAll.answeredAll h.2⟩

end

/-- The types that are found from a starting point. -/
theorem mem_typesFound_of_seen {start x : NodeId} {ts : List BrowseTree}
    (hbrowse : A.typeAnswers.browse start = .ok (ts.map entry)) (hseen : SeenByAll A mayFail ts) :
    x ∈ (TypeBrowse.startTree start ts).typesFound ↔
      x = start ∨ A.typeAnswers.ReachesType start x := by
  have hanswered : x ∈ (TypeBrowse.startTree start (withoutRulesAll ts)).typesFound ↔
      x = start ∨ A.typeAnswers.ReachesType start x :=
    mem_typesFound_startTree (A := ⟨A.typeAnswers.browse, fun _ => .ok .none⟩)
      ((map_entry_withoutRulesAll ts).symm ▸ hbrowse) hseen.answeredAll
  rw [← hanswered, TypeBrowse.startTree, TypeBrowse.startTree, typesFound, typesFound,
    typesFoundAll_withoutRulesAll]

end BrowseTree

/-- What is below the two starting points, but for rules that a failed call has left out. -/
structure TypeHierarchy.SeenBy (H : TypeHierarchy) (A : Answers) (mayFail : Prop) : Prop where
  browseVariableTypes :
    A.typeAnswers.browse WellKnown.baseVariableType = .ok (H.variableTypes.map BrowseTree.entry)
  variableTypes : BrowseTree.SeenByAll A mayFail H.variableTypes
  browseObjectTypes :
    A.typeAnswers.browse WellKnown.baseObjectType = .ok (H.objectTypes.map BrowseTree.entry)
  objectTypes : BrowseTree.SeenByAll A mayFail H.objectTypes

/-- All types of the server are found. -/
theorem TypeHierarchy.SeenBy.mem_typesFound {H : TypeHierarchy} {A : Answers} {mayFail : Prop}
    (h : H.SeenBy A mayFail) (x : NodeId) : x ∈ H.typesFound ↔ A.typeAnswers.IsTypeNode x := by
  rw [TypeHierarchy.typesFound, List.mem_append,
    BrowseTree.mem_typesFound_of_seen h.browseVariableTypes h.variableTypes,
    BrowseTree.mem_typesFound_of_seen h.browseObjectTypes h.objectTypes]
  rfl

/-! ### Browsing that returns -/

/-- A tree, when it is known what is below its reference. -/
theorem TypeBrowse.browseTree_of_below {st st' : TypeBrowse} {entry : BrowseResult}
    {rule : ModellingRule} {flag : Bool} {references : List BrowseTree}
    {below : List StructureBiNode}
    (h : browseTypes flag references (st.handleBrowseTypeResult entry rule flag).2 = (below, st')) :
    browseTree flag (.node entry rule references) st =
      (.mk (st.handleBrowseTypeResult entry rule flag).1.1 entry.nodeId
        (st.handleBrowseTypeResult entry rule flag).1.2
        ((st.handleBrowseTypeResult entry rule flag).1.2 && flag) below, st') := by
  rw [browseTree, h]

namespace IDashboardDataClient

variable {ω : Type} {client : IDashboardDataClient ω} {A : Answers} {mayFail : Prop}
  {s : LinkedBrowse × ω} {flag : Bool} {parent : Option NodeRef}

theorem ends_askTypes {α : Type} {f : ω → Except Exception α × ω}
    {Q : Outcome Exception α → LinkedBrowse × ω → Prop} :
    (askTypes f).Ends s Q ↔ (∀ a, (f s.2).1 = .ok a → Q (.ok a) (s.1, (f s.2).2)) ∧
      ∀ e, (f s.2).1 = .error e → Q (.throw e) (s.1, (f s.2).2) := by
  rw [askTypes, Prog.ends_call]
  cases (f s.2).1 <;> simp

/-- Filing always returns. -/
theorem leaves_fileType_bind {α : Type} {entry : BrowseResult} {rule : ModellingRule}
    {f : NodeRef × Bool → TypesM ω α} {J : LinkedBrowse × ω → Prop}
    {Q : α → LinkedBrowse × ω → Prop}
    (h : (f (s.1.file entry rule flag parent).1).Leaves
      ((s.1.file entry rule flag parent).2, s.2) J Q) :
    (fileType entry rule flag parent >>= f).Leaves s J Q := h

/-- A Browse that returns has the answer of the server. -/
theorem BrowsesAs.eq_of_ok (hclient : client.BrowsesAs A mayFail) {n : NodeId}
    {ctx : BrowseContext} {w : ω} {results : List BrowseResult}
    (h : (client.browse n ctx w).1 = .ok results) : A.browse n ctx = .ok results := by
  rcases hclient n ctx w with hanswer | ⟨-, e, he⟩
  · exact hanswer ▸ h
  · rw [he] at h
    cases h

/-- However a Browse ends, nothing is filed. -/
theorem leaves_askTypes (hclient : client.BrowsesAs A mayFail) (n : NodeId)
    (ctx : BrowseContext) :
    (askTypes (client.browse n ctx)).Leaves s (fun s' => s'.1 = s.1)
      fun results _ => A.browse n ctx = .ok results := by
  rw [Prog.Leaves, ends_askTypes]
  refine ⟨fun results hresults => ⟨rfl, fun _ h => ?_⟩, fun e _ => ⟨rfl, fun _ h => by cases h⟩⟩
  obtain rfl := Outcome.ok.inj h
  exact hclient.eq_of_ok hresults

/-- The rule of a node. -/
theorem leaves_modellingRule (hclient : client.BrowsesAs A mayFail) (n : NodeId) :
    (client.modellingRule n).Leaves s (fun s' => s'.1 = s.1)
      fun rule _ => A.SeesRule mayFail n rule := by
  rw [Prog.Leaves, modellingRule, Prog.ends_catching, browseModellingRule, Prog.ends_bind,
    ends_askTypes]
  refine ⟨fun results hresults => ⟨rfl, fun rule hrule => .inl ?_⟩, fun e he => ?_⟩
  · have hbrowse : A.typeAnswers.browseModellingRule n = .ok (.ofResults results) := by
      change (A.browse n .objects).map ModellingRule.ofResults = _
      rw [hclient.eq_of_ok hresults]
      rfl
    rw [TypeAnswers.modellingRule, hbrowse, Outcome.ok.inj hrule]
  · rw [Outcome.follow_throw, Outcome.rescue_throw]
    split_ifs with humati
    · refine ⟨rfl, fun rule hrule => ?_⟩
      obtain rfl := Outcome.ok.inj hrule
      -- the server has no rule to tell, or the call has failed
      rcases hclient n .objects s.2 with hanswer | ⟨hfail, -⟩
      · refine .inl ?_
        have hbrowse : A.typeAnswers.browseModellingRule n = .error e := by
          change (A.browse n .objects).map ModellingRule.ofResults = _
          rw [← hanswer, he]
          rfl
        rw [TypeAnswers.modellingRule, hbrowse]
        exact if_pos humati
      · exact .inr ⟨hfail, rfl⟩
    · exact ⟨rfl, fun rule hrule => by cases hrule⟩

/-- Browsing below a node has gone through its tree if it returns. -/
def SeesTypes (A : Answers) (mayFail : Prop) (flag : Bool)
    (browse : NodeId → Option NodeRef → TypesM ω (List StructureBiNode)) : Prop :=
  ∀ n parent s, (browse n parent).Leaves s (fun _ => True) fun bs s' => ∃ ts,
    A.typeAnswers.browse n = .ok (ts.map BrowseTree.entry) ∧ BrowseTree.SeenByAll A mayFail ts ∧
      TypeBrowse.browseTypes flag ts s.1.types = (bs, s'.1.types)

variable {browse : NodeId → Option NodeRef → TypesM ω (List StructureBiNode)}

/-- One reference. -/
theorem leaves_browseTypeResult (hclient : client.BrowsesAs A mayFail)
    (hbrowse : SeesTypes A mayFail flag browse) (children : List StructureBiNode)
    (r : BrowseResult) :
    (client.browseTypeResult flag browse parent children r).Leaves s (fun _ => True)
      fun bs s' => ∃ t : BrowseTree, t.entry = r ∧ t.SeenBy A mayFail ∧
        bs = children ++ [(TypeBrowse.browseTree flag t s.1.types).1] ∧
        s'.1.types = (TypeBrowse.browseTree flag t s.1.types).2 := by
  rw [browseTypeResult]
  refine (leaves_modellingRule hclient r.nodeId).returned.bind fun rule s₁ _ hfirst => ?_
  obtain ⟨hsame, hrule⟩ := hfirst
  refine leaves_fileType_bind ?_
  refine (hbrowse r.nodeId _ _).bind fun below s₂ _ hreturns => ?_
  obtain ⟨ts, hanswer, hseen, hbelow⟩ := hreturns
  have htree := TypeBrowse.browseTree_of_below hbelow
  rw [hsame] at htree ⊢
  exact Prog.leaves_pure trivial ⟨.node r rule ts, rfl, ⟨hrule, hanswer, hseen⟩,
    by rw [htree]; rfl, (congrArg Prod.snd htree).symm⟩

/-- **The references of one answer**, one after the other. -/
theorem leaves_browseTypeResults (hclient : client.BrowsesAs A mayFail)
    (hbrowse : SeesTypes A mayFail flag browse) :
    ∀ (results : List BrowseResult) (children : List StructureBiNode) (s : LinkedBrowse × ω),
      (Prog.foldEach (client.browseTypeResult flag browse parent) children results).Leaves s
        (fun _ => True) fun bs s' => ∃ ts, ts.map BrowseTree.entry = results ∧
          BrowseTree.SeenByAll A mayFail ts ∧
          bs = children ++ (TypeBrowse.browseTypes flag ts s.1.types).1 ∧
          s'.1.types = (TypeBrowse.browseTypes flag ts s.1.types).2
  | [], children, s =>
    Prog.leaves_pure trivial ⟨[], rfl, trivial, by simp [TypeBrowse.browseTypes], rfl⟩
  | r :: results, children, s => by
    rw [Prog.foldEach_cons]
    refine (leaves_browseTypeResult hclient hbrowse children r).bind fun children' s₁ _ hfirst => ?_
    obtain ⟨t, rfl, hseen, rfl, htypes⟩ := hfirst
    refine (leaves_browseTypeResults hclient hbrowse results _ s₁).mono fun bs s₂ _ hrest => ?_
    obtain ⟨ts, rfl, hseenAll, rfl, htypes'⟩ := hrest
    rw [htypes] at htypes' ⊢
    exact ⟨t :: ts, rfl, ⟨hseen, hseenAll⟩, by simp [TypeBrowse.browseTypes], htypes'⟩

/-- **Browsing** that returns has seen the types below the node. -/
theorem seesTypes_browseTypes (hclient : client.BrowsesAs A mayFail) : ∀ fuel : ℕ,
    SeesTypes A mayFail flag (client.browseTypes flag fuel)
  | 0 => fun _ _ _ => ⟨trivial, fun _ h => by cases h⟩
  | fuel + 1 => by
    intro n parent s
    rw [browseTypes]
    refine (leaves_askTypes hclient n _).returned.bind fun results s₁ _ hresults => ?_
    obtain ⟨hsame, hanswer⟩ := hresults
    refine (leaves_browseTypeResults hclient (seesTypes_browseTypes hclient fuel) results []
      s₁).mono fun bs s' _ hreturns => ?_
    obtain ⟨ts, rfl, hseen, rfl, htypes⟩ := hreturns
    exact ⟨ts, hanswer, hseen, by rw [htypes, ← hsame]; rfl⟩

/-- Browsing from one starting point. -/
theorem leaves_browseTypesFrom (hclient : client.BrowsesAs A mayFail) (fuel : ℕ)
    (start : NodeId) :
    (client.browseTypesFrom fuel start flag).Leaves s (fun _ => True) fun b s' => ∃ ts,
      A.typeAnswers.browse start = .ok (ts.map BrowseTree.entry) ∧
        BrowseTree.SeenByAll A mayFail ts ∧
        TypeBrowse.browseTree flag (TypeBrowse.startTree start ts) s.1.types =
          (b, s'.1.types) := by
  rw [browseTypesFrom]
  refine leaves_fileType_bind ?_
  refine (seesTypes_browseTypes hclient fuel start _ _).bind fun below s' _ hreturns => ?_
  obtain ⟨ts, hanswer, hseen, hbelow⟩ := hreturns
  exact Prog.leaves_pure trivial ⟨ts, hanswer, hseen, TypeBrowse.browseTree_of_below hbelow⟩

/-- **Browsing the hierarchy** that returns has seen all types. -/
theorem leaves_browseHierarchy (hclient : client.BrowsesAs A mayFail) (fuel : ℕ)
    (nameToId : Std.ExtTreeMap String NodeId compare) (w : ω) :
    (client.browseHierarchy fuel).Leaves (.start nameToId, w) (fun _ => True) fun browsed _ =>
      ∃ H : TypeHierarchy, H.SeenBy A mayFail ∧ browsed = H.browse nameToId := by
  rw [browseHierarchy]
  refine (leaves_browseTypesFrom hclient fuel _).bind fun v s₁ _ hvariables => ?_
  obtain ⟨vs, hbrowse, hseen, htypes⟩ := hvariables
  refine (leaves_browseTypesFrom hclient fuel _).bind fun o s₂ _ hobjects => ?_
  obtain ⟨os, hbrowse', hseen', htypes'⟩ := hobjects
  rw [Prog.Leaves, Prog.ends_bind, Prog.ends_get, Outcome.follow_ok]
  refine Prog.leaves_pure trivial ⟨⟨vs, os⟩, ⟨hbrowse, hseen, hbrowse', hseen'⟩, ?_⟩
  rw [TypeHierarchy.browse]
  dsimp only
  rw [show TypeBrowse.browseTree true (TypeBrowse.startTree WellKnown.baseVariableType vs)
    (.start nameToId) = (v, s₁.1.types) from htypes]
  dsimp only
  rw [htypes']

end IDashboardDataClient

end UmatiDashboard
