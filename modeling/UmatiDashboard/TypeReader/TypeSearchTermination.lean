import UmatiDashboard.TypeReader.TypeSearch

/-!
# When browsing the types comes to an end

`browseTypes` notices a type that it has met before, and goes on below it all the same. So it comes
to an end exactly if no node that it comes to leads back to itself. Then every type node that was
reached has one entry of the bidirectional type map for each spelling of its identifier, and the
parent pointers lead from each entry along its bloodline to an end (`browsesTypes_iff`).
-/

namespace UmatiDashboard

open NestedSearch (Step Ending Leads Aborts runSteps ending)

namespace TypeAnswers

variable (A : TypeAnswers)

/-! ### The types that can be reached -/

/-- The server lists the node `m` below `n`. -/
def Refers (n m : NodeId) : Prop :=
  ∃ results, A.browse n = .ok results ∧ ∃ r ∈ results, r.nodeId = m

/-- The server lists the node `x` below `n`, as a type. -/
def RefersToType (n x : NodeId) : Prop :=
  ∃ results, A.browse n = .ok results ∧
    ∃ r ∈ results, TypeBrowse.isTypeClass r.nodeClass = true ∧ r.nodeId = x

/-- A type can be reached from a node, by one reference at least. -/
def ReachesType (n x : NodeId) : Prop :=
  ∃ m, Relation.ReflTransGen A.Refers n m ∧ A.RefersToType m x

/-- **A type node that can be reached.** The starting points are filed as types. -/
def IsTypeNode (x : NodeId) : Prop :=
  (x = WellKnown.baseVariableType ∨ A.ReachesType WellKnown.baseVariableType x) ∨
    (x = WellKnown.baseObjectType ∨ A.ReachesType WellKnown.baseObjectType x)

variable {A}

theorem reachesType_iff {n x : NodeId} : A.ReachesType n x ↔
    A.RefersToType n x ∨ ∃ m, A.Refers n m ∧ A.ReachesType m x := by
  constructor
  · rintro ⟨m, hreach, hm⟩
    rcases hreach.cases_head with rfl | ⟨k, hk, hreach⟩
    · exact .inl hm
    · exact .inr ⟨k, hk, m, hreach, hm⟩
  · rintro (h | ⟨m, hm, k, hreach, hk⟩)
    · exact ⟨n, .refl, h⟩
    · exact ⟨k, hreach.head hm, hk⟩

theorem ReachesType.exists_refers {n x : NodeId} (h : A.ReachesType n x) : ∃ m, A.Refers m x := by
  obtain ⟨m, -, results, hresults, r, hr, -, rfl⟩ := h
  exact ⟨m, results, hresults, r, hr, rfl⟩

/-- The types below a node, by the trees of its references. -/
theorem reachesType_iff_of_browse {n x : NodeId} {ts : List BrowseTree}
    (hbrowse : A.browse n = .ok (ts.map BrowseTree.entry)) : A.ReachesType n x ↔
      ∃ t ∈ ts, (TypeBrowse.isTypeClass t.entry.nodeClass = true ∧ t.entry.nodeId = x) ∨
        A.ReachesType t.entry.nodeId x := by
  rw [reachesType_iff]
  simp only [RefersToType, Refers, hbrowse, Except.ok.injEq, exists_eq_left', List.mem_map,
    exists_exists_and_eq_and]
  constructor
  · rintro (⟨t, ht, h⟩ | ⟨t, ht, h⟩)
    · exact ⟨t, ht, .inl h⟩
    · exact ⟨t, ht, .inr h⟩
  · rintro ⟨t, ht, h | h⟩
    · exact .inl ⟨t, ht, h⟩
    · exact .inr ⟨t, ht, h⟩

end TypeAnswers

namespace BrowseTree

variable {A : TypeAnswers} {x : NodeId}

mutual

/-- The types found in a tree of answers are its own and those that can be reached from it. -/
theorem mem_typesFound : ∀ {t : BrowseTree}, t.Answered A → (x ∈ t.typesFound ↔
    (TypeBrowse.isTypeClass t.entry.nodeClass = true ∧ t.entry.nodeId = x) ∨
      A.ReachesType t.entry.nodeId x)
  | .node e rule references, h => by
    rw [typesFound, List.mem_append, mem_typesFoundAll h.2.2, entry,
      TypeAnswers.reachesType_iff_of_browse h.2.1, List.mem_ite_nil_right, List.mem_singleton,
      eq_comm (a := x)]

theorem mem_typesFoundAll : ∀ {ts : List BrowseTree}, AnsweredAll A ts → (x ∈ typesFoundAll ts ↔
    ∃ t ∈ ts, (TypeBrowse.isTypeClass t.entry.nodeClass = true ∧ t.entry.nodeId = x) ∨
      A.ReachesType t.entry.nodeId x)
  | [], _ => by simp [typesFoundAll]
  | t :: ts, h => by
    rw [typesFoundAll, List.mem_append, mem_typesFound h.1, mem_typesFoundAll h.2]
    simp only [List.mem_cons, exists_eq_or_imp]

end

/-- The types found from a starting point. -/
theorem mem_typesFound_startTree {start : NodeId} {ts : List BrowseTree}
    (hbrowse : A.browse start = .ok (ts.map entry)) (hanswered : AnsweredAll A ts) :
    x ∈ (TypeBrowse.startTree start ts).typesFound ↔ x = start ∨ A.ReachesType start x := by
  rw [TypeBrowse.startTree, typesFound, List.mem_append, mem_typesFoundAll hanswered,
    TypeAnswers.reachesType_iff_of_browse hbrowse]
  simp [TypeBrowse.startEntry, TypeBrowse.isTypeClass]

end BrowseTree

/-! ### Following the parent pointers -/

namespace LinkedBrowse

open StructureBiNode

/-- **The parent pointers** lead from the lower end of a chain along the chain, to its end. -/
theorem Links.bloodline_eq {s s' : LinkedBrowse} {roots : List StructureBiNode}
    (h : Links s s' none roots) : ∀ {line : List StructureBiNode} {fuel : ℕ},
      (line = [] ∨ line ∈ chainsAll [] roots) → line.length ≤ fuel →
      bloodline s'.parents fuel (line.head?.map structureNode) = some (line.map structureNode)
  | [], fuel, _, _ => by cases fuel <;> rfl
  | b :: line, 0, _, hle => by simp at hle
  | b :: line, fuel + 1, hline, hle => by
    have hmem : b :: line ∈ chainsAll [] roots := hline.resolve_left (by simp)
    have hparent : s'.parents b.structureNode = line.head?.map structureNode :=
      h.new [] rfl _ hmem
    have hline' : line = [] ∨ line ∈ chainsAll [] roots := by
      cases line with
      | nil => exact .inl rfl
      | cons y up =>
        rcases parent_mem_chainsAll roots hmem with ⟨-, hempty⟩ | ⟨hup, -⟩
        · cases hempty
        · exact .inr hup
    have ih := h.bloodline_eq hline' (Nat.le_of_succ_le_succ hle)
    change (bloodline s'.parents fuel (s'.parents b.structureNode)).map _ = _
    rw [hparent, ih]
    rfl

end LinkedBrowse

/-! ### The whole hierarchy -/

namespace TypeAnswers

open LinkedBrowse StructureBiNode BrowseTree

variable (A : TypeAnswers)

/-- No node that browsing comes to leads back to itself. -/
def CircleFree : Prop :=
  ∀ n, Relation.ReflTransGen (Leads A.steps) none n → ¬ Relation.TransGen (Leads A.steps) n n

/-- Browsing comes to a call that fails. -/
def Fails : Prop := Aborts A.steps (.nested none)

/-- No type node is reached under two spellings of its identifier. -/
def SpelledOnce : Prop :=
  ∀ x y, A.IsTypeNode x → A.IsTypeNode y → x.equals y = true → x = y

/-- The bidirectional type map has one entry for each type node that can be reached, and the parent
pointers lead from each entry along its bloodline to an end. -/
structure Filed (roots : List StructureBiNode) (parents : NodeRef → Option NodeRef) : Prop where
  entry : ∀ x, A.IsTypeNode x → ∃! key, key ∈ bidirectionalTypeMap roots ∧ key.equals x = true
  isTypeNode : ∀ key ∈ bidirectionalTypeMap roots, A.IsTypeNode key
  once : ((typesBelowAll [] roots).map Prod.fst).Nodup
  ends : ∀ (key : NodeId) line, (bidirectionalTypeMap roots)[key]? = some line →
    ∃ bound, ∀ fuel, bound ≤ fuel →
      bloodline parents fuel (line.head?.map structureNode) = some (line.map structureNode)

/-- With enough fuel browsing comes to an end, and if it returns it has filed the types. -/
def BrowsesTypes : Prop :=
  ∃ bound, ∀ fuel, bound ≤ fuel → ∀ nameToId,
    (A.browseHierarchy fuel).Ends (.start nameToId) fun out s =>
      out ≠ .stuck .outOfFuel ∧ ∀ roots, out = .ok roots → A.Filed roots s.parents

variable {A}

/-- Browsing from one starting point. -/
theorem ends_browseFrom (fuel : ℕ) (start : NodeId) (flag : Bool) {s : LinkedBrowse}
    (hheap : TypeBrowse.Unfilled s.types.heap) :
    (A.browseFrom fuel start flag).Ends s fun out s' =>
      out.ending = ending A.steps fuel (some start) ∧
        ∀ b, out = .ok b → ∃ ts, A.browse start = .ok (ts.map BrowseTree.entry) ∧
          AnsweredAll A ts ∧
          b = (TypeBrowse.browseTree flag (TypeBrowse.startTree start ts) s.types).1 ∧
          s'.types = (TypeBrowse.browseTree flag (TypeBrowse.startTree start ts) s.types).2 ∧
          Links s s' none [b] := by
  rw [browseFrom, Prog.ends_bind, ends_filing, Outcome.follow_ok, Prog.ends_bind]
  have hfile := TypeBrowse.unfilled_handleBrowseTypeResult hheap (TypeBrowse.startEntry start)
    .mandatory flag
  refine (follows_browseTypes fuel start _ _ hfile.1).mono fun out s' h => ?_
  obtain ⟨hending, hok⟩ := h
  rw [← hending]
  cases out with
  | throw e => exact ⟨rfl, fun b h => by cases h⟩
  | stuck w =>
    refine ⟨?_, fun b h => by cases h⟩
    cases w <;> rfl
  | ok below =>
    obtain ⟨results, ts, hanswer, hreturned⟩ := hok below rfl
    refine ⟨rfl, fun b h => ⟨ts, hreturned.entries ▸ hanswer, hreturned.answered, ?_⟩⟩
    obtain rfl := Outcome.ok.inj h
    refine ⟨?_, hreturned.types, Links.node hheap hreturned.links⟩
    rw [hreturned.nodes]
    rfl

/-- **Browsing the hierarchy** goes through the answers below the starting points. -/
theorem ends_browseHierarchy (fuel : ℕ) (nameToId : Std.ExtTreeMap String NodeId compare) :
    (A.browseHierarchy fuel).Ends (.start nameToId) fun out s =>
      out.ending = ending A.steps (fuel + 1) none ∧
        ∀ roots, out = .ok roots → ∃ H : TypeHierarchy,
          roots = (H.browse nameToId).1 ∧ (∀ x, x ∈ H.typesFound ↔ A.IsTypeNode x) ∧
            Links (.start nameToId) s none roots := by
  have hstart : TypeBrowse.Unfilled (LinkedBrowse.start nameToId).types.heap :=
    ⟨fun _ => rfl, fun n hn => absurd hn (Nat.not_lt_zero n)⟩
  rw [browseHierarchy, Prog.ends_bind, ending, steps, NestedSearch.runSteps_nested,
    NestedSearch.runSteps_nested]
  refine (ends_browseFrom fuel WellKnown.baseVariableType true hstart).mono fun out s₁ h => ?_
  obtain ⟨hending, hok⟩ := h
  rw [← hending]
  cases out with
  | throw e => exact ⟨rfl, fun roots h => by cases h⟩
  | stuck w =>
    refine ⟨?_, fun roots h => by cases h⟩
    cases w <;> rfl
  | ok v =>
    obtain ⟨vs, hbrowse, hanswered, rfl, htypes, hlinks⟩ := hok v rfl
    -- the object types are browsed into the heap that the variable types have left
    have hunfilled := TypeBrowse.unfilled_browseTree true
      (TypeBrowse.startTree WellKnown.baseVariableType vs) _ hstart
    rw [← htypes] at hunfilled
    rw [Outcome.follow_ok, Prog.ends_bind]
    refine (ends_browseFrom fuel WellKnown.baseObjectType false hunfilled.1).mono
      fun out s₂ h => ?_
    obtain ⟨hending', hok'⟩ := h
    rw [← hending']
    cases out with
    | throw e => exact ⟨rfl, fun roots h => by cases h⟩
    | stuck w =>
      refine ⟨?_, fun roots h => by cases h⟩
      cases w <;> rfl
    | ok o =>
      obtain ⟨os, hbrowse', hanswered', rfl, htypes', hlinks'⟩ := hok' o rfl
      refine ⟨rfl, fun roots h => ⟨⟨vs, os⟩, ?_, fun x => ?_, ?_⟩⟩
      · obtain rfl := Outcome.ok.inj h
        rw [htypes]
        rfl
      · rw [TypeHierarchy.typesFound, List.mem_append, mem_typesFound_startTree hbrowse hanswered,
          mem_typesFound_startTree hbrowse' hanswered']
        rfl
      · obtain rfl := Outcome.ok.inj h
        exact hlinks.cons hlinks' hunfilled.2.1 fun r hr => (hunfilled.2.2.2 r hr).2

/-- The bidirectional type map of a hierarchy that was browsed. -/
theorem mem_typeMap_iff {H : TypeHierarchy} {nameToId : Std.ExtTreeMap String NodeId compare}
    (hfound : ∀ x, x ∈ H.typesFound ↔ A.IsTypeNode x) (x : NodeId) :
    x ∈ bidirectionalTypeMap (H.browse nameToId).1 ↔ A.IsTypeNode x := by
  rw [mem_bidirectionalTypeMap, hfound]

/-- What browsing has filed is as it should be exactly if every type node is spelled once. -/
theorem filed_iff {H : TypeHierarchy} {nameToId : Std.ExtTreeMap String NodeId compare}
    {s s' : LinkedBrowse} (hfound : ∀ x, x ∈ H.typesFound ↔ A.IsTypeNode x)
    (hlinks : Links s s' none (H.browse nameToId).1) :
    A.Filed (H.browse nameToId).1 s'.parents ↔ A.SpelledOnce := by
  constructor
  · intro h x y hx hy heq
    obtain ⟨key, -, hunique⟩ := h.entry y hy
    rw [hunique x ⟨(mem_typeMap_iff hfound x).mpr hx, heq⟩,
      hunique y ⟨(mem_typeMap_iff hfound y).mpr hy, NodeId.equals_self y⟩]
  · intro h
    refine ⟨fun x hx => ⟨x, ⟨(mem_typeMap_iff hfound x).mpr hx, NodeId.equals_self x⟩, ?_⟩,
      fun key hkey => (mem_typeMap_iff hfound key).mp hkey, H.nodup_typesBelow nameToId, ?_⟩
    · rintro key ⟨hkey, heq⟩
      exact h key x ((mem_typeMap_iff hfound key).mp hkey) hx heq
    · intro key line hline
      refine ⟨line.length, fun fuel hle => hlinks.bloodline_eq (.inr ?_) hle⟩
      rcases getElem?_foldl_insertIfNew _ _ hline with hempty | hmem
      · simp at hempty
      · exact ((mem_typesBelowAll [] key line _).mp hmem).1

/-- Browsing the types, in terms of the plan. -/
theorem browsesTypes_iff_plan : A.BrowsesTypes ↔
    (∃ fuel, ending A.steps fuel none ≠ .unfinished) ∧ (¬ A.Fails → A.SpelledOnce) := by
  constructor
  · rintro ⟨bound, h⟩
    obtain ⟨hends, hfiled⟩ := h bound le_rfl ∅
    obtain ⟨hending, hok⟩ := ends_browseHierarchy (A := A) bound ∅
    have hne : ending A.steps (bound + 1) none ≠ .unfinished := by
      rw [← hending]
      exact mt Outcome.ending_eq_unfinished_iff.mp hends
    refine ⟨⟨bound + 1, hne⟩, fun hfails => ?_⟩
    have hreturned : ending A.steps (bound + 1) none = .returned := by
      cases hend : ending A.steps (bound + 1) none with
      | returned => rfl
      | aborted => exact absurd (NestedSearch.aborts_of_ending hend) hfails
      | unfinished => exact absurd hend hne
    obtain ⟨roots, hroots⟩ := Outcome.ending_eq_returned_iff.mp (hending.trans hreturned)
    obtain ⟨H, rfl, hfound, hlinks⟩ := hok roots hroots
    exact (filed_iff hfound hlinks).mp (hfiled _ hroots)
  · rintro ⟨⟨fuel₀, hfuel⟩, hspelled⟩
    refine ⟨fuel₀, fun fuel hle nameToId => ?_⟩
    obtain ⟨hending, hok⟩ := ends_browseHierarchy (A := A) fuel nameToId
    rw [NestedSearch.ending_mono (hle.trans fuel.le_succ) hfuel] at hending
    refine ⟨fun hout => hfuel ?_, fun roots hroots => ?_⟩
    · rw [← hending]
      exact Outcome.ending_eq_unfinished_iff.mpr hout
    · obtain ⟨H, rfl, hfound, hlinks⟩ := hok roots hroots
      refine (filed_iff hfound hlinks).mpr (hspelled fun hfails => ?_)
      rcases hfails.ending_ne_returned with habort | ⟨n, hn, hne⟩
      · cases habort
      · cases hn
        exact hne fuel₀ (hending.symm.trans (Outcome.ending_eq_returned_iff.mpr ⟨_, hroots⟩))

/-- Browsing comes to the starting points, and to nodes that the server lists. -/
theorem mem_of_leads {n m : Option NodeId} (h : Leads A.steps n m) :
    m ∈ some '' ({WellKnown.baseVariableType, WellKnown.baseObjectType} ∪
      {x | ∃ y, A.Refers y x}) := by
  obtain ⟨before, after, hsteps, -⟩ := h
  have hmem : Step.nested m ∈ A.steps n := by simp [hsteps]
  cases n with
  | none =>
    simp only [steps, List.mem_cons, Step.nested.injEq, List.not_mem_nil, or_false] at hmem
    rcases hmem with rfl | rfl
    · exact ⟨_, .inl (.inl rfl), rfl⟩
    · exact ⟨_, .inl (.inr rfl), rfl⟩
  | some n =>
    rw [steps] at hmem
    cases hanswer : A.browse n with
    | error e => simp [hanswer] at hmem
    | ok results =>
      rw [hanswer] at hmem
      obtain ⟨r, hr, hstep⟩ := List.mem_flatMap.mp hmem
      rw [resultSteps, List.mem_cons, List.mem_singleton] at hstep
      rcases hstep with hstep | hstep
      · cases hrule : A.modellingRule r.nodeId <;> simp [hrule] at hstep
      · obtain rfl := Step.nested.inj hstep
        exact ⟨_, .inr ⟨n, results, hanswer, r, hr, rfl⟩, rfl⟩

/-- The plan for a finite address space can be carried out exactly if it has no circles. -/
theorem exists_ending_iff_circleFree (hfinite : {x | ∃ y, A.Refers y x}.Finite) :
    (∃ fuel, ending A.steps fuel none ≠ .unfinished) ↔ A.CircleFree := by
  rw [NestedSearch.exists_ending_iff]
  refine NestedSearch.acc_iff_of_finite (Set.Finite.image some ?_) fun n m => mem_of_leads
  exact (Set.toFinite _).union hfinite

/-- **Browsing the types** of a finite address space comes to an end exactly if no node that it
comes to leads back to itself, and files each type node once exactly if none is reached under two
spellings of its identifier. -/
theorem browsesTypes_iff (hfinite : {x | ∃ y, A.Refers y x}.Finite) :
    A.BrowsesTypes ↔ A.CircleFree ∧ (¬ A.Fails → A.SpelledOnce) := by
  rw [browsesTypes_iff_plan, exists_ending_iff_circleFree hfinite]

/-! ### Servers whose calls do not fail -/

/-- No call fails in a way that browsing does not catch. -/
structure NeverFails (A : TypeAnswers) : Prop where
  browse : ∀ n, ∃ results, A.browse n = .ok results
  modellingRule : ∀ n, ∃ rule, A.modellingRule n = .ok rule

section NeverFails

variable (hA : A.NeverFails)

include hA

theorem NeverFails.not_aborts {step : Step (Option NodeId)} (h : Aborts A.steps step) :
    step = .abort := by
  induction h with
  | abort => rfl
  | @nested n step hmem _ ih =>
    subst ih
    cases n with
    | none => simp [steps] at hmem
    | some n =>
      obtain ⟨results, hresults⟩ := hA.browse n
      rw [steps, hresults] at hmem
      obtain ⟨r, -, hstep⟩ := List.mem_flatMap.mp hmem
      obtain ⟨rule, hrule⟩ := hA.modellingRule r.nodeId
      simp [resultSteps, hrule] at hstep

/-- Then browsing comes from a node to the nodes that the server lists below it. -/
theorem NeverFails.leads_iff {n : NodeId} {m : Option NodeId} :
    Leads A.steps (some n) m ↔ ∃ x, A.Refers n x ∧ m = some x := by
  obtain ⟨results, hresults⟩ := hA.browse n
  have hsteps : A.steps (some n) = results.flatMap A.resultSteps := by rw [steps, hresults]
  have hmem : Step.nested m ∈ A.steps (some n) ↔ ∃ x, A.Refers n x ∧ m = some x := by
    rw [hsteps, List.mem_flatMap]
    constructor
    · rintro ⟨r, hr, hstep⟩
      obtain ⟨rule, hrule⟩ := hA.modellingRule r.nodeId
      refine ⟨r.nodeId, ⟨results, hresults, r, hr, rfl⟩, ?_⟩
      simpa [resultSteps, hrule] using hstep
    · rintro ⟨x, ⟨results', hresults', r, hr, rfl⟩, rfl⟩
      obtain rfl := Except.ok.inj (hresults.symm.trans hresults')
      exact ⟨r, hr, by simp [resultSteps]⟩
  rw [← hmem]
  constructor
  · rintro ⟨before, after, heq, -⟩
    simp [heq]
  · refine NestedSearch.leads_of_mem fun step hstep haborts => ?_
    obtain rfl := hA.not_aborts haborts
    obtain ⟨r, -, habort⟩ := List.mem_flatMap.mp (hsteps ▸ hstep)
    obtain ⟨rule, hrule⟩ := hA.modellingRule r.nodeId
    simp [resultSteps, hrule] at habort

/-- A starting point that refers to itself, or to a node that does, makes browsing go on. -/
theorem NeverFails.not_browsesTypes {n : NodeId}
    (hreach : Relation.ReflTransGen A.Refers WellKnown.baseObjectType n)
    (hcircle : Relation.TransGen A.Refers n n) : ¬ A.BrowsesTypes := by
  intro h
  have hstart : Leads A.steps none (some WellKnown.baseObjectType) :=
    NestedSearch.leads_of_mem (fun step hstep haborts => by
      obtain rfl := hA.not_aborts haborts
      simp [steps] at hstep) (by simp [steps])
  have hlift : ∀ x y, A.Refers x y → Leads A.steps (some x) (some y) := fun x y hxy =>
    hA.leads_iff.mpr ⟨y, hxy, rfl⟩
  have hacc := NestedSearch.exists_ending_iff.mp (browsesTypes_iff_plan.mp h).1
  refine NestedSearch.not_transGen_of_acc (NestedSearch.acc_of_reflTransGen hacc ?_)
    (hcircle.lift some hlift)
  exact (hreach.lift some hlift).head hstart

end NeverFails

/-! ### Two small servers -/

/-- A reference to an object type. -/
def typeReference (id : String) : BrowseResult :=
  ⟨.objectType, ⟨"urn:plant", id⟩, ⟨"", ""⟩, WellKnown.hasComponent, ⟨"urn:plant", id⟩⟩

/-- Two object types that list the same type. Below that one stand other types. -/
def sharedAnswers (below : List BrowseResult) : TypeAnswers where
  browse n :=
    if n = WellKnown.baseObjectType then .ok [typeReference "i=1", typeReference "i=2"]
    else if n = ⟨"urn:plant", "i=1"⟩ ∨ n = ⟨"urn:plant", "i=2"⟩ then .ok [typeReference "i=3"]
    else if n = ⟨"urn:plant", "i=3"⟩ then .ok below
    else .ok []
  browseModellingRule _ := .ok .none

private theorem shared_neverFails (below : List BrowseResult) :
    (sharedAnswers below).NeverFails := by
  refine ⟨fun n => ?_, fun n => ⟨.none, rfl⟩⟩
  simp only [sharedAnswers]
  split_ifs
  all_goals exact ⟨_, rfl⟩

/-- The types of the server without a circle. -/
private def sharedTypes : List NodeId :=
  [⟨"urn:plant", "i=1"⟩, ⟨"urn:plant", "i=2"⟩, ⟨"urn:plant", "i=3"⟩]

private theorem shared_refers {x y : NodeId} (h : (sharedAnswers []).Refers y x) :
    x ∈ sharedTypes := by
  obtain ⟨results, hresults, r, hr, rfl⟩ := h
  simp only [sharedAnswers] at hresults
  split_ifs at hresults
  all_goals
    obtain rfl := Except.ok.inj hresults
    simp only [List.mem_cons, List.not_mem_nil, or_false] at hr
  · rcases hr with rfl | rfl <;> decide
  · subst hr
    decide

/-- A type that is reached along two paths has one entry. -/
theorem browsesTypes_iff_shared : (sharedAnswers []).BrowsesTypes := by
  have hfinite : {x | ∃ y, (sharedAnswers []).Refers y x}.Finite :=
    (List.finite_toSet _).subset fun x ⟨y, hxy⟩ => shared_refers hxy
  refine (browsesTypes_iff hfinite).mpr
    ⟨(exists_ending_iff_circleFree hfinite).mp ⟨5, by decide +kernel⟩, fun _ => ?_⟩
  have hnodes : ∀ x, (sharedAnswers []).IsTypeNode x →
      x ∈ WellKnown.baseVariableType :: WellKnown.baseObjectType :: sharedTypes := by
    have hbelow : ∀ n x, (sharedAnswers []).ReachesType n x → x ∈ sharedTypes := fun n x h => by
      obtain ⟨m, hm⟩ := h.exists_refers
      exact shared_refers hm
    rintro x ((rfl | h) | (rfl | h))
    · exact List.mem_cons_self
    · exact .tail _ (.tail _ (hbelow _ x h))
    · exact .tail _ List.mem_cons_self
    · exact .tail _ (.tail _ (hbelow _ x h))
  have hspelled : ∀ x ∈ WellKnown.baseVariableType :: WellKnown.baseObjectType :: sharedTypes,
      ∀ y ∈ WellKnown.baseVariableType :: WellKnown.baseObjectType :: sharedTypes,
        x.equals y = true → x = y := by decide +kernel
  exact fun x y hx hy => hspelled x (hnodes x hx) y (hnodes y hy)

/-- A type below itself: whatever the fuel, browsing uses it up. -/
theorem circularTypes_not_browsesTypes :
    ¬ (sharedAnswers [typeReference "i=1"]).BrowsesTypes := by
  have hA := shared_neverFails [typeReference "i=1"]
  have hstart : (sharedAnswers [typeReference "i=1"]).Refers WellKnown.baseObjectType
      ⟨"urn:plant", "i=1"⟩ := ⟨_, rfl, typeReference "i=1", by decide, rfl⟩
  have hdown : (sharedAnswers [typeReference "i=1"]).Refers ⟨"urn:plant", "i=1"⟩
      ⟨"urn:plant", "i=3"⟩ := ⟨_, rfl, typeReference "i=3", by decide, rfl⟩
  have hback : (sharedAnswers [typeReference "i=1"]).Refers ⟨"urn:plant", "i=3"⟩
      ⟨"urn:plant", "i=1"⟩ := ⟨_, rfl, typeReference "i=1", by decide, rfl⟩
  exact hA.not_browsesTypes (.single hstart) (.head hdown (.single hback))

end TypeAnswers

end UmatiDashboard
