import Mathlib.Data.List.Find
import UmatiDashboard.TypeReader.Flattening
import UmatiDashboard.TypeReader.LoadedTypes

/-!
# Setting up the types flattens their bloodlines

The lists on the heap are those of `Flattening.run` while `setupTypeMap` runs, for every hierarchy
(`simulates_setupNamespaces`): each browsed node has a list of its own until the type map is
updated, so that a list can be told by its node, and the entries of the type map point at the lists
of their types.
-/

namespace UmatiDashboard

open StructureBiNode

/-! ### Merging -/

namespace TypeHeap

/-- A lookup depends on the names. -/
theorem findNode_congr {h h' : TypeHeap} {ns : List NodeRef} {c : NodeRef}
    (hns : ∀ n ∈ ns, h.browseName n = h'.browseName n) (hc : h.browseName c = h'.browseName c) :
    h.findNode ns c = h'.findNode ns c := by
  rw [findNode, findNode]
  refine List.find?_congr fun n hn => ?_
  rw [hns n hn, hc]

end TypeHeap

namespace Flattening

/-- What is missing depends on the names. -/
theorem missing_congr {h h' : TypeHeap} {ns ms : List NodeRef}
    (hns : ∀ n ∈ ns, h.browseName n = h'.browseName n)
    (hms : ∀ n ∈ ms, h.browseName n = h'.browseName n) : missing h ns ms = missing h' ns ms := by
  induction ms generalizing ns with
  | nil => rfl
  | cons m ms ih =>
    rw [List.forall_mem_cons] at hms
    rw [missing, missing, TypeHeap.findNode_congr hns hms.1, ih hns hms.2, ih _ hms.2]
    intro n hn
    rcases List.mem_append.mp hn with hn | hn
    · exact hns n hn
    · rw [List.mem_singleton.mp hn]
      exact hms.1

end Flattening

namespace TypeHeap

/-- **A merge** hands the children of the names that are missing to the node found. -/
theorem addMissingChildren_spec {found : NodeRef} (cs : List NodeRef) {h : TypeHeap}
    (hfound : (h.nodes found).specifiedChildNodes = found) :
    SameNodes h (addMissingChildren found cs h) ∧
      (addMissingChildren found cs h).lists = Function.update h.lists found
        (h.lists found ++ Flattening.missing h (h.lists found) cs) := by
  induction cs generalizing h with
  | nil => simpa [addMissingChildren, Flattening.missing] using SameNodes.refl h
  | cons c cs ih =>
    rw [addMissingChildren, Flattening.missing, children, hfound]
    cases hfind : h.findNode (h.lists found) c with
    | some el => exact ih hfound
    | none =>
      have hpush := sameNodes_setList h found (h.lists found ++ [c])
      obtain ⟨hsame, hlists⟩ := ih (h := h.pushBack found c) hfound
      have hmissing : Flattening.missing (h.pushBack found c) (h.lists found ++ [c]) cs =
          Flattening.missing h (h.lists found ++ [c]) cs :=
        Flattening.missing_congr (fun _ _ => rfl) fun _ _ => rfl
      refine ⟨hpush.trans hsame, hlists.trans ?_⟩
      rw [lists_pushBack_self, hmissing]
      simp [pushBack, setList]

end TypeHeap

/-! ### The simulation -/

namespace TypeHierarchy

open TypeHeap

variable (H : TypeHierarchy)

/-- **The heap while types are set up**, as the flattening describes it. -/
structure Simulates (h : TypeHeap) (L : ChildLists) : Prop where
  next : H.heap.next ≤ h.next
  definition : ∀ r < H.heap.next,
    (h.nodes r).toNodeDefinition = (H.heap.nodes r).toNodeDefinition
  ownList : ∀ r < H.heap.next, (h.nodes r).specifiedChildNodes = r
  lists : h.lists = L
  lt : ∀ l, ∀ m ∈ L l, m < H.heap.next

variable {H} {h : TypeHeap} {L : ChildLists}

/-- Browsing leaves a heap on which nothing was set up. -/
theorem simulates_start : Simulates H H.heap fun _ => [] where
  next := Nat.le_refl _
  definition _ _ := rfl
  ownList := H.browse_heap.1.ownList
  lists := funext H.browse_heap.1.lists
  lt _ _ hm := absurd hm List.not_mem_nil

theorem Simulates.browseName (hsim : Simulates H h L) {r : NodeRef} (hr : r < H.heap.next) :
    h.browseName r = H.heap.browseName r :=
  congrArg NodeDefinition.specifiedBrowseName (hsim.definition r hr)

theorem Simulates.rule (hsim : Simulates H h L) {r : NodeRef} (hr : r < H.heap.next) :
    h.rule r = H.heap.rule r :=
  congrArg NodeDefinition.modellingRule (hsim.definition r hr)

/-- A new entry of the type map is none of the browsed nodes. -/
theorem Simulates.allocate (hsim : Simulates H h L) (node : StructureNode) :
    Simulates H { h.setNode h.next node with next := h.next + 1 } L := by
  have hnodes : ∀ r < H.heap.next, (h.setNode h.next node).nodes r = h.nodes r := fun r hr =>
    nodes_setNode_of_ne h (Nat.ne_of_lt (Nat.lt_of_lt_of_le hr hsim.next)) node
  exact ⟨Nat.le_succ_of_le hsim.next,
    fun r hr => (congrArg StructureNode.toNodeDefinition (hnodes r hr)).trans
      (hsim.definition r hr),
    fun r hr => (congrArg StructureNode.specifiedChildNodes (hnodes r hr)).trans
      (hsim.ownList r hr),
    hsim.lists, hsim.lt⟩

/-- Only lists were written. -/
theorem Simulates.of_sameNodes (hsim : Simulates H h L) {h' : TypeHeap} (hsame : SameNodes h h')
    {L' : ChildLists} (hlists : h'.lists = L') (hlt : ∀ l, ∀ m ∈ L' l, m < H.heap.next) :
    Simulates H h' L' where
  next := hsame.next ▸ hsim.next
  definition r hr := (hsame.definition r).trans (hsim.definition r hr)
  ownList r hr := (hsame.ownList r).trans (hsim.ownList r hr)
  lists := hlists
  lt := hlt

/-- Looking a node up by its name finds the same node. -/
theorem Simulates.findNode (hsim : Simulates H h L) (l : ListRef) {c : NodeRef}
    (hc : c < H.heap.next) : h.findNode (h.lists l) c = H.heap.findNode (L l) c := by
  rw [hsim.lists]
  exact findNode_congr (fun n hn => hsim.browseName (hsim.lt l n hn)) (hsim.browseName hc)

/-- **`toStructureNode`** fills the lists of a tree. -/
theorem Simulates.toStructureNode (hsim : Simulates H h L) {c : StructureBiNode}
    {up : List StructureBiNode} (hmem : c :: up ∈ H.chains) :
    Simulates H (c.toStructureNode h) (Flattening.fill c L) := by
  refine hsim.of_sameNodes (sameNodes_toStructureNode c h) (funext fun l => ?_) fun l m hm => ?_
  · rw [lists_toStructureNode c h (fun r hr => hsim.ownList r (lt_next_of_mem_refs hmem hr))
      (nodup_refs hmem), hsim.lists]
    rfl
  · exact (Flattening.mem_of_mem_fill hm).elim (hsim.lt l m) (lt_next_of_mem_refs hmem)

/-- **A merge** hands the children of the redeclaration to the declaration found. -/
theorem Simulates.addMissingChildren (hsim : Simulates H h L) {found : NodeRef}
    (hfound : found < H.heap.next) (c : NodeRef) :
    Simulates H (TypeHeap.addMissingChildren found (h.lists c) h)
      (Flattening.hand H.heap found c L) := by
  obtain ⟨hsame, hlists⟩ := addMissingChildren_spec (h.lists c) (hsim.ownList found hfound)
  have hmissing : Flattening.missing h (L found) (L c) =
      Flattening.missing H.heap (L found) (L c) :=
    Flattening.missing_congr (fun n hn => hsim.browseName (hsim.lt found n hn))
      fun n hn => hsim.browseName (hsim.lt c n hn)
  refine hsim.of_sameNodes hsame ?_ fun l m hm => ?_
  · rw [hlists, hsim.lists, hmissing]
    rfl
  · by_cases hl : l = found
    · rw [hl, Flattening.hand, Function.update_self] at hm
      rcases List.mem_append.mp hm with hm | hm
      · exact hsim.lt found m hm
      · exact hsim.lt c m (Flattening.mem_of_mem_missing hm)
    · rw [Flattening.hand, Function.update_of_ne hl] at hm
      exact hsim.lt l m hm

/-- A list is replaced. -/
theorem Simulates.setList (hsim : Simulates H h L) (l : ListRef) {ns : List NodeRef}
    (hns : ∀ m ∈ ns, m < H.heap.next) :
    Simulates H (h.setList l ns) (Function.update L l ns) := by
  refine hsim.of_sameNodes (sameNodes_setList h l ns) ?_ fun r m hm => ?_
  · rw [← hsim.lists]
    rfl
  · by_cases hr : r = l
    · rw [hr, Function.update_self] at hm
      exact hns m hm
    · rw [Function.update_of_ne hr] at hm
      exact hsim.lt r m hm

/-- **One declared child** is merged as `Flattening.declare` says. -/
theorem Simulates.mergeChild (hsim : Simulates H h L) (l : NodeRef) {c : StructureBiNode}
    {up : List StructureBiNode} (hmem : c :: up ∈ H.chains) :
    Simulates H (TypeHeap.mergeChild l c h) (Flattening.declare H.heap l L c) ∧
      SameNodes h (TypeHeap.mergeChild l c h) := by
  have hc : c.structureNode < H.heap.next :=
    lt_next_of_mem_refs hmem (structureNode_mem_refs c)
  have hsim₁ := hsim.toStructureNode hmem
  have hsame₁ := sameNodes_toStructureNode c h
  unfold TypeHeap.mergeChild Flattening.declare Flattening.handFound
  dsimp only
  rw [hsim₁.findNode l hc]
  cases hfind : H.heap.findNode (Flattening.fill c L l) c.structureNode with
  | none =>
    dsimp only
    rw [TypeHeap.pushBack, hsim₁.lists, Flattening.declareIn, hfind]
    refine ⟨hsim₁.setList l fun m hm => ?_, hsame₁.trans (sameNodes_setList _ _ _)⟩
    rcases List.mem_append.mp hm with hm | hm
    · exact hsim₁.lt l m hm
    · rwa [List.mem_singleton.mp hm]
  | some found =>
    have hfound : found < H.heap.next := hsim₁.lt l found (Flattening.findNode_mem hfind)
    have hsim₂ := hsim₁.addMissingChildren hfound c.structureNode
    have hsame₂ := hsame₁.trans (addMissingChildren_spec
      ((c.toStructureNode h).lists c.structureNode) (hsim₁.ownList found hfound)).1
    -- the list of the type begins as it did
    have hagain : H.heap.findNode
        (Flattening.hand H.heap found c.structureNode (Flattening.fill c L) l) c.structureNode =
          some found := by
      rw [TypeHeap.findNode] at hfind ⊢
      by_cases hl : l = found
      · subst hl
        rw [Flattening.hand, Function.update_self, List.find?_append, hfind, Option.some_or]
      · rw [Flattening.hand, Function.update_of_ne hl, hfind]
    dsimp only
    rw [children, hsim₁.ownList _ hc, hsim₂.rule hfound, hsim₂.lists, Flattening.declareIn, hagain]
    dsimp only
    split_ifs
    · refine ⟨hsim₂.setList l fun m hm => ?_, hsame₂.trans (sameNodes_setList _ _ _)⟩
      rcases List.mem_append.mp hm with hm | hm
      · exact hsim₂.lt l m (List.mem_of_mem_erase hm)
      · rwa [List.mem_singleton.mp hm]
    · rw [Function.update_eq_self]
      exact ⟨hsim₂, hsame₂⟩

/-- The children that one ancestor declares. -/
theorem Simulates.mergeAncestor (l : NodeRef) {a : StructureBiNode} {up : List StructureBiNode}
    (hmem : a :: up ∈ H.chains) (hsim : Simulates H h L) :
    Simulates H (TypeHeap.mergeAncestor l a h)
        ((a.specifiedBiChildNodes.filter fun c => !c.isType).foldl
          (Flattening.declare H.heap l) L) ∧
      SameNodes h (TypeHeap.mergeAncestor l a h) := by
  have hfold : ∀ (cs : List StructureBiNode), (∀ c ∈ cs, c ∈ a.specifiedBiChildNodes) →
      ∀ {h : TypeHeap} {L : ChildLists}, Simulates H h L →
      Simulates H (cs.foldl (fun h c => if c.isType then h else TypeHeap.mergeChild l c h) h)
          ((cs.filter fun c => !c.isType).foldl (Flattening.declare H.heap l) L) ∧
        SameNodes h
          (cs.foldl (fun h c => if c.isType then h else TypeHeap.mergeChild l c h) h) := by
    intro cs
    induction cs with
    | nil => exact fun _ _ _ hsim => ⟨hsim, SameNodes.refl _⟩
    | cons c cs ih =>
      intro hcs h L hsim
      have hrest : ∀ c' ∈ cs, c' ∈ a.specifiedBiChildNodes := fun c' hc' =>
        hcs c' (List.mem_cons_of_mem _ hc')
      rw [List.foldl_cons]
      cases hc : c.isType with
      | true => simpa [hc] using ih hrest hsim
      | false =>
        obtain ⟨hsim₁, hsame₁⟩ :=
          hsim.mergeChild l (child_mem hmem (hcs c List.mem_cons_self))
        obtain ⟨hsim₂, hsame₂⟩ := ih hrest hsim₁
        exact ⟨by simpa [hc] using hsim₂, by simpa [hc] using hsame₁.trans hsame₂⟩
  exact hfold _ (fun _ hc => hc) hsim

/-- The parts of a chain are chains. -/
theorem exists_chain_of_mem {a : StructureBiNode} : ∀ {line : List StructureBiNode},
    line ∈ H.chains → a ∈ line → ∃ up, a :: up ∈ H.chains
  | [], _, ha => absurd ha List.not_mem_nil
  | [b], hline, ha => by
    obtain rfl := List.mem_singleton.mp ha
    exact ⟨[], hline⟩
  | b :: c :: up, hline, ha => by
    rcases List.mem_cons.mp ha with rfl | ha
    · exact ⟨c :: up, hline⟩
    · exact exists_chain_of_mem (parent_mem hline).1 ha

/-- Merging what the ancestors in a bloodline declare. -/
theorem Simulates.mergeAncestors (l : NodeRef) {line : List StructureBiNode}
    (hline : line ∈ H.chains) (as : List StructureBiNode) (has : ∀ a ∈ as, a ∈ line) :
    ∀ {h : TypeHeap} {L : ChildLists}, Simulates H h L →
      Simulates H (as.foldl (fun h a => TypeHeap.mergeAncestor l a h) h)
          ((as.flatMap fun a => a.specifiedBiChildNodes.filter fun c => !c.isType).foldl
            (Flattening.declare H.heap l) L) ∧
        SameNodes h (as.foldl (fun h a => TypeHeap.mergeAncestor l a h) h) := by
  induction as with
  | nil => exact fun hsim => ⟨hsim, SameNodes.refl _⟩
  | cons a as ih =>
    intro h L hsim
    obtain ⟨up, hmem⟩ := exists_chain_of_mem hline (has a List.mem_cons_self)
    obtain ⟨hsim₁, hsame₁⟩ := hsim.mergeAncestor l hmem
    obtain ⟨hsim₂, hsame₂⟩ := ih (fun a' ha' => has a' (List.mem_cons_of_mem _ ha')) hsim₁
    refine ⟨?_, hsame₁.trans hsame₂⟩
    rw [List.flatMap_cons, List.foldl_append]
    exact hsim₂

/-- **Setting up one type**: the lists become what `Flattening.setUp` says, and the entry is
labelled as the type is and points at its list. No other node changes. -/
theorem Simulates.setupType (hsim : Simulates H h L) {type : StructureBiNode}
    {up : List StructureBiNode} (hline : type :: up ∈ H.chains) :
    Simulates H (TypeHeap.setupType type (type :: up) h).2
        (Flattening.setUp H.heap L (type :: up)) ∧
      (TypeHeap.setupType type (type :: up) h).1 = h.next ∧
      (TypeHeap.setupType type (type :: up) h).2.next = h.next + 1 ∧
      ((TypeHeap.setupType type (type :: up) h).2.nodes h.next).specifiedChildNodes =
        type.structureNode ∧
      ((TypeHeap.setupType type (type :: up) h).2.nodes h.next).toNodeDefinition =
        (H.heap.nodes type.structureNode).toNodeDefinition ∧
      ∀ r, r ≠ h.next →
        ((TypeHeap.setupType type (type :: up) h).2.nodes r).specifiedChildNodes =
            (h.nodes r).specifiedChildNodes ∧
          ((TypeHeap.setupType type (type :: up) h).2.nodes r).toNodeDefinition =
            (h.nodes r).toNodeDefinition := by
  have hlt : type.structureNode < H.heap.next :=
    lt_next_of_mem_refs hline (structureNode_mem_refs type)
  have hlist : (h.nodes type.structureNode).specifiedChildNodes = type.structureNode :=
    hsim.ownList _ hlt
  obtain ⟨hsim₁, hsame⟩ := hsim.mergeAncestors type.structureNode hline (type :: up).reverse
    fun a ha => List.mem_reverse.mp ha
  simp only [TypeHeap.setupType, hlist]
  refine ⟨hsim₁.allocate _, hsame.next, by rw [← hsame.next], ?_, ?_, fun r hr => ?_⟩
  · simp [← hsame.next]
  · simp [← hsame.next, ← hsim.definition _ hlt]
  · rw [← hsame.next] at hr
    rw [nodes_setNode_of_ne _ hr]
    exact ⟨hsame.ownList r, hsame.definition r⟩

/-! ### All types -/

/-- The bidirectional type map of a new type reader. -/
def types (H : TypeHierarchy) : NodeMap (List StructureBiNode) :=
  bidirectionalTypeMap (H.browse ∅).1

/-- The bloodline that the bidirectional type map has for a type. -/
theorem mem_chains_of_types {x : NodeId} {line : List StructureBiNode}
    (hx : H.types[x]? = some line) : ∃ (type : StructureBiNode) (up : List StructureBiNode),
      line = type :: up ∧ type :: up ∈ H.chains ∧ type.isType = true := by
  rcases getElem?_foldl_insertIfNew _ _ hx with hempty | hmem
  · simp at hempty
  · obtain ⟨hchain, type, up, rfl, htype, -⟩ := (mem_typesBelowAll [] x line _).mp hmem
    exact ⟨type, up, rfl, hchain, htype⟩

/-- The type at the lower end of a bloodline is of this namespace. -/
def inNamespace (namespaceUri : String) (line : List StructureBiNode) : Bool :=
  line.head?.any fun type => type.namespaceUri == namespaceUri

/-- The bloodlines of the types that are set up, in the order of the passes. -/
def setUpLines (types : NodeMap (List StructureBiNode)) :
    List String → List String → List (List StructureBiNode)
  | [], _ => []
  | namespaceUri :: rest, notFound =>
    if namespaceUri ∈ notFound then
      (types.toList.map Prod.snd).filter (inNamespace namespaceUri) ++
        setUpLines types rest (notFound.erase namespaceUri)
    else setUpLines types rest notFound

/-- **An invariant of the passes**: what setting up one type keeps, of the type map and the
bloodlines set up so far, the passes of `readTypes` keep. -/
theorem setupNamespaces_invariant {I : TypeMapState → List (List StructureBiNode) → Prop}
    (hstep : ∀ {st : TypeMapState} {lines : List (List StructureBiNode)} {x : NodeId}
      {type : StructureBiNode} {up : List StructureBiNode}, H.types[x]? = some (type :: up) →
      type :: up ∈ H.chains → type.isType = true → I st lines →
      I ⟨(TypeHeap.setupType type (type :: up) st.heap).2,
        st.typeMap.insertIfNew x (TypeHeap.setupType type (type :: up) st.heap).1⟩
        (lines ++ [type :: up]))
    (namespaces : List String) :
    ∀ (notFound : List String) {st : TypeMapState} {lines : List (List StructureBiNode)},
      I st lines →
      I (TypeMapState.setupNamespaces H.types namespaces notFound st)
        (lines ++ setUpLines H.types namespaces notFound) := by
  have hpass : ∀ (namespaceUri : String) (entries : List (NodeId × List StructureBiNode))
      {st : TypeMapState} {lines : List (List StructureBiNode)},
      (∀ p ∈ entries, H.types[p.1]? = some p.2) → I st lines →
      I (entries.foldl (TypeMapState.setupEntry namespaceUri) st)
        (lines ++ (entries.map Prod.snd).filter (inNamespace namespaceUri)) := by
    intro namespaceUri entries
    induction entries with
    | nil => exact fun _ hI => by simpa using hI
    | cons p entries ih =>
      intro st lines hentries hI
      obtain ⟨x, line⟩ := p
      have hx := hentries (x, line) List.mem_cons_self
      obtain ⟨type, up, rfl, hchain, htype⟩ := mem_chains_of_types hx
      have hrest := fun {lines'} => @ih (st.setupEntry namespaceUri (x, type :: up)) lines'
        fun q hq => hentries q (List.mem_cons_of_mem _ hq)
      by_cases huri : type.namespaceUri = namespaceUri
      · have hset : I (st.setupEntry namespaceUri (x, type :: up)) (lines ++ [type :: up]) := by
          simpa only [TypeMapState.setupEntry, huri, if_true] using hstep hx hchain htype hI
        simpa [inNamespace, huri] using hrest hset
      · have hskip : I (st.setupEntry namespaceUri (x, type :: up)) lines := by
          simpa only [TypeMapState.setupEntry, huri, if_false] using hI
        simpa [inNamespace, huri] using hrest hskip
  -- one pass for each expected namespace that the server has
  induction namespaces with
  | nil =>
    intro notFound st lines hI
    simpa [TypeMapState.setupNamespaces, setUpLines] using hI
  | cons namespaceUri rest ih =>
    intro notFound st lines hI
    rw [TypeMapState.setupNamespaces, setUpLines]
    split_ifs with huri
    · have hset := ih (notFound.erase namespaceUri) (hpass namespaceUri H.types.toList
        (fun p hp => Std.ExtTreeMap.mem_toList_iff_getElem?_eq_some.mp hp) hI)
      rwa [List.append_assoc] at hset
    · exact ih notFound hI

/-- **The type map under construction**, after the types at the lower ends of `lines` were set
up. -/
structure SetUp (H : TypeHierarchy) (st : TypeMapState) (lines : List (List StructureBiNode)) :
    Prop where
  heap : Simulates H st.heap (Flattening.run H.heap lines)
  entries : ∀ (x : NodeId) (e : NodeRef), st.typeMap[x]? = some e →
    H.heap.next ≤ e ∧ e < st.heap.next ∧ ∃ line ∈ lines, H.types[x]? = some line ∧
      (st.heap.nodes e).specifiedChildNodes = headRef line ∧
      (st.heap.nodes e).toNodeDefinition = (H.heap.nodes (headRef line)).toNodeDefinition

theorem setUp_start (H : TypeHierarchy) : SetUp H ⟨H.heap, ∅⟩ [] :=
  ⟨simulates_start, fun x e hx => by simp at hx⟩

theorem SetUp.setupType {st : TypeMapState} {lines : List (List StructureBiNode)}
    (hst : SetUp H st lines) {x : NodeId} {type : StructureBiNode} {up : List StructureBiNode}
    (hx : H.types[x]? = some (type :: up)) (hchain : type :: up ∈ H.chains) :
    SetUp H ⟨(TypeHeap.setupType type (type :: up) st.heap).2,
        st.typeMap.insertIfNew x (TypeHeap.setupType type (type :: up) st.heap).1⟩
      (lines ++ [type :: up]) := by
  obtain ⟨hsim, hentry, hnext, hself, hlabel, hothers⟩ := hst.heap.setupType hchain
  refine ⟨?_, fun y e hy => ?_⟩
  · rw [Flattening.run_concat]
    exact hsim
  · rw [hnext]
    rw [Std.ExtTreeMap.getElem?_insertIfNew] at hy
    split_ifs at hy with hnew
    · obtain rfl := Std.LawfulEqOrd.eq_of_compare hnew.1
      rw [hentry] at hy
      obtain rfl := Option.some.inj hy
      exact ⟨hst.heap.next, Nat.lt_succ_self _, type :: up, by simp, hx, hself, hlabel⟩
    · obtain ⟨hge, hlt, line, hline, hy, hlist, hlabel⟩ := hst.entries y e hy
      obtain ⟨hlist', hlabel'⟩ := hothers e (Nat.ne_of_lt hlt)
      exact ⟨hge, Nat.lt_succ_of_lt hlt, line, List.mem_append_left _ hline, hy,
        hlist'.trans hlist, hlabel'.trans hlabel⟩

/-- **The passes of `readTypes`** set up the types of the namespaces that are configured and that
the server has. -/
theorem setUp_setupNamespaces (namespaces notFound : List String)
    {st : TypeMapState} {lines : List (List StructureBiNode)} (hst : SetUp H st lines) :
    SetUp H (TypeMapState.setupNamespaces H.types namespaces notFound st)
      (lines ++ setUpLines H.types namespaces notFound) :=
  setupNamespaces_invariant (fun hx hchain _ hst => hst.setupType hx hchain)
    namespaces notFound hst

end TypeHierarchy

end UmatiDashboard
