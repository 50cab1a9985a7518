import UmatiDashboard.TypeReader.SetupTypeMap
import UmatiDashboard.Util.Allocated

/-!
# The tree of browsed nodes

Browsing allocates a structure node for every reference that is followed, with a child list of its
own that stays empty until the type map is set up (`browse_heap`). So a structure node stands at
one place of the tree, and determines its chain of parents (`chain_injective`). The bloodlines of
the bidirectional type map are the chains of the types (`mem_typesBelow`).

`TypesAboveTypes` says that no type is browsed below an instance declaration: the server's types
form a forest, and below each type stand its instance declarations.
-/

namespace UmatiDashboard

namespace StructureBiNode

mutual

/-- The structure nodes of a tree. -/
def refs : StructureBiNode → List NodeRef
  | mk n _ _ _ children => n :: refsAll children

def refsAll : List StructureBiNode → List NodeRef
  | [] => []
  | b :: bs => refs b ++ refsAll bs

end

mutual

/-- The nodes of a tree that are kept, each with its chain of parents (the node first). -/
def chains (parents : List StructureBiNode) : StructureBiNode → List (List StructureBiNode)
  | b@(mk _ _ isType _ children) =>
    if isType || !parents.isEmpty then (b :: parents) :: chainsAll (b :: parents) children
    else chainsAll [] children

def chainsAll (parents : List StructureBiNode) :
    List StructureBiNode → List (List StructureBiNode)
  | [] => []
  | b :: bs => chains parents b ++ chainsAll parents bs

end

/-- The structure node at the lower end of a chain. -/
def headRef : List StructureBiNode → NodeRef
  | [] => 0
  | b :: _ => b.structureNode

/-! ### Chains and their parts -/

mutual

/-- **The bloodlines** are the chains of the types. -/
theorem mem_typesBelow (parents : List StructureBiNode) (i : NodeId)
    (line : List StructureBiNode) : ∀ b : StructureBiNode,
    (i, line) ∈ typesBelow parents b ↔ line ∈ chains parents b ∧
      ∃ (type : StructureBiNode) (up : List StructureBiNode),
        line = type :: up ∧ type.isType = true ∧ type.nodeId = i
  | mk n j isType o children => by
    cases isType with
    | true =>
      have hbelow := mem_typesBelowAll (mk n j true o children :: parents) i line children
      simp only [typesBelow, chains, if_true, Bool.true_or, List.mem_cons, hbelow, Prod.mk.injEq]
      constructor
      · rintro (⟨rfl, rfl⟩ | ⟨hmem, hhead⟩)
        · exact ⟨Or.inl rfl, _, _, rfl, rfl, rfl⟩
        · exact ⟨Or.inr hmem, hhead⟩
      · rintro ⟨rfl | hmem, type, up, hline, htype, hid⟩
        · obtain ⟨rfl, rfl⟩ := List.cons.inj hline
          exact Or.inl ⟨hid.symm, rfl⟩
        · exact Or.inr ⟨hmem, type, up, hline, htype, hid⟩
    | false =>
      cases parents with
      | nil =>
        simp only [typesBelow, chains, Bool.false_eq_true, if_false, List.isEmpty_nil, if_true,
          Bool.not_true, Bool.or_false]
        exact mem_typesBelowAll [] i line children
      | cons p up =>
        have hbelow := mem_typesBelowAll (mk n j false o children :: p :: up) i line children
        simp only [typesBelow, chains, Bool.false_eq_true, if_false, List.isEmpty_cons,
          Bool.not_false, Bool.or_true, if_true, List.mem_cons, hbelow]
        constructor
        · rintro ⟨hmem, hhead⟩
          exact ⟨Or.inr hmem, hhead⟩
        · rintro ⟨rfl | hmem, type, up', hline, htype, hid⟩
          · obtain ⟨rfl, -⟩ := List.cons.inj hline
            cases htype
          · exact ⟨hmem, type, up', hline, htype, hid⟩

theorem mem_typesBelowAll (parents : List StructureBiNode) (i : NodeId)
    (line : List StructureBiNode) : ∀ bs : List StructureBiNode,
    (i, line) ∈ typesBelowAll parents bs ↔ line ∈ chainsAll parents bs ∧
      ∃ (type : StructureBiNode) (up : List StructureBiNode),
        line = type :: up ∧ type.isType = true ∧ type.nodeId = i
  | [] => by simp [typesBelowAll, chainsAll]
  | b :: bs => by
    simp only [typesBelowAll, chainsAll, List.mem_append, or_and_right,
      mem_typesBelow parents i line b, mem_typesBelowAll parents i line bs]

end

/-- A node below a parent begins a chain. -/
theorem cons_mem_chainsAll {p : StructureBiNode} {up : List StructureBiNode}
    {c : StructureBiNode} {bs : List StructureBiNode} (hc : c ∈ bs) :
    c :: p :: up ∈ chainsAll (p :: up) bs := by
  induction bs with
  | nil => exact absurd hc List.not_mem_nil
  | cons b bs ih =>
    rw [chainsAll, List.mem_append]
    rcases List.mem_cons.mp hc with rfl | hc
    · cases c
      simp [chains]
    · exact Or.inr (ih hc)

mutual

/-- A chain goes on with each child. -/
theorem child_mem_chains {a c : StructureBiNode} {up : List StructureBiNode}
    (hc : c ∈ a.specifiedBiChildNodes) : ∀ (b : StructureBiNode) {parents : List StructureBiNode},
    a :: up ∈ chains parents b → c :: a :: up ∈ chains parents b
  | mk n i isType o children, parents, h => by
    rw [chains] at h ⊢
    split_ifs at h ⊢ with hkept
    · rcases List.mem_cons.mp h with heq | h
      · obtain ⟨rfl, rfl⟩ := List.cons.inj heq
        exact List.mem_cons_of_mem _ (cons_mem_chainsAll hc)
      · exact List.mem_cons_of_mem _ (child_mem_chainsAll hc children h)
    · exact child_mem_chainsAll hc children h

theorem child_mem_chainsAll {a c : StructureBiNode} {up : List StructureBiNode}
    (hc : c ∈ a.specifiedBiChildNodes) : ∀ (bs : List StructureBiNode)
    {parents : List StructureBiNode},
    a :: up ∈ chainsAll parents bs → c :: a :: up ∈ chainsAll parents bs
  | [], _, h => by simp [chainsAll] at h
  | b :: bs, parents, h => by
    rw [chainsAll, List.mem_append] at h ⊢
    exact h.imp (child_mem_chains hc b) (child_mem_chainsAll hc bs)

end

mutual

/-- What is above the lower end of a chain is a chain, or where the tree hangs. -/
theorem parent_mem_chains {x y : StructureBiNode} {up : List StructureBiNode} :
    ∀ (b : StructureBiNode) {parents : List StructureBiNode}, x :: y :: up ∈ chains parents b →
      (x = b ∧ parents = y :: up) ∨
        y :: up ∈ chains parents b ∧ x ∈ y.specifiedBiChildNodes
  | mk n i isType o children, parents, h => by
    rw [chains] at h ⊢
    split_ifs at h ⊢ with hkept
    · rcases List.mem_cons.mp h with heq | h
      · obtain ⟨rfl, rfl⟩ := List.cons.inj heq
        exact Or.inl ⟨rfl, rfl⟩
      · rcases parent_mem_chainsAll children h with ⟨hx, hparents⟩ | ⟨hmem, hx⟩
        · obtain ⟨rfl, rfl⟩ := List.cons.inj hparents
          exact Or.inr ⟨List.mem_cons_self, hx⟩
        · exact Or.inr ⟨List.mem_cons_of_mem _ hmem, hx⟩
    · rcases parent_mem_chainsAll children h with ⟨-, hparents⟩ | hmem
      · cases hparents
      · exact Or.inr hmem

theorem parent_mem_chainsAll {x y : StructureBiNode} {up : List StructureBiNode} :
    ∀ (bs : List StructureBiNode) {parents : List StructureBiNode},
      x :: y :: up ∈ chainsAll parents bs →
        (x ∈ bs ∧ parents = y :: up) ∨
          y :: up ∈ chainsAll parents bs ∧ x ∈ y.specifiedBiChildNodes
  | [], _, h => by simp [chainsAll] at h
  | b :: bs, parents, h => by
    rw [chainsAll, List.mem_append] at h
    rw [chainsAll, List.mem_append]
    rcases h with h | h
    · rcases parent_mem_chains b h with ⟨rfl, hparents⟩ | ⟨hmem, hx⟩
      · exact Or.inl ⟨List.mem_cons_self, hparents⟩
      · exact Or.inr ⟨Or.inl hmem, hx⟩
    · rcases parent_mem_chainsAll bs h with ⟨hx, hparents⟩ | ⟨hmem, hx⟩
      · exact Or.inl ⟨List.mem_cons_of_mem _ hx, hparents⟩
      · exact Or.inr ⟨Or.inr hmem, hx⟩

end

/-! ### Structure nodes stand at one place -/

mutual

/-- The lower ends of the chains are structure nodes of the tree, each at most once. -/
theorem map_headRef_chains : ∀ (b : StructureBiNode) (parents : List StructureBiNode),
    ((chains parents b).map headRef).Sublist b.refs
  | mk n i isType o children, parents => by
    rw [chains, refs]
    split_ifs
    · rw [List.map_cons]
      exact (map_headRef_chainsAll children _).cons_cons n
    · exact (map_headRef_chainsAll children []).cons n

theorem map_headRef_chainsAll : ∀ (bs : List StructureBiNode) (parents : List StructureBiNode),
    ((chainsAll parents bs).map headRef).Sublist (refsAll bs)
  | [], _ => by simp [chainsAll, refsAll]
  | b :: bs, parents => by
    rw [chainsAll, refsAll, List.map_append]
    exact (map_headRef_chains b parents).append (map_headRef_chainsAll bs parents)

end

mutual

/-- The nodes below a chain are nodes of the tree. -/
theorem refs_sublist_of_mem_chains {a : StructureBiNode} {up : List StructureBiNode} :
    ∀ (b : StructureBiNode) {parents : List StructureBiNode}, a :: up ∈ chains parents b →
      a.refs.Sublist b.refs
  | mk n i isType o children, parents, h => by
    rw [chains] at h
    split_ifs at h
    · rcases List.mem_cons.mp h with heq | h
      · obtain ⟨rfl, -⟩ := List.cons.inj heq
        exact List.Sublist.refl _
      · exact (refs_sublist_of_mem_chainsAll children h).cons n
    · exact (refs_sublist_of_mem_chainsAll children h).cons n

theorem refs_sublist_of_mem_chainsAll {a : StructureBiNode} {up : List StructureBiNode} :
    ∀ (bs : List StructureBiNode) {parents : List StructureBiNode},
      a :: up ∈ chainsAll parents bs → a.refs.Sublist (refsAll bs)
  | [], _, h => by simp [chainsAll] at h
  | b :: bs, parents, h => by
    rw [chainsAll, List.mem_append] at h
    rcases h with h | h
    · exact (refs_sublist_of_mem_chains b h).trans (List.sublist_append_left _ _)
    · exact (refs_sublist_of_mem_chainsAll bs h).trans (List.sublist_append_right _ _)

end

theorem refs_eq_cons (b : StructureBiNode) :
    b.refs = b.structureNode :: refsAll b.specifiedBiChildNodes := by
  cases b
  rfl

theorem structureNode_mem_refs (b : StructureBiNode) : b.structureNode ∈ b.refs := by
  simp [refs_eq_cons]

theorem mem_refsAll_of_mem {b : StructureBiNode} {bs : List StructureBiNode} (hb : b ∈ bs) :
    b.structureNode ∈ refsAll bs := by
  induction bs with
  | nil => exact absurd hb List.not_mem_nil
  | cons b' bs ih =>
    rw [refsAll, List.mem_append]
    rcases List.mem_cons.mp hb with rfl | hb
    · exact Or.inl (structureNode_mem_refs b)
    · exact Or.inr (ih hb)

end StructureBiNode

/-! ### What browsing leaves on the heap -/

namespace TypeBrowse

/-- No child list has been filled, and every node has a list of its own. -/
structure Unfilled (h : TypeHeap) : Prop where
  lists : ∀ l, h.lists l = []
  ownList : ∀ n < h.next, (h.nodes n).specifiedChildNodes = n

theorem unfilled_handleBrowseTypeResult {st : TypeBrowse} (hst : Unfilled st.heap)
    (entry : BrowseResult) (rule : ModellingRule) (flag : Bool) :
    Unfilled (st.handleBrowseTypeResult entry rule flag).2.heap ∧
      (st.handleBrowseTypeResult entry rule flag).1.1 = st.heap.next ∧
        (st.handleBrowseTypeResult entry rule flag).2.heap.next = st.heap.next + 1 := by
  have hunfilled : Unfilled { (st.heap.setNode st.heap.next
      (newNode entry rule flag st.heap.next)).setList st.heap.next [] with
        next := st.heap.next + 1 } := by
    constructor
    · intro l
      by_cases hl : l = st.heap.next
      · simp [TypeHeap.setList, hl]
      · simp [TypeHeap.setList, Function.update_of_ne hl, hst.lists l]
    · intro n hn
      by_cases heq : n = st.heap.next
      · simp [TypeHeap.setNode, heq, newNode]
      · have hlt : n < st.heap.next := by
          have hle : n ≤ st.heap.next := Nat.le_of_lt_succ hn
          omega
        simpa [TypeHeap.setNode, Function.update_of_ne heq] using hst.ownList n hlt
  simp only [handleBrowseTypeResult]
  split_ifs
  · exact ⟨hunfilled, rfl, rfl⟩
  · exact ⟨hunfilled, rfl, rfl⟩

mutual

/-- **Browsing** allocates a structure node for each node of the tree, and fills no list. -/
theorem unfilled_browseTree (flag : Bool) : ∀ (t : BrowseTree) (st : TypeBrowse),
    Unfilled st.heap →
    Unfilled (browseTree flag t st).2.heap ∧ st.heap.next ≤ (browseTree flag t st).2.heap.next ∧
      Allocated st.heap.next (browseTree flag t st).2.heap.next (browseTree flag t st).1.refs
  | .node entry rule references, st, hst => by
    have hentry := unfilled_handleBrowseTypeResult hst entry rule flag
    have hbelow := unfilled_browseTypes flag references
      (st.handleBrowseTypeResult entry rule flag).2 hentry.1
    rw [hentry.2.2] at hbelow
    refine ⟨hbelow.1, by simp only [browseTree]; omega, ?_⟩
    simp only [browseTree, StructureBiNode.refs, hentry.2.1]
    have hself : Allocated st.heap.next (st.heap.next + 1) [st.heap.next] :=
      ⟨List.nodup_singleton _, by simp⟩
    exact hself.append hbelow.2.2 (Nat.le_succ _) hbelow.2.1

theorem unfilled_browseTypes (flag : Bool) : ∀ (ts : List BrowseTree) (st : TypeBrowse),
    Unfilled st.heap →
    Unfilled (browseTypes flag ts st).2.heap ∧ st.heap.next ≤ (browseTypes flag ts st).2.heap.next ∧
      Allocated st.heap.next (browseTypes flag ts st).2.heap.next
        (StructureBiNode.refsAll (browseTypes flag ts st).1)
  | [], st, hst => ⟨hst, Nat.le_refl _, allocated_nil _ _⟩
  | t :: ts, st, hst => by
    have hfirst := unfilled_browseTree flag t st hst
    have hrest := unfilled_browseTypes flag ts (browseTree flag t st).2 hfirst.1
    refine ⟨hrest.1, Nat.le_trans hfirst.2.1 hrest.2.1, ?_⟩
    exact hfirst.2.2.append hrest.2.2 hfirst.2.1 hrest.2.1

end

end TypeBrowse

namespace TypeHierarchy

open StructureBiNode

variable (H : TypeHierarchy)

/-- The chains of the nodes browsed by a new type reader. -/
def chains : List (List StructureBiNode) := chainsAll [] (H.browse ∅).1

/-- The heap after browsing. -/
def heap : TypeHeap := (H.browse ∅).2.heap

/-- **Browsing** leaves every list empty, and each structure node stands at one place. -/
theorem browse_heap : TypeBrowse.Unfilled H.heap ∧
    Allocated 0 H.heap.next (refsAll (H.browse ∅).1) := by
  have hstart : TypeBrowse.Unfilled (TypeBrowse.start ∅).heap :=
    ⟨fun _ => rfl, fun n hn => absurd hn (Nat.not_lt_zero n)⟩
  have hv := TypeBrowse.unfilled_browseTree true
    (TypeBrowse.startTree WellKnown.baseVariableType H.variableTypes) (.start ∅) hstart
  have ho := TypeBrowse.unfilled_browseTree false
    (TypeBrowse.startTree WellKnown.baseObjectType H.objectTypes) _ hv.1
  refine ⟨ho.1, ?_⟩
  have hrefs : refsAll (H.browse ∅).1 =
      (TypeBrowse.browseTree true
        (TypeBrowse.startTree WellKnown.baseVariableType H.variableTypes) (.start ∅)).1.refs ++
      (TypeBrowse.browseTree false
        (TypeBrowse.startTree WellKnown.baseObjectType H.objectTypes)
        (TypeBrowse.browseTree true
          (TypeBrowse.startTree WellKnown.baseVariableType H.variableTypes)
          (.start ∅)).2).1.refs := by
    simp [TypeHierarchy.browse, refsAll]
  rw [hrefs]
  exact hv.2.2.append ho.2.2 hv.2.1 ho.2.1

variable {H}

/-- **A structure node determines its chain.** -/
theorem chain_injective {line line' : List StructureBiNode} (h : line ∈ H.chains)
    (h' : line' ∈ H.chains) (heq : headRef line = headRef line') : line = line' := by
  have hnodup : (H.chains.map headRef).Nodup :=
    (map_headRef_chainsAll (H.browse ∅).1 []).nodup H.browse_heap.2.1
  exact List.inj_on_of_nodup_map hnodup h h' heq

theorem child_mem {a c : StructureBiNode} {up : List StructureBiNode} (h : a :: up ∈ H.chains)
    (hc : c ∈ a.specifiedBiChildNodes) : c :: a :: up ∈ H.chains :=
  child_mem_chainsAll hc _ h

theorem parent_mem {x y : StructureBiNode} {up : List StructureBiNode}
    (h : x :: y :: up ∈ H.chains) : y :: up ∈ H.chains ∧ x ∈ y.specifiedBiChildNodes := by
  rcases parent_mem_chainsAll _ h with ⟨-, hparents⟩ | hmem
  · cases hparents
  · exact hmem

theorem nodup_refs {a : StructureBiNode} {up : List StructureBiNode} (h : a :: up ∈ H.chains) :
    a.refs.Nodup :=
  (refs_sublist_of_mem_chainsAll _ h).nodup H.browse_heap.2.1

theorem lt_next_of_mem_refs {a : StructureBiNode} {up : List StructureBiNode}
    (h : a :: up ∈ H.chains) {r : NodeRef} (hr : r ∈ a.refs) : r < H.heap.next :=
  (H.browse_heap.2.2 r ((refs_sublist_of_mem_chainsAll _ h).subset hr)).2

/-- No type is browsed below an instance declaration. -/
def TypesAboveTypes (H : TypeHierarchy) : Prop :=
  ∀ p ∈ typesBelowAll [] (H.browse ∅).1, ∀ a ∈ p.2, a.isType = true

/-- The parent of a type is a type. -/
theorem TypesAboveTypes.parent (hH : H.TypesAboveTypes) {x y : StructureBiNode}
    {up : List StructureBiNode} (h : x :: y :: up ∈ H.chains) (hx : x.isType = true) :
    y.isType = true := by
  have hmem : (x.nodeId, x :: y :: up) ∈ typesBelowAll [] (H.browse ∅).1 :=
    (mem_typesBelowAll [] _ _ _).mpr ⟨h, x, y :: up, rfl, hx, rfl⟩
  exact hH _ hmem y (by simp)

/-! ### Types, declarations, and the nodes below them -/

variable (H)

/-- The structure node of a type. -/
def IsType (r : NodeRef) : Prop :=
  ∃ (a : StructureBiNode) (up : List StructureBiNode),
    a :: up ∈ H.chains ∧ a.isType = true ∧ a.structureNode = r

/-- The structure node of a child that a type declares. -/
def IsDeclaration (r : NodeRef) : Prop :=
  ∃ (c a : StructureBiNode) (up : List StructureBiNode),
    c :: a :: up ∈ H.chains ∧ c.isType = false ∧ a.isType = true ∧ c.structureNode = r

/-- A structure node below a declared child. -/
def IsBelow (r : NodeRef) : Prop :=
  ∃ (d y : StructureBiNode) (up : List StructureBiNode),
    d :: y :: up ∈ H.chains ∧ d.isType = false ∧ y.isType = false ∧ d.structureNode = r

variable {H}

theorem IsDeclaration.lt {r : NodeRef} (h : H.IsDeclaration r) : r < H.heap.next := by
  obtain ⟨c, a, up, hmem, -, -, rfl⟩ := h
  exact lt_next_of_mem_refs hmem (structureNode_mem_refs c)

theorem IsBelow.lt {r : NodeRef} (h : H.IsBelow r) : r < H.heap.next := by
  obtain ⟨d, y, up, hmem, -, -, rfl⟩ := h
  exact lt_next_of_mem_refs hmem (structureNode_mem_refs d)

theorem IsType.not_declaration {r : NodeRef} (h : H.IsType r) : ¬ H.IsDeclaration r := by
  rintro ⟨c, a, up, hmem, hc, -, rfl⟩
  obtain ⟨b, up', hmem', hb, hr⟩ := h
  have hsame := List.cons.inj (chain_injective hmem' hmem hr)
  rw [hsame.1, hc] at hb
  cases hb

theorem IsType.not_below {r : NodeRef} (h : H.IsType r) : ¬ H.IsBelow r := by
  rintro ⟨d, y, up, hmem, hd, -, rfl⟩
  obtain ⟨b, up', hmem', hb, hr⟩ := h
  have hsame := List.cons.inj (chain_injective hmem' hmem hr)
  rw [hsame.1, hd] at hb
  cases hb

theorem IsDeclaration.not_below {r : NodeRef} (h : H.IsDeclaration r) : ¬ H.IsBelow r := by
  rintro ⟨d, y, up, hmem, -, hy, rfl⟩
  obtain ⟨c, a, up', hmem', -, ha, hr⟩ := h
  have hsame := List.cons.inj (List.cons.inj (chain_injective hmem' hmem hr)).2
  rw [hsame.1, hy] at ha
  cases ha

mutual

/-- Below an instance declaration there are no types. -/
theorem TypesAboveTypes.isBelow_of_mem_refs (hH : H.TypesAboveTypes) :
    ∀ (d : StructureBiNode) {y : StructureBiNode} {up : List StructureBiNode},
      d :: y :: up ∈ H.chains → y.isType = false → ∀ r ∈ d.refs, H.IsBelow r
  | .mk n i isType o children, y, up, h, hy, r, hr => by
    have hd : isType = false := by
      by_contra hd
      have hytype := hH.parent h (by simpa using hd)
      rw [hy] at hytype
      cases hytype
    rw [refs, List.mem_cons] at hr
    rcases hr with rfl | hr
    · exact ⟨_, y, up, h, hd, hy, rfl⟩
    · exact hH.isBelow_of_mem_refsAll children (fun c hc => child_mem h hc) hd r hr

theorem TypesAboveTypes.isBelow_of_mem_refsAll (hH : H.TypesAboveTypes) :
    ∀ (ds : List StructureBiNode) {y : StructureBiNode} {up : List StructureBiNode},
      (∀ d ∈ ds, d :: y :: up ∈ H.chains) → y.isType = false → ∀ r ∈ refsAll ds, H.IsBelow r
  | [], _, _, _, _, r, hr => by simp [refsAll] at hr
  | d :: ds, y, up, h, hy, r, hr => by
    rw [refsAll, List.mem_append] at hr
    rcases hr with hr | hr
    · exact hH.isBelow_of_mem_refs d (h d List.mem_cons_self) hy r hr
    · exact hH.isBelow_of_mem_refsAll ds (fun c hc => h c (List.mem_cons_of_mem _ hc)) hy r hr

end

/-- The nodes below a declared child. -/
theorem TypesAboveTypes.isBelow_of_mem (hH : H.TypesAboveTypes) {c : StructureBiNode}
    {up : List StructureBiNode} (h : c :: up ∈ H.chains) (hc : c.isType = false) {r : NodeRef}
    (hr : r ∈ refsAll c.specifiedBiChildNodes) : H.IsBelow r :=
  hH.isBelow_of_mem_refsAll c.specifiedBiChildNodes (fun _ hd => child_mem h hd) hc r hr

end TypeHierarchy

end UmatiDashboard
