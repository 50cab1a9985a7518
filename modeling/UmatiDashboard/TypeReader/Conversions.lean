import UmatiDashboard.TypeReader.BrowsedTree

/-!
# Repeated conversions

`toStructureNode` appends to the lists that it finds. After any calls on nodes of a browsed tree the
list of a node holds its children once for every call whose tree has the node (`children_convert`),
so what the calls return is the tree exactly if no node with children is converted twice
(`convert_once_iff`).
-/

namespace UmatiDashboard

namespace TypeHeap

/-- The nodes are the same up to the flag for variable types. -/
structure SameNodes (h h' : TypeHeap) : Prop where
  next : h'.next = h.next
  definition : ∀ r, (h'.nodes r).toNodeDefinition = (h.nodes r).toNodeDefinition
  ownList : ∀ r, (h'.nodes r).specifiedChildNodes = (h.nodes r).specifiedChildNodes

theorem SameNodes.refl (h : TypeHeap) : SameNodes h h := ⟨rfl, fun _ => rfl, fun _ => rfl⟩

theorem SameNodes.trans {h h' h'' : TypeHeap} (h₁ : SameNodes h h') (h₂ : SameNodes h' h'') :
    SameNodes h h'' :=
  ⟨h₂.next.trans h₁.next, fun r => (h₂.definition r).trans (h₁.definition r),
    fun r => (h₂.ownList r).trans (h₁.ownList r)⟩

theorem sameNodes_setList (h : TypeHeap) (l : ListRef) (ns : List NodeRef) :
    SameNodes h (h.setList l ns) := ⟨rfl, fun _ => rfl, fun _ => rfl⟩

/-- Writing the flag for variable types. -/
theorem sameNodes_setFlag (h : TypeHeap) (n : NodeRef) (flag : Bool) :
    SameNodes h (h.setNode n { h.nodes n with ofBaseDataVariableType := flag }) := by
  refine ⟨rfl, fun r => ?_, fun r => ?_⟩
  · by_cases hr : r = n
    · simp [hr]
    · rw [nodes_setNode_of_ne h hr]
  · by_cases hr : r = n
    · simp [hr]
    · rw [nodes_setNode_of_ne h hr]

end TypeHeap

namespace StructureBiNode

open TypeHeap

/-! ### The nodes of a tree -/

mutual

/-- The nodes of a tree, each with what is below it. -/
def subtrees : StructureBiNode → List StructureBiNode
  | b@(mk _ _ _ _ children) => b :: subtreesAll children

def subtreesAll : List StructureBiNode → List StructureBiNode
  | [] => []
  | b :: bs => subtrees b ++ subtreesAll bs

end

theorem mem_subtrees_self (b : StructureBiNode) : b ∈ b.subtrees := by
  cases b
  exact List.mem_cons_self

mutual

theorem map_structureNode_subtrees : ∀ b : StructureBiNode,
    b.subtrees.map structureNode = b.refs
  | mk n i t o children => by
    rw [subtrees, refs, List.map_cons, map_structureNode_subtreesAll children, structureNode_mk]

theorem map_structureNode_subtreesAll : ∀ bs : List StructureBiNode,
    (subtreesAll bs).map structureNode = refsAll bs
  | [] => rfl
  | b :: bs => by
    rw [subtreesAll, refsAll, List.map_append, map_structureNode_subtrees b,
      map_structureNode_subtreesAll bs]

end

mutual

/-- What is below a node of a tree is below the tree. -/
theorem subtrees_sublist {w : StructureBiNode} : ∀ b : StructureBiNode, w ∈ b.subtrees →
    w.subtrees.Sublist b.subtrees
  | mk n i t o children, h => by
    rw [subtrees] at h ⊢
    rcases List.mem_cons.mp h with rfl | h
    · rw [subtrees]
    · exact (subtreesAll_sublist children h).cons _

theorem subtreesAll_sublist {w : StructureBiNode} : ∀ bs : List StructureBiNode,
    w ∈ subtreesAll bs → w.subtrees.Sublist (subtreesAll bs)
  | [], h => absurd h List.not_mem_nil
  | b :: bs, h => by
    rw [subtreesAll] at h ⊢
    rcases List.mem_append.mp h with h | h
    · exact (subtrees_sublist b h).trans (List.sublist_append_left _ _)
    · exact (subtreesAll_sublist bs h).trans (List.sublist_append_right _ _)

end

theorem mem_refs_of_mem_subtrees {b x : StructureBiNode} (h : x ∈ b.subtrees) :
    x.structureNode ∈ b.refs := by
  rw [← map_structureNode_subtrees]
  exact List.mem_map_of_mem h

/-- In a tree whose structure nodes are distinct, a node below another one is found there. -/
theorem mem_subtrees_of_mem_refs {b w x : StructureBiNode} (hnodup : b.refs.Nodup)
    (hw : w ∈ b.subtrees) (hx : x ∈ b.subtrees) (hmem : x.structureNode ∈ w.refs) :
    x ∈ w.subtrees := by
  rw [← map_structureNode_subtrees] at hmem hnodup
  obtain ⟨y, hy, heq⟩ := List.mem_map.mp hmem
  obtain rfl := List.inj_on_of_nodup_map hnodup ((subtrees_sublist b hw).subset hy) hx heq
  exact hy

/-! ### What a call appends -/

/-- The structure nodes of the children. -/
def childRefs (b : StructureBiNode) : List NodeRef := b.specifiedBiChildNodes.map structureNode

theorem nodup_childRefs {b : StructureBiNode} (h : b.refs.Nodup) : b.childRefs.Nodup := by
  have hsub : ∀ bs : List StructureBiNode, (bs.map structureNode).Sublist (refsAll bs) := by
    intro bs
    induction bs with
    | nil => exact List.Sublist.slnil
    | cons b bs ih =>
      rw [List.map_cons, refsAll, ← List.singleton_append]
      exact (List.singleton_sublist.mpr (structureNode_mem_refs b)).append ih
  cases b with
  | mk n i t o children =>
    rw [refs, List.nodup_cons] at h
    exact (hsub children).nodup h.2

/-- The children of those nodes whose list is `l`. -/
def appendedBy (nodes : List StructureBiNode) (l : ListRef) : List NodeRef :=
  nodes.flatMap fun x => if x.structureNode = l then x.childRefs else []

theorem appendedBy_append (xs ys : List StructureBiNode) (l : ListRef) :
    appendedBy (xs ++ ys) l = appendedBy xs l ++ appendedBy ys l := by
  rw [appendedBy, List.flatMap_append]
  rfl

theorem appendedBy_of_not_mem {nodes : List StructureBiNode} {l : ListRef}
    (h : l ∉ nodes.map structureNode) : appendedBy nodes l = [] := by
  rw [appendedBy, List.flatMap_eq_nil_iff]
  intro x hx
  rw [if_neg]
  rintro rfl
  exact h (List.mem_map_of_mem hx)

theorem appendedBy_of_mem {nodes : List StructureBiNode} {x : StructureBiNode}
    (hnodup : (nodes.map structureNode).Nodup) (hx : x ∈ nodes) :
    appendedBy nodes x.structureNode = x.childRefs := by
  obtain ⟨before, after, rfl⟩ := List.append_of_mem hx
  rw [List.map_append, List.map_cons, List.nodup_middle, List.nodup_cons, List.mem_append,
    not_or] at hnodup
  rw [← List.singleton_append, appendedBy_append, appendedBy_append,
    appendedBy_of_not_mem hnodup.1.1, appendedBy_of_not_mem hnodup.1.2]
  simp [appendedBy]

/-- What is appended in a tree stands below its root. -/
theorem mem_refsAll_of_mem_appendedBy {c : StructureBiNode} {l : ListRef} {m : NodeRef}
    (hm : m ∈ appendedBy c.subtrees l) : m ∈ refsAll c.specifiedBiChildNodes := by
  obtain ⟨x, hx, hm⟩ := List.mem_flatMap.mp hm
  split_ifs at hm
  · obtain ⟨d, hd, rfl⟩ := List.mem_map.mp hm
    cases c with
    | mk n i t o children =>
      rw [subtrees] at hx
      rcases List.mem_cons.mp hx with rfl | hx
      · exact mem_refsAll_of_mem hd
      · rw [← map_structureNode_subtreesAll]
        refine List.map_subset structureNode (subtreesAll_sublist children hx).subset ?_
        rw [map_structureNode_subtrees, refs_eq_cons]
        exact List.mem_cons_of_mem _ (mem_refsAll_of_mem hd)
  · exact absurd hm List.not_mem_nil

mutual

/-- `toStructureNode` writes lists, and the flag. -/
theorem sameNodes_toStructureNode : ∀ (b : StructureBiNode) (h : TypeHeap),
    SameNodes h (b.toStructureNode h)
  | mk n _ _ o children, h =>
    (sameNodes_toStructureNodes children n h).trans (sameNodes_setFlag _ n o)

theorem sameNodes_toStructureNodes : ∀ (cs : List StructureBiNode) (n : NodeRef) (h : TypeHeap),
    SameNodes h (toStructureNodes n cs h)
  | [], _, h => SameNodes.refl h
  | c :: cs, n, h =>
    ((sameNodes_toStructureNode c h).trans (sameNodes_setList _ _ _)).trans
      (sameNodes_toStructureNodes cs n _)

end

mutual

/-- **`toStructureNode`** appends its children to the list of each node of the tree. -/
theorem lists_toStructureNode : ∀ (b : StructureBiNode) (h : TypeHeap),
    (∀ r ∈ b.refs, (h.nodes r).specifiedChildNodes = r) → b.refs.Nodup → ∀ l,
    (b.toStructureNode h).lists l = h.lists l ++ appendedBy b.subtrees l
  | mk n i t o children, h, hown, hnodup, l => by
    rw [refs, List.nodup_cons] at hnodup
    have hchildren := lists_toStructureNodes children n h (hown n (by simp [refs]))
      (fun r hr => hown r (by simp [refs, hr])) hnodup.1 hnodup.2 l
    rw [toStructureNode, lists_setNode, hchildren, subtrees, ← List.singleton_append,
      appendedBy_append, List.append_assoc]
    simp [appendedBy, childRefs, eq_comm]

/-- The loop over the children enters them into the list of their parent. -/
theorem lists_toStructureNodes : ∀ (cs : List StructureBiNode) (n : NodeRef) (h : TypeHeap),
    (h.nodes n).specifiedChildNodes = n →
    (∀ r ∈ refsAll cs, (h.nodes r).specifiedChildNodes = r) → n ∉ refsAll cs →
    (refsAll cs).Nodup → ∀ l,
    (toStructureNodes n cs h).lists l =
      h.lists l ++ (if l = n then cs.map structureNode else []) ++ appendedBy (subtreesAll cs) l
  | [], n, h, _, _, _, _, l => by simp [toStructureNodes, subtreesAll, appendedBy]
  | c :: cs, n, h, hn, hown, hnot, hnodup, l => by
    rw [refsAll, List.mem_append, not_or] at hnot
    rw [refsAll] at hnodup hown
    obtain ⟨hnodupc, hnodupcs, -⟩ := List.nodup_append.mp hnodup
    have hownc : ∀ r ∈ c.refs, (h.nodes r).specifiedChildNodes = r := fun r hr =>
      hown r (List.mem_append_left _ hr)
    have hsame := sameNodes_toStructureNode c h
    have hlist := (hsame.ownList n).trans hn
    have hrest := lists_toStructureNodes cs n ((c.toStructureNode h).pushBack n c.structureNode)
      hlist (fun r hr => (hsame.ownList r).trans (hown r (List.mem_append_right _ hr))) hnot.2
      hnodupcs l
    simp only [toStructureNodes, hlist]
    rw [hrest, subtreesAll, appendedBy_append]
    by_cases hl : l = n
    · -- the list of the parent is not among those of the tree below
      subst hl
      have hc : appendedBy c.subtrees l = [] :=
        appendedBy_of_not_mem (by rw [map_structureNode_subtrees]; exact hnot.1)
      rw [lists_pushBack_self, lists_toStructureNode c h hownc hnodupc, hc]
      simp
    · rw [lists_pushBack_of_ne _ hl, lists_toStructureNode c h hownc hnodupc]
      simp [hl]

end

/-! ### Any calls on a tree -/

/-- Calls of `toStructureNode`, one after the other. -/
def convert (calls : List StructureBiNode) (h : TypeHeap) : TypeHeap :=
  calls.foldl (fun h w => w.toStructureNode h) h

/-- How many of the calls are on a tree that has the node. -/
def conversions (calls : List StructureBiNode) (r : NodeRef) : ℕ :=
  calls.countP fun w => r ∈ w.refs

/-- A tree as browsing makes it: every node has a structure node of its own, with a list of its own
that is empty. -/
structure Fresh (b : StructureBiNode) (h : TypeHeap) : Prop where
  nodup : b.refs.Nodup
  ownList : ∀ r ∈ b.refs, (h.nodes r).specifiedChildNodes = r
  lists : ∀ r ∈ b.refs, h.lists r = []

theorem fresh_browseTree (flag : Bool) (t : BrowseTree) {st : TypeBrowse}
    (hst : TypeBrowse.Unfilled st.heap) :
    (TypeBrowse.browseTree flag t st).1.Fresh (TypeBrowse.browseTree flag t st).2.heap := by
  obtain ⟨hunfilled, -, hnodup, hbounds⟩ := TypeBrowse.unfilled_browseTree flag t st hst
  exact ⟨hnodup, fun r hr => hunfilled.ownList r (hbounds r hr).2, fun r _ => hunfilled.lists r⟩

/-- The lists after the calls. -/
theorem lists_convert {b : StructureBiNode} (hnodup : b.refs.Nodup) :
    ∀ (calls : List StructureBiNode) {h : TypeHeap},
      (∀ r ∈ b.refs, (h.nodes r).specifiedChildNodes = r) → (∀ w ∈ calls, w ∈ b.subtrees) →
      SameNodes h (convert calls h) ∧
        ∀ l, (convert calls h).lists l =
          h.lists l ++ calls.flatMap fun w => appendedBy w.subtrees l
  | [], h, _, _ => ⟨SameNodes.refl h, fun l => by simp [convert]⟩
  | w :: calls, h, hown, hcalls => by
    have hw := subtrees_sublist b (hcalls w List.mem_cons_self)
    have hrefs : w.refs.Sublist b.refs := by
      rw [← map_structureNode_subtrees, ← map_structureNode_subtrees]
      exact hw.map structureNode
    have hownw : ∀ r ∈ w.refs, (h.nodes r).specifiedChildNodes = r := fun r hr =>
      hown r (hrefs.subset hr)
    have hnodupw := hrefs.nodup hnodup
    have hsame := sameNodes_toStructureNode w h
    obtain ⟨hsame', hlists⟩ := lists_convert hnodup calls (h := w.toStructureNode h)
      (fun r hr => (hsame.ownList r).trans (hown r hr))
      fun w' hw' => hcalls w' (List.mem_cons_of_mem _ hw')
    refine ⟨hsame.trans hsame', fun l => ?_⟩
    calc (convert calls (w.toStructureNode h)).lists l
        = (w.toStructureNode h).lists l ++ calls.flatMap fun w => appendedBy w.subtrees l :=
          hlists l
      _ = h.lists l ++ (w :: calls).flatMap fun w => appendedBy w.subtrees l := by
          rw [lists_toStructureNode w h hownw hnodupw, List.flatMap_cons, List.append_assoc]

/-- A list once for every element of a kind. -/
theorem flatMap_ite_eq_flatten {α β : Type} (p : α → Bool) (l : List β) (as : List α) :
    (as.flatMap fun a => if p a then l else []) = (List.replicate (as.countP p) l).flatten := by
  induction as with
  | nil => rfl
  | cons a as ih =>
    rw [List.flatMap_cons, ih]
    cases h : p a <;> simp [h, List.replicate_succ]

/-- **The children after the calls**: those of the tree, once for each call that converts the
node. -/
theorem children_convert {b : StructureBiNode} {h : TypeHeap} (hb : b.Fresh h)
    {calls : List StructureBiNode} (hcalls : ∀ w ∈ calls, w ∈ b.subtrees) {x : StructureBiNode}
    (hx : x ∈ b.subtrees) :
    (convert calls h).children x.structureNode =
      (List.replicate (conversions calls x.structureNode) x.childRefs).flatten := by
  have hxref := mem_refs_of_mem_subtrees hx
  obtain ⟨hsame, hlists⟩ := lists_convert hb.nodup calls hb.ownList hcalls
  rw [children, hsame.ownList, hb.ownList _ hxref, hlists, hb.lists _ hxref, List.nil_append,
    conversions, ← flatMap_ite_eq_flatten]
  refine List.flatMap_congr fun w hw => ?_
  by_cases hmem : x.structureNode ∈ w.refs
  · have hnodup : (w.subtrees.map structureNode).Nodup := by
      refine ((subtrees_sublist b (hcalls w hw)).map structureNode).nodup ?_
      rw [map_structureNode_subtrees]
      exact hb.nodup
    rw [appendedBy_of_mem hnodup (mem_subtrees_of_mem_refs hb.nodup (hcalls w hw) hx hmem)]
    simp [hmem]
  · rw [appendedBy_of_not_mem (by rwa [map_structureNode_subtrees])]
    simp [hmem]

/-- **The trees that the calls return** have each child once, exactly if no node with children is
converted twice. -/
theorem convert_once_iff {b : StructureBiNode} {h : TypeHeap} (hb : b.Fresh h)
    {calls : List StructureBiNode} (hcalls : ∀ w ∈ calls, w ∈ b.subtrees) :
    (∀ w ∈ calls, ∀ x ∈ w.subtrees, (convert calls h).children x.structureNode = x.childRefs) ↔
      ∀ x ∈ b.subtrees, x.specifiedBiChildNodes ≠ [] →
        conversions calls x.structureNode ≤ 1 := by
  constructor
  · intro hchildren x hx hne
    by_contra htwice
    -- a call that converts the node returns its children as often as it is converted
    obtain ⟨w, hw, hmem⟩ := List.countP_pos_iff.mp (show 0 < conversions calls x.structureNode by
      omega)
    have hlength := congrArg List.length (hchildren w hw x
      (mem_subtrees_of_mem_refs hb.nodup (hcalls w hw) hx (of_decide_eq_true hmem)))
    rw [children_convert hb hcalls hx, List.length_flatten, List.map_replicate,
      List.sum_replicate_nat] at hlength
    have hpos : 0 < x.childRefs.length := by
      rw [childRefs, List.length_map]
      exact List.length_pos_iff.mpr hne
    have honce : conversions calls x.structureNode = 1 :=
      Nat.eq_of_mul_eq_mul_right hpos (hlength.trans (Nat.one_mul _).symm)
    omega
  · intro honce w hw x hx
    have hxb := (subtrees_sublist b (hcalls w hw)).subset hx
    rw [children_convert hb hcalls hxb]
    by_cases hne : x.specifiedBiChildNodes = []
    · simp [childRefs, hne]
    · have hpos : 0 < conversions calls x.structureNode :=
        List.countP_pos_iff.mpr ⟨w, hw, decide_eq_true (mem_refs_of_mem_subtrees hx)⟩
      have hone : conversions calls x.structureNode = 1 :=
        Nat.le_antisymm (honce x hxb hne) hpos
      rw [hone]
      simp

end StructureBiNode

end UmatiDashboard
