import Mathlib.Data.List.Forall2
import UmatiDashboard.TypeReader.Ancestry

/-!
# The lists of a forest of types

In a forest the list of a type depends on what its ancestry declares, and on how often the type is
set up (`Forest.forall₂_flattened`). Below the instance declarations nothing is merged: the list of
a node there has the children it was browsed with, once for each conversion
(`TypesAboveTypes.flattened_of_isBelow`).
-/

namespace UmatiDashboard

open StructureBiNode

namespace Flattening

/-! ### Lists of the same definitions -/

variable {h h' : TypeHeap}

/-- Where the one lookup finds a node the other one does, and they are the same. -/
theorem forall₂_find {α β : Type} [DecidableEq α] [DecidableEq β] {R : α → β → Prop} {p : α → Bool}
    {q : β → Bool} (hpq : ∀ a b, R a b → p a = q b) {as : List α} {bs : List β}
    (h : List.Forall₂ R as bs) :
    as.find? p = none ∧ bs.find? q = none ∨
      ∃ a b, as.find? p = some a ∧ bs.find? q = some b ∧ R a b ∧
        List.Forall₂ R (as.erase a) (bs.erase b) := by
  induction h with
  | nil => exact Or.inl ⟨rfl, rfl⟩
  | @cons a b as bs hab hrest ih =>
    have hq := hpq a b hab
    cases hp : p a with
    | true =>
      rw [hp] at hq
      exact Or.inr ⟨a, b, by simp [hp], by simp [← hq], hab, by simpa using hrest⟩
    | false =>
      rw [hp] at hq
      rcases ih with ⟨has, hbs⟩ | ⟨a', b', ha', hb', hab', herase⟩
      · exact Or.inl ⟨by simpa [hp] using has, by simpa [← hq] using hbs⟩
      · have hane : a ≠ a' := by
          rintro rfl
          rw [List.find?_some ha'] at hp
          cases hp
        have hbne : b ≠ b' := by
          rintro rfl
          rw [List.find?_some hb'] at hq
          cases hq
        refine Or.inr ⟨a', b', by simpa [hp] using ha', by simpa [← hq] using hb', hab', ?_⟩
        rw [List.erase_cons_tail (by simpa using hane), List.erase_cons_tail (by simpa using hbne)]
        exact .cons hab herase

/-- Declaring the same in two lists of the same. -/
theorem forall₂_declareIn {ns ns' : List NodeRef} (hns : List.Forall₂ (h.SameDefinition h') ns ns')
    {c c' : NodeRef} (hc : h.SameDefinition h' c c') :
    List.Forall₂ (h.SameDefinition h') (declareIn h ns c) (declareIn h' ns' c') := by
  have hname : ∀ {n n'}, h.SameDefinition h' n n' → h.browseName n = h'.browseName n' :=
    fun hn => congrArg NodeDefinition.specifiedBrowseName hn
  have hlookup : ∀ (h : TypeHeap) (ns : List NodeRef) (c : NodeRef),
      h.findNode ns c = ns.find? fun n => h.browseName n == h.browseName c := by
    intro h ns c
    rw [findNode_eq, named, List.head?_filter]
  have hfind := forall₂_find (p := fun n => h.browseName n == h.browseName c)
    (q := fun n => h'.browseName n == h'.browseName c')
    (fun n n' hn => by rw [hname hn, hname hc]) hns
  rw [← hlookup, ← hlookup] at hfind
  have hpush : ∀ {ns ns' : List NodeRef}, List.Forall₂ (h.SameDefinition h') ns ns' →
      List.Forall₂ (h.SameDefinition h') (ns ++ [c]) (ns' ++ [c']) :=
    fun hns => List.rel_append hns (.cons hc .nil)
  rcases hfind with ⟨hnone, hnone'⟩ | ⟨found, found', hfound, hfound', hsame, herase⟩
  · rw [declareIn, declareIn, hnone, hnone']
    exact hpush hns
  · have hrule : h.rule found = h'.rule found' := congrArg NodeDefinition.modellingRule hsame
    rw [declareIn, declareIn, hfound, hfound']
    dsimp only
    rw [hrule]
    split_ifs
    · exact hpush herase
    · exact hns

end Flattening

namespace TypeHierarchy

variable {H : TypeHierarchy}

/-! ### How often a type is set up -/

/-- The number of passes for a namespace. -/
def passes (uri : String) : List String → List String → ℕ
  | [], _ => 0
  | namespaceUri :: rest, notFound =>
    if namespaceUri ∈ notFound then
      (if uri = namespaceUri then 1 else 0) + passes uri rest (notFound.erase namespaceUri)
    else passes uri rest notFound

theorem filter_eq_singleton_of_nodup {α β : Type} [DecidableEq α] {l : List (α × β)}
    (hl : (l.map Prod.fst).Nodup) {p : α × β} (hp : p ∈ l) :
    (l.filter fun q => q.1 == p.1) = [p] := by
  obtain ⟨before, after, rfl⟩ := List.append_of_mem hp
  rw [List.map_append, List.map_cons, List.nodup_middle, List.nodup_cons, List.mem_append,
    not_or, List.mem_map, List.mem_map] at hl
  have hnone : ∀ l : List (α × β), (¬ ∃ q ∈ l, q.1 = p.1) →
      (l.filter fun q => q.1 == p.1) = [] := by
    intro l hl
    rw [List.filter_eq_nil_iff]
    intro q hq heq
    exact hl ⟨q, hq, by simpa using heq⟩
  rw [List.filter_append, List.filter_cons, hnone _ hl.1.1, hnone _ hl.1.2]
  simp

/-- In one pass over the types a type comes once. -/
theorem filter_headRef_types {x : NodeId} {line : List StructureBiNode}
    (hx : H.types[x]? = some line) :
    ((H.types.toList.map Prod.snd).filter fun line' => headRef line' == headRef line) = [line] := by
  have hmem : (x, line) ∈ H.types.toList :=
    Std.ExtTreeMap.mem_toList_iff_getElem?_eq_some.mpr hx
  have hkeys : (H.types.toList.map Prod.fst).Nodup := by
    rw [Std.ExtTreeMap.map_fst_toList_eq_keys]
    exact Std.ExtTreeMap.nodup_keys
  have hsame : ∀ p ∈ H.types.toList, (headRef p.2 == headRef line) = (p.1 == x) := by
    rintro ⟨x', line'⟩ hp
    have hx' := Std.ExtTreeMap.mem_toList_iff_getElem?_eq_some.mp hp
    rw [Bool.eq_iff_iff, beq_iff_eq, beq_iff_eq]
    constructor
    · intro heq
      obtain ⟨type, up, rfl, hid⟩ := getElem?_bidirectionalTypeMap hx
      obtain ⟨type', up', rfl, hid'⟩ := getElem?_bidirectionalTypeMap hx'
      obtain ⟨_, _, hcons, hchain, -⟩ := mem_chains_of_types hx
      obtain ⟨_, _, hcons', hchain', -⟩ := mem_chains_of_types hx'
      rw [← hcons] at hchain
      rw [← hcons'] at hchain'
      obtain ⟨rfl, -⟩ := List.cons.inj (chain_injective hchain' hchain heq)
      exact hid'.symm.trans hid
    · rintro rfl
      rw [Option.some.inj (hx'.symm.trans hx)]
  rw [List.filter_map, Function.comp_def, List.filter_congr hsame,
    filter_eq_singleton_of_nodup hkeys hmem]
  rfl

/-- **How often a type is set up**: once for every pass for its namespace. -/
theorem filter_headRef_setUpLines {x : NodeId} {line : List StructureBiNode}
    (hx : H.types[x]? = some line) : ∀ namespaces notFound : List String,
    ((setUpLines H.types namespaces notFound).filter fun line' => headRef line' == headRef line) =
      List.replicate (passes x.uri namespaces notFound) line
  | [], _ => rfl
  | namespaceUri :: rest, notFound => by
    have hown : inNamespace namespaceUri line = (x.uri == namespaceUri) := by
      obtain ⟨type, up, rfl, rfl⟩ := getElem?_bidirectionalTypeMap hx
      rfl
    rw [setUpLines, passes]
    split_ifs with huri heq
    · rw [List.filter_append, List.filter_comm, filter_headRef_types hx, List.filter_singleton,
        hown, filter_headRef_setUpLines hx rest, Nat.add_comm, List.replicate_succ]
      simp [heq]
    · rw [List.filter_append, List.filter_comm, filter_headRef_types hx, List.filter_singleton,
        hown, filter_headRef_setUpLines hx rest, Nat.zero_add, beq_false_of_ne heq]
      rfl
    · exact filter_headRef_setUpLines hx rest notFound

/-! ### The list of a type -/

variable {H' : TypeHierarchy} {type : DeclaredType} {supertypes : List DeclaredType}

theorem foldl_forall₂_declareIn {h h' : TypeHeap} {ds ds' : List NodeRef}
    (hds : List.Forall₂ (h.SameDefinition h') ds ds') :
    ∀ {ns ns' : List NodeRef}, List.Forall₂ (h.SameDefinition h') ns ns' →
      List.Forall₂ (h.SameDefinition h') (ds.foldl (Flattening.declareIn h) ns)
        (ds'.foldl (Flattening.declareIn h') ns') := by
  induction hds with
  | nil => exact fun hns => hns
  | cons hd _ ih => exact fun hns => ih (Flattening.forall₂_declareIn hns hd)

/-- **The list of a type** in a forest is determined by what its ancestry declares. -/
theorem Forest.forall₂_flattened (hH : H.Forest) (hH' : H'.Forest) {x : NodeId}
    {line line' : List StructureBiNode} (hx : H.types[x]? = some line)
    (hx' : H'.types[x]? = some line') {a : List DeclaredType}
    (hline : List.Forall₂ (DeclaredType.Filed H.heap) line a)
    (hline' : List.Forall₂ (DeclaredType.Filed H'.heap) line' a)
    (expectedObjectTypeNamespaces namespaces : List String) :
    List.Forall₂ (H.heap.SameDefinition H'.heap)
      (H.flattened expectedObjectTypeNamespaces namespaces (headRef line))
      (H'.flattened expectedObjectTypeNamespaces namespaces (headRef line')) := by
  have hlist : ∀ {H : TypeHierarchy}, H.Forest → ∀ {line : List StructureBiNode},
      H.types[x]? = some line →
      H.flattened expectedObjectTypeNamespaces namespaces (headRef line) =
        ((List.replicate (passes x.uri namespaces expectedObjectTypeNamespaces) line).flatMap
          declaredRefs).foldl (Flattening.declareIn H.heap) [] := by
    intro H hH line hx
    rw [flattened, Flattening.run_apply_of_unlisted
      ((hH.typesAboveTypes.typesOnly hx).not_mem_refs hx namespaces expectedObjectTypeNamespaces),
      filter_headRef_setUpLines hx]
  rw [hlist hH hx, hlist hH' hx']
  refine foldl_forall₂_declareIn ?_ .nil
  have hsame := DeclaredType.sameDefinition_declaredRefs hline hline'
  induction passes x.uri namespaces expectedObjectTypeNamespaces with
  | zero => exact .nil
  | succ n ih =>
    rw [List.replicate_succ, List.replicate_succ, List.flatMap_cons, List.flatMap_cons]
    exact List.rel_append hsame ih

/-! ### Below the instance declarations -/

variable (H) in
/-- **The layers of the lists**, after these conversions: types list declarations, and all others
list nodes below declarations. Nothing is merged below a declaration. -/
structure Layered (calls : List StructureBiNode) (L : ChildLists) : Prop where
  types : ∀ r, H.IsType r → ∀ m ∈ L r, H.IsDeclaration m
  others : ∀ r, ¬ H.IsType r → ∀ m ∈ L r, H.IsBelow m
  below : ∀ r, H.IsBelow r → L r = calls.flatMap fun c => appendedBy c.subtrees r

variable {calls : List StructureBiNode} {L : ChildLists}

theorem layered_start : H.Layered [] fun _ => [] :=
  ⟨fun _ _ _ hm => absurd hm List.not_mem_nil, fun _ _ _ hm => absurd hm List.not_mem_nil,
    fun _ _ => rfl⟩

/-- A declaration is converted. -/
theorem Layered.fill (hL : H.Layered calls L) (hH : H.TypesAboveTypes) {c a : StructureBiNode}
    {up : List StructureBiNode} (hmem : c :: a :: up ∈ H.chains) (hc : c.isType = false)
    (ha : a.isType = true) : H.Layered (calls ++ [c]) (Flattening.fill c L) := by
  refine ⟨fun r hr m hm => ?_, fun r hr m hm => ?_, fun r hr => ?_⟩
  · -- there are no types in the tree of a declaration
    have hnot : r ∉ c.refs := by
      rw [refs_eq_cons, List.mem_cons, not_or]
      refine ⟨?_, fun hbelow => hr.not_below (hH.isBelow_of_mem hmem hc hbelow)⟩
      rintro rfl
      exact hr.not_declaration ⟨c, a, up, hmem, hc, ha, rfl⟩
    rw [Flattening.fill_of_not_mem hnot] at hm
    exact hL.types r hr m hm
  · rcases List.mem_append.mp hm with hm | hm
    · exact hL.others r hr m hm
    · exact hH.isBelow_of_mem hmem hc (mem_refsAll_of_mem_appendedBy hm)
  · rw [Flattening.fill, hL.below r hr, List.flatMap_append, List.flatMap_singleton]

/-- A declaration hands its children to another one. -/
theorem Layered.handFound (hL : H.Layered calls L) {l c : NodeRef} (hl : H.IsType l)
    (hc : H.IsDeclaration c) : H.Layered calls (Flattening.handFound H.heap l c L) := by
  have hfound : ∀ found, H.heap.findNode (L l) c = some found → H.IsDeclaration found :=
    fun found hfind => hL.types l hl found (Flattening.findNode_mem hfind)
  refine ⟨fun r hr m hm => ?_, fun r hr m hm => ?_, fun r hr => ?_⟩
  · rw [Flattening.handFound_of_ne] at hm
    · exact hL.types r hr m hm
    · rintro found hfind rfl
      exact hr.not_declaration (hfound _ hfind)
  · rcases Flattening.mem_of_mem_handFound hm with hm | hm
    · exact hL.others r hr m hm
    · exact hL.others c (fun htype => htype.not_declaration hc) m hm
  · rw [Flattening.handFound_of_ne]
    · exact hL.below r hr
    · rintro found hfind rfl
      exact (hfound _ hfind).not_below hr

/-- **One declared child.** -/
theorem Layered.declare (hL : H.Layered calls L) (hH : H.TypesAboveTypes) {l : NodeRef}
    (hl : H.IsType l) {c a : StructureBiNode} {up : List StructureBiNode}
    (hmem : c :: a :: up ∈ H.chains) (hc : c.isType = false) (ha : a.isType = true) :
    H.Layered (calls ++ [c]) (Flattening.declare H.heap l L c) := by
  have hdeclaration : H.IsDeclaration c.structureNode := ⟨c, a, up, hmem, hc, ha, rfl⟩
  obtain ⟨htypes, hothers, hbelow⟩ := (hL.fill hH hmem hc ha).handFound hl hdeclaration
  unfold Flattening.declare
  refine ⟨fun r hr m hm => ?_, fun r hr m hm => ?_, fun r hr => ?_⟩
  · by_cases heq : r = l
    · rw [heq, Function.update_self] at hm
      rcases Flattening.mem_of_mem_declareIn hm with hm | rfl
      · exact htypes l hl m hm
      · exact hdeclaration
    · rw [Function.update_of_ne heq] at hm
      exact htypes r hr m hm
  · have hne : r ≠ l := fun heq => hr (heq ▸ hl)
    rw [Function.update_of_ne hne] at hm
    exact hothers r hr m hm
  · have hne : r ≠ l := fun heq => hl.not_below (heq ▸ hr)
    rw [Function.update_of_ne hne]
    exact hbelow r hr

/-- **The layers of the lists** that flattening leaves. -/
theorem TypesAboveTypes.layered (hH : H.TypesAboveTypes)
    (expectedObjectTypeNamespaces namespaces : List String) :
    H.Layered (H.conversionCalls expectedObjectTypeNamespaces namespaces)
      (H.flattened expectedObjectTypeNamespaces namespaces) := by
  have hrun : H.Layered ((declared (setUpLines H.types namespaces
      expectedObjectTypeNamespaces)).map Prod.snd)
      (H.flattened expectedObjectTypeNamespaces namespaces) :=
    Flattening.run_invariant H.heap
      (I := fun done L => H.Layered (done.map Prod.snd) L) layered_start
      fun line hline c hc done L hL => by
        obtain ⟨x, hx, -⟩ := mem_types_of_mem_setUpLines _ _ hline
        obtain ⟨hctype, a, ha, up, hchain⟩ := exists_chain_of_mem_setUpLines hline hc
        obtain ⟨type, up', rfl, htchain, htype⟩ := mem_chains_of_types hx
        rw [List.map_append]
        exact hL.declare hH ⟨type, up', htchain, htype, rfl⟩ hchain hctype (hH.typesOnly hx a ha)
  rwa [Flattening.map_snd_declared] at hrun

/-- **Below the declarations** a list has the children browsed, once for each conversion. -/
theorem Layered.list_of_isBelow (hL : H.Layered calls L)
    (hcalls : ∀ c ∈ calls, ∃ up, c :: up ∈ H.chains) {b : StructureBiNode}
    {up : List StructureBiNode} (hb : b :: up ∈ H.chains) (hbelow : H.IsBelow b.structureNode) :
    L b.structureNode =
      (List.replicate (conversions calls b.structureNode) b.childRefs).flatten := by
  rw [hL.below _ hbelow, conversions, ← flatMap_ite_eq_flatten]
  refine List.flatMap_congr fun c hc => ?_
  obtain ⟨up', hmem⟩ := hcalls c hc
  by_cases hbref : b.structureNode ∈ c.refs
  · have hnodup : (c.subtrees.map structureNode).Nodup := by
      rw [map_structureNode_subtrees]
      exact nodup_refs hmem
    rw [appendedBy_of_mem hnodup (mem_subtrees_of_mem_refs hmem hb hbref).1]
    simp [hbref]
  · rw [appendedBy_of_not_mem (by rwa [map_structureNode_subtrees])]
    simp [hbref]

/-- The children of a node below a declaration are below it, too. -/
theorem TypesAboveTypes.isBelow_child (hH : H.TypesAboveTypes) {b d : StructureBiNode}
    {up : List StructureBiNode} (hb : b :: up ∈ H.chains) (hbelow : H.IsBelow b.structureNode)
    (hd : d ∈ b.specifiedBiChildNodes) : H.IsBelow d.structureNode := by
  have htype : b.isType = false := by
    by_contra htype
    exact IsType.not_below ⟨b, up, hb, by simpa using htype, rfl⟩ hbelow
  exact hH.isBelow_of_mem hb htype (mem_refsAll_of_mem hd)

theorem exists_chain_of_mem_conversionCalls {expectedObjectTypeNamespaces namespaces : List String}
    {c : StructureBiNode}
    (hc : c ∈ H.conversionCalls expectedObjectTypeNamespaces namespaces) :
    ∃ up, c :: up ∈ H.chains := by
  obtain ⟨line, hline, hc⟩ := List.mem_flatMap.mp hc
  obtain ⟨-, a, -, up, hchain⟩ := exists_chain_of_mem_setUpLines hline hc
  exact ⟨a :: up, hchain⟩

end TypeHierarchy

end UmatiDashboard
