import UmatiDashboard.TypeReader.Conversions
import UmatiDashboard.TypeReader.UpdatedTypes

/-!
# Lists that repeat a child

Setting up a type converts every declared child of its bloodline once more. A merge adds no child
that is in the list already; so the list of a node that is not set up itself repeats a child exactly
if the node was browsed with children, and has been converted more than once (`convertedAt_run`).
The list of a type with only types above it has distinct names.
-/

namespace UmatiDashboard

open StructureBiNode

/-! ### One list -/

namespace StructureBiNode

/-- The list of a node that has been converted `k` times. -/
structure ConvertedAt (b : StructureBiNode) (k : ℕ) (list : List NodeRef) : Prop where
  empty : k = 0 → list = []
  children : 0 < k → b.childRefs ⊆ list
  nodup : list.Nodup ↔ b.specifiedBiChildNodes = [] ∨ k ≤ 1

variable {b : StructureBiNode} {k : ℕ} {list list' : List NodeRef}

theorem convertedAt_zero (b : StructureBiNode) : b.ConvertedAt 0 [] :=
  ⟨fun _ => rfl, fun h => absurd h (Nat.lt_irrefl 0), by simp⟩

/-- The node is converted once more. -/
theorem ConvertedAt.convert (h : b.ConvertedAt k list) (hnodup : b.childRefs.Nodup) :
    b.ConvertedAt (k + 1) (list ++ b.childRefs) := by
  refine ⟨fun hk => (by cases hk), fun _ => List.subset_append_right _ _, ?_⟩
  by_cases hchildren : b.specifiedBiChildNodes = []
  · have hnone : b.childRefs = [] := by rw [childRefs, hchildren, List.map_nil]
    rw [hnone, List.append_nil]
    exact iff_of_true (h.nodup.mpr (Or.inl hchildren)) (Or.inl hchildren)
  · by_cases hk : k = 0
    · rw [h.empty hk, List.nil_append, hk]
      exact iff_of_true hnodup (Or.inr (Nat.le_refl 1))
    · -- a child that is in the list already comes once more
      have hne : b.childRefs ≠ [] := by simpa [childRefs] using hchildren
      obtain ⟨n, hn⟩ := List.exists_mem_of_ne_nil _ hne
      refine iff_of_false (fun htwice => ?_) (by simp [hchildren]; omega)
      exact List.disjoint_of_nodup_append htwice (h.children (Nat.pos_of_ne_zero hk) hn) hn

/-- Children that are not in the list are added. -/
theorem ConvertedAt.grow (h : b.ConvertedAt k list) (hk : 0 < k) (hsub : list ⊆ list')
    (hnodup : list'.Nodup ↔ list.Nodup) : b.ConvertedAt k list' :=
  ⟨fun hzero => absurd hzero (Nat.pos_iff_ne_zero.mp hk), fun hk _ hn => hsub (h.children hk hn),
    hnodup.trans h.nodup⟩

theorem conversions_append (calls calls' : List StructureBiNode) (r : NodeRef) :
    conversions (calls ++ calls') r = conversions calls r + conversions calls' r :=
  List.countP_append

theorem conversions_singleton (c : StructureBiNode) (r : NodeRef) :
    conversions [c] r = if r ∈ c.refs then 1 else 0 := by
  simp [conversions, List.countP_singleton]

end StructureBiNode

namespace Flattening

variable {h : TypeHeap}

/-- A merge adds no child that is in the list already. -/
theorem nodup_append_missing (ms : List NodeRef) (ns : List NodeRef) :
    (ns ++ missing h ns ms).Nodup ↔ ns.Nodup := by
  induction ms generalizing ns with
  | nil => rw [missing, List.append_nil]
  | cons m ms ih =>
    rw [missing]
    cases hfind : h.findNode ns m with
    | some el => exact ih ns
    | none =>
      have hnot : m ∉ ns := fun hmem => by simpa using List.find?_eq_none.mp hfind m hmem
      dsimp only
      rw [List.append_cons, ih, List.nodup_append_comm, List.singleton_append, List.nodup_cons]
      exact and_iff_right hnot

end Flattening

namespace TypeHierarchy

open TypeHeap

variable {H : TypeHierarchy}

/-! ### The lists while types are set up -/

variable (H) in
/-- **The lists after the conversions** in `calls`, and the merges between them. -/
structure Converted (lines : List (List StructureBiNode)) (calls : List StructureBiNode)
    (L : ChildLists) : Prop where
  node : ∀ (b : StructureBiNode) (up : List StructureBiNode), b :: up ∈ H.chains →
    (∀ line ∈ lines, headRef line ≠ b.structureNode) →
    b.ConvertedAt (conversions calls b.structureNode) (L b.structureNode)
  listed : ∀ l, ∀ m ∈ L l, 0 < conversions calls m

variable {lines : List (List StructureBiNode)} {calls : List StructureBiNode} {L : ChildLists}

theorem converted_start : H.Converted lines [] fun _ => [] :=
  ⟨fun b _ _ _ => convertedAt_zero b, fun _ _ hm => absurd hm List.not_mem_nil⟩

/-- A declared child is converted. -/
theorem Converted.fill (hconv : H.Converted lines calls L) {c : StructureBiNode}
    {up : List StructureBiNode} (hmem : c :: up ∈ H.chains) :
    H.Converted lines (calls ++ [c]) (Flattening.fill c L) := by
  refine ⟨fun b up' hb hhead => ?_, fun l m hm => ?_⟩
  · rw [conversions_append, conversions_singleton]
    split_ifs with hbref
    · -- the node is converted with the child
      have hsub := (mem_subtrees_of_mem_refs hmem hb hbref).1
      rw [Flattening.fill, appendedBy_of_mem _ hsub]
      · exact (hconv.node b up' hb hhead).convert (nodup_childRefs (nodup_refs hb))
      · rw [map_structureNode_subtrees]
        exact nodup_refs hmem
    · rw [Flattening.fill_of_not_mem hbref]
      exact hconv.node b up' hb hhead
  · rw [conversions_append, conversions_singleton]
    rcases Flattening.mem_of_mem_fill hm with hm | hm
    · exact Nat.add_pos_left (hconv.listed l m hm) _
    · rw [if_pos hm]
      exact Nat.succ_pos _

/-- The children of a redeclared child are added to the one that was found. -/
theorem Converted.handFound (hconv : H.Converted lines calls L) (l c : NodeRef) :
    H.Converted lines calls (Flattening.handFound H.heap l c L) := by
  refine ⟨fun b up hb hhead => ?_, fun r m hm => ?_⟩
  · have hnode := hconv.node b up hb hhead
    cases hfind : H.heap.findNode (L l) c with
    | none => simpa [Flattening.handFound, hfind] using hnode
    | some found =>
      by_cases heq : b.structureNode = found
      · have hpos := hconv.listed l found (Flattening.findNode_mem hfind)
        rw [← heq] at hpos
        simp only [Flattening.handFound, hfind, Flattening.hand, ← heq, Function.update_self]
        exact hnode.grow hpos (List.subset_append_left _ _)
          (Flattening.nodup_append_missing _ _)
      · simpa [Flattening.handFound, hfind, Flattening.hand, Function.update_of_ne heq] using hnode
  · exact (Flattening.mem_of_mem_handFound hm).elim (hconv.listed r m) (hconv.listed c m)

/-- **One declared child** is converted once. -/
theorem Converted.declare (hconv : H.Converted lines calls L) {line : List StructureBiNode}
    (hline : line ∈ lines) {c : StructureBiNode} {up : List StructureBiNode}
    (hmem : c :: up ∈ H.chains) :
    H.Converted lines (calls ++ [c]) (Flattening.declare H.heap (headRef line) L c) := by
  obtain ⟨hnode, hlisted⟩ := (hconv.fill hmem).handFound (headRef line) c.structureNode
  have hself : 0 < conversions (calls ++ [c]) c.structureNode := by
    rw [conversions_append, conversions_singleton, if_pos (structureNode_mem_refs c)]
    exact Nat.succ_pos _
  refine ⟨fun b up' hb hhead => ?_, fun l m hm => ?_⟩
  · rw [Flattening.declare, Function.update_of_ne (hhead line hline).symm]
    exact hnode b up' hb hhead
  · rw [Flattening.declare] at hm
    by_cases hl : l = headRef line
    · rw [hl, Function.update_self] at hm
      rcases Flattening.mem_of_mem_declareIn hm with hm | rfl
      · exact hlisted _ m hm
      · exact hself
    · rw [Function.update_of_ne hl] at hm
      exact hlisted l m hm

/-- **The list of a node that is not set up**: it repeats a child exactly if the node was browsed
with children and converted more than once. -/
theorem convertedAt_run (hlines : ∀ line ∈ lines, ∀ c ∈ declarations line,
      ∃ up, c :: up ∈ H.chains) {b : StructureBiNode} {up : List StructureBiNode}
    (hb : b :: up ∈ H.chains) (hhead : ∀ line ∈ lines, headRef line ≠ b.structureNode) :
    b.ConvertedAt (conversions (lines.flatMap declarations) b.structureNode)
      (Flattening.run H.heap lines b.structureNode) := by
  have hrun : H.Converted lines ((declared lines).map Prod.snd) (Flattening.run H.heap lines) :=
    Flattening.run_invariant H.heap
      (I := fun done L => H.Converted lines (done.map Prod.snd) L) converted_start
      fun line hline c hc done L hconv => by
        obtain ⟨up, hmem⟩ := hlines line hline c hc
        rw [List.map_append]
        exact hconv.declare hline hmem
  rw [← Flattening.map_snd_declared]
  exact hrun.node b up hb hhead

/-! ### The lists that the type map shows -/

variable (H) (expectedObjectTypeNamespaces namespaces : List String)

/-- **The nodes below the entries**: those that stand in the entry of a type, and the children of
nodes that show their own. -/
inductive Shown : NodeRef → Prop where
  | stands {x : NodeId} {line : List StructureBiNode} {b : QualifiedName} {n : NodeRef} :
    (H.loadedTypes expectedObjectTypeNamespaces namespaces)[x]? = some line →
    H.Stands expectedObjectTypeNamespaces namespaces line b n → Shown n
  | child {n m : NodeRef} : Shown n →
    H.shownType expectedObjectTypeNamespaces namespaces n = none →
    m ∈ H.flattened expectedObjectTypeNamespaces namespaces n → Shown m

/-- No type with an entry that was found below an instance declaration has a list that repeats a
child, and no node below the entries that shows its own children was browsed with children and
converted more than once. -/
structure ShowsEachOnce : Prop where
  entries : ∀ (x : NodeId) (line : List StructureBiNode),
    (H.loadedTypes expectedObjectTypeNamespaces namespaces)[x]? = some line →
    ¬ TypesOnly line →
    (H.flattened expectedObjectTypeNamespaces namespaces (headRef line)).Nodup
  below : ∀ n, H.Shown expectedObjectTypeNamespaces namespaces n →
    H.shownType expectedObjectTypeNamespaces namespaces n = none →
    ∀ (b : StructureBiNode) (up : List StructureBiNode), b :: up ∈ H.chains →
      b.structureNode = n →
      (b.isType = true → b.nodeId ∉ H.loadedTypes expectedObjectTypeNamespaces namespaces) →
      b.specifiedBiChildNodes ≠ [] →
      conversions (H.conversionCalls expectedObjectTypeNamespaces namespaces) n ≤ 1

variable {H expectedObjectTypeNamespaces namespaces} {st : TypeMapState}

theorem exists_chain_of_mem_flattened {l n : NodeRef}
    (hn : n ∈ H.flattened expectedObjectTypeNamespaces namespaces l) :
    ∃ (b : StructureBiNode) (up : List StructureBiNode), b :: up ∈ H.chains ∧
      b.structureNode = n := by
  obtain ⟨line, hline, c, hc, hmem⟩ := Flattening.mem_of_mem_run hn
  obtain ⟨-, a, -, up, hchain⟩ := exists_chain_of_mem_setUpLines hline hc
  rw [← map_structureNode_subtrees] at hmem
  obtain ⟨b, hb, rfl⟩ := List.mem_map.mp hmem
  obtain ⟨up', hchain', -⟩ := exists_chain_of_mem_subtrees c hchain hb
  exact ⟨b, up', hchain', rfl⟩

theorem Loaded.exists_chain_of_shown
    (hst : H.Loaded expectedObjectTypeNamespaces namespaces st) {n : NodeRef}
    (hn : H.Shown expectedObjectTypeNamespaces namespaces n) :
    ∃ (b : StructureBiNode) (up : List StructureBiNode), b :: up ∈ H.chains ∧
      b.structureNode = n := by
  cases hn with
  | stands hx hstands => exact exists_chain_of_mem_flattened ((hst.stands_iff hx _ _).mp hstands).1
  | child _ _ hm => exact exists_chain_of_mem_flattened hm

theorem Loaded.lt_of_shown (hst : H.Loaded expectedObjectTypeNamespaces namespaces st) {n : NodeRef}
    (hn : H.Shown expectedObjectTypeNamespaces namespaces n) : n < H.heap.next := by
  obtain ⟨b, up, hb, rfl⟩ := hst.exists_chain_of_shown hn
  exact lt_next_of_mem_refs hb (structureNode_mem_refs b)

/-- The list of a type with only types above it repeats no declaration: those that stay have
distinct names. -/
theorem Loaded.nodup_of_typesOnly (hst : H.Loaded expectedObjectTypeNamespaces namespaces st)
    {x : NodeId} {line : List StructureBiNode}
    (hx : (H.loadedTypes expectedObjectTypeNamespaces namespaces)[x]? = some line)
    (htypes : TypesOnly line) :
    (H.flattened expectedObjectTypeNamespaces namespaces (headRef line)).Nodup := by
  have hline := (getElem?_loadedTypes_eq_some_iff.mp hx).1
  exact List.Nodup.of_map _ (Flattening.nodup_map_browseName fun b =>
    ⟨_, Flattening.named_run (h := H.heap) (hst.mem_setUpLines hx)
      (fun _ hline' heq => eq_of_headRef_eq hline hline' heq) (htypes.not_mem_refs hline _ _) b⟩)

/-- The list of a node that gets no entry. -/
theorem nodup_flattened_iff {b : StructureBiNode} {up : List StructureBiNode}
    (hb : b :: up ∈ H.chains)
    (hnone : b.isType = true →
      b.nodeId ∉ H.loadedTypes expectedObjectTypeNamespaces namespaces) :
    (H.flattened expectedObjectTypeNamespaces namespaces b.structureNode).Nodup ↔
      b.specifiedBiChildNodes = [] ∨
        conversions (H.conversionCalls expectedObjectTypeNamespaces namespaces)
          b.structureNode ≤ 1 := by
  refine (convertedAt_run (fun line hline c hc => ?_) hb fun line hline heq => ?_).nodup
  · obtain ⟨-, a, -, up', hchain⟩ := exists_chain_of_mem_setUpLines hline hc
    exact ⟨_, hchain⟩
  · -- the node is not that of a type that is set up
    obtain ⟨x, hx, hloaded⟩ := mem_types_of_mem_setUpLines _ _ hline
    obtain ⟨type, up', rfl, hchain, htype⟩ := mem_chains_of_types hx
    obtain ⟨type', up'', hcons, hid⟩ := getElem?_bidirectionalTypeMap hx
    obtain ⟨rfl, -⟩ := List.cons.inj hcons
    obtain ⟨rfl, -⟩ := List.cons.inj (chain_injective hchain hb heq)
    refine hnone htype ?_
    rw [hid]
    exact NodeMap.mem_of_getElem? (getElem?_loadedTypes_eq_some_iff.mpr ⟨hx, hloaded⟩)

/-- A type that was found has its bloodline in the type map. -/
theorem getElem?_loadedTypes_of_mem {b : StructureBiNode} {up : List StructureBiNode}
    (hb : b :: up ∈ H.chains) (htype : b.isType = true)
    (hmem : b.nodeId ∈ H.loadedTypes expectedObjectTypeNamespaces namespaces) :
    (H.loadedTypes expectedObjectTypeNamespaces namespaces)[b.nodeId]? = some (b :: up) := by
  obtain ⟨line, hline⟩ := Option.isSome_iff_exists.mp
    (Std.ExtTreeMap.isSome_getElem?_iff_mem.mpr hmem)
  have hx := getElem?_types ((mem_typesBelowAll [] _ _ _).mpr ⟨hb, b, up, rfl, htype, rfl⟩)
  rwa [← Option.some.inj (hx.symm.trans (getElem?_loadedTypes_eq_some_iff.mp hline).1)] at hline

end TypeHierarchy

namespace OpcUaTypeReader

open TypeHierarchy

/-- The nodes of the type map: the entries, and the children of its nodes. -/
inductive Listed (reader : OpcUaTypeReader) : NodeRef → Prop where
  | entry {x : NodeId} {e : NodeRef} : reader.typeMap[x]? = some e → Listed reader e
  | child {n m : NodeRef} : Listed reader n → m ∈ reader.heap.children n → Listed reader m

section

variable (H : TypeHierarchy) (expectedObjectTypeNamespaces : List String)
  (namespaceInformations : List NamespaceInformation) (namespaces : List String)

/-- The nodes of the type map are the entries and the nodes below them. -/
theorem listed_readTypes_iff {n : NodeRef} :
    ((create expectedObjectTypeNamespaces namespaceInformations).readTypes H namespaces).Listed n ↔
      (∃ x : NodeId, ((create expectedObjectTypeNamespaces namespaceInformations).readTypes H
        namespaces).typeMap[x]? = some n) ∨
      H.Shown expectedObjectTypeNamespaces namespaces n := by
  have hst := loaded_setUpTypes H expectedObjectTypeNamespaces namespaceInformations namespaces
  constructor
  · intro hn
    induction hn with
    | entry hx => exact Or.inl ⟨_, hx⟩
    | @child n m _ hm ih =>
      refine Or.inr ?_
      -- an entry lists the children of its type, and a node those that it shows
      rcases ih with ⟨x, hx⟩ | hshown
      · obtain ⟨line, hloaded⟩ := exists_loadedType_of_entry H _ _ _ hx
        rw [children_entry_readTypes H _ _ _ hx
          (getElem?_loadedTypes_eq_some_iff.mp hloaded).1] at hm
        exact .stands hloaded ((hst.stands_iff hloaded _ m).mpr ⟨hm, rfl⟩)
      · rw [children_readTypes H _ _ _ (hst.lt_of_shown hshown), pointer_lookedAt] at hm
        cases htype : H.shownType expectedObjectTypeNamespaces namespaces n with
        | none =>
          rw [htype] at hm
          exact .child hshown htype hm
        | some line =>
          rw [htype] at hm
          have hloaded := loadedType_of_shownType htype
          exact .stands hloaded ((hst.stands_iff hloaded _ m).mpr ⟨hm, rfl⟩)
  · rintro (⟨x, hx⟩ | hshown)
    · exact .entry hx
    · induction hshown with
      | stands hloaded hstands =>
        have hline := (getElem?_loadedTypes_eq_some_iff.mp hloaded).1
        obtain ⟨e, he⟩ := (exists_entry_readTypes_iff H _ namespaceInformations _ hline).mpr hloaded
        refine (Listed.entry he).child ?_
        rw [children_entry_readTypes H _ _ _ he hline]
        exact ((hst.stands_iff hloaded _ _).mp hstands).1
      | child hshown hnone hm ih =>
        refine ih.child ?_
        rw [children_readTypes H _ _ _ (hst.lt_of_shown hshown), pointer_lookedAt, hnone]
        exact hm

/-- **No list of the type map repeats a child** exactly if none is repeated below an instance
declaration, and no node below the entries that shows its own children was browsed with children and
converted more than once. -/
theorem nodup_readTypes_iff :
    (∀ n, ((create expectedObjectTypeNamespaces namespaceInformations).readTypes H
        namespaces).Listed n →
      (((create expectedObjectTypeNamespaces namespaceInformations).readTypes H
        namespaces).heap.children n).Nodup) ↔
      H.ShowsEachOnce expectedObjectTypeNamespaces namespaces := by
  have hst := loaded_setUpTypes H expectedObjectTypeNamespaces namespaceInformations namespaces
  -- the list of a node that shows its own children
  have hown : ∀ n, H.Shown expectedObjectTypeNamespaces namespaces n →
      H.shownType expectedObjectTypeNamespaces namespaces n = none →
      ((create expectedObjectTypeNamespaces namespaceInformations).readTypes H
        namespaces).heap.children n = H.flattened expectedObjectTypeNamespaces namespaces n := by
    intro n hshown hnone
    rw [children_readTypes H _ _ _ (hst.lt_of_shown hshown), pointer_lookedAt, hnone]
    rfl
  constructor
  · intro hnodup
    constructor
    · intro x line hloaded _
      have hline := (getElem?_loadedTypes_eq_some_iff.mp hloaded).1
      obtain ⟨e, he⟩ := (exists_entry_readTypes_iff H _ namespaceInformations _ hline).mpr hloaded
      rw [← children_entry_readTypes H _ _ _ he hline]
      exact hnodup e (.entry he)
    · rintro n hshown hnone b up hb rfl hentry hne
      have hlist :=
        hnodup _ ((listed_readTypes_iff H _ namespaceInformations _).mpr (Or.inr hshown))
      rw [hown _ hshown hnone] at hlist
      exact ((nodup_flattened_iff hb hentry).mp hlist).resolve_left hne
  · rintro ⟨hentries, hbelow⟩ n hn
    have hentry : ∀ {x : NodeId} {line : List StructureBiNode},
        (H.loadedTypes expectedObjectTypeNamespaces namespaces)[x]? = some line →
        (H.flattened expectedObjectTypeNamespaces namespaces (headRef line)).Nodup := by
      intro x line hloaded
      by_cases htypes : TypesOnly line
      · exact hst.nodup_of_typesOnly hloaded htypes
      · exact hentries x line hloaded htypes
    rcases (listed_readTypes_iff H _ _ _).mp hn with ⟨x, hx⟩ | hshown
    · obtain ⟨line, hloaded⟩ := exists_loadedType_of_entry H _ _ _ hx
      rw [children_entry_readTypes H _ _ _ hx (getElem?_loadedTypes_eq_some_iff.mp hloaded).1]
      exact hentry hloaded
    · cases htype : H.shownType expectedObjectTypeNamespaces namespaces n with
      | some line =>
        rw [children_readTypes H _ _ _ (hst.lt_of_shown hshown), pointer_lookedAt, htype]
        exact hentry (loadedType_of_shownType htype)
      | none =>
        rw [hown n hshown htype]
        obtain ⟨b, up, hb, rfl⟩ := hst.exists_chain_of_shown hshown
        by_cases hloaded : b.isType = true ∧
            b.nodeId ∈ H.loadedTypes expectedObjectTypeNamespaces namespaces
        · exact hentry (getElem?_loadedTypes_of_mem hb hloaded.1 hloaded.2)
        · have hnot := not_and.mp hloaded
          rw [nodup_flattened_iff hb hnot, or_iff_not_imp_left]
          exact hbelow _ hshown htype b up hb rfl hnot

end

/-- A type with a child that has a child, and a subtype. -/
def inheritedChildHierarchy : TypeHierarchy where
  variableTypes := []
  objectTypes :=
    [.node (reference .objectType "A" "A" WellKnown.missingType) .none
      [.node (reference .object "A.b" "b" WellKnown.missingType) .mandatory
          [.node (reference .variable "A.b.g" "g" WellKnown.missingType) .mandatory []],
        .node (reference .objectType "S" "S" WellKnown.missingType) .none []]]

/-- What browsing the child makes of it. -/
def browsedChild : StructureBiNode × TypeBrowse :=
  TypeBrowse.browseTree false
    (.node (reference .object "A.b" "b" WellKnown.missingType) .mandatory
      [.node (reference .variable "A.b.g" "g" WellKnown.missingType) .mandatory []]) (.start ∅)

private theorem fresh_browsedChild : browsedChild.1.Fresh browsedChild.2.heap :=
  fresh_browseTree _ _ ⟨fun _ => rfl, fun n hn => absurd hn (Nat.not_lt_zero n)⟩

end OpcUaTypeReader

end UmatiDashboard
