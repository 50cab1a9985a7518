import UmatiDashboard.TypeReader.FlattenedLists

/-!
# The entries of the type map

After the passes of `readTypes` the entry of a type lists one child for each browse name that the
type or a supertype declares: the declaration that stays. It is required exactly if one of the
declarations of its name is.
-/

namespace UmatiDashboard

open StructureBiNode

namespace OpcUaTypeReader

/-- The type map of a new type reader after the passes of `readTypes`, before `updateTypeMap`. -/
def setUpTypes (expectedObjectTypeNamespaces : List String)
    (namespaceInformations : List NamespaceInformation) (H : TypeHierarchy)
    (namespaces : List String) : TypeMapState :=
  (create expectedObjectTypeNamespaces namespaceInformations).setupTypes H namespaces

/-- The types that get an entry. -/
theorem mem_typeMap_setUpTypes (expectedObjectTypeNamespaces : List String)
    (namespaceInformations : List NamespaceInformation) (namespaces : List String)
    (H : TypeHierarchy) (x : NodeId) :
    x ∈ (setUpTypes expectedObjectTypeNamespaces namespaceInformations H namespaces).typeMap ↔
      x ∈ H.typesFound ∧ x.uri ∈ namespaces ∧ x.uri ∈ expectedObjectTypeNamespaces := by
  rw [← mem_typeMap_readTypes expectedObjectTypeNamespaces namespaceInformations H namespaces]
  simp [readTypes, updateObjectTypeNames, TypeMapState.typeMap_updateTypeMap, setUpTypes]

/-- **The passes of `readTypes`** flatten the bloodlines of the types of the configured
namespaces. -/
theorem setUp_setUpTypes (H : TypeHierarchy) (expectedObjectTypeNamespaces : List String)
    (namespaceInformations : List NamespaceInformation) (namespaces : List String) :
    TypeHierarchy.SetUp H
      (setUpTypes expectedObjectTypeNamespaces namespaceInformations H namespaces)
      (TypeHierarchy.setUpLines H.types namespaces expectedObjectTypeNamespaces) :=
  TypeHierarchy.setUp_setupNamespaces namespaces expectedObjectTypeNamespaces
    (TypeHierarchy.setUp_start H)

end OpcUaTypeReader

namespace TypeHierarchy

variable (H : TypeHierarchy) (expectedObjectTypeNamespaces namespaces : List String)

/-- The child lists when the types of the configured namespaces are set up. -/
def flattened : ChildLists :=
  Flattening.run H.heap (setUpLines H.types namespaces expectedObjectTypeNamespaces)

/-- The calls of `toStructureNode` that `readTypes` makes: for every type that is set up, one on
each child that the type or a supertype declares. -/
def conversionCalls : List StructureBiNode :=
  (setUpLines H.types namespaces expectedObjectTypeNamespaces).flatMap declarations

variable {H}

/-- The bidirectional type map has the bloodline of each type. -/
theorem getElem?_types {x : NodeId} {line : List StructureBiNode}
    (h : (x, line) ∈ typesBelowAll [] (H.browse ∅).1) : H.types[x]? = some line := by
  have hnodup := H.nodup_typesBelow ∅
  have hmem : x ∈ H.types := by
    rw [types, bidirectionalTypeMap, mem_foldl_insertIfNew]
    exact Or.inr (List.mem_map_of_mem (f := Prod.fst) h)
  obtain ⟨line', hline'⟩ := Option.isSome_iff_exists.mp
    (Std.ExtTreeMap.isSome_getElem?_iff_mem.mpr hmem)
  rcases getElem?_foldl_insertIfNew _ _ hline' with hempty | hmem'
  · simp at hempty
  · obtain ⟨-, rfl⟩ := Prod.mk.inj (List.inj_on_of_nodup_map hnodup hmem' h rfl)
    exact hline'

/-- The types that are set up are of namespaces that are configured and that the server has. -/
theorem mem_types_of_mem_setUpLines {line : List StructureBiNode} :
    ∀ (namespaces notFound : List String), line ∈ setUpLines H.types namespaces notFound →
      ∃ x : NodeId, H.types[x]? = some line ∧ x.uri ∈ namespaces ∧ x.uri ∈ notFound
  | [], _, h => by simp [setUpLines] at h
  | uri :: rest, notFound, h => by
    rw [setUpLines] at h
    split_ifs at h with huri
    · rcases List.mem_append.mp h with h | h
      · obtain ⟨hline, hnamespace⟩ := List.mem_filter.mp h
        obtain ⟨⟨x, line'⟩, hentry, rfl⟩ := List.mem_map.mp hline
        have hx := Std.ExtTreeMap.mem_toList_iff_getElem?_eq_some.mp hentry
        obtain ⟨type, up, rfl, rfl⟩ := getElem?_bidirectionalTypeMap hx
        have heq : type.nodeId.uri = uri := by
          simpa [inNamespace, namespaceUri] using hnamespace
        exact ⟨_, hx, heq ▸ List.mem_cons_self, heq ▸ huri⟩
      · obtain ⟨x, hx, hmem, hconfigured⟩ :=
          mem_types_of_mem_setUpLines rest (notFound.erase uri) h
        exact ⟨x, hx, List.mem_cons_of_mem _ hmem, List.mem_of_mem_erase hconfigured⟩
    · obtain ⟨x, hx, hmem, hconfigured⟩ := mem_types_of_mem_setUpLines rest notFound h
      exact ⟨x, hx, List.mem_cons_of_mem _ hmem, hconfigured⟩

/-- Two types that are set up have lists of their own. -/
theorem eq_of_headRef_eq {namespaces notFound : List String} {x : NodeId}
    {line line' : List StructureBiNode} (hx : H.types[x]? = some line)
    (hline' : line' ∈ setUpLines H.types namespaces notFound) (heq : headRef line' = headRef line) :
    line' = line := by
  obtain ⟨x', hx', -⟩ := mem_types_of_mem_setUpLines namespaces notFound hline'
  obtain ⟨type, up, rfl, hchain, -⟩ := mem_chains_of_types hx
  obtain ⟨type', up', rfl, hchain', -⟩ := mem_chains_of_types hx'
  exact chain_injective hchain' hchain heq

/-- A declared child begins a chain. -/
theorem exists_chain_of_mem_declarations {line : List StructureBiNode} (hline : line ∈ H.chains)
    {c : StructureBiNode} (hc : c ∈ declarations line) :
    c.isType = false ∧ ∃ a ∈ line, ∃ up, c :: a :: up ∈ H.chains := by
  obtain ⟨a, ha, hc, htype⟩ := mem_declarations.mp hc
  obtain ⟨up, hchain⟩ := exists_chain_of_mem hline ha
  exact ⟨htype, a, ha, up, child_mem hchain hc⟩

theorem exists_chain_of_mem_setUpLines {namespaces notFound : List String}
    {line : List StructureBiNode} (hline : line ∈ setUpLines H.types namespaces notFound)
    {c : StructureBiNode} (hc : c ∈ declarations line) :
    c.isType = false ∧ ∃ a ∈ line, ∃ up, c :: a :: up ∈ H.chains := by
  obtain ⟨x, hx, -⟩ := mem_types_of_mem_setUpLines namespaces notFound hline
  obtain ⟨type, up, rfl, hchain, -⟩ := mem_chains_of_types hx
  exact exists_chain_of_mem_declarations hchain hc

/-! ### Types with types only above them -/

/-- Everything in the bloodline is a type. -/
def TypesOnly (line : List StructureBiNode) : Prop := ∀ a ∈ line, a.isType = true

instance (line : List StructureBiNode) : Decidable (TypesOnly line) :=
  inferInstanceAs (Decidable (∀ a ∈ line, a.isType = true))

theorem TypesAboveTypes.typesOnly (hH : H.TypesAboveTypes) {x : NodeId}
    {line : List StructureBiNode} (hx : H.types[x]? = some line) : TypesOnly line := by
  rcases getElem?_foldl_insertIfNew _ _ hx with hempty | hmem
  · simp at hempty
  · exact hH (x, line) hmem

mutual

/-- A node of a browsed tree has the root of the tree in its chain. -/
theorem exists_chain_of_mem_subtrees {x : StructureBiNode} : ∀ (b : StructureBiNode)
    {up : List StructureBiNode}, b :: up ∈ H.chains → x ∈ b.subtrees →
      ∃ up', x :: up' ∈ H.chains ∧ b :: up <:+ x :: up'
  | .mk n i t o children, up, hb, hx => by
    rw [subtrees] at hx
    rcases List.mem_cons.mp hx with rfl | hx
    · exact ⟨up, hb, List.suffix_rfl⟩
    · exact exists_chain_of_mem_subtreesAll children (fun c hc => child_mem hb hc) hx

theorem exists_chain_of_mem_subtreesAll {x b : StructureBiNode} {up : List StructureBiNode} :
    ∀ (bs : List StructureBiNode), (∀ c ∈ bs, c :: b :: up ∈ H.chains) → x ∈ subtreesAll bs →
      ∃ up', x :: up' ∈ H.chains ∧ b :: up <:+ x :: up'
  | [], _, hx => absurd hx List.not_mem_nil
  | c :: bs, hbs, hx => by
    rw [subtreesAll] at hx
    rcases List.mem_append.mp hx with hx | hx
    · obtain ⟨up', hmem, hsuffix⟩ :=
        exists_chain_of_mem_subtrees c (hbs c List.mem_cons_self) hx
      exact ⟨up', hmem, (List.suffix_cons c _).trans hsuffix⟩
    · exact exists_chain_of_mem_subtreesAll bs (fun c hc => hbs c (List.mem_cons_of_mem _ hc)) hx

end

/-- A structure node in a browsed tree is that of a node there. -/
theorem mem_subtrees_of_mem_refs {b x : StructureBiNode} {up up' : List StructureBiNode}
    (hb : b :: up ∈ H.chains) (hx : x :: up' ∈ H.chains) (hmem : x.structureNode ∈ b.refs) :
    x ∈ b.subtrees ∧ b :: up <:+ x :: up' := by
  rw [← map_structureNode_subtrees] at hmem
  obtain ⟨y, hy, heq⟩ := List.mem_map.mp hmem
  obtain ⟨up'', hy', hsuffix⟩ := exists_chain_of_mem_subtrees b hb hy
  obtain ⟨rfl, rfl⟩ := List.cons.inj (chain_injective hy' hx heq)
  exact ⟨hy, hsuffix⟩

/-- A type with types only above it is in no declared child's tree. -/
theorem TypesOnly.not_mem_refs {line : List StructureBiNode} (htypes : TypesOnly line)
    {x : NodeId} (hx : H.types[x]? = some line) (namespaces notFound : List String) :
    ∀ line' ∈ setUpLines H.types namespaces notFound, ∀ c ∈ declarations line',
      headRef line ∉ c.refs := by
  intro line' hline' c hc hmem
  obtain ⟨type, up, rfl, hchain, -⟩ := mem_chains_of_types hx
  obtain ⟨hctype, a, -, up', hcchain⟩ := exists_chain_of_mem_setUpLines hline' hc
  have hsuffix := (mem_subtrees_of_mem_refs hcchain hchain hmem).2
  rw [htypes c (hsuffix.subset List.mem_cons_self)] at hctype
  cases hctype

/-! ### The children of an entry -/

/-- The list of an entry is that of its type. -/
theorem SetUp.children {st : TypeMapState} {lines : List (List StructureBiNode)}
    (hst : SetUp H st lines) {x : NodeId} {e : NodeRef} (hx : st.typeMap[x]? = some e)
    {line : List StructureBiNode} (hline : H.types[x]? = some line) :
    line ∈ lines ∧ (st.heap.nodes e).specifiedChildNodes = headRef line ∧
      st.heap.children e = Flattening.run H.heap lines (headRef line) := by
  obtain ⟨-, -, line', hmem, hx', hlist, -⟩ := hst.entries x e hx
  obtain rfl : line' = line := Option.some.inj (hx'.symm.trans hline)
  exact ⟨hmem, hlist, by rw [TypeHeap.children, hlist, hst.heap.lists]⟩

end TypeHierarchy

/-- The rules of children that an instance has to have. -/
def ModellingRule.isRequired (r : ModellingRule) : Bool :=
  r == .mandatory || r == .mandatoryPlaceholder

namespace Flattening

variable {h : TypeHeap}

/-- Among declarations with one of the four rules, a required one is not replaced. -/
theorem isRequired_iff {r : ModellingRule} (hr : r ≠ .none) :
    r.isRequired = true ↔ TypeHeap.isReplaceable r = false := by
  cases r <;> simp_all [ModellingRule.isRequired, TypeHeap.isReplaceable]

/-- **The declaration that stays is required** exactly if one of the declarations is. -/
theorem isRequired_staying {ds : List NodeRef} {n : NodeRef} (hstay : staying h ds = some n)
    (hrules : ∀ d ∈ ds, h.rule d ≠ .none) :
    (h.rule n).isRequired = true ↔ ∃ d ∈ ds, (h.rule d).isRequired = true := by
  refine ⟨fun hn => ⟨n, mem_of_staying h hstay, hn⟩, ?_⟩
  rintro ⟨d, hd, hrequired⟩
  rw [staying, Option.or_eq_some_iff] at hstay
  rcases hstay with hfind | ⟨hnone, -⟩
  · have hn := List.find?_some hfind
    rw [Bool.not_eq_true'] at hn
    exact (isRequired_iff (hrules n (List.mem_of_find?_eq_some hfind))).mpr hn
  · have hreplaced := List.find?_eq_none.mp hnone d hd
    rw [(isRequired_iff (hrules d hd)).mp hrequired] at hreplaced
    exact absurd rfl hreplaced

/-- The names in a list are distinct if each of them names one node. -/
theorem nodup_map_browseName {ns : List NodeRef}
    (hone : ∀ b, ∃ current : Option NodeRef, named h b ns = current.toList) :
    (ns.map h.browseName).Nodup := by
  rw [List.nodup_iff_count_le_one]
  intro b
  obtain ⟨current, hcurrent⟩ := hone b
  have hcount : List.count b (ns.map h.browseName) = (named h b ns).length := by
    rw [List.count, List.countP_map, List.countP_eq_length_filter]
    rfl
  rw [hcount, hcurrent]
  cases current <;> simp

end Flattening

namespace OpcUaTypeReader

open TypeHierarchy

/-- **The entry of a type** after the passes of `readTypes`: its children have distinct browse
names, which are those declared by the type and its supertypes, and if every declaration has one of
the four rules, a child is required exactly if one of the declarations of its name is. -/
theorem setUpTypes_flattens {H : TypeHierarchy} (hH : H.TypesAboveTypes)
    (expectedObjectTypeNamespaces : List String)
    (namespaceInformations : List NamespaceInformation) (namespaces : List String) {x : NodeId}
    {e : NodeRef} {line : List StructureBiNode}
    (hx : (setUpTypes expectedObjectTypeNamespaces namespaceInformations H
      namespaces).typeMap[x]? = some e) (hline : H.types[x]? = some line) :
    let h := (setUpTypes expectedObjectTypeNamespaces namespaceInformations H namespaces).heap
    ((h.children e).map h.browseName).Nodup ∧
      (∀ b, b ∈ (h.children e).map h.browseName ↔
        ∃ c ∈ declarations line, H.heap.browseName c.structureNode = b) ∧
      ((∀ c ∈ declarations line, H.heap.rule c.structureNode ≠ .none) →
        ∀ n ∈ h.children e, ((h.rule n).isRequired = true ↔
          ∃ c ∈ declarations line, H.heap.browseName c.structureNode = h.browseName n ∧
            (H.heap.rule c.structureNode).isRequired = true)) := by
  intro h
  have hst := setUp_setUpTypes H expectedObjectTypeNamespaces namespaceInformations namespaces
  obtain ⟨hmem, -, hchildren⟩ := hst.children hx hline
  have hsame : ∀ line' ∈ setUpLines H.types namespaces expectedObjectTypeNamespaces,
      headRef line' = headRef line → line' = line := fun _ h => eq_of_headRef_eq hline h
  have hunlisted :=
    (hH.typesOnly hline).not_mem_refs hline namespaces expectedObjectTypeNamespaces
  rw [hchildren]
  have hlt := hst.heap.lt (headRef line)
  have hnames := List.map_congr_left fun c hc => hst.heap.browseName (hlt c hc)
  have hnamed := Flattening.named_run (h := H.heap) hmem hsame hunlisted
  refine ⟨?_, fun b => ?_, fun hrules n hn => ?_⟩
  · rw [hnames]
    exact Flattening.nodup_map_browseName fun b => ⟨_, hnamed b⟩
  · rw [hnames]
    have hexists := Flattening.exists_mem_run (h := H.heap) hmem hsame hunlisted b
    simp only [declaredRefs, List.mem_map, exists_exists_and_eq_and] at hexists ⊢
    exact hexists
  · rw [hst.heap.rule (hlt n hn), hst.heap.browseName (hlt n hn)]
    -- the node is the declaration of its name that stays
    have hstay : Flattening.staying H.heap
        (Flattening.named H.heap (H.heap.browseName n) (declaredRefs line)) = some n := by
      rw [← Option.mem_toList, ← hnamed]
      exact (Flattening.mem_named H.heap).mpr ⟨hn, rfl⟩
    have hrefs : ∀ d, d ∈ Flattening.named H.heap (H.heap.browseName n) (declaredRefs line) ↔
        ∃ c ∈ declarations line, c.structureNode = d ∧
          H.heap.browseName c.structureNode = H.heap.browseName n := by
      intro d
      rw [Flattening.mem_named, declaredRefs, List.mem_map]
      constructor
      · rintro ⟨⟨c, hc, rfl⟩, hname⟩
        exact ⟨c, hc, rfl, hname⟩
      · rintro ⟨c, hc, rfl, hname⟩
        exact ⟨⟨c, hc, rfl⟩, hname⟩
    rw [Flattening.isRequired_staying hstay fun d hd => ?_]
    · constructor
      · rintro ⟨d, hd, hrequired⟩
        obtain ⟨c, hc, rfl, hname⟩ := (hrefs d).mp hd
        exact ⟨c, hc, hname, hrequired⟩
      · rintro ⟨c, hc, hname, hrequired⟩
        exact ⟨_, (hrefs _).mpr ⟨c, hc, rfl, hname⟩, hrequired⟩
    · obtain ⟨c, hc, rfl, -⟩ := (hrefs d).mp hd
      exact hrules c hc

/-- A reference to a node of the namespace `urn:m` whose browse name is that of the node. -/
def reference (nodeClass : NodeClass) (id name : String) (typeDefinition : NodeId) : BrowseResult :=
  ⟨nodeClass, ⟨"urn:m", id⟩, typeDefinition, WellKnown.hasComponent, ⟨"urn:m", name⟩⟩

/-- A type with an optional child, and a subtype that makes it mandatory. -/
def redeclaringHierarchy : TypeHierarchy where
  variableTypes := []
  objectTypes :=
    [.node (reference .objectType "A" "A" WellKnown.missingType) .none
      [.node (reference .object "A.b" "b" WellKnown.missingType) .optional [],
        .node (reference .objectType "T" "T" WellKnown.missingType) .none
          [.node (reference .object "T.b" "b" WellKnown.missingType) .mandatory []]]]

/-- The entry of the subtype. -/
theorem setUpTypes_flattens_redeclaring :
    ∃ (e : NodeRef) (line : List StructureBiNode),
      (setUpTypes ["urn:m"] [] redeclaringHierarchy ["urn:m"]).typeMap[(⟨"urn:m", "T"⟩ : NodeId)]? =
        some e ∧
      redeclaringHierarchy.types[(⟨"urn:m", "T"⟩ : NodeId)]? = some line ∧
      let h := (setUpTypes ["urn:m"] [] redeclaringHierarchy ["urn:m"]).heap
      ((h.children e).map h.browseName).Nodup ∧
        (∀ b, b ∈ (h.children e).map h.browseName ↔ ∃ c ∈ declarations line,
          redeclaringHierarchy.heap.browseName c.structureNode = b) ∧
        ((∀ c ∈ declarations line, redeclaringHierarchy.heap.rule c.structureNode ≠ .none) →
          ∀ n ∈ h.children e, ((h.rule n).isRequired = true ↔ ∃ c ∈ declarations line,
            redeclaringHierarchy.heap.browseName c.structureNode = h.browseName n ∧
              (redeclaringHierarchy.heap.rule c.structureNode).isRequired = true)) := by
  obtain ⟨e, he⟩ := Option.isSome_iff_exists.mp (show
    ((setUpTypes ["urn:m"] [] redeclaringHierarchy ["urn:m"]).typeMap[
      (⟨"urn:m", "T"⟩ : NodeId)]?).isSome = true by decide +kernel)
  obtain ⟨line, hline⟩ := Option.isSome_iff_exists.mp (show
    (redeclaringHierarchy.types[(⟨"urn:m", "T"⟩ : NodeId)]?).isSome = true by decide +kernel)
  exact ⟨e, line, he, hline, setUpTypes_flattens (by unfold TypesAboveTypes; decide +kernel) _ _ _
    he hline⟩

end OpcUaTypeReader

end UmatiDashboard
