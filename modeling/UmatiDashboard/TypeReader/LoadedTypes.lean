import UmatiDashboard.TypeReader.SetupTypeMap

/-!
# Which types get an entry in the type map

`readTypes` files every type node it finds (`getElem?_bidirectionalTypeMap`,
`mem_bidirectionalTypeMap`) and then sets up those whose URI is, **as a string**, both in the
namespace table of the server and in the configuration (`mem_typeMap_readTypes`).

`NodeId_t::operator==` reads an empty URI as the OPC UA namespace. The types of that namespace
arrive with the empty URI, the namespace table and the configuration name it in full, and so the
two spellings do not meet: `readTypes_loads_iff` says exactly for which types this matters.
-/

namespace UmatiDashboard

/-! ### The type nodes that are found -/

mutual

/-- The type nodes in what browsing from a reference yields. -/
def BrowseTree.typesFound : BrowseTree → List NodeId
  | .node entry _ references =>
    (if TypeBrowse.isTypeClass entry.nodeClass then [entry.nodeId] else []) ++
      BrowseTree.typesFoundAll references

def BrowseTree.typesFoundAll : List BrowseTree → List NodeId
  | [] => []
  | t :: ts => t.typesFound ++ BrowseTree.typesFoundAll ts

end

/-- The type nodes found while browsing from the two starting points, these included. -/
def TypeHierarchy.typesFound (H : TypeHierarchy) : List NodeId :=
  (TypeBrowse.startTree WellKnown.baseVariableType H.variableTypes).typesFound ++
    (TypeBrowse.startTree WellKnown.baseObjectType H.objectTypes).typesFound

namespace StructureBiNode

mutual

/-- The nodes of a browsed tree that were entered into the bidirectional type map. -/
def typeIds : StructureBiNode → List NodeId
  | mk _ i isType _ children => (if isType then [i] else []) ++ typeIdsAll children

def typeIdsAll : List StructureBiNode → List NodeId
  | [] => []
  | b :: bs => b.typeIds ++ typeIdsAll bs

end

mutual

/-- The types of a browsed tree with a bloodline are those that were entered. -/
theorem map_fst_typesBelow (bloodline : List StructureBiNode) :
    ∀ b : StructureBiNode, (typesBelow bloodline b).map Prod.fst = b.typeIds
  | mk n i isType o children => by
    cases isType
    · simpa [typesBelow, typeIds] using map_fst_typesBelowAll _ children
    · simpa [typesBelow, typeIds] using map_fst_typesBelowAll _ children

theorem map_fst_typesBelowAll (bloodline : List StructureBiNode) :
    ∀ bs : List StructureBiNode, (typesBelowAll bloodline bs).map Prod.fst = typeIdsAll bs
  | [] => rfl
  | b :: bs => by
    simp [typesBelowAll, typeIdsAll, map_fst_typesBelow bloodline b,
      map_fst_typesBelowAll bloodline bs]

end

mutual

/-- A bloodline begins with the type itself. -/
theorem head_typesBelow (bloodline : List StructureBiNode) :
    ∀ (b : StructureBiNode), ∀ p ∈ typesBelow bloodline b,
      ∃ (type : StructureBiNode) (ancestors : List StructureBiNode),
        p.2 = type :: ancestors ∧ type.nodeId = p.1
  | mk n i isType o children, p, hp => by
    cases isType
    · exact head_typesBelowAll _ children p (by simpa [typesBelow] using hp)
    · simp only [typesBelow, if_true, List.mem_cons] at hp
      rcases hp with rfl | hp
      · exact ⟨_, _, rfl, rfl⟩
      · exact head_typesBelowAll _ children p hp

theorem head_typesBelowAll (bloodline : List StructureBiNode) :
    ∀ (bs : List StructureBiNode), ∀ p ∈ typesBelowAll bloodline bs,
      ∃ (type : StructureBiNode) (ancestors : List StructureBiNode),
        p.2 = type :: ancestors ∧ type.nodeId = p.1
  | [], p, hp => absurd hp List.not_mem_nil
  | b :: bs, p, hp => by
    simp only [typesBelowAll, List.mem_append] at hp
    rcases hp with hp | hp
    · exact head_typesBelow bloodline b p hp
    · exact head_typesBelowAll bloodline bs p hp

end

end StructureBiNode

/-! ### The bidirectional type map -/

namespace TypeBrowse

/-- A Browse answer adds its node to the types filed exactly if it is a type. The node is entered
if it was not filed before. -/
theorem mem_types_handleBrowseTypeResult (st : TypeBrowse) (entry : BrowseResult)
    (rule : ModellingRule) (flag : Bool) (x : NodeId) :
    (x ∈ (st.handleBrowseTypeResult entry rule flag).2.types ↔
        x ∈ st.types ∨ isTypeClass entry.nodeClass = true ∧ x = entry.nodeId) ∧
      (x ∈ (st.handleBrowseTypeResult entry rule flag).2.types ↔
        x ∈ st.types ∨
          (st.handleBrowseTypeResult entry rule flag).1.2 = true ∧ x = entry.nodeId) := by
  have hinsert : x ∈ st.types.insert entry.nodeId ↔ x ∈ st.types ∨ x = entry.nodeId := by
    rw [Std.ExtTreeSet.mem_insert, Std.LawfulEqCmp.compare_eq_iff_eq]
    exact or_comm.trans (or_congr_right eq_comm)
  simp only [handleBrowseTypeResult]
  split_ifs with h
  · rw [Bool.and_eq_true] at h
    simp [hinsert, h.1]
  · -- a type that is not entered was filed before
    have hfiled : isTypeClass entry.nodeClass = true → entry.nodeId ∈ st.types := by
      intro hclass
      by_contra hnew
      have hcontains : st.types.contains entry.nodeId = false :=
        Bool.eq_false_iff.mpr fun hc => hnew (Std.ExtTreeSet.contains_iff_mem.mp hc)
      exact h (by simp [hclass, hcontains])
    constructor
    · constructor
      · exact Or.inl
      · rintro (hx | ⟨hclass, rfl⟩)
        · exact hx
        · exact hfiled hclass
    · simp

mutual

/-- **Every type found is filed.** Browsing from a reference adds the types found to those filed
already, and the new ones are the ones entered into the tree. -/
theorem mem_types_browseTree (flag : Bool) (x : NodeId) :
    ∀ (t : BrowseTree) (st : TypeBrowse),
      (x ∈ (browseTree flag t st).2.types ↔ x ∈ st.types ∨ x ∈ t.typesFound) ∧
        (x ∈ (browseTree flag t st).2.types ↔
          x ∈ st.types ∨ x ∈ (browseTree flag t st).1.typeIds)
  | .node entry rule references, st => by
    have hbelow := mem_types_browseTypes flag x references
      (st.handleBrowseTypeResult entry rule flag).2
    have hentry := mem_types_handleBrowseTypeResult st entry rule flag x
    simp only [browseTree, BrowseTree.typesFound, StructureBiNode.typeIds, List.mem_append,
      List.mem_ite_nil_right, List.mem_singleton]
    constructor
    · rw [hbelow.1, hentry.1, or_assoc]
    · rw [hbelow.2, hentry.2, or_assoc]

theorem mem_types_browseTypes (flag : Bool) (x : NodeId) :
    ∀ (ts : List BrowseTree) (st : TypeBrowse),
      (x ∈ (browseTypes flag ts st).2.types ↔ x ∈ st.types ∨ x ∈ BrowseTree.typesFoundAll ts) ∧
        (x ∈ (browseTypes flag ts st).2.types ↔
          x ∈ st.types ∨ x ∈ StructureBiNode.typeIdsAll (browseTypes flag ts st).1)
  | [], st => by simp [browseTypes, BrowseTree.typesFoundAll, StructureBiNode.typeIdsAll]
  | t :: ts, st => by
    have hfirst := mem_types_browseTree flag x t st
    have hrest := mem_types_browseTypes flag x ts (browseTree flag t st).2
    simp only [browseTypes, BrowseTree.typesFoundAll, StructureBiNode.typeIdsAll, List.mem_append]
    constructor
    · rw [hrest.1, hfirst.1, or_assoc]
    · rw [hrest.2, hfirst.2, or_assoc]

end

end TypeBrowse

/-! ### A type is entered once -/

namespace TypeBrowse

mutual

/-- The types entered by a tree are new, and different. -/
theorem nodup_typeIds_browseTree (flag : Bool) : ∀ (t : BrowseTree) (st : TypeBrowse),
    (browseTree flag t st).1.typeIds.Nodup ∧
      ∀ x ∈ (browseTree flag t st).1.typeIds, x ∉ st.types
  | .node entry rule references, st => by
    obtain ⟨hnodup, hnew⟩ := nodup_typeIds_browseTypes flag references
      (st.handleBrowseTypeResult entry rule flag).2
    have hmem := fun x => (mem_types_handleBrowseTypeResult st entry rule flag x).2
    have hentered : (st.handleBrowseTypeResult entry rule flag).1.2 = true →
        entry.nodeId ∉ st.types := by
      simp only [handleBrowseTypeResult]
      split_ifs with h
      · intro _ hcontains
        rw [Bool.and_eq_true, Std.ExtTreeSet.contains_iff_mem.mpr hcontains] at h
        cases h.2
      · simp
    have hbelow : ∀ x ∈ StructureBiNode.typeIdsAll (browseTypes flag references
        (st.handleBrowseTypeResult entry rule flag).2).1, x ∉ st.types := fun x hx hold =>
      hnew x hx ((hmem x).mpr (.inl hold))
    simp only [browseTree, StructureBiNode.typeIds]
    split_ifs with htype
    · refine ⟨List.nodup_cons.mpr ⟨fun hx => ?_, hnodup⟩, fun x hx => ?_⟩
      · exact hnew _ hx ((hmem _).mpr (.inr ⟨htype, rfl⟩))
      · rcases List.mem_cons.mp hx with rfl | hx
        · exact hentered htype
        · exact hbelow x hx
    · exact ⟨hnodup, hbelow⟩

theorem nodup_typeIds_browseTypes (flag : Bool) : ∀ (ts : List BrowseTree) (st : TypeBrowse),
    (StructureBiNode.typeIdsAll (browseTypes flag ts st).1).Nodup ∧
      ∀ x ∈ StructureBiNode.typeIdsAll (browseTypes flag ts st).1, x ∉ st.types
  | [], st => ⟨List.nodup_nil, by simp [browseTypes, StructureBiNode.typeIdsAll]⟩
  | t :: ts, st => by
    obtain ⟨hfirst, hnewFirst⟩ := nodup_typeIds_browseTree flag t st
    obtain ⟨hrest, hnewRest⟩ := nodup_typeIds_browseTypes flag ts (browseTree flag t st).2
    have hmem := fun x => (mem_types_browseTree flag x t st).2
    simp only [browseTypes, StructureBiNode.typeIdsAll]
    refine ⟨List.nodup_append.mpr ⟨hfirst, hrest, fun x hx y hy heq => ?_⟩, fun x hx => ?_⟩
    · exact hnewRest y hy ((hmem y).mpr (.inr (heq ▸ hx)))
    · rcases List.mem_append.mp hx with hx | hx
      · exact hnewFirst x hx
      · exact fun hold => hnewRest x hx ((hmem x).mpr (.inl hold))

end

end TypeBrowse

/-- Each type of the bidirectional type map was entered once. -/
theorem TypeHierarchy.nodup_typesBelow (H : TypeHierarchy)
    (nameToId : Std.ExtTreeMap String NodeId compare) :
    ((StructureBiNode.typesBelowAll [] (H.browse nameToId).1).map Prod.fst).Nodup := by
  have h := TypeBrowse.nodup_typeIds_browseTree true
    (TypeBrowse.startTree WellKnown.baseVariableType H.variableTypes) (.start nameToId)
  have h' := TypeBrowse.nodup_typeIds_browseTree false
    (TypeBrowse.startTree WellKnown.baseObjectType H.objectTypes)
    (TypeBrowse.browseTree true
      (TypeBrowse.startTree WellKnown.baseVariableType H.variableTypes) (.start nameToId)).2
  rw [StructureBiNode.map_fst_typesBelowAll]
  simp only [TypeHierarchy.browse, StructureBiNode.typeIdsAll, List.append_nil]
  refine List.nodup_append.mpr ⟨h.1, h'.1, fun x hx y hy heq => h'.2 y hy ?_⟩
  exact (TypeBrowse.mem_types_browseTree true y _ _).2.mpr (.inr (heq ▸ hx))

/-! ### Tables that were filled without overwriting -/

/-- Reading a table that was filled without overwriting. -/
theorem mem_foldl_insertIfNew {β : Type} (entries : List (NodeId × β)) (m : NodeMap β)
    (x : NodeId) :
    x ∈ entries.foldl (fun m p => m.insertIfNew p.1 p.2) m ↔
      x ∈ m ∨ x ∈ entries.map Prod.fst := by
  induction entries generalizing m with
  | nil => simp
  | cons p entries ih =>
    rw [List.foldl_cons, ih, Std.ExtTreeMap.mem_insertIfNew, Std.LawfulEqCmp.compare_eq_iff_eq,
      List.map_cons, List.mem_cons, or_comm (a := p.1 = x), or_assoc, eq_comm (a := p.1)]

/-- The value of such a table is one that was given or one that was there. -/
theorem getElem?_foldl_insertIfNew {β : Type} (entries : List (NodeId × β)) (m : NodeMap β)
    {x : NodeId} {v : β}
    (h : (entries.foldl (fun m p => m.insertIfNew p.1 p.2) m)[x]? = some v) :
    m[x]? = some v ∨ (x, v) ∈ entries := by
  induction entries generalizing m with
  | nil => exact Or.inl h
  | cons p entries ih =>
    rcases ih _ h with hm | hmem
    · rw [Std.ExtTreeMap.getElem?_insertIfNew] at hm
      split_ifs at hm with hp
      · obtain rfl := Std.LawfulEqOrd.eq_of_compare hp.1
        obtain rfl := Option.some.inj hm
        exact Or.inr List.mem_cons_self
      · exact Or.inl hm
    · exact Or.inr (List.mem_cons_of_mem _ hmem)

/-- A type has an entry in the bidirectional type map if it was found. -/
theorem mem_bidirectionalTypeMap (H : TypeHierarchy)
    (nameToId : Std.ExtTreeMap String NodeId compare) (x : NodeId) :
    x ∈ bidirectionalTypeMap (H.browse nameToId).1 ↔ x ∈ H.typesFound := by
  have hv := TypeBrowse.mem_types_browseTree true x
    (TypeBrowse.startTree WellKnown.baseVariableType H.variableTypes) (.start nameToId)
  have ho := TypeBrowse.mem_types_browseTree false x
    (TypeBrowse.startTree WellKnown.baseObjectType H.objectTypes)
    (TypeBrowse.browseTree true
      (TypeBrowse.startTree WellKnown.baseVariableType H.variableTypes) (.start nameToId)).2
  have hnone : x ∉ (TypeBrowse.start nameToId).types := by simp [TypeBrowse.start]
  rw [bidirectionalTypeMap, mem_foldl_insertIfNew, StructureBiNode.map_fst_typesBelowAll]
  simp only [TypeHierarchy.browse, StructureBiNode.typeIdsAll, List.append_nil, List.mem_append,
    Std.ExtTreeMap.not_mem_empty, false_or, TypeHierarchy.typesFound]
  -- both sides are the types filed in the end
  refine Iff.trans ?_ (ho.2.symm.trans ho.1 |>.trans ?_)
  · rw [hv.2]
    simp only [hnone, false_or]
  · rw [hv.1]
    simp only [hnone, false_or]

/-- The entry of a type is its bloodline, which begins with the type. -/
theorem getElem?_bidirectionalTypeMap {roots : List StructureBiNode} {x : NodeId}
    {bloodline : List StructureBiNode} (h : (bidirectionalTypeMap roots)[x]? = some bloodline) :
    ∃ (type : StructureBiNode) (ancestors : List StructureBiNode),
      bloodline = type :: ancestors ∧ type.nodeId = x := by
  rcases getElem?_foldl_insertIfNew _ _ h with hempty | hmem
  · simp at hempty
  · exact StructureBiNode.head_typesBelowAll [] roots (x, bloodline) hmem

/-! ### The namespaces that are set up -/

namespace TypeMapState

variable {types : NodeMap (List StructureBiNode)}

/-- The entries that the bidirectional type map hands to `setupTypeMap` begin with their type. -/
def WellFiled (entries : List (NodeId × List StructureBiNode)) : Prop :=
  ∀ p ∈ entries, ∃ (type : StructureBiNode) (ancestors : List StructureBiNode),
    p.2 = type :: ancestors ∧ type.nodeId = p.1

/-- One step of `setupTypeMap` enters the type if its URI is the one asked for. -/
theorem mem_typeMap_setupEntry (namespaceUri : String) (st : TypeMapState)
    (p : NodeId × List StructureBiNode) (x : NodeId)
    (hp : ∃ (type : StructureBiNode) (ancestors : List StructureBiNode),
      p.2 = type :: ancestors ∧ type.nodeId = p.1) :
    x ∈ (setupEntry namespaceUri st p).typeMap ↔
      x ∈ st.typeMap ∨ x = p.1 ∧ x.uri = namespaceUri := by
  obtain ⟨i, line⟩ := p
  obtain ⟨type, ancestors, rfl, rfl⟩ := hp
  simp only [setupEntry]
  split_ifs with huri
  · rw [Std.ExtTreeMap.mem_insertIfNew, Std.LawfulEqCmp.compare_eq_iff_eq, or_comm]
    refine or_congr_right ⟨?_, fun h => h.1.symm⟩
    rintro rfl
    exact ⟨rfl, huri⟩
  · refine ⟨Or.inl, ?_⟩
    rintro (hx | ⟨rfl, hx⟩)
    · exact hx
    · exact absurd hx huri

/-- `setupTypeMap` enters the types of one namespace. -/
theorem mem_typeMap_setupTypeMap (hfiled : WellFiled types.toList) (namespaceUri : String)
    (st : TypeMapState) (x : NodeId) :
    x ∈ (st.setupTypeMap types namespaceUri).typeMap ↔
      x ∈ st.typeMap ∨ x ∈ types ∧ x.uri = namespaceUri := by
  have hfold : ∀ (entries : List (NodeId × List StructureBiNode)) (st : TypeMapState),
      WellFiled entries →
      (x ∈ (entries.foldl (setupEntry namespaceUri) st).typeMap ↔
        x ∈ st.typeMap ∨ x ∈ entries.map Prod.fst ∧ x.uri = namespaceUri) := by
    intro entries
    induction entries with
    | nil => intro st _; simp
    | cons p entries ih =>
      intro st h
      rw [List.foldl_cons, ih _ fun q hq => h q (List.mem_cons_of_mem _ hq),
        mem_typeMap_setupEntry namespaceUri st p x (h p List.mem_cons_self), List.map_cons,
        List.mem_cons, or_and_right, or_assoc]
  rw [setupTypeMap, hfold _ _ hfiled, Std.ExtTreeMap.map_fst_toList_eq_keys,
    Std.ExtTreeMap.mem_keys]

/-- **The loop of `readTypes`** enters the types whose URI is in the namespace table and among
those not yet found. -/
theorem mem_typeMap_setupNamespaces (hfiled : WellFiled types.toList) (x : NodeId)
    (namespaces notFound : List String) (st : TypeMapState) :
    x ∈ (setupNamespaces types namespaces notFound st).typeMap ↔
      x ∈ st.typeMap ∨ x ∈ types ∧ x.uri ∈ namespaces ∧ x.uri ∈ notFound := by
  induction namespaces generalizing notFound st with
  | nil => simp [setupNamespaces]
  | cons uri rest ih =>
    rw [setupNamespaces]
    split_ifs with huri
    · rw [ih, mem_typeMap_setupTypeMap hfiled, or_assoc, ← and_or_left]
      refine or_congr_right (and_congr_right fun _ => ?_)
      by_cases hx : x.uri = uri
      · simp [hx, huri]
      · simp [hx, List.mem_erase_of_ne hx]
    · rw [ih]
      refine or_congr_right (and_congr_right fun _ => and_congr_left fun hx => ?_)
      have hne : x.uri ≠ uri := fun h => huri (h ▸ hx)
      simp [hne]

/-- Pointing children at the lists of their types enters nothing. -/
theorem typeMap_useChildType (st : TypeMapState) (child : NodeRef) :
    (st.useChildType child).typeMap = st.typeMap := by
  simp only [useChildType]
  split <;> rfl

theorem typeMap_foldl_useChildType (children : List NodeRef) (st : TypeMapState) :
    (children.foldl useChildType st).typeMap = st.typeMap := by
  induction children generalizing st with
  | nil => rfl
  | cons child children ih => rw [List.foldl_cons, ih, typeMap_useChildType]

theorem typeMap_updateChild (st : TypeMapState) (child : NodeRef) :
    (st.updateChild child).typeMap = st.typeMap := by
  simp only [updateChild]
  split_ifs
  · exact typeMap_foldl_useChildType _ st
  · exact typeMap_useChildType st child

theorem typeMap_updateTypeMap (st : TypeMapState) : st.updateTypeMap.typeMap = st.typeMap := by
  have hchildren : ∀ (children : List NodeRef) (st : TypeMapState),
      (children.foldl updateChild st).typeMap = st.typeMap := by
    intro children
    induction children with
    | nil => intro st; rfl
    | cons child children ih => intro st; rw [List.foldl_cons, ih, typeMap_updateChild]
  have hentries : ∀ (entries : List (NodeId × NodeRef)) (st : TypeMapState),
      (entries.foldl (fun st entry => (st.heap.children entry.2).foldl updateChild st)
        st).typeMap = st.typeMap := by
    intro entries
    induction entries with
    | nil => intro st; rfl
    | cons entry entries ih => intro st; rw [List.foldl_cons, ih, hchildren]
  exact hentries _ st

end TypeMapState

/-! ### The types of the configured namespaces -/

namespace OpcUaTypeReader

/-- **The types with an entry.** After `readTypes` of a new type reader a type has an entry if and
only if it was found and its URI is, spelled the same, in the namespace table of the server and
in the configuration. -/
theorem mem_typeMap_readTypes (expectedObjectTypeNamespaces : List String)
    (namespaceInformations : List NamespaceInformation) (H : TypeHierarchy)
    (namespaces : List String) (x : NodeId) :
    x ∈ ((create expectedObjectTypeNamespaces namespaceInformations).readTypes H
        namespaces).typeMap ↔
      x ∈ H.typesFound ∧ x.uri ∈ namespaces ∧ x.uri ∈ expectedObjectTypeNamespaces := by
  have hfiled : TypeMapState.WellFiled
      (bidirectionalTypeMap (H.browse ∅).1).toList := fun p hp =>
    getElem?_bidirectionalTypeMap (Std.ExtTreeMap.mem_toList_iff_getElem?_eq_some.mp hp)
  simp only [readTypes, updateObjectTypeNames, TypeMapState.typeMap_updateTypeMap, setupTypes,
    create, TypeMapState.mem_typeMap_setupNamespaces hfiled, mem_bidirectionalTypeMap,
    Std.ExtTreeMap.not_mem_empty, false_or]

end OpcUaTypeReader

/-! ### The two spellings of the OPC UA namespace -/

/-- The URI with the default filled in, as `operator==` reads it. -/
def fullUri (uri : String) : String := if uri = "" then NodeId.defaultUri else uri

/-- The namespace of a node is configured and in the namespace table of the server, where an empty
URI counts as that of the OPC UA namespace. -/
def NamespaceAvailable (expectedObjectTypeNamespaces namespaces : List String) (t : NodeId) :
    Prop :=
  t.cmpUri ∈ expectedObjectTypeNamespaces.map fullUri ∧ t.cmpUri ∈ namespaces.map fullUri

instance (C N : List String) (t : NodeId) : Decidable (NamespaceAvailable C N t) :=
  inferInstanceAs (Decidable (_ ∧ _))

/-- The spellings of the OPC UA namespace. -/
def opcUaSpellings : List String := ["", NodeId.defaultUri]

/-- If the node is one of the OPC UA namespace, and both lists name that namespace in some
spelling, then both name it in the spelling of the node. -/
def SpelledAlike (expectedObjectTypeNamespaces namespaces : List String) (t : NodeId) : Prop :=
  t.uri ∈ opcUaSpellings →
    (∃ uri ∈ expectedObjectTypeNamespaces, uri ∈ opcUaSpellings) →
    (∃ uri ∈ namespaces, uri ∈ opcUaSpellings) →
    t.uri ∈ expectedObjectTypeNamespaces ∧ t.uri ∈ namespaces

theorem fullUri_eq_defaultUri {uri : String} :
    fullUri uri = NodeId.defaultUri ↔ uri ∈ opcUaSpellings := by
  by_cases h : uri = ""
  · simp [fullUri, opcUaSpellings, h]
  · simp [fullUri, opcUaSpellings, h]

/-- For a node of the OPC UA namespace a list names its namespace if it has one of the
spellings; for every other node the URI itself has to be in the list. -/
theorem cmpUri_mem_map_fullUri (t : NodeId) (uris : List String) :
    t.cmpUri ∈ uris.map fullUri ↔
      t.uri ∈ opcUaSpellings ∧ (∃ uri ∈ uris, uri ∈ opcUaSpellings) ∨
        t.uri ∉ opcUaSpellings ∧ t.uri ∈ uris := by
  have hcmp : t.cmpUri = fullUri t.uri := rfl
  rw [hcmp, List.mem_map]
  by_cases ht : t.uri ∈ opcUaSpellings
  · have hfull := fullUri_eq_defaultUri.mpr ht
    simp only [hfull, fullUri_eq_defaultUri, ht, not_true, true_and, false_and, or_false]
  · have hself : fullUri t.uri = t.uri := if_neg fun h => ht (by simp [opcUaSpellings, h])
    simp only [hself, ht, not_false_eq_true, true_and, false_and, false_or]
    constructor
    · rintro ⟨uri, huri, heq⟩
      have hne : uri ∉ opcUaSpellings := by
        intro hs
        have hdefault := fullUri_eq_defaultUri.mpr hs
        exact ht (by simp [opcUaSpellings, ← heq, hdefault])
      have hsame : fullUri uri = uri := if_neg fun h => hne (by simp [opcUaSpellings, h])
      exact heq.symm.trans hsame ▸ huri
    · intro h
      exact ⟨t.uri, h, hself⟩

namespace OpcUaTypeReader

/-- **When a configured namespace is loaded.** That a type node found has an entry if and only if
its namespace is configured and in the server's namespace table holds exactly if the node is not
one of the OPC UA namespace spelled in another way than the two lists spell it. -/
theorem readTypes_loads_iff (expectedObjectTypeNamespaces : List String)
    (namespaceInformations : List NamespaceInformation) (H : TypeHierarchy)
    (namespaces : List String) (t : NodeId) (ht : t ∈ H.typesFound) :
    (t ∈ ((create expectedObjectTypeNamespaces namespaceInformations).readTypes H
          namespaces).typeMap ↔
        NamespaceAvailable expectedObjectTypeNamespaces namespaces t) ↔
      SpelledAlike expectedObjectTypeNamespaces namespaces t := by
  simp only [mem_typeMap_readTypes, ht, true_and, NamespaceAvailable, cmpUri_mem_map_fullUri]
  constructor
  · intro hloads hopc hconfigured htable
    exact (hloads.mpr ⟨Or.inl ⟨hopc, hconfigured⟩, Or.inl ⟨hopc, htable⟩⟩).symm
  · intro halike
    constructor
    · rintro ⟨htable, hconfigured⟩
      by_cases hopc : t.uri ∈ opcUaSpellings
      · exact ⟨Or.inl ⟨hopc, t.uri, hconfigured, hopc⟩, Or.inl ⟨hopc, t.uri, htable, hopc⟩⟩
      · exact ⟨Or.inr ⟨hopc, hconfigured⟩, Or.inr ⟨hopc, htable⟩⟩
    · rintro ⟨⟨hopc, hconfigured⟩ | ⟨hopc, hconfigured⟩, ⟨hopc', htable⟩ | ⟨hopc', htable⟩⟩
      · exact (halike hopc hconfigured htable).symm
      · exact absurd hopc hopc'
      · exact absurd hopc' hopc
      · exact ⟨htable, hconfigured⟩

/-- A server with the folder type below `BaseObjectType` and the functional group below that. -/
def folderHierarchy : TypeHierarchy where
  variableTypes := []
  objectTypes :=
    [.node ⟨.objectType, ⟨"", "i=61"⟩, WellKnown.missingType, ⟨"", "i=45"⟩, ⟨"", "FolderType"⟩⟩
      .none
      [.node ⟨.objectType, WellKnown.functionalGroup, WellKnown.missingType, ⟨"", "i=45"⟩,
        ⟨"http://opcfoundation.org/UA/DI/", "FunctionalGroupType"⟩⟩ .none []]]

/-- The functional group is loaded with its namespace. -/
theorem readTypes_loads_functionalGroup :
    (WellKnown.functionalGroup ∈ ((create ["http://opcfoundation.org/UA/DI/"] []).readTypes
        folderHierarchy ["http://opcfoundation.org/UA/", "http://opcfoundation.org/UA/DI/"]).typeMap
      ↔ NamespaceAvailable ["http://opcfoundation.org/UA/DI/"]
        ["http://opcfoundation.org/UA/", "http://opcfoundation.org/UA/DI/"]
        WellKnown.functionalGroup) :=
  (readTypes_loads_iff ["http://opcfoundation.org/UA/DI/"] [] folderHierarchy
    ["http://opcfoundation.org/UA/", "http://opcfoundation.org/UA/DI/"] WellKnown.functionalGroup
    (by decide)).mpr (fun h => absurd h (by decide))

/-- The OPC UA namespace is configured and in the namespace table, and yet the folder type, whose
URI arrives empty, gets no entry. -/
theorem not_loads_folder :
    ¬ ∀ t ∈ folderHierarchy.typesFound,
      (t ∈ ((create ["http://opcfoundation.org/UA/"] []).readTypes folderHierarchy
          ["http://opcfoundation.org/UA/"]).typeMap ↔
        NamespaceAvailable ["http://opcfoundation.org/UA/"]
          ["http://opcfoundation.org/UA/"] t) := by
  intro hloads
  have hfolder := hloads ⟨"", "i=61"⟩ (by decide)
  rw [mem_typeMap_readTypes] at hfolder
  exact absurd hfolder (by decide)

end OpcUaTypeReader

end UmatiDashboard
