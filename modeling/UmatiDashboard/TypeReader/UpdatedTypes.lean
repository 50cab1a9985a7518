import UmatiDashboard.TypeReader.TypeEntries

/-!
# Which grandchildren of a type are kept

`updateTypeMap` changes no list. It points the nodes that it looks at, which are the children of the
entries and below folders and functional groups the nodes in their lists (`lookedAt`), at the lists
of their types' entries (`updated_updateTypeMap`). So a declaration whose type has an entry no
longer shows the children it was browsed with, but those its type and the supertypes of its type
declare. The other declarations show the children they have after flattening; a declaration that
was replaced by one further down takes its children with it, unless that one has them too.
-/

namespace UmatiDashboard

open StructureBiNode

namespace TypeHierarchy

/-! ### What `updateTypeMap` looks at -/

/-- Folders and functional groups are looked through. -/
def isLookedThrough (t : NodeId) : Bool :=
  t.equals WellKnown.folder || t.equals WellKnown.functionalGroup

variable (H : TypeHierarchy) (expectedObjectTypeNamespaces namespaces : List String)

/-- The types that get an entry, with their bloodlines. -/
def loadedTypes : NodeMap (List StructureBiNode) :=
  Std.ExtTreeMap.filter
    (fun x _ => decide (x.uri ∈ namespaces ∧ x.uri ∈ expectedObjectTypeNamespaces)) H.types

/-- The bloodline of a node's type, if the type gets an entry. -/
def loadedType (n : NodeRef) : Option (List StructureBiNode) :=
  (H.loadedTypes expectedObjectTypeNamespaces namespaces)[(H.heap.nodes n).specifiedTypeNodeId]?

/-- The list of a node, when some nodes were looked at. -/
def pointer (looked : List NodeRef) (n : NodeRef) : ListRef :=
  if n ∈ looked then
    ((H.loadedType expectedObjectTypeNamespaces namespaces n).map headRef).getD n
  else n

/-- A child of an entry is looked at, or the nodes in its list are. -/
def lookAt (looked : List NodeRef) (c : NodeRef) : List NodeRef :=
  looked ++
    if isLookedThrough (H.heap.nodes c).specifiedTypeNodeId then
      H.flattened expectedObjectTypeNamespaces namespaces
        (H.pointer expectedObjectTypeNamespaces namespaces looked c)
    else [c]

/-- The children of the entries, in the order of the types. -/
def entryChildren : List NodeRef :=
  (H.loadedTypes expectedObjectTypeNamespaces namespaces).toList.flatMap fun p =>
    H.flattened expectedObjectTypeNamespaces namespaces (headRef p.2)

/-- The nodes that `updateTypeMap` looks at. -/
def lookedAt : List NodeRef :=
  (H.entryChildren expectedObjectTypeNamespaces namespaces).foldl
    (H.lookAt expectedObjectTypeNamespaces namespaces) []

variable {H expectedObjectTypeNamespaces namespaces}

theorem getElem?_loadedTypes_eq_some_iff {x : NodeId} {line : List StructureBiNode} :
    (H.loadedTypes expectedObjectTypeNamespaces namespaces)[x]? = some line ↔
      H.types[x]? = some line ∧ x.uri ∈ namespaces ∧ x.uri ∈ expectedObjectTypeNamespaces := by
  rw [loadedTypes, Std.ExtTreeMap.getElem?_filter']
  simp [Option.filter_eq_some_iff]

/-! ### The pointers -/

/-- **The type map while it is updated**, from `st` on, when these nodes were looked at. -/
structure Updated (H : TypeHierarchy) (expectedObjectTypeNamespaces namespaces : List String)
    (st : TypeMapState) (looked : List NodeRef) (st' : TypeMapState) : Prop where
  typeMap : st'.typeMap = st.typeMap
  lists : st'.heap.lists = st.heap.lists
  definition : ∀ r, (st'.heap.nodes r).toNodeDefinition = (st.heap.nodes r).toNodeDefinition
  browsed : ∀ n < H.heap.next, (st'.heap.nodes n).specifiedChildNodes =
    H.pointer expectedObjectTypeNamespaces namespaces looked n
  entry : ∀ e, H.heap.next ≤ e →
    (st'.heap.nodes e).specifiedChildNodes = (st.heap.nodes e).specifiedChildNodes

/-- **The type map after the passes** of `readTypes`: the types that are loaded have entries. -/
structure Loaded (H : TypeHierarchy) (expectedObjectTypeNamespaces namespaces : List String)
    (st : TypeMapState) : Prop where
  setUp : SetUp H st (setUpLines H.types namespaces expectedObjectTypeNamespaces)
  entries : st.typeMap.map (fun _ e => (st.heap.nodes e).specifiedChildNodes) =
    (H.loadedTypes expectedObjectTypeNamespaces namespaces).map fun _ line => headRef line

variable {st st' : TypeMapState} {looked : List NodeRef}

theorem Loaded.getElem?_typeMap (hst : H.Loaded expectedObjectTypeNamespaces namespaces st)
    (x : NodeId) : (st.typeMap[x]?).map (fun e => (st.heap.nodes e).specifiedChildNodes) =
      ((H.loadedTypes expectedObjectTypeNamespaces namespaces)[x]?).map headRef := by
  have hx := congrArg (fun m : NodeMap ListRef => m[x]?) hst.entries
  simpa using hx

theorem Loaded.lists (hst : H.Loaded expectedObjectTypeNamespaces namespaces st) :
    st.heap.lists = H.flattened expectedObjectTypeNamespaces namespaces := hst.setUp.heap.lists

theorem Loaded.lt_of_mem (hst : H.Loaded expectedObjectTypeNamespaces namespaces st) {l : ListRef}
    {n : NodeRef} (hn : n ∈ H.flattened expectedObjectTypeNamespaces namespaces l) :
    n < H.heap.next := hst.setUp.heap.lt l n hn

/-- Pointing a node at the list of its type. -/
theorem Updated.useChildType (hst : H.Loaded expectedObjectTypeNamespaces namespaces st)
    (h : H.Updated expectedObjectTypeNamespaces namespaces st looked st') {n : NodeRef}
    (hn : n < H.heap.next) :
    H.Updated expectedObjectTypeNamespaces namespaces st (looked ++ [n])
      (st'.useChildType n) := by
  have htype : (st'.heap.nodes n).specifiedTypeNodeId = (H.heap.nodes n).specifiedTypeNodeId :=
    (congrArg NodeDefinition.specifiedTypeNodeId (h.definition n)).trans
      (congrArg NodeDefinition.specifiedTypeNodeId (hst.setUp.heap.definition n hn))
  have hentry := hst.getElem?_typeMap (H.heap.nodes n).specifiedTypeNodeId
  have hothers : ∀ m, m ≠ n → H.pointer expectedObjectTypeNamespaces namespaces (looked ++ [n]) m =
      H.pointer expectedObjectTypeNamespaces namespaces looked m := by
    intro m hm
    simp [pointer, hm]
  unfold TypeMapState.useChildType
  dsimp only
  rw [htype, h.typeMap]
  cases he : st.typeMap[(H.heap.nodes n).specifiedTypeNodeId]? with
  | none =>
    -- the type has no entry, and the node keeps the list that it was browsed with
    have hnone : H.loadedType expectedObjectTypeNamespaces namespaces n = none := by
      rw [he] at hentry
      exact Option.map_eq_none_iff.mp hentry.symm
    refine ⟨h.typeMap, h.lists, h.definition, fun m hm => ?_, h.entry⟩
    by_cases hmn : m = n
    · subst hmn
      simpa [pointer, hnone] using h.browsed m hm
    · rw [hothers m hmn, h.browsed m hm]
  | some e =>
    obtain ⟨hge, -⟩ := hst.setUp.entries _ e he
    have htarget : ((H.loadedType expectedObjectTypeNamespaces namespaces n).map headRef).getD n =
        (st.heap.nodes e).specifiedChildNodes := by
      rw [loadedType, ← hentry, he]
      rfl
    refine ⟨rfl, h.lists, fun r => ?_, fun m hm => ?_, fun r hr => ?_⟩
    · by_cases hr : r = n
      · subst hr
        simp [h.definition]
      · rw [TypeHeap.nodes_setNode_of_ne _ hr, h.definition]
    · by_cases hmn : m = n
      · subst hmn
        simp [pointer, htarget, h.entry e hge]
      · rw [TypeHeap.nodes_setNode_of_ne _ hmn, hothers m hmn, h.browsed m hm]
    · rw [TypeHeap.nodes_setNode_of_ne _ (Nat.ne_of_gt (Nat.lt_of_lt_of_le hn hr)), h.entry r hr]

/-- Pointing the nodes of a list at the lists of their types. -/
theorem Updated.foldl_useChildType (hst : H.Loaded expectedObjectTypeNamespaces namespaces st)
    (ns : List NodeRef) (hns : ∀ n ∈ ns, n < H.heap.next)
    (h : H.Updated expectedObjectTypeNamespaces namespaces st looked st') :
    H.Updated expectedObjectTypeNamespaces namespaces st (looked ++ ns)
      (ns.foldl TypeMapState.useChildType st') := by
  induction ns generalizing st' looked with
  | nil => rwa [List.append_nil]
  | cons n ns ih =>
    rw [List.append_cons]
    exact ih (fun m hm => hns m (List.mem_cons_of_mem _ hm))
      (h.useChildType hst (hns n List.mem_cons_self))

/-- **One child of an entry** is looked at, or looked through. -/
theorem Updated.updateChild (hst : H.Loaded expectedObjectTypeNamespaces namespaces st)
    (h : H.Updated expectedObjectTypeNamespaces namespaces st looked st') {c : NodeRef}
    (hc : c < H.heap.next) :
    H.Updated expectedObjectTypeNamespaces namespaces st
      (H.lookAt expectedObjectTypeNamespaces namespaces looked c) (st'.updateChild c) := by
  have htype : (st'.heap.nodes c).specifiedTypeNodeId = (H.heap.nodes c).specifiedTypeNodeId :=
    (congrArg NodeDefinition.specifiedTypeNodeId (h.definition c)).trans
      (congrArg NodeDefinition.specifiedTypeNodeId (hst.setUp.heap.definition c hc))
  have hchildren : st'.heap.children c = H.flattened expectedObjectTypeNamespaces namespaces
      (H.pointer expectedObjectTypeNamespaces namespaces looked c) := by
    rw [TypeHeap.children, h.browsed c hc, h.lists, hst.lists]
  unfold TypeMapState.updateChild lookAt isLookedThrough
  dsimp only
  rw [htype, hchildren]
  split_ifs
  · exact h.foldl_useChildType hst _ fun n hn => hst.lt_of_mem hn
  · exact h.useChildType hst hc

theorem Updated.foldl_updateChild (hst : H.Loaded expectedObjectTypeNamespaces namespaces st)
    (cs : List NodeRef) (hcs : ∀ c ∈ cs, c < H.heap.next)
    (h : H.Updated expectedObjectTypeNamespaces namespaces st looked st') :
    H.Updated expectedObjectTypeNamespaces namespaces st
      (cs.foldl (H.lookAt expectedObjectTypeNamespaces namespaces) looked)
      (cs.foldl TypeMapState.updateChild st') := by
  induction cs generalizing st' looked with
  | nil => exact h
  | cons c cs ih =>
    exact ih (fun m hm => hcs m (List.mem_cons_of_mem _ hm))
      (h.updateChild hst (hcs c List.mem_cons_self))

/-- **`updateTypeMap`** looks at the children of the entries. -/
theorem Loaded.updated_updateTypeMap
    (hst : H.Loaded expectedObjectTypeNamespaces namespaces st) :
    H.Updated expectedObjectTypeNamespaces namespaces st
      (H.lookedAt expectedObjectTypeNamespaces namespaces) st.updateTypeMap := by
  have hfold : ∀ (entries : List (NodeId × NodeRef)) {looked : List NodeRef} {st' : TypeMapState},
      (∀ p ∈ entries, st.typeMap[p.1]? = some p.2) →
      H.Updated expectedObjectTypeNamespaces namespaces st looked st' →
      H.Updated expectedObjectTypeNamespaces namespaces st
        ((entries.flatMap fun p => H.flattened expectedObjectTypeNamespaces namespaces
          (st.heap.nodes p.2).specifiedChildNodes).foldl
            (H.lookAt expectedObjectTypeNamespaces namespaces) looked)
        (entries.foldl (fun st entry =>
          (st.heap.children entry.2).foldl TypeMapState.updateChild st) st') := by
    intro entries
    induction entries with
    | nil => exact fun _ h => h
    | cons p entries ih =>
      intro looked st' hentries h
      obtain ⟨hge, -⟩ := hst.setUp.entries _ _ (hentries p List.mem_cons_self)
      -- the list of the entry is still the one it had
      have hchildren : st'.heap.children p.2 = H.flattened expectedObjectTypeNamespaces namespaces
          (st.heap.nodes p.2).specifiedChildNodes := by
        rw [TypeHeap.children, h.lists, h.entry p.2 hge, hst.lists]
      rw [List.foldl_cons, List.flatMap_cons, List.foldl_append, hchildren]
      exact ih (fun q hq => hentries q (List.mem_cons_of_mem _ hq))
        (h.foldl_updateChild hst _ fun n hn => hst.lt_of_mem hn)
  have hstart : H.Updated expectedObjectTypeNamespaces namespaces st [] st :=
    ⟨rfl, rfl, fun _ => rfl, fun n hn => by simpa [pointer] using hst.setUp.heap.ownList n hn,
      fun _ _ => rfl⟩
  have hchildren : (st.typeMap.toList.flatMap fun p =>
      H.flattened expectedObjectTypeNamespaces namespaces (st.heap.nodes p.2).specifiedChildNodes) =
        H.entryChildren expectedObjectTypeNamespaces namespaces := by
    have hlists := congrArg (fun m : NodeMap ListRef => m.toList.flatMap fun p =>
      H.flattened expectedObjectTypeNamespaces namespaces p.2) hst.entries
    simpa [Std.ExtTreeMap.toList_map, List.flatMap_map, entryChildren] using hlists
  rw [lookedAt, ← hchildren]
  exact hfold st.typeMap.toList
    (fun p hp => Std.ExtTreeMap.mem_toList_iff_getElem?_eq_some.mp hp) hstart

/-! ### What the entries and their children show -/

section Shows

variable (H expectedObjectTypeNamespaces namespaces)

/-- **The nodes of a name** in the entry of the type at the lower end of a bloodline. If the
bloodline has only types, it is the declaration that stays. -/
def Stands (line : List StructureBiNode) (b : QualifiedName) (f : NodeRef) : Prop :=
  if TypesOnly line then
    Flattening.staying H.heap (Flattening.named H.heap b (declaredRefs line)) = some f
  else f ∈ H.flattened expectedObjectTypeNamespaces namespaces (headRef line) ∧
    H.heap.browseName f = b

/-- The entry of the type has a child of this name. -/
def EntryShows (line : List StructureBiNode) (g : QualifiedName) : Prop :=
  if TypesOnly line then ∃ c ∈ declarations line, H.heap.browseName c.structureNode = g
  else ∃ m ∈ H.flattened expectedObjectTypeNamespaces namespaces (headRef line),
    H.heap.browseName m = g

/-- The bloodline of the type whose children a node shows. -/
def shownType (n : NodeRef) : Option (List StructureBiNode) :=
  if n ∈ H.lookedAt expectedObjectTypeNamespaces namespaces then
    H.loadedType expectedObjectTypeNamespaces namespaces n
  else none

/-- **What a node shows** once the type map is updated: if it was looked at and its type has an
entry, what that entry shows, and else the children that it was browsed with or was handed. -/
def Shows (n : NodeRef) (g : QualifiedName) : Prop :=
  match H.shownType expectedObjectTypeNamespaces namespaces n with
  | some line => H.EntryShows expectedObjectTypeNamespaces namespaces line g
  | none => ∃ m ∈ H.flattened expectedObjectTypeNamespaces namespaces n, H.heap.browseName m = g

variable {H expectedObjectTypeNamespaces namespaces}

theorem pointer_lookedAt (n : NodeRef) :
    H.pointer expectedObjectTypeNamespaces namespaces
        (H.lookedAt expectedObjectTypeNamespaces namespaces) n =
      ((H.shownType expectedObjectTypeNamespaces namespaces n).map headRef).getD n := by
  rw [pointer, shownType]
  split_ifs
  · rfl
  · rfl

theorem loadedType_of_shownType {n : NodeRef} {line : List StructureBiNode}
    (h : H.shownType expectedObjectTypeNamespaces namespaces n = some line) :
    (H.loadedTypes expectedObjectTypeNamespaces
      namespaces)[(H.heap.nodes n).specifiedTypeNodeId]? = some line := by
  rw [shownType] at h
  split_ifs at h
  exact h

/-- A type of a namespace that is loaded is set up. -/
theorem Loaded.mem_setUpLines (hst : H.Loaded expectedObjectTypeNamespaces namespaces st)
    {x : NodeId} {line : List StructureBiNode}
    (hx : (H.loadedTypes expectedObjectTypeNamespaces namespaces)[x]? = some line) :
    line ∈ setUpLines H.types namespaces expectedObjectTypeNamespaces := by
  have hentry := hst.getElem?_typeMap x
  rw [hx] at hentry
  obtain ⟨e, he, -⟩ := Option.map_eq_some_iff.mp hentry
  exact (hst.setUp.children he (getElem?_loadedTypes_eq_some_iff.mp hx).1).1

theorem Loaded.stands_iff (hst : H.Loaded expectedObjectTypeNamespaces namespaces st) {x : NodeId}
    {line : List StructureBiNode}
    (hx : (H.loadedTypes expectedObjectTypeNamespaces namespaces)[x]? = some line)
    (b : QualifiedName) (f : NodeRef) :
    H.Stands expectedObjectTypeNamespaces namespaces line b f ↔
      f ∈ H.flattened expectedObjectTypeNamespaces namespaces (headRef line) ∧
        H.heap.browseName f = b := by
  have hline := (getElem?_loadedTypes_eq_some_iff.mp hx).1
  rw [Stands]
  split_ifs with htypes
  · rw [← Option.mem_toList, ← Flattening.named_run (hst.mem_setUpLines hx)
      (fun _ hline' heq => eq_of_headRef_eq hline hline' heq) (htypes.not_mem_refs hline _ _) b,
      Flattening.mem_named]
    rfl
  · rfl

theorem Loaded.entryShows_iff (hst : H.Loaded expectedObjectTypeNamespaces namespaces st)
    {x : NodeId} {line : List StructureBiNode}
    (hx : (H.loadedTypes expectedObjectTypeNamespaces namespaces)[x]? = some line)
    (g : QualifiedName) :
    H.EntryShows expectedObjectTypeNamespaces namespaces line g ↔
      ∃ m ∈ H.flattened expectedObjectTypeNamespaces namespaces (headRef line),
        H.heap.browseName m = g := by
  have hline := (getElem?_loadedTypes_eq_some_iff.mp hx).1
  rw [EntryShows]
  split_ifs with htypes
  · have hnames := Flattening.exists_mem_run (h := H.heap) (hst.mem_setUpLines hx)
      (fun _ hline' heq => eq_of_headRef_eq hline hline' heq) (htypes.not_mem_refs hline _ _) g
    rw [flattened, hnames]
    simp [declaredRefs]
  · rfl

/-- The list of a node once the type map is updated. -/
theorem Loaded.shows_iff (hst : H.Loaded expectedObjectTypeNamespaces namespaces st) (n : NodeRef)
    (g : QualifiedName) : H.Shows expectedObjectTypeNamespaces namespaces n g ↔
      ∃ m ∈ H.flattened expectedObjectTypeNamespaces namespaces
        (H.pointer expectedObjectTypeNamespaces namespaces
          (H.lookedAt expectedObjectTypeNamespaces namespaces) n), H.heap.browseName m = g := by
  rw [Shows, pointer_lookedAt]
  cases htype : H.shownType expectedObjectTypeNamespaces namespaces n with
  | none => rfl
  | some line => exact hst.entryShows_iff (loadedType_of_shownType htype) g

end Shows

end TypeHierarchy

namespace OpcUaTypeReader

open TypeHierarchy

theorem loaded_setUpTypes (H : TypeHierarchy) (expectedObjectTypeNamespaces : List String)
    (namespaceInformations : List NamespaceInformation) (namespaces : List String) :
    H.Loaded expectedObjectTypeNamespaces namespaces
      (setUpTypes expectedObjectTypeNamespaces namespaceInformations H namespaces) := by
  have hst := setUp_setUpTypes H expectedObjectTypeNamespaces namespaceInformations namespaces
  refine ⟨hst, Std.ExtTreeMap.ext_getElem? fun x => ?_⟩
  have hmem := mem_typeMap_setUpTypes expectedObjectTypeNamespaces namespaceInformations namespaces
    H x
  rw [Std.ExtTreeMap.getElem?_map, Std.ExtTreeMap.getElem?_map]
  cases he : (setUpTypes expectedObjectTypeNamespaces namespaceInformations H
      namespaces).typeMap[x]? with
  | none =>
    cases hx : (H.loadedTypes expectedObjectTypeNamespaces namespaces)[x]? with
    | none => rfl
    | some line =>
      obtain ⟨htype, hloaded⟩ := getElem?_loadedTypes_eq_some_iff.mp hx
      have hfound : x ∈ H.typesFound :=
        (mem_bidirectionalTypeMap H ∅ x).mp (NodeMap.mem_of_getElem? htype)
      have hentry := hmem.mpr ⟨hfound, hloaded⟩
      rw [← Std.ExtTreeMap.isSome_getElem?_iff_mem, he] at hentry
      cases hentry
  | some e =>
    obtain ⟨-, -, line, -, hline, hlist, -⟩ := hst.entries x e he
    have hx := getElem?_loadedTypes_eq_some_iff.mpr
      ⟨hline, (hmem.mp (NodeMap.mem_of_getElem? he)).2⟩
    rw [hx, Option.map_some, Option.map_some, hlist]

section ReadTypes

variable (H : TypeHierarchy) (expectedObjectTypeNamespaces : List String)
  (namespaceInformations : List NamespaceInformation) (namespaces : List String)

/-- The entries after `readTypes` are those of the types that are loaded. -/
theorem exists_entry_readTypes_iff {x : NodeId} {line : List StructureBiNode}
    (hline : H.types[x]? = some line) :
    (∃ e, ((create expectedObjectTypeNamespaces namespaceInformations).readTypes H
      namespaces).typeMap[x]? = some e) ↔
      (H.loadedTypes expectedObjectTypeNamespaces namespaces)[x]? = some line := by
  have hfound : x ∈ H.typesFound :=
    (mem_bidirectionalTypeMap H ∅ x).mp (NodeMap.mem_of_getElem? hline)
  rw [← Option.isSome_iff_exists, Std.ExtTreeMap.isSome_getElem?_iff_mem, mem_typeMap_readTypes,
    getElem?_loadedTypes_eq_some_iff]
  simp [hfound, hline]

theorem exists_loadedType_of_entry {x : NodeId} {e : NodeRef}
    (hx : ((create expectedObjectTypeNamespaces namespaceInformations).readTypes H
      namespaces).typeMap[x]? = some e) :
    ∃ line, (H.loadedTypes expectedObjectTypeNamespaces namespaces)[x]? = some line := by
  obtain ⟨hfound, -⟩ := (mem_typeMap_readTypes expectedObjectTypeNamespaces namespaceInformations H
    namespaces x).mp (NodeMap.mem_of_getElem? hx)
  obtain ⟨line, hline⟩ := Option.isSome_iff_exists.mp (Std.ExtTreeMap.isSome_getElem?_iff_mem.mpr
    ((mem_bidirectionalTypeMap H ∅ x).mpr hfound))
  exact ⟨line, (exists_entry_readTypes_iff H expectedObjectTypeNamespaces namespaceInformations
    namespaces hline).mp ⟨e, hx⟩⟩

/-- An entry shows what flattening has left in the list of its type. -/
theorem children_entry_readTypes {x : NodeId} {e : NodeRef}
    (hx : ((create expectedObjectTypeNamespaces namespaceInformations).readTypes H
      namespaces).typeMap[x]? = some e) {line : List StructureBiNode}
    (hline : H.types[x]? = some line) :
    ((create expectedObjectTypeNamespaces namespaceInformations).readTypes H
      namespaces).heap.children e =
        H.flattened expectedObjectTypeNamespaces namespaces (headRef line) := by
  have hst := loaded_setUpTypes H expectedObjectTypeNamespaces namespaceInformations namespaces
  set st := setUpTypes expectedObjectTypeNamespaces namespaceInformations H namespaces
  have hupdated := hst.updated_updateTypeMap
  have hxst : st.typeMap[x]? = some e := by
    rw [← hupdated.typeMap]
    exact hx
  obtain ⟨hge, -⟩ := hst.setUp.entries x e hxst
  change st.updateTypeMap.heap.children e = _
  rw [TypeHeap.children, hupdated.lists, hupdated.entry e hge, (hst.setUp.children hxst hline).2.1,
    hst.lists]

/-- A node that was browsed shows the list at its pointer. -/
theorem children_readTypes {n : NodeRef} (hn : n < H.heap.next) :
    ((create expectedObjectTypeNamespaces namespaceInformations).readTypes H
      namespaces).heap.children n =
        H.flattened expectedObjectTypeNamespaces namespaces
          (H.pointer expectedObjectTypeNamespaces namespaces
            (H.lookedAt expectedObjectTypeNamespaces namespaces) n) := by
  have hst := loaded_setUpTypes H expectedObjectTypeNamespaces namespaceInformations namespaces
  have hupdated := hst.updated_updateTypeMap
  exact (congrArg _ (hupdated.browsed n hn)).trans
    (congrFun (hupdated.lists.trans hst.lists) _)

theorem browseName_readTypes {n : NodeRef} (hn : n < H.heap.next) :
    ((create expectedObjectTypeNamespaces namespaceInformations).readTypes H
      namespaces).heap.browseName n = H.heap.browseName n := by
  have hst := loaded_setUpTypes H expectedObjectTypeNamespaces namespaceInformations namespaces
  exact (congrArg NodeDefinition.specifiedBrowseName
    (hst.updated_updateTypeMap.definition n)).trans (hst.setUp.heap.browseName hn)

/-- What flattening leaves in a list was browsed. -/
theorem lt_of_mem_flattened {l n : NodeRef}
    (hn : n ∈ H.flattened expectedObjectTypeNamespaces namespaces l) : n < H.heap.next :=
  (loaded_setUpTypes H expectedObjectTypeNamespaces [] namespaces).lt_of_mem hn

end ReadTypes

/-- A type with a mandatory child `b` that has a child `g`; the type of `b` has no children. -/
def expandableChildHierarchy : TypeHierarchy where
  variableTypes := []
  objectTypes :=
    [.node (reference .objectType "U" "U" WellKnown.missingType) .none [],
      .node (reference .objectType "T" "T" WellKnown.missingType) .none
        [.node (reference .object "T.b" "b" ⟨"urn:m", "U"⟩) .mandatory
          [.node (reference .variable "T.b.g" "g" WellKnown.missingType) .mandatory []]]]

end OpcUaTypeReader

end UmatiDashboard
