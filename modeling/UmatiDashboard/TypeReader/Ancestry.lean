import UmatiDashboard.TypeReader.TypeEntries
import UmatiDashboard.TypeReader.LoadedTypes

/-!
# Types and their supertypes

What a server says of a type by itself is its node and the children that it declares
(`DeclaredType`); the **ancestry** of a type is the type with its supertypes, up to the starting
point. In a `Forest` every type is found once, and none is found below an instance declaration.

The bloodline that browsing leaves for a type in a forest says what the ancestry of the type says
(`Forest.exists_line`).
-/

namespace UmatiDashboard

namespace BrowseTree

/-- The reference leads to a type. -/
def isType (t : BrowseTree) : Bool := TypeBrowse.isTypeClass t.entry.nodeClass

mutual

/-- No type stands below an instance declaration. -/
def typesOnTop : BrowseTree → Bool
  | .node entry _ references =>
    if TypeBrowse.isTypeClass entry.nodeClass then typesOnTopAll references
    else (typesFoundAll references).isEmpty

def typesOnTopAll : List BrowseTree → Bool
  | [] => true
  | t :: ts => t.typesOnTop && typesOnTopAll ts

end

end BrowseTree

/-- A type by itself: the reference to it, and the children that it declares. -/
structure DeclaredType where
  entry : BrowseResult
  modellingRule : ModellingRule
  children : List BrowseTree

namespace BrowseTree

/-- What the root of a tree is and declares. -/
def declared : BrowseTree → DeclaredType
  | .node entry modellingRule references =>
    ⟨entry, modellingRule, references.filter fun child => !child.isType⟩

mutual

/-- The types in a tree, each with its supertypes (the type first). -/
def ancestries (supertypes : List DeclaredType) : BrowseTree → List (List DeclaredType)
  | t@(.node entry _ references) =>
    if TypeBrowse.isTypeClass entry.nodeClass then
      (t.declared :: supertypes) :: ancestriesAll (t.declared :: supertypes) references
    else []

def ancestriesAll (supertypes : List DeclaredType) : List BrowseTree → List (List DeclaredType)
  | [] => []
  | t :: ts => t.ancestries supertypes ++ ancestriesAll supertypes ts

end

end BrowseTree

namespace TypeHierarchy

variable (H : TypeHierarchy)

/-- The two starting points with everything below them. -/
def roots : List BrowseTree :=
  [TypeBrowse.startTree WellKnown.baseVariableType H.variableTypes,
    TypeBrowse.startTree WellKnown.baseObjectType H.objectTypes]

/-- The types of a hierarchy, each with its supertypes. -/
def ancestries : List (List DeclaredType) := BrowseTree.ancestriesAll [] H.roots

/-- **A forest of types**: every type is found once, and what is found below an instance
declaration is no type. -/
structure Forest : Prop where
  nodup : H.typesFound.Nodup
  typesOnTop : BrowseTree.typesOnTopAll H.roots = true

end TypeHierarchy

/-! ### What browsing leaves of a tree -/

namespace TypeBrowse

theorem nodes_handleBrowseTypeResult (st : TypeBrowse) (entry : BrowseResult)
    (rule : ModellingRule) (flag : Bool) :
    (st.handleBrowseTypeResult entry rule flag).2.heap.next = st.heap.next + 1 ∧
      (st.handleBrowseTypeResult entry rule flag).2.heap.nodes =
        Function.update st.heap.nodes st.heap.next (newNode entry rule flag st.heap.next) := by
  simp only [handleBrowseTypeResult]
  split_ifs
  · exact ⟨rfl, rfl⟩
  · exact ⟨rfl, rfl⟩

mutual

/-- Browsing changes none of the nodes that are there. -/
theorem nodes_browseTree (flag : Bool) : ∀ (t : BrowseTree) (st : TypeBrowse),
    st.heap.next ≤ (browseTree flag t st).2.heap.next ∧
      ∀ r < st.heap.next, (browseTree flag t st).2.heap.nodes r = st.heap.nodes r
  | .node entry rule references, st => by
    obtain ⟨hnext, hnodes⟩ := nodes_handleBrowseTypeResult st entry rule flag
    obtain ⟨hle, hbelow⟩ := nodes_browseTypes flag references
      (st.handleBrowseTypeResult entry rule flag).2
    rw [hnext] at hle hbelow
    refine ⟨Nat.le_of_succ_le hle, fun r hr => ?_⟩
    exact (hbelow r (Nat.lt_succ_of_lt hr)).trans
      ((congrFun hnodes r).trans (Function.update_of_ne (Nat.ne_of_lt hr) ..))

theorem nodes_browseTypes (flag : Bool) : ∀ (ts : List BrowseTree) (st : TypeBrowse),
    st.heap.next ≤ (browseTypes flag ts st).2.heap.next ∧
      ∀ r < st.heap.next, (browseTypes flag ts st).2.heap.nodes r = st.heap.nodes r
  | [], st => ⟨Nat.le_refl _, fun _ _ => rfl⟩
  | t :: ts, st => by
    obtain ⟨hle, hfirst⟩ := nodes_browseTree flag t st
    obtain ⟨hle', hrest⟩ := nodes_browseTypes flag ts (browseTree flag t st).2
    refine ⟨Nat.le_trans hle hle', fun r hr => ?_⟩
    exact (hrest r (Nat.lt_of_lt_of_le hr hle)).trans (hfirst r hr)

end

end TypeBrowse

/-- Two nodes are the same, but for what is below them. -/
def TypeHeap.SameDefinition (h h' : TypeHeap) (n n' : NodeRef) : Prop :=
  (h.nodes n).toNodeDefinition = (h'.nodes n').toNodeDefinition

namespace BrowseTree

/-- What a type says about the node of a reference. -/
def definition (entry : BrowseResult) (modellingRule : ModellingRule) : NodeDefinition :=
  ⟨modellingRule, entry.nodeClass, entry.referenceTypeId, entry.typeDefinition, entry.browseName⟩

mutual

/-- **A tree that was filed** in full: each type in it was entered. -/
def Browsed (h : TypeHeap) : BrowseTree → StructureBiNode → Prop
  | .node entry modellingRule references, .mk n i isType _ children =>
    (h.nodes n).toNodeDefinition = definition entry modellingRule ∧ i = entry.nodeId ∧
      isType = TypeBrowse.isTypeClass entry.nodeClass ∧ BrowsedAll h references children

def BrowsedAll (h : TypeHeap) : List BrowseTree → List StructureBiNode → Prop
  | [], [] => True
  | t :: ts, b :: bs => Browsed h t b ∧ BrowsedAll h ts bs
  | _, _ => False

end

variable {h : TypeHeap}

mutual

/-- Browsing enters every type of a tree if each of them is found for the first time. -/
theorem browsed_browseTree (flag : Bool) : ∀ (t : BrowseTree) (st : TypeBrowse),
    t.typesFound.Nodup → (∀ x ∈ t.typesFound, x ∉ st.types) →
    (∀ r < (TypeBrowse.browseTree flag t st).2.heap.next,
      h.nodes r = (TypeBrowse.browseTree flag t st).2.heap.nodes r) →
    Browsed h t (TypeBrowse.browseTree flag t st).1
  | .node entry rule references, st, hnodup, hnew, hnodes => by
    obtain ⟨hnext, hset⟩ := TypeBrowse.nodes_handleBrowseTypeResult st entry rule flag
    obtain ⟨hle, hbelow⟩ := TypeBrowse.nodes_browseTypes flag references
      (st.handleBrowseTypeResult entry rule flag).2
    rw [hnext] at hle hbelow
    rw [typesFound] at hnodup hnew
    have hentered : (st.handleBrowseTypeResult entry rule flag).1 =
        (st.heap.next, TypeBrowse.isTypeClass entry.nodeClass) := by
      cases hclass : TypeBrowse.isTypeClass entry.nodeClass with
      | false => simp [TypeBrowse.handleBrowseTypeResult, hclass]
      | true =>
        have hcontains : st.types.contains entry.nodeId = false := by
          rw [Bool.eq_false_iff, Ne, Std.ExtTreeSet.contains_iff_mem]
          exact hnew _ (by simp [hclass])
        simp [TypeBrowse.handleBrowseTypeResult, hclass, hcontains]
    simp only [TypeBrowse.browseTree, Browsed, hentered]
    refine ⟨?_, trivial, trivial,
      browsedAll_browseTypes flag references _ (List.nodup_append.mp hnodup).2.1
        (fun x hx hfiled => ?_) hnodes⟩
    · -- the node was allocated first, and stays
      have hlt : st.heap.next < (TypeBrowse.browseTree flag (.node entry rule references)
          st).2.heap.next := hle
      rw [hnodes _ hlt]
      have hself := (hbelow st.heap.next (Nat.lt_succ_self _)).trans
        ((congrFun hset _).trans (Function.update_self ..))
      exact congrArg StructureNode.toNodeDefinition hself
    · rw [(TypeBrowse.mem_types_handleBrowseTypeResult st entry rule flag x).1] at hfiled
      rcases hfiled with hold | ⟨hclass, rfl⟩
      · exact hnew x (List.mem_append_right _ hx) hold
      · exact (List.nodup_append.mp hnodup).2.2 entry.nodeId (by simp [hclass]) _ hx rfl

theorem browsedAll_browseTypes (flag : Bool) : ∀ (ts : List BrowseTree) (st : TypeBrowse),
    (typesFoundAll ts).Nodup → (∀ x ∈ typesFoundAll ts, x ∉ st.types) →
    (∀ r < (TypeBrowse.browseTypes flag ts st).2.heap.next,
      h.nodes r = (TypeBrowse.browseTypes flag ts st).2.heap.nodes r) →
    BrowsedAll h ts (TypeBrowse.browseTypes flag ts st).1
  | [], _, _, _, _ => trivial
  | t :: ts, st, hnodup, hnew, hnodes => by
    rw [typesFoundAll] at hnodup hnew
    obtain ⟨hfirst, hrest, hapart⟩ := List.nodup_append.mp hnodup
    obtain ⟨hle, hkept⟩ := TypeBrowse.nodes_browseTypes flag ts
      (TypeBrowse.browseTree flag t st).2
    refine ⟨browsed_browseTree flag t st hfirst
      (fun x hx => hnew x (List.mem_append_left _ hx)) fun r hr => ?_,
      browsedAll_browseTypes flag ts _ hrest (fun x hx hfiled => ?_) hnodes⟩
    · exact (hnodes r (Nat.lt_of_lt_of_le hr hle)).trans (hkept r hr)
    · rw [(TypeBrowse.mem_types_browseTree flag x t st).1] at hfiled
      rcases hfiled with hold | hfound
      · exact hnew x (List.mem_append_right _ hx) hold
      · exact hapart x hfound x hx rfl

end

mutual

theorem Browsed.typeIds : ∀ {t : BrowseTree} {b : StructureBiNode}, Browsed h t b →
    b.typeIds = t.typesFound
  | .node entry rule references, .mk n i isType o children, hb => by
    obtain ⟨-, rfl, rfl, hchildren⟩ := hb
    rw [StructureBiNode.typeIds, typesFound, BrowsedAll.typeIds hchildren]

theorem BrowsedAll.typeIds : ∀ {ts : List BrowseTree} {bs : List StructureBiNode},
    BrowsedAll h ts bs → StructureBiNode.typeIdsAll bs = typesFoundAll ts
  | [], [], _ => rfl
  | t :: ts, b :: bs, hbs => by
    rw [StructureBiNode.typeIdsAll, typesFoundAll, hbs.1.typeIds, BrowsedAll.typeIds hbs.2]

end

theorem Browsed.isType {t : BrowseTree} {b : StructureBiNode} (hb : Browsed h t b) :
    b.isType = t.isType := by
  cases t
  cases b
  exact hb.2.2.1

theorem BrowsedAll.append : ∀ {ts ts' : List BrowseTree} {bs bs' : List StructureBiNode},
    BrowsedAll h ts bs → BrowsedAll h ts' bs' → BrowsedAll h (ts ++ ts') (bs ++ bs')
  | [], _, [], _, _, hbs' => hbs'
  | _ :: _, _, _ :: _, _, hbs, hbs' => ⟨hbs.1, hbs.2.append hbs'⟩

/-- What was filed twice is the same on both heaps. -/
theorem BrowsedAll.sameDefinition {h' : TypeHeap} : ∀ {ts : List BrowseTree}
    {bs bs' : List StructureBiNode}, BrowsedAll h ts bs → BrowsedAll h' ts bs' →
    List.Forall₂ (h.SameDefinition h') (bs.map StructureBiNode.structureNode)
      (bs'.map StructureBiNode.structureNode)
  | [], [], [], _, _ => .nil
  | .node _ _ _ :: _, .mk .. :: _, .mk .. :: _, hbs, hbs' =>
    .cons (hbs.1.1.trans hbs'.1.1.symm) (hbs.2.sameDefinition hbs'.2)

/-- The children that are not types. -/
theorem BrowsedAll.filter : ∀ {ts : List BrowseTree} {bs : List StructureBiNode},
    BrowsedAll h ts bs →
    BrowsedAll h (ts.filter fun t => !t.isType) (bs.filter fun b => !b.isType)
  | [], [], _ => trivial
  | t :: ts, b :: bs, hbs => by
    have hrest := hbs.2.filter
    rw [List.filter_cons, List.filter_cons, hbs.1.isType]
    cases t.isType with
    | true => exact hrest
    | false => exact ⟨hbs.1, hrest⟩

end BrowseTree

/-! ### Bloodlines and ancestries -/

open BrowseTree

/-- A type on the heap is what the server says of it. -/
structure DeclaredType.Filed (h : TypeHeap) (b : StructureBiNode) (type : DeclaredType) :
    Prop where
  definition : (h.nodes b.structureNode).toNodeDefinition =
    BrowseTree.definition type.entry type.modellingRule
  nodeId : b.nodeId = type.entry.nodeId
  isTypeClass : TypeBrowse.isTypeClass type.entry.nodeClass = true
  isType : b.isType = true
  children : BrowsedAll h type.children (b.specifiedBiChildNodes.filter fun c => !c.isType)

namespace DeclaredType

variable {h : TypeHeap} {line : List StructureBiNode} {a : List DeclaredType}

/-- **The declarations of a bloodline** are what its ancestry declares, from the root down. -/
theorem browsedAll_declarations (hline : List.Forall₂ (Filed h) line a) :
    BrowsedAll h (a.reverse.flatMap children) (StructureBiNode.declarations line) := by
  induction hline with
  | nil => exact trivial
  | @cons b type up supertypes hfiled _ ih =>
    rw [StructureBiNode.declarations_cons, List.reverse_cons, List.flatMap_append,
      List.flatMap_singleton]
    exact ih.append hfiled.children

/-- Two bloodlines of the same ancestry declare the same. -/
theorem sameDefinition_declaredRefs {h' : TypeHeap} {line' : List StructureBiNode}
    (hline : List.Forall₂ (Filed h) line a) (hline' : List.Forall₂ (Filed h') line' a) :
    List.Forall₂ (h.SameDefinition h') (StructureBiNode.declaredRefs line)
      (StructureBiNode.declaredRefs line') :=
  (browsedAll_declarations hline).sameDefinition (browsedAll_declarations hline')

end DeclaredType

namespace BrowseTree

variable {h : TypeHeap}

mutual

/-- Every ancestry in a tree is that of a bloodline. -/
theorem exists_line_of_mem_ancestries {a : List DeclaredType} : ∀ {t : BrowseTree}
    {b : StructureBiNode} {up : List StructureBiNode} {supertypes : List DeclaredType},
    Browsed h t b → List.Forall₂ (DeclaredType.Filed h) up supertypes →
    a ∈ t.ancestries supertypes →
    ∃ p ∈ b.typesBelow up, List.Forall₂ (DeclaredType.Filed h) p.2 a
  | .node entry rule references, .mk n i isType o children, up, supertypes, hb, hup, ha => by
    obtain ⟨hdefinition, rfl, rfl, hchildren⟩ := hb
    rw [ancestries] at ha
    split_ifs at ha with hclass
    · rw [StructureBiNode.typesBelow, if_pos hclass]
      have hself : DeclaredType.Filed h (.mk n entry.nodeId (TypeBrowse.isTypeClass
          entry.nodeClass) o children) (declared (.node entry rule references)) :=
        ⟨hdefinition, rfl, hclass, hclass, hchildren.filter⟩
      rcases List.mem_cons.mp ha with rfl | ha
      · exact ⟨_, List.mem_cons_self, .cons hself hup⟩
      · obtain ⟨p, hp, hline⟩ := exists_line_of_mem_ancestriesAll hchildren (.cons hself hup) ha
        exact ⟨p, List.mem_cons_of_mem _ hp, hline⟩
    · exact absurd ha List.not_mem_nil

theorem exists_line_of_mem_ancestriesAll {a : List DeclaredType} : ∀ {ts : List BrowseTree}
    {bs : List StructureBiNode} {up : List StructureBiNode} {supertypes : List DeclaredType},
    BrowsedAll h ts bs → List.Forall₂ (DeclaredType.Filed h) up supertypes →
    a ∈ ancestriesAll supertypes ts →
    ∃ p ∈ StructureBiNode.typesBelowAll up bs, List.Forall₂ (DeclaredType.Filed h) p.2 a
  | [], _, _, _, _, _, ha => absurd ha List.not_mem_nil
  | t :: ts, b :: bs, up, supertypes, hbs, hup, ha => by
    rw [ancestriesAll, List.mem_append] at ha
    rw [StructureBiNode.typesBelowAll]
    rcases ha with ha | ha
    · obtain ⟨p, hp, hline⟩ := exists_line_of_mem_ancestries hbs.1 hup ha
      exact ⟨p, List.mem_append_left _ hp, hline⟩
    · obtain ⟨p, hp, hline⟩ := exists_line_of_mem_ancestriesAll hbs.2 hup ha
      exact ⟨p, List.mem_append_right _ hp, hline⟩

end

mutual

/-- Above a type of a tree there are types. -/
theorem typesAboveTypes_of_browsed : ∀ {t : BrowseTree} {b : StructureBiNode}
    {up : List StructureBiNode}, Browsed h t b → t.typesOnTop = true →
    (∀ a ∈ up, a.isType = true) → ∀ p ∈ b.typesBelow up, ∀ a ∈ p.2, a.isType = true
  | .node entry rule references, .mk n i isType o children, up, hb, htop, hup, p, hp => by
    obtain ⟨-, rfl, rfl, hchildren⟩ := hb
    rw [typesOnTop] at htop
    rw [StructureBiNode.typesBelow] at hp
    split_ifs at htop with hclass
    · rw [if_pos hclass] at hp
      have hup' : ∀ a ∈ StructureBiNode.mk n entry.nodeId
          (TypeBrowse.isTypeClass entry.nodeClass) o children :: up, a.isType = true :=
        List.forall_mem_cons.mpr ⟨hclass, hup⟩
      rcases List.mem_cons.mp hp with rfl | hp
      · exact hup'
      · exact typesAboveTypes_of_browsedAll hchildren htop hup' p hp
    · -- below an instance declaration nothing was entered
      have hnone : StructureBiNode.typeIdsAll children = [] :=
        hchildren.typeIds.trans (List.isEmpty_iff.mp htop)
      rw [if_neg hclass] at hp
      have hmem := List.mem_map_of_mem (f := Prod.fst) hp
      rw [StructureBiNode.map_fst_typesBelowAll, hnone] at hmem
      exact absurd hmem List.not_mem_nil

theorem typesAboveTypes_of_browsedAll : ∀ {ts : List BrowseTree} {bs : List StructureBiNode}
    {up : List StructureBiNode}, BrowsedAll h ts bs → typesOnTopAll ts = true →
    (∀ a ∈ up, a.isType = true) →
    ∀ p ∈ StructureBiNode.typesBelowAll up bs, ∀ a ∈ p.2, a.isType = true
  | [], [], _, _, _, _, _, hp => absurd hp List.not_mem_nil
  | t :: ts, b :: bs, up, hbs, htop, hup, p, hp => by
    rw [typesOnTopAll, Bool.and_eq_true] at htop
    rw [StructureBiNode.typesBelowAll, List.mem_append] at hp
    rcases hp with hp | hp
    · exact typesAboveTypes_of_browsed hbs.1 htop.1 hup p hp
    · exact typesAboveTypes_of_browsedAll hbs.2 htop.2 hup p hp

end

end BrowseTree

namespace TypeHierarchy

open StructureBiNode

variable {H : TypeHierarchy}

/-- Browsing a forest files it in full. -/
theorem Forest.browsed (hH : H.Forest) : BrowsedAll H.heap H.roots (H.browse ∅).1 := by
  have hnodup := hH.nodup
  obtain ⟨hfirst, hsecond, hapart⟩ := List.nodup_append.mp hnodup
  obtain ⟨-, hkept⟩ := TypeBrowse.nodes_browseTree false
    (TypeBrowse.startTree WellKnown.baseObjectType H.objectTypes)
    (TypeBrowse.browseTree true
      (TypeBrowse.startTree WellKnown.baseVariableType H.variableTypes) (.start ∅)).2
  refine ⟨browsed_browseTree true _ _ hfirst (fun x _ => by simp [TypeBrowse.start]) hkept,
    browsed_browseTree false _ _ hsecond (fun x hx hfiled => ?_) fun _ _ => rfl, trivial⟩
  rw [(TypeBrowse.mem_types_browseTree true x _ _).1] at hfiled
  rcases hfiled with hold | hfound
  · simp [TypeBrowse.start] at hold
  · exact hapart x hfound x hx rfl

theorem Forest.typesAboveTypes (hH : H.Forest) : H.TypesAboveTypes :=
  typesAboveTypes_of_browsedAll hH.browsed hH.typesOnTop (by simp)

/-- **The bloodline of a type** in a forest says what its ancestry says. -/
theorem Forest.exists_line (hH : H.Forest) {type : DeclaredType} {supertypes : List DeclaredType}
    (ha : type :: supertypes ∈ H.ancestries) :
    ∃ (b : StructureBiNode) (up : List StructureBiNode),
      H.types[type.entry.nodeId]? = some (b :: up) ∧ b :: up ∈ H.chains ∧
        type.Filed H.heap b ∧ List.Forall₂ (DeclaredType.Filed H.heap) up supertypes := by
  obtain ⟨⟨x, line⟩, hmem, hline⟩ := exists_line_of_mem_ancestriesAll hH.browsed .nil ha
  obtain ⟨hchain, b, up, rfl, -, rfl⟩ := (mem_typesBelowAll [] x line _).mp hmem
  obtain ⟨hself, hup⟩ := List.forall₂_cons.mp hline
  refine ⟨b, up, ?_, hchain, hself, hup⟩
  rw [← hself.nodeId]
  exact getElem?_types hmem

end TypeHierarchy

end UmatiDashboard
