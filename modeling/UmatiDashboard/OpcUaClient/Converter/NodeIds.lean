import UmatiDashboard.OpcUaClient.Namespaces
import UmatiDashboard.OpcUaClient.Services

/-!
# Converting node ids and browse names

A node id of the stack has the index of its namespace, one of the model the URI. The identifier in
it is written by the stack when it goes into the model, with the namespace index put to zero, and
read by the stack on its way back. A URI or an index that the namespace cache does not know ends in
namespace zero, in both directions.

So an id comes back if and only if its namespace is zero or has a URI in the cache
(`modelNodeIdToUaNodeId_uaNodeIdToModelNodeId`), and two ids are told apart unless only their
namespaces differ and neither has a URI (`uaNodeIdToModelNodeId_eq_iff`).
-/

namespace UmatiDashboard

/-- How the stack writes an identifier, and how it reads it. A text that it cannot read is read as
`null`. -/
structure IdentifierText (ι : Type) where
  null : ι
  print : ι → String
  parse : String → ι
  parse_print : ∀ i, parse (print i) = i

/-- A node id of the stack. -/
structure UaIndexedNodeId (ι : Type) where
  nsIndex : UInt16
  identifier : ι
  deriving DecidableEq

namespace IdentifierText

variable {ι : Type} (text : IdentifierText ι)

theorem print_injective : Function.Injective text.print :=
  Function.LeftInverse.injective text.parse_print

/-- The node id in a reference, the null id if there is none. -/
def idOf (nodeId : Option (UaIndexedNodeId ι)) : UaIndexedNodeId ι := nodeId.getD ⟨0, text.null⟩

/-- Strings, for identifiers without a null one of their own. -/
def strings : IdentifierText String where
  null := ""
  print s := String.ofList ('s' :: '=' :: s.toList)
  parse s := String.ofList (s.toList.drop 2)
  parse_print s := by simp

end IdentifierText

namespace NamespaceCache

variable {ι : Type} (text : IdentifierText ι) (cache : NamespaceCache)

/-! ### The conversions -/

def uaNodeIdToModelNodeId (nodeId : UaIndexedNodeId ι) : NodeId :=
  ⟨cache.getUriFromNsIndex nodeId.nsIndex, text.print nodeId.identifier⟩

def modelNodeIdToUaNodeId (modelNodeId : NodeId) : UaIndexedNodeId ι :=
  ⟨cache.getNsIndexFromUri modelNodeId.uri, text.parse modelNodeId.id⟩

def uaQualifiedNameToModelQualifiedName (qualifiedName : UInt16 × String) : QualifiedName :=
  ⟨cache.getUriFromNsIndex qualifiedName.1, qualifiedName.2⟩

def modelQualifiedNameToUaQualifiedName (modelQualifiedName : QualifiedName) : UInt16 × String :=
  (cache.getNsIndexFromUri modelQualifiedName.uri, modelQualifiedName.name)

/-- Views are rejected. -/
def uaNodeClassToModelNodeClass : NodeClass → Except Exception NodeClass
  | .view => .error (.umati "Incompatible NodeClass")
  | nodeClass => .ok nodeClass

/-- `ReferenceDescriptionToBrowseResult` -/
def referenceToBrowseResult (ref : UaReferenceDescription (UaIndexedNodeId ι)) :
    Except Exception BrowseResult := do
  let nodeClass ← uaNodeClassToModelNodeClass ref.nodeClass
  pure {
    nodeClass := nodeClass
    typeDefinition := cache.uaNodeIdToModelNodeId text (text.idOf ref.typeDefinition)
    nodeId := cache.uaNodeIdToModelNodeId text (text.idOf ref.nodeId)
    referenceTypeId := cache.uaNodeIdToModelNodeId text (text.idOf ref.referenceTypeId)
    browseName := cache.uaQualifiedNameToModelQualifiedName ref.browseName }

variable {text cache}

/-- A conversion that succeeds keeps the node. -/
theorem nodeId_referenceToBrowseResult {ref : UaReferenceDescription (UaIndexedNodeId ι)}
    {entry : BrowseResult} (h : cache.referenceToBrowseResult text ref = .ok entry) :
    entry.nodeId = cache.uaNodeIdToModelNodeId text (text.idOf ref.nodeId) := by
  unfold referenceToBrowseResult at h
  cases hclass : uaNodeClassToModelNodeClass ref.nodeClass with
  | error e =>
    rw [hclass] at h
    cases h
  | ok nodeClass =>
    rw [hclass] at h
    cases h
    rfl

/-! ### Namespaces with a URI -/

/-- The namespace is zero, or has a URI in the cache. -/
def Known (cache : NamespaceCache) (nsIndex : UInt16) : Prop :=
  nsIndex = 0 ∨ ∃ uri, uri ≠ "" ∧ cache.indexToUri[nsIndex]? = some uri

/-- The URI is empty, or has an index in the cache. -/
def Resolves (cache : NamespaceCache) (uri : String) : Prop := uri = "" ∨ uri ∈ cache.uriToIndex

theorem getUriFromNsIndex_of_not_known {nsIndex : UInt16} (h : ¬ cache.Known nsIndex) :
    cache.getUriFromNsIndex nsIndex = "" := by
  unfold getUriFromNsIndex
  split_ifs with hzero
  · rfl
  cases huri : cache.indexToUri[nsIndex]? with
  | none => rfl
  | some uri =>
    by_contra hne
    exact h (.inr ⟨uri, hne, huri⟩)

theorem getUriFromNsIndex_ne_empty {nsIndex : UInt16} (h : cache.Known nsIndex)
    (hzero : nsIndex ≠ 0) : cache.getUriFromNsIndex nsIndex ≠ "" := by
  obtain ⟨uri, hne, huri⟩ := h.resolve_left hzero
  rw [getUriFromNsIndex, if_neg hzero, huri]
  exact hne

@[simp] theorem getNsIndexFromUri_empty : cache.getNsIndexFromUri "" = 0 := rfl

theorem getNsIndexFromUri_of_ne {uri : String} (h : uri ≠ "") :
    cache.getNsIndexFromUri uri = cache.uriToIndex[uri]?.getD 0 := by
  rw [getNsIndexFromUri, if_neg (by simpa using h)]

/-- **An index comes back** if and only if its namespace is known. -/
theorem getNsIndexFromUri_getUriFromNsIndex (hinv : cache.Inverse) {nsIndex : UInt16} :
    cache.getNsIndexFromUri (cache.getUriFromNsIndex nsIndex) = nsIndex ↔ cache.Known nsIndex := by
  by_cases hzero : nsIndex = 0
  · subst hzero
    exact iff_of_true rfl (.inl rfl)
  constructor
  · intro h
    by_contra hknown
    rw [getUriFromNsIndex_of_not_known hknown, getNsIndexFromUri_empty] at h
    exact hzero h.symm
  · intro h
    obtain ⟨uri, hne, huri⟩ := h.resolve_left hzero
    rw [getUriFromNsIndex, if_neg hzero, huri, Option.getD_some, getNsIndexFromUri_of_ne hne,
      (hinv uri nsIndex).mpr huri, Option.getD_some]

/-- The URI of a namespace resolves. -/
theorem resolves_getUriFromNsIndex (hinv : cache.Inverse) (nsIndex : UInt16) :
    cache.Resolves (cache.getUriFromNsIndex nsIndex) := by
  by_cases hknown : cache.Known nsIndex
  · rcases hknown with rfl | ⟨uri, hne, huri⟩
    · exact .inl rfl
    · unfold getUriFromNsIndex
      split_ifs
      · exact .inl rfl
      · rw [huri, Option.getD_some]
        have hmem := (hinv uri nsIndex).mpr huri
        exact .inr (Std.ExtTreeMap.isSome_getElem?_iff_mem.mp (by rw [hmem]; rfl))
  · exact .inl (getUriFromNsIndex_of_not_known hknown)

theorem getUriFromNsIndex_eq_empty {nsIndex : UInt16} :
    cache.getUriFromNsIndex nsIndex = "" ↔ nsIndex = 0 ∨ ¬ cache.Known nsIndex := by
  constructor
  · intro h
    by_contra hnot
    rw [not_or, not_not] at hnot
    exact getUriFromNsIndex_ne_empty hnot.2 hnot.1 h
  · rintro (rfl | hnot)
    · rfl
    · exact getUriFromNsIndex_of_not_known hnot

/-- A known namespace stays known, with the same URI. -/
theorem Known.of_extends {old new : NamespaceCache} {nsIndex : UInt16} (h : old.Known nsIndex)
    (hext : old.Extends new) :
    new.Known nsIndex ∧ new.getUriFromNsIndex nsIndex = old.getUriFromNsIndex nsIndex := by
  rcases h with rfl | ⟨uri, hne, huri⟩
  · exact ⟨.inl rfl, rfl⟩
  · have huri' := hext.1 nsIndex uri huri
    refine ⟨.inr ⟨uri, hne, huri'⟩, ?_⟩
    rw [getUriFromNsIndex, getUriFromNsIndex, huri, huri']

/-- A URI that resolves keeps its index. -/
theorem Resolves.of_extends {old new : NamespaceCache} {uri : String} (h : old.Resolves uri)
    (hext : old.Extends new) :
    new.Resolves uri ∧ new.getNsIndexFromUri uri = old.getNsIndexFromUri uri := by
  rcases h with rfl | hmem
  · exact ⟨.inl rfl, rfl⟩
  · obtain ⟨hmem', hindex⟩ := hext.getNsIndexFromUri hmem
    exact ⟨.inr hmem', hindex⟩

/-- When an index and a later one have the same URI: if they are the same one, or if neither has a
URI. -/
theorem getUriFromNsIndex_eq_iff {old new : NamespaceCache} (hnew : new.Inverse)
    (hext : old.Extends new) {i j : UInt16} :
    old.getUriFromNsIndex i = new.getUriFromNsIndex j ↔
      (old.Known i ∧ i = j) ∨ ((i = 0 ∨ ¬ old.Known i) ∧ (j = 0 ∨ ¬ new.Known j)) := by
  rw [← getUriFromNsIndex_eq_empty, ← getUriFromNsIndex_eq_empty]
  constructor
  · intro h
    by_cases hempty : old.getUriFromNsIndex i = ""
    · exact .inr ⟨hempty, h ▸ hempty⟩
    have hempty' : ¬ new.getUriFromNsIndex j = "" := h ▸ hempty
    rw [getUriFromNsIndex_eq_empty, not_or, not_not] at hempty hempty'
    obtain ⟨hknown, hsame⟩ := hempty.2.of_extends hext
    refine .inl ⟨hempty.2, ?_⟩
    rw [← (getNsIndexFromUri_getUriFromNsIndex hnew).mpr hknown, hsame, h,
      (getNsIndexFromUri_getUriFromNsIndex hnew).mpr hempty'.2]
  · rintro (⟨hknown, rfl⟩ | ⟨hi, hj⟩)
    · exact (hknown.of_extends hext).2.symm
    · rw [hi, hj]

/-! ### Round trips -/

/-- **A node id comes back** if and only if its namespace is known. -/
theorem modelNodeIdToUaNodeId_uaNodeIdToModelNodeId (hinv : cache.Inverse)
    {nodeId : UaIndexedNodeId ι} :
    cache.modelNodeIdToUaNodeId text (cache.uaNodeIdToModelNodeId text nodeId) = nodeId ↔
      cache.Known nodeId.nsIndex := by
  obtain ⟨nsIndex, identifier⟩ := nodeId
  rw [← getNsIndexFromUri_getUriFromNsIndex hinv]
  simp only [modelNodeIdToUaNodeId, uaNodeIdToModelNodeId, text.parse_print,
    UaIndexedNodeId.mk.injEq, and_true]

/-- **Which node ids are told apart**, the second one converted later. -/
theorem uaNodeIdToModelNodeId_eq_iff {old new : NamespaceCache} (hnew : new.Inverse)
    (hext : old.Extends new) {nodeId nodeId' : UaIndexedNodeId ι} :
    old.uaNodeIdToModelNodeId text nodeId = new.uaNodeIdToModelNodeId text nodeId' ↔
      nodeId.identifier = nodeId'.identifier ∧
        ((old.Known nodeId.nsIndex ∧ nodeId.nsIndex = nodeId'.nsIndex) ∨
          ((nodeId.nsIndex = 0 ∨ ¬ old.Known nodeId.nsIndex) ∧
            (nodeId'.nsIndex = 0 ∨ ¬ new.Known nodeId'.nsIndex))) := by
  simp only [uaNodeIdToModelNodeId, NodeId.mk.injEq, getUriFromNsIndex_eq_iff hnew hext,
    text.print_injective.eq_iff, and_comm]

/-- What comes back of a URI. -/
theorem getUriFromNsIndex_getNsIndexFromUri (hinv : cache.Inverse) (uri : String) :
    cache.getUriFromNsIndex (cache.getNsIndexFromUri uri) =
      if cache.getNsIndexFromUri uri = 0 then "" else uri := by
  by_cases hempty : uri = ""
  · subst hempty
    rfl
  rw [getUriFromNsIndex]
  split_ifs with hzero
  · rfl
  rw [getNsIndexFromUri_of_ne hempty] at hzero ⊢
  cases hindex : cache.uriToIndex[uri]? with
  | none =>
    rw [hindex] at hzero
    exact absurd rfl hzero
  | some i =>
    rw [Option.getD_some, (hinv uri i).mp hindex, Option.getD_some]

/-- **A node id of the model comes back** as it was, or as one that `operator==` takes for it. -/
theorem uaNodeIdToModelNodeId_modelNodeIdToUaNodeId (hinv : cache.Inverse) (n : NodeId) :
    (cache.uaNodeIdToModelNodeId text (cache.modelNodeIdToUaNodeId text n) = n ↔
      text.print (text.parse n.id) = n.id ∧ (n.uri = "" ∨ cache.getNsIndexFromUri n.uri ≠ 0)) ∧
    ((cache.uaNodeIdToModelNodeId text (cache.modelNodeIdToUaNodeId text n)).equals n = true ↔
      text.print (text.parse n.id) = n.id ∧
        (n.uri = "" ∨ n.uri = NodeId.defaultUri ∨ cache.getNsIndexFromUri n.uri ≠ 0)) := by
  obtain ⟨uri, id⟩ := n
  simp only [uaNodeIdToModelNodeId, modelNodeIdToUaNodeId, NodeId.mk.injEq, NodeId.equals,
    NodeId.cmpUri, Bool.and_eq_true, beq_iff_eq, getUriFromNsIndex_getNsIndexFromUri hinv,
    and_comm (a := text.print (text.parse id) = id)]
  refine ⟨and_congr_left fun _ => ?_, and_congr_left fun _ => ?_⟩
  · by_cases hzero : cache.getNsIndexFromUri uri = 0
    · simp [hzero, eq_comm]
    · simp [hzero]
  · by_cases hzero : cache.getNsIndexFromUri uri = 0
    · by_cases hempty : uri = ""
      · simp [hempty]
      · simp [hzero, hempty, eq_comm]
    · simp [hzero]

end NamespaceCache

/-! ### Ids in the runs of a client -/

namespace NamespaceState

open NamespaceCache

variable {ι : Type} (text : IdentifierText ι)

/-- A run without a reset extends the cache. -/
theorem extends_after {tables later : List (List String)}
    (hsize : ∀ uaNamespaces ∈ tables ++ later, uaNamespaces.length ≤ 65536)
    (hreset : (initial.after (tables ++ later)).resets = (initial.after tables).resets) :
    (initial.after (tables ++ later)).cache.Inverse ∧
      (initial.after tables).cache.Extends (initial.after (tables ++ later)).cache := by
  have happend : initial.after (tables ++ later) = (initial.after tables).after later :=
    List.foldl_append
  have hinv : (initial.after tables).cache.Inverse :=
    (after_spec tables inverse_empty fun t ht => hsize t (List.mem_append_left _ ht)).1
  obtain ⟨hinv', -, hext⟩ := after_spec later hinv fun t ht => hsize t (List.mem_append_right _ ht)
  rw [happend] at hreset ⊢
  exact ⟨hinv', hext hreset⟩

/-- **Ids in the runs of a client.** A node id that was converted for the model means the same node
after every further update without a reset if and only if its namespace was known then, and the
same goes for browse names. Two node ids, one converted earlier and one later, have become the same
id of the model only if their identifiers are the same, and the first namespace was known and is
also the second one, or neither had a URI when it was converted. -/
theorem ids_survive (tables later : List (List String))
    (hsize : ∀ uaNamespaces ∈ tables ++ later, uaNamespaces.length ≤ 65536)
    (hreset : (initial.after (tables ++ later)).resets = (initial.after tables).resets) :
    (∀ nodeId : UaIndexedNodeId ι,
      (initial.after (tables ++ later)).cache.modelNodeIdToUaNodeId text
          ((initial.after tables).cache.uaNodeIdToModelNodeId text nodeId) = nodeId ↔
        (initial.after tables).cache.Known nodeId.nsIndex) ∧
    (∀ browseName : UInt16 × String,
      (initial.after (tables ++ later)).cache.modelQualifiedNameToUaQualifiedName
          ((initial.after tables).cache.uaQualifiedNameToModelQualifiedName browseName) =
            browseName ↔
        (initial.after tables).cache.Known browseName.1) ∧
    ∀ nodeId nodeId' : UaIndexedNodeId ι,
      (initial.after tables).cache.uaNodeIdToModelNodeId text nodeId =
          (initial.after (tables ++ later)).cache.uaNodeIdToModelNodeId text nodeId' ↔
        nodeId.identifier = nodeId'.identifier ∧
          (((initial.after tables).cache.Known nodeId.nsIndex ∧ nodeId.nsIndex = nodeId'.nsIndex) ∨
            ((nodeId.nsIndex = 0 ∨ ¬ (initial.after tables).cache.Known nodeId.nsIndex) ∧
              (nodeId'.nsIndex = 0 ∨
                ¬ (initial.after (tables ++ later)).cache.Known nodeId'.nsIndex))) := by
  have hinv : (initial.after tables).cache.Inverse :=
    (after_spec tables inverse_empty fun t ht => hsize t (List.mem_append_left _ ht)).1
  obtain ⟨hinv', hext⟩ := extends_after hsize hreset
  -- the index that a converted one is converted back to later on
  have hindex : ∀ nsIndex, (initial.after (tables ++ later)).cache.getNsIndexFromUri
      ((initial.after tables).cache.getUriFromNsIndex nsIndex) = nsIndex ↔
        (initial.after tables).cache.Known nsIndex := by
    intro nsIndex
    rw [((resolves_getUriFromNsIndex hinv nsIndex).of_extends hext).2]
    exact getNsIndexFromUri_getUriFromNsIndex hinv
  refine ⟨fun nodeId => ?_, fun browseName => ?_, fun nodeId nodeId' => ?_⟩
  · obtain ⟨nsIndex, identifier⟩ := nodeId
    rw [← hindex]
    simp only [modelNodeIdToUaNodeId, uaNodeIdToModelNodeId, text.parse_print,
      UaIndexedNodeId.mk.injEq, and_true]
  · obtain ⟨nsIndex, name⟩ := browseName
    rw [← hindex]
    simp only [modelQualifiedNameToUaQualifiedName, uaQualifiedNameToModelQualifiedName,
      Prod.mk.injEq, and_true]
  · exact uaNodeIdToModelNodeId_eq_iff hinv' hext

/-- A server that gets a further namespace. -/
theorem ids_survive_furtherNamespace :
    (∀ nodeId : UaIndexedNodeId String,
      (initial.after ([["ua", "a"]] ++ [["ua", "a", "b"]])).cache.modelNodeIdToUaNodeId .strings
          ((initial.after [["ua", "a"]]).cache.uaNodeIdToModelNodeId .strings nodeId) = nodeId ↔
        (initial.after [["ua", "a"]]).cache.Known nodeId.nsIndex) ∧
    (∀ browseName : UInt16 × String,
      (initial.after
          ([["ua", "a"]] ++ [["ua", "a", "b"]])).cache.modelQualifiedNameToUaQualifiedName
          ((initial.after [["ua", "a"]]).cache.uaQualifiedNameToModelQualifiedName browseName) =
            browseName ↔
        (initial.after [["ua", "a"]]).cache.Known browseName.1) ∧
    ∀ nodeId nodeId' : UaIndexedNodeId String,
      (initial.after [["ua", "a"]]).cache.uaNodeIdToModelNodeId .strings nodeId =
          (initial.after ([["ua", "a"]] ++ [["ua", "a", "b"]])).cache.uaNodeIdToModelNodeId .strings
            nodeId' ↔
        nodeId.identifier = nodeId'.identifier ∧
          (((initial.after [["ua", "a"]]).cache.Known nodeId.nsIndex ∧
              nodeId.nsIndex = nodeId'.nsIndex) ∨
            ((nodeId.nsIndex = 0 ∨ ¬ (initial.after [["ua", "a"]]).cache.Known nodeId.nsIndex) ∧
              (nodeId'.nsIndex = 0 ∨
                ¬ (initial.after ([["ua", "a"]] ++ [["ua", "a", "b"]])).cache.Known
                  nodeId'.nsIndex))) :=
  ids_survive .strings [["ua", "a"]] [["ua", "a", "b"]] (by decide) (by decide +kernel)

/-- **Ids of the model**, such as those of the configuration, in the runs of a client. Asking the
server about one and converting what it answers with gives the same id if and only if its text is
as the stack writes it and its URI is empty or has an index other than zero. It gives one that
`operator==` takes for it if the URI is that of OPC UA, too. -/
theorem model_ids_come_back (tables : List (List String))
    (hsize : ∀ uaNamespaces ∈ tables, uaNamespaces.length ≤ 65536) (n : NodeId) :
    ((initial.after tables).cache.uaNodeIdToModelNodeId text
          ((initial.after tables).cache.modelNodeIdToUaNodeId text n) = n ↔
        text.print (text.parse n.id) = n.id ∧
          (n.uri = "" ∨ (initial.after tables).cache.getNsIndexFromUri n.uri ≠ 0)) ∧
      (((initial.after tables).cache.uaNodeIdToModelNodeId text
          ((initial.after tables).cache.modelNodeIdToUaNodeId text n)).equals n = true ↔
        text.print (text.parse n.id) = n.id ∧
          (n.uri = "" ∨ n.uri = NodeId.defaultUri ∨
            (initial.after tables).cache.getNsIndexFromUri n.uri ≠ 0)) :=
  uaNodeIdToModelNodeId_modelNodeIdToUaNodeId (after_spec tables inverse_empty hsize).1 n

/-- A server with one namespace of its own. -/
theorem model_ids_come_back_ownNamespace :
    ((initial.after [["ua", "a"]]).cache.uaNodeIdToModelNodeId .strings
          ((initial.after [["ua", "a"]]).cache.modelNodeIdToUaNodeId .strings ⟨"a", "s=x"⟩) =
            ⟨"a", "s=x"⟩ ↔
        IdentifierText.strings.print (IdentifierText.strings.parse "s=x") = "s=x" ∧
          ("a" = "" ∨ (initial.after [["ua", "a"]]).cache.getNsIndexFromUri "a" ≠ 0)) ∧
      (((initial.after [["ua", "a"]]).cache.uaNodeIdToModelNodeId .strings
          ((initial.after [["ua", "a"]]).cache.modelNodeIdToUaNodeId .strings
            ⟨"a", "s=x"⟩)).equals ⟨"a", "s=x"⟩ = true ↔
        IdentifierText.strings.print (IdentifierText.strings.parse "s=x") = "s=x" ∧
          ("a" = "" ∨ "a" = NodeId.defaultUri ∨
            (initial.after [["ua", "a"]]).cache.getNsIndexFromUri "a" ≠ 0)) :=
  model_ids_come_back .strings [["ua", "a"]] (by decide) ⟨"a", "s=x"⟩

end NamespaceState

end UmatiDashboard
