import UmatiDashboard.DataClient.Exceptions
import UmatiDashboard.ModelOpcUa.StructureNode

/-!
# Browsing the types

`readTypes` first browses the type hierarchy from two starting points and files every node it
meets as a `StructureBiNode`. A `BrowseTree` is what the server answers: a reference of a Browse
answer with the modelling rule found for it, and the references of the Browse of that node.
A `StructureBiNode` holds the address of its structure node and the nodes below it; its
parent pointer is its position in the tree, so that the chain of parents of a type, its
**bloodline**, is the path from the type up to the starting point.
-/

namespace UmatiDashboard

/-- What browsing from one reference yields. -/
inductive BrowseTree where
  | node (entry : BrowseResult) (modellingRule : ModellingRule) (references : List BrowseTree)

def BrowseTree.entry : BrowseTree → BrowseResult
  | node e _ _ => e

/-- The two Browse answers at the starting points of `readTypes`. -/
structure TypeHierarchy where
  /-- below `BaseVariableType` -/
  variableTypes : List BrowseTree
  /-- below `BaseObjectType` -/
  objectTypes : List BrowseTree

/-- The tree of browsed nodes with their parents. -/
inductive StructureBiNode where
  | mk (structureNode : NodeRef) (nodeId : NodeId) (isType ofBaseDataVariableType : Bool)
      (specifiedBiChildNodes : List StructureBiNode)

namespace StructureBiNode

def structureNode : StructureBiNode → NodeRef
  | mk n .. => n

def nodeId : StructureBiNode → NodeId
  | mk _ i .. => i

/-- The namespace is the one of the node identifier. -/
def namespaceUri (b : StructureBiNode) : String := b.nodeId.uri

def isType : StructureBiNode → Bool
  | mk _ _ t .. => t

def ofBaseDataVariableType : StructureBiNode → Bool
  | mk _ _ _ o _ => o

def specifiedBiChildNodes : StructureBiNode → List StructureBiNode
  | mk _ _ _ _ cs => cs

@[simp] theorem structureNode_mk (n : NodeRef) (i : NodeId) (t o : Bool)
    (cs : List StructureBiNode) : (mk n i t o cs).structureNode = n := rfl

@[simp] theorem nodeId_mk (n : NodeRef) (i : NodeId) (t o : Bool) (cs : List StructureBiNode) :
    (mk n i t o cs).nodeId = i := rfl

@[simp] theorem isType_mk (n : NodeRef) (i : NodeId) (t o : Bool) (cs : List StructureBiNode) :
    (mk n i t o cs).isType = t := rfl

@[simp] theorem ofBaseDataVariableType_mk (n : NodeRef) (i : NodeId) (t o : Bool)
    (cs : List StructureBiNode) : (mk n i t o cs).ofBaseDataVariableType = o := rfl

@[simp] theorem specifiedBiChildNodes_mk (n : NodeRef) (i : NodeId) (t o : Bool)
    (cs : List StructureBiNode) : (mk n i t o cs).specifiedBiChildNodes = cs := rfl

end StructureBiNode

/-- The state of the browsing phase: the heap, the keys of the bidirectional type map and the
names of the types. -/
structure TypeBrowse where
  heap : TypeHeap
  types : NodeSet
  nameToId : Std.ExtTreeMap String NodeId compare

namespace TypeBrowse

/-- Before anything is browsed; the name table is kept over all runs. -/
def start (nameToId : Std.ExtTreeMap String NodeId compare) : TypeBrowse :=
  ⟨.empty, ∅, nameToId⟩

/-- The structure node made from a Browse answer, with a child list of its own. -/
def newNode (entry : BrowseResult) (modellingRule : ModellingRule)
    (ofBaseDataVariableType : Bool) (list : ListRef) : StructureNode where
  modellingRule := modellingRule
  nodeClass := entry.nodeClass
  referenceType := entry.referenceTypeId
  specifiedTypeNodeId := entry.typeDefinition
  specifiedBrowseName := entry.browseName
  specifiedChildNodes := list
  ofBaseDataVariableType := ofBaseDataVariableType

/-- The node is a type. -/
def isTypeClass (c : NodeClass) : Bool := c == .objectType || c == .variableType

/-- File one Browse answer: allocate its structure node and, for a type that is met for the
first time, enter it into the bidirectional type map and the name table. Returned are the
address of the structure node and whether the entry was made. -/
def handleBrowseTypeResult (st : TypeBrowse) (entry : BrowseResult)
    (modellingRule : ModellingRule) (ofBaseDataVariableType : Bool) :
    (NodeRef × Bool) × TypeBrowse :=
  let a := st.heap.next
  let heap :=
    { (st.heap.setNode a (newNode entry modellingRule ofBaseDataVariableType a)).setList a []
      with next := a + 1 }
  if isTypeClass entry.nodeClass && !st.types.contains entry.nodeId then
    let typeName := entry.browseName.uri ++ ";" ++ entry.browseName.name
    ((a, true), ⟨heap, st.types.insert entry.nodeId, st.nameToId.insertIfNew typeName entry.nodeId⟩)
  else ((a, false), { st with heap })

mutual

/-- File a reference and everything browsed below it. Only the nodes entered into the type
map carry the flag for variable types. -/
def browseTree (ofBaseDataVariableType : Bool) : BrowseTree → TypeBrowse →
    StructureBiNode × TypeBrowse
  | .node entry rule references, st =>
    let r := st.handleBrowseTypeResult entry rule ofBaseDataVariableType
    let below := browseTypes ofBaseDataVariableType references r.2
    (.mk r.1.1 entry.nodeId r.1.2 (r.1.2 && ofBaseDataVariableType) below.1, below.2)

/-- File the references of one Browse answer, in order. -/
def browseTypes (ofBaseDataVariableType : Bool) : List BrowseTree → TypeBrowse →
    List StructureBiNode × TypeBrowse
  | [], st => ([], st)
  | t :: ts, st =>
    let first := browseTree ofBaseDataVariableType t st
    let rest := browseTypes ofBaseDataVariableType ts first.2
    (first.1 :: rest.1, rest.2)

end

/-- The reference a browse starts from. -/
def startEntry (startNodeId : NodeId) : BrowseResult :=
  ⟨.variableType, startNodeId, ⟨"", ""⟩, ⟨"", ""⟩, ⟨startNodeId.uri, ""⟩⟩

/-- The starting point with everything below it. -/
def startTree (startNodeId : NodeId) (references : List BrowseTree) : BrowseTree :=
  .node (startEntry startNodeId) .mandatory references

end TypeBrowse

namespace TypeHierarchy

/-- Browse the variable types and then the object types. -/
def browse (H : TypeHierarchy) (nameToId : Std.ExtTreeMap String NodeId compare) :
    List StructureBiNode × TypeBrowse :=
  let v := TypeBrowse.browseTree true
    (TypeBrowse.startTree WellKnown.baseVariableType H.variableTypes) (.start nameToId)
  let o := TypeBrowse.browseTree false
    (TypeBrowse.startTree WellKnown.baseObjectType H.objectTypes) v.2
  ([v.1, o.1], o.2)

end TypeHierarchy

end UmatiDashboard
