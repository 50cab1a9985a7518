import UmatiDashboard.TypeReader.BrowseTypes
import UmatiDashboard.TypeReader.OpcUaTypeReader

/-!
# Filling the type map

`setupTypeMap` flattens every type of one namespace: starting from a copy of the type's own
structure node it walks the bloodline from the root down and adds the children that each
ancestor declares. The copy keeps the **pointer** to the type's child list, the declared
children enter that list as pointers, and `toStructureNode` appends to the lists of the
declared nodes each time it is called; nothing is ever copied deeply.

`readTypes` runs `setupTypeMap` for each configured namespace that the server has, in the order
of the namespace table, and finishes with `updateTypeMap` and `updateObjectTypeNames`.
-/

namespace UmatiDashboard

namespace StructureBiNode

mutual

/-- Append the structure nodes of the children to the child list of the node's structure node,
after doing the same for each child, and hand on the flag for variable types. -/
def toStructureNode : StructureBiNode → TypeHeap → TypeHeap
  | .mk n _ _ ofBaseDataVariableType children, h =>
    let h' := toStructureNodes n children h
    h'.setNode n { h'.nodes n with ofBaseDataVariableType }

/-- The loop over the children of the node `n`. -/
def toStructureNodes (n : NodeRef) : List StructureBiNode → TypeHeap → TypeHeap
  | [], h => h
  | c :: cs, h =>
    let h' := c.toStructureNode h
    toStructureNodes n cs (h'.pushBack (h'.nodes n).specifiedChildNodes c.structureNode)

end

mutual

/-- The types in a browsed tree, each with its bloodline (the type first). A node that is not
a type and has no living parent is not kept, so the types below it have no parent. -/
def typesBelow (bloodline : List StructureBiNode) :
    StructureBiNode → List (NodeId × List StructureBiNode)
  | b@(.mk _ i isType _ children) =>
    if isType then (i, b :: bloodline) :: typesBelowAll (b :: bloodline) children
    else typesBelowAll (if bloodline.isEmpty then [] else b :: bloodline) children

def typesBelowAll (bloodline : List StructureBiNode) :
    List StructureBiNode → List (NodeId × List StructureBiNode)
  | [] => []
  | b :: bs => typesBelow bloodline b ++ typesBelowAll bloodline bs

end

end StructureBiNode

/-- The bidirectional type map: every type with its bloodline. -/
def bidirectionalTypeMap (roots : List StructureBiNode) : NodeMap (List StructureBiNode) :=
  (StructureBiNode.typesBelowAll [] roots).foldl (fun m p => m.insertIfNew p.1 p.2) ∅

namespace TypeHeap

variable (h : TypeHeap)

/-- The browse name of the node at an address. -/
def browseName (n : NodeRef) : QualifiedName := (h.nodes n).specifiedBrowseName

/-- The modelling rule of the node at an address. -/
def rule (n : NodeRef) : ModellingRule := (h.nodes n).modellingRule

/-- Lookup in a list of nodes: the same node, or one with the same browse name. -/
def findNode (ns : List NodeRef) (n : NodeRef) : Option NodeRef :=
  ns.find? fun el => el == n || h.browseName el == h.browseName n

/-- The children of a redeclared child that the child found does not have are added to it. -/
def addMissingChildren (found : NodeRef) : List NodeRef → TypeHeap → TypeHeap
  | [], h => h
  | childOfChild :: rest, h =>
    match h.findNode (h.children found) childOfChild with
    | some _ => addMissingChildren found rest h
    | none => addMissingChildren found rest
        (h.pushBack (h.nodes found).specifiedChildNodes childOfChild)

/-- The rules that a lower declaration replaces. -/
def isReplaceable (r : ModellingRule) : Bool :=
  r == .optional || r == .optionalPlaceholder

/-- Merge one declared child of an ancestor into the child list `l` of the type. -/
def mergeChild (l : ListRef) (currentChild : StructureBiNode) (h : TypeHeap) : TypeHeap :=
  let h := currentChild.toStructureNode h
  let structureNode := currentChild.structureNode
  match h.findNode (h.lists l) structureNode with
  | some found =>
    let h := addMissingChildren found (h.children structureNode) h
    if isReplaceable (h.rule found) then
      h.setList l ((h.lists l).erase found ++ [structureNode])
    else h
  | none => h.pushBack l structureNode

/-- Merge the children that one ancestor declares; types below the ancestor are skipped. -/
def mergeAncestor (l : ListRef) (ancestor : StructureBiNode) (h : TypeHeap) : TypeHeap :=
  ancestor.specifiedBiChildNodes.foldl
    (fun h currentChild => if currentChild.isType then h else mergeChild l currentChild h) h

/-- Flatten one type along its bloodline (the type first, the root last) and allocate the
entry of the type map, a copy of the type's node that shares its child list. -/
def setupType (type : StructureBiNode) (bloodline : List StructureBiNode) (h : TypeHeap) :
    NodeRef × TypeHeap :=
  let node := { h.nodes type.structureNode with
    ofBaseDataVariableType := type.ofBaseDataVariableType }
  let h := bloodline.reverse.foldl
    (fun h ancestor => mergeAncestor node.specifiedChildNodes ancestor h) h
  (h.next, { h.setNode h.next node with next := h.next + 1 })

end TypeHeap

/-- The type map under construction. -/
structure TypeMapState where
  heap : TypeHeap
  typeMap : NodeMap NodeRef

namespace TypeMapState

/-- The loop body of `setupTypeMap`. -/
def setupEntry (namespaceUri : String) (st : TypeMapState)
    (entry : NodeId × List StructureBiNode) : TypeMapState :=
  match entry.2 with
  | [] => st
  | type :: ancestors =>
    if type.namespaceUri = namespaceUri then
      let r := TypeHeap.setupType type (type :: ancestors) st.heap
      ⟨r.2, st.typeMap.insertIfNew entry.1 r.1⟩
    else st

/-- Flatten all types of one namespace, in the order of their identifiers. -/
def setupTypeMap (types : NodeMap (List StructureBiNode)) (st : TypeMapState)
    (namespaceUri : String) : TypeMapState :=
  types.toList.foldl (setupEntry namespaceUri) st

/-- The loop of `readTypes` over the namespaces of the server: the URIs that are configured
are taken out of the list of those not yet found, and their types are set up. -/
def setupNamespaces (types : NodeMap (List StructureBiNode)) :
    List String → List String → TypeMapState → TypeMapState
  | [], _, st => st
  | namespaceUri :: rest, notFound, st =>
    if namespaceUri ∈ notFound then
      setupNamespaces types rest (notFound.erase namespaceUri) (st.setupTypeMap types namespaceUri)
    else setupNamespaces types rest notFound st

/-- Point a child at the child list of its type's entry, if there is one. -/
def useChildType (st : TypeMapState) (child : NodeRef) : TypeMapState :=
  let node := st.heap.nodes child
  match st.typeMap[node.specifiedTypeNodeId]? with
  | none => st
  | some childType =>
    let type := st.heap.nodes childType
    let node' := { node with
      specifiedChildNodes := type.specifiedChildNodes
      ofBaseDataVariableType := type.ofBaseDataVariableType }
    { st with heap := st.heap.setNode child node' }

/-- The loop body of `updateTypeMap`: folders and functional groups are looked through. -/
def updateChild (st : TypeMapState) (child : NodeRef) : TypeMapState :=
  let childTypeNodeId := (st.heap.nodes child).specifiedTypeNodeId
  if childTypeNodeId.equals WellKnown.folder ||
      childTypeNodeId.equals WellKnown.functionalGroup then
    (st.heap.children child).foldl useChildType st
  else st.useChildType child

def updateTypeMap (st : TypeMapState) : TypeMapState :=
  st.typeMap.toList.foldl (fun st entry => (st.heap.children entry.2).foldl updateChild st) st

end TypeMapState

namespace OpcUaTypeReader

/-- The type map after the `setupTypeMap` passes of `readTypes`. -/
def setupTypes (reader : OpcUaTypeReader) (H : TypeHierarchy) (namespaces : List String) :
    TypeMapState :=
  TypeMapState.setupNamespaces (bidirectionalTypeMap (H.browse reader.nameToId).1) namespaces
    reader.expectedObjectTypeNamespaces ⟨(H.browse reader.nameToId).2.heap, reader.typeMap⟩

/-- Read the types of a server whose namespace table is `namespaces`. -/
def readTypes (reader : OpcUaTypeReader) (H : TypeHierarchy) (namespaces : List String) :
    OpcUaTypeReader :=
  let st := (reader.setupTypes H namespaces).updateTypeMap
  { reader with
    heap := st.heap
    typeMap := st.typeMap
    nameToId := (H.browse reader.nameToId).2.nameToId }.updateObjectTypeNames

end OpcUaTypeReader

end UmatiDashboard
