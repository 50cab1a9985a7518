import UmatiDashboard.ModelOpcUa.ModelDefinition

/-!
# Structure nodes on the heap

A `StructureNode` is one node of a type as the type reader stores it. Nodes and their lists of
children are shared by pointer: several nodes may hold the same child list, and a node may
stand in several lists. `TypeHeap` keeps both kinds of object under their addresses, so that
an update through one pointer is seen through every other one.
-/

namespace UmatiDashboard

/-- The address of a `StructureNode`. -/
abbrev NodeRef : Type := ℕ

/-- The address of a `std::list<std::shared_ptr<StructureNode>>`. -/
abbrev ListRef : Type := ℕ

structure StructureNode extends NodeDefinition where
  specifiedChildNodes : ListRef
  ofBaseDataVariableType : Bool
  deriving DecidableEq, Inhabited

/-- The structure nodes and child lists, with the next free address. -/
structure TypeHeap where
  nodes : NodeRef → StructureNode
  lists : ListRef → List NodeRef
  next : ℕ

namespace TypeHeap

/-- The heap before anything is allocated. -/
def empty : TypeHeap := ⟨fun _ => default, fun _ => [], 0⟩

/-- The children of a node. -/
def children (h : TypeHeap) (n : NodeRef) : List NodeRef := h.lists (h.nodes n).specifiedChildNodes

/-- Replace the list at an address. -/
def setList (h : TypeHeap) (l : ListRef) (ns : List NodeRef) : TypeHeap :=
  { h with lists := Function.update h.lists l ns }

/-- `emplace_back` on the list at an address. -/
def pushBack (h : TypeHeap) (l : ListRef) (n : NodeRef) : TypeHeap := h.setList l (h.lists l ++ [n])

/-- Replace the node at an address. -/
def setNode (h : TypeHeap) (n : NodeRef) (node : StructureNode) : TypeHeap :=
  { h with nodes := Function.update h.nodes n node }

@[simp] theorem nodes_setList (h : TypeHeap) (l : ListRef) (ns : List NodeRef) :
    (h.setList l ns).nodes = h.nodes := rfl

@[simp] theorem next_setList (h : TypeHeap) (l : ListRef) (ns : List NodeRef) :
    (h.setList l ns).next = h.next := rfl

@[simp] theorem lists_setList_self (h : TypeHeap) (l : ListRef) (ns : List NodeRef) :
    (h.setList l ns).lists l = ns := Function.update_self ..

theorem lists_setList_of_ne (h : TypeHeap) {l l' : ListRef} (hne : l' ≠ l) (ns : List NodeRef) :
    (h.setList l ns).lists l' = h.lists l' := Function.update_of_ne hne ..

@[simp] theorem nodes_pushBack (h : TypeHeap) (l : ListRef) (n : NodeRef) :
    (h.pushBack l n).nodes = h.nodes := rfl

@[simp] theorem next_pushBack (h : TypeHeap) (l : ListRef) (n : NodeRef) :
    (h.pushBack l n).next = h.next := rfl

@[simp] theorem lists_pushBack_self (h : TypeHeap) (l : ListRef) (n : NodeRef) :
    (h.pushBack l n).lists l = h.lists l ++ [n] := lists_setList_self ..

theorem lists_pushBack_of_ne (h : TypeHeap) {l l' : ListRef} (hne : l' ≠ l) (n : NodeRef) :
    (h.pushBack l n).lists l' = h.lists l' := lists_setList_of_ne _ hne _

@[simp] theorem lists_setNode (h : TypeHeap) (n : NodeRef) (node : StructureNode) :
    (h.setNode n node).lists = h.lists := rfl

@[simp] theorem next_setNode (h : TypeHeap) (n : NodeRef) (node : StructureNode) :
    (h.setNode n node).next = h.next := rfl

@[simp] theorem nodes_setNode_self (h : TypeHeap) (n : NodeRef) (node : StructureNode) :
    (h.setNode n node).nodes n = node := Function.update_self ..

theorem nodes_setNode_of_ne (h : TypeHeap) {n n' : NodeRef} (hne : n' ≠ n)
    (node : StructureNode) : (h.setNode n node).nodes n' = h.nodes n' :=
  Function.update_of_ne hne ..

end TypeHeap

end UmatiDashboard
