import UmatiDashboard.ModelOpcUa.ModelDefinition

/-!
# Instance trees

The tree of a machine: its root, its named nodes and the instances found for its
placeholders. A simple node is an object of its own, identified by the address `ptr`, which is
what the value tables of a data set are keyed by; its `childNodes` are kept in the order in
which they were found.
-/

namespace UmatiDashboard

/-- The address of a `SimpleNode`. -/
abbrev NodePtr : Type := ℕ

/-- One instance of a placeholder. -/
structure PlaceholderElement (ν : Type) where
  pNode : ν
  browseName : QualifiedName
  typeDefinition : NodeId

/-- An instance of a node definition. -/
inductive Node where
  /-- a `SimpleNode`: a node with its identifier and the type it was expanded by -/
  | simple (definition : NodeDefinition) (ptr : NodePtr) (nodeId typeNodeId : NodeId)
      (ofBaseDataVariableType : Bool) (childNodes : List Node)
  /-- a `PlaceholderNode`: the instances found for a placeholder -/
  | placeholder (definition : NodeDefinition) (instances : List (PlaceholderElement Node))

namespace Node

def definition : Node → NodeDefinition
  | simple d .. => d
  | placeholder d _ => d

def modellingRule (n : Node) : ModellingRule := n.definition.modellingRule

@[simp] theorem definition_simple (d : NodeDefinition) (p : NodePtr) (n t : NodeId) (b : Bool)
    (cs : List Node) : (simple d p n t b cs).definition = d := rfl

@[simp] theorem definition_placeholder (d : NodeDefinition) (is : List (PlaceholderElement Node)) :
    (placeholder d is).definition = d := rfl

end Node

end UmatiDashboard
