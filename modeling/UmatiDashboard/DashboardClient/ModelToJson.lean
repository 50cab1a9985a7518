import UmatiDashboard.DataClient.Exceptions
import UmatiDashboard.ModelOpcUa.ModelInstance
import UmatiDashboard.Util.Json

/-!
# From instance trees to JSON

`modelToJson` renders an instance tree, given the current value of each variable. Assigning a
member to a JSON value that is neither null nor an object is a type error of the JSON library,
an exception here, and so is writing out a string that is not UTF-8. Unless null values are to be
published, the JSON of each child is written out, and a child that is written as null contributes
no member. Only the first of several children with one browse name is rendered.
-/

namespace UmatiDashboard

namespace Json

/-- `j[key] = value`, with the library's type error. -/
def assign (j : Json) (key : String) (value : Json) : Except Exception Json :=
  match j.set key value with
  | some j' => .ok j'
  | none => .error (.std "[json.exception.type_error.305]")

@[simp] theorem assign_null (key : String) (value : Json) :
    null.assign key value = .ok (object [(key, value)]) := rfl

@[simp] theorem assign_object (members : List (String × Json)) (key : String) (value : Json) :
    (object members).assign key value = .ok (object (putMember key value members)) := rfl

/-- The library's error for writing out a string that is not UTF-8. -/
def dumpError : Exception := .std "[json.exception.type_error.316]"

/-- `j.dump(0) == "null"`. -/
def dumpIsNull (j : Json) : Except Exception Bool :=
  if j.dumps then .ok j.dumpsNull else .error dumpError

end Json

/-- The switches of `ModelToJson`. -/
structure JsonOptions where
  serializeNodeInformation : Bool := false
  nestAsChildren : Bool := false
  publishNullValues : Bool := false

/-- The JSON of a child becomes a member. -/
def JsonOptions.publishes (options : JsonOptions) (json : Json) : Except Exception Bool :=
  if options.publishNullValues then pure true else (! ·) <$> json.dumpIsNull

namespace ModelToJson

def isVariableClass (c : NodeClass) : Bool := c == .variable || c == .variableType

/-- Every variable but the one whose node identifier is that of `PropertyType`. -/
def isBaseDataVariableType (nodeClass : NodeClass) (nodeId : NodeId) : Bool :=
  isVariableClass nodeClass && !nodeId.equals WellKnown.propertyType

variable (getValue : NodePtr → Json) (options : JsonOptions)

/-- The JSON of a simple node before its children are added. -/
def ownJson (d : NodeDefinition) (ptr : NodePtr) (nodeId : NodeId) (childNodes : List Node) :
    Except Exception Json := do
  let json ←
    if options.serializeNodeInformation then do
      let json ← Json.null.assign "nodeId" (.string nodeId.toString)
      json.assign "specifiedTypeNodeId" (.string d.specifiedTypeNodeId.toString)
    else pure .null
  if isVariableClass d.nodeClass then
    if options.nestAsChildren ||
        (isBaseDataVariableType d.nodeClass nodeId && !childNodes.isEmpty) then
      json.assign "value" (getValue ptr)
    else pure (getValue ptr)
  else pure json

/-- Add the JSON of the children, if there is any. -/
def addChildren (d : NodeDefinition) (nodeId : NodeId) (json children : Json) :
    Except Exception Json :=
  if children.isEmpty then pure json
  else if options.nestAsChildren then json.assign "children" children
  else if isBaseDataVariableType d.nodeClass nodeId then json.assign "properties" children
  else pure children

mutual

/-- Render a node. A node whose kind does not fit its modelling rule is rendered as null. -/
def modelToJson : Node → Except Exception Json
  | .simple d ptr nodeId _ _ childNodes =>
    match d.modellingRule with
    | .mandatory | .optional => do
      let json ← ownJson getValue options d ptr nodeId childNodes
      let children ← childrenToJson [] .null childNodes
      addChildren options d nodeId json children
    | _ => pure .null
  | .placeholder d instances =>
    match d.modellingRule with
    | .mandatoryPlaceholder | .optionalPlaceholder => do
      let placeholderJsonElements ← instancesToJson .null instances
      if options.serializeNodeInformation then
        Json.null.assign "placeholderElements" placeholderJsonElements
      else pure placeholderJsonElements
    | _ => pure .null

/-- Render the children that are not yet visited into the object `children`. -/
def childrenToJson (visited : List QualifiedName) (children : Json) :
    List Node → Except Exception Json
  | [] => pure children
  | pChild :: rest =>
    if pChild.definition.specifiedBrowseName ∈ visited then childrenToJson visited children rest
    else do
      let visited := visited ++ [pChild.definition.specifiedBrowseName]
      let json ← modelToJson pChild
      if ← options.publishes json then do
        let children ← children.assign pChild.definition.specifiedBrowseName.name json
        childrenToJson visited children rest
      else childrenToJson visited children rest

/-- Render the instances of a placeholder into the object `elements`. -/
def instancesToJson (elements : Json) : List (PlaceholderElement Node) → Except Exception Json
  | [] => pure elements
  | ⟨pNode, browseName, typeDefinition⟩ :: rest => do
    let el ← modelToJson pNode
    let el ← el.assign "$TypeDefinition" (.string typeDefinition.toString)
    let elements ← elements.assign browseName.name el
    instancesToJson elements rest

end

end ModelToJson

end UmatiDashboard
