import UmatiDashboard.OpcUaClient.Converter.NodeIds

/-!
# The client with its caches

The operations of the client in the terms of the model: they convert the ids and names of a request
for the server with the namespace cache, make their service calls, and convert the answers back. A
result that is bad for a reason that may have to do with the namespaces makes the client read the
namespace table anew before the exception is thrown.

The stack's answers depend on what it is asked about, and may be others for every operation; they
are the argument `a`. The supertypes of a type are browsed like everything else.
-/

namespace UmatiDashboard

/-- What is asked about a node in a Browse request. -/
structure UaBrowseDescription (ι : Type) where
  browseDirection : BrowseDirection
  referenceTypeId : UaIndexedNodeId ι
  includeSubtypes : Bool
  nodeClassMask : ℕ
  resultMask : ℕ

/-- What the stack answers while an operation runs. The first three say whether it has a session
when it reads the node class of a type definition, when it is called for the operation itself, and
when it reads the node class of a type to browse its supertype. -/
structure StackAnswers (ι : Type) where
  typeIsConnected : Bool
  sessionIsConnected : Bool
  superTypeIsConnected : UaIndexedNodeId ι → Bool
  nodeClass : UaIndexedNodeId ι → Option NodeClass
  browse : UaIndexedNodeId ι → UaBrowseDescription ι → UaBrowseResponse (UaIndexedNodeId ι)
  translate : UaIndexedNodeId ι → UInt16 × String → UaTranslateResponse (UaIndexedNodeId ι)
  /-- the values are given as what their conversion to JSON ends in -/
  read : List (UaIndexedNodeId ι) → UaReadResponse (Except Exception Json)
  createMonitoredItem : UaIndexedNodeId ι → MonitoredItemCreateResult
  namespaceArray : List String

/-- `OpcUaClient` with the namespace cache. -/
structure CachingClient (χ ι : Type) where
  namespaces : NamespaceState
  client : ServiceClient χ (UaIndexedNodeId ι)

/-- A computation of the client. -/
abbrev CachingM (χ ι : Type) : Type → Type := Prog Exception (CachingClient χ ι)

/-! ### Requests -/

section Requests

variable {ι : Type} (text : IdentifierText ι)

/-- `UA_NodeId_isNull`: the null id is told apart from the others. -/
def IdentifierText.nonNull [DecidableEq ι] (nodeId : UaIndexedNodeId ι) :
    Option (UaIndexedNodeId ι) :=
  if nodeId = ⟨0, text.null⟩ then none else some nodeId

/-- The bit of a class in a mask, none for a class that is not specified. -/
def nodeClassBit : Option NodeClass → ℕ
  | none => 0x00
  | some .object => 0x01
  | some .variable => 0x02
  | some .method => 0x04
  | some .objectType => 0x08
  | some .variableType => 0x10
  | some .referenceType => 0x20
  | some .dataType => 0x40
  | some .view => 0x80

/-- The class of the instances of a type. -/
def nodeClassFromNodeId : Option NodeClass → Except Exception ℕ
  | some .objectType => .ok (nodeClassBit (some .object))
  | some .variableType => .ok (nodeClassBit (some .variable))
  | _ => .error (.umati "Invalid NodeClass")

def NamespaceCache.getUaBrowseContext (cache : NamespaceCache) (browseContext : BrowseContext) :
    UaBrowseDescription ι where
  browseDirection := browseContext.browseDirection
  referenceTypeId :=
    if browseContext.referenceTypeId.isNull then ⟨0, text.null⟩
    else cache.modelNodeIdToUaNodeId text browseContext.referenceTypeId
  includeSubtypes := browseContext.includeSubtypes
  nodeClassMask := browseContext.nodeClassMask
  resultMask := browseContext.resultMask

/-- What `browseSuperType` asks: the other ends of `HasSubtype`, which are of the same class. -/
def superTypeDescription (nodeClass : Option NodeClass) : UaBrowseDescription ι where
  browseDirection := .backward
  referenceTypeId := ⟨0, text.parse "i=45"⟩
  includeSubtypes := true
  nodeClassMask := nodeClassBit nodeClass
  resultMask := 0x00

/-- The answers to browsing the supertype of a type. -/
def StackAnswers.types (a : StackAnswers ι) (t : UaIndexedNodeId ι) :
    UaTypeAnswers (UaIndexedNodeId ι) where
  sessionIsConnected := a.superTypeIsConnected t
  nodeClass := a.nodeClass t
  response := a.browse t (superTypeDescription text (a.nodeClass t))

end Requests

/-- The status of the first result. -/
def UaBrowseResponse.firstStatus {κ : Type} (response : UaBrowseResponse κ) : UInt32 :=
  (response.results.head?.map UaBrowseResult.statusCode).getD 0

/-- The status after which the namespace table is read anew. -/
def badNodeIdUnknown : UInt32 := 0x80340000

namespace CachingClient

variable {χ ι α : Type} (statusName : UInt32 → String) (text : IdentifierText ι)
  (a : StackAnswers ι)

def cache (c : CachingClient χ ι) : NamespaceCache := c.namespaces.cache

/-- A computation that leaves the namespace cache alone. -/
def service (p : ServiceM χ (UaIndexedNodeId ι) α) : CachingM χ ι α :=
  p.zoom CachingClient.client fun client c => { c with client := client }

def updateNamespaceCache : CachingM χ ι Unit :=
  Prog.modify fun c => { c with namespaces := c.namespaces.updateNamespaceCache a.namespaceArray }

/-! ### Connecting -/

/-- One round of the connecting thread. The namespace table is read as soon as there is a
connection. -/
def threadConnectExecution (result : UInt32) (response : CreateSubscriptionResponse)
    (c : CachingClient χ ι) : CachingClient χ ι where
  namespaces :=
    if c.client.tryConnecting && !c.client.isConnected && !isBadStatus result
    then c.namespaces.updateNamespaceCache a.namespaceArray else c.namespaces
  client := { c.client with
    toOpcUaClient := c.client.toOpcUaClient.threadConnectExecution result response }

/-! ### Browse -/

/-- A bad first result makes the client read the namespace table anew. -/
def throwIfFirstBad (uaResult : UaBrowseResponse (UaIndexedNodeId ι)) : CachingM χ ι Unit := do
  if isBadStatus uaResult.firstStatus then updateNamespaceCache a
  service (ServiceClient.throwIfFirstBad statusName uaResult.results)

def browseWithContextAndFilter (startNode : NodeId) (browseContext : UaBrowseDescription ι)
    (filter : UaReferenceDescription (UaIndexedNodeId ι) →
      ServiceM χ (UaIndexedNodeId ι) Bool) : CachingM χ ι (List BrowseResult) := do
  let c ← Prog.get
  let startUaNodeId := c.cache.modelNodeIdToUaNodeId text startNode
  service (ServiceClient.verifyConnected a.sessionIsConnected)
  let uaResult := a.browse startUaNodeId browseContext
  throwIfFirstBad statusName a uaResult
  service (ServiceClient.referenceDescriptionsToBrowseResults filter
    (c.cache.referenceToBrowseResult text) uaResult.references)

def browse (startNode : NodeId) (browseContext : BrowseContext) :
    CachingM χ ι (List BrowseResult) := do
  let c ← Prog.get
  browseWithContextAndFilter statusName text a startNode
    (c.cache.getUaBrowseContext text browseContext) fun _ => pure true

/-- Browse for instances of a type; those of other classes are left out by the server. -/
def browseWithResultTypeFilter [DecidableEq ι] (fuel : ℕ) (startNode : NodeId)
    (browseContext : BrowseContext) (typeDefinition : NodeId) :
    CachingM χ ι (List BrowseResult) := do
  let c ← Prog.get
  let typeDefinitionUaNodeId := c.cache.modelNodeIdToUaNodeId text typeDefinition
  service (ServiceClient.verifyConnected a.typeIsConnected)
  let nodeClassMask ←
    service (ServiceClient.lift (nodeClassFromNodeId (a.nodeClass typeDefinitionUaNodeId)))
  browseWithContextAndFilter statusName text a startNode
    { c.cache.getUaBrowseContext text browseContext with nodeClassMask := nodeClassMask }
    fun ref => ServiceClient.isSameOrSubtype statusName (a.types text) fuel
      (text.nonNull typeDefinitionUaNodeId) ref.typeDefinition

/-! ### Supertypes -/

/-- A query that fails is answered with no. -/
def isSameOrSubtype [DecidableEq ι] (fuel : ℕ) (expectedType checkType : NodeId) (maxDepth : ℕ) :
    CachingM χ ι Bool := do
  let c ← Prog.get
  (service (ServiceClient.isSameOrSubtype statusName (a.types text) fuel
    (text.nonNull (c.cache.modelNodeIdToUaNodeId text expectedType))
    (text.nonNull (c.cache.modelNodeIdToUaNodeId text checkType))
    (UInt64.ofNat maxDepth))).catching fun _ => pure false

/-! ### Translate and Read -/

/-- The status of the service call is that of its first result. -/
def translateBrowsePathToNodeId (startNode : NodeId) (browseName : QualifiedName) :
    CachingM χ ι NodeId := do
  let c ← Prog.get
  service (ServiceClient.verifyConnected a.sessionIsConnected)
  if browseName.isNull then .throw (.std "browseName is NULL") else
  if startNode.isNull then .throw (.std "startNode is NULL") else do
  let response := a.translate (c.cache.modelNodeIdToUaNodeId text startNode)
    (c.cache.modelQualifiedNameToUaQualifiedName browseName)
  let uaBrowsePathResults ← Prog.front response.results
  if uaBrowsePathResults.statusCode = badNodeIdUnknown then updateNamespaceCache a
  service (ServiceClient.throwIfBad statusName uaBrowsePathResults.statusCode)
  let target ← Prog.front uaBrowsePathResults.targets
  pure (c.cache.uaNodeIdToModelNodeId text (text.idOf target))

def readeNodeValues (modelNodeIds : List NodeId) : CachingM χ ι (List Json) := do
  let c ← Prog.get
  service (ServiceClient.readeNodeValues statusName (.ok ())
    (a.read (modelNodeIds.map (c.cache.modelNodeIdToUaNodeId text))) id)

/-! ### Subscribe and Unsubscribe -/

/-- Without a handle the namespace table is read anew. -/
def subscribe (nodeId : NodeId) (callback : χ) (c : CachingClient χ ι) :
    Option ValueSubscriptionHandle × CachingClient χ ι :=
  let (handle, client) := c.client.toOpcUaClient.subscribe statusName nodeId callback
    (a.createMonitoredItem (c.cache.modelNodeIdToUaNodeId text nodeId))
  (handle, {
    namespaces := if handle.isNone then c.namespaces.updateNamespaceCache a.namespaceArray
      else c.namespaces
    client := { c.client with toOpcUaClient := client } })

def unsubscribe (monItemIds clientHandles : List Int32) (c : CachingClient χ ι) :
    CachingClient χ ι :=
  { c with client := { c.client with
    toOpcUaClient := c.client.toOpcUaClient.unsubscribe monItemIds clientHandles } }

end CachingClient

end UmatiDashboard
