import Mathlib.Logic.Function.Basic
import UmatiDashboard.OpcUaClient.Connection

/-!
# The service calls

The operations of the client that make a service call, with the responses of the OPC UA stack as
arguments. A response has a service result of its own and a list of results, and the list may be
empty; `results->statusCode` is the access to its first element.

Node identifiers are those of the stack here, with `none` for the null identifier. Their
conversion to and from the identifiers of the model may throw, and so may the conversion of a
value; these functions (`prepared`, `convert`) are arguments too.
-/

namespace UmatiDashboard

/-- The characters of a string identifier and the bytes of an opaque one are kept on the heap. A
copy of the description that does not copy them as well ends with the response. -/
structure UaReferenceDescription (κ : Type) where
  referenceTypeId : Option κ
  nodeId : Option κ
  browseName : UInt16 × String
  nodeClass : NodeClass
  typeDefinition : Option κ
  nodeIdOnHeap : Bool

/-- The continuation point is not empty while the server has further references to deliver. -/
structure UaBrowseResult (κ : Type) where
  statusCode : UInt32
  continuationPoint : List UInt8
  references : List (UaReferenceDescription κ)

structure UaBrowseResponse (κ : Type) where
  serviceResult : UInt32
  results : List (UaBrowseResult κ)

structure UaBrowsePathResult (κ : Type) where
  statusCode : UInt32
  targets : List (Option κ)

structure UaTranslateResponse (κ : Type) where
  serviceResult : UInt32
  results : List (UaBrowsePathResult κ)

structure UaDataValue (δ : Type) where
  status : UInt32
  value : δ

structure UaReadResponse (δ : Type) where
  serviceResult : UInt32
  results : List (UaDataValue δ)

structure UaDeleteMonitoredItemsResponse where
  serviceResult : UInt32
  results : List UInt32

/-- `SessionBrowse` collects the references of all results. -/
def UaBrowseResponse.references {κ : Type} (response : UaBrowseResponse κ) :
    List (UaReferenceDescription κ) :=
  response.results.flatMap UaBrowseResult.references

/-- What the stack has to say about a type: whether it has a session when its node class is read,
that class, and the response to browsing its supertype. -/
structure UaTypeAnswers (κ : Type) where
  sessionIsConnected : Bool
  nodeClass : Option NodeClass
  response : UaBrowseResponse κ

/-- The client with the supertypes it knows (`m_superTypes`). -/
structure ServiceClient (χ κ : Type) extends OpcUaClient χ where
  superTypes : κ → Option (Option κ)

/-- A computation of the client. -/
abbrev ServiceM (χ κ : Type) : Type → Type := Prog Exception (ServiceClient χ κ)

namespace ServiceClient

variable {χ κ δ α : Type} (statusName : UInt32 → String)

/-- Something that returns or throws. -/
def lift (r : Except Exception α) : ServiceM χ κ α := Prog.call fun c => (r, c)

/-- Check the connection, given whether the stack has a session. -/
def verifyConnected (sessionIsConnected : Bool) : ServiceM χ κ Unit :=
  Prog.zoom ServiceClient.toOpcUaClient (fun c s => { s with toOpcUaClient := c })
    (Prog.call fun c => c.checkConnection sessionIsConnected)

/-- Throw on a bad status. -/
def throwIfBad (status : UInt32) : ServiceM χ κ Unit :=
  if isBadStatus status then .throw (.ofStatus statusName status) else pure ()

/-! ### Supertypes -/

/-- The classes of types. A read that fails leaves the class unspecified. -/
def isTypeClass : Option NodeClass → Bool
  | some .objectType => true
  | some .variableType => true
  | _ => false

def throwIfNoType (nodeClass : Option NodeClass) : ServiceM χ κ Unit :=
  if isTypeClass nodeClass then pure () else .throw (.umati "Invalid NodeClass")

/-- The null identifier stands for no supertype and for several. -/
def superTypeOf : List (UaReferenceDescription κ) → Option κ
  | [ref] => ref.nodeId
  | _ => none

/-- The response is cleared before the identifier of its only reference is copied. -/
def copiesFreed : List (UaReferenceDescription κ) → Bool
  | [ref] => ref.nodeIdOnHeap
  | _ => false

def copySuperType (referenceDescriptions : List (UaReferenceDescription κ)) :
    ServiceM χ κ (Option κ) :=
  if copiesFreed referenceDescriptions then .stuck .freed
  else pure (superTypeOf referenceDescriptions)

def browseSuperType (answers : UaTypeAnswers κ) : ServiceM χ κ (Option κ) := do
  verifyConnected answers.sessionIsConnected
  throwIfNoType answers.nodeClass
  let first ← Prog.front answers.response.results
  throwIfBad statusName first.statusCode
  copySuperType answers.response.references

/-- Climb from a type to the expected one. The depth is counted down, past zero as well, but not
compared with anything. -/
def isSameOrSubtype [DecidableEq κ] (answers : κ → UaTypeAnswers κ) (fuel : Nat)
    (expectedType checkType : Option κ) (maxDepth : UInt64 := 100) : ServiceM χ κ Bool :=
  match fuel, checkType with
  | 0, _ => .stuck .outOfFuel
  | _ + 1, none => pure false
  | fuel + 1, some checkType => do
    if expectedType = some checkType then return true
    let c ← Prog.get
    match c.superTypes checkType with
    | some superType => isSameOrSubtype answers fuel expectedType superType (maxDepth - 1)
    | none => do
      let superType ← browseSuperType statusName (answers checkType)
      Prog.modify fun c => { c with
        superTypes := Function.update c.superTypes checkType (some superType) }
      isSameOrSubtype answers fuel expectedType superType (maxDepth - 1)

/-- The query for ids of the model: an exception of the climb is answered with no. -/
def isSameOrSubtypeOfModel [DecidableEq κ] (answers : κ → UaTypeAnswers κ) (fuel : Nat)
    (expectedType checkType : Except Exception (Option κ)) (maxDepth : UInt64 := 100) :
    ServiceM χ κ Bool := do
  let expectedTypeUa ← lift expectedType
  let checkTypeUa ← lift checkType
  (isSameOrSubtype statusName answers fuel expectedTypeUa checkTypeUa maxDepth).catching
    fun _ => pure false

/-! ### Browse -/

/-- One reference of a Browse response: drop it, or convert it. -/
def referenceDescriptionToBrowseResult (filter : UaReferenceDescription κ → ServiceM χ κ Bool)
    (convert : UaReferenceDescription κ → Except Exception BrowseResult)
    (ref : UaReferenceDescription κ) : ServiceM χ κ (List BrowseResult) := do
  if ← filter ref then
    let entry ← lift (convert ref)
    pure [entry]
  else pure []

def referenceDescriptionsToBrowseResults (filter : UaReferenceDescription κ → ServiceM χ κ Bool)
    (convert : UaReferenceDescription κ → Except Exception BrowseResult)
    (referenceDescriptions : List (UaReferenceDescription κ)) : ServiceM χ κ (List BrowseResult) :=
  Prog.foldEach (fun browseResult ref => do
    let entry ← referenceDescriptionToBrowseResult filter convert ref
    pure (browseResult ++ entry)) [] referenceDescriptions

/-- The guarded look at the first result. -/
def throwIfFirstBad : List (UaBrowseResult κ) → ServiceM χ κ Unit
  | [] => pure ()
  | first :: _ => throwIfBad statusName first.statusCode

/-- Handling a continuation point is not implemented. -/
def handleContinuationPoint (_continuationPoint : List UInt8) : ServiceM χ κ Unit := pure ()

/-- Browse the references of a node. The service result is not looked at, and `SessionBrowse`
leaves the continuation point that it is handed as empty as it was. -/
def browseWithContextAndFilter (prepared : Except Exception Unit) (sessionIsConnected : Bool)
    (response : UaBrowseResponse κ) (filter : UaReferenceDescription κ → ServiceM χ κ Bool)
    (convert : UaReferenceDescription κ → Except Exception BrowseResult) :
    ServiceM χ κ (List BrowseResult) := do
  lift prepared
  verifyConnected sessionIsConnected
  throwIfFirstBad statusName response.results
  let browseResult ← referenceDescriptionsToBrowseResults filter convert response.references
  handleContinuationPoint []
  pure browseResult

def browse (prepared : Except Exception Unit) (sessionIsConnected : Bool)
    (response : UaBrowseResponse κ)
    (convert : UaReferenceDescription κ → Except Exception BrowseResult) :
    ServiceM χ κ (List BrowseResult) :=
  browseWithContextAndFilter statusName prepared sessionIsConnected response
    (fun _ => pure true) convert

/-- Browse the references of a node to instances of a type. -/
def browseWithResultTypeFilter [DecidableEq κ] (answers : κ → UaTypeAnswers κ) (fuel : Nat)
    (typeDefinition : Except Exception (Option κ)) (typeIsConnected : Bool)
    (nodeClass : Option NodeClass) (prepared : Except Exception Unit) (sessionIsConnected : Bool)
    (response : UaBrowseResponse κ)
    (convert : UaReferenceDescription κ → Except Exception BrowseResult) :
    ServiceM χ κ (List BrowseResult) := do
  let typeDefinition ← lift typeDefinition
  verifyConnected typeIsConnected
  throwIfNoType nodeClass
  browseWithContextAndFilter statusName prepared sessionIsConnected response
    (fun ref => isSameOrSubtype statusName answers fuel typeDefinition ref.typeDefinition) convert

/-! ### Translate and Read -/

/-- `SessionTranslateBrowsePathsToNodeIds` copies the first result. With no target or with
several of them the operation goes on with the first one. -/
def translateBrowsePathToNodeId (sessionIsConnected : Bool) (startNode : NodeId)
    (browseName : QualifiedName) (prepared : Except Exception Unit)
    (response : UaTranslateResponse κ) (convert : Option κ → Except Exception NodeId) :
    ServiceM χ κ NodeId := do
  verifyConnected sessionIsConnected
  lift (if browseName.isNull then .error (.std "browseName is NULL") else .ok ())
  lift (if startNode.isNull then .error (.std "startNode is NULL") else .ok ())
  lift prepared
  let uaBrowsePathResults ← Prog.front response.results
  throwIfBad statusName uaBrowsePathResults.statusCode
  let target ← Prog.front uaBrowsePathResults.targets
  lift (convert target)

def readeNodeValues (prepared : Except Exception Unit) (response : UaReadResponse δ)
    (convert : δ → Except Exception Json) : ServiceM χ κ (List Json) := do
  lift prepared
  let first ← Prog.front response.results
  lift (if isBadStatus first.status then
      .error (.opcUa ("Received non good status for reading: " ++ statusName first.status))
    else .ok ())
  lift (response.results.mapM fun result => convert result.value)

/-! ### Unsubscribe -/

/-- The array of the ids to be deleted: `clientHandles.at(i)` for every monitored item id. -/
def newMonitoredItemIds (monItemIds clientHandles : List Int32) : Except Exception (List UInt32) :=
  if monItemIds.length ≤ clientHandles.length then
    .ok ((clientHandles.take monItemIds.length).map Int32.toUInt32)
  else .error (.std "vector::_M_range_check")

/-- `Subscription::Unsubscribe`. The results are read for as many items as were asked for. -/
def subscriptionUnsubscribe (monItemIds clientHandles : List Int32)
    (response : UaDeleteMonitoredItemsResponse) : ServiceM χ κ Unit := do
  Prog.modify fun c => { c with toOpcUaClient := c.unsubscribe monItemIds clientHandles }
  let ids ← lift (newMonitoredItemIds monItemIds clientHandles)
  if response.results.length < ids.length then .stuck .undefined else pure ()

end ServiceClient

end UmatiDashboard
