import UmatiDashboard.DashboardClient.ModelToJson
import UmatiDashboard.DashboardClient.Transform

/-!
# The dashboard client of one machine

`addDataSet` expands the type of a machine, subscribes every variable of the instance tree and
files the result as a data set; `getJson` renders a data set with the values received so far.
A received value is written by the closure that was given to `Subscribe`, under the node object
it was created for.
-/

namespace UmatiDashboard

namespace DashboardClient

variable {ω : Type} (client : IDashboardDataClient ω) (reader : OpcUaTypeReader)

/-! ### Subscribing -/

/-- Only variables with the rules mandatory and optional are subscribed. -/
def isMandatoryOrOptionalVariable (d : NodeDefinition) : Bool :=
  ModelToJson.isVariableClass d.nodeClass &&
    (d.modellingRule == .mandatory || d.modellingRule == .optional)

/-- A handle of this node is held already. -/
def isSubscribed (c : DashboardClient) (nodeId : NodeId) : Bool :=
  c.subscribedValues.any fun value =>
    match value with
    | some h => h.nodeId.equals nodeId
    | none => false

/-- Subscribe one variable, once per node identifier; a failing call is swallowed. -/
def subscribeValue (ptr : NodePtr) (nodeId : NodeId) : ClientM ω Unit :=
  Prog.catching
    (do
      let s ← Prog.get
      if isSubscribed s.this nodeId then pure ()
      else do
        let subscribedValue ← ask (client.subscribe nodeId ⟨ptr⟩)
        update fun c =>
          { c with
            subscribedValues := c.subscribedValues ++ [subscribedValue]
            callbacks :=
              if subscribedValue.isSome then c.callbacks ++ [(nodeId, ⟨ptr⟩)] else c.callbacks })
    fun _ => pure ()

mutual

/-- Subscribe a node and everything below it. -/
def subscribeValues : Node → ClientM ω Unit
  | .simple d ptr nodeId _ _ childNodes => do
    if isMandatoryOrOptionalVariable d then subscribeValue client ptr nodeId else pure ()
    handleSubscribeChildNodes childNodes
  | .placeholder .. => pure ()

/-- The switch over the modelling rule of each child, which has to fit its kind. -/
def handleSubscribeChildNodes : List Node → ClientM ω Unit
  | [] => pure ()
  | .simple d ptr nodeId typeNodeId b childNodes :: rest => do
    match d.modellingRule with
    | .mandatory | .optional => subscribeValues (.simple d ptr nodeId typeNodeId b childNodes)
    | _ => pure ()
    handleSubscribeChildNodes rest
  | .placeholder d instances :: rest => do
    match d.modellingRule with
    | .mandatoryPlaceholder | .optionalPlaceholder => handleSubscribePlaceholderChildNode instances
    | _ => pure ()
    handleSubscribeChildNodes rest

def handleSubscribePlaceholderChildNode : List (PlaceholderElement Node) → ClientM ω Unit
  | [] => pure ()
  | ⟨pNode, _, _⟩ :: rest => do
    subscribeValues pNode
    handleSubscribePlaceholderChildNode rest

end

/-! ### Data sets -/

def prepareDataSetStorage (fuel : ℕ) (startNodeId : NodeId) (pTypeDefinition : NodeRef)
    (channel onlineChannel : String) : ClientM ω DataSetStorage := do
  let node ← transformToNodeIds client reader fuel startNodeId pTypeDefinition
  pure ⟨startNodeId, channel, onlineChannel, node, ∅⟩

/-- Add a machine. An `OpcUaException` is logged and swallowed, every other exception is thrown
again as an `OpcUaException`. -/
def addDataSet (fuel : ℕ) (startNodeId : NodeId) (pTypeDefinition : NodeRef)
    (channel onlineChannel : String) : ClientM ω Unit :=
  Prog.catching
    (do
      let pDataSetStorage ← prepareDataSetStorage client reader fuel startNodeId pTypeDefinition
        channel onlineChannel
      subscribeValues client pDataSetStorage.node
      update fun c => { c with dataSets := c.dataSets ++ [pDataSetStorage] })
    fun ex =>
      if ex.isOpcUaException then pure ()
      else Prog.throw (.opcUa ex.what)

/-- Drop all subscriptions and data sets. -/
def unsubscribe : ClientM ω Unit := fun s =>
  let held := s.this.subscribedValues.filterMap id
  let monItemIds := held.map ValueSubscriptionHandle.monitoredItemId
  let clientHandles := held.map ValueSubscriptionHandle.clientHandle
  (.ok (),
    { world := client.unsubscribe monItemIds clientHandles s.world
      this := { s.this with subscribedValues := [], dataSets := [] } })

/-- A notification of node `nodeId` runs the closures that were subscribed for it. -/
def notify (c : DashboardClient) (d : DataSetStorage) (nodeId : NodeId) (value : Json) :
    DataSetStorage :=
  let write (values : Std.ExtTreeMap NodePtr Json compare) (cb : NodeId × NewValueCallback) :=
    if cb.1 = nodeId then values.insert cb.2.pNode value else values
  { d with values := c.callbacks.foldl write d.values }

/-- The values a data set shows: null for a node object that nothing was written for. -/
def getValue (d : DataSetStorage) (ptr : NodePtr) : Json := (d.values[ptr]?).getD .null

/-- The JSON published for a data set. -/
def getJson (d : DataSetStorage) : Except Exception Json :=
  ModelToJson.modelToJson (getValue d) {} d.node

end DashboardClient

end UmatiDashboard
