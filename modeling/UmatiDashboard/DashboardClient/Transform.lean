import UmatiDashboard.DataClient.IDashboardDataClient
import UmatiDashboard.TypeReader.OpcUaTypeReader

/-!
# Expanding a type on an instance

`transformToNodeIds` builds the instance tree of a machine: it follows the type's children on
the server, named children by `TranslateBrowsePathToNodeId` and placeholders by `Browse`. Each
node is expanded once per client (`browsedNodes`), so the recursion is bounded by the nodes of
the server; its fuel bounds the nesting.

The functions for the two kinds of children take the recursive call as a parameter, which is
how the three functions of the source call each other.
-/

namespace UmatiDashboard

/-- The data of one published machine. -/
structure DataSetStorage where
  startNodeId : NodeId
  channel : String
  onlineChannel : String
  node : Node
  values : Std.ExtTreeMap NodePtr Json compare

/-- The members of `DashboardClient`, with the next free address for a node object and the
closures that the data client holds, each with the node it was subscribed for. -/
structure DashboardClient where
  subscribedValues : List (Option ValueSubscriptionHandle)
  browsedNodes : NodeSet
  browsedNodesChildNodes : NodeMap (List Node)
  dataSets : List DataSetStorage
  nextPtr : NodePtr
  callbacks : List (NodeId × NewValueCallback)

namespace DashboardClient

/-- A new client. -/
def new : DashboardClient := ⟨[], ∅, ∅, [], 0, []⟩

/-- A dashboard client at work: the state of the data client and its own. -/
structure Session (ω : Type) where
  world : ω
  this : DashboardClient

variable {ω : Type}

/-- A computation of a dashboard client. -/
abbrev ClientM (ω : Type) : Type → Type := Prog Exception (Session ω)

/-- A call of the data client. -/
def ask {α : Type} (f : ω → Except Exception α × ω) : ClientM ω α :=
  (Prog.call f).zoom Session.world fun w s => { s with world := w }

/-- An update of the client's own members. -/
def update (f : DashboardClient → DashboardClient) : ClientM ω Unit :=
  .modify fun s => { s with this := f s.this }

/-- Allocate a node object. -/
def allocate : ClientM ω NodePtr := fun s =>
  (.ok s.this.nextPtr, { s with this := { s.this with nextPtr := s.this.nextPtr + 1 } })

/-- `browsedNodes.insert(startNode)`, with whether the node was new. -/
def insertBrowsed (startNode : NodeId) : ClientM ω Bool := fun s =>
  (.ok (!s.this.browsedNodes.contains startNode),
    { s with this := { s.this with browsedNodes := s.this.browsedNodes.insert startNode } })

variable (client : IDashboardDataClient ω) (reader : OpcUaTypeReader)

/-- The text of a forwarded exception. -/
def getOptionalAndMandatoryTransformToNodeIdError (nodeId : NodeId)
    (childBrowseName : QualifiedName) (err : String) : String :=
  "In '" ++ nodeId.toString ++ "'->'" ++ childBrowseName.toString ++ "':\n" ++ err

section Children

variable (transformToNodeIds : NodeId → NodeRef → ClientM ω Node)

/-- A named child: resolve its browse name and expand it. A child that cannot be resolved or
expanded is an error of the machine unless it is optional, and an invalid mandatory child
below is forwarded in any case. -/
def optionalAndMandatoryTransformToNodeId (startNode : NodeId) (foundChildNodes : List Node)
    (pChild : NodeRef) : ClientM ω (Bool × List Node) :=
  let child := reader.node pChild
  Prog.catching
    (do
      let childNodeId ← ask (client.translateBrowsePathToNodeId startNode child.specifiedBrowseName)
      if childNodeId.isNull then
        pure (false, foundChildNodes)
      else
        let node ← transformToNodeIds childNodeId pChild
        pure (true, foundChildNodes ++ [node]))
    fun ex =>
      match ex with
      | .machineInvalidChild what hasInvalidMandatoryChild =>
        if hasInvalidMandatoryChild then
          Prog.throw (.machineInvalidChild
            (getOptionalAndMandatoryTransformToNodeIdError startNode child.specifiedBrowseName what)
            hasInvalidMandatoryChild)
        else pure (false, foundChildNodes)
      | ex =>
        if child.modellingRule ≠ .optional then
          Prog.throw (.machineInvalidChild
            (getOptionalAndMandatoryTransformToNodeIdError startNode child.specifiedBrowseName
              ex.what) true)
        else pure (false, foundChildNodes)

/-- The type by which a candidate of a placeholder is expanded: a `BaseObjectType` is replaced
by the interface of the node. -/
def placeholderTypeDefinition (browseResult : BrowseResult) : ClientM ω NodeId :=
  if browseResult.typeDefinition.id = WellKnown.baseObjectType.id then do
    let ifs ← ask (client.browse browseResult.nodeId .hasInterface)
    let first ← Prog.front ifs
    pure first.nodeId
  else pure browseResult.typeDefinition

/-- One candidate of a placeholder, which is expanded if its type has an entry in the type
map. -/
def preparePlaceholderNodeTypeId (instances : List (PlaceholderElement Node))
    (browseResult : BrowseResult) : ClientM ω (List (PlaceholderElement Node)) := do
  let typeDefinition ← placeholderTypeDefinition client browseResult
  match reader.typeMap[typeDefinition]? with
  | some sharedPossibleType => do
    let pNode ← transformToNodeIds browseResult.nodeId sharedPossibleType
    pure (instances ++ [⟨pNode, browseResult.browseName, typeDefinition⟩])
  | none => pure instances

def preparePlaceholderNodesTypeId (browseResults : List BrowseResult) :
    ClientM ω (List (PlaceholderElement Node)) :=
  Prog.foldEach (preparePlaceholderNodeTypeId client reader transformToNodeIds) [] browseResults

/-- The instances of a placeholder. -/
def browsePlaceholder (startNode : NodeId) (pStructurePlaceholder : NodeRef) :
    ClientM ω Node := do
  let child := reader.node pStructurePlaceholder
  let browseResults ←
    ask (client.browseTyped startNode child.referenceType child.specifiedTypeNodeId)
  let instances ← preparePlaceholderNodesTypeId client reader transformToNodeIds browseResults
  pure (.placeholder child.toNodeDefinition instances)

/-- A placeholder child: any exception drops an optional placeholder as a whole, and is thrown
again as a bare `std::exception` for a mandatory one. -/
def optionalAndMandatoryPlaceholderTransformToNodeId (startNode : NodeId)
    (foundChildNodes : List Node) (pChild : NodeRef) : ClientM ω (Bool × List Node) :=
  Prog.catching
    (do
      let placeholderNode ← browsePlaceholder client reader transformToNodeIds startNode pChild
      pure (true, foundChildNodes ++ [placeholderNode]))
    fun ex =>
      if (reader.node pChild).modellingRule ≠ .optionalPlaceholder then Prog.throw ex.sliced
      else pure (false, foundChildNodes)

/-- One child of the type, by its modelling rule. -/
def transformChild (startNode : NodeId) (foundChildNodes : List Node) (pChild : NodeRef) :
    ClientM ω (List Node) :=
  match (reader.node pChild).modellingRule with
  | .optional | .mandatory =>
    Prod.snd <$> optionalAndMandatoryTransformToNodeId client reader transformToNodeIds startNode
      foundChildNodes pChild
  | .optionalPlaceholder | .mandatoryPlaceholder =>
    Prod.snd <$> optionalAndMandatoryPlaceholderTransformToNodeId client reader transformToNodeIds
      startNode foundChildNodes pChild
  | .none => pure foundChildNodes

/-- The children of a node that is expanded for the first time. -/
def findChildNodes (startNode : NodeId) (pTypeDefinition : NodeRef) : ClientM ω (List Node) := do
  let foundChildNodes ← Prog.foldEach (transformChild client reader transformToNodeIds startNode)
    [] (reader.heap.children pTypeDefinition)
  update fun c =>
    { c with browsedNodesChildNodes := c.browsedNodesChildNodes.insert startNode foundChildNodes }
  pure foundChildNodes

end Children

/-- Expand `startNode` by a type. A node that was reached before is not expanded again: it
becomes a node without children. -/
def transformToNodeIds : ℕ → NodeId → NodeRef → ClientM ω Node
  | 0, _, _ => .stuck .outOfFuel
  | fuel + 1, startNode, pTypeDefinition => do
    let type := reader.node pTypeDefinition
    let isNew ← insertBrowsed startNode
    let foundChildNodes ←
      (if isNew then
        findChildNodes client reader (transformToNodeIds fuel) startNode pTypeDefinition
      else pure [])
    let ptr ← allocate
    pure (.simple type.toNodeDefinition ptr startNode type.specifiedTypeNodeId
      type.ofBaseDataVariableType foundChildNodes)

end DashboardClient

end UmatiDashboard
