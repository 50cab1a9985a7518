import UmatiDashboard.DataClient.Exceptions
import UmatiDashboard.Effect.Prog
import UmatiDashboard.ModelOpcUa.ModelInstance
import UmatiDashboard.Util.Json

/-!
# The data client interface

The operations through which the gateway sees an OPC UA server. An implementation acts on a
state `ω` of its own (connection, caches, the server itself), so a theorem that holds for
every `IDashboardDataClient ω` over every `ω` holds for arbitrary and arbitrarily changing
answers: each call may return any value or throw any exception, depending on everything that
was asked before.
-/

namespace UmatiDashboard

inductive BrowseDirection where
  | forward
  | backward
  | both
  deriving DecidableEq

/-- The filter of a Browse request. -/
structure BrowseContext where
  browseDirection : BrowseDirection := .forward
  referenceTypeId : NodeId := ⟨"", ""⟩
  includeSubtypes : Bool := true
  nodeClassMask : ℕ := 0x00
  resultMask : ℕ := 0x3F
  deriving DecidableEq

namespace BrowseContext

def hasComponent : BrowseContext := { referenceTypeId := WellKnown.hasComponent }

def hasTypeDefinition : BrowseContext := { referenceTypeId := WellKnown.hasTypeDefinition }

def hasInterface : BrowseContext := { referenceTypeId := WellKnown.hasInterface }

def hierarchical : BrowseContext := { referenceTypeId := WellKnown.hierarchicalReferences }

def withReference (referenceTypeId : NodeId) : BrowseContext :=
  { referenceTypeId := referenceTypeId }

/-- Variables and variable types. -/
def variableNodes : BrowseContext :=
  { nodeClassMask := 0x12, referenceTypeId := WellKnown.hierarchicalReferences }

end BrowseContext

/-- What the data client hands out for a subscribed variable. The constructor takes the client
handle first. -/
structure ValueSubscriptionHandle where
  clientHandle : Int32
  monitoredItemId : Int32
  nodeId : NodeId
  deriving DecidableEq

/-- The closure given to `Subscribe`: it writes a received value under the node object it has
captured. -/
structure NewValueCallback where
  pNode : NodePtr
  deriving DecidableEq

/-- The data client: each operation maps the client's state to an answer or an exception, and
a new state. -/
structure IDashboardDataClient (ω : Type) where
  browse : NodeId → BrowseContext → ω → Except Exception (List BrowseResult) × ω
  browseWithResultTypeFilter :
    NodeId → BrowseContext → NodeId → ω → Except Exception (List BrowseResult) × ω
  translateBrowsePathToNodeId : NodeId → QualifiedName → ω → Except Exception NodeId × ω
  isSameOrSubtype : NodeId → NodeId → ℕ → ω → Bool × ω
  subscribe :
    NodeId → NewValueCallback → ω → Except Exception (Option ValueSubscriptionHandle) × ω
  /-- failures are logged, so there is nothing to answer -/
  unsubscribe : List Int32 → List Int32 → ω → ω
  readeNodeValues : List NodeId → ω → Except Exception (List Json) × ω
  /-- a handle is a handle of the node that was asked for -/
  subscribe_nodeId : ∀ n cb w h w', subscribe n cb w = (.ok (some h), w') → h.nodeId = n

namespace IDashboardDataClient

variable {ω : Type} (client : IDashboardDataClient ω)

/-- The deprecated three-argument `Browse`. -/
def browseTyped (startNode referenceTypeId typeDefinition : NodeId) :
    ω → Except Exception (List BrowseResult) × ω :=
  client.browseWithResultTypeFilter startNode (.withReference referenceTypeId) typeDefinition

/-- The deprecated `BrowseHasComponent`. -/
def browseHasComponent (startNode typeDefinition : NodeId) :
    ω → Except Exception (List BrowseResult) × ω :=
  client.browseWithResultTypeFilter startNode .hasComponent typeDefinition

variable {client}

/-- The calls that only read keep an invariant of the client's state. -/
structure ReadsKeep (client : IDashboardDataClient ω) (K : ω → Prop) : Prop where
  browse : ∀ n ctx w, K w → K (client.browse n ctx w).2
  browseWithResultTypeFilter :
    ∀ n ctx t w, K w → K (client.browseWithResultTypeFilter n ctx t w).2
  translateBrowsePathToNodeId : ∀ n q w, K w → K (client.translateBrowsePathToNodeId n q w).2
  isSameOrSubtype : ∀ a b depth w, K w → K (client.isSameOrSubtype a b depth w).2
  readeNodeValues : ∀ ns w, K w → K (client.readeNodeValues ns w).2

/-- What holds in every state is kept. -/
theorem readsKeep_of_forall {K : ω → Prop} (hK : ∀ w, K w) : client.ReadsKeep K :=
  ⟨fun _ _ _ _ => hK _, fun _ _ _ _ _ => hK _, fun _ _ _ _ => hK _, fun _ _ _ _ _ => hK _,
    fun _ _ _ => hK _⟩

/-- All calls keep an invariant of the client's state. -/
structure CallsKeep (client : IDashboardDataClient ω) (K : ω → Prop) : Prop where
  reads : client.ReadsKeep K
  subscribe : ∀ n cb w, K w → K (client.subscribe n cb w).2
  unsubscribe : ∀ ms cs w, K w → K (client.unsubscribe ms cs w)

end IDashboardDataClient

/-! ### Recorded clients -/

/-- A call of the data client with its answer: one for each operation that may throw, but for
`Subscribe`. -/
inductive ClientCall where
  | browse (startNode : NodeId) (context : BrowseContext)
      (answer : Except Exception (List BrowseResult))
  | browseWithResultTypeFilter (startNode : NodeId) (context : BrowseContext)
      (typeDefinition : NodeId) (answer : Except Exception (List BrowseResult))
  | translateBrowsePathToNodeId (startNode : NodeId) (browseName : QualifiedName)
      (answer : Except Exception NodeId)
  | readeNodeValues (nodeIds : List NodeId) (answer : Except Exception (List Json))

/-- The state of a data client with the calls made so far. -/
structure Recorded (ω : Type) where
  state : ω
  calls : List ClientCall

namespace Recorded

variable {ω α : Type}

/-- A call that is recorded. -/
def call (record : Except Exception α → ClientCall) (f : ω → Except Exception α × ω)
    (r : Recorded ω) : Except Exception α × Recorded ω :=
  ((f r.state).1, ⟨(f r.state).2, r.calls ++ [record (f r.state).1]⟩)

/-- A call that is not recorded. -/
def silent {β : Type} (f : ω → β × ω) (r : Recorded ω) : β × Recorded ω :=
  ((f r.state).1, { r with state := (f r.state).2 })

end Recorded

/-- The client that answers as the given one does, and keeps a record of it. -/
def IDashboardDataClient.recorded {ω : Type} (client : IDashboardDataClient ω) :
    IDashboardDataClient (Recorded ω) where
  browse n ctx := Recorded.call (.browse n ctx) (client.browse n ctx)
  browseWithResultTypeFilter n ctx t :=
    Recorded.call (.browseWithResultTypeFilter n ctx t) (client.browseWithResultTypeFilter n ctx t)
  translateBrowsePathToNodeId n q :=
    Recorded.call (.translateBrowsePathToNodeId n q) (client.translateBrowsePathToNodeId n q)
  isSameOrSubtype a b depth := Recorded.silent (client.isSameOrSubtype a b depth)
  subscribe n cb := Recorded.silent (client.subscribe n cb)
  unsubscribe ms cs r := { r with state := client.unsubscribe ms cs r.state }
  readeNodeValues ns := Recorded.call (.readeNodeValues ns) (client.readeNodeValues ns)
  subscribe_nodeId n cb r h _ heq :=
    client.subscribe_nodeId n cb r.state h _ (Prod.ext (Prod.ext_iff.mp heq).1 rfl)

end UmatiDashboard
