import UmatiDashboard.DataClient.IDashboardDataClient
import UmatiDashboard.Util.Climb

/-!
# The queries for supertypes

A data client may keep the queries for supertypes that it was asked, each with its answer. Nothing
reads them; they are what statements about the cache of machine types speak of.

The server has a fixed hierarchy of types. An answer `true` is right; an answer `false` may also
stand for a query that failed (`Honest`).
-/

namespace UmatiDashboard

/-- A query whether a type is the expected one or a subtype of it. -/
structure SuperTypeAnswer where
  expectedType : NodeId
  checkType : NodeId
  answer : Bool
  deriving DecidableEq

/-- The state of a data client with the queries for supertypes. -/
structure Queried (ω : Type) where
  state : ω
  queries : List SuperTypeAnswer

/-- A call that is no such query. -/
def Queried.other {ω β : Type} (f : ω → β × ω) (w : Queried ω) : β × Queried ω :=
  ((f w.state).1, { w with state := (f w.state).2 })

namespace IDashboardDataClient

variable {ω : Type}

/-- The client that answers as the given one does, and keeps the queries. -/
def queried (client : IDashboardDataClient ω) : IDashboardDataClient (Queried ω) where
  browse n ctx := Queried.other (client.browse n ctx)
  browseWithResultTypeFilter n ctx t := Queried.other (client.browseWithResultTypeFilter n ctx t)
  translateBrowsePathToNodeId n q := Queried.other (client.translateBrowsePathToNodeId n q)
  isSameOrSubtype a b depth w :=
    ((client.isSameOrSubtype a b depth w.state).1,
      ⟨(client.isSameOrSubtype a b depth w.state).2,
        w.queries ++ [⟨a, b, (client.isSameOrSubtype a b depth w.state).1⟩]⟩)
  subscribe n cb := Queried.other (client.subscribe n cb)
  unsubscribe ms cs w := { w with state := client.unsubscribe ms cs w.state }
  readeNodeValues ns := Queried.other (client.readeNodeValues ns)
  subscribe_nodeId n cb w h _ heq :=
    client.subscribe_nodeId n cb w.state h _ (Prod.ext (Prod.ext_iff.mp heq).1 rfl)

/-- `expectedType` is `checkType` or one of the types above it. -/
def IsSameOrSubtype (superType : NodeId → Option NodeId) (expectedType checkType : NodeId) : Prop :=
  ∃ n, ancestor superType n (some checkType) = some expectedType

/-- The answer `true` is given for subtypes only. -/
def Honest (client : IDashboardDataClient ω) (superType : NodeId → Option NodeId) : Prop :=
  ∀ a b depth w, (client.isSameOrSubtype a b depth w).1 = true → IsSameOrSubtype superType a b

end IDashboardDataClient

end UmatiDashboard
