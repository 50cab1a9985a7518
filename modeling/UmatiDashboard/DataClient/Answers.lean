import UmatiDashboard.DataClient.IDashboardDataClient

/-!
# Servers that answer the same question the same way

`Answers` is what a deterministic server answers to the calls that only read. A client of such a
server may change its own state with every call; the answers do not depend on it.
-/

namespace UmatiDashboard

/-- The answers of a server. -/
structure Answers where
  browse : NodeId → BrowseContext → Except Exception (List BrowseResult)
  browseWithResultTypeFilter :
    NodeId → BrowseContext → NodeId → Except Exception (List BrowseResult)
  translateBrowsePathToNodeId : NodeId → QualifiedName → Except Exception NodeId

namespace Answers

/-- The answer to the deprecated three-argument `Browse`. -/
def browseTyped (A : Answers) (startNode referenceTypeId typeDefinition : NodeId) :
    Except Exception (List BrowseResult) :=
  A.browseWithResultTypeFilter startNode (.withReference referenceTypeId) typeDefinition

/-- No call that reads fails. -/
structure NeverFails (A : Answers) : Prop where
  browse : ∀ n ctx, ∃ rs, A.browse n ctx = .ok rs
  browseWithResultTypeFilter : ∀ n ctx t, ∃ rs, A.browseWithResultTypeFilter n ctx t = .ok rs
  translateBrowsePathToNodeId : ∀ n q, ∃ x, A.translateBrowsePathToNodeId n q = .ok x

/-- The client of a server with these answers that hands out a handle for every node. -/
def client (A : Answers) : IDashboardDataClient Unit where
  browse n ctx _ := (A.browse n ctx, ())
  browseWithResultTypeFilter n ctx t _ := (A.browseWithResultTypeFilter n ctx t, ())
  translateBrowsePathToNodeId n q _ := (A.translateBrowsePathToNodeId n q, ())
  isSameOrSubtype expected checked _ _ := (expected.equals checked, ())
  subscribe n _ _ := (.ok (some ⟨0, 0, n⟩), ())
  unsubscribe _ _ _ := ()
  readeNodeValues ns _ := (.ok (ns.map fun _ => .null), ())
  subscribe_nodeId n _ _ h _ heq := by
    cases heq
    rfl

end Answers

namespace IDashboardDataClient

variable {ω : Type}

/-- The client answers as the server does, in every state. -/
structure AnswersBy (client : IDashboardDataClient ω) (A : Answers) : Prop where
  browse : ∀ n ctx w, (client.browse n ctx w).1 = A.browse n ctx
  browseWithResultTypeFilter : ∀ n ctx t w,
    (client.browseWithResultTypeFilter n ctx t w).1 = A.browseWithResultTypeFilter n ctx t
  translateBrowsePathToNodeId : ∀ n q w,
    (client.translateBrowsePathToNodeId n q w).1 = A.translateBrowsePathToNodeId n q

/-- Every `Subscribe` hands out a handle. -/
def Subscribes (client : IDashboardDataClient ω) : Prop :=
  ∀ n cb w, ∃ h, (client.subscribe n cb w).1 = .ok (some h)

end IDashboardDataClient

namespace Answers

theorem answersBy_client (A : Answers) : A.client.AnswersBy A :=
  ⟨fun _ _ _ => rfl, fun _ _ _ _ => rfl, fun _ _ _ => rfl⟩

theorem subscribes_client (A : Answers) : A.client.Subscribes := fun _ _ _ => ⟨_, rfl⟩

end Answers

end UmatiDashboard
