import UmatiDashboard.DashboardClient.DashboardClient
import UmatiDashboard.Effect.Approx

/-!
# More fuel for an expansion

The expansion of an instance is monotone in its fuel: what does not run out of fuel is the same
with any greater amount of it.
-/

namespace UmatiDashboard

open Prog (Approximates)

namespace DashboardClient

variable {ω : Type} (client : IDashboardDataClient ω) (reader : OpcUaTypeReader)

section Children

variable {f g : NodeId → NodeRef → ClientM ω Node} (h : ∀ n t, (f n t).Approximates (g n t))

include h

theorem approximates_optionalAndMandatory (startNode : NodeId) (found : List Node)
    (pChild : NodeRef) :
    (optionalAndMandatoryTransformToNodeId client reader f startNode found pChild).Approximates
      (optionalAndMandatoryTransformToNodeId client reader g startNode found pChild) := by
  refine .catching ((Approximates.refl _).bind fun childNodeId => ?_) fun _ => .refl _
  split_ifs
  · exact .refl _
  · exact (h _ _).bind fun _ => .refl _

theorem approximates_preparePlaceholderNodeTypeId (instances : List (PlaceholderElement Node))
    (browseResult : BrowseResult) :
    (preparePlaceholderNodeTypeId client reader f instances browseResult).Approximates
      (preparePlaceholderNodeTypeId client reader g instances browseResult) := by
  refine (Approximates.refl _).bind fun typeDefinition => ?_
  split
  · exact (h _ _).bind fun _ => .refl _
  · exact .refl _

theorem approximates_optionalAndMandatoryPlaceholder (startNode : NodeId) (found : List Node)
    (pChild : NodeRef) :
    (optionalAndMandatoryPlaceholderTransformToNodeId client reader f startNode found
      pChild).Approximates
      (optionalAndMandatoryPlaceholderTransformToNodeId client reader g startNode found
        pChild) := by
  refine .catching (.bind ?_ fun _ => .refl _) fun _ => .refl _
  refine (Approximates.refl _).bind fun browseResults => .bind ?_ fun _ => .refl _
  exact .foldEach (approximates_preparePlaceholderNodeTypeId client reader h) _ _

theorem approximates_transformChild (startNode : NodeId) (found : List Node) (pChild : NodeRef) :
    (transformChild client reader f startNode found pChild).Approximates
      (transformChild client reader g startNode found pChild) := by
  unfold transformChild
  split
  · exact .map (approximates_optionalAndMandatory client reader h startNode found pChild)
  · exact .map (approximates_optionalAndMandatory client reader h startNode found pChild)
  · exact .map
      (approximates_optionalAndMandatoryPlaceholder client reader h startNode found pChild)
  · exact .map
      (approximates_optionalAndMandatoryPlaceholder client reader h startNode found pChild)
  · exact .refl _

end Children

/-- The expansion of an instance is monotone in its fuel. -/
theorem approximates_transformToNodeIds :
    ∀ {fuel fuel' : ℕ}, fuel ≤ fuel' → ∀ startNode pTypeDefinition,
      (transformToNodeIds client reader fuel startNode pTypeDefinition).Approximates
        (transformToNodeIds client reader fuel' startNode pTypeDefinition)
  | 0, _, _, _, _ => .outOfFuel
  | fuel + 1, fuel' + 1, hle, startNode, pTypeDefinition => by
    have ih := approximates_transformToNodeIds (Nat.le_of_succ_le_succ hle)
    refine (Approximates.refl _).bind fun isNew => .bind ?_ fun _ => .refl _
    split_ifs
    · exact .bind (.foldEach (approximates_transformChild client reader ih startNode) _ _)
        fun _ => .refl _
    · exact .refl _

theorem approximates_addDataSet {fuel fuel' : ℕ} (hle : fuel ≤ fuel') (startNodeId : NodeId)
    (pTypeDefinition : NodeRef) (channel onlineChannel : String) :
    (addDataSet client reader fuel startNodeId pTypeDefinition channel onlineChannel).Approximates
      (addDataSet client reader fuel' startNodeId pTypeDefinition channel onlineChannel) := by
  refine .catching (.bind (.bind ?_ fun _ => .refl _) fun _ => .refl _) fun _ => .refl _
  exact approximates_transformToNodeIds client reader hle startNodeId pTypeDefinition

end DashboardClient

end UmatiDashboard
