import UmatiDashboard.DashboardClient.Fuel
import UmatiDashboard.MachineObserver.UpdateMachines

/-!
# More fuel

With the expansion of an instance, the search for machines and so a whole cycle are monotone in
their fuel: a cycle that does not run out of fuel is the same with any greater amount of it.
-/

namespace UmatiDashboard

open Prog (Approximates)

namespace Observer

variable {ω : Type} (o : Observer ω)

section Search

variable {f g : NodeId → NodeId → Option (NodeId → Bool) → ObserverM ω (List BrowseResult)}
  (h : ∀ n p c, (f n p c).Approximates (g n p c))

include h

theorem approximates_enterMachine (parentNodeId : NodeId) (machine : BrowseResult) :
    (enterMachine o f parentNodeId machine).Approximates
      (enterMachine o g parentNodeId machine) := by
  refine .catching (.bind ?_ fun _ => .refl _) fun _ => .refl _
  refine .catching ((Approximates.refl _).bind fun componentFolder => ?_) fun _ => .refl _
  split_ifs
  · exact .refl _
  · exact h _ _ _

theorem approximates_browseCandidate (parentNodeId : NodeId) (filter : Option (NodeId → Bool))
    (newMachines : List BrowseResult) (machine : BrowseResult) :
    (browseCandidate o f parentNodeId filter newMachines machine).Approximates
      (browseCandidate o g parentNodeId filter newMachines machine) := by
  unfold browseCandidate
  split_ifs
  · refine (Approximates.refl _).bind fun m => (Approximates.refl _).bind fun r => ?_
    cases r with
    | none => exact .refl _
    | some m' => exact (approximates_enterMachine o h parentNodeId m').bind fun _ => .refl _
  · exact .refl _

end Search

/-- The search is monotone in its fuel. -/
theorem approximates_browseForMachines :
    ∀ {fuel fuel' : ℕ}, fuel ≤ fuel' → ∀ nodeId parentNodeId filter,
      (browseForMachines o fuel nodeId parentNodeId filter).Approximates
        (browseForMachines o fuel' nodeId parentNodeId filter)
  | 0, _, _, _, _, _ => .outOfFuel
  | fuel + 1, fuel' + 1, hle, nodeId, parentNodeId, filter => by
    have ih := approximates_browseForMachines (Nat.le_of_succ_le_succ hle)
    exact (Approximates.refl _).bind fun potentialMachines =>
      .foldEach (approximates_browseCandidate o ih parentNodeId filter) _ _

theorem approximates_canBrowseMachineList {fuel fuel' : ℕ} (hle : fuel ≤ fuel') :
    (canBrowseMachineList o fuel).Approximates (canBrowseMachineList o fuel') :=
  .catching (.map (approximates_browseForMachines o hle _ _ _)) fun _ => .refl _

theorem approximates_addNewMachine {fuel fuel' : ℕ} (hle : fuel ≤ fuel')
    (newMachine : BrowseResult) :
    (addNewMachine o fuel newMachine).Approximates (addNewMachine o fuel' newMachine) := by
  refine .catching (.bind (.catching ?_ fun _ => .refl _) fun _ => .refl _) fun _ => .refl _
  split_ifs
  · exact .refl _
  · refine (Approximates.refl _).bind fun p_type => (Approximates.refl _).bind fun t =>
      (Approximates.refl _).bind fun _ => .bind (.zoom (.bind ?_ fun _ => .refl _)) fun _ => .refl _
    exact DashboardClient.approximates_addDataSet o.data o.reader hle _ _ _ _

theorem approximates_processMachineList {fuel fuel' : ℕ} (hle : fuel ≤ fuel')
    (toBeRemovedMachines : NodeSet) (machineList : List BrowseResult) :
    (processMachineList o fuel toBeRemovedMachines machineList).Approximates
      (processMachineList o fuel' toBeRemovedMachines machineList) := by
  refine (Approximates.refl _).bind fun _ => (Approximates.refl _).bind fun _ =>
    (Approximates.refl _).bind fun found => (Approximates.refl _).bind fun _ =>
      .bind (.forEach (fun newMachineNodeId => ?_) _) fun _ => .refl _
  refine (Approximates.refl _).bind fun skipped => ?_
  split_ifs
  · exact .refl _
  · exact approximates_addNewMachine o hle _

/-- **A cycle is monotone in its fuel.** -/
theorem approximates_updateMachines {fuel fuel' : ℕ} (hle : fuel ≤ fuel') :
    (updateMachines o fuel).Approximates (updateMachines o fuel') := by
  refine (Approximates.refl _).bind fun t =>
    (approximates_canBrowseMachineList o hle).bind fun r => ?_
  cases r with
  | none => exact .refl _
  | some machineList => exact approximates_processMachineList o hle _ _

end Observer

end UmatiDashboard
