import UmatiDashboard.MachineObserver.Fuel
import UmatiDashboard.MachineObserver.Runs
import UmatiDashboard.MachineObserver.SearchPlan

/-!
# When the search comes to an end

The search does not remember the folders it has been to. It comes to an end exactly if no folder
of components that it comes to leads back to itself (`search_terminates_iff`). On a server where
the components of a machine contain the machine it goes on for ever.
-/

namespace UmatiDashboard

open NestedSearch (Step Ending Leads ending effort)

/-- The nodes a call of `Browse` was made for. -/
def ClientCall.browsedNode : ClientCall → Option NodeId
  | .browse startNode _ _ => some startNode
  | .browseWithResultTypeFilter startNode _ _ _ => some startNode
  | _ => none

/-- How often `Browse` was called for a node. -/
def browsesOf (n : NodeId) (calls : List ClientCall) : ℕ :=
  calls.countP fun call => call.browsedNode = some n

theorem browsesOf_append (n : NodeId) (calls calls' : List ClientCall) :
    browsesOf n (calls ++ calls') = browsesOf n calls + browsesOf n calls' :=
  List.countP_append

section Plan

variable (A : MachineAnswers) (reader : OpcUaTypeReader) (cache : NodeMap NodeId)

/-- No folder of components that the search of a place comes to leads back to itself. -/
def CircleFree (place : SearchPlace) : Prop :=
  ∀ folder, Relation.ReflTransGen (Leads (searchSteps A reader cache)) place folder →
    ¬ Relation.TransGen (Leads (searchSteps A reader cache)) folder folder

variable {A reader cache} {place place' : SearchPlace}

theorem eq_of_componentsStep {n : NodeId} (h : componentsStep A n = .nested place) :
    ∃ folder, A.translateBrowsePathToNodeId n WellKnown.componentsFolder = .ok folder ∧
      place = (folder, none) := by
  rw [componentsStep] at h
  cases hanswer : A.translateBrowsePathToNodeId n WellKnown.componentsFolder with
  | error ex =>
    rw [hanswer] at h
    simp only [errorStep] at h
    split_ifs at h
  | ok folder =>
    rw [hanswer] at h
    dsimp only at h
    split_ifs at h
    cases h
    exact ⟨folder, rfl, rfl⟩

/-- A search comes only to folders of components. -/
theorem eq_of_leads (h : Leads (searchSteps A reader cache) place place') :
    ∃ n folder, A.translateBrowsePathToNodeId n WellKnown.componentsFolder = .ok folder ∧
      place' = (folder, none) := by
  obtain ⟨before, after, hsteps, -⟩ := h
  have hmem : Step.nested place' ∈ searchSteps A reader cache place := by simp [hsteps]
  rw [searchSteps] at hmem
  cases hanswer : A.browse place.1 .hierarchical with
  | error ex =>
    rw [hanswer] at hmem
    simp only [errorStep, List.mem_singleton] at hmem
    split_ifs at hmem
  | ok potentialMachines =>
    rw [hanswer] at hmem
    obtain ⟨machine, -, hstep⟩ := List.mem_map.mp hmem
    simp only [candidateStep] at hstep
    split_ifs at hstep
    cases hverdict : verdict A reader cache machine with
    | machine =>
      rw [hverdict] at hstep
      exact ⟨machine.nodeId, eq_of_componentsStep hstep⟩
    | noMachine => simp [hverdict] at hstep
    | abort => simp [hverdict] at hstep

/-- A plan with finitely many folders of components can be carried out exactly if it has no
circles. -/
theorem exists_ending_iff_circleFree
    (hfolders : {folder | ∃ n, A.translateBrowsePathToNodeId n WellKnown.componentsFolder =
      .ok folder}.Finite) :
    (∃ fuel, ending (searchSteps A reader cache) fuel place ≠ .unfinished) ↔
      CircleFree A reader cache place := by
  rw [NestedSearch.exists_ending_iff]
  refine NestedSearch.acc_iff_of_finite (hfolders.image fun folder => (folder, none)) ?_
  intro place place' h
  obtain ⟨n, folder, hfolder, rfl⟩ := eq_of_leads h
  exact ⟨folder, ⟨n, hfolder⟩, rfl⟩

end Plan

namespace Observer

variable {ω : Type} (o : Observer ω) {A : MachineAnswers}

/-- With enough fuel a search comes to an end, and there is a bound for the calls of `Browse` for
each node. -/
def Terminates (s : ObserverState ω) (search : ℕ → ObserverM ω (List BrowseResult)) : Prop :=
  ∃ bound, ∀ fuel, bound ≤ fuel → ((search fuel).run s).1 ≠ .stuck .outOfFuel ∧
    ∀ n, browsesOf n ((search fuel).run s).2.world.calls ≤ browsesOf n s.world.calls + bound

theorem endingOf_eq_unfinished_iff {α : Type} {out : Outcome Exception α} :
    endingOf out = .unfinished ↔ out = .stuck .outOfFuel := by
  cases out with
  | ok a => simp
  | throw ex =>
    simp only [endingOf]
    split_ifs <;> simp
  | stuck w => cases w <;> simp [endingOf]

variable {o} {s : ObserverState ω} {search : ℕ → ObserverM ω (List BrowseResult)}
  {cache : NodeMap NodeId}

/-- The calls of a part of the search bound those for each node. -/
theorem Explored.browsesOf_le {k : ℕ} {s' : ObserverState ω} (h : o.Explored A cache k s s')
    (n : NodeId) : browsesOf n s'.world.calls ≤ browsesOf n s.world.calls + k := by
  obtain ⟨calls, hcalls, hlength⟩ := h.calls
  rw [hcalls, browsesOf_append]
  exact Nat.add_le_add_left (List.countP_le_length.trans hlength) _

/-- A search that follows a plan terminates exactly if the plan can be carried out. -/
theorem terminates_iff_plan {plan : ℕ → Ending} {effort : ℕ → ℕ}
    (hsearch : ∀ fuel, (search fuel).Ends s fun out s' =>
      o.Explored A cache (effort fuel) s s' ∧ endingOf out = plan fuel)
    (hmono : ∀ {fuel fuel'}, fuel ≤ fuel' → (search fuel).Approximates (search fuel')) :
    Terminates s search ↔ ∃ fuel, plan fuel ≠ .unfinished := by
  have hunfinished : ∀ fuel, ((search fuel).run s).1 = .stuck .outOfFuel ↔
      plan fuel = .unfinished := fun fuel => by
    rw [← (hsearch fuel).2, endingOf_eq_unfinished_iff]
  constructor
  · rintro ⟨bound, hbound⟩
    exact ⟨bound, mt (hunfinished bound).mpr (hbound bound le_rfl).1⟩
  · rintro ⟨fuel₀, hplan⟩
    have hends := mt (hunfinished fuel₀).mp hplan
    refine ⟨max fuel₀ (effort fuel₀), fun fuel hle => ?_⟩
    -- more fuel changes nothing
    rw [(hmono ((Nat.le_max_left _ _).trans hle)).run_eq hends]
    refine ⟨hends, fun n => ((hsearch fuel₀).1.browsesOf_le n).trans ?_⟩
    exact Nat.add_le_add_left (Nat.le_max_right _ _) _

section Search

variable (hA : o.client.AnswersMachines A) (s : ObserverState ω)

include hA

theorem terminates_browseForMachines_iff (folder parentNodeId : NodeId)
    (filter : Option (NodeId → Bool)) :
    Terminates s (fun fuel => browseForMachines o fuel folder parentNodeId filter) ↔
      ∃ fuel, ending (searchSteps A o.reader s.subTypes) fuel (folder, filter) ≠ .unfinished :=
  terminates_iff_plan
    (fun fuel => follows_browseForMachines hA fuel (folder, filter) parentNodeId s fun _ => rfl)
    fun hle => approximates_browseForMachines o hle _ _ _

theorem terminates_findComponentsFolder_iff (nodeId : NodeId) :
    Terminates s (fun fuel => findComponentsFolder o (browseForMachines o fuel) nodeId) ↔
      ∃ fuel, (componentsStep A nodeId).ending
        (ending (searchSteps A o.reader s.subTypes) fuel) ≠ .unfinished := by
  refine terminates_iff_plan (fun fuel => ends_findComponentsFolder_plan hA
    (follows_browseForMachines hA fuel) (fun _ => rfl) nodeId) fun hle => ?_
  refine .catching ((Prog.Approximates.refl _).bind fun componentFolder => ?_) fun _ => .refl _
  split_ifs
  · exact .refl _
  · exact approximates_browseForMachines o hle _ _ _

/-- **The search for machines terminates**, with a bound for the calls of `Browse` for each node,
exactly if no folder of components that it comes to leads back to itself. -/
theorem search_terminates_iff
    (hfolders : {folder | ∃ n, A.translateBrowsePathToNodeId n WellKnown.componentsFolder =
      .ok folder}.Finite) :
    (∀ folder parentNodeId filter,
      Terminates s (fun fuel => browseForMachines o fuel folder parentNodeId filter) ↔
        CircleFree A o.reader s.subTypes (folder, filter)) ∧
    ∀ nodeId,
      Terminates s (fun fuel => findComponentsFolder o (browseForMachines o fuel) nodeId) ↔
        ∀ place, componentsStep A nodeId = .nested place →
          CircleFree A o.reader s.subTypes place := by
  refine ⟨fun folder parentNodeId filter => ?_, fun nodeId => ?_⟩
  · rw [terminates_browseForMachines_iff hA, exists_ending_iff_circleFree hfolders]
  · rw [terminates_findComponentsFolder_iff hA]
    cases componentsStep A nodeId with
    | done => simp [Step.ending]
    | abort => simp [Step.ending]
    | nested place =>
      simp only [Step.ending, exists_ending_iff_circleFree hfolders, Step.nested.injEq,
        forall_eq']

end Search

/-! ### A machine among its own components -/

/-- A server with one machine. Its folder of components lists one machine, which may be the machine
itself. -/
def assemblyAnswers (component : String) : MachineAnswers where
  browse n _ :=
    if n = WellKnown.machinesFolder then .ok (plantListing ["m1"])
    else if n = plantMachine "c1" then .ok (plantListing [component])
    else .ok []
  browseWithResultTypeFilter n _ t :=
    .ok [⟨.object, plantMachine (n.id ++ ".Identification"), t, WellKnown.hasComponent,
      ⟨plantUri, "Identification"⟩⟩]
  translateBrowsePathToNodeId n _ :=
    .ok (if n = plantMachine "m1" then plantMachine "c1" else ⟨"", ""⟩)
  isSameOrSubtype expected checked _ := decide (checked = expected)
  eq_of_undefined _ _ _ _ h := of_decide_eq_true h

/-- The observer of this server. -/
def assemblyObserver (component : String) : Observer Unit where
  client := (assemblyAnswers component).client
  reader := plantConfiguration.readTypes plantTypes [plantUri]
  machinesFilter := ∅
  topics := ⟨"umati/v2", "plant"⟩

private theorem assembly_answers (component : String) :
    (assemblyObserver component).client.AnswersMachines (assemblyAnswers component) :=
  MachineAnswers.answersMachines_client _

private theorem assembly_folders (component : String) :
    {folder | ∃ n, (assemblyAnswers component).translateBrowsePathToNodeId n
      WellKnown.componentsFolder = .ok folder}.Finite := by
  refine ((Set.finite_singleton (⟨"", ""⟩ : NodeId)).insert (plantMachine "c1")).subset ?_
  rintro folder ⟨n, hn⟩
  obtain rfl : (if n = plantMachine "m1" then plantMachine "c1" else ⟨"", ""⟩) = folder :=
    Except.ok.inj hn
  split_ifs <;> simp

/-- The components of the machine are another one, without components. -/
theorem search_terminates_iff_assembly :
    Terminates ((assemblyObserver "m2").start ()) (fun fuel =>
      browseForMachines (assemblyObserver "m2") fuel WellKnown.machinesFolder
        WellKnown.machinesFolder none) :=
  ((search_terminates_iff (assembly_answers "m2") _ (assembly_folders "m2")).1 _ _ _).mpr
    ((exists_ending_iff_circleFree (assembly_folders "m2")).mp ⟨3, by decide +kernel⟩)

/-- The search of a folder with this machine comes to its folder of components. -/
private theorem leads_assembly {folder : NodeId}
    (hbrowse : (assemblyAnswers "m1").browse folder .hierarchical = .ok (plantListing ["m1"])) :
    Leads (searchSteps (assemblyAnswers "m1") (assemblyObserver "m1").reader
      ((assemblyObserver "m1").start ()).subTypes) (folder, none) (plantMachine "c1", none) := by
  have hverdict : verdict (assemblyAnswers "m1") (assemblyObserver "m1").reader
      ((assemblyObserver "m1").start ()).subTypes
      ⟨.object, plantMachine "m1", plantMachineType, WellKnown.hasComponent, ⟨plantUri, "m1"⟩⟩ =
        .machine := by decide +kernel
  refine ⟨[], [], ?_, by simp⟩
  rw [searchSteps, hbrowse]
  simp only [plantListing, List.map_cons, List.map_nil, candidateStep, hverdict]
  rfl

/-- The components of a machine contain the machine: neither search of it comes to an end. -/
theorem assembly_not_terminates :
    ¬ Terminates ((assemblyObserver "m1").start ()) (fun fuel =>
        browseForMachines (assemblyObserver "m1") fuel WellKnown.machinesFolder
          WellKnown.machinesFolder none) ∧
      ¬ Terminates ((assemblyObserver "m1").start ()) (fun fuel =>
        findComponentsFolder (assemblyObserver "m1")
          (browseForMachines (assemblyObserver "m1") fuel) (plantMachine "m1")) := by
  have hstep : componentsStep (assemblyAnswers "m1") (plantMachine "m1") =
      .nested (plantMachine "c1", none) := rfl
  have hcircle := @leads_assembly (plantMachine "c1") rfl
  have hfolder := @leads_assembly WellKnown.machinesFolder rfl
  rw [terminates_browseForMachines_iff (assembly_answers "m1"),
    terminates_findComponentsFolder_iff (assembly_answers "m1"), hstep]
  simp only [Step.ending, NestedSearch.exists_ending_iff]
  constructor
  · intro hacc
    exact NestedSearch.not_transGen_of_acc (hacc.inv hfolder) (.single hcircle)
  · intro hacc
    exact NestedSearch.not_transGen_of_acc hacc (.single hcircle)

end Observer

end UmatiDashboard
