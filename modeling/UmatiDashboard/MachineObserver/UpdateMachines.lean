import Mathlib.Data.List.Destutter
import Mathlib.Data.List.Sort
import UmatiDashboard.MachineObserver.DashboardMachineObserver

/-!
# The update cycle

`updateMachines` is one cycle of the update thread: search for machines, find out which of them
are new and which of the known ones are not online any more, remove the latter and add the
former. The set of machines to be removed is built **before** the search from the known
machines; `machineListsNotEqual` may empty the tables after that.
-/

namespace UmatiDashboard

namespace Observer

variable {ω : Type} (o : Observer ω)

/-- The number of cycles for which a machine is skipped that could not be added, whether it
was invalid or offline. -/
def numSkipAfterInvalid : Int := 10

/-- Sort the machines and drop repetitions. -/
def removeDuplicates (machineList : List BrowseResult) : List BrowseResult :=
  (machineList.insertionSort fun l r => (compare l.nodeId r.nodeId).isLE).destutter
    fun l r => ¬ l.nodeId.equals r.nodeId

/-- The identifiers of a list of machines. -/
def nodeIds (machineList : List BrowseResult) : NodeSet :=
  .ofList (machineList.map BrowseResult.nodeId) compare

def removeOfflineMachines (toBeRemovedMachines : NodeSet) : ObserverM ω Unit :=
  Prog.forEach (removeMachine o) toBeRemovedMachines.toList

/-- Remove every machine that was listed, and list the new ones. -/
def recreateKnownMachineToolsMap (machineList : List BrowseResult) : ObserverM ω Unit := do
  let t ← tables
  removeOfflineMachines o t.knownMachineToolsSet
  write fun t => { t with knownMachineToolsSet := nodeIds machineList }

/-- The `operator==` of two sets of identifiers: it compares their elements in order, with the
`operator==` of the identifiers. -/
def setEquals (a b : NodeSet) : Bool := a.toList.isEqv b.toList NodeId.equals

/-- Whether a browsed list has the machines that were listed last. -/
def sameMachines (t : ObserverTables) (machineList : List BrowseResult) : Bool :=
  setEquals (nodeIds machineList) t.knownMachineToolsSet

def machineListsNotEqual (machineList : List BrowseResult) : ObserverM ω Bool := do
  let t ← tables
  if sameMachines t machineList then pure false
  else do
    recreateKnownMachineToolsMap o machineList
    pure true

/-- Count down the cycles for which a machine is skipped; whether it is still to be skipped. -/
def ignoreInvalidMachinesTemporarily (newMachineId : NodeId) : ObserverM ω Bool := do
  let t ← tables
  match t.invalidMachines[newMachineId]? with
  | none => pure false
  | some (count, error) =>
    if count - 1 ≤ 0 then do
      write fun t => { t with invalidMachines := t.invalidMachines.erase newMachineId }
      pure false
    else do
      write fun t =>
        { t with invalidMachines := t.invalidMachines.insert newMachineId (count - 1, error) }
      pure true

/-- What `findNewAndOfflineMachines` finds. -/
structure Findings where
  toBeRemovedMachines : NodeSet
  newMachines : NodeSet
  machinesIdentification : NodeMap Json

/-- Check one machine. An online machine that was to be removed stays; any other online one is
new. The handler of the source for exceptions of `isOnline` never runs. -/
def checkMachine (found : Findings) (machineTool : BrowseResult) : ObserverM ω Findings := do
  let identification ← isOnline o machineTool.nodeId machineTool.typeDefinition
  record (.checkedOnline machineTool.nodeId identification.isSome)
  match identification with
  | none => pure found
  | some identificationAsJson =>
    let machinesIdentification :=
      found.machinesIdentification.insertIfNew machineTool.nodeId identificationAsJson
    if machineTool.nodeId ∈ found.toBeRemovedMachines then
      pure { found with
        toBeRemovedMachines := found.toBeRemovedMachines.erase machineTool.nodeId
        machinesIdentification := machinesIdentification }
    else
      pure { found with
        newMachines := found.newMachines.insert machineTool.nodeId
        machinesIdentification := machinesIdentification }

def findNewAndOfflineMachines (machineList : List BrowseResult) (toBeRemovedMachines : NodeSet) :
    ObserverM ω Findings :=
  Prog.foldEach (checkMachine o) ⟨toBeRemovedMachines, ∅, ∅⟩ machineList

/-- The handlers of `addNewMachine`: the machine is to be skipped for some time. -/
def isInvalidOrOffline (ex : Exception) : Bool :=
  ex.isMachineInvalidException || ex.isMachineOfflineException

def addNewMachine (fuel : ℕ) (newMachine : BrowseResult) : ObserverM ω Unit :=
  Prog.catching
    (do
      addMachine o fuel newMachine
      write fun t =>
        { t with knownMachines := t.knownMachines.insertIfNew newMachine.nodeId newMachine })
    fun ex =>
      if isInvalidOrOffline ex then
        write fun t => { t with
          invalidMachines :=
            t.invalidMachines.insertIfNew newMachine.nodeId (numSkipAfterInvalid, ex.what) }
      else .throw ex

/-- Add one of the new machines, unless it is to be skipped. -/
def addUnlessIgnored (fuel : ℕ) (machines : NodeMap BrowseResult) (newMachineNodeId : NodeId) :
    ObserverM ω Unit := do
  if ← ignoreInvalidMachinesTemporarily newMachineNodeId then pure ()
  else addNewMachine o fuel ((machines[newMachineNodeId]?).getD default)

/-- The machines of a list under their identifiers. -/
def machineMap (machineList : List BrowseResult) : NodeMap BrowseResult :=
  machineList.foldl (fun m machine => m.insertIfNew machine.nodeId machine) ∅

/-- The part of a cycle after a successful search. -/
def processMachineList (fuel : ℕ) (toBeRemovedMachines : NodeSet)
    (machineList : List BrowseResult) : ObserverM ω Unit := do
  record (.browsed machineList)
  let _ ← machineListsNotEqual o machineList
  let found ← findNewAndOfflineMachines o machineList toBeRemovedMachines
  removeOfflineMachines o found.toBeRemovedMachines
  Prog.forEach (addUnlessIgnored o fuel (machineMap machineList)) found.newMachines.toList
  write fun t => { t with machineIdentificationsCache := found.machinesIdentification }

/-- The machines that are known. -/
def knownNodeIds (t : ObserverTables) : NodeSet := .ofList t.knownMachines.keys compare

/-- One cycle. -/
def updateMachines (fuel : ℕ) : ObserverM ω Unit := do
  let toBeRemovedMachines := knownNodeIds (← tables)
  match ← canBrowseMachineList o fuel with
  | none => pure ()
  | some machineList =>
    processMachineList o fuel toBeRemovedMachines (removeDuplicates machineList)

/-- A cycle with a record of its own. -/
def cycle (fuel : ℕ) (s : ObserverState ω) : Outcome Exception Unit × ObserverState ω :=
  (updateMachines o fuel).run s.forget

/-- A cycle that ends by returning. -/
theorem cycle_eq_of_fst {fuel : ℕ} {s : ObserverState ω} (h : (cycle o fuel s).1 = .ok ()) :
    cycle o fuel s = (.ok (), (cycle o fuel s).2) := by
  rw [← h]

/-! ### Runs -/

/-- The states between the cycles of a run. Between two cycles the data client may change in
any way, as the rest of the gateway uses it too; a cycle that does not return ends the run. -/
inductive Reachable : ObserverState ω → Prop where
  | start (world : ω) : Reachable (o.start world)
  | world {s : ObserverState ω} (world : Recorded ω) : Reachable s → Reachable (s.withWorld world)
  | cycle {s s' : ObserverState ω} (fuel : ℕ) :
      Reachable s → o.cycle fuel s = (.ok (), s') → Reachable s'

end Observer

end UmatiDashboard
