import UmatiDashboard.MachineObserver.BrowseForMachines

/-!
# Machines of the dashboard

What `DashboardMachineObserver` does for one machine: adding it with a dashboard client of its
own, removing it, and reading its identification, which decides whether it is online.
-/

namespace UmatiDashboard

namespace Observer

variable {ω : Type} (o : Observer ω)

/-! ### Adding and removing a machine -/

/-- The two machines that are never added. -/
def isIgnored (nodeId : NodeId) : Bool :=
  nodeId.equals
    ⟨"10.80.0.113_4840_http://samplemanufacturer.com/umati_OPC40077_sample_instance/", "i=5002"⟩ ||
  nodeId.equals
    ⟨"10.80.0.113_4840_http://samplemanufacturer.com/umati_OPC40077_sample_instance", "i=6013"⟩

/-- Unsubscribe and drop the dashboard client of a machine, if it has one. -/
def dropDashboardClient (machineNodeId : NodeId) : ObserverM ω Unit := do
  let t ← tables
  match t.dashboardClients[machineNodeId]? with
  | some pDashClient => do
    let _ ← onClient pDashClient (DashboardClient.unsubscribe o.data)
    write fun t => { t with dashboardClients := t.dashboardClients.erase machineNodeId }
  | none => pure ()

/-- What is recorded about a machine that is added. -/
def machineInformation (t : ObserverTables) (machine : BrowseResult) (specification : String) :
    MachineInformation where
  startNodeId := machine.nodeId
  namespaceURI := machine.nodeId.uri
  specification := specification
  machineName := machine.browseName.name
  typeDefinition := machine.typeDefinition
  parent := (t.parentOfMachine[machine.nodeId]?).getD ⟨"", ""⟩

/-- Add a machine. The three tables of machines that are shown change together. -/
def addMachine (fuel : ℕ) (machine : BrowseResult) : ObserverM ω Unit := do
  record (.adding machine.nodeId)
  Prog.catching
    (if isIgnored machine.nodeId then pure ()
    else do
      let p_type ← liftExcept (o.reader.typeDefinitionToStructureNode machine.typeDefinition)
      let specification := (o.reader.node p_type).specifiedBrowseName.name
      let machineInformation := machineInformation (← tables) machine specification
      dropDashboardClient o machine.nodeId
      let pDashClient ← onClient .new
        (DashboardClient.addDataSet o.data o.reader fuel machine.nodeId p_type
          (o.topics.machine specification machine.nodeId.toString)
          (o.topics.onlineStatus machine.nodeId.toString))
      write fun t => { t with
        dashboardClients := t.dashboardClients.insertIfNew machine.nodeId pDashClient
        onlineMachines := t.onlineMachines.insertIfNew machine.nodeId machineInformation
        machineNames := t.machineNames.insertIfNew machine.nodeId machine.browseName.name })
    fun ex => if ex.isOpcUaException then .throw (.machineInvalid ex.what) else .throw ex

/-- Remove a machine from the tables of known machines and of machines that are shown. -/
def removeMachine (machineNodeId : NodeId) : ObserverM ω Unit := do
  record (.removing machineNodeId)
  write fun t => { t with knownMachines := t.knownMachines.erase machineNodeId }
  dropDashboardClient o machineNodeId
  write fun t => { t with onlineMachines := t.onlineMachines.erase machineNodeId }

/-! ### The identification of a machine -/

/-- The values that are not null under their keys. Reading a key that does not exist throws. -/
def identificationData (json : Json) : List Json → List String → Except Exception Json
  | [], _ => pure json
  | value :: values, keys =>
    if value.isNull then identificationData json values keys.tail
    else match keys with
      | [] => throw (.std "vector::_M_range_check")
      | key :: keys => do
        let json ← json.assign key value
        identificationData json values keys

/-- The members that a machine with a name has beside its data. -/
def addTopic (t : ObserverTables) (machineNodeId : NodeId) (typeName : String) (json : Json) :
    Except Exception Json :=
  if machineNodeId ∈ t.machineNames then do
    let json ← json.assign "Topic"
      (.string (o.topics.machine typeName machineNodeId.toString))
    let json ← json.assign "MachineId" (.string (idEncode machineNodeId.toString))
    json.assign "TypeDefinition" (.string typeName)
  else pure json

/-- Read the identification of a machine. -/
def browseIdentificationValues (machineNodeId typeDefinition : NodeId)
    (identification : BrowseResult) : ObserverM ω Json := do
  let p_type ← liftExcept (o.reader.typeDefinitionToStructureNode typeDefinition)
  let browseResults ← ask (o.data.browse identification.nodeId .variableNodes)
  let identificationListValues ←
    ask (o.data.readeNodeValues (browseResults.map BrowseResult.nodeId))
  let data ← liftExcept (identificationData .null identificationListValues
    (browseResults.map fun r => r.browseName.name))
  let json ← liftExcept (Json.null.assign "Data" data)
  let t ← tables
  liftExcept (addTopic o t machineNodeId (o.reader.node p_type).specifiedBrowseName.name json)

/-- The identification of a machine, or `none` if the machine is not online. No exception
leaves this function. -/
def isOnline (machineNodeId typeDefinition : NodeId) : ObserverM ω (Option Json) :=
  Prog.catching
    (do
      let p_type ← liftExcept (o.reader.getIdentificationTypeStructureNode typeDefinition)
      let name := (o.reader.node p_type).specifiedBrowseName
      match o.reader.nameToId[name.uri ++ ";" ++ name.name]? with
      | none => pure none
      | some type => do
        let identification ← ask (o.data.browseHasComponent machineNodeId type)
        match identification with
        | [] => pure none
        | first :: _ => do
          let identificationAsJson ←
            browseIdentificationValues o machineNodeId typeDefinition first
          pure (if identificationAsJson.isEmpty then none else some identificationAsJson))
    fun _ => pure none

end Observer

end UmatiDashboard
