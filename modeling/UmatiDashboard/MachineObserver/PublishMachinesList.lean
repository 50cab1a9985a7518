import UmatiDashboard.MachineObserver.UpdateMachines

/-!
# Publishing the lists of machines

`publishMachinesList` publishes one retained list for each type of machine and one list of the
machines that could not be added. It runs on another thread than the update cycle, so it sees
the tables as they are at some point of a cycle. A machine is shown if a non-empty
identification is cached for it. `dump` throws at the first list with a string that is not UTF-8:
those before it have been published then, and the others are not.
-/

namespace UmatiDashboard

/-- A retained message. -/
structure Publication where
  topic : String
  payload : Json

/-- The machines to be published, by specification. -/
structure PublishMachinesList where
  specifications : List String
  getTopic : String → String
  machines : Std.ExtTreeMap String (List Json) compare

namespace PublishMachinesList

def new (specifications : List String) (getTopic : String → String) : PublishMachinesList :=
  ⟨specifications, getTopic, ∅⟩

def addMachine (l : PublishMachinesList) (specification : String) (data : Json) :
    PublishMachinesList :=
  { l with machines :=
      l.machines.insert specification ((l.machines[specification]?).getD [] ++ [data]) }

/-- A list for each specification with a machine, up to one that cannot be written out. -/
def publishMachines (getTopic : String → String) :
    List (String × List Json) → List Publication × Except Exception Unit
  | [] => ([], .ok ())
  | (specification, machineData) :: rest =>
    let publishData := Json.array machineData
    if publishData.dumps then
      let (published, r) := publishMachines getTopic rest
      (⟨getTopic specification, publishData⟩ :: published, r)
    else ([], .error Json.dumpError)

/-- The lists of the specifications with a machine, then empty lists for the others. -/
def publish (l : PublishMachinesList) : List Publication × Except Exception Unit :=
  match publishMachines l.getTopic l.machines.toList with
  | (published, .error e) => (published, .error e)
  | (published, .ok ()) =>
    (published ++ (l.specifications.filter fun spec => !l.machines.contains spec).map fun spec =>
      ⟨l.getTopic spec, .array []⟩, .ok ())

end PublishMachinesList

namespace Observer

variable {ω : Type} (o : Observer ω)

/-- The identification that is cached for a machine, if it is not empty. -/
def cachedIdentification (t : ObserverTables) (machineNodeId : NodeId) : Option Json :=
  (t.machineIdentificationsCache[machineNodeId]?).filter fun json => !json.isEmpty

/-- Add the entries of a table to a list: those with a cached identification, completed by one
member. -/
def addMachines {β : Type} (t : ObserverTables) (key : String) (value : β → Json)
    (specification : β → String) (pubList : PublishMachinesList) :
    List (NodeId × β) → Except Exception PublishMachinesList
  | [] => pure pubList
  | (machineNodeId, info) :: rest =>
    match cachedIdentification t machineNodeId with
    | none => addMachines t key value specification pubList rest
    | some identificationAsJson => do
      let json ← identificationAsJson.assign key (value info)
      addMachines t key value specification (pubList.addMachine (specification info) json) rest

/-- The lists of machines that are online. -/
def onlineList (t : ObserverTables) : Except Exception PublishMachinesList :=
  addMachines t "ParentId"
    (fun info : MachineInformation => .string (idEncode info.parent.toString))
    MachineInformation.specification (.new o.reader.expectedObjectTypeNames o.topics.list)
    t.onlineMachines.toList

/-- The list of machines that could not be added. -/
def invalidList (t : ObserverTables) : Except Exception PublishMachinesList :=
  addMachines t "Error" (fun info : Int × String => .string info.2) (fun _ => "errors")
    (.new ["errors"] o.topics.errorList) t.invalidMachines.toList

/-- What is published, and whether an exception stopped it. -/
def publishMachinesList (t : ObserverTables) : List Publication × Except Exception Unit :=
  match onlineList o t with
  | .error e => ([], .error e)
  | .ok pubList =>
    match pubList.publish with
    | (published, .error e) => (published, .error e)
    | (published, .ok ()) =>
      match invalidList o t with
      | .error e => (published, .error e)
      | .ok pubInvalidList =>
        let (errors, r) := pubInvalidList.publish
        (published ++ errors, r)

end Observer

end UmatiDashboard
