import UmatiDashboard.MachineObserver.ObserverTables

/-!
# Searching for machines

The search below the folder of machines. A candidate is a machine if its type, the configured
machine type above it or its interface has an identification type, and the candidate has an
instance of that type. Below each machine the search goes on in the machine's component folder,
so `browseForMachines` and `findComponentsFolder` call each other; the fuel bounds the nesting
of component folders.
-/

namespace UmatiDashboard

namespace Observer

variable {ω : Type} (o : Observer ω)

/-- Fill in a missing type definition. An exception of the gateway is swallowed here, whatever
its class. -/
def fixMissingType (machine : BrowseResult) : ObserverM ω BrowseResult :=
  if machine.typeDefinition.equals WellKnown.missingType then
    Prog.catching
      (do
        let defs ← ask (o.data.browse machine.nodeId .hasTypeDefinition)
        let first ← Prog.front defs
        pure { machine with typeDefinition := first.nodeId })
      fun ex => if ex.isUmatiException then pure machine else .throw ex
  else pure machine

/-- The first configured machine type that the type is a subtype of. -/
def findSupertype (typeDefinition : NodeId) : List NodeId → ObserverM ω (Option NodeId)
  | [] => pure none
  | md :: rest => do
    let same ← askQuietly (o.data.isSameOrSubtype md typeDefinition 3)
    if same then pure (some md) else findSupertype typeDefinition rest

/-- Change the cache of subtypes. -/
def setSubType (f : NodeMap NodeId → NodeMap NodeId) : ObserverM ω Unit :=
  .modify fun s => { s with subTypes := f s.subTypes }

/-- Replace the type of a candidate by the configured machine type above it. A type without
one is remembered as undefined, and left as it is. -/
def resolveSubType (machine : BrowseResult) : ObserverM ω BrowseResult := do
  let s ← .get
  match s.subTypes[machine.typeDefinition]? with
  | none => do
    setSubType fun m => m.insertIfNew machine.typeDefinition WellKnown.undefinedType
    match ← findSupertype o machine.typeDefinition o.reader.knownMachineTypeDefinitions with
    | some md => do
      setSubType fun m => m.insert machine.typeDefinition md
      pure { machine with typeDefinition := md }
    | none => pure machine
  | some baseType =>
    if baseType.equals WellKnown.undefinedType then pure machine
    else pure { machine with typeDefinition := baseType }

/-- Replace the base type of a candidate by its first interface. -/
def resolveInterface (machine : BrowseResult) : ObserverM ω BrowseResult :=
  if machine.typeDefinition.equals WellKnown.baseObjectType then do
    let ifs ← ask (o.data.browse machine.nodeId .hasInterface)
    match ifs with
    | [] => pure machine
    | first :: _ => pure { machine with typeDefinition := first.nodeId }
  else pure machine

/-- Whether a candidate, with its type resolved, has an identification. -/
def hasIdentification (machine : BrowseResult) : ObserverM ω Bool := do
  let typeDefinitionNodeId ←
    liftExcept (o.reader.getIdentificationTypeNodeId machine.typeDefinition)
  let ident ← ask
    (o.data.browseWithResultTypeFilter machine.nodeId .hierarchical typeDefinitionNodeId)
  pure !ident.isEmpty

/-- The handlers of one candidate: the candidate is skipped. -/
def isCandidateError (ex : Exception) : Bool :=
  ex.isOpcUaException || ex.isMachineInvalidException

section Search

variable (browseForMachines : NodeId → NodeId → Option (NodeId → Bool) →
  ObserverM ω (List BrowseResult))

/-- The machines among the components of a machine. -/
def findComponentsFolder (nodeId : NodeId) : ObserverM ω (List BrowseResult) :=
  Prog.catching
    (do
      let componentFolder ←
        ask (o.data.translateBrowsePathToNodeId nodeId WellKnown.componentsFolder)
      if componentFolder.isNull then pure []
      else browseForMachines componentFolder nodeId none)
    fun ex => if ex.isOpcUaException then pure [] else .throw ex

/-- The part of a candidate's check that ends with its entry into the list of machines, which
no exception takes back. Returned is the machine with its type resolved. -/
def checkCandidate (machine : BrowseResult) : ObserverM ω (Option BrowseResult) :=
  Prog.catching
    (do
      let machine ← resolveSubType o machine
      let machine ← resolveInterface o machine
      if ← hasIdentification o machine then pure (some machine) else pure none)
    fun ex => if isCandidateError ex then pure none else .throw ex

/-- The rest of a candidate's check: its components, and its entry into the table of parents.
An exception that the handlers of the candidate catch leaves the components out, and the
parent unrecorded. -/
def enterMachine (parentNodeId : NodeId) (machine : BrowseResult) :
    ObserverM ω (List BrowseResult) :=
  Prog.catching
    (do
      let components ← findComponentsFolder o browseForMachines machine.nodeId
      record (.entering machine.nodeId)
      write fun t =>
        { t with parentOfMachine := t.parentOfMachine.insertIfNew machine.nodeId parentNodeId }
      pure components)
    fun ex => if isCandidateError ex then pure [] else .throw ex

/-- One candidate. -/
def browseCandidate (parentNodeId : NodeId) (filter : Option (NodeId → Bool))
    (newMachines : List BrowseResult) (machine : BrowseResult) :
    ObserverM ω (List BrowseResult) :=
  if (filter.map fun f => f machine.nodeId).getD true then do
    let machine ← fixMissingType o machine
    match ← checkCandidate o machine with
    | none => pure newMachines
    | some machine => do
      let components ← enterMachine o browseForMachines parentNodeId machine
      pure (newMachines ++ machine :: components)
  else pure newMachines

end Search

/-- The machines among the nodes below `nodeId`, and among their components. -/
def browseForMachines : ℕ → NodeId → NodeId → Option (NodeId → Bool) →
    ObserverM ω (List BrowseResult)
  | 0, _, _, _ => .stuck .outOfFuel
  | fuel + 1, nodeId, parentNodeId, filter => do
    let potentialMachines ← ask (o.data.browse nodeId .hierarchical)
    Prog.foldEach (browseCandidate o (browseForMachines fuel) parentNodeId filter) []
      potentialMachines

/-- The filter of the configuration; an empty one lets everything pass. -/
def configuredFilter : Option (NodeId → Bool) :=
  if o.machinesFilter.isEmpty then none else some fun n => o.machinesFilter.contains n

/-- The machines of the server, or `none` if they could not be browsed. -/
def canBrowseMachineList (fuel : ℕ) : ObserverM ω (Option (List BrowseResult)) :=
  Prog.catching
    (some <$> browseForMachines o fuel WellKnown.machinesFolder WellKnown.machinesFolder
      (configuredFilter o))
    fun ex =>
      if ex.isOpcUaException || ex.isClientNotConnected then pure none else .throw ex

end Observer

end UmatiDashboard
