import UmatiDashboard.DataClient.Exceptions
import UmatiDashboard.ModelOpcUa.StructureNode

/-!
# The type reader: state and queries

The tables of `OpcUaTypeReader` as the rest of the gateway reads them: the type map with the
heap its entries live on, the names of the types, and what the configuration says about
machine types and their identification types.
-/

namespace UmatiDashboard

/-- The configuration of one namespace: its machine types and their identification type. -/
structure NamespaceInformation where
  types : List NodeId
  identificationType : NodeId

/-- The members of `OpcUaTypeReader` that stay fixed once the types are read. -/
structure OpcUaTypeReader where
  expectedObjectTypeNamespaces : List String
  identificationTypeOfTypeDefinition : NodeMap NodeId
  knownMachineTypeDefinitions : List NodeId
  /-- the initial content of the subtype cache; browsing for machines extends it -/
  subTypeDefinitionToKnownMachineTypeDefinition : NodeMap NodeId
  expectedObjectTypeNames : List String
  heap : TypeHeap
  typeMap : NodeMap NodeRef
  nameToId : Std.ExtTreeMap String NodeId compare

namespace OpcUaTypeReader

/-- The constructor: the tables that come from the configuration. -/
def create (expectedObjectTypeNamespaces : List String)
    (namespaceInformations : List NamespaceInformation) : OpcUaTypeReader :=
  let entries := namespaceInformations.flatMap fun el => el.types.map fun e => (e, el)
  { expectedObjectTypeNamespaces
    identificationTypeOfTypeDefinition :=
      entries.foldl (fun m p => m.insertIfNew p.1 p.2.identificationType) ∅
    knownMachineTypeDefinitions := entries.map Prod.fst
    subTypeDefinitionToKnownMachineTypeDefinition :=
      entries.foldl (fun m p => m.insertIfNew p.1 p.1) ∅
    expectedObjectTypeNames := []
    heap := .empty
    typeMap := ∅
    nameToId := ∅ }

variable (reader : OpcUaTypeReader)

/-- The node at an address. -/
def node (n : NodeRef) : StructureNode := reader.heap.nodes n

/-- The type map's entry of a type. -/
def typeDefinitionToStructureNode (typeDefinition : NodeId) : Except Exception NodeRef :=
  match reader.typeMap[typeDefinition]? with
  | none => .error (.machineInvalid "Type not found")
  | some n => .ok n

/-- The identification type that the configuration gives for a machine type. -/
def getIdentificationTypeNodeId (typeDefinition : NodeId) : Except Exception NodeId :=
  match reader.identificationTypeOfTypeDefinition[typeDefinition]? with
  | none => .error (.machineInvalid
      ("IdentificationType not found, probably because namespace " ++ typeDefinition.toString ++
        " is not in the config, or this type does not have an identification type."))
  | some n => .ok n

def getIdentificationTypeStructureNode (typeDefinition : NodeId) : Except Exception NodeRef := do
  let identificationTypeNodeId ← reader.getIdentificationTypeNodeId typeDefinition
  reader.typeDefinitionToStructureNode identificationTypeNodeId

/-- The browse names of the configured machine types that the server has. -/
def objectTypeNames : List String :=
  reader.identificationTypeOfTypeDefinition.keys.filterMap fun typeNodeId =>
    reader.typeMap[typeNodeId]?.map fun n => (reader.node n).specifiedBrowseName.name

/-- Renew `m_expectedObjectTypeNames`. -/
def updateObjectTypeNames : OpcUaTypeReader :=
  { reader with expectedObjectTypeNames := reader.objectTypeNames }

theorem typeDefinitionToStructureNode_eq_ok {t : NodeId} {n : NodeRef} :
    reader.typeDefinitionToStructureNode t = .ok n ↔ reader.typeMap[t]? = some n := by
  unfold typeDefinitionToStructureNode
  split <;> simp_all

theorem getIdentificationTypeNodeId_eq_ok {t i : NodeId} :
    reader.getIdentificationTypeNodeId t = .ok i ↔
      reader.identificationTypeOfTypeDefinition[t]? = some i := by
  unfold getIdentificationTypeNodeId
  split <;> simp_all

/-- What the queries of the tables throw. -/
theorem isMachineInvalid_of_typeDefinitionToStructureNode {t : NodeId} {e : Exception}
    (h : reader.typeDefinitionToStructureNode t = .error e) :
    e.isMachineInvalidException = true := by
  unfold typeDefinitionToStructureNode at h
  split at h
  · cases h
    rfl
  · cases h

theorem isMachineInvalid_of_getIdentificationTypeNodeId {t : NodeId} {e : Exception}
    (h : reader.getIdentificationTypeNodeId t = .error e) :
    e.isMachineInvalidException = true := by
  unfold getIdentificationTypeNodeId at h
  split at h
  · cases h
    rfl
  · cases h

/-- The name of every configured machine type with an entry in the type map is expected. -/
theorem mem_objectTypeNames {t i : NodeId} {n : NodeRef}
    (hi : reader.identificationTypeOfTypeDefinition[t]? = some i)
    (hn : reader.typeMap[t]? = some n) :
    (reader.node n).specifiedBrowseName.name ∈ reader.objectTypeNames := by
  refine List.mem_filterMap.mpr ⟨t, ?_, by simp [hn]⟩
  rw [Std.ExtTreeMap.mem_keys, ← Std.ExtTreeMap.isSome_getElem?_iff_mem, hi]
  rfl

end OpcUaTypeReader

end UmatiDashboard
