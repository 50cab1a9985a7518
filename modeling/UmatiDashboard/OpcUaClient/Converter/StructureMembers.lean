import UmatiDashboard.OpcUaClient.Converter.UaDataValueToJsonValue
import UmatiDashboard.Util.RawMembers

/-!
# Structures and their members

A structure is converted to an object with a key for each member. For six structures with optional
members, `emitted` lists the members that the converter looks at, under their own names and with
their own values; `namesItsMembers_iff` says for which values the object has just these, each under
the key that is named after it.
-/

namespace UmatiDashboard

/-- The key of a member: its name with the first letter capitalised. -/
def capitalised (name : String) : String :=
  match name.toList with
  | [] => ""
  | c :: cs => String.ofList (c.toUpper :: cs)

/-- A value of one of the structures with optional members. -/
inductive UaStructure (V : Type) where
  | entity (e : UaEntityDataType)
  | resultValue (rd : UaResultValueDataType)
  | stepResult (rd : UaStepResultDataType)
  | joiningResult (r : UaJoiningResultDataType)
  | joiningResultMetaData (r : UaJoiningResultMetaDataType V)
  | resultData (rd : UaResultDataType V)

namespace UaDataValueToJsonValue

open RawJson (assigned)

variable (c : UaDataValueToJsonValue) {V : Type} (variantValue : V → RawJson)

/-- What the structure is converted to. -/
def decoded : UaStructure V → RawJson
  | .entity e => decodeEntityDataType e
  | .resultValue rd => c.decodeResultValueDataType rd
  | .stepResult rd => c.decodeStepResultDataType rd
  | .joiningResult r => c.decodeJoiningResultDataType r
  | .joiningResultMetaData r => c.decodeJoiningResultMetaDataType variantValue r
  | .resultData rd => c.setValueFromScalarVariant variantValue .resultDataType rd

/-- The members that the converter emits, if they are present. -/
def emitted : UaStructure V → List (String × Option RawJson)
  | .entity e =>
    [("entityId", some (fromString e.entityId)),
      ("entityType", some (fromInt16 e.entityType)),
      ("description", e.description.map fromString),
      ("entityOriginId", e.entityOriginId.map fromString),
      ("name", e.name.map fromString),
      ("isExternal", e.isExternal.map .boolean)]
  | .resultValue rd =>
    [("engineeringUnits", rd.engineeringUnits.map fun e => c.member (c.fromEUInformation e)),
      ("highLimit", rd.highLimit.map c.memberReal),
      ("lowLimit", rd.lowLimit.map c.memberReal),
      ("measuredValue", some (.real rd.measuredValue)),
      ("name", rd.name.map c.memberString),
      ("parameterIdList", rd.parameterIdList.map (c.members fromString)),
      ("physicalQuantity", rd.physicalQuantity.map c.memberByte),
      ("resultEvaluation",
        rd.resultEvaluation.map fun e => c.member (decodeResultEvaluationEnum e)),
      ("resultStep", rd.resultStep.map c.memberString),
      ("sensorId", rd.sensorId.map c.memberString),
      ("targetValue", rd.targetValue.map c.memberReal),
      ("tracePointIndex", rd.tracePointIndex.map fun n => c.member (fromInt32 n)),
      ("tracePointTimeOffset", rd.tracePointTimeOffset.map c.memberReal),
      ("valueId", rd.valueId.map c.memberString),
      ("valueTag", rd.valueTag.map fun n => c.member (fromInt16 n)),
      ("violationConsequence", rd.violationConsequence.map c.memberByte),
      ("violationType", rd.violationType.map c.memberByte)]
  | .stepResult rd =>
    [("name", rd.name.map c.memberString),
      ("programStep", rd.programStep.map c.memberString),
      ("programStepId", rd.programStepId.map c.memberString),
      ("resultEvaluation",
        rd.resultEvaluation.map fun e => c.member (decodeResultEvaluationEnum e)),
      ("startTimeOffset", rd.startTimeOffset.map c.memberReal),
      ("stepResultId", some (c.memberString rd.stepResultId)),
      ("stepResultValues", rd.stepResultValues.map (c.members c.decodeResultValueDataType)),
      ("stepTraceId", rd.stepTraceId.map c.memberString)]
  | .joiningResult r =>
    [("errors", r.errors.map fun _ => c.member .null),
      ("failingStepResultId", r.failingStepResultId.map c.memberString),
      ("failureReason", r.failureReason.map c.memberByte),
      ("overallResultValues",
        r.overallResultValues.map (c.members c.decodeResultValueDataType)),
      ("stepResults", r.stepResults.map (c.members c.decodeStepResultDataType))]
  | .joiningResultMetaData r =>
    [("assemblyType", r.assemblyType.map c.memberByte),
      ("associatedEntities", r.associatedEntities.map (c.members decodeEntityDataType)),
      ("classification", r.classification.map c.memberByte),
      ("creationTime", r.creationTime.map fun t => c.member (c.fromDateTime t)),
      ("description", r.description.map fun t => c.member (fromLocalizedText t)),
      ("extendedMetaData", r.extendedMetaData.map (c.members (c.fromKeyValue variantValue))),
      ("externalConfigurationId", r.externalConfigurationId.map c.memberString),
      ("externalRecipeId", r.externalRecipeId.map c.memberString),
      ("fileFormat", r.fileFormat.map (c.members fromString))]
  | .resultData rd =>
    [("resultMetaData", some (c.member (c.fromExtensionObject variantValue rd.resultMetaData))),
      ("resultContent", rd.resultContent.map (c.members variantValue))]

/-- Under each key is the member that the key is named after, with its own value, and nothing
else. -/
def NamesItsMembers (x : UaStructure V) : Prop :=
  ∀ key value, (c.decoded variantValue x).member? key = some value ↔
    ∃ name, capitalised name = key ∧ (name, some value) ∈ c.emitted variantValue x

/-- The members that are written under the key of another one are absent. -/
def NoneMisnamed : UaStructure V → Prop
  | .entity e => e.entityOriginId = none ∧ e.isExternal = none
  | .joiningResultMetaData r => r.assemblyType = none
  | _ => True

/-! ### Assignments under the right keys -/

/-- The assignments of a list of members to the keys named after them. -/
def toKeys (members : List (String × Option RawJson)) : List (String × Option RawJson) :=
  members.map fun m => (capitalised m.1, m.2)

theorem mem_toKeys {members : List (String × Option RawJson)} {key : String} {value : RawJson} :
    (key, some value) ∈ toKeys members ↔
      ∃ name, capitalised name = key ∧ (name, some value) ∈ members := by
  simp only [toKeys, List.mem_map, Prod.exists, Prod.mk.injEq]
  constructor
  · rintro ⟨name, v, hmem, hkey, rfl⟩
    exact ⟨name, hkey, hmem⟩
  · rintro ⟨name, hkey, hmem⟩
    exact ⟨name, some value, hmem, hkey, rfl⟩

/-- Assignments are to the keys named after the members if the keys and the values are. -/
theorem eq_toKeys {assignments members : List (String × Option RawJson)}
    (hkeys : assignments.map Prod.fst = (members.map Prod.fst).map capitalised)
    (hvalues : assignments.map Prod.snd = members.map Prod.snd) : assignments = toKeys members := by
  have hkeys' : (toKeys members).map Prod.fst = (members.map Prod.fst).map capitalised := by
    simp [toKeys]
  have hvalues' : (toKeys members).map Prod.snd = members.map Prod.snd := by
    simp [toKeys]
  rw [List.zip_of_prod hkeys hvalues, List.zip_of_prod hkeys' hvalues']

/-- The keys of the members are different. -/
theorem nodup_keys_emitted (x : UaStructure V) :
    ((toKeys (c.emitted variantValue x)).map Prod.fst).Nodup := by
  cases x <;> simp only [toKeys, emitted, List.map_cons, List.map_nil] <;> decide +kernel

/-- Members that are assigned to the keys named after them are found under these. -/
theorem namesItsMembers_of_eq {x : UaStructure V}
    (h : c.decoded variantValue x = assigned (toKeys (c.emitted variantValue x))) :
    c.NamesItsMembers variantValue x := fun key value => by
  rw [h, RawJson.member?_assigned_of_nodup (c.nodup_keys_emitted variantValue x), mem_toKeys]

theorem namesItsMembers_resultValue (rd : UaResultValueDataType) :
    c.NamesItsMembers variantValue (.resultValue rd) := by
  refine c.namesItsMembers_of_eq variantValue (congrArg assigned (eq_toKeys ?_ rfl))
  simp only [emitted, List.map_cons, List.map_nil]
  decide +kernel

theorem namesItsMembers_stepResult (rd : UaStepResultDataType) :
    c.NamesItsMembers variantValue (.stepResult rd) := by
  refine c.namesItsMembers_of_eq variantValue (congrArg assigned (eq_toKeys ?_ rfl))
  simp only [emitted, List.map_cons, List.map_nil]
  decide +kernel

theorem namesItsMembers_joiningResult (r : UaJoiningResultDataType) :
    c.NamesItsMembers variantValue (.joiningResult r) := by
  refine c.namesItsMembers_of_eq variantValue (congrArg assigned (eq_toKeys ?_ rfl))
  simp only [emitted, List.map_cons, List.map_nil]
  decide +kernel

/-- The assignments of result data are made twice. -/
theorem namesItsMembers_resultData (rd : UaResultDataType V) :
    c.NamesItsMembers variantValue (.resultData rd) := by
  have hkeys : c.decodeResultDataType variantValue rd =
      toKeys (c.emitted variantValue (.resultData rd)) := by
    refine eq_toKeys ?_ rfl
    simp only [decodeResultDataType, emitted, List.map_cons, List.map_nil]
    decide +kernel
  intro key value
  simp only [decoded, setValueFromScalarVariant]
  rw [hkeys, RawJson.member?_assigned_append_self (c.nodup_keys_emitted variantValue _), mem_toKeys]

/-- The keys that are assigned to. -/
def AssignsTo (j : RawJson) (keys : List String) : Prop :=
  ∃ assignments, j = assigned assignments ∧ assignments.map Prod.fst = keys

/-- A member whose key is never assigned to is absent. -/
theorem eq_none_of_key_notMem {x : UaStructure V} (h : c.NamesItsMembers variantValue x)
    {keys : List String} (hkeys : AssignsTo (c.decoded variantValue x) keys) {name : String}
    (hname : capitalised name ∉ keys) {value : Option RawJson}
    (hmem : (name, value) ∈ c.emitted variantValue x) : value = none := by
  obtain ⟨assignments, heq, rfl⟩ := hkeys
  cases value with
  | none => rfl
  | some v =>
    have hmember := (h (capitalised name) v).mpr ⟨name, rfl, hmem⟩
    rw [heq] at hmember
    exact absurd (RawJson.mem_keys_of_member? hmember) hname

/-- The id of the origin and whether the entity is external are written under the key of the
description. -/
theorem namesItsMembers_entity_iff (e : UaEntityDataType) :
    c.NamesItsMembers variantValue (.entity e) ↔ e.entityOriginId = none ∧ e.isExternal = none := by
  have hkeys : AssignsTo (c.decoded variantValue (.entity e))
      ["EntityId", "EntityType", "Description", "Description", "Name", "Description"] :=
    ⟨_, by rw [decoded, decodeEntityDataType], rfl⟩
  constructor
  · intro h
    have horigin : ("entityOriginId", e.entityOriginId.map fromString) ∈
        c.emitted variantValue (.entity e) := by simp [emitted]
    have hexternal : ("isExternal", e.isExternal.map RawJson.boolean) ∈
        c.emitted variantValue (.entity e) := by simp [emitted]
    exact ⟨Option.map_eq_none_iff.mp
        (c.eq_none_of_key_notMem variantValue h hkeys (by decide +kernel) horigin),
      Option.map_eq_none_iff.mp
        (c.eq_none_of_key_notMem variantValue h hkeys (by decide +kernel) hexternal)⟩
  · rintro ⟨horigin, hexternal⟩
    refine c.namesItsMembers_of_eq variantValue ?_
    have hassigned : c.decoded variantValue (.entity e) = assigned [
        ("EntityId", some (fromString e.entityId)), ("EntityType", some (fromInt16 e.entityType)),
        ("Description", e.description.map fromString), ("EntityOriginId", none),
        ("Name", e.name.map fromString), ("IsExternal", none)] := by
      simp only [decoded, decodeEntityDataType, horigin, hexternal, assigned]
      rfl
    rw [hassigned]
    refine congrArg assigned (eq_toKeys ?_ ?_)
    · simp only [emitted, List.map_cons, List.map_nil]
      decide +kernel
    · simp [emitted, horigin, hexternal]

/-- The type of the assembly is written under the key of a result. -/
theorem namesItsMembers_joiningResultMetaData_iff (r : UaJoiningResultMetaDataType V) :
    c.NamesItsMembers variantValue (.joiningResultMetaData r) ↔ r.assemblyType = none := by
  have hkeys : AssignsTo (c.decoded variantValue (.joiningResultMetaData r))
      ["ResultId", "AssociatedEntities", "Classification", "CreationTime", "Description",
        "ExtendedMetaData", "ExternalConfigurationId", "ExternalRecipeId", "FileFormat"] :=
    ⟨_, by rw [decoded, decodeJoiningResultMetaDataType], rfl⟩
  constructor
  · intro h
    have hassembly : ("assemblyType", r.assemblyType.map c.memberByte) ∈
        c.emitted variantValue (.joiningResultMetaData r) := by simp [emitted]
    exact Option.map_eq_none_iff.mp
      (c.eq_none_of_key_notMem variantValue h hkeys (by decide +kernel) hassembly)
  · intro hassembly
    refine c.namesItsMembers_of_eq variantValue ?_
    rw [decoded, decodeJoiningResultMetaDataType, hassembly, Option.map_none,
      RawJson.assigned_cons_none, ← RawJson.assigned_cons_none "AssemblyType"]
    refine congrArg assigned (eq_toKeys ?_ ?_)
    · simp only [emitted, List.map_cons, List.map_nil]
      decide +kernel
    · simp only [emitted, hassembly, Option.map_none, List.map_cons, List.map_nil]

/-- **When members are found under their keys**: always, but for the three members that are written
under the key of another one. -/
theorem namesItsMembers_iff (x : UaStructure V) :
    c.NamesItsMembers variantValue x ↔ NoneMisnamed x := by
  cases x with
  | entity e => exact c.namesItsMembers_entity_iff variantValue e
  | resultValue rd => exact iff_of_true (c.namesItsMembers_resultValue variantValue rd) trivial
  | stepResult rd => exact iff_of_true (c.namesItsMembers_stepResult variantValue rd) trivial
  | joiningResult r => exact iff_of_true (c.namesItsMembers_joiningResult variantValue r) trivial
  | joiningResultMetaData r => exact c.namesItsMembers_joiningResultMetaData_iff variantValue r
  | resultData rd => exact iff_of_true (c.namesItsMembers_resultData variantValue rd) trivial

/-- A tool that is described, and external. -/
def externalTool : UaEntityDataType where
  name := none
  description := some (some "Tool".toByteArray)
  entityId := some "T1".toByteArray
  entityOriginId := none
  isExternal := some true
  entityType := 1

/-- Its description is gone. -/
theorem not_namesItsMembers :
    ¬ ∀ (c : UaDataValueToJsonValue) (V : Type) (variantValue : V → RawJson) (x : UaStructure V),
      c.NamesItsMembers variantValue x := by
  intro hall
  have hnames := hall ⟨false, fun _ => ⟨1601, 1, 1, 0, 0, 0, 0⟩⟩ Empty Empty.elim
    (.entity externalTool)
  have hshown :
      (decodeEntityDataType externalTool).member? "Description" = some (.boolean true) := by
    with_unfolding_all rfl
  obtain ⟨name, hkey, hmem⟩ := (hnames "Description" (.boolean true)).mp hshown
  simp only [emitted, externalTool, List.mem_cons, Prod.mk.injEq] at hmem
  simp [fromString, fromInt16] at hmem
  subst hmem
  exact absurd hkey (by decide +kernel)

end UaDataValueToJsonValue

end UmatiDashboard
