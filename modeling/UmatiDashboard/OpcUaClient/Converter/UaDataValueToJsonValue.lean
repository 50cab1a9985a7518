import UmatiDashboard.OpcUaClient.Converter.UaVariant
import UmatiDashboard.OpcUaClient.Services

/-!
# From a data value to JSON

The conversion goes by the type of the value. The members of structures are wrapped into data
values of their own and converted the same way; strings are copied as they are. Arrays of some
types are converted element by element, the others not at all.
-/

namespace UmatiDashboard

/-- The stack's broken-down time. -/
structure UaDateTimeStruct where
  year : Int
  month : ℕ
  day : ℕ
  hour : ℕ
  min : ℕ
  sec : ℕ
  milliSec : ℕ

/-- The converter, with the stack's `UA_DateTime_toStruct`. -/
structure UaDataValueToJsonValue where
  serializeStatusInformation : Bool
  toStruct : Int64 → UaDateTimeStruct

namespace UaDataValueToJsonValue

open RawJson (assigned)

variable (c : UaDataValueToJsonValue)

/-! ### Texts -/

/-- The text of a point in time. -/
def dateTimeText (t : UaDateTimeStruct) : String :=
  toString t.year ++ "-" ++ toString t.month ++ "-" ++ toString t.day ++ "T" ++ toString t.hour ++
    ":" ++ toString t.min ++ ":" ++ toString t.sec ++ ":" ++ toString t.milliSec ++ "Z"

/-- A number in hexadecimal digits, without leading zeros. -/
def hex (n : ℕ) : String := String.ofList (Nat.toDigits 16 n)

/-- Four bytes as a little-endian number. -/
def word (b₀ b₁ b₂ b₃ : UInt8) : ℕ :=
  b₀.toNat + 2 ^ 8 * b₁.toNat + 2 ^ 16 * b₂.toNat + 2 ^ 24 * b₃.toNat

def guidText (g : UaGuid) : String :=
  hex g.data1.toNat ++ "-" ++ hex g.data2.toNat ++ "-" ++ hex g.data3.toNat ++ "-" ++
    hex (word g.data4[0] g.data4[1] g.data4[2] g.data4[3]) ++ "-" ++
    hex (word g.data4[4] g.data4[5] g.data4[6] g.data4[7])

/-- The bytes of a string, none if it is null. -/
def bytes (s : UaString) : ByteArray := s.getD .empty

/-- A string as it was sent. -/
def fromString (s : UaString) : RawJson := .string (bytes s)

/-- The binary number of a single-precision one. -/
def widen (bits : UInt32) : UInt64 := (Float32.ofBits bits).toFloat.toBits

/-! ### Data values -/

/-- The JSON value that is wrapped up with its status code if this is asked for. -/
def wrap (status : UInt32) (value : RawJson) : RawJson :=
  if c.serializeStatusInformation then
    assigned [("value", some value),
      ("statusCode", some (assigned [("code", some (.integer status.toNat)),
        ("isGood", some (.boolean (status = 0)))]))]
  else value

/-- A member of a structure, which has the status good. -/
def member (value : RawJson) : RawJson := c.wrap 0 value

/-- The elements of a structure's array. -/
def members {α : Type} (f : α → RawJson) (m : UaMembers α) : RawJson :=
  c.member (m.array.toJson f)

/-! ### Structures -/

def fromInt16 (n : Int16) : RawJson := .integer n.toInt

def fromInt32 (n : Int32) : RawJson := .integer n.toInt

def fromByte (n : UInt8) : RawJson := .integer n.toNat

def fromDateTime (t : Int64) : RawJson := .text (dateTimeText (c.toStruct t))

/-- Strings from this length on are left out of localized texts: some servers send invalid
lengths. -/
def maxLength : ℕ := 4000

def fromLocalizedText (t : UaLocalizedText) : RawJson :=
  assigned [("locale", (t.locale.filter (·.size < maxLength)).map .string),
    ("text", (t.text.filter (·.size < maxLength)).map .string)]

def fromQualifiedName (q : UaQualifiedName) : RawJson :=
  assigned [("namespaceIndex", some (.integer q.namespaceIndex.toNat)),
    ("name", some (fromString q.name))]

def fromEUInformation (e : UaEUInformation) : RawJson :=
  assigned [("NamespaceUri", some (fromString e.namespaceUri)),
    ("UnitId", some (fromInt32 e.unitId)),
    ("DisplayName", some (c.member (fromLocalizedText e.displayName))),
    ("Description", some (c.member (fromLocalizedText e.description)))]

def fromRange (r : UaRange) : RawJson :=
  assigned [("Low", some (.real r.low)), ("High", some (.real r.high))]

def fromTimeZone (t : UaTimeZoneDataType) : RawJson :=
  assigned [("daylightSavingInOffset", some (.boolean t.daylightSavingInOffset)),
    ("offset", some (fromInt16 t.offset))]

def fromProcessingTimes (t : UaProcessingTimesDataType) : RawJson :=
  assigned [("AcquisitionDuration", t.acquisitionDuration.map .real),
    ("ProcessingDuration", t.processingDuration.map .real),
    ("StartTime", some (c.member (c.fromDateTime t.startTime))),
    ("EndTime", some (c.member (c.fromDateTime t.endTime)))]

/-- The description is overwritten by the origin's id, and then by whether the entity is
external. -/
def decodeEntityDataType (e : UaEntityDataType) : RawJson :=
  assigned [("EntityId", some (fromString e.entityId)),
    ("EntityType", some (fromInt16 e.entityType)),
    ("Description", e.description.map fromString),
    ("Description", e.entityOriginId.map fromString),
    ("Name", e.name.map fromString),
    ("Description", e.isExternal.map .boolean)]

/-- The texts are those of the stack's enumeration; other numbers leave the value null. -/
def decodeResultEvaluationEnum (e : Int32) : RawJson :=
  if e = 0 then .text "UA_RESULTEVALUATIONENUM_UNDEFINED"
  else if e = 1 then .text "UA_RESULTEVALUATIONENUM_OK"
  else if e = 2 then .text "UA_RESULTEVALUATIONENUM_NOTOK"
  else if e = 3 then .text "UA_RESULTEVALUATIONENUM_NOTDECIDABLE"
  else .null

def memberString (s : UaString) : RawJson := c.member (fromString s)

def memberReal (bits : UInt64) : RawJson := c.member (.real bits)

def memberByte (n : UInt8) : RawJson := c.member (fromByte n)

def decodeResultValueDataType (rd : UaResultValueDataType) : RawJson :=
  assigned [
    ("EngineeringUnits", rd.engineeringUnits.map fun e => c.member (c.fromEUInformation e)),
    ("HighLimit", rd.highLimit.map c.memberReal),
    ("LowLimit", rd.lowLimit.map c.memberReal),
    ("MeasuredValue", some (.real rd.measuredValue)),
    ("Name", rd.name.map c.memberString),
    ("ParameterIdList", rd.parameterIdList.map (c.members fromString)),
    ("PhysicalQuantity", rd.physicalQuantity.map c.memberByte),
    ("ResultEvaluation",
      rd.resultEvaluation.map fun e => c.member (decodeResultEvaluationEnum e)),
    ("ResultStep", rd.resultStep.map c.memberString),
    ("SensorId", rd.sensorId.map c.memberString),
    ("TargetValue", rd.targetValue.map c.memberReal),
    ("TracePointIndex", rd.tracePointIndex.map fun n => c.member (fromInt32 n)),
    ("TracePointTimeOffset", rd.tracePointTimeOffset.map c.memberReal),
    ("ValueId", rd.valueId.map c.memberString),
    ("ValueTag", rd.valueTag.map fun n => c.member (fromInt16 n)),
    ("ViolationConsequence", rd.violationConsequence.map c.memberByte),
    ("ViolationType", rd.violationType.map c.memberByte)]

def decodeStepResultDataType (rd : UaStepResultDataType) : RawJson :=
  assigned [
    ("Name", rd.name.map c.memberString),
    ("ProgramStep", rd.programStep.map c.memberString),
    ("ProgramStepId", rd.programStepId.map c.memberString),
    ("ResultEvaluation",
      rd.resultEvaluation.map fun e => c.member (decodeResultEvaluationEnum e)),
    ("StartTimeOffset", rd.startTimeOffset.map c.memberReal),
    ("StepResultId", some (c.memberString rd.stepResultId)),
    ("StepResultValues", rd.stepResultValues.map (c.members c.decodeResultValueDataType)),
    ("StepTraceId", rd.stepTraceId.map c.memberString)]

def decodeJoiningResultDataType (r : UaJoiningResultDataType) : RawJson :=
  assigned [
    -- the errors are of a type whose arrays are not converted
    ("Errors", r.errors.map fun _ => c.member .null),
    ("FailingStepResultId", r.failingStepResultId.map c.memberString),
    ("FailureReason", r.failureReason.map c.memberByte),
    ("OverallResultValues", r.overallResultValues.map (c.members c.decodeResultValueDataType)),
    ("StepResults", r.stepResults.map (c.members c.decodeStepResultDataType))]

def fromResultMetaData (r : UaResultMetaDataType) : RawJson :=
  assigned [
    ("ResultId", some (c.memberString r.resultId)),
    ("ResultState", r.resultState.map fun n => c.member (fromInt32 n)),
    ("ResultUri", r.resultUri.map (c.members fromString)),
    ("FileFormat", r.fileFormat.map (c.members fromString))]

section Variants

variable {V : Type} (variantValue : V → RawJson)

def fromKeyValue (kv : UaKeyValueDataType V) : RawJson :=
  assigned [("Key", some (fromString kv.key)),
    ("Value", some (c.member (variantValue kv.value)))]

def decodeJoiningResultMetaDataType (r : UaJoiningResultMetaDataType V) : RawJson :=
  assigned [
    ("ResultId", r.assemblyType.map c.memberByte),
    ("AssociatedEntities", r.associatedEntities.map (c.members decodeEntityDataType)),
    ("Classification", r.classification.map c.memberByte),
    ("CreationTime", r.creationTime.map fun t => c.member (c.fromDateTime t)),
    ("Description", r.description.map fun t => c.member (fromLocalizedText t)),
    ("ExtendedMetaData", r.extendedMetaData.map (c.members (c.fromKeyValue variantValue))),
    ("ExternalConfigurationId", r.externalConfigurationId.map c.memberString),
    ("ExternalRecipeId", r.externalRecipeId.map c.memberString),
    ("FileFormat", r.fileFormat.map (c.members fromString))]

def fromExtensionObject : UaExtensionObject V → RawJson
  | .resultMetaData body => c.fromResultMetaData body
  | .entity body => decodeEntityDataType body
  | .joiningResultMetaData body => c.decodeJoiningResultMetaDataType variantValue body
  | .joiningResult body => c.decodeJoiningResultDataType body
  | .other => .null

/-- The assignments of `decodeResultDataType`. -/
def decodeResultDataType (rd : UaResultDataType V) : List (String × Option RawJson) :=
  [("ResultMetaData", some (c.member (c.fromExtensionObject variantValue rd.resultMetaData))),
    ("ResultContent", rd.resultContent.map (c.members variantValue))]

/-! ### Variants -/

/-- The conversion of a scalar. An inner variant is converted by `variantValue`. -/
def setValueFromScalarVariant : (type : UaType) → type.Value V → RawJson
  | .boolean, v => .boolean v
  | .sByte, v => .integer v.toInt
  | .byte, v => fromByte v
  | .int16, v => fromInt16 v
  | .uint16, v => .integer v.toNat
  | .int32, v => fromInt32 v
  | .uint32, v => .integer v.toNat
  | .int64, v => .integer v.toInt
  | .uint64, v => .integer v.toNat
  | .float, v => .real (widen v)
  | .double, v => .real v
  | .string, v => fromString v
  | .dateTime, v => c.fromDateTime v
  | .guid, v => .text (guidText v)
  | .byteString, v => fromString v
  | .nodeId, v => .integer v.toNat
  | .qualifiedName, v => fromQualifiedName v
  | .localizedText, v => fromLocalizedText v
  | .extensionObject, v => c.fromExtensionObject variantValue v
  | .variant, v => variantValue v
  | .euInformation, v => c.fromEUInformation v
  | .range, v => fromRange v
  | .timeZoneDataType, v => fromTimeZone v
  | .keyValueDataType, v => c.fromKeyValue variantValue v
  -- the branch for structures has no break here, and what follows decodes the value again
  | .resultDataType, v =>
    assigned (c.decodeResultDataType variantValue v ++ c.decodeResultDataType variantValue v)
  | .processingTimesDataType, v => c.fromProcessingTimes v
  | .entityDataType, v => decodeEntityDataType v
  | .resultValueDataType, v => c.decodeResultValueDataType v
  | .stepResultDataType, v => c.decodeStepResultDataType v
  | .resultEvaluationEnum, v => decodeResultEvaluationEnum v
  | .xmlElement, _ | .expandedNodeId, _ | .statusCode, _ | .dataValue, _ | .diagnosticInfo, _
  | .unknown, _ => .null

/-- The types whose arrays are converted. Result data are looked for among the structures with
optional fields, to which they do not belong. -/
def isArrayConvertible : UaType → Bool
  | .guid | .byteString | .xmlElement | .expandedNodeId | .statusCode | .dataValue
  | .diagnosticInfo | .timeZoneDataType | .resultDataType | .processingTimesDataType
  | .resultEvaluationEnum | .unknown => false
  | _ => true

def setValueFromArrayVariant (type : UaType) (values : UaArray (type.Value V)) : RawJson :=
  if isArrayConvertible type then
    values.toJson (c.setValueFromScalarVariant variantValue type)
  else .null

def setValueFromDataValue : UaVariantOver V → RawJson
  | .empty => .null
  | .scalar type value => c.setValueFromScalarVariant variantValue type value
  | .array type values => c.setValueFromArrayVariant variantValue type values

end Variants

/-- The value of a variant inside another one, which has the status good. -/
def variantValue : (n : ℕ) → UaVariant n → RawJson
  | n + 1, v => c.member (c.setValueFromDataValue (variantValue n) v)

/-- The value of the JSON that is made of a variant. -/
def jsonValue {n : ℕ} (v : UaVariant (n + 1)) : RawJson :=
  c.setValueFromDataValue (c.variantValue n) v

/-- The JSON that is made of a data value. -/
def getValue {n : ℕ} (dataValue : UaDataValue (UaVariant (n + 1))) : RawJson :=
  c.wrap dataValue.status (c.jsonValue dataValue.value)

/-! ### Arrays -/

/-- The value can be read off what it is wrapped into. -/
theorem wrap_injective (status : UInt32) : Function.Injective (c.wrap status) := by
  intro j j' heq
  by_cases hserialize : c.serializeStatusInformation = true
  · have hlt : "statusCode" < "value" := by decide
    have hne : ¬ "value" < "statusCode" := by decide
    simpa [wrap, hserialize, assigned, RawJson.made, RawJson.putMember, hlt, hne] using heq
  · simpa [wrap, hserialize] using heq

/-- **When an array is decoded**: it is converted to nested arrays in row-major order if and only
if its first dimension is not empty and, for every row `r` and every coordinate `i` in it, the
element number `r + i` converts as the element at `i` in that row. That is so for a non-empty
array with one dimension, with one row or with rows of length one. -/
theorem getValue_decodes_iff {n : ℕ} (type : UaType) (values : UaArray (type.Value (UaVariant n)))
    (status : UInt32) (htype : isArrayConvertible type = true) :
    (∃ j, c.getValue ⟨status, .array type values⟩ = c.wrap status j ∧
        values.Decodes (c.setValueFromScalarVariant (c.variantValue n) type) j) ↔
      values.shape.head? ≠ some 0 ∧ ∀ r < values.rowCount, ∀ i < values.rowLength,
        (values.data[r + i]?).map (c.setValueFromScalarVariant (c.variantValue n) type) =
          (values.data[r * values.rowLength + i]?).map
            (c.setValueFromScalarVariant (c.variantValue n) type) := by
  have hvalue : c.jsonValue (n := n) (.array type values) =
      values.toJson (c.setValueFromScalarVariant (c.variantValue n) type) := if_pos htype
  rw [← UaArray.isRowMajor_toJson_iff, ← UaArray.decodes_iff, ← hvalue]
  constructor
  · rintro ⟨j, heq, hj⟩
    have hj' : c.jsonValue (n := n) (.array type values) = j := c.wrap_injective status heq
    rwa [hj']
  · intro hj
    exact ⟨_, rfl, hj⟩

/-- Four numbers in two rows. -/
def twoRows : UaArray Int32 := ⟨[1, 2, 3, 4], [2, 2], by decide, by decide⟩

/-- The second row begins with the second element. -/
theorem not_getValue_decodes : ¬ ∀ (c : UaDataValueToJsonValue) (n : ℕ) (type : UaType)
    (values : UaArray (type.Value (UaVariant n))) (status : UInt32),
    isArrayConvertible type = true →
      ∃ j, c.getValue ⟨status, .array type values⟩ = c.wrap status j ∧
        values.Decodes (c.setValueFromScalarVariant (c.variantValue n) type) j := by
  intro h
  obtain ⟨j, heq, hj⟩ := h ⟨false, fun _ => ⟨1601, 1, 1, 0, 0, 0, 0⟩⟩ 0 .int32 twoRows 0 rfl
  have hvalue : RawJson.array [.array [.integer 1, .integer 2],
      .array [.integer 2, .integer 3]] = j := heq
  have hflat : RawJson.flatten 2 j = [.integer 1, .integer 2, .integer 3, .integer 4] :=
    hj.flatten_eq
  rw [← hvalue] at hflat
  simp [RawJson.flatten] at hflat

/-- Two rows of one number each. -/
def column : UaArray Int32 := ⟨[1, 2], [2, 1], by decide, by decide⟩

/-- A converter that takes every time for the first moment of 1601. -/
def fixedTime : UaDataValueToJsonValue := ⟨false, fun _ => ⟨1601, 1, 1, 0, 0, 0, 0⟩⟩

/-- They are decoded. -/
theorem getValue_decodes_column :
    ∃ j, fixedTime.getValue (n := 0) ⟨0, .array .int32 column⟩ = fixedTime.wrap 0 j ∧
      column.Decodes
        (fixedTime.setValueFromScalarVariant (fixedTime.variantValue 0) .int32) j := by
  refine (getValue_decodes_iff fixedTime .int32 column 0 rfl).mpr ⟨by decide, ?_⟩
  intro r hr i hi
  have hlength : column.rowLength = 1 := rfl
  have hi0 : i = 0 := by omega
  rw [hi0, hlength, Nat.mul_one]

end UaDataValueToJsonValue

end UmatiDashboard
