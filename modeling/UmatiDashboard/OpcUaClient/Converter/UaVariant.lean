import UmatiDashboard.OpcUaClient.Converter.ArrayValues

/-!
# The values that a server sends

The value types of the OPC UA stack, with the fields that the conversion to JSON reads. A pointer
member may be null. A variant holds nothing, a scalar or an array of one type, and a scalar can
be, or can contain, further variants: `UaVariant n` are the variants that are nested at most `n`
deep, so that every value is one of some depth.

An extension object is what the conversion makes of the encoding's id: the bodies that it decodes,
and the rest. One that the stack has decoded already is read as if it were not, and belongs to the
rest as well.
-/

namespace UmatiDashboard

/-- A string or byte string: null or some bytes. -/
abbrev UaString := Option ByteArray

/-- A size and a pointer in a structure. -/
def UaMembers (α : Type) : Type := { elems : List α // elems.length < 2 ^ 31 }

/-- `UA_Variant_setArray`: an array without dimensions. -/
def UaMembers.array {α : Type} (m : UaMembers α) : UaArray α := ⟨m.1, [], m.2, by simp⟩

structure UaGuid where
  data1 : UInt32
  data2 : UInt16
  data3 : UInt16
  data4 : Vector UInt8 8

structure UaQualifiedName where
  namespaceIndex : UInt16
  name : UaString

structure UaLocalizedText where
  locale : UaString
  text : UaString

structure UaEUInformation where
  namespaceUri : UaString
  unitId : Int32
  displayName : UaLocalizedText
  description : UaLocalizedText

/-- Two doubles, as bit patterns. -/
structure UaRange where
  low : UInt64
  high : UInt64

structure UaTimeZoneDataType where
  offset : Int16
  daylightSavingInOffset : Bool

structure UaProcessingTimesDataType where
  startTime : Int64
  endTime : Int64
  acquisitionDuration : Option UInt64
  processingDuration : Option UInt64

structure UaEntityDataType where
  name : Option UaString
  description : Option UaString
  entityId : UaString
  entityOriginId : Option UaString
  isExternal : Option Bool
  entityType : Int16

structure UaResultValueDataType where
  measuredValue : UInt64
  name : Option UaString
  resultEvaluation : Option Int32
  valueId : Option UaString
  valueTag : Option Int16
  tracePointIndex : Option Int32
  tracePointTimeOffset : Option UInt64
  parameterIdList : Option (UaMembers UaString)
  violationType : Option UInt8
  violationConsequence : Option UInt8
  sensorId : Option UaString
  lowLimit : Option UInt64
  highLimit : Option UInt64
  targetValue : Option UInt64
  resultStep : Option UaString
  physicalQuantity : Option UInt8
  engineeringUnits : Option UaEUInformation

structure UaStepResultDataType where
  stepResultId : UaString
  programStepId : Option UaString
  programStep : Option UaString
  name : Option UaString
  resultEvaluation : Option Int32
  startTimeOffset : Option UInt64
  stepTraceId : Option UaString
  stepResultValues : Option (UaMembers UaResultValueDataType)

structure UaJoiningResultDataType where
  failureReason : Option UInt8
  overallResultValues : Option (UaMembers UaResultValueDataType)
  stepResults : Option (UaMembers UaStepResultDataType)
  /-- of a type that is not converted, but for their number -/
  errors : Option (UaMembers Unit)
  failingStepResultId : Option UaString

structure UaResultMetaDataType where
  resultId : UaString
  resultState : Option Int32
  resultUri : Option (UaMembers UaString)
  fileFormat : Option (UaMembers UaString)

section Variants

variable (V : Type)

structure UaKeyValueDataType where
  key : UaString
  value : V

structure UaJoiningResultMetaDataType where
  externalRecipeId : Option UaString
  externalConfigurationId : Option UaString
  creationTime : Option Int64
  fileFormat : Option (UaMembers UaString)
  description : Option UaLocalizedText
  classification : Option UInt8
  assemblyType : Option UInt8
  associatedEntities : Option (UaMembers UaEntityDataType)
  extendedMetaData : Option (UaMembers (UaKeyValueDataType V))

/-- An extension object, by the encoding's id. A body that cannot be decoded is all zero. -/
inductive UaExtensionObject where
  | resultMetaData (body : UaResultMetaDataType)
  | entity (body : UaEntityDataType)
  | joiningResultMetaData (body : UaJoiningResultMetaDataType V)
  | joiningResult (body : UaJoiningResultDataType)
  | other

structure UaResultDataType where
  resultMetaData : UaExtensionObject V
  resultContent : Option (UaMembers V)

/-- The types of values, by their kind, and by their name for structures. -/
inductive UaType where
  | boolean | sByte | byte | int16 | uint16 | int32 | uint32 | int64 | uint64 | float | double
  | string | dateTime | guid | byteString | xmlElement | nodeId | expandedNodeId | statusCode
  | qualifiedName | localizedText | extensionObject | dataValue | variant | diagnosticInfo
  | euInformation | range | timeZoneDataType | keyValueDataType | resultDataType
  | processingTimesDataType | entityDataType | resultValueDataType | stepResultDataType
  | resultEvaluationEnum
  /-- any further type -/
  | unknown
  deriving DecidableEq

/-- What the conversion reads of a value of some type. -/
@[reducible] def UaType.Value : UaType → Type
  | .boolean => Bool
  | .sByte => Int8
  | .byte => UInt8
  | .int16 => Int16
  | .uint16 => UInt16
  | .int32 => Int32
  | .uint32 => UInt32
  | .int64 => Int64
  | .uint64 => UInt64
  | .float => UInt32
  | .double => UInt64
  | .string => UaString
  | .dateTime => Int64
  | .guid => UaGuid
  | .byteString => UaString
  -- the numeric identifier, whichever kind of identifier the id has
  | .nodeId => UInt32
  | .qualifiedName => UaQualifiedName
  | .localizedText => UaLocalizedText
  | .extensionObject => UaExtensionObject V
  | .variant => V
  | .euInformation => UaEUInformation
  | .range => UaRange
  | .timeZoneDataType => UaTimeZoneDataType
  | .keyValueDataType => UaKeyValueDataType V
  | .resultDataType => UaResultDataType V
  | .processingTimesDataType => UaProcessingTimesDataType
  | .entityDataType => UaEntityDataType
  | .resultValueDataType => UaResultValueDataType
  | .stepResultDataType => UaStepResultDataType
  | .resultEvaluationEnum => Int32
  | .xmlElement | .expandedNodeId | .statusCode | .dataValue | .diagnosticInfo | .unknown => Unit

/-- A variant whose inner variants are of type `V`. -/
inductive UaVariantOver where
  | empty
  | scalar (type : UaType) (value : type.Value V)
  | array (type : UaType) (values : UaArray (type.Value V))

end Variants

/-- The variants that are nested at most `n` deep. -/
def UaVariant : ℕ → Type
  | 0 => Empty
  | n + 1 => UaVariantOver (UaVariant n)

end UmatiDashboard
