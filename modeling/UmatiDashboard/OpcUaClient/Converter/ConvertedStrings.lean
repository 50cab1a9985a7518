import UmatiDashboard.OpcUaClient.Converter.UaDataValueToJsonValue

/-!
# The strings of a converted value

Every string and byte string of a value is copied into the JSON as the server has sent it. The
JSON library looks at it only when the value is written out, and throws if it is not UTF-8. So a
value can be written out if and only if everything that is **copied** out of it is valid
(`getValue_dumps_iff`): a byte string that happens to be no text makes the write fail.
-/

namespace UmatiDashboard

/-! ### What is copied -/

/-- The first elements of an array, as far as any of them is read: the last row begins one
element behind the row before it. -/
def UaArray.readElements {α : Type} (a : UaArray α) : List α :=
  a.data.take (a.rowCount + a.rowLength - 1)

/-- The strings that are copied out of the elements of an array. -/
def UaArray.copied {α : Type} (f : α → List ByteArray) (a : UaArray α) : List ByteArray :=
  a.readElements.flatMap f

namespace UaDataValueToJsonValue

open RawJson (Dumps)

/-- The string that is copied. -/
def copiedString (s : UaString) : List ByteArray := [bytes s]

/-- What is copied out of a member unless its pointer is null. -/
def copiedIfSet {α : Type} (pointer : Option α) (f : α → List ByteArray) : List ByteArray :=
  pointer.toList.flatMap f

def copiedMembers {α : Type} (pointer : Option (UaMembers α)) (f : α → List ByteArray) :
    List ByteArray :=
  copiedIfSet pointer fun m => m.array.copied f

/-- A null string of a localized text is not copied, and one that is too long neither. -/
def copiedLocalizedText (t : UaLocalizedText) : List ByteArray :=
  (t.locale.filter (·.size < maxLength)).toList ++ (t.text.filter (·.size < maxLength)).toList

def copiedEUInformation (e : UaEUInformation) : List ByteArray :=
  copiedString e.namespaceUri ++ copiedLocalizedText e.displayName ++
    copiedLocalizedText e.description

/-- The description counts only if it is not overwritten. -/
def copiedEntity (e : UaEntityDataType) : List ByteArray :=
  copiedString e.entityId ++
    (if e.isExternal.isSome then []
      else copiedIfSet (e.entityOriginId <|> e.description) copiedString) ++
    copiedIfSet e.name copiedString

def copiedResultValue (rd : UaResultValueDataType) : List ByteArray :=
  copiedIfSet rd.engineeringUnits copiedEUInformation ++
    copiedIfSet rd.name copiedString ++
    copiedMembers rd.parameterIdList copiedString ++
    copiedIfSet rd.resultStep copiedString ++
    copiedIfSet rd.sensorId copiedString ++
    copiedIfSet rd.valueId copiedString

def copiedStepResult (rd : UaStepResultDataType) : List ByteArray :=
  copiedIfSet rd.name copiedString ++
    copiedIfSet rd.programStep copiedString ++
    copiedIfSet rd.programStepId copiedString ++
    copiedString rd.stepResultId ++
    copiedMembers rd.stepResultValues copiedResultValue ++
    copiedIfSet rd.stepTraceId copiedString

def copiedJoiningResult (r : UaJoiningResultDataType) : List ByteArray :=
  copiedIfSet r.failingStepResultId copiedString ++
    copiedMembers r.overallResultValues copiedResultValue ++
    copiedMembers r.stepResults copiedStepResult

def copiedResultMetaData (r : UaResultMetaDataType) : List ByteArray :=
  copiedString r.resultId ++ copiedMembers r.resultUri copiedString ++
    copiedMembers r.fileFormat copiedString

section Variants

variable {V : Type} (copiedVariant : V → List ByteArray)

def copiedKeyValue (kv : UaKeyValueDataType V) : List ByteArray :=
  copiedString kv.key ++ copiedVariant kv.value

def copiedJoiningResultMetaData (r : UaJoiningResultMetaDataType V) : List ByteArray :=
  copiedMembers r.associatedEntities copiedEntity ++
    copiedIfSet r.description copiedLocalizedText ++
    copiedMembers r.extendedMetaData (copiedKeyValue copiedVariant) ++
    copiedIfSet r.externalConfigurationId copiedString ++
    copiedIfSet r.externalRecipeId copiedString ++
    copiedMembers r.fileFormat copiedString

def copiedExtensionObject : UaExtensionObject V → List ByteArray
  | .resultMetaData body => copiedResultMetaData body
  | .entity body => copiedEntity body
  | .joiningResultMetaData body => copiedJoiningResultMetaData copiedVariant body
  | .joiningResult body => copiedJoiningResult body
  | .other => []

def copiedResultData (rd : UaResultDataType V) : List ByteArray :=
  copiedExtensionObject copiedVariant rd.resultMetaData ++
    copiedMembers rd.resultContent copiedVariant

/-- What is copied out of a scalar. -/
def copiedScalar : (type : UaType) → type.Value V → List ByteArray
  | .string, v => copiedString v
  | .byteString, v => copiedString v
  | .qualifiedName, v => copiedString v.name
  | .localizedText, v => copiedLocalizedText v
  | .extensionObject, v => copiedExtensionObject copiedVariant v
  | .variant, v => copiedVariant v
  | .euInformation, v => copiedEUInformation v
  | .keyValueDataType, v => copiedKeyValue copiedVariant v
  | .resultDataType, v => copiedResultData copiedVariant v
  | .entityDataType, v => copiedEntity v
  | .resultValueDataType, v => copiedResultValue v
  | .stepResultDataType, v => copiedStepResult v
  | _, _ => []

def copiedOver : UaVariantOver V → List ByteArray
  | .empty => []
  | .scalar type value => copiedScalar copiedVariant type value
  | .array type values =>
    if isArrayConvertible type then values.copied (copiedScalar copiedVariant type) else []

end Variants

/-- The strings that are copied out of a variant. -/
def copied : (n : ℕ) → UaVariant n → List ByteArray
  | n + 1, v => copiedOver (copied n) v

end UaDataValueToJsonValue

/-! ### Valid strings -/

/-- Strings that are all valid. -/
def ValidStrings (l : List ByteArray) : Prop := ∀ bytes ∈ l, bytes.IsValidUTF8

namespace ValidStrings

variable {l l' : List ByteArray} {α : Type}

@[simp] theorem nil : ValidStrings [] := by simp [ValidStrings]

@[simp] theorem singleton {b : ByteArray} : ValidStrings [b] ↔ b.IsValidUTF8 := by
  simp [ValidStrings]

@[simp] theorem append : ValidStrings (l ++ l') ↔ ValidStrings l ∧ ValidStrings l' := by
  simp only [ValidStrings, List.forall_mem_append]

theorem flatMap {f : α → List ByteArray} {xs : List α} :
    ValidStrings (xs.flatMap f) ↔ ∀ x ∈ xs, ValidStrings (f x) := by
  simp only [ValidStrings, List.mem_flatMap]
  exact ⟨fun h x hx b hb => h b ⟨x, hx, hb⟩, fun h b ⟨x, hx, hb⟩ => h x hx b hb⟩

end ValidStrings

namespace UaArray

variable {α : Type} {a : UaArray α}

/-- The elements that are read are the first ones. -/
theorem mem_readElements {e : α} : e ∈ a.readElements ↔
    ∃ is ∈ RowMajor.positions a.shape, a.data[a.readIndex is]? = some e := by
  obtain ⟨dims, d, -, hshape, hlength, hrows⟩ := a.exists_dimensions_eq
  have hprod : a.rowCount * a.rowLength = a.data.length := by
    rw [← a.prod_shape, UaArray.rowCount, hrows, hlength, hshape, List.prod_append,
      List.prod_singleton]
  have hindex : ∀ js ∈ RowMajor.positions (dims.map UInt32.toNat), ∀ i,
      a.readIndex (js ++ [i]) = RowMajor.rowMajorIndex (dims.map UInt32.toNat) js + i := by
    intro js _ i
    rw [readIndex, hrows]
    simp
  rw [readElements, List.mem_iff_getElem?]
  constructor
  · rintro ⟨n, hn⟩
    rw [List.getElem?_take] at hn
    split_ifs at hn with hlt
    have hdata : n < a.data.length := (List.getElem?_eq_some_iff.mp hn).1
    have hpos : 0 < a.rowCount ∧ 0 < a.rowLength :=
      ⟨Nat.pos_of_ne_zero fun h => by simp [h] at hprod; omega,
        Nat.pos_of_ne_zero fun h => by simp [h] at hprod; omega⟩
    -- the row as far down as possible, and the rest of the way along it
    have hrow : min n (a.rowCount - 1) < (dims.map UInt32.toNat).prod := by
      rw [← hrows]
      change _ < a.rowCount
      omega
    obtain ⟨js, hjs, hrowIndex⟩ := RowMajor.exists_rowMajorIndex_eq hrow
    have hcoordinate : n - min n (a.rowCount - 1) < d.toNat := by
      rw [← hlength]
      omega
    refine ⟨js ++ [n - min n (a.rowCount - 1)], ?_, ?_⟩
    · rw [hshape]
      exact RowMajor.mem_positions_concat.mpr ⟨js, hjs, _, hcoordinate, rfl⟩
    · rw [hindex js hjs, hrowIndex, Nat.add_sub_cancel' (min_le_left _ _), hn]
  · rintro ⟨is, his, he⟩
    rw [hshape] at his
    obtain ⟨js, hjs, i, hi, rfl⟩ := RowMajor.mem_positions_concat.mp his
    rw [hindex js hjs] at he
    refine ⟨_, (List.getElem?_take_of_lt ?_).trans he⟩
    have hrow : RowMajor.rowMajorIndex (dims.map UInt32.toNat) js < a.rowCount := by
      rw [UaArray.rowCount, hrows]
      exact RowMajor.rowMajorIndex_lt hjs
    rw [hlength]
    omega

/-- **An array can be written out** if the elements that are read can. -/
theorem dumps_toJson {scalar : α → RawJson} :
    (a.toJson scalar).Dumps ↔ ∀ e ∈ a.readElements, (scalar e).Dumps := by
  have hentry : ∀ is ∈ RowMajor.positions a.shape, ∀ e, a.data[a.readIndex is]? = some e →
      a.readEntry scalar is = scalar e := by
    intro is _ e he
    rw [readEntry, he, Option.map_some, Option.getD_some]
  rw [toJson_eq]
  split_ifs with hhead
  · -- an array of which the first dimension is empty has no elements
    have hnone : RowMajor.positions a.shape = [] := by
      obtain ⟨rest, hrest⟩ := List.head?_eq_some_iff.mp hhead
      rw [hrest]
      rfl
    refine iff_of_true RawJson.dumps_null fun e he => ?_
    obtain ⟨is, his, -⟩ := mem_readElements.mp he
    rw [hnone] at his
    exact absurd his List.not_mem_nil
  · rw [RawJson.dumps_nested]
    constructor
    · intro h e he
      obtain ⟨is, his, hread⟩ := mem_readElements.mp he
      exact hentry is his e hread ▸ h is his
    · intro h is his
      obtain ⟨e, hread⟩ := exists_getElem?_readIndex his
      rw [hentry is his e hread]
      exact h e (mem_readElements.mpr ⟨is, his, hread⟩)

/-- If a scalar can be written out when what is copied of it is valid, so can an array. -/
theorem dumps_toJson_iff {scalar : α → RawJson} {f : α → List ByteArray}
    (h : ∀ e, (scalar e).Dumps ↔ ValidStrings (f e)) :
    (a.toJson scalar).Dumps ↔ ValidStrings (a.copied f) := by
  rw [dumps_toJson, copied, ValidStrings.flatMap]
  exact forall₂_congr fun e _ => h e

end UaArray

namespace UaDataValueToJsonValue

open RawJson (dumps_assigned)

variable (c : UaDataValueToJsonValue)

/-! ### Structures -/

@[simp] theorem dumps_fromString (s : UaString) :
    (fromString s).Dumps ↔ ValidStrings (copiedString s) := by simp [fromString, copiedString]

@[simp] theorem dumps_fromInt16 (n : Int16) : (fromInt16 n).Dumps := RawJson.dumps_integer _

@[simp] theorem dumps_fromInt32 (n : Int32) : (fromInt32 n).Dumps := RawJson.dumps_integer _

@[simp] theorem dumps_fromByte (n : UInt8) : (fromByte n).Dumps := RawJson.dumps_integer _

@[simp] theorem dumps_fromDateTime (t : Int64) : (c.fromDateTime t).Dumps := RawJson.dumps_text _

/-- The status code adds no string from outside. -/
@[simp] theorem dumps_wrap (status : UInt32) (j : RawJson) :
    (c.wrap status j).Dumps ↔ j.Dumps := by
  rw [wrap]
  split_ifs
  · rw [dumps_assigned (by simp)]
    simp [dumps_assigned]
  · exact Iff.rfl

@[simp] theorem dumps_member (j : RawJson) : (c.member j).Dumps ↔ j.Dumps := c.dumps_wrap 0 j

@[simp] theorem validStrings_copiedIfSet {α : Type} {pointer : Option α}
    {f : α → List ByteArray} :
    ValidStrings (copiedIfSet pointer f) ↔ ∀ v ∈ pointer, ValidStrings (f v) := by
  rw [copiedIfSet, ValidStrings.flatMap]
  simp

theorem validStrings_copiedMembers {α : Type} {pointer : Option (UaMembers α)}
    {scalar : α → RawJson} {f : α → List ByteArray}
    (h : ∀ e, (scalar e).Dumps ↔ ValidStrings (f e)) :
    ValidStrings (copiedMembers pointer f) ↔ ∀ m ∈ pointer, (c.members scalar m).Dumps := by
  rw [copiedMembers, validStrings_copiedIfSet]
  refine forall₂_congr fun m _ => ?_
  rw [members, dumps_member, UaArray.dumps_toJson_iff h]

@[simp] theorem dumps_memberString (s : UaString) :
    (c.memberString s).Dumps ↔ ValidStrings (copiedString s) :=
  (c.dumps_member _).trans (dumps_fromString s)

@[simp] theorem dumps_memberReal (bits : UInt64) : (c.memberReal bits).Dumps :=
  (c.dumps_member _).mpr (RawJson.dumps_real bits)

@[simp] theorem dumps_memberByte (n : UInt8) : (c.memberByte n).Dumps :=
  (c.dumps_member _).mpr (dumps_fromByte n)

@[simp] theorem dumps_decodeResultEvaluationEnum (e : Int32) :
    (decodeResultEvaluationEnum e).Dumps := by
  rw [decodeResultEvaluationEnum]
  split_ifs <;> simp

@[simp] theorem dumps_fromLocalizedText (t : UaLocalizedText) :
    (fromLocalizedText t).Dumps ↔ ValidStrings (copiedLocalizedText t) := by
  have hstring : ∀ s : Option ByteArray,
      (∀ v ∈ s.map RawJson.string, v.Dumps) ↔ ValidStrings s.toList := by
    intro s
    cases s <;> simp
  rw [fromLocalizedText, dumps_assigned (by simp), List.forall_mem_cons, List.forall_mem_singleton,
    hstring, hstring, ← ValidStrings.append, copiedLocalizedText]

@[simp] theorem dumps_fromQualifiedName (q : UaQualifiedName) :
    (fromQualifiedName q).Dumps ↔ ValidStrings (copiedString q.name) := by
  rw [fromQualifiedName, dumps_assigned (by simp)]
  simp

@[simp] theorem dumps_fromEUInformation (e : UaEUInformation) :
    (c.fromEUInformation e).Dumps ↔ ValidStrings (copiedEUInformation e) := by
  rw [fromEUInformation, dumps_assigned (by simp)]
  simp [copiedEUInformation]

@[simp] theorem dumps_fromRange (r : UaRange) : (fromRange r).Dumps := by
  rw [fromRange, dumps_assigned (by simp)]
  simp

@[simp] theorem dumps_fromTimeZone (t : UaTimeZoneDataType) : (fromTimeZone t).Dumps := by
  rw [fromTimeZone, dumps_assigned (by simp)]
  simp

@[simp] theorem dumps_fromProcessingTimes (t : UaProcessingTimesDataType) :
    (c.fromProcessingTimes t).Dumps := by
  rw [fromProcessingTimes, dumps_assigned (by simp)]
  simp

@[simp] theorem dumps_decodeResultValueDataType (rd : UaResultValueDataType) :
    (c.decodeResultValueDataType rd).Dumps ↔ ValidStrings (copiedResultValue rd) := by
  rw [decodeResultValueDataType, dumps_assigned (by simp)]
  simp [copiedResultValue, c.validStrings_copiedMembers dumps_fromString]

@[simp] theorem dumps_decodeStepResultDataType (rd : UaStepResultDataType) :
    (c.decodeStepResultDataType rd).Dumps ↔ ValidStrings (copiedStepResult rd) := by
  rw [decodeStepResultDataType, dumps_assigned (by simp)]
  simp [copiedStepResult, c.validStrings_copiedMembers c.dumps_decodeResultValueDataType]

@[simp] theorem dumps_decodeJoiningResultDataType (r : UaJoiningResultDataType) :
    (c.decodeJoiningResultDataType r).Dumps ↔ ValidStrings (copiedJoiningResult r) := by
  rw [decodeJoiningResultDataType, dumps_assigned (by simp)]
  simp [copiedJoiningResult, c.validStrings_copiedMembers c.dumps_decodeResultValueDataType,
    c.validStrings_copiedMembers c.dumps_decodeStepResultDataType]

@[simp] theorem dumps_fromResultMetaData (r : UaResultMetaDataType) :
    (c.fromResultMetaData r).Dumps ↔ ValidStrings (copiedResultMetaData r) := by
  rw [fromResultMetaData, dumps_assigned (by simp)]
  simp [copiedResultMetaData, c.validStrings_copiedMembers dumps_fromString]

/-- Of the three assignments to the description the last one that is made counts. -/
@[simp] theorem dumps_decodeEntityDataType (e : UaEntityDataType) :
    (decodeEntityDataType e).Dumps ↔ ValidStrings (copiedEntity e) := by
  rw [decodeEntityDataType, RawJson.dumps_assigned_lasting]
  obtain ⟨name, description, entityId, entityOriginId, isExternal, entityType⟩ := e
  cases isExternal <;> cases entityOriginId <;> cases description <;> cases name <;>
    simp [RawJson.made, RawJson.lasting, copiedEntity, copiedIfSet]

section Variants

variable {V : Type} {variantValue : V → RawJson} {copiedVariant : V → List ByteArray}
  (hvariant : ∀ v, (variantValue v).Dumps ↔ ValidStrings (copiedVariant v))

include hvariant

theorem dumps_fromKeyValue (kv : UaKeyValueDataType V) :
    (c.fromKeyValue variantValue kv).Dumps ↔ ValidStrings (copiedKeyValue copiedVariant kv) := by
  rw [fromKeyValue, dumps_assigned (by simp)]
  simp [copiedKeyValue, hvariant]

theorem dumps_decodeJoiningResultMetaDataType (r : UaJoiningResultMetaDataType V) :
    (c.decodeJoiningResultMetaDataType variantValue r).Dumps ↔
      ValidStrings (copiedJoiningResultMetaData copiedVariant r) := by
  rw [decodeJoiningResultMetaDataType, dumps_assigned (by simp)]
  simp [copiedJoiningResultMetaData, c.validStrings_copiedMembers dumps_fromString,
    c.validStrings_copiedMembers dumps_decodeEntityDataType,
    c.validStrings_copiedMembers (c.dumps_fromKeyValue hvariant)]

theorem dumps_fromExtensionObject (v : UaExtensionObject V) :
    (c.fromExtensionObject variantValue v).Dumps ↔
      ValidStrings (copiedExtensionObject copiedVariant v) := by
  cases v with
  | resultMetaData body => exact c.dumps_fromResultMetaData body
  | entity body => exact dumps_decodeEntityDataType body
  | joiningResultMetaData body => exact c.dumps_decodeJoiningResultMetaDataType hvariant body
  | joiningResult body => exact c.dumps_decodeJoiningResultDataType body
  | other => simp [fromExtensionObject, copiedExtensionObject]

/-- The value is decoded twice, with the same result. -/
theorem dumps_decodeResultDataType (rd : UaResultDataType V) :
    (RawJson.assigned (c.decodeResultDataType variantValue rd ++
        c.decodeResultDataType variantValue rd)).Dumps ↔
      ValidStrings (copiedResultData copiedVariant rd) := by
  rw [RawJson.dumps_assigned_append_self (by simp [decodeResultDataType]), decodeResultDataType]
  simp [copiedResultData, c.dumps_fromExtensionObject hvariant,
    c.validStrings_copiedMembers hvariant]

/-! ### Variants -/

theorem dumps_setValueFromScalarVariant (type : UaType) (v : type.Value V) :
    (c.setValueFromScalarVariant variantValue type v).Dumps ↔
      ValidStrings (copiedScalar copiedVariant type v) := by
  cases type with
  | variant => exact hvariant v
  | extensionObject => exact c.dumps_fromExtensionObject hvariant v
  | keyValueDataType => exact c.dumps_fromKeyValue hvariant v
  | resultDataType => exact c.dumps_decodeResultDataType hvariant v
  | _ => simp [setValueFromScalarVariant, copiedScalar]

theorem dumps_setValueFromDataValue (v : UaVariantOver V) :
    (c.setValueFromDataValue variantValue v).Dumps ↔
      ValidStrings (copiedOver copiedVariant v) := by
  cases v with
  | empty => simp [setValueFromDataValue, copiedOver]
  | scalar type value => exact c.dumps_setValueFromScalarVariant hvariant type value
  | array type values =>
    rw [setValueFromDataValue, setValueFromArrayVariant, copiedOver]
    split_ifs
    · exact UaArray.dumps_toJson_iff (c.dumps_setValueFromScalarVariant hvariant type)
    · simp

end Variants

theorem dumps_variantValue : ∀ (n : ℕ) (v : UaVariant n),
    (c.variantValue n v).Dumps ↔ ValidStrings (copied n v)
  | n + 1, v => by
    rw [variantValue, dumps_member, copied]
    exact c.dumps_setValueFromDataValue (dumps_variantValue n) v

/-- **When a converted value can be written out**: if everything that is copied out of the value
is valid UTF-8, and only then. -/
theorem getValue_dumps_iff {n : ℕ} (dataValue : UaDataValue (UaVariant (n + 1))) :
    (c.getValue dataValue).Dumps ↔
      ∀ bytes ∈ copied (n + 1) dataValue.value, bytes.IsValidUTF8 := by
  rw [getValue, dumps_wrap, jsonValue]
  exact c.dumps_setValueFromDataValue (c.dumps_variantValue n) dataValue.value

/-- A byte string of one byte that no text has. -/
theorem not_getValue_dumps : ¬ ∀ (c : UaDataValueToJsonValue) (n : ℕ)
    (dataValue : UaDataValue (UaVariant (n + 1))), (c.getValue dataValue).Dumps := by
  intro h
  have hdumps := h ⟨false, fun _ => ⟨1601, 1, 1, 0, 0, 0, 0⟩⟩ 0
    ⟨0, .scalar .byteString (some ⟨#[0xFF]⟩)⟩
  exact absurd (hdumps ⟨#[0xFF]⟩ (List.mem_singleton.mpr rfl)) (by decide)

end UaDataValueToJsonValue

end UmatiDashboard
