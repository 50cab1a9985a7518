import UmatiDashboard.OpcUaClient.Converter.UaDataValueToJsonValue

/-!
# Arrays in one dimension

The conversion goes by the type twice, once for scalars and once for arrays. An array in one
dimension of a type that the second table knows is converted element by element, as scalars are
(`toJson_of_length_shape`). Six types have a scalar conversion and no array conversion, and their
arrays become null (`array_elementwise_iff`).
-/

namespace UmatiDashboard

namespace UaArray

variable {α : Type} {a : UaArray α}

theorem shape_of_length_shape (h : a.shape.length = 1) : a.shape = [a.data.length] := by
  obtain ⟨d, hshape⟩ := List.length_eq_one_iff.mp h
  have hprod := a.prod_shape
  rw [hshape, List.prod_singleton] at hprod
  rw [hshape, hprod]

/-- In one dimension the element that is read for a position is the right one. -/
theorem readIndex_singleton (h : a.shape.length = 1) (i : ℕ) : a.readIndex [i] = i := by
  rw [readIndex, shape_of_length_shape h]
  simp

/-- **A non-empty array in one dimension** becomes the array of the converted elements. -/
theorem toJson_of_length_shape (scalar : α → RawJson) (h : a.shape.length = 1)
    (hne : a.data ≠ []) : a.toJson scalar = .array (a.data.map scalar) := by
  have hlength : a.data.length ≠ 0 := by simpa using hne
  have hhead : a.shape.head? ≠ some 0 := by
    rw [shape_of_length_shape h]
    simpa using hne
  rw [toJson_eq, if_neg hhead, shape_of_length_shape h, RawJson.nested]
  refine congrArg RawJson.array (List.ext_getElem (by simp) fun i hi _ => ?_)
  have hlt : i < a.data.length := by simpa using hi
  have hread : a.data[a.readIndex [i]]? = some a.data[i] := by
    rw [readIndex_singleton h, List.getElem?_eq_getElem]
  simp [RawJson.nested, readEntry, hread]

end UaArray

namespace UaDataValueToJsonValue

variable (c : UaDataValueToJsonValue) {V : Type} {variantValue : V → RawJson}

/-- The types that only the conversion of scalars knows. -/
def scalarOnly : List UaType :=
  [.guid, .byteString, .timeZoneDataType, .resultDataType, .processingTimesDataType,
    .resultEvaluationEnum]

/-- The types that are not converted at all. -/
def notImplemented : List UaType :=
  [.xmlElement, .expandedNodeId, .statusCode, .dataValue, .diagnosticInfo, .unknown]

theorem setValueFromScalarVariant_of_notImplemented {type : UaType} (h : type ∈ notImplemented)
    (v : type.Value V) : c.setValueFromScalarVariant variantValue type v = .null := by
  cases type <;> first | rfl | simp [notImplemented] at h

theorem isArrayConvertible_eq_false_iff {type : UaType} :
    isArrayConvertible type = false ↔ type ∈ scalarOnly ∨ type ∈ notImplemented := by
  cases type <;> decide

/-- **When an array is converted like its elements**: for every type of which some scalar has a
value, a non-empty array in one dimension becomes the array of what its elements become, if and
only if the type is none of the six that only the conversion of scalars knows. -/
theorem array_elementwise_iff {n : ℕ} (type : UaType)
    (htype : ∃ v, c.jsonValue (n := n) (.scalar type v) ≠ .null)
    (values : UaArray (type.Value (UaVariant n))) (hshape : values.shape.length = 1)
    (hne : values.data ≠ []) :
    c.jsonValue (n := n) (.array type values) =
        .array (values.data.map fun v => c.jsonValue (n := n) (.scalar type v)) ↔
      type ∉ scalarOnly := by
  have himplemented : type ∉ notImplemented := by
    intro hmem
    obtain ⟨v, hv⟩ := htype
    exact hv (c.setValueFromScalarVariant_of_notImplemented hmem v)
  change (if isArrayConvertible type then
      values.toJson (c.setValueFromScalarVariant (c.variantValue n) type) else .null) = _ ↔ _
  cases hconvertible : isArrayConvertible type with
  | true =>
    have hmem : type ∉ scalarOnly := by
      intro hmem
      rw [isArrayConvertible_eq_false_iff.mpr (.inl hmem)] at hconvertible
      cases hconvertible
    exact iff_of_true (values.toJson_of_length_shape _ hshape hne) hmem
  | false =>
    have hmem : type ∈ scalarOnly :=
      (isArrayConvertible_eq_false_iff.mp hconvertible).resolve_right himplemented
    exact iff_of_false (fun heq => RawJson.noConfusion heq) (not_not_intro hmem)

/-- Two numbers in one dimension. -/
def twoNumbers : UaArray Int32 := ⟨[3, 5], [2], by decide, by decide⟩

/-- They are converted like single numbers. -/
theorem array_elementwise_twoNumbers :
    fixedTime.jsonValue (n := 0) (.array .int32 twoNumbers) =
      .array (twoNumbers.data.map fun v => fixedTime.jsonValue (n := 0) (.scalar .int32 v)) :=
  (fixedTime.array_elementwise_iff (n := 0) .int32 ⟨0, fun h => RawJson.noConfusion h⟩ twoNumbers
    rfl (by simp [twoNumbers])).mpr (by decide)

/-- Two byte strings of one byte each. -/
def twoByteStrings : UaArray UaString :=
  ⟨[some ⟨#[0x61]⟩, some ⟨#[0x62]⟩], [], by decide, by decide⟩

/-- They become null, and not what each of them becomes. -/
theorem not_array_elementwise :
    fixedTime.jsonValue (n := 0) (.array .byteString twoByteStrings) = .null ∧
      (twoByteStrings.data.map fun v => fixedTime.jsonValue (n := 0) (.scalar .byteString v)) =
        [.string ⟨#[0x61]⟩, .string ⟨#[0x62]⟩] ∧
      fixedTime.jsonValue (n := 0) (.array .byteString twoByteStrings) ≠
        .array (twoByteStrings.data.map fun v =>
          fixedTime.jsonValue (n := 0) (.scalar .byteString v)) :=
  ⟨rfl, rfl, fun heq => RawJson.noConfusion heq⟩

end UaDataValueToJsonValue

end UmatiDashboard
