import Mathlib.Tactic.IntervalCases
import UmatiDashboard.OpcUaClient.Converter.UaDataValueToJsonValue
import UmatiDashboard.Util.HexDigits

/-!
# Different scalars

A change of a variable is published if the JSON value differs. So different values of a kind should
be converted to different JSON values. For numbers and strings there is nothing to show; the five
groups of digits of a Guid are told apart by the dashes between them, although they are not padded
(`guidText_injective`). Of a node id only the numeric identifier is read, whichever kind of
identifier it has: without the namespace index, and for the other kinds the first word of what lies
in the union instead. So different node ids are told apart if and only if their first words differ
(`scalarJson_ne_iff`).
-/

namespace UmatiDashboard

/-- An identifier, by its type. -/
inductive UaIdentifier where
  | numeric (number : UInt32)
  | string (s : UaString)
  | guid (g : UaGuid)
  | byteString (s : UaString)

/-- A node id of the stack, with all its members. -/
structure UaNodeId where
  namespaceIndex : UInt16
  identifier : UaIdentifier

namespace UaDataValueToJsonValue

/-! ### Guids -/

/-- The five numbers that are written for a Guid. -/
def guidNumbers (g : UaGuid) : List ℕ :=
  [g.data1.toNat, g.data2.toNat, g.data3.toNat,
    word (g.data4.get 0) (g.data4.get 1) (g.data4.get 2) (g.data4.get 3),
    word (g.data4.get 4) (g.data4.get 5) (g.data4.get 6) (g.data4.get 7)]

theorem word_inj {b₀ b₁ b₂ b₃ c₀ c₁ c₂ c₃ : UInt8} (h : word b₀ b₁ b₂ b₃ = word c₀ c₁ c₂ c₃) :
    b₀ = c₀ ∧ b₁ = c₁ ∧ b₂ = c₂ ∧ b₃ = c₃ := by
  have hb₀ := b₀.toNat_lt
  have hb₁ := b₁.toNat_lt
  have hb₂ := b₂.toNat_lt
  have hc₀ := c₀.toNat_lt
  have hc₁ := c₁.toNat_lt
  have hc₂ := c₂.toNat_lt
  simp only [word] at h
  simp only [← UInt8.toNat_inj]
  omega

theorem guidNumbers_injective : Function.Injective guidNumbers := by
  rintro ⟨a₁, a₂, a₃, a₄⟩ ⟨b₁, b₂, b₃, b₄⟩ h
  simp only [guidNumbers, List.cons.injEq, UInt32.toNat_inj, UInt16.toNat_inj, and_true] at h
  obtain ⟨rfl, rfl, rfl, hfront, hback⟩ := h
  obtain ⟨h₀, h₁, h₂, h₃⟩ := word_inj hfront
  obtain ⟨h₄, h₅, h₆, h₇⟩ := word_inj hback
  have hdata : a₄ = b₄ := by
    refine Vector.ext fun i hi => ?_
    interval_cases i <;> assumption
  rw [hdata]

/-- Every number but the last is followed by a dash. -/
theorem toList_guidText (g : UaGuid) : (guidText g ++ "-").toList =
    (guidNumbers g).flatMap fun n => Nat.toDigits 16 n ++ ['-'] := by
  simp [guidText, guidNumbers, hex]
  rfl

theorem guidText_injective : Function.Injective guidText := by
  intro g g' h
  have htext : (guidText g ++ "-").toList = (guidText g' ++ "-").toList := by rw [h]
  rw [toList_guidText, toList_guidText] at htext
  have hdash : '-' ∉ HexDigits.digits := by decide
  have hfree := HexDigits.prefixFree_toDigits (b := 16) (by decide) (by decide) hdash
  exact guidNumbers_injective (hfree.flatMap_injective (by simp) htext)

/-! ### Kinds -/

/-- The kinds of values that are looked at. -/
inductive BasicKind where
  | boolean | sByte | byte | int16 | uint16 | int32 | uint32 | int64 | uint64
  | string | byteString | guid | qualifiedName | nodeId

namespace BasicKind

def type : BasicKind → UaType
  | boolean => .boolean
  | sByte => .sByte
  | byte => .byte
  | int16 => .int16
  | uint16 => .uint16
  | int32 => .int32
  | uint32 => .uint32
  | int64 => .int64
  | uint64 => .uint64
  | string => .string
  | byteString => .byteString
  | guid => .guid
  | qualifiedName => .qualifiedName
  | nodeId => .nodeId

/-- The values of the kind, with everything that belongs to them. -/
@[reducible] def Value : BasicKind → Type
  | boolean => Bool
  | sByte => Int8
  | byte => UInt8
  | int16 => Int16
  | uint16 => UInt16
  | int32 => Int32
  | uint32 => UInt32
  | int64 => Int64
  | uint64 => UInt64
  | string => UaString
  | byteString => UaString
  | guid => UaGuid
  | qualifiedName => UaQualifiedName
  | nodeId => UaNodeId

end BasicKind

end UaDataValueToJsonValue

namespace UaIdentifier

open UaDataValueToJsonValue (bytes)

/-- The same type of identifier and the same identifier. -/
def Same : UaIdentifier → UaIdentifier → Prop
  | numeric n, numeric m => n = m
  | string s, string t => bytes s = bytes t
  | guid g, guid h => g = h
  | byteString s, byteString t => bytes s = bytes t
  | _, _ => False

/-- The first four bytes of the identifier as it lies in memory, where a string begins with its
length. They are read as the numeric identifier. -/
def firstWord : UaIdentifier → UInt32
  | numeric n => n
  | string s => UInt32.ofNat (bytes s).size
  | guid g => g.data1
  | byteString s => UInt32.ofNat (bytes s).size

end UaIdentifier

namespace UaDataValueToJsonValue

namespace BasicKind

/-- Values with the same contents. The null string has the contents of the empty one. -/
def SameContents : (kind : BasicKind) → kind.Value → kind.Value → Prop
  | string, s, t => bytes s = bytes t
  | byteString, s, t => bytes s = bytes t
  | qualifiedName, q, r => q.namespaceIndex = r.namespaceIndex ∧ bytes q.name = bytes r.name
  | nodeId, i, j => i.namespaceIndex = j.namespaceIndex ∧ i.identifier.Same j.identifier
  | boolean, v, w => v = w
  | sByte, v, w => v = w
  | byte, v, w => v = w
  | int16, v, w => v = w
  | uint16, v, w => v = w
  | int32, v, w => v = w
  | uint32, v, w => v = w
  | int64, v, w => v = w
  | uint64, v, w => v = w
  | guid, v, w => v = w

/-- What the conversion reads of a value. -/
def read {V : Type} : (kind : BasicKind) → kind.Value → kind.type.Value V
  | nodeId, i => i.identifier.firstWord
  | string, v => v
  | byteString, v => v
  | qualifiedName, v => v
  | boolean, v => v
  | sByte, v => v
  | byte, v => v
  | int16, v => v
  | uint16, v => v
  | int32, v => v
  | uint32, v => v
  | int64, v => v
  | uint64, v => v
  | guid, v => v

/-- Node ids are told apart by the first words of their identifiers, and other values always. -/
def Distinguished : (kind : BasicKind) → kind.Value → kind.Value → Prop
  | nodeId, i, j => i.identifier.firstWord ≠ j.identifier.firstWord
  | _, _, _ => True

end BasicKind

variable (c : UaDataValueToJsonValue) (n : ℕ) (kind : BasicKind)

/-- The JSON that is made of a scalar. -/
def scalarJson (v : kind.Value) : RawJson :=
  c.jsonValue (n := n) (.scalar kind.type (kind.read v))

theorem fromQualifiedName_inj {q r : UaQualifiedName}
    (h : fromQualifiedName q = fromQualifiedName r) :
    q.namespaceIndex = r.namespaceIndex ∧ bytes q.name = bytes r.name := by
  have hlt : "name" < "namespaceIndex" := by decide
  have hne : ¬ "namespaceIndex" < "name" := by decide
  simpa [fromQualifiedName, fromString, RawJson.assigned, RawJson.made, RawJson.putMember, hlt, hne,
    and_comm, UInt16.toNat_inj] using h

/-- Values of the same JSON that are not node ids have the same contents. -/
theorem sameContents_of_scalarJson_eq {v w : kind.Value} (hkind : kind ≠ .nodeId)
    (h : c.scalarJson n kind v = c.scalarJson n kind w) : kind.SameContents v w := by
  cases kind with
  | boolean => exact RawJson.boolean.inj h
  | sByte => exact Int8.toInt_inj.mp (RawJson.integer.inj h)
  | byte => exact UInt8.toNat_inj.mp (Int.ofNat.inj (RawJson.integer.inj h))
  | int16 => exact Int16.toInt_inj.mp (RawJson.integer.inj h)
  | uint16 => exact UInt16.toNat_inj.mp (Int.ofNat.inj (RawJson.integer.inj h))
  | int32 => exact Int32.toInt_inj.mp (RawJson.integer.inj h)
  | uint32 => exact UInt32.toNat_inj.mp (Int.ofNat.inj (RawJson.integer.inj h))
  | int64 => exact Int64.toInt_inj.mp (RawJson.integer.inj h)
  | uint64 => exact UInt64.toNat_inj.mp (Int.ofNat.inj (RawJson.integer.inj h))
  | string => exact RawJson.string.inj h
  | byteString => exact RawJson.string.inj h
  | guid => exact guidText_injective (String.toByteArray_inj.mp (RawJson.string.inj h))
  | qualifiedName => exact fromQualifiedName_inj h
  | nodeId => exact absurd rfl hkind

/-- Different first words are different numbers. -/
theorem scalarJson_nodeId_inj {i j : UaNodeId} :
    c.scalarJson n .nodeId i = c.scalarJson n .nodeId j ↔
      i.identifier.firstWord = j.identifier.firstWord := by
  constructor
  · intro h
    exact UInt32.toNat_inj.mp (Int.ofNat.inj (RawJson.integer.inj h))
  · intro h
    simp only [scalarJson, BasicKind.read, h]

/-- **When different values are told apart**: for values of the kind with different contents, the
JSON values differ if and only if the kind is not NodeId or the first words of the identifiers
differ. -/
theorem scalarJson_ne_iff {v w : kind.Value} (h : ¬ kind.SameContents v w) :
    c.scalarJson n kind v ≠ c.scalarJson n kind w ↔ kind.Distinguished v w := by
  by_cases hkind : kind = .nodeId
  · subst hkind
    exact not_congr (c.scalarJson_nodeId_inj n)
  · have hne : c.scalarJson n kind v ≠ c.scalarJson n kind w := fun heq =>
      h (c.sameContents_of_scalarJson_eq n kind hkind heq)
    have htold : kind.Distinguished v w := by
      cases kind <;> trivial
    exact iff_of_true hne htold

/-- Two numeric node ids. -/
theorem scalarJson_ne_numeric :
    fixedTime.scalarJson 0 .nodeId ⟨0, .numeric 1⟩ ≠
      fixedTime.scalarJson 0 .nodeId ⟨0, .numeric 2⟩ :=
  (fixedTime.scalarJson_ne_iff 0 .nodeId (by simp [BasicKind.SameContents, UaIdentifier.Same])).mpr
    (by simp [BasicKind.Distinguished, UaIdentifier.firstWord])

/-- Node ids with the same number in two namespaces, and with two strings of one byte each. -/
theorem not_scalarJson_ne :
    (¬ BasicKind.nodeId.SameContents ⟨0, .numeric 1⟩ ⟨1, .numeric 1⟩ ∧
        fixedTime.scalarJson 0 .nodeId ⟨0, .numeric 1⟩ =
          fixedTime.scalarJson 0 .nodeId ⟨1, .numeric 1⟩) ∧
      (¬ BasicKind.nodeId.SameContents ⟨1, .string (some ⟨#[0x61]⟩)⟩
          ⟨1, .string (some ⟨#[0x62]⟩)⟩ ∧
        fixedTime.scalarJson 0 .nodeId ⟨1, .string (some ⟨#[0x61]⟩)⟩ =
          fixedTime.scalarJson 0 .nodeId ⟨1, .string (some ⟨#[0x62]⟩)⟩) := by
  refine ⟨⟨?_, rfl⟩, ?_, rfl⟩
  · simp [BasicKind.SameContents]
  · simp [BasicKind.SameContents, UaIdentifier.Same, bytes]

end UaDataValueToJsonValue

end UmatiDashboard
