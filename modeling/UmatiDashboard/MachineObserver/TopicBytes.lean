import UmatiDashboard.MachineObserver.Topics
import UmatiDashboard.Util.EncodedBytes

/-!
# Topics as byte strings

The topics of machines, for type names and identifiers that are any bytes. The encoded identifier
at the end of a topic contains no separator, so it can be cut off, and what is before it is the
type name: no two machines share a topic, and the topic of a machine is one of the topics for
online states only if its type is called `online` (`topics_apart`). On strings these are the topics
of `Topics` (`bytesOf_machine`, `bytesOf_onlineStatus`).
-/

namespace UmatiDashboard

theorem bytesOf_append (s t : String) : bytesOf (s ++ t) = bytesOf s ++ bytesOf t := by
  simp [bytesOf, String.toByteArray_append]

/-- The two strings that are set once, as the bytes they are. -/
structure RawTopics where
  topicPrefix : List UInt8
  clientId : List UInt8

namespace RawTopics

variable (t : RawTopics)

/-- `Topics::Machine`. -/
def machine (specification machineId : List UInt8) : List UInt8 :=
  t.topicPrefix ++ bytesOf "/" ++ t.clientId ++ bytesOf "/" ++ specification ++ bytesOf "/" ++
    IdEncode.encode machineId

/-- `Topics::OnlineStatus`. -/
def onlineStatus (machineId : List UInt8) : List UInt8 :=
  t.topicPrefix ++ bytesOf "/" ++ t.clientId ++ bytesOf "/online/" ++ IdEncode.encode machineId

/-- The separator. -/
def slash : UInt8 := 0x2F

/-- What separates topics or stands for several of them, and the byte that ends a string in C. -/
def reserved : List UInt8 := 0x00 :: bytesOf "/+#"

theorem bytesOf_slash : bytesOf "/" = [slash] := by decide +kernel

theorem reserved_not_isTopicByte : ∀ c ∈ reserved, ¬ IdEncode.IsTopicByte c := by decide +kernel

theorem not_mem_encode {c : UInt8} (hc : c ∈ reserved) (id : List UInt8) :
    c ∉ IdEncode.encode id := fun h =>
  reserved_not_isTopicByte c hc (IdEncode.isTopicByte_of_mem_encode h)

theorem slash_not_mem_encode (id : List UInt8) : slash ∉ IdEncode.encode id :=
  not_mem_encode (by decide +kernel) id

/-- A list is cut at its last separator in one way only. -/
theorem cut_inj {α : Type*} {sep : α} {u u' v v' : List α} (hv : sep ∉ v) (hv' : sep ∉ v')
    (h : u ++ sep :: v = u' ++ sep :: v') : u = u' ∧ v = v' := by
  rw [List.append_eq_append_iff] at h
  rcases h with ⟨w, hu, hw⟩ | ⟨w, hu, hw⟩
  · cases w with
    | nil =>
      rw [List.append_nil] at hu
      exact ⟨hu.symm, List.tail_eq_of_cons_eq hw⟩
    | cons x w =>
      rw [List.cons_append] at hw
      have hmem : sep ∈ v := by
        rw [List.tail_eq_of_cons_eq hw]
        simp
      exact absurd hmem hv
  · cases w with
    | nil =>
      rw [List.append_nil] at hu
      exact ⟨hu, (List.tail_eq_of_cons_eq hw).symm⟩
    | cons x w =>
      rw [List.cons_append] at hw
      have hmem : sep ∈ v' := by
        rw [List.tail_eq_of_cons_eq hw]
        simp
      exact absurd hmem hv'

/-- What every topic of a machine begins with. -/
def root : List UInt8 := t.topicPrefix ++ bytesOf "/" ++ t.clientId ++ bytesOf "/"

theorem machine_eq (specification machineId : List UInt8) :
    t.machine specification machineId =
      (t.root ++ specification) ++ slash :: IdEncode.encode machineId := by
  simp [machine, root, bytesOf_slash]

/-- The topic of an online state is that of a machine whose type is called `online`. -/
theorem onlineStatus_eq (machineId : List UInt8) :
    t.onlineStatus machineId = t.machine (bytesOf "online") machineId := by
  have honline : bytesOf "/online/" = bytesOf "/" ++ bytesOf "online" ++ bytesOf "/" := by
    decide +kernel
  simp [machine, onlineStatus, honline]

/-- **No two machines share a topic.** -/
theorem machine_injective2 : Function.Injective2 t.machine := by
  intro s s' x y h
  rw [machine_eq, machine_eq] at h
  obtain ⟨hspecification, hid⟩ := cut_inj (slash_not_mem_encode x) (slash_not_mem_encode y) h
  exact ⟨List.append_cancel_left hspecification, IdEncode.encode_injective hid⟩

/-- **Topics are told apart and cannot be injected**: the topic of a machine determines its type
name and its identifier, the topic of an online state determines the identifier, the two can be
equal only for a type called `online`, and an encoded identifier consists of letters, digits and
seven signs, so that it contains nothing reserved. -/
theorem topics_apart :
    (∀ s s' x y, t.machine s x = t.machine s' y → s = s' ∧ x = y) ∧
      (∀ x y, t.onlineStatus x = t.onlineStatus y → x = y) ∧
      (∀ s x y, t.machine s x = t.onlineStatus y → s = bytesOf "online") ∧
      ∀ id, (∀ c ∈ IdEncode.encode id, IdEncode.IsTopicByte c) ∧
        ∀ c ∈ reserved, c ∉ IdEncode.encode id := by
  refine ⟨fun s s' x y h => t.machine_injective2 h, fun x y h => ?_, fun s x y h => ?_,
    fun id => ⟨fun c hc => IdEncode.isTopicByte_of_mem_encode hc, fun c hc => not_mem_encode hc id⟩⟩
  · rw [onlineStatus_eq, onlineStatus_eq] at h
    exact (t.machine_injective2 h).2
  · rw [onlineStatus_eq] at h
    exact (t.machine_injective2 h).1

end RawTopics

/-! ### The topics of strings -/

/-- What is written for a byte is ASCII. -/
theorem utf8Encode_encodeByte : ∀ c : UInt8,
    (IdEncode.encodeByte c).flatMap String.utf8EncodeChar = IdEncode.code c :=
  IdEncode.forall_byte (by decide +kernel)

/-- The bytes of an encoded string. -/
theorem bytesOf_idEncode (id : String) : bytesOf (idEncode id) = IdEncode.encode (bytesOf id) := by
  have hbytes : ∀ l : List Char, bytesOf (String.ofList l) = l.flatMap String.utf8EncodeChar := by
    intro l
    simp [bytesOf, List.utf8Encode]
  rw [idEncode, hbytes, List.flatMap_assoc]
  exact List.flatMap_congr fun c _ => utf8Encode_encodeByte c

namespace Topics

variable (t : Topics)

/-- The strings as bytes. -/
def raw : RawTopics := ⟨bytesOf t.topicPrefix, bytesOf t.clientId⟩

theorem bytesOf_machine (specification machineId : String) :
    bytesOf (t.machine specification machineId) =
      t.raw.machine (bytesOf specification) (bytesOf machineId) := by
  simp only [machine, raw, RawTopics.machine, bytesOf_append, bytesOf_idEncode]

theorem bytesOf_onlineStatus (machineId : String) :
    bytesOf (t.onlineStatus machineId) = t.raw.onlineStatus (bytesOf machineId) := by
  simp only [onlineStatus, raw, RawTopics.onlineStatus, bytesOf_append, bytesOf_idEncode]

end Topics

end UmatiDashboard
