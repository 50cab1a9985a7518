import Mathlib.Data.List.Basic

/-!
# JSON values

The part of the JSON library's value model that the gateway uses. Objects keep their members
in the order of their keys, without repetition, as the library's default object type (an
ordered map) does; numbers are integers or the bit pattern of a double. A string can be any
bytes, as a server sends them, for the library looks at these only when it writes a value out:
`dump` throws if a string is not UTF-8. Keys are texts of the program or browse names, which are
UTF-8: browse names are text by their type in OPC UA.
-/

namespace UmatiDashboard

/-- Bytes that are no text. -/
structure InvalidString where
  bytes : ByteArray
  invalid : ¬ bytes.IsValidUTF8

/-- A JSON value. -/
inductive Json where
  | null
  | boolean (b : Bool)
  | integer (n : Int)
  | real (bits : UInt64)
  | string (s : String)
  /-- a string that is not UTF-8 -/
  | invalidString (s : InvalidString)
  | array (elems : List Json)
  | object (members : List (String × Json))
  deriving Inhabited

namespace Json

/-- A byte that begins no character. -/
def strayByte (byte : UInt8) (h : ¬ (ByteArray.mk #[byte]).IsValidUTF8) : Json :=
  .invalidString ⟨.mk #[byte], h⟩

/-- The library's `empty()`: null and the empty containers. -/
def isEmpty : Json → Bool
  | null => true
  | array elems => elems.isEmpty
  | object members => members.isEmpty
  | _ => false

def isNull : Json → Bool
  | null => true
  | _ => false

@[simp] theorem isNull_iff {j : Json} : j.isNull = true ↔ j = null := by
  cases j <;> simp [isNull]

/-- Put a member into an ordered member list, replacing one of the same key. -/
def putMember (key : String) (value : Json) : List (String × Json) → List (String × Json)
  | [] => [(key, value)]
  | (k, v) :: rest =>
    if key < k then (key, value) :: (k, v) :: rest
    else if key = k then (key, value) :: rest
    else (k, v) :: putMember key value rest

/-- The member list after an assignment through `operator[]` with a string key: null becomes
an object, and anything but null and objects is a type error. -/
def set (j : Json) (key : String) (value : Json) : Option Json :=
  match j with
  | null => some (object [(key, value)])
  | object members => some (object (putMember key value members))
  | _ => none

/-- The member of an object. -/
def member? (j : Json) (key : String) : Option Json :=
  match j with
  | object members => members.lookup key
  | _ => none

@[simp] theorem set_null (key : String) (value : Json) :
    null.set key value = some (object [(key, value)]) := rfl

@[simp] theorem set_object (members : List (String × Json)) (key : String) (value : Json) :
    (object members).set key value = some (object (putMember key value members)) := rfl

theorem lookup_putMember_self (key : String) (value : Json) :
    ∀ members : List (String × Json), (putMember key value members).lookup key = some value
  | [] => by simp [putMember]
  | (k, v) :: rest => by
    simp only [putMember]
    split_ifs with hlt heq
    · simp
    · simp
    · have hne : (key == k) = false := by simpa using heq
      simpa [List.lookup_cons, hne] using lookup_putMember_self key value rest

theorem lookup_putMember_of_ne {key key' : String} (value : Json) (hne : key' ≠ key) :
    ∀ members : List (String × Json),
      (putMember key value members).lookup key' = members.lookup key'
  | [] => by
    have h : (key' == key) = false := by simpa using hne
    simp [putMember, List.lookup_cons, h]
  | (k, v) :: rest => by
    have h : (key' == key) = false := by simpa using hne
    simp only [putMember]
    split_ifs with hlt heq
    · simp [List.lookup_cons, h]
    · subst heq
      simp [List.lookup_cons, h]
    · cases hk : key' == k with
      | true => simp [List.lookup_cons, hk]
      | false => simpa [List.lookup_cons, hk] using lookup_putMember_of_ne value hne rest

/-! ### Writing a value out -/

/-- The double is no infinity and no NaN. -/
def isFinite (bits : UInt64) : Bool := bits &&& 0x7FF0000000000000 != 0x7FF0000000000000

mutual

/-- The library's `dump` returns: no string inside is invalid. -/
def dumps : Json → Bool
  | invalidString _ => false
  | array elems => dumpsElems elems
  | object members => dumpsMembers members
  | _ => true

def dumpsElems : List Json → Bool
  | [] => true
  | e :: elems => dumps e && dumpsElems elems

def dumpsMembers : List (String × Json) → Bool
  | [] => true
  | (_, j) :: members => dumps j && dumpsMembers members

end

/-- `dump` writes "null", as it does also for a double that is not finite. -/
def dumpsNull : Json → Bool
  | null => true
  | real bits => !isFinite bits
  | _ => false

@[simp] theorem dumps_string (s : String) : (string s).dumps = true := by simp [dumps]

@[simp] theorem dumps_null : null.dumps = true := by simp [dumps]

@[simp] theorem dumpsNull_null : null.dumpsNull = true := rfl

@[simp] theorem dumpsNull_string (s : String) : (string s).dumpsNull = false := rfl

@[simp] theorem dumpsNull_object (members : List (String × Json)) :
    (object members).dumpsNull = false := rfl

theorem dumpsElems_eq_all : ∀ elems : List Json, dumpsElems elems = elems.all dumps
  | [] => rfl
  | e :: elems => by rw [dumpsElems, dumpsElems_eq_all elems, List.all_cons]

theorem dumpsMembers_eq_all : ∀ members : List (String × Json),
    dumpsMembers members = members.all fun m => m.2.dumps
  | [] => rfl
  | (_, j) :: members => by rw [dumpsMembers, dumpsMembers_eq_all members, List.all_cons]

@[simp] theorem dumps_array (elems : List Json) : (array elems).dumps = elems.all dumps := by
  rw [dumps, dumpsElems_eq_all]

@[simp] theorem dumps_object (members : List (String × Json)) :
    (object members).dumps = members.all fun m => m.2.dumps := by
  rw [dumps, dumpsMembers_eq_all]

theorem isNull_of_dumpsNull {j : Json} (h : j.dumpsNull = false) : j.isNull = false := by
  refine Bool.eq_false_iff.mpr fun hnull => ?_
  rw [isNull_iff.mp hnull] at h
  cases h

end Json

end UmatiDashboard
