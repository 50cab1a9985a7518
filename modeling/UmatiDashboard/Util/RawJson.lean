import Mathlib.Data.String.Basic
import UmatiDashboard.Util.RowMajor

/-!
# JSON values with unchecked strings

The JSON library takes a string as the bytes it is given and looks at them only when it writes
the value out, which fails for a string that is not valid UTF-8. So a value that is built from
what a server has sent carries bytes. The keys of objects are literals of the program.
-/

namespace UmatiDashboard

/-- A JSON value whose strings are any bytes. -/
inductive RawJson where
  | null
  | boolean (b : Bool)
  | integer (n : Int)
  /-- the bit pattern of a double -/
  | real (bits : UInt64)
  | string (bytes : ByteArray)
  | array (elems : List RawJson)
  | object (members : List (String × RawJson))
  deriving Inhabited

namespace RawJson

/-- A string that the program writes itself. -/
def text (s : String) : RawJson := string s.toByteArray

/-! ### Arrays -/

/-- The library's `push_back`: null becomes an array, and anything but null and arrays is a type
error. -/
def pushBack (j elem : RawJson) : Option RawJson :=
  match j with
  | null => some (array [elem])
  | array elems => some (array (elems ++ [elem]))
  | _ => none

theorem foldlM_pushBack_array : ∀ elems elems' : List RawJson,
    elems'.foldlM pushBack (array elems) = some (array (elems ++ elems'))
  | elems, [] => by simp
  | elems, e :: elems' => by
    have hrest := foldlM_pushBack_array (elems ++ [e]) elems'
    rw [List.append_assoc, List.singleton_append] at hrest
    exact hrest

/-- Null stays null if nothing is pushed onto it. -/
theorem foldlM_pushBack_null : ∀ elems : List RawJson,
    elems.foldlM pushBack null = some (if elems = [] then null else array elems)
  | [] => rfl
  | e :: elems => foldlM_pushBack_array [e] elems

/-- The nested arrays of the given shape. -/
def nested : List ℕ → (List ℕ → RawJson) → RawJson
  | [], entry => entry []
  | d :: dims, entry => array ((List.range d).map fun i => nested dims fun is => entry (i :: is))

/-- The entries of arrays that are nested `k` deep, from left to right. -/
def flatten : ℕ → RawJson → List RawJson
  | 0, j => [j]
  | k + 1, array elems => elems.flatMap (flatten k)
  | _ + 1, _ => []

theorem flatten_nested : ∀ (dims : List ℕ) (entry : List ℕ → RawJson),
    flatten dims.length (nested dims entry) = (RowMajor.positions dims).map entry
  | [], entry => rfl
  | d :: dims, entry => by
    rw [nested, List.length_cons, flatten, RowMajor.positions, List.flatMap_map, List.map_flatMap]
    refine List.flatMap_congr fun i _ => ?_
    rw [flatten_nested dims, List.map_map]
    rfl

/-- Nested arrays are equal if and only if they agree at every position. -/
theorem nested_eq_iff {dims : List ℕ} {entry entry' : List ℕ → RawJson} :
    nested dims entry = nested dims entry' ↔
      ∀ is ∈ RowMajor.positions dims, entry is = entry' is := by
  constructor
  · intro heq
    have hflat := congrArg (flatten dims.length) heq
    rw [flatten_nested, flatten_nested] at hflat
    exact List.map_inj_left.mp hflat
  · intro heq
    induction dims generalizing entry entry' with
    | nil => exact heq [] (by simp [RowMajor.positions])
    | cons d dims ih =>
      rw [nested, nested]
      congr 1
      refine List.map_congr_left fun i hi => ih fun is his => ?_
      exact heq (i :: is) (RowMajor.mem_positions_cons.mpr ⟨i, List.mem_range.mp hi, is, his, rfl⟩)

/-! ### Objects -/

/-- Put a member into an ordered member list, replacing one of the same key. -/
def putMember (key : String) (value : RawJson) : List (String × RawJson) → List (String × RawJson)
  | [] => [(key, value)]
  | (k, v) :: rest =>
    if key < k then (key, value) :: (k, v) :: rest
    else if key = k then (key, value) :: rest
    else (k, v) :: putMember key value rest

/-- An ordered member list. -/
def Ordered (members : List (String × RawJson)) : Prop := members.Pairwise fun a b => a.1 < b.1

theorem mem_putMember {key : String} {value : RawJson} {m : String × RawJson} :
    ∀ {members : List (String × RawJson)}, Ordered members →
      (m ∈ putMember key value members ↔ m = (key, value) ∨ (m ∈ members ∧ m.1 ≠ key))
  | [], _ => by simp [putMember]
  | (k, v) :: rest, hordered => by
    obtain ⟨hk, hrest⟩ := List.pairwise_cons.mp hordered
    simp only [putMember]
    split_ifs with hlt heq
    · have hne : ∀ m ∈ (k, v) :: rest, m.1 ≠ key := by
        intro m hm
        rcases List.mem_cons.mp hm with rfl | hm
        · exact hlt.ne'
        · exact (hlt.trans (hk m hm)).ne'
      rw [List.mem_cons]
      exact or_congr_right ⟨fun hm => ⟨hm, hne m hm⟩, And.left⟩
    · subst heq
      rw [List.mem_cons, List.mem_cons]
      refine or_congr_right ⟨fun hm => ⟨Or.inr hm, (hk m hm).ne'⟩, ?_⟩
      rintro ⟨rfl | hm, hne⟩
      · exact absurd rfl hne
      · exact hm
    · rw [List.mem_cons, mem_putMember hrest, List.mem_cons]
      constructor
      · rintro (rfl | rfl | ⟨hm, hne⟩)
        · exact Or.inr ⟨Or.inl rfl, fun h => heq h.symm⟩
        · exact Or.inl rfl
        · exact Or.inr ⟨Or.inr hm, hne⟩
      · rintro (rfl | ⟨rfl | hm, hne⟩)
        · exact Or.inr (Or.inl rfl)
        · exact Or.inl rfl
        · exact Or.inr (Or.inr ⟨hm, hne⟩)

theorem Ordered.putMember {key : String} {value : RawJson} :
    ∀ {members : List (String × RawJson)}, Ordered members →
      Ordered (putMember key value members)
  | [], _ => List.pairwise_singleton _ _
  | (k, v) :: rest, hordered => by
    obtain ⟨hk, hrest⟩ := List.pairwise_cons.mp hordered
    simp only [RawJson.putMember]
    split_ifs with hlt heq
    · refine List.pairwise_cons.mpr ⟨fun m hm => ?_, hordered⟩
      rcases List.mem_cons.mp hm with rfl | hm
      · exact hlt
      · exact hlt.trans (hk m hm)
    · exact List.pairwise_cons.mpr ⟨heq ▸ hk, hrest⟩
    · refine List.pairwise_cons.mpr ⟨fun m hm => ?_, Ordered.putMember hrest⟩
      rcases (mem_putMember hrest).mp hm with rfl | hm
      · exact lt_of_le_of_ne (not_lt.mp hlt) fun h => heq h.symm
      · exact hk m hm.1

/-- The assignments that no later one overwrites. -/
def lasting : List (String × RawJson) → List (String × RawJson)
  | [] => []
  | m :: members => if m.1 ∈ members.map Prod.fst then lasting members else m :: lasting members

theorem mem_foldl_putMember {m : String × RawJson} :
    ∀ {members start : List (String × RawJson)}, Ordered start →
      (m ∈ members.foldl (fun ms m => putMember m.1 m.2 ms) start ↔
        m ∈ lasting members ∨ (m ∈ start ∧ m.1 ∉ members.map Prod.fst))
  | [], start, _ => by simp [lasting]
  | a :: members, start, hstart => by
    rw [List.foldl_cons, mem_foldl_putMember hstart.putMember, mem_putMember hstart, lasting]
    split_ifs with ha
    · constructor
      · rintro (h | ⟨rfl | ⟨hm, hne⟩, hlater⟩)
        · exact Or.inl h
        · exact absurd ha hlater
        · exact Or.inr ⟨hm, by simp_all⟩
      · rintro (h | ⟨hm, hlater⟩)
        · exact Or.inl h
        · exact Or.inr ⟨Or.inr ⟨hm, by simp_all⟩, by simp_all⟩
    · rw [List.mem_cons]
      constructor
      · rintro (h | ⟨rfl | ⟨hm, hne⟩, hlater⟩)
        · exact Or.inl (Or.inr h)
        · exact Or.inl (Or.inl rfl)
        · exact Or.inr ⟨hm, by simp_all⟩
      · rintro ((rfl | h) | ⟨hm, hlater⟩)
        · exact Or.inr ⟨Or.inl rfl, ha⟩
        · exact Or.inl h
        · exact Or.inr ⟨Or.inr ⟨hm, by simp_all⟩, by simp_all⟩

/-- Assignments to different keys all last. -/
theorem lasting_of_nodup : ∀ {members : List (String × RawJson)},
    (members.map Prod.fst).Nodup → lasting members = members
  | [], _ => rfl
  | m :: members, h => by
    obtain ⟨hm, hmembers⟩ := List.nodup_cons.mp h
    rw [lasting, if_neg hm, lasting_of_nodup hmembers]

/-- An assignment that is repeated lasts once. -/
theorem lasting_append_self {members : List (String × RawJson)}
    (h : (members.map Prod.fst).Nodup) : lasting (members ++ members) = members := by
  have hprefix : ∀ l : List (String × RawJson), (∀ m ∈ l, m.1 ∈ members.map Prod.fst) →
      lasting (l ++ members) = members := by
    intro l hl
    induction l with
    | nil => exact lasting_of_nodup h
    | cons m l ih =>
      have hlater : m.1 ∈ (l ++ members).map Prod.fst := by
        rw [List.map_append]
        exact List.mem_append_right _ (hl m (by simp))
      rw [List.cons_append, lasting, if_pos hlater]
      exact ih fun m' hm' => hl m' (by simp [hm'])
  exact hprefix members fun m hm => List.mem_map_of_mem hm

/-- The assignments that are made: those that have a value. -/
def made (members : List (String × Option RawJson)) : List (String × RawJson) :=
  members.filterMap fun m => m.2.map (m.1, ·)

/-- What null has become after some assignments through `operator[]` with string keys. An
assignment without a value is not made. -/
def assigned (members : List (String × Option RawJson)) : RawJson :=
  if made members = [] then null
  else object ((made members).foldl (fun ms m => putMember m.1 m.2 ms) [])

/-! ### Writing a value out -/

mutual

/-- The strings inside a value. -/
def strings : RawJson → List ByteArray
  | string bytes => [bytes]
  | array elems => stringsOfElems elems
  | object members => stringsOfMembers members
  | _ => []

def stringsOfElems : List RawJson → List ByteArray
  | [] => []
  | e :: elems => strings e ++ stringsOfElems elems

def stringsOfMembers : List (String × RawJson) → List ByteArray
  | [] => []
  | (_, v) :: members => strings v ++ stringsOfMembers members

end

/-- The library's `dump` succeeds: no string inside is invalid. -/
def Dumps (j : RawJson) : Prop := ∀ bytes ∈ j.strings, bytes.IsValidUTF8

@[simp] theorem dumps_null : null.Dumps := by simp [Dumps, strings]

@[simp] theorem dumps_boolean (b : Bool) : (boolean b).Dumps := by simp [Dumps, strings]

@[simp] theorem dumps_integer (n : Int) : (integer n).Dumps := by simp [Dumps, strings]

@[simp] theorem dumps_real (bits : UInt64) : (real bits).Dumps := by simp [Dumps, strings]

@[simp] theorem dumps_string {bytes : ByteArray} :
    (string bytes).Dumps ↔ bytes.IsValidUTF8 := by simp [Dumps, strings]

/-- What the program writes itself is valid. -/
@[simp] theorem dumps_text (s : String) : (text s).Dumps := dumps_string.mpr s.isValidUTF8

theorem mem_stringsOfElems {bytes : ByteArray} : ∀ {elems : List RawJson},
    bytes ∈ stringsOfElems elems ↔ ∃ e ∈ elems, bytes ∈ e.strings
  | [] => by simp [stringsOfElems]
  | e :: elems => by simp [stringsOfElems, mem_stringsOfElems]

theorem mem_stringsOfMembers {bytes : ByteArray} : ∀ {members : List (String × RawJson)},
    bytes ∈ stringsOfMembers members ↔ ∃ m ∈ members, bytes ∈ m.2.strings
  | [] => by simp [stringsOfMembers]
  | m :: members => by simp [stringsOfMembers, mem_stringsOfMembers]

theorem dumps_array {elems : List RawJson} : (array elems).Dumps ↔ ∀ e ∈ elems, e.Dumps := by
  simp only [Dumps, strings, mem_stringsOfElems]
  exact ⟨fun h e he bytes hbytes => h bytes ⟨e, he, hbytes⟩,
    fun h bytes ⟨e, he, hbytes⟩ => h e he bytes hbytes⟩

theorem dumps_object {members : List (String × RawJson)} :
    (object members).Dumps ↔ ∀ m ∈ members, m.2.Dumps := by
  simp only [Dumps, strings, mem_stringsOfMembers]
  exact ⟨fun h m hm bytes hbytes => h bytes ⟨m, hm, hbytes⟩,
    fun h bytes ⟨m, hm, hbytes⟩ => h m hm bytes hbytes⟩

theorem dumps_nested {dims : List ℕ} {entry : List ℕ → RawJson} :
    (nested dims entry).Dumps ↔ ∀ is ∈ RowMajor.positions dims, (entry is).Dumps := by
  induction dims generalizing entry with
  | nil => simp [nested, RowMajor.positions]
  | cons d dims ih =>
    simp only [nested, dumps_array, List.forall_mem_map, List.mem_range, ih,
      RowMajor.mem_positions_cons]
    constructor
    · rintro h - ⟨i, hi, is, his, rfl⟩
      exact h i hi is his
    · intro h i hi is his
      exact h _ ⟨i, hi, is, his, rfl⟩

/-- Assignments can be written out if those that last can. -/
theorem dumps_assigned_lasting {members : List (String × Option RawJson)} :
    (assigned members).Dumps ↔ ∀ m ∈ lasting (made members), m.2.Dumps := by
  rw [assigned]
  split_ifs with hnone
  · simp [hnone, lasting]
  · simp only [dumps_object, mem_foldl_putMember List.Pairwise.nil, List.not_mem_nil, false_and,
      or_false]

theorem keys_made_sublist : ∀ members : List (String × Option RawJson),
    ((made members).map Prod.fst).Sublist (members.map Prod.fst)
  | [] => List.Sublist.slnil
  | (k, none) :: members => (keys_made_sublist members).cons k
  | (k, some _) :: members => (keys_made_sublist members).cons_cons k

theorem forall_mem_made {members : List (String × Option RawJson)} {P : RawJson → Prop} :
    (∀ m ∈ made members, P m.2) ↔ ∀ m ∈ members, ∀ v ∈ m.2, P v := by
  simp only [made, List.mem_filterMap, Option.map_eq_some_iff, Option.mem_def]
  constructor
  · intro h m hm v hv
    exact h (m.1, v) ⟨m, hm, v, hv, rfl⟩
  · rintro h - ⟨m, hm, v, hv, rfl⟩
    exact h m hm v hv

/-- If they go to different keys all of them count. -/
theorem dumps_assigned {members : List (String × Option RawJson)}
    (h : (members.map Prod.fst).Nodup) :
    (assigned members).Dumps ↔ ∀ m ∈ members, ∀ v ∈ m.2, v.Dumps := by
  rw [dumps_assigned_lasting, lasting_of_nodup (h.sublist (keys_made_sublist members)),
    forall_mem_made]

/-- Repeating them changes nothing. -/
theorem dumps_assigned_append_self {members : List (String × Option RawJson)}
    (h : (members.map Prod.fst).Nodup) :
    (assigned (members ++ members)).Dumps ↔ ∀ m ∈ members, ∀ v ∈ m.2, v.Dumps := by
  have hmade : made (members ++ members) = made members ++ made members := List.filterMap_append
  rw [dumps_assigned_lasting, hmade,
    lasting_append_self (h.sublist (keys_made_sublist members)), forall_mem_made]

end RawJson

end UmatiDashboard
