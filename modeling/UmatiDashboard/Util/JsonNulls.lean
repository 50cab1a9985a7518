import UmatiDashboard.Util.JsonMembers

/-!
# Nulls in a JSON value

`NoNull` says that there is no null anywhere in a value. Of an object that is written member by
member it says that every member that lasts is without nulls (`noNull_ofMembers_iff`). `at?` follows
a path of keys through nested objects.
-/

namespace UmatiDashboard

namespace Json

mutual

/-- There is no null in the value. -/
def NoNull : Json → Prop
  | null => False
  | array elems => NoNullElems elems
  | object members => NoNullMembers members
  | _ => True

def NoNullElems : List Json → Prop
  | [] => True
  | e :: elems => NoNull e ∧ NoNullElems elems

def NoNullMembers : List (String × Json) → Prop
  | [] => True
  | (_, j) :: members => NoNull j ∧ NoNullMembers members

end

@[simp] theorem not_noNull_null : ¬ null.NoNull := by simp [NoNull]

@[simp] theorem noNull_string (s : String) : (string s).NoNull := by simp [NoNull]

theorem NoNull.ne_null {j : Json} (h : j.NoNull) : j ≠ null := by
  rintro rfl
  exact not_noNull_null h

theorem noNullMembers_iff : ∀ {members : List (String × Json)},
    NoNullMembers members ↔ ∀ m ∈ members, m.2.NoNull
  | [] => by simp [NoNullMembers]
  | (_, j) :: members => by simp [NoNullMembers, noNullMembers_iff]

@[simp] theorem noNull_object {members : List (String × Json)} :
    (object members).NoNull ↔ ∀ m ∈ members, m.2.NoNull := by
  rw [NoNull, noNullMembers_iff]

/-- The value is null itself, or there is no null in it. -/
def NullOrNoNull (j : Json) : Prop := j = null ∨ j.NoNull

theorem NullOrNoNull.noNull_iff {j : Json} (h : j ≠ null) : j.NullOrNoNull ↔ j.NoNull :=
  or_iff_right h

theorem nullOrNoNull_ofMembers {members : List (String × Json)} :
    (ofMembers members).NullOrNoNull ↔ ∀ m ∈ members, m.2.NoNull := by
  by_cases h : members = []
  · subst h
    simp [NullOrNoNull]
  · rw [ofMembers_of_ne_nil h, NullOrNoNull.noNull_iff (by simp), noNull_object]

/-- **An object without nulls** is one whose lasting members are. -/
theorem nullOrNoNull_putMembers {ε : Type} {xs : List (String × Except ε Json)}
    {result : List (String × Json)} (h : putMembers [] xs = .ok result) :
    (ofMembers result).NullOrNoNull ↔ ∀ key j, Lasts xs key j → j.NoNull := by
  rw [nullOrNoNull_ofMembers]
  constructor
  · intro hall key j hlasts
    exact hall (key, j) ((mem_putMembers_iff List.Pairwise.nil h).mpr (Or.inr hlasts))
  · rintro hall ⟨key, j⟩ hm
    rcases (mem_putMembers_iff List.Pairwise.nil h).mp hm with ⟨hnil, -⟩ | hlasts
    · exact absurd hnil List.not_mem_nil
    · exact hall key j hlasts

/-- A member without nulls brings no null into an object. -/
theorem noNull_putMember {key : String} {value : Json} (hvalue : value.NoNull) :
    ∀ {members : List (String × Json)}, (∀ m ∈ members, m.2.NoNull) →
      ∀ m ∈ putMember key value members, m.2.NoNull
  | [], _ => by simpa [putMember] using hvalue
  | (k, v) :: rest, hmembers => by
    obtain ⟨hv, hrest⟩ := List.forall_mem_cons.mp hmembers
    simp only [putMember]
    split_ifs
    · exact List.forall_mem_cons.mpr ⟨hvalue, hmembers⟩
    · exact List.forall_mem_cons.mpr ⟨hvalue, hrest⟩
    · exact List.forall_mem_cons.mpr ⟨hv, noNull_putMember hvalue hrest⟩

/-- The value at the end of a path of keys. -/
def at? (j : Json) : List String → Option Json
  | [] => some j
  | key :: path => (j.member? key).bind fun j' => j'.at? path

@[simp] theorem at?_nil (j : Json) : j.at? [] = some j := rfl

theorem at?_append (j : Json) (path path' : List String) :
    j.at? (path ++ path') = (j.at? path).bind fun j' => j'.at? path' := by
  induction path generalizing j with
  | nil => rfl
  | cons key path ih =>
    rw [List.cons_append, at?, at?]
    cases j.member? key with
    | none => rfl
    | some j' => exact ih j'

theorem member?_ofMembers (members : List (String × Json)) (key : String) :
    (ofMembers members).member? key = members.lookup key := by
  cases members <;> rfl

end Json

end UmatiDashboard
