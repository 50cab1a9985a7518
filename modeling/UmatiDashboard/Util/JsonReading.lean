import Mathlib.Data.List.Basic
import Mathlib.Data.List.Forall2

/-!
# Reading typed values from JSON documents

How a JSON library converts a document to values of the program: `get`, the access to a member
that has to be there, and the access to a member with a default. A `Codec` is the conversion of one
type, in both directions, with what is needed to say when a conversion is faithful: which documents
it accepts (`Fits`), when a document has exactly a value (`Says`), and for which of the accepted
documents the value that is read is the one that the document has (`Exact`).
-/

namespace UmatiDashboard

/-- A parsed document. The members of an object have different keys. -/
inductive JsonDocument where
  | null
  | boolean (b : Bool)
  | integer (n : Int)
  /-- a number that is written with a fraction or an exponent, or is too large -/
  | real (x : Rat)
  | string (s : String)
  | array (elems : List JsonDocument)
  | object (members : List (String × JsonDocument))
  deriving Inhabited

/-- The exceptions of a conversion. -/
inductive JsonError where
  | typeError
  | outOfRange
  deriving DecidableEq

/-- The exceptions of the parser, which throws the second one for a number that overflows. -/
inductive ParserError where
  | parseError (what : String)
  | outOfRange
  deriving DecidableEq

namespace JsonDocument

/-- The member with a key, if the document is an object that has one. -/
def member (key : String) : JsonDocument → Option JsonDocument
  | object members => members.lookup key
  | _ => none

/-- The document is this number. -/
def IsNumber (j : JsonDocument) (n : ℕ) : Prop := j = integer n ∨ j = real n

/-- The member with a key is the empty text, if there is one. -/
def EmptyAt (key : String) (j : JsonDocument) : Prop := ∀ v ∈ j.member key, v = string ""

/-- `at` and the conversion of what is found: a member that has to be there. -/
def at_ {α : Type} (get : JsonDocument → Except JsonError α) (key : String) :
    JsonDocument → Except JsonError α
  | object members =>
    match members.lookup key with
    | some v => get v
    | none => .error .outOfRange
  | _ => .error .typeError

/-- `value`: a member with a default. Whether null is taken for an empty object depends on the
version of the library. -/
def valueOr {α : Type} (nullIsEmpty : Bool) (get : JsonDocument → Except JsonError α) (key : String)
    (default_ : α) : JsonDocument → Except JsonError α
  | object members =>
    match members.lookup key with
    | some v => get v
    | none => .ok default_
  | null => if nullIsEmpty then .ok default_ else .error .typeError
  | _ => .error .typeError

/-- The document has members, or is taken for an object without. -/
def HasMembers (nullIsEmpty : Bool) : JsonDocument → Prop
  | object _ => True
  | null => nullIsEmpty = true
  | _ => False

section Members

variable {α : Type} {get : JsonDocument → Except JsonError α} {key : String} {j : JsonDocument}
  {a default_ : α} {nullIsEmpty : Bool}

theorem at_eq_ok_iff : at_ get key j = .ok a ↔ ∃ v, j.member key = some v ∧ get v = .ok a := by
  cases j with
  | object members =>
    rw [at_, member]
    cases members.lookup key with
    | none => simp
    | some v => simp
  | _ => simp [at_, member]

theorem valueOr_eq_ok_iff :
    valueOr nullIsEmpty get key default_ j = .ok a ↔
      j.HasMembers nullIsEmpty ∧ ((j.member key = none ∧ a = default_) ∨
        ∃ v, j.member key = some v ∧ get v = .ok a) := by
  cases j with
  | object members =>
    rw [valueOr, member]
    cases members.lookup key with
    | none => simp [HasMembers, eq_comm]
    | some v => simp [HasMembers]
  | null => cases nullIsEmpty <;> simp [valueOr, member, HasMembers, eq_comm]
  | _ => simp [valueOr, HasMembers]

end Members

end JsonDocument

open JsonDocument

theorem bind_eq_ok_iff {α β : Type} {x : Except JsonError α} {f : α → Except JsonError β} {b : β} :
    (x >>= f) = .ok b ↔ ∃ a, x = .ok a ∧ f a = .ok b := by
  cases x with
  | error e => simp [bind, Except.bind]
  | ok a => simp [bind, Except.bind]

/-- The conversion of a type. -/
structure Codec (α : Type) where
  /-- `get` -/
  get : JsonDocument → Except JsonError α
  /-- the assignment to a document -/
  put : α → JsonDocument
  /-- the documents that are accepted -/
  Fits : JsonDocument → Prop
  /-- the document has exactly this value -/
  Says : JsonDocument → α → Prop
  /-- what is read is what the document has -/
  Exact : JsonDocument → Prop
  fits_iff : ∀ {j}, Fits j ↔ ∃ a, get j = .ok a
  says_iff : ∀ {j a}, get j = .ok a → (Says j a ↔ Exact j)

namespace Codec

variable {α : Type}

/-- What is put is read again. -/
def Lossless (c : Codec α) : Prop := ∀ a, c.get (c.put a) = .ok a

/-! ### Strings, truth values and numbers -/

def string : Codec String where
  get
    | .string s => .ok s
    | _ => .error .typeError
  put := .string
  Fits j := ∃ s, j = .string s
  Says j s := j = .string s
  Exact _ := True
  fits_iff {j} := by cases j <;> simp
  says_iff {j a} h := by cases j <;> simp_all

theorem lossless_string : string.Lossless := fun _ => rfl

def boolean : Codec Bool where
  get
    | .boolean b => .ok b
    | _ => .error .typeError
  put := .boolean
  Fits j := ∃ b, j = .boolean b
  Says j b := j = .boolean b
  Exact _ := True
  fits_iff {j} := by cases j <;> simp
  says_iff {j a} h := by cases j <;> simp_all

/-- The number that is converted. What the library makes of a value that is not an integer is
`toNumber`, which is none if it throws. -/
def number (toNumber : JsonDocument → Option Int) : JsonDocument → Option Int
  | .integer n => some n
  | j => toNumber j

/-- An unsigned number of a fixed width, by a `static_cast`. -/
def unsigned (toNumber : JsonDocument → Option Int) (w : ℕ) : Codec (BitVec w) where
  get j :=
    match number toNumber j with
    | some n => .ok (BitVec.ofInt w n)
    | none => .error .typeError
  put x := .integer x.toNat
  Fits j := ∃ n, number toNumber j = some n
  Says j x := j.IsNumber x.toNat
  Exact j := ∀ n ∈ number toNumber j, j.IsNumber (BitVec.ofInt w n).toNat
  fits_iff {j} := by cases number toNumber j <;> simp
  says_iff {j a} h := by
    cases hn : number toNumber j with
    | none => simp [hn] at h
    | some n =>
      have ha : BitVec.ofInt w n = a := by simpa [hn] using h
      simp only [Option.mem_some_iff, forall_eq', ha]

theorem lossless_unsigned (toNumber : JsonDocument → Option Int) (w : ℕ) :
    (unsigned toNumber w).Lossless := by
  intro x
  change Except.ok (BitVec.ofInt w x.toNat) = .ok x
  simp

/-! ### Arrays -/

/-- A conversion of all elements, in order. -/
theorem mapM_eq_ok_iff {β : Type} {f : β → Except JsonError α} {elems : List β} {values : List α} :
    elems.mapM f = .ok values ↔ List.Forall₂ (fun e a => f e = .ok a) elems values := by
  induction elems generalizing values with
  | nil => simp [pure, Except.pure, eq_comm]
  | cons e elems ih =>
    simp only [List.mapM_cons, bind_eq_ok_iff, List.forall₂_cons_left_iff, ih, pure, Except.pure,
      Except.ok.injEq]
    constructor
    · rintro ⟨a, ha, as, has, rfl⟩
      exact ⟨a, as, ha, has, rfl⟩
    · rintro ⟨a, as, ha, has, rfl⟩
      exact ⟨a, ha, as, has, rfl⟩

theorem exists_forall₂_iff {β : Type} {R : β → α → Prop} {elems : List β} :
    (∃ values, List.Forall₂ R elems values) ↔ ∀ e ∈ elems, ∃ a, R e a := by
  induction elems with
  | nil => simp
  | cons e elems ih =>
    simp only [List.forall₂_cons_left_iff, List.forall_mem_cons, ← ih]
    constructor
    · rintro ⟨-, a, as, ha, has, rfl⟩
      exact ⟨⟨a, ha⟩, as, has⟩
    · rintro ⟨⟨a, ha⟩, as, has⟩
      exact ⟨_, a, as, ha, has, rfl⟩

/-- The values are what the elements say if every element is read as what it is. -/
theorem forall₂_says_iff {c : Codec α} {elems : List JsonDocument} {values : List α}
    (h : List.Forall₂ (fun e a => c.get e = .ok a) elems values) :
    List.Forall₂ c.Says elems values ↔ ∀ e ∈ elems, c.Exact e := by
  induction h with
  | nil => simp
  | cons hget _ ih => rw [List.forall₂_cons, List.forall_mem_cons, c.says_iff hget, ih]

/-- The elements of an array are converted in order. -/
def list (c : Codec α) : Codec (List α) where
  get
    | .array elems => elems.mapM c.get
    | _ => .error .typeError
  put values := .array (values.map c.put)
  Fits j := ∃ elems, j = .array elems ∧ ∀ e ∈ elems, c.Fits e
  Says j values := ∃ elems, j = .array elems ∧ List.Forall₂ c.Says elems values
  Exact j := ∀ elems, j = .array elems → ∀ e ∈ elems, c.Exact e
  fits_iff {j} := by
    cases j with
    | array elems => simp [mapM_eq_ok_iff, exists_forall₂_iff, c.fits_iff]
    | _ => simp
  says_iff {j values} h := by
    cases j with
    | array elems => simp [forall₂_says_iff (mapM_eq_ok_iff.mp h)]
    | _ => cases h

theorem lossless_list {c : Codec α} (hc : c.Lossless) : c.list.Lossless := by
  intro values
  change (values.map c.put).mapM c.get = .ok values
  rw [mapM_eq_ok_iff, List.forall₂_map_left_iff]
  exact List.forall₂_same.mpr fun a _ => hc a

/-! ### Members -/

variable (c : Codec α) (key : String) (j : JsonDocument)

/-- The member, if it is there, is accepted. -/
def FitsAt : Prop := ∀ v ∈ j.member key, c.Fits v

/-- The member, if it is there, has exactly this value. -/
def SaysAt (a : α) : Prop := ∀ v ∈ j.member key, c.Says v a

/-- The member, if it is there, is read as what it is. -/
def ExactAt : Prop := ∀ v ∈ j.member key, c.Exact v

variable {c key j} {nullIsEmpty : Bool} {a default_ : α}

theorem exists_valueOr_iff :
    (∃ a, valueOr nullIsEmpty c.get key default_ j = .ok a) ↔
      j.HasMembers nullIsEmpty ∧ c.FitsAt key j := by
  simp only [valueOr_eq_ok_iff, exists_and_left, FitsAt, fits_iff]
  refine and_congr_right fun _ => ?_
  cases j.member key with
  | none => simp
  | some v => simp

theorem exists_at_iff :
    (∃ a, at_ c.get key j = .ok a) ↔ (∃ v, j.member key = some v) ∧ c.FitsAt key j := by
  simp only [at_eq_ok_iff, FitsAt, fits_iff]
  cases j.member key with
  | none => simp
  | some v => simp

theorem saysAt_iff_of_valueOr (h : valueOr nullIsEmpty c.get key default_ j = .ok a) :
    c.SaysAt key j a ↔ c.ExactAt key j := by
  obtain ⟨-, ⟨hnone, -⟩ | ⟨v, hv, hget⟩⟩ := valueOr_eq_ok_iff.mp h
  · simp [SaysAt, ExactAt, hnone]
  · simp [SaysAt, ExactAt, hv, c.says_iff hget]

theorem saysAt_iff_of_at (h : at_ c.get key j = .ok a) : c.SaysAt key j a ↔ c.ExactAt key j := by
  obtain ⟨v, hv, hget⟩ := at_eq_ok_iff.mp h
  simp [SaysAt, ExactAt, hv, c.says_iff hget]

end Codec

end UmatiDashboard
