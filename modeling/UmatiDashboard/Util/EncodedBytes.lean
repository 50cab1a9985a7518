import UmatiDashboard.Util.IdEncode
import UmatiDashboard.Util.PrefixCode

/-!
# Encoded byte strings

`IdEncode` on byte strings, which an identifier is before anything is known about it. A byte is
written in one of three forms: as it is, as an underscore with two digits, or, from `0x80` on, as
an underscore with six digits `F` and two digits (`encode_cases`). The forms are a prefix code, so
different identifiers are encoded differently; but the decoding that the documentation speaks of,
which takes an underscore with **two** digits for a byte, gives back the identifiers only that
have no byte of the last kind (`undone_iff`).
-/

namespace UmatiDashboard

/-- The bytes of a string. -/
def bytesOf (s : String) : List UInt8 := s.toUTF8.data.toList

namespace IdEncode

/-- The bytes written for one byte. -/
def code (c : UInt8) : List UInt8 := (encodeByte c).map fun d => UInt8.ofNat d.toNat

/-- `IdEncode`. -/
def encode (id : List UInt8) : List UInt8 := id.flatMap code

def underscore : UInt8 := 0x5F

/-- The byte `F`. -/
def digitF : UInt8 := 0x46

/-- An upper-case hexadecimal digit. -/
def isHexDigit (c : UInt8) : Bool :=
  (0x30 ≤ c.toNat && c.toNat ≤ 0x39) || (0x41 ≤ c.toNat && c.toNat ≤ 0x46)

def hexValue (c : UInt8) : UInt8 := if c.toNat ≤ 0x39 then c - 0x30 else c - 0x37

/-- The byte that two digits stand for. -/
def pairValue (h l : UInt8) : UInt8 := 16 * hexValue h + hexValue l

/-- The documented decoding: every underscore with two digits is replaced by the byte with that
value. -/
def decode : List UInt8 → List UInt8
  | [] => []
  | [c] => [c]
  | [c, h] => [c, h]
  | c :: h :: l :: rest =>
    if c = underscore ∧ isHexDigit h = true ∧ isHexDigit l = true then
      pairValue h l :: decode rest
    else c :: decode (h :: l :: rest)

/-- The upper-case digit of a number below 16. -/
def digit (n : ℕ) : UInt8 := UInt8.ofNat (hexDigit n).toNat

/-! ### The three forms of an encoded byte -/

/-- A property of bytes that is checked for each of them. -/
theorem forall_byte {P : UInt8 → Prop} (h : ∀ n : Fin 256, P (UInt8.ofNat n.val)) (c : UInt8) :
    P c := by
  simpa using h ⟨c.toNat, c.toNat_lt⟩

/-- What is written for a byte. -/
inductive Form (c : UInt8) : List UInt8 → Prop where
  | kept (hkept : requireEncoding c = false) (hne : c ≠ underscore) : Form c [c]
  | short {h l : UInt8} (hencoded : requireEncoding c = true) (hlt : c < 0x80)
      (hh : isHexDigit h = true) (hl : isHexDigit l = true) (hvalue : pairValue h l = c) :
      Form c [underscore, h, l]
  | long {h l : UInt8} (hencoded : requireEncoding c = true) (hge : ¬ c < 0x80)
      (hh : isHexDigit h = true) (hl : isHexDigit l = true) (hvalue : pairValue h l = c) :
      Form c [underscore, digitF, digitF, digitF, digitF, digitF, digitF, h, l]

theorem requireEncoding_underscore : requireEncoding underscore = true := by decide

theorem digits_spec (c : UInt8) :
    isHexDigit (digit (c.toNat / 16)) = true ∧ isHexDigit (digit (c.toNat % 16)) = true ∧
      pairValue (digit (c.toNat / 16)) (digit (c.toNat % 16)) = c := by
  revert c
  exact forall_byte (by decide +kernel)

theorem requireEncoding_of_ge : ∀ c : UInt8, ¬ c < 0x80 → requireEncoding c = true :=
  forall_byte (by decide +kernel)

theorem code_of_not : ∀ c : UInt8, requireEncoding c = false → code c = [c] :=
  forall_byte (by decide +kernel)

/-- Every byte is written in one of the forms. -/
theorem form_code (c : UInt8) : Form c (code c) := by
  obtain ⟨hh, hl, hvalue⟩ := digits_spec c
  cases hrequired : requireEncoding c with
  | false =>
    rw [code_of_not c hrequired]
    refine .kept hrequired fun h => ?_
    rw [h, requireEncoding_underscore] at hrequired
    cases hrequired
  | true =>
    by_cases hlt : c < 0x80
    · have hcode : code c = [underscore, digit (c.toNat / 16), digit (c.toNat % 16)] := by
        have hnat : c.toNat < 0x80 := hlt
        simp only [code, encodeByte, hrequired, hnat, if_true]
        rfl
      rw [hcode]
      exact .short hrequired hlt hh hl hvalue
    · have hcode : code c = [underscore, digitF, digitF, digitF, digitF, digitF, digitF,
          digit (c.toNat / 16), digit (c.toNat % 16)] := by
        have hnat : ¬ c.toNat < 0x80 := hlt
        simp only [code, encodeByte, hrequired, hnat, if_true, if_false]
        rfl
      rw [hcode]
      exact .long hrequired hlt hh hl hvalue

theorem isHexDigit_ne_underscore {c : UInt8} (h : isHexDigit c = true) : c ≠ underscore := by
  rintro rfl
  cases h

/-! ### Different identifiers are encoded differently -/

/-- The byte at the front of an encoded text. -/
def read : List UInt8 → Option UInt8
  | c :: h :: l :: rest =>
    if c = underscore then
      if h = digitF ∧ l = digitF then
        (rest[4]?).bind fun h => (rest[5]?).map fun l => pairValue h l
      else some (pairValue h l)
    else some c
  | c :: _ => some c
  | [] => none

/-- A byte can be read off its encoding. -/
theorem read_code (c : UInt8) (rest : List UInt8) : read (code c ++ rest) = some c := by
  have hform := form_code c
  generalize code c = word at hform ⊢
  cases hform with
  | kept hkept hne =>
    cases rest with
    | nil => rfl
    | cons h rest =>
      cases rest with
      | nil => rfl
      | cons l rest => exact if_neg hne
  | @short h l hencoded hlt hh hl hvalue =>
    -- two digits F would stand for `0xFF`
    have hnot : ¬ (h = digitF ∧ l = digitF) := by
      rintro ⟨rfl, rfl⟩
      rw [← hvalue] at hlt
      exact absurd hlt (by decide)
    have hread : read ([underscore, h, l] ++ rest) = some (pairValue h l) := by
      simp only [List.cons_append, List.nil_append, read, hnot, if_true, if_false]
    rw [hread, hvalue]
  | @long h l hencoded hge hh hl hvalue =>
    have hread : read ([underscore, digitF, digitF, digitF, digitF, digitF, digitF, h, l] ++
        rest) = some (pairValue h l) := rfl
    rw [hread, hvalue]

theorem prefixFree_code : PrefixCode.PrefixFree code := PrefixCode.prefixFree_of_read _ read_code

theorem code_ne_nil (c : UInt8) : code c ≠ [] := by
  intro h
  have hread := read_code c []
  rw [h] at hread
  cases hread

/-- **Different identifiers are encoded differently.** -/
theorem encode_injective : Function.Injective encode :=
  prefixFree_code.flatMap_injective code_ne_nil

/-- The bytes of encoded identifiers: ASCII letters, digits and seven signs. -/
def IsTopicByte (c : UInt8) : Prop := isAlnum c = true ∨ c ∈ bytesOf "-.~:;=_"

instance : DecidablePred IsTopicByte := fun _ => inferInstanceAs (Decidable (_ ∨ _))

theorem isTopicByte_of_mem_code (c : UInt8) : ∀ d ∈ code c, IsTopicByte d := by
  -- the bytes of each of the encodings, not all bytes, are looked at
  have hall : ∀ c : UInt8, ((code c).all fun d => decide (IsTopicByte d)) = true :=
    forall_byte (by decide +kernel)
  simpa using hall c

theorem isTopicByte_of_mem_encode {id : List UInt8} {d : UInt8} (h : d ∈ encode id) :
    IsTopicByte d := by
  obtain ⟨c, -, hc⟩ := List.mem_flatMap.mp h
  exact isTopicByte_of_mem_code c d hc

/-! ### The documented decoding -/

theorem decode_cons_of_ne {c : UInt8} (h : c ≠ underscore) (w : List UInt8) :
    decode (c :: w) = c :: decode w := by
  cases w with
  | nil => rfl
  | cons d w =>
    cases w with
    | nil => rfl
    | cons e w => simp [decode, h]

theorem decode_pair {h l : UInt8} (hh : isHexDigit h = true) (hl : isHexDigit l = true)
    (w : List UInt8) : decode (underscore :: h :: l :: w) = pairValue h l :: decode w := by
  simp [decode, hh, hl]

/-- A byte below `0x80` is decoded. -/
theorem decode_code_of_lt {c : UInt8} (hlt : c < 0x80) (w : List UInt8) :
    decode (code c ++ w) = c :: decode w := by
  have hform := form_code c
  generalize code c = word at hform ⊢
  cases hform with
  | kept hkept hne => exact decode_cons_of_ne hne w
  | short hencoded hlt hh hl hvalue =>
    rw [List.cons_append, List.cons_append, List.cons_append, List.nil_append, decode_pair hh hl,
      hvalue]
  | long hencoded hge => exact absurd hlt hge

/-- Any other byte is decoded to `0xFF` and the six digits that follow. -/
theorem decode_code_of_ge {c : UInt8} (hge : ¬ c < 0x80) (w : List UInt8) :
    ∃ h l, decode (code c ++ w) = 0xFF :: digitF :: digitF :: digitF :: digitF :: h :: l ::
      decode w := by
  have hF : digitF ≠ underscore := by decide
  have hform := form_code c
  generalize code c = word at hform ⊢
  cases hform with
  | kept hkept hne =>
    rw [requireEncoding_of_ge c hge] at hkept
    cases hkept
  | short hencoded hlt => exact absurd hlt hge
  | @long h l hencoded hge hh hl hvalue =>
    refine ⟨h, l, ?_⟩
    simp only [List.cons_append, List.nil_append]
    rw [decode_pair (by decide) (by decide), decode_cons_of_ne hF, decode_cons_of_ne hF,
      decode_cons_of_ne hF, decode_cons_of_ne hF, decode_cons_of_ne (isHexDigit_ne_underscore hh),
      decode_cons_of_ne (isHexDigit_ne_underscore hl)]
    rfl

/-- Decoding makes six bytes too many of every byte from `0x80` on. -/
theorem length_decode_encode (id : List UInt8) :
    (decode (encode id)).length = id.length + 6 * id.countP fun c => ¬ c < 0x80 := by
  induction id with
  | nil => rfl
  | cons c id ih =>
    rw [encode, List.flatMap_cons, ← encode]
    by_cases hlt : c < 0x80
    · rw [decode_code_of_lt hlt, List.length_cons, ih, List.countP_cons_of_neg (by simpa using hlt),
        List.length_cons]
      omega
    · obtain ⟨h, l, hdecode⟩ := decode_code_of_ge hlt (encode id)
      rw [hdecode, List.countP_cons_of_pos (by simpa using hlt)]
      simp only [List.length_cons, ih]
      omega

theorem decode_encode_of_lt {id : List UInt8} (h : ∀ c ∈ id, c < 0x80) :
    decode (encode id) = id := by
  induction id with
  | nil => rfl
  | cons c id ih =>
    rw [encode, List.flatMap_cons, ← encode, decode_code_of_lt (h c List.mem_cons_self),
      ih fun d hd => h d (List.mem_cons_of_mem _ hd)]

/-- The byte is written as an underscore and exactly two digits. -/
def TwoDigits (c : UInt8) : Prop :=
  ∃ h l, isHexDigit h = true ∧ isHexDigit l = true ∧ code c = [underscore, h, l]

/-- The documented decoding undoes the encoding, and every byte that is encoded is written with
two digits. -/
structure Undone (id : List UInt8) : Prop where
  decode_encode : decode (encode id) = id
  twoDigits : ∀ c ∈ id, requireEncoding c = true → TwoDigits c

/-- **When the encoding is undone by the documented decoding**: if and only if every byte of the
identifier is below `0x80`. -/
theorem undone_iff (id : List UInt8) : Undone id ↔ ∀ c ∈ id, c < 0x80 := by
  constructor
  · intro h
    have hlength := length_decode_encode id
    rw [h.decode_encode] at hlength
    have hcount : id.countP (fun c => ¬ c < 0x80) = 0 := by omega
    intro c hc
    simpa using List.countP_eq_zero.mp hcount c hc
  · intro h
    refine ⟨decode_encode_of_lt h, fun c hc hencoded => ?_⟩
    have hform := form_code c
    generalize hcode : code c = word at hform
    cases hform with
    | kept hkept =>
      rw [hencoded] at hkept
      cases hkept
    | @short d l _ _ hh hl => exact ⟨d, l, hh, hl, hcode⟩
    | long _ hge => exact absurd (h c hc) hge

/-- The letter `ü`, in UTF-8, is encoded with eight digits for each byte. -/
theorem not_undone_umlaut : encode (bytesOf "ü") = bytesOf "_FFFFFFC3_FFFFFFBC" ∧
    decode (encode (bytesOf "ü")) ≠ bytesOf "ü" ∧ ¬ Undone (bytesOf "ü") := by
  have hne : decode (encode (bytesOf "ü")) ≠ bytesOf "ü" := by decide +kernel
  exact ⟨by decide +kernel, hne, fun h => hne h.decode_encode⟩

end IdEncode

end UmatiDashboard
