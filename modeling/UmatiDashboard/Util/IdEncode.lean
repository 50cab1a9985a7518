import Mathlib.Data.List.Basic

/-!
# Encoding identifiers for topics

`idEncode` turns an identifier into one level of a topic. It works on the bytes of the string.
A byte that is kept is an ASCII letter, digit or one of six signs; any other byte is written as
an underscore and two hexadecimal digits. A byte is a signed `char` that is widened to `int`
before it is printed, so a byte above `0x7F` is printed with eight digits.
-/

namespace UmatiDashboard

namespace IdEncode

/-- The signs that need no encoding. -/
def whitelist : List Char := ['-', '.', '~', ':', ';', '=']

/-- `isalnum` for the bytes of the classic locale. -/
def isAlnum (c : UInt8) : Bool :=
  let n := c.toNat
  (0x30 ≤ n && n ≤ 0x39) || (0x41 ≤ n && n ≤ 0x5A) || (0x61 ≤ n && n ≤ 0x7A)

def requireEncoding (c : UInt8) : Bool :=
  !isAlnum c && !(whitelist.map Char.toNat).contains c.toNat

def hexDigit (n : ℕ) : Char := Char.ofNat (if n < 10 then 0x30 + n else 0x41 + (n - 10))

/-- The characters written for one byte. -/
def encodeByte (c : UInt8) : List Char :=
  if requireEncoding c then
    '_' :: (if c.toNat < 0x80 then [] else List.replicate 6 'F') ++
      [hexDigit (c.toNat / 16), hexDigit (c.toNat % 16)]
  else [Char.ofNat c.toNat]

end IdEncode

/-- Encode an identifier so that it can be used as a part of a topic. -/
def idEncode (id : String) : String :=
  String.ofList (id.toUTF8.data.toList.flatMap IdEncode.encodeByte)

namespace IdEncode

theorem slash_not_mem_encodeByte (c : UInt8) : '/' ∉ encodeByte c := by
  have hall : ∀ n : Fin 256, '/' ∉ encodeByte (UInt8.ofNat n.val) := by decide +kernel
  simpa using hall ⟨c.toNat, c.toNat_lt⟩

end IdEncode

/-- **An encoded identifier is a single level of a topic**: it contains no separator. -/
theorem slash_not_mem_idEncode (id : String) : '/' ∉ (idEncode id).toList := by
  simp only [idEncode, String.toList_ofList, List.mem_flatMap, not_exists, not_and]
  exact fun c _ => IdEncode.slash_not_mem_encodeByte c

example : idEncode "nsu=http://x/;i=5" = "nsu=http:_2F_2Fx_2F;i=5" := by decide +kernel

end UmatiDashboard
