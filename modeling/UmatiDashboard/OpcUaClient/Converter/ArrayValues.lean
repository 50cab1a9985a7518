import UmatiDashboard.Util.RawJson

/-!
# Arrays

An array value is converted dimension by dimension. A pointer moves through the elements: at a
dimension that is not the last it is moved by a multiple of the sizes of the dimensions that
follow, **but for the last of them**. So the element that ends up at a position is the right one
in the first row only, and otherwise one that is too far to the front
(`readOffset_eq`); it always lies inside the array, so nothing fails. And an array whose first
dimension has length zero is not converted to an empty array but to null, because nothing is ever
pushed onto the value (`getValueFromDataValueArray_eq`).
-/

namespace UmatiDashboard

open RowMajor

/-- An array that a server has sent: its elements, and the lengths of its dimensions if it sent
any. -/
structure UaArray (α : Type) where
  data : List α
  arrayDimensions : List UInt32
  /-- lengths are signed 32-bit numbers on the wire -/
  length_lt : data.length < 2 ^ 31
  /-- the decoder rejects other lengths -/
  prod_eq : arrayDimensions ≠ [] → (arrayDimensions.map UInt32.toNat).prod = data.length

namespace UaArray

variable {α : Type} (a : UaArray α)

/-- The dimensions that are converted: one of the array's length, if the server sent none. -/
def dimensions : List UInt32 :=
  if a.arrayDimensions = [] then [UInt32.ofNat a.data.length] else a.arrayDimensions

/-- The lengths of the dimensions. -/
def shape : List ℕ := a.dimensions.map UInt32.toNat

theorem dimensions_ne_nil : a.dimensions ≠ [] := by
  rw [dimensions]
  split_ifs with h
  · simp
  · exact h

theorem prod_shape : a.shape.prod = a.data.length := by
  have hlt := a.length_lt
  rw [shape, dimensions]
  split_ifs with h
  · simp only [List.map_cons, List.map_nil, List.prod_cons, List.prod_nil, UInt32.toNat_ofNat']
    omega
  · exact a.prod_eq h

/-- The length of the last dimension. -/
def rowLength : ℕ := a.shape.getLastD 0

/-- The number of rows. -/
def rowCount : ℕ := a.shape.dropLast.prod

end UaArray

section Decoding

variable {α : Type} (scalar : α → RawJson) (data : List α)

/-- The factor of the pointer's move, from the dimensions that follow. -/
def arrayOffset (rest : List UInt32) : UInt32 := rest.dropLast.foldl (· * ·) 1

/-- Push the converted elements onto a value, beginning at the pointer. The result is none if an
element outside of the array is read. -/
def getValueFromDataValueArray : List UInt32 → ℕ → RawJson → Option RawJson
  | [], _, _ => none
  | [d], p, j =>
    (List.range d.toNat).foldlM (fun j i => do j.pushBack (scalar (← data[p + i]?))) j
  | d :: rest, p, j =>
    (List.range d.toNat).foldlM (fun j i => do
      let nestedj ← getValueFromDataValueArray rest (p + (UInt32.ofNat i * arrayOffset rest).toNat)
        (.array [])
      j.pushBack nestedj) j

/-- How far behind the pointer the element is that is read for a position. -/
def readOffset : List UInt32 → List ℕ → ℕ
  | [_], i :: _ => i
  | _ :: rest, i :: is => (UInt32.ofNat i * arrayOffset rest).toNat + readOffset rest is
  | _, _ => 0

/-! ### What is pushed -/

private theorem foldlM_bind_pushBack {f : ℕ → Option RawJson} {g : ℕ → RawJson} {l : List ℕ}
    (h : ∀ i ∈ l, f i = some (g i)) (j : RawJson) :
    l.foldlM (fun j i => do j.pushBack (← f i)) j = (l.map g).foldlM RawJson.pushBack j := by
  induction l generalizing j with
  | nil => rfl
  | cons i l ih =>
    have hi : f i = some (g i) := h i (by simp)
    have hl := ih fun i' hi' => h i' (by simp [hi'])
    rw [List.foldlM_cons, List.map_cons, List.foldlM_cons, hi]
    exact congrArg (j.pushBack (g i)).bind (funext hl)

/-- The arrays that are pushed onto the value, for an array with at least one dimension. -/
def rows (entry : List ℕ → RawJson) : List ℕ → List RawJson
  | [] => []
  | d :: dims => (List.range d).map fun i => RawJson.nested dims fun is => entry (i :: is)

/-- If all the elements that are read exist, then they are pushed in nested arrays. -/
theorem getValueFromDataValueArray_rows {entry : List ℕ → RawJson} :
    ∀ {dims : List UInt32} {p : ℕ}, dims ≠ [] →
      (∀ is ∈ positions (dims.map UInt32.toNat),
        ∃ e, data[p + readOffset dims is]? = some e ∧ scalar e = entry is) →
      ∀ j, getValueFromDataValueArray scalar data dims p j =
        (rows entry (dims.map UInt32.toNat)).foldlM RawJson.pushBack j
  | [], _, hne, _, _ => absurd rfl hne
  | [d], p, _, hread, j => by
    rw [getValueFromDataValueArray, List.map_cons, List.map_nil, rows]
    have hread' : ∀ i ∈ List.range d.toNat,
        (data[p + i]?).map scalar = some (entry [i]) := by
      intro i hi
      have hmem : [i] ∈ positions [d.toNat] := by
        rw [mem_positions_cons]
        exact ⟨i, List.mem_range.mp hi, [], by simp [positions], rfl⟩
      obtain ⟨e, he, hentry⟩ := hread [i] hmem
      rw [readOffset] at he
      rw [he, Option.map_some, hentry]
    have hpush := foldlM_bind_pushBack hread' j
    simpa only [Option.bind_eq_bind, Option.bind_map, Function.comp_def, RawJson.nested]
      using hpush
  | d :: d' :: rest, p, _, hread, j => by
    rw [getValueFromDataValueArray, List.map_cons, rows]
    · refine foldlM_bind_pushBack (fun i hi => ?_) j
      -- the rows of the element begin where the rows before it end
      have hread' : ∀ is ∈ positions ((d' :: rest).map UInt32.toNat),
          ∃ e, data[p + (UInt32.ofNat i * arrayOffset (d' :: rest)).toNat +
            readOffset (d' :: rest) is]? = some e ∧ scalar e = entry (i :: is) := by
        intro is his
        obtain ⟨e, he, hentry⟩ := hread (i :: is)
          (mem_positions_cons.mpr ⟨i, List.mem_range.mp hi, is, his, rfl⟩)
        refine ⟨e, ?_, hentry⟩
        rw [readOffset] at he
        · rw [Nat.add_assoc]
          exact he
        · simp
      rw [getValueFromDataValueArray_rows (List.cons_ne_nil d' rest) hread' (.array []),
        RawJson.foldlM_pushBack_array]
      rfl
    · simp

/-! ### Which elements are read -/

private theorem toNat_foldl_mul (c : UInt32) :
    ∀ dims : List UInt32, (dims.foldl (· * ·) c).toNat =
      c.toNat * (dims.map UInt32.toNat).prod % 2 ^ 32
  | [] => by simp
  | d :: dims => by
    rw [List.foldl_cons, toNat_foldl_mul (c * d) dims, UInt32.toNat_mul, List.map_cons,
      List.prod_cons, Nat.mod_mul_mod, Nat.mul_assoc]

/-- The factor is the size of the dimensions between, if that is no larger than a pointer. -/
private theorem toNat_arrayOffset {dims : List UInt32} (d : UInt32)
    (hlt : (dims.map UInt32.toNat).prod < 2 ^ 32) :
    (arrayOffset (dims ++ [d])).toNat = (dims.map UInt32.toNat).prod := by
  rw [arrayOffset, List.dropLast_concat, toNat_foldl_mul]
  simpa using Nat.mod_eq_of_lt hlt

/-- **The element that is read** is as far behind the beginning of the array as the row's number
and the last coordinate say together, instead of the row's number times the length of a row and
the last coordinate. -/
theorem readOffset_eq {d : UInt32} {i : ℕ} :
    ∀ {dims : List UInt32} {js : List ℕ}, (dims.map UInt32.toNat).prod < 2 ^ 32 →
      js ∈ positions (dims.map UInt32.toNat) →
        readOffset (dims ++ [d]) (js ++ [i]) = rowMajorIndex (dims.map UInt32.toNat) js + i
  | [], js, _, hjs => by
    have hnil : js = [] := by simpa [positions] using hjs
    rw [hnil]
    simp [readOffset]
  | n :: dims, js, hlt, hjs => by
    obtain ⟨k, hk, ks, hks, rfl⟩ := mem_positions_cons.mp hjs
    rw [List.map_cons, List.prod_cons] at hlt
    have hle : (k + 1) * (dims.map UInt32.toNat).prod ≤ n.toNat * (dims.map UInt32.toNat).prod :=
      Nat.mul_le_mul_right _ hk
    rw [Nat.succ_mul] at hle
    have hdims : (dims.map UInt32.toNat).prod < 2 ^ 32 := by omega
    have hk32 : k % 2 ^ 32 = k := Nat.mod_eq_of_lt (hk.trans n.toNat_lt)
    have hmove : (UInt32.ofNat k * arrayOffset (dims ++ [d])).toNat =
        k * (dims.map UInt32.toNat).prod := by
      rw [UInt32.toNat_mul, toNat_arrayOffset d hdims, UInt32.toNat_ofNat', hk32]
      exact Nat.mod_eq_of_lt (by omega)
    have hrest := readOffset_eq (d := d) (i := i) hdims hks
    rw [List.map_cons, rowMajorIndex_cons (length_of_mem_positions hks), List.cons_append,
      List.cons_append, readOffset, hmove, hrest, Nat.add_assoc]
    simp

end Decoding

/-! ### The converted array -/

namespace UaArray

variable {α : Type} (a : UaArray α)

/-- The dimensions but for the last one, and the last one. -/
theorem exists_dimensions_eq : ∃ dims d, a.dimensions = dims ++ [d] ∧
    a.shape = dims.map UInt32.toNat ++ [d.toNat] ∧ a.rowLength = d.toNat ∧
    a.shape.dropLast = dims.map UInt32.toNat := by
  obtain ⟨dims, d, hdims⟩ : ∃ dims d, a.dimensions = dims ++ [d] :=
    ⟨_, _, (List.dropLast_append_getLast a.dimensions_ne_nil).symm⟩
  have hshape : a.shape = dims.map UInt32.toNat ++ [d.toNat] := by simp [shape, hdims]
  exact ⟨dims, d, hdims, hshape, by simp [rowLength, hshape], by simp [hshape]⟩

/-- The index of the element that is read for a position. -/
def readIndex (is : List ℕ) : ℕ := rowMajorIndex a.shape.dropLast is.dropLast + is.getLastD 0

variable {a}

theorem readOffset_dimensions {is : List ℕ} (h : is ∈ positions a.shape) :
    readOffset a.dimensions is = a.readIndex is := by
  obtain ⟨dims, d, hdims, hshape, -, hrows⟩ := a.exists_dimensions_eq
  rw [hshape] at h
  obtain ⟨js, hjs, i, hi, rfl⟩ := mem_positions_concat.mp h
  have hprod := a.prod_shape
  have hlength := a.length_lt
  rw [hshape, List.prod_append, List.prod_singleton] at hprod
  have hle : (dims.map UInt32.toNat).prod * 1 ≤ (dims.map UInt32.toNat).prod * d.toNat :=
    Nat.mul_le_mul_left _ (by omega)
  rw [hdims, readOffset_eq (by omega) hjs, readIndex, hrows]
  simp

/-- It lies inside the array, at the right place or before it. -/
theorem readIndex_le {is : List ℕ} (h : is ∈ positions a.shape) :
    a.readIndex is ≤ rowMajorIndex a.shape is := by
  obtain ⟨dims, d, -, hshape, -, hrows⟩ := a.exists_dimensions_eq
  rw [hshape] at h
  obtain ⟨js, hjs, i, hi, rfl⟩ := mem_positions_concat.mp h
  rw [readIndex, hrows, hshape, rowMajorIndex_concat (length_of_mem_positions hjs)]
  have hle : rowMajorIndex (dims.map UInt32.toNat) js * 1 ≤
      rowMajorIndex (dims.map UInt32.toNat) js * d.toNat := Nat.mul_le_mul_left _ (by omega)
  simp only [List.dropLast_concat, List.getLastD_concat]
  omega

theorem exists_getElem?_rowMajorIndex {is : List ℕ} (h : is ∈ positions a.shape) :
    ∃ e, a.data[rowMajorIndex a.shape is]? = some e :=
  ⟨_, List.getElem?_eq_getElem (a.prod_shape ▸ rowMajorIndex_lt h)⟩

theorem exists_getElem?_readIndex {is : List ℕ} (h : is ∈ positions a.shape) :
    ∃ e, a.data[a.readIndex is]? = some e :=
  ⟨_, List.getElem?_eq_getElem
    ((readIndex_le h).trans_lt (a.prod_shape ▸ rowMajorIndex_lt h))⟩

variable (a) (scalar : α → RawJson)

/-- The entry that the conversion puts at a position. -/
def readEntry (is : List ℕ) : RawJson := ((a.data[a.readIndex is]?).map scalar).getD .null

/-- **The conversion of an array**: nested arrays of its shape, or null if the first dimension
has length zero. -/
theorem getValueFromDataValueArray_eq :
    getValueFromDataValueArray scalar a.data a.dimensions 0 .null =
      some (if a.shape.head? = some 0 then .null
        else RawJson.nested a.shape (a.readEntry scalar)) := by
  have hread : ∀ is ∈ positions (a.dimensions.map UInt32.toNat),
      ∃ e, a.data[0 + readOffset a.dimensions is]? = some e ∧
        scalar e = a.readEntry scalar is := by
    intro is his
    obtain ⟨e, he⟩ := exists_getElem?_readIndex (a := a) his
    refine ⟨e, ?_, ?_⟩
    · rw [Nat.zero_add, readOffset_dimensions his, he]
    · rw [readEntry, he, Option.map_some, Option.getD_some]
  rw [getValueFromDataValueArray_rows scalar a.data a.dimensions_ne_nil hread,
    RawJson.foldlM_pushBack_null]
  change some (if rows (a.readEntry scalar) a.shape = [] then RawJson.null
    else RawJson.array (rows (a.readEntry scalar) a.shape)) = _
  obtain ⟨d, dims, hshape⟩ : ∃ d dims, a.shape = d :: dims := by
    refine List.exists_cons_of_ne_nil fun h => a.dimensions_ne_nil ?_
    simpa [shape] using h
  have hempty : rows (a.readEntry scalar) a.shape = [] ↔ a.shape.head? = some 0 := by
    simp [rows, hshape]
  rw [if_congr hempty rfl rfl, hshape]
  rfl

theorem isSome_getValueFromDataValueArray :
    (getValueFromDataValueArray scalar a.data a.dimensions 0 .null).isSome := by
  rw [getValueFromDataValueArray_eq]
  rfl

/-- The converted array: no element outside of it is read. -/
def toJson : RawJson :=
  (getValueFromDataValueArray scalar a.data a.dimensions 0 .null).get
    (a.isSome_getValueFromDataValueArray scalar)

theorem toJson_eq : a.toJson scalar = if a.shape.head? = some 0 then .null
    else RawJson.nested a.shape (a.readEntry scalar) := by
  rw [toJson, Option.get_of_eq_some _ (a.getValueFromDataValueArray_eq scalar)]

/-! ### Row-major order -/

/-- Nested arrays of the array's shape, in which the entry at a position is the conversion of the
element with the position's row-major index. -/
def IsRowMajor (j : RawJson) : Prop :=
  ∃ entry, j = RawJson.nested a.shape entry ∧ ∀ is ∈ positions a.shape,
    ∃ e, a.data[rowMajorIndex a.shape is]? = some e ∧ entry is = scalar e

variable {a scalar} {j : RawJson}

/-- Flattened it gives back every element once and in order. -/
theorem IsRowMajor.flatten_eq (h : a.IsRowMajor scalar j) :
    RawJson.flatten a.shape.length j = a.data.map scalar := by
  obtain ⟨entry, rfl, hentry⟩ := h
  rw [RawJson.flatten_nested]
  have hindices : (positions a.shape).map (fun is => a.data[rowMajorIndex a.shape is]?) =
      (List.range a.data.length).map fun n => a.data[n]? := by
    rw [← a.prod_shape, ← map_rowMajorIndex_positions, List.map_map]
    rfl
  have helems : ((positions a.shape).map entry).map some = (a.data.map scalar).map some := by
    calc ((positions a.shape).map entry).map some
        = (positions a.shape).map fun is => (a.data[rowMajorIndex a.shape is]?).map scalar := by
          rw [List.map_map]
          refine List.map_congr_left fun is his => ?_
          obtain ⟨e, he, heq⟩ := hentry is his
          rw [he, Option.map_some, ← heq]
          rfl
      _ = ((List.range a.data.length).map fun n => a.data[n]?).map (Option.map scalar) := by
          rw [← hindices, List.map_map]
          rfl
      _ = (a.data.map scalar).map some := by
          rw [List.map_map]
          refine List.ext_getElem (by simp) fun n hn _ => ?_
          simp at hn
          simp [hn]
  exact List.map_injective_iff.mpr (Option.some_injective _) helems

/-- An empty array in one dimension is an empty array. -/
theorem IsRowMajor.eq_nil (h : a.IsRowMajor scalar j) (hlength : a.shape.length = 1)
    (hempty : a.data = []) : j = .array [] := by
  obtain ⟨entry, rfl, -⟩ := h
  obtain ⟨d, hshape⟩ := List.length_eq_one_iff.mp hlength
  have hprod := a.prod_shape
  rw [hshape, hempty] at hprod
  have hd : d = 0 := by simpa using hprod
  rw [hshape, hd]
  rfl

variable (a scalar j) in
/-- What an array should become: nested arrays in row-major order, which give back every element
in order and are empty if the array is. -/
structure Decodes : Prop where
  rowMajor : a.IsRowMajor scalar j
  flatten_eq : RawJson.flatten a.shape.length j = a.data.map scalar
  eq_nil : a.shape.length = 1 → a.data = [] → j = .array []

theorem decodes_iff : a.Decodes scalar j ↔ a.IsRowMajor scalar j :=
  ⟨Decodes.rowMajor, fun h => ⟨h, h.flatten_eq, h.eq_nil⟩⟩

/-- **When an array is converted in row-major order**: its first dimension is not empty, and the
element that is read for a position of a later row converts as the one that is meant. -/
theorem isRowMajor_toJson_iff :
    a.IsRowMajor scalar (a.toJson scalar) ↔ a.shape.head? ≠ some 0 ∧
      ∀ r < a.rowCount, ∀ i < a.rowLength,
        (a.data[r + i]?).map scalar = (a.data[r * a.rowLength + i]?).map scalar := by
  obtain ⟨dims, d, -, hshape, hlength, hrows⟩ := a.exists_dimensions_eq
  -- the positions are pairs of a row and a coordinate within it
  have hpositions : (∀ is ∈ positions a.shape, (a.data[a.readIndex is]?).map scalar =
        (a.data[rowMajorIndex a.shape is]?).map scalar) ↔
      ∀ r < a.rowCount, ∀ i < a.rowLength,
        (a.data[r + i]?).map scalar = (a.data[r * a.rowLength + i]?).map scalar := by
    have hboth : ∀ js ∈ positions (dims.map UInt32.toNat), ∀ i,
        a.readIndex (js ++ [i]) = rowMajorIndex (dims.map UInt32.toNat) js + i ∧
        rowMajorIndex a.shape (js ++ [i]) =
          rowMajorIndex (dims.map UInt32.toNat) js * a.rowLength + i := by
      intro js hjs i
      rw [readIndex, hrows, hshape, hlength, rowMajorIndex_concat (length_of_mem_positions hjs)]
      simp
    rw [UaArray.rowCount, hrows]
    constructor
    · intro h r hr i hi
      obtain ⟨js, hjs, rfl⟩ := exists_rowMajorIndex_eq hr
      have hmem : js ++ [i] ∈ positions a.shape := by
        rw [hshape]
        exact mem_positions_concat.mpr ⟨js, hjs, i, hlength ▸ hi, rfl⟩
      have heq := h _ hmem
      rwa [(hboth js hjs i).1, (hboth js hjs i).2] at heq
    · intro h is his
      rw [hshape] at his
      obtain ⟨js, hjs, i, hi, rfl⟩ := mem_positions_concat.mp his
      rw [(hboth js hjs i).1, (hboth js hjs i).2]
      exact h _ (rowMajorIndex_lt hjs) i (hlength ▸ hi)
  rw [toJson_eq]
  split_ifs with hhead
  · -- null is not an array
    refine iff_of_false ?_ fun h => h.1 hhead
    rintro ⟨entry, heq, -⟩
    obtain ⟨rest, hrest⟩ := List.head?_eq_some_iff.mp hhead
    rw [hrest, RawJson.nested] at heq
    exact RawJson.noConfusion heq
  · rw [and_iff_right hhead, ← hpositions]
    constructor
    · rintro ⟨entry, heq, hentry⟩ is his
      obtain ⟨e, he, hconverted⟩ := hentry is his
      obtain ⟨e', he'⟩ := exists_getElem?_readIndex his
      have hsame := RawJson.nested_eq_iff.mp heq is his
      rw [readEntry, he', Option.map_some, Option.getD_some, hconverted] at hsame
      rw [he, he', Option.map_some, Option.map_some, hsame]
    · intro h
      refine ⟨a.readEntry scalar, rfl, fun is his => ?_⟩
      obtain ⟨e, he⟩ := exists_getElem?_rowMajorIndex his
      refine ⟨e, he, ?_⟩
      rw [readEntry, h is his, he, Option.map_some, Option.getD_some]

end UaArray

end UmatiDashboard
