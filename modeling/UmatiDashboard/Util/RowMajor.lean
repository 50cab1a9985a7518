import Mathlib.Algebra.BigOperators.Group.List.Basic
import Mathlib.Tactic.Ring

/-!
# Row-major order

An array of shape `d₁, …, dₖ` has one position for every tuple of coordinates below the lengths.
In row-major order the last coordinate runs fastest: the index of a position is what Horner's
scheme computes from its coordinates, and the positions in order have the indices `0, 1, …`
(`map_rowMajorIndex_positions`).
-/

namespace RowMajor

/-- The positions of an array of the given shape, the last coordinate running fastest. -/
def positions : List ℕ → List (List ℕ)
  | [] => [[]]
  | d :: dims => (List.range d).flatMap fun i => (positions dims).map (i :: ·)

/-- The index of a position: `((i₁ * d₂ + i₂) * d₃ + …) * dₖ + iₖ`. -/
def rowMajorIndex (dims is : List ℕ) : ℕ := (dims.zip is).foldl (fun n di => n * di.1 + di.2) 0

theorem mem_positions_cons {d : ℕ} {dims is : List ℕ} :
    is ∈ positions (d :: dims) ↔ ∃ i < d, ∃ js ∈ positions dims, is = i :: js := by
  simp [positions, eq_comm]

theorem length_of_mem_positions :
    ∀ {dims is : List ℕ}, is ∈ positions dims → is.length = dims.length
  | [], is, h => by simp_all [positions]
  | d :: dims, is, h => by
    obtain ⟨i, -, js, hjs, rfl⟩ := mem_positions_cons.mp h
    simp [length_of_mem_positions hjs]

/-- The last coordinate varies within a row. -/
theorem mem_positions_concat {d : ℕ} :
    ∀ {dims is : List ℕ}, is ∈ positions (dims ++ [d]) ↔
      ∃ js ∈ positions dims, ∃ i < d, is = js ++ [i]
  | [], is => by
    simp only [List.nil_append, mem_positions_cons]
    constructor
    · rintro ⟨i, hi, js, hjs, rfl⟩
      exact ⟨[], by simp [positions], i, hi, by simp_all [positions]⟩
    · rintro ⟨js, hjs, i, hi, rfl⟩
      exact ⟨i, hi, [], by simp [positions], by simp_all [positions]⟩
  | e :: dims, is => by
    have ih : ∀ ks, ks ∈ positions (dims ++ [d]) ↔
        ∃ js ∈ positions dims, ∃ i < d, ks = js ++ [i] := fun _ => mem_positions_concat
    simp only [List.cons_append, mem_positions_cons, ih]
    constructor
    · rintro ⟨j, hj, -, ⟨js, hjs, i, hi, rfl⟩, rfl⟩
      exact ⟨j :: js, ⟨j, hj, js, hjs, rfl⟩, i, hi, rfl⟩
    · rintro ⟨-, ⟨j, hj, js, hjs, rfl⟩, i, hi, rfl⟩
      exact ⟨j, hj, js ++ [i], ⟨js, hjs, i, hi, rfl⟩, rfl⟩

/-! ### Indices -/

@[simp] theorem rowMajorIndex_nil (is : List ℕ) : rowMajorIndex [] is = 0 := rfl

/-- A number that Horner's scheme starts from is scaled by the size of the array. -/
private theorem foldl_zip (n : ℕ) :
    ∀ {dims is : List ℕ}, is.length = dims.length →
      (dims.zip is).foldl (fun n di => n * di.1 + di.2) n = n * dims.prod + rowMajorIndex dims is
  | [], is, _ => by simp
  | d :: dims, [], h => by simp at h
  | d :: dims, i :: is, h => by
    have hlength : is.length = dims.length := by simpa using h
    have hfrom := foldl_zip (n * d + i) hlength
    have hzero := foldl_zip (0 * d + i) hlength
    simp only [rowMajorIndex, List.zip_cons_cons, List.foldl_cons, List.prod_cons] at hfrom hzero ⊢
    rw [hfrom, hzero]
    ring

theorem rowMajorIndex_cons {d i : ℕ} {dims is : List ℕ} (h : is.length = dims.length) :
    rowMajorIndex (d :: dims) (i :: is) = i * dims.prod + rowMajorIndex dims is := by
  have hfrom := foldl_zip (0 * d + i) h
  rw [rowMajorIndex, List.zip_cons_cons, List.foldl_cons, hfrom, Nat.zero_mul, Nat.zero_add]

theorem rowMajorIndex_concat {d i : ℕ} {dims is : List ℕ} (h : is.length = dims.length) :
    rowMajorIndex (dims ++ [d]) (is ++ [i]) = rowMajorIndex dims is * d + i := by
  rw [rowMajorIndex, List.zip_append h.symm, List.foldl_append]
  rfl

/-- A range of `d` blocks of equal size. -/
private theorem range_mul (size : ℕ) :
    ∀ d : ℕ, List.range (d * size) =
      (List.range d).flatMap fun i => (List.range size).map (i * size + ·)
  | 0 => by simp
  | d + 1 => by
    rw [Nat.succ_mul, List.range_add, range_mul size d, List.range_succ, List.flatMap_append]
    simp

/-- **The positions in order have the indices `0, 1, …`**. -/
theorem map_rowMajorIndex_positions :
    ∀ dims : List ℕ, (positions dims).map (rowMajorIndex dims) = List.range dims.prod
  | [] => rfl
  | d :: dims => by
    rw [List.prod_cons, range_mul, positions, List.map_flatMap]
    refine List.flatMap_congr fun i _ => ?_
    rw [← map_rowMajorIndex_positions dims, List.map_map, List.map_map]
    refine List.map_congr_left fun is his => ?_
    exact rowMajorIndex_cons (length_of_mem_positions his)

theorem rowMajorIndex_lt {dims is : List ℕ} (h : is ∈ positions dims) :
    rowMajorIndex dims is < dims.prod := by
  have hmem := List.mem_map_of_mem (f := rowMajorIndex dims) h
  rw [map_rowMajorIndex_positions] at hmem
  exact List.mem_range.mp hmem

/-- Every index below the size is that of a position. -/
theorem exists_rowMajorIndex_eq {dims : List ℕ} {n : ℕ} (h : n < dims.prod) :
    ∃ is ∈ positions dims, rowMajorIndex dims is = n := by
  have hmem : n ∈ (positions dims).map (rowMajorIndex dims) := by
    rw [map_rowMajorIndex_positions]
    exact List.mem_range.mpr h
  exact List.mem_map.mp hmem

end RowMajor
