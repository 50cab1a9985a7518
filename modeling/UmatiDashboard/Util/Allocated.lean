import Mathlib.Data.List.Nodup
import Mathlib.Order.Basic

/-!
# Fresh addresses

What an allocator that counts upwards hands out: distinct addresses of an interval. Two runs of the
allocator, one after the other, hand out the addresses of adjacent intervals.
-/

namespace UmatiDashboard

/-- Distinct addresses from `k` on, below `m`. -/
def Allocated (k m : ℕ) (ptrs : List ℕ) : Prop :=
  ptrs.Nodup ∧ ∀ p ∈ ptrs, k ≤ p ∧ p < m

theorem allocated_nil (k m : ℕ) : Allocated k m [] :=
  ⟨List.nodup_nil, fun _ h => absurd h List.not_mem_nil⟩

theorem Allocated.append {k m n : ℕ} {ps qs : List ℕ} (hp : Allocated k m ps)
    (hq : Allocated m n qs) (hkm : k ≤ m) (hmn : m ≤ n) : Allocated k n (ps ++ qs) := by
  refine ⟨List.nodup_append.mpr ⟨hp.1, hq.1, fun p hp' q hq' => ?_⟩, fun p hpq => ?_⟩
  · have hlt := (hp.2 p hp').2
    have hge := (hq.2 q hq').1
    omega
  · rcases List.mem_append.mp hpq with h | h
    · have hlt := hp.2 p h
      omega
    · have hge := hq.2 p h
      omega

theorem Allocated.swap {k m : ℕ} {ps qs : List ℕ} (h : Allocated k m (ps ++ qs)) :
    Allocated k m (qs ++ ps) :=
  ⟨List.perm_append_comm.nodup_iff.mp h.1, fun p hp => h.2 p (List.perm_append_comm.mem_iff.mp hp)⟩

end UmatiDashboard
