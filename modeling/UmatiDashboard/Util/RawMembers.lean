import UmatiDashboard.Util.RawJson

/-!
# The members of an object

What stands under a key of an object that was made by assignments: the value of the last of them
that was made to the key. Assignments to different keys are all found again under their keys.
-/

namespace UmatiDashboard

namespace RawJson

/-- The member of an object. -/
def member? (j : RawJson) (key : String) : Option RawJson :=
  match j with
  | object members => members.lookup key
  | _ => none

theorem lookup_eq_some_iff {key : String} {value : RawJson} :
    ∀ {members : List (String × RawJson)}, Ordered members →
      (members.lookup key = some value ↔ (key, value) ∈ members)
  | [], _ => by simp
  | (k, v) :: rest, hordered => by
    obtain ⟨hk, hrest⟩ := List.pairwise_cons.mp hordered
    rw [List.lookup_cons, List.mem_cons, Prod.mk.injEq]
    by_cases h : key = k
    · subst h
      have hlater : (key, value) ∉ rest := fun hmem => (hk _ hmem).ne rfl
      simp [hlater, eq_comm]
    · have hne : (key == k) = false := beq_eq_false_iff_ne.mpr h
      simp [h, hne, lookup_eq_some_iff hrest]

theorem ordered_foldl_putMember : ∀ {members start : List (String × RawJson)}, Ordered start →
    Ordered (members.foldl (fun ms m => putMember m.1 m.2 ms) start)
  | [], _, h => h
  | m :: members, _, h => by
    rw [List.foldl_cons]
    exact ordered_foldl_putMember h.putMember

/-- An assignment that is not made, whatever its key. -/
theorem assigned_cons_none (key : String) (members : List (String × Option RawJson)) :
    assigned ((key, none) :: members) = assigned members := rfl

/-- What assignments leave under a key. -/
theorem member?_assigned {members : List (String × Option RawJson)} {key : String}
    {value : RawJson} :
    (assigned members).member? key = some value ↔ (key, value) ∈ lasting (made members) := by
  rw [assigned]
  split_ifs with hnone
  · simp [member?, hnone, lasting]
  · rw [member?, lookup_eq_some_iff (ordered_foldl_putMember List.Pairwise.nil),
      mem_foldl_putMember List.Pairwise.nil]
    simp

theorem mem_made {members : List (String × Option RawJson)} {key : String} {value : RawJson} :
    (key, value) ∈ made members ↔ (key, some value) ∈ members := by
  simp [made]

/-- Assignments to different keys are all found again. -/
theorem member?_assigned_of_nodup {members : List (String × Option RawJson)}
    (h : (members.map Prod.fst).Nodup) {key : String} {value : RawJson} :
    (assigned members).member? key = some value ↔ (key, some value) ∈ members := by
  rw [member?_assigned, lasting_of_nodup (h.sublist (keys_made_sublist members)), mem_made]

/-- Making them again changes nothing. -/
theorem member?_assigned_append_self {members : List (String × Option RawJson)}
    (h : (members.map Prod.fst).Nodup) {key : String} {value : RawJson} :
    (assigned (members ++ members)).member? key = some value ↔ (key, some value) ∈ members := by
  have hmade : made (members ++ members) = made members ++ made members := List.filterMap_append
  rw [member?_assigned, hmade, lasting_append_self (h.sublist (keys_made_sublist members)),
    mem_made]

theorem mem_of_mem_lasting {m : String × RawJson} : ∀ {members : List (String × RawJson)},
    m ∈ lasting members → m ∈ members
  | a :: members, h => by
    rw [lasting] at h
    split_ifs at h
    · exact List.mem_cons_of_mem a (mem_of_mem_lasting h)
    · rcases List.mem_cons.mp h with rfl | h
      · exact List.mem_cons_self
      · exact List.mem_cons_of_mem a (mem_of_mem_lasting h)

/-- Every key of the object is one that was assigned to. -/
theorem mem_keys_of_member? {members : List (String × Option RawJson)} {key : String}
    {value : RawJson} (h : (assigned members).member? key = some value) :
    key ∈ members.map Prod.fst :=
  List.mem_map_of_mem (f := Prod.fst) (mem_made.mp (mem_of_mem_lasting (member?_assigned.mp h)))

end RawJson

end UmatiDashboard
