import Mathlib.Data.Set.Basic
import UmatiDashboard.MachineObserver.Topics
import UmatiDashboard.TypeReader.LoadedTypes

/-!
# The identities of node identifiers

Identifiers are compared in three ways: with `operator==`, which reads an empty URI as the OPC UA
namespace; by the order of the ordered containers, which compares the parts as they are; and by
their text, which is all that a topic is made of. `identitiesAgree_iff` says among which identifiers
these are the same: among those of which no two have the empty and the full URI of the OPC UA
namespace, none is printed as the null identifier is, and none holds in its parts the signs by which
the parts of another one are separated.
-/

namespace UmatiDashboard

namespace NodeId

/-- The C++ `operator<`. -/
def less (a b : NodeId) : Prop := if a.uri ≠ b.uri then a.uri < b.uri else a.id < b.id

/-- The second part of the text. -/
def shownId (n : NodeId) : String := if n.id.isEmpty then "i=0" else n.id

/-- The text of `a` is that of `b`, with a part of `b`'s URI, and what separates it, read into the
identifier of `a`. -/
def Absorbs (a b : NodeId) : Prop :=
  b.uri ≠ "" ∧
    ((a.uri = "" ∧ a.id = "nsu=" ++ b.uri ++ ";" ++ b.shownId) ∨
      (a.uri ≠ "" ∧ ∃ rest, b.uri = a.uri ++ ";" ++ rest ∧ a.id = rest ++ ";" ++ b.shownId))

/-! ### Order -/

/-- The order of the containers is the one of `operator<`. -/
theorem compare_eq_lt_iff {a b : NodeId} : compare a b = .lt ↔ a.less b := by
  have hcompare : compare a b = (compare a.uri b.uri).then (compare a.id b.id) := rfl
  have hstring : ∀ x y : String, compare x y = .lt ↔ x < y := fun x y =>
    compareOfLessAndEq_eq_lt
  rw [hcompare, less, Ordering.then_eq_lt, hstring, hstring, Std.LawfulEqCmp.compare_eq_iff_eq]
  split_ifs with h
  · simp [h]
  · obtain h := not_not.mp h
    simp [h]

/-- Identifiers of which neither is less are equal in both parts. -/
theorem incomparable_iff {a b : NodeId} : ¬ a.less b ∧ ¬ b.less a ↔ a = b := by
  have hswap : compare b a = (compare a b).swap := Std.OrientedCmp.eq_swap
  rw [← compare_eq_lt_iff, ← compare_eq_lt_iff, hswap]
  constructor
  · rintro ⟨hlt, hgt⟩
    cases h : compare a b with
    | lt => exact absurd h hlt
    | eq => exact Std.LawfulEqOrd.eq_of_compare h
    | gt => exact absurd (by rw [h]; rfl) hgt
  · rintro rfl
    simp

/-! ### Text -/

/-- Two ways to read a list as two parts with a separator between them. -/
theorem append_separator_eq_iff {α : Type} {sep : α} {u u' v v' : List α} :
    u ++ sep :: v = u' ++ sep :: v' ↔
      (u = u' ∧ v = v') ∨ (∃ w, u' = u ++ sep :: w ∧ v = w ++ sep :: v') ∨
        ∃ w, u = u' ++ sep :: w ∧ v' = w ++ sep :: v := by
  constructor
  · intro h
    rcases List.append_eq_append_iff.mp h with ⟨w, hu, hv⟩ | ⟨w, hu, hv⟩
    · cases w with
      | nil =>
        rw [List.append_nil] at hu
        exact Or.inl ⟨hu.symm, (List.cons.inj hv).2⟩
      | cons x w =>
        rw [List.cons_append] at hv
        obtain ⟨rfl, hv'⟩ := List.cons.inj hv
        exact Or.inr (Or.inl ⟨w, hu, hv'⟩)
    · cases w with
      | nil =>
        rw [List.append_nil] at hu
        exact Or.inl ⟨hu, (List.cons.inj hv).2.symm⟩
      | cons x w =>
        rw [List.cons_append] at hv
        obtain ⟨rfl, hv'⟩ := List.cons.inj hv
        exact Or.inr (Or.inr ⟨w, hu, hv'⟩)
  · rintro (⟨rfl, rfl⟩ | ⟨w, rfl, rfl⟩ | ⟨w, rfl, rfl⟩)
    · rfl
    · simp
    · simp

theorem toList_toString_of_empty {n : NodeId} (h : n.uri = "") :
    n.toString.toList = n.shownId.toList := by
  simp [toString, shownId, h]

theorem toList_toString_of_ne {n : NodeId} (h : n.uri ≠ "") :
    n.toString.toList = "nsu=".toList ++ (n.uri.toList ++ ';' :: n.shownId.toList) := by
  simp [toString, shownId, h]

/-- A text with a separator is not the one of a null identifier. -/
theorem shownId_eq_iff {n : NodeId} {text : String} (h : ';' ∈ text.toList) :
    n.shownId = text ↔ n.id = text := by
  rw [shownId]
  split_ifs with hempty
  · have hid : n.id = "" := by simpa using hempty
    refine iff_of_false ?_ ?_
    · rintro rfl
      simp at h
    · rw [hid]
      rintro rfl
      simp at h
  · rfl

/-- The text of a longer URI is read into an identifier. -/
theorem exists_rest_iff {a b : NodeId} :
    (∃ w, b.uri.toList = a.uri.toList ++ ';' :: w ∧
        a.shownId.toList = w ++ ';' :: b.shownId.toList) ↔
      ∃ rest, b.uri = a.uri ++ ";" ++ rest ∧ a.id = rest ++ ";" ++ b.shownId := by
  constructor
  · rintro ⟨w, huri, hid⟩
    refine ⟨String.ofList w, String.toList_inj.mp (by simpa using huri),
      (shownId_eq_iff (by simp)).mp (String.toList_inj.mp (by simpa using hid))⟩
  · rintro ⟨rest, huri, hid⟩
    have hshown : a.shownId = rest ++ ";" ++ b.shownId := (shownId_eq_iff (by simp)).mpr hid
    exact ⟨rest.toList, by simp [huri], by simp [hshown]⟩

/-- **When two identifiers have one text.** -/
theorem toString_eq_iff {a b : NodeId} :
    a.toString = b.toString ↔
      (a.uri = b.uri ∧ a.shownId = b.shownId) ∨ a.Absorbs b ∨ b.Absorbs a := by
  have hone : ∀ {a b : NodeId}, a.uri = "" → b.uri ≠ "" →
      (a.toString = b.toString ↔ a.Absorbs b) := by
    intro a b ha hb
    have hshown : a.toString = b.toString ↔ a.shownId = "nsu=" ++ b.uri ++ ";" ++ b.shownId := by
      rw [← String.toList_inj, toList_toString_of_empty ha, toList_toString_of_ne hb,
        ← String.toList_inj]
      simp
    rw [hshown, shownId_eq_iff (by simp)]
    simp [Absorbs, ha, hb]
  by_cases ha : a.uri = ""
  · by_cases hb : b.uri = ""
    · rw [← String.toList_inj, toList_toString_of_empty ha, toList_toString_of_empty hb,
        String.toList_inj]
      simp [Absorbs, ha, hb]
    · rw [hone ha hb]
      simp [Absorbs, ha, hb, Ne.symm hb]
  · by_cases hb : b.uri = ""
    · rw [eq_comm, hone hb ha]
      simp [Absorbs, ha, hb]
    · rw [← String.toList_inj, toList_toString_of_ne ha, toList_toString_of_ne hb,
        List.append_cancel_left_eq, append_separator_eq_iff, String.toList_inj, String.toList_inj,
        exists_rest_iff, exists_rest_iff]
      simp [Absorbs, ha, hb]

/-! ### Identifiers on which the identities agree -/

/-- Among the identifiers of `S`, `operator==`, the order and the text tell the same ones apart;
so a lookup in a set or a map finds just the keys that are `==`, and identifiers that are `==` have
the same topics and the same machine id. -/
structure IdentitiesAgree (S : Set NodeId) : Prop where
  order : ∀ a ∈ S, ∀ b ∈ S, a.equals b = true ↔ ¬ a.less b ∧ ¬ b.less a
  text : ∀ a ∈ S, ∀ b ∈ S, a.equals b = true ↔ a.toString = b.toString
  set : ∀ keys : List NodeId, (∀ k ∈ keys, k ∈ S) → ∀ q ∈ S,
    (q ∈ (Std.ExtTreeSet.ofList keys compare : NodeSet) ↔ ∃ k ∈ keys, k.equals q = true)
  map : ∀ (β : Type) (entries : List (NodeId × β)), (∀ e ∈ entries, e.1 ∈ S) → ∀ q ∈ S,
    (q ∈ entries.foldl (fun m e => m.insertIfNew e.1 e.2) (∅ : NodeMap β) ↔
      ∃ e ∈ entries, e.1.equals q = true)
  topics : ∀ a ∈ S, ∀ b ∈ S, a.equals b = true → ∀ (t : Topics) (specification : String),
    t.machine specification a.toString = t.machine specification b.toString ∧
      t.onlineStatus a.toString = t.onlineStatus b.toString ∧
      idEncode a.toString = idEncode b.toString

/-- No identifier of `S` can be taken for another one. -/
structure Unmistakable (S : Set NodeId) : Prop where
  /-- not both spellings of the OPC UA namespace -/
  uri : ∀ a ∈ S, ∀ b ∈ S, a.id = b.id → a.uri = "" → b.uri ≠ defaultUri
  /-- not both spellings of the null identifier -/
  id : ∀ a ∈ S, ∀ b ∈ S, a.uri = b.uri → a.id = "" → b.id ≠ "i=0"
  /-- no separators inside of the parts -/
  parts : ∀ a ∈ S, ∀ b ∈ S, ¬ a.Absorbs b

variable {S : Set NodeId}

theorem equals_iff {a b : NodeId} :
    a.equals b = true ↔ a.id = b.id ∧ (a.uri = b.uri ∨ (a.uri = "" ∧ b.uri = defaultUri) ∨
      (a.uri = defaultUri ∧ b.uri = "")) := by
  rw [equals, Bool.and_eq_true, beq_iff_eq, beq_iff_eq, and_comm]
  refine and_congr_right fun _ => ?_
  rw [cmpUri, cmpUri]
  by_cases ha : a.uri = ""
  · by_cases hb : b.uri = ""
    · simp [ha, hb]
    · simp [ha, hb, Ne.symm hb, eq_comm]
  · by_cases hb : b.uri = ""
    · simp [ha, hb]
    · simp [ha, hb]

theorem Unmistakable.eq_of_equals (h : Unmistakable S) {a b : NodeId} (ha : a ∈ S) (hb : b ∈ S) :
    a.equals b = true ↔ a = b := by
  refine ⟨fun heq => ?_, ?_⟩
  · obtain ⟨hid, huri | ⟨hempty, hfull⟩ | ⟨hfull, hempty⟩⟩ := equals_iff.mp heq
    · cases a
      cases b
      simp_all
    · exact absurd hfull (h.uri a ha b hb hid hempty)
    · exact absurd hfull (h.uri b hb a ha hid.symm hempty)
  · rintro rfl
    exact equals_self a

theorem Unmistakable.eq_of_toString (h : Unmistakable S) {a b : NodeId} (ha : a ∈ S) (hb : b ∈ S) :
    a.toString = b.toString ↔ a = b := by
  refine ⟨fun heq => ?_, fun heq => by rw [heq]⟩
  rcases toString_eq_iff.mp heq with ⟨huri, hshown⟩ | habsorbs | habsorbs
  · have hid : a.id = b.id := by
      simp only [shownId, String.isEmpty_iff] at hshown
      split_ifs at hshown with hida hidb hidb
      · rw [hida, hidb]
      · exact absurd hshown.symm (h.id a ha b hb huri hida)
      · exact absurd hshown (h.id b hb a ha huri.symm hidb)
      · exact hshown
    cases a
    cases b
    simp_all
  · exact absurd habsorbs (h.parts a ha b hb)
  · exact absurd habsorbs (h.parts b hb a ha)

/-- An identifier does not hold itself. -/
theorem not_absorbs_self (a : NodeId) : ¬ a.Absorbs a := by
  rintro ⟨hne, ⟨hempty, -⟩ | ⟨-, rest, huri, -⟩⟩
  · exact hne hempty
  · have hlength := congrArg String.length huri
    rw [String.length_append, String.length_append] at hlength
    have hsemicolon : ";".length = 1 := by decide
    omega

/-- **The identities agree** exactly if no identifier can be taken for another one. -/
theorem identitiesAgree_iff (S : Set NodeId) : IdentitiesAgree S ↔ Unmistakable S := by
  constructor
  · intro h
    have heq : ∀ {a b : NodeId}, a ∈ S → b ∈ S → a.toString = b.toString → a = b :=
      fun ha hb htext => incomparable_iff.mp
        ((h.order _ ha _ hb).mp ((h.text _ ha _ hb).mpr htext))
    refine ⟨fun a ha b hb hid huri hfull => ?_, fun a ha b hb huri hid hnull => ?_,
      fun a ha b hb habsorbs => ?_⟩
    · have hequals : a.equals b = true := equals_iff.mpr ⟨hid, Or.inr (Or.inl ⟨huri, hfull⟩)⟩
      obtain rfl := incomparable_iff.mp ((h.order a ha b hb).mp hequals)
      rw [huri] at hfull
      exact absurd hfull (by decide)
    · have hshown : a.shownId = b.shownId := by simp [shownId, hid, hnull]
      obtain rfl := heq ha hb (toString_eq_iff.mpr (Or.inl ⟨huri, hshown⟩))
      rw [hid] at hnull
      exact absurd hnull (by decide)
    · obtain rfl := heq ha hb (toString_eq_iff.mpr (Or.inr (Or.inl habsorbs)))
      exact not_absorbs_self a habsorbs
  · intro h
    refine ⟨fun a ha b hb => ?_, fun a ha b hb => ?_, fun keys hkeys q hq => ?_,
      fun β entries hentries q hq => ?_, fun a ha b hb hequals t specification => ?_⟩
    · rw [h.eq_of_equals ha hb, incomparable_iff]
    · rw [h.eq_of_equals ha hb, h.eq_of_toString ha hb]
    · rw [Std.ExtTreeSet.mem_ofList, List.contains_iff_mem]
      constructor
      · exact fun hmem => ⟨q, hmem, equals_self q⟩
      · rintro ⟨k, hk, hequals⟩
        exact (h.eq_of_equals (hkeys k hk) hq).mp hequals ▸ hk
    · rw [mem_foldl_insertIfNew]
      constructor
      · rintro (hempty | hmem)
        · simp at hempty
        · obtain ⟨e, he, rfl⟩ := List.mem_map.mp hmem
          exact ⟨e, he, equals_self e.1⟩
      · rintro ⟨e, he, hequals⟩
        exact Or.inr ((h.eq_of_equals (hentries e he) hq).mp hequals ▸ List.mem_map_of_mem he)
    · obtain rfl := (h.eq_of_equals ha hb).mp hequals
      exact ⟨rfl, rfl, rfl⟩

/-- The base object type, as a server's answer and as the constants of the gateway have it. -/
theorem not_identitiesAgree_univ : ¬ IdentitiesAgree Set.univ := by
  intro h
  have hequals : (⟨"", "i=58"⟩ : NodeId).equals WellKnown.baseObjectType = true := by decide
  have heq := incomparable_iff.mp ((h.order _ trivial _ trivial).mp hequals)
  exact absurd heq (by decide)

end NodeId

end UmatiDashboard
