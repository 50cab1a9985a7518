import Mathlib.Data.String.Basic
import UmatiDashboard.Util.Json

/-!
# Writing the members of an object one after the other

`putMembers` evaluates a list of named members in order and writes each of them that is not null
into a member list. The last member written under a key is the one that is read back
(`lookup_putMembers`), whatever was there under the key before (`putMembers_overwritten`).
-/

namespace UmatiDashboard

namespace Json

/-- An object that is not there as long as it has no member. -/
def ofMembers : List (String × Json) → Json
  | [] => null
  | member :: members => object (member :: members)

@[simp] theorem ofMembers_nil : ofMembers [] = null := rfl

theorem ofMembers_of_ne_nil {members : List (String × Json)} (h : members ≠ []) :
    ofMembers members = object members := by
  obtain ⟨member, rest, rfl⟩ := List.exists_cons_of_ne_nil h
  rfl

theorem ofMembers_injective : Function.Injective ofMembers := by
  intro a b h
  cases a <;> cases b <;> simp_all [ofMembers]

@[simp] theorem ofMembers_eq_null {members : List (String × Json)} :
    ofMembers members = null ↔ members = [] := by
  constructor
  · intro h
    by_contra hne
    simp [ofMembers_of_ne_nil hne] at h
  · rintro rfl
    rfl

theorem putMember_ne_nil (key : String) (value : Json) (members : List (String × Json)) :
    putMember key value members ≠ [] := by
  intro h
  have hlookup := lookup_putMember_self key value members
  simp [h] at hlookup

/-- An assignment to such an object writes one member. -/
theorem set_ofMembers (key : String) (value : Json) (members : List (String × Json)) :
    (ofMembers members).set key value = some (ofMembers (putMember key value members)) := by
  rw [ofMembers_of_ne_nil (putMember_ne_nil key value members)]
  by_cases h : members = []
  · subst h
    rfl
  · rw [ofMembers_of_ne_nil h]
    rfl

/-! ### Writing twice -/

/-- A second value under a key replaces the first one. -/
theorem putMember_putMember_self (key : String) (a b : Json) :
    ∀ members : List (String × Json),
      putMember key b (putMember key a members) = putMember key b members
  | [] => by simp [putMember]
  | (k, v) :: rest => by
    rcases lt_trichotomy key k with hlt | rfl | hgt
    · simp [putMember, hlt]
    · simp [putMember]
    · have hne : key ≠ k := ne_of_gt hgt
      have hnot : ¬key < k := not_lt_of_gt hgt
      simp [putMember, hnot, hne, putMember_putMember_self key a b rest]

/-- Writing under two different keys can be done in either order; the case of the smaller key
being written first. -/
private theorem putMember_comm_of_lt {key key' : String} (hlt : key < key') (a b : Json) :
    ∀ members : List (String × Json),
      putMember key a (putMember key' b members) = putMember key' b (putMember key a members)
  | [] => by
    have hnot : ¬key' < key := not_lt_of_gt hlt
    simp [putMember, hlt, hnot, ne_of_gt hlt]
  | (k, v) :: rest => by
    have hnot : ¬key' < key := not_lt_of_gt hlt
    have hne : key' ≠ key := ne_of_gt hlt
    rcases lt_trichotomy key k with hk | rfl | hk
    · -- the smaller key stands before the whole list
      rcases lt_trichotomy key' k with hk' | rfl | hk'
      · simp [putMember, hk, hk', hlt, hnot, hne]
      · simp [putMember, hlt, hnot, hne]
      · have hne' : key' ≠ k := ne_of_gt hk'
        have hnot' : ¬key' < k := not_lt_of_gt hk'
        simp [putMember, hk, hnot, hne, hne', hnot']
    · simp [putMember, hnot, hne]
    · have hk' : k < key' := hk.trans hlt
      have hnotk : ¬key < k := not_lt_of_gt hk
      have hnotk' : ¬key' < k := not_lt_of_gt hk'
      simp [putMember, hnotk, hnotk', ne_of_gt hk, ne_of_gt hk',
        putMember_comm_of_lt hlt a b rest]

theorem putMember_comm {key key' : String} (hne : key ≠ key') (a b : Json)
    (members : List (String × Json)) :
    putMember key a (putMember key' b members) = putMember key' b (putMember key a members) := by
  rcases lt_or_gt_of_ne hne with hlt | hgt
  · exact putMember_comm_of_lt hlt a b members
  · exact (putMember_comm_of_lt hgt b a members).symm

/-! ### A sequence of members -/

variable {ε : Type}

/-- Write the members that are not null, in order; the first one that fails ends it. -/
def putMembers (members : List (String × Json)) :
    List (String × Except ε Json) → Except ε (List (String × Json))
  | [] => .ok members
  | (_, .error e) :: _ => .error e
  | (key, .ok j) :: rest => putMembers (if j.isNull then members else putMember key j members) rest

@[simp] theorem putMembers_nil (members : List (String × Json)) :
    (putMembers members [] : Except ε (List (String × Json))) = .ok members := rfl

@[simp] theorem putMembers_cons_error (members : List (String × Json)) (key : String) (e : ε)
    (rest : List (String × Except ε Json)) :
    putMembers members ((key, .error e) :: rest) = .error e := rfl

theorem putMembers_cons_ok (members : List (String × Json)) (key : String) (j : Json)
    (rest : List (String × Except ε Json)) :
    putMembers members ((key, .ok j) :: rest) =
      putMembers (if j.isNull then members else putMember key j members) rest := rfl

/-- The first step, with the members written so far. -/
theorem putMembers_cons_eq_ok {members result : List (String × Json)} {key : String}
    {x : Except ε Json} {rest : List (String × Except ε Json)}
    (h : putMembers members ((key, x) :: rest) = .ok result) :
    ∃ j, x = .ok j ∧
      putMembers (if j.isNull then members else putMember key j members) rest = .ok result := by
  cases x with
  | error e => simp at h
  | ok j => exact ⟨j, rfl, h⟩

/-- Writing two sequences is writing the one and then the other. -/
theorem putMembers_append (xs ys : List (String × Except ε Json))
    (members : List (String × Json)) :
    putMembers members (xs ++ ys) = (putMembers members xs).bind fun m => putMembers m ys := by
  induction xs generalizing members with
  | nil => rfl
  | cons x xs ih =>
    obtain ⟨key, x⟩ := x
    cases x with
    | error e => rfl
    | ok j => exact ih _

/-- Nothing is written exactly if there was nothing and every member is null. -/
theorem putMembers_eq_nil_iff {members result : List (String × Json)}
    {xs : List (String × Except ε Json)} (h : putMembers members xs = .ok result) :
    result = [] ↔ members = [] ∧ ∀ x ∈ xs, x.2 = .ok null := by
  induction xs generalizing members with
  | nil =>
    obtain rfl := Except.ok.inj h
    simp
  | cons x xs ih =>
    obtain ⟨key, x⟩ := x
    obtain ⟨j, rfl, hrest⟩ := putMembers_cons_eq_ok h
    rw [ih hrest]
    split_ifs with hnull
    · simp [isNull_iff.mp hnull]
    · have hne : j ≠ null := fun hj => hnull (isNull_iff.mpr hj)
      simp [putMember_ne_nil, hne]

/-- A key that is not written keeps its member. -/
theorem lookup_putMembers_of_unwritten {key : String} {members result : List (String × Json)}
    {xs : List (String × Except ε Json)} (h : putMembers members xs = .ok result)
    (hkey : ∀ x ∈ xs, x.1 = key → x.2 = .ok null) :
    result.lookup key = members.lookup key := by
  induction xs generalizing members with
  | nil =>
    obtain rfl := Except.ok.inj h
    rfl
  | cons x xs ih =>
    obtain ⟨k, x⟩ := x
    obtain ⟨j, rfl, hrest⟩ := putMembers_cons_eq_ok h
    rw [ih hrest fun y hy => hkey y (List.mem_cons_of_mem _ hy)]
    split_ifs with hnull
    · rfl
    · refine lookup_putMember_of_ne j ?_ members
      rintro rfl
      have hj := hkey (key, .ok j) List.mem_cons_self rfl
      exact hnull (isNull_iff.mpr (Except.ok.inj hj))

/-- **The last member written under a key is read back.** -/
theorem lookup_putMembers {key : String} {j : Json} {members result : List (String × Json)}
    {rest : List (String × Except ε Json)}
    (h : putMembers members ((key, .ok j) :: rest) = .ok result) (hj : j ≠ null)
    (hkey : ∀ x ∈ rest, x.1 = key → x.2 = .ok null) : result.lookup key = some j := by
  have hnull : j.isNull = false := Bool.eq_false_iff.mpr fun hn => hj (isNull_iff.mp hn)
  rw [putMembers_cons_ok, hnull] at h
  rw [lookup_putMembers_of_unwritten h hkey]
  exact lookup_putMember_self key j members

/-- **A member that is written again leaves no trace.** -/
theorem putMembers_overwritten {key : String} (a b : Json) {xs : List (String × Except ε Json)}
    (hkey : ∃ x ∈ xs, x.1 = key ∧ x.2 ≠ .ok null) (members : List (String × Json)) :
    putMembers (putMember key a members) xs = putMembers (putMember key b members) xs := by
  induction xs generalizing members with
  | nil =>
    obtain ⟨x, hx, -⟩ := hkey
    exact absurd hx List.not_mem_nil
  | cons x xs ih =>
    obtain ⟨k, x⟩ := x
    cases x with
    | error e => rfl
    | ok j =>
      rw [putMembers_cons_ok, putMembers_cons_ok]
      by_cases hwritten : k = key ∧ j ≠ null
      · obtain ⟨rfl, hj⟩ := hwritten
        have hnull : j.isNull = false := Bool.eq_false_iff.mpr fun hn => hj (isNull_iff.mp hn)
        simp [hnull, putMember_putMember_self]
      · -- the member that overwrites is a later one
        have hlater : ∃ x ∈ xs, x.1 = key ∧ x.2 ≠ .ok null := by
          obtain ⟨y, hy, rfl, hval⟩ := hkey
          rcases List.mem_cons.mp hy with rfl | hy
          · exact absurd ⟨rfl, fun hj => hval (congrArg Except.ok hj)⟩ hwritten
          · exact ⟨y, hy, rfl, hval⟩
        split_ifs with hnull
        · exact ih hlater members
        · have hne : k ≠ key := fun hk =>
            hwritten ⟨hk, fun hj => hnull (isNull_iff.mpr hj)⟩
          rw [putMember_comm hne, putMember_comm hne]
          exact ih hlater _

/-! ### The members there are in the end -/

/-- The members stand in the order of their keys, so that no key is there twice. -/
def Ordered (members : List (String × Json)) : Prop := members.Pairwise fun a b => a.1 < b.1

theorem mem_putMember {key : String} {value : Json} {m : String × Json} :
    ∀ {members : List (String × Json)}, Ordered members →
      (m ∈ putMember key value members ↔ m = (key, value) ∨ (m ∈ members ∧ m.1 ≠ key))
  | [], _ => by simp [putMember]
  | (k, v) :: rest, hordered => by
    obtain ⟨hk, hrest⟩ := List.pairwise_cons.mp hordered
    simp only [putMember]
    split_ifs with hlt heq
    · have hne : ∀ m ∈ (k, v) :: rest, m.1 ≠ key := by
        intro m hm
        rcases List.mem_cons.mp hm with rfl | hm
        · exact hlt.ne'
        · exact (hlt.trans (hk m hm)).ne'
      rw [List.mem_cons]
      exact or_congr_right ⟨fun hm => ⟨hm, hne m hm⟩, And.left⟩
    · subst heq
      have hne : ∀ m ∈ rest, m.1 ≠ key := fun m hm => (hk m hm).ne'
      simp only [List.mem_cons]
      aesop
    · have ih : m ∈ putMember key value rest ↔ m = (key, value) ∨ (m ∈ rest ∧ m.1 ≠ key) :=
        mem_putMember hrest
      have hne : ¬ k = key := fun h => heq h.symm
      simp only [List.mem_cons, ih]
      aesop

theorem ordered_putMember {key : String} {value : Json} :
    ∀ {members : List (String × Json)}, Ordered members → Ordered (putMember key value members)
  | [], _ => List.pairwise_singleton _ _
  | (k, v) :: rest, hordered => by
    obtain ⟨hk, hrest⟩ := List.pairwise_cons.mp hordered
    simp only [putMember]
    split_ifs with hlt heq
    · refine List.pairwise_cons.mpr ⟨fun m hm => ?_, hordered⟩
      rcases List.mem_cons.mp hm with rfl | hm
      · exact hlt
      · exact hlt.trans (hk m hm)
    · subst heq
      exact List.pairwise_cons.mpr ⟨hk, hrest⟩
    · refine List.pairwise_cons.mpr ⟨fun m hm => ?_, ordered_putMember hrest⟩
      rcases (mem_putMember hrest).mp hm with rfl | ⟨hm, -⟩
      · exact lt_of_le_of_ne (not_lt.mp hlt) fun h => heq h.symm
      · exact hk m hm

/-- A member is written, and not written over later. -/
def Lasts (xs : List (String × Except ε Json)) (key : String) (j : Json) : Prop :=
  j ≠ null ∧ ∃ before after, xs = before ++ (key, .ok j) :: after ∧
    ∀ x ∈ after, x.1 = key → x.2 = .ok null

theorem lasts_cons {x : String × Except ε Json} {xs : List (String × Except ε Json)}
    {key : String} {j : Json} :
    Lasts (x :: xs) key j ↔
      (x = (key, .ok j) ∧ j ≠ null ∧ ∀ y ∈ xs, y.1 = key → y.2 = .ok null) ∨ Lasts xs key j := by
  constructor
  · rintro ⟨hj, before, after, heq, hlater⟩
    cases before with
    | nil =>
      obtain ⟨rfl, rfl⟩ := List.cons.inj heq
      exact Or.inl ⟨rfl, hj, hlater⟩
    | cons y before =>
      obtain ⟨rfl, rfl⟩ := List.cons.inj heq
      exact Or.inr ⟨hj, before, after, rfl, hlater⟩
  · rintro (⟨rfl, hj, hlater⟩ | ⟨hj, before, after, rfl, hlater⟩)
    · exact ⟨hj, [], xs, rfl, hlater⟩
    · exact ⟨hj, x :: before, after, rfl, hlater⟩

theorem lasts_append {xs ys : List (String × Except ε Json)} {key : String} {j : Json} :
    Lasts (xs ++ ys) key j ↔
      (Lasts xs key j ∧ ∀ y ∈ ys, y.1 = key → y.2 = .ok null) ∨ Lasts ys key j := by
  induction xs with
  | nil => simp [Lasts]
  | cons x xs ih =>
    rw [List.cons_append, lasts_cons, ih, lasts_cons, List.forall_mem_append]
    tauto

/-- What lasts is read back. -/
theorem lookup_of_lasts {key : String} {j : Json} {members result : List (String × Json)}
    {xs : List (String × Except ε Json)} (h : putMembers members xs = .ok result)
    (hlasts : Lasts xs key j) : result.lookup key = some j := by
  obtain ⟨hj, before, after, rfl, hlater⟩ := hlasts
  rw [putMembers_append] at h
  cases hbefore : putMembers members before with
  | error e =>
    rw [hbefore] at h
    cases h
  | ok start =>
    rw [hbefore] at h
    exact lookup_putMembers h hj hlater

/-- The last one of its name among those that are written. -/
def LastNamed {α : Type} (name : α → String) (writes : α → Bool) (l : List α) (a : α) : Prop :=
  writes a = true ∧ ∃ before after, l = before ++ a :: after ∧
    ∀ b ∈ after, name b = name a → writes b = false

theorem LastNamed.mem {α : Type} {name : α → String} {writes : α → Bool} {l : List α} {a : α}
    (h : LastNamed name writes l a) : a ∈ l := by
  obtain ⟨-, before, after, rfl, -⟩ := h
  simp

/-- The entries of a list of named elements last where the elements are the last ones. -/
theorem lasts_map_iff {α : Type} {name : α → String} {x : α → Except ε Json} {writes : α → Bool}
    {l : List α} (hx : ∀ a ∈ l, ∃ j, x a = .ok j ∧ (writes a = false ↔ j = null))
    {key : String} {j : Json} :
    Lasts (l.map fun a => (name a, x a)) key j ↔
      ∃ a, LastNamed name writes l a ∧ name a = key ∧ x a = .ok j := by
  have hwrites : ∀ a ∈ l, (x a = .ok null ↔ writes a = false) := by
    intro a ha
    obtain ⟨j', hj', hnull⟩ := hx a ha
    rw [hj', hnull]
    simp
  -- a null is not written, so the entries that last are those of the last elements that write
  constructor
  · rintro ⟨hj, before, after, heq, hlater⟩
    obtain ⟨l₁, l₂, rfl, -, hl₂⟩ := List.map_eq_append_iff.mp heq
    obtain ⟨a, l₃, rfl, hentry, rfl⟩ := List.map_eq_cons_iff.mp hl₂
    obtain ⟨rfl, ha⟩ := Prod.mk.inj hentry
    refine ⟨a, ⟨?_, l₁, l₃, rfl, fun b hb hname => ?_⟩, rfl, ha⟩
    · cases hwrite : writes a with
      | true => rfl
      | false =>
        have hnull := (hwrites a (by simp)).mpr hwrite
        rw [ha] at hnull
        exact absurd (Except.ok.inj hnull) hj
    · exact (hwrites b (by simp [hb])).mp
        (hlater _ (List.mem_map_of_mem hb) hname)
  · rintro ⟨a, ⟨hwrite, before, after, rfl, hlater⟩, rfl, ha⟩
    refine ⟨?_, before.map (fun a => (name a, x a)), after.map (fun a => (name a, x a)), ?_,
      fun y hy hkey => ?_⟩
    · rintro rfl
      have hnot := (hwrites a (by simp)).mp ha
      rw [hwrite] at hnot
      exact Bool.noConfusion hnot
    · rw [List.map_append, List.map_cons, ha]
    · obtain ⟨b, hb, rfl⟩ := List.mem_map.mp hy
      exact (hwrites b (by simp [hb])).mpr (hlater b hb hkey)

/-- **The members there are in the end**: those that last, and those of the beginning that are not
written over. -/
theorem mem_putMembers_iff {m : String × Json} {members result : List (String × Json)}
    {xs : List (String × Except ε Json)} (hordered : Ordered members)
    (h : putMembers members xs = .ok result) :
    m ∈ result ↔
      (m ∈ members ∧ ∀ x ∈ xs, x.1 = m.1 → x.2 = .ok null) ∨ Lasts xs m.1 m.2 := by
  induction xs generalizing members with
  | nil =>
    obtain rfl := Except.ok.inj h
    simp [Lasts]
  | cons x xs ih =>
    obtain ⟨key, x⟩ := x
    obtain ⟨j, rfl, hrest⟩ := putMembers_cons_eq_ok h
    obtain ⟨mkey, mj⟩ := m
    rw [lasts_cons]
    cases hnull : j.isNull with
    | true =>
      rw [hnull, if_pos rfl] at hrest
      obtain rfl := isNull_iff.mp hnull
      rw [ih hordered hrest]
      simp only [List.forall_mem_cons, Prod.mk.injEq, Except.ok.injEq]
      aesop
    | false =>
      rw [hnull, if_neg Bool.false_ne_true] at hrest
      have hj : j ≠ null := fun hj => by simp [hj, isNull] at hnull
      rw [ih (ordered_putMember hordered) hrest, mem_putMember hordered]
      simp only [List.forall_mem_cons, Prod.mk.injEq, Except.ok.injEq]
      aesop

/-- The members that are put into an object are those of some entries. -/
theorem exists_entry_of_mem {xs : List (String × Except ε Json)} {result : List (String × Json)}
    (h : putMembers [] xs = .ok result) {m : String × Json} (hm : m ∈ result) :
    m.2 ≠ null ∧ (m.1, .ok m.2) ∈ xs := by
  rcases (mem_putMembers_iff .nil h).mp hm with ⟨hnone, -⟩ | ⟨hj, before, after, heq, -⟩
  · cases hnone
  · exact ⟨hj, by simp [heq]⟩

/-- All members of a sequence that was written could be evaluated. -/
theorem ok_of_mem_putMembers {members result : List (String × Json)}
    {xs : List (String × Except ε Json)} (h : putMembers members xs = .ok result) :
    ∀ x ∈ xs, ∃ j, x.2 = .ok j := by
  induction xs generalizing members with
  | nil => intro x hx; exact absurd hx List.not_mem_nil
  | cons x xs ih =>
    obtain ⟨key, x⟩ := x
    obtain ⟨j, rfl, hrest⟩ := putMembers_cons_eq_ok h
    intro y hy
    rcases List.mem_cons.mp hy with rfl | hy
    · exact ⟨j, rfl⟩
    · exact ih hrest y hy

/-- If every member can be evaluated, all of them can be written. -/
theorem exists_putMembers {xs : List (String × Except ε Json)}
    (h : ∀ x ∈ xs, ∃ j, x.2 = .ok j) (members : List (String × Json)) :
    ∃ result, putMembers members xs = .ok result := by
  induction xs generalizing members with
  | nil => exact ⟨members, rfl⟩
  | cons x xs ih =>
    obtain ⟨j, hj⟩ := h x List.mem_cons_self
    obtain ⟨key, x⟩ := x
    obtain rfl : x = .ok j := hj
    exact ih (fun y hy => h y (List.mem_cons_of_mem _ hy)) _

/-! ### Writing an object out -/

theorem forall_mem_putMember {key : String} {value : Json} {members : List (String × Json)}
    (hordered : Ordered members) {P : String × Json → Prop} :
    (∀ m ∈ putMember key value members, P m) ↔ P (key, value) ∧ ∀ m ∈ members, m.1 ≠ key → P m := by
  simp only [mem_putMember hordered]
  constructor
  · exact fun h => ⟨h _ (Or.inl rfl), fun m hm hne => h m (Or.inr ⟨hm, hne⟩)⟩
  · rintro ⟨hvalue, hmembers⟩ m (rfl | ⟨hm, hne⟩)
    · exact hvalue
    · exact hmembers m hm hne

theorem putMember_perm {key : String} (value : Json) :
    ∀ {members : List (String × Json)}, (∀ m ∈ members, m.1 ≠ key) →
      (putMember key value members).Perm ((key, value) :: members)
  | [], _ => .refl _
  | (k, v) :: rest, h => by
    obtain ⟨hk, hrest⟩ := List.forall_mem_cons.mp h
    simp only [putMember]
    split_ifs with hlt heq
    · exact .refl _
    · exact absurd heq.symm hk
    · exact ((putMember_perm value hrest).cons _).trans (.swap _ _ _)

theorem eq_or_mem_of_mem_putMember {key : String} {value : Json} {m : String × Json} :
    ∀ {members : List (String × Json)}, m ∈ putMember key value members →
      m = (key, value) ∨ m ∈ members
  | [], h => .inl (List.mem_singleton.mp h)
  | (k, v) :: rest, h => by
    simp only [putMember] at h
    split_ifs at h
    · exact List.mem_cons.mp h
    · exact (List.mem_cons.mp h).imp_right (List.mem_cons_of_mem _)
    · rcases List.mem_cons.mp h with rfl | h
      · exact .inr List.mem_cons_self
      · exact (eq_or_mem_of_mem_putMember h).imp_right (List.mem_cons_of_mem _)

theorem dumps_ofMembers (members : List (String × Json)) :
    (ofMembers members).dumps = members.all fun m => m.2.dumps := by
  cases members with
  | nil => rfl
  | cons m members => exact dumps_object (m :: members)

/-- A member that can be written out does no harm. -/
theorem dumps_putMember {key : String} {value : Json} (hvalue : value.dumps = true) :
    ∀ {members : List (String × Json)}, (∀ m ∈ members, m.2.dumps = true) →
      ∀ m ∈ putMember key value members, m.2.dumps = true
  | [], _ => by simpa [putMember] using hvalue
  | (k, v) :: rest, hmembers => by
    obtain ⟨hv, hrest⟩ := List.forall_mem_cons.mp hmembers
    simp only [putMember]
    split_ifs
    · exact List.forall_mem_cons.mpr ⟨hvalue, hmembers⟩
    · exact List.forall_mem_cons.mpr ⟨hvalue, hrest⟩
    · exact List.forall_mem_cons.mpr ⟨hv, dumps_putMember hvalue hrest⟩

theorem dumps_ofMembers_iff {members : List (String × Json)} :
    (ofMembers members).dumps = true ↔ ∀ m ∈ members, m.2.dumps = true := by
  rw [dumps_ofMembers, List.all_eq_true]

end Json

end UmatiDashboard
