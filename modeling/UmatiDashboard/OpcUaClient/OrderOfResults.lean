import Mathlib.Data.List.FinRange
import UmatiDashboard.OpcUaClient.ServiceFailures

/-!
# Reading several values

`readValues2` reads a list of nodes with one call and looks at the status of the **first** result
only. So it throws if the first node cannot be read, and otherwise hands out the values of all
nodes, whatever the statuses of the others are (`run_readValues2`). Reading the nodes in another
order ends alike if the two first results are both bad or both not bad (`readsAlike_iff`).
-/

namespace UmatiDashboard

/-- Two reads of the same nodes in two orders: both throw, or both return, and then the values are
permuted like the nodes. -/
structure ReadsAlike {n : ℕ} (σ : Equiv.Perm (Fin n)) (out out' : Outcome Exception (List Json)) :
    Prop where
  throws_iff : (∃ e, out = .throw e) ↔ ∃ e, out' = .throw e
  values : ∀ values, out = .ok values →
    ∃ v : Fin n → Json, values = List.ofFn v ∧ out' = .ok (List.ofFn (v ∘ σ))

namespace ServiceClient

variable {χ κ δ : Type} (statusName : UInt32 → String) (prepare : NodeId → Except Exception Unit)
  (results : NodeId → UaDataValue δ) (value : δ → Json)

/-- `readValues2`, with what the server has to say about every node. The node ids are converted
first; the conversion of the values does not throw. -/
def readValues2 (nodes : List NodeId) : ServiceM χ κ (List Json) :=
  readeNodeValues statusName (nodes.forM prepare) ⟨0, nodes.map results⟩ fun v => .ok (value v)

/-- The node cannot be read. -/
def IsBad (node : NodeId) : Prop := isBadStatus (results node).status = true

instance (node : NodeId) : Decidable (IsBad results node) := inferInstanceAs (Decidable (_ = _))

/-- What the nodes' results say if nothing stands in the way. -/
def valuesOf (nodes : List NodeId) : List Json := nodes.map fun node => value (results node).value

/-- What the status of the first result decides. -/
def resultsEnd : List NodeId → Outcome Exception (List Json)
  | [] => .stuck .undefined
  | first :: rest =>
    if IsBad results first then
      .throw (.opcUa ("Received non good status for reading: " ++
        statusName (results first).status))
    else .ok (valuesOf results value (first :: rest))

/-- How `readValues2` ends. -/
def readEnd (nodes : List NodeId) : Outcome Exception (List Json) :=
  match nodes.forM prepare with
  | .error e => .throw e
  | .ok () => resultsEnd statusName results value nodes

/-- A conversion that does not throw is applied to every result. -/
theorem mapM_ok {α β : Type} (f : α → β) :
    ∀ l : List α, (l.mapM fun a => (.ok (f a) : Except Exception β)) = .ok (l.map f)
  | [] => rfl
  | a :: l => by
    rw [List.mapM_cons, mapM_ok f l]
    rfl

theorem run_readValues2 (nodes : List NodeId) (c : ServiceClient χ κ) :
    (readValues2 statusName prepare results value nodes).run c =
      (readEnd statusName prepare results value nodes, c) := by
  have hends : (readValues2 statusName prepare results value nodes).Ends c fun out c' =>
      out = readEnd statusName prepare results value nodes ∧ c' = c := by
    rw [readValues2, readeNodeValues, readEnd, mapM_ok]
    cases hprepared : nodes.forM prepare with
    | error e => simp
    | ok u =>
      cases nodes with
      | nil => simp [Prog.front, resultsEnd]
      | cons first rest =>
        by_cases hbad : IsBad results first
        · have hstatus : isBadStatus (results first).status = true := hbad
          simp [Prog.front, resultsEnd, hbad, hstatus]
        · have hstatus : isBadStatus (results first).status = false := by simpa [IsBad] using hbad
          simp [Prog.front, resultsEnd, hbad, hstatus, valuesOf]
  exact Prod.ext hends.1 hends.2

/-! ### How it ends -/

variable {prepare results value}

/-- All node ids can be converted. -/
theorem forM_prepare_eq_ok_iff {nodes : List NodeId} :
    nodes.forM prepare = .ok () ↔ ∀ node ∈ nodes, prepare node = .ok () := by
  induction nodes with
  | nil => exact iff_of_true rfl (by simp)
  | cons node nodes ih =>
    rw [List.forall_mem_cons, ← ih]
    change (prepare node >>= fun _ => nodes.forM prepare) = .ok () ↔ _
    cases prepare node with
    | error e => exact iff_of_false (fun h => by cases h) (fun h => by cases h.1)
    | ok u => exact (and_iff_right rfl).symm

theorem resultsEnd_eq_ok_iff {nodes : List NodeId} {values : List Json} :
    resultsEnd statusName results value nodes = .ok values ↔
      (∃ first ∈ nodes.head?, ¬ IsBad results first) ∧ values = valuesOf results value nodes := by
  cases nodes with
  | nil => simp [resultsEnd]
  | cons first rest =>
    by_cases hbad : IsBad results first
    · simp [resultsEnd, hbad]
    · simp [resultsEnd, hbad, eq_comm]

theorem resultsEnd_eq_throw_iff {nodes : List NodeId} :
    (∃ e, resultsEnd statusName results value nodes = .throw e) ↔
      ∃ first ∈ nodes.head?, IsBad results first := by
  cases nodes with
  | nil => simp [resultsEnd]
  | cons first rest =>
    by_cases hbad : IsBad results first
    · simp [resultsEnd, hbad]
    · simp [resultsEnd, hbad]

variable (results value) in
/-- A node id that cannot be converted makes the read throw. -/
theorem readEnd_of_not_prepared {nodes : List NodeId} (h : ∃ node ∈ nodes, prepare node ≠ .ok ()) :
    ∃ e, readEnd statusName prepare results value nodes = .throw e := by
  unfold readEnd
  cases hprepared : nodes.forM prepare with
  | error e => exact ⟨e, rfl⟩
  | ok u =>
    obtain ⟨node, hmem, hne⟩ := h
    exact absurd (forM_prepare_eq_ok_iff.mp hprepared node hmem) hne

theorem readEnd_of_prepared {nodes : List NodeId} (h : ∀ node ∈ nodes, prepare node = .ok ()) :
    readEnd statusName prepare results value nodes = resultsEnd statusName results value nodes := by
  unfold readEnd
  rw [forM_prepare_eq_ok_iff.mpr h]

theorem eq_valuesOf_of_readEnd {nodes : List NodeId} {values : List Json}
    (h : readEnd statusName prepare results value nodes = .ok values) :
    values = valuesOf results value nodes := by
  unfold readEnd at h
  cases hprepared : nodes.forM prepare with
  | error e =>
    rw [hprepared] at h
    cases h
  | ok u =>
    rw [hprepared] at h
    exact ((resultsEnd_eq_ok_iff statusName).mp h).2

/-! ### Two orders -/

variable {n : ℕ} (nodes : Fin n → NodeId) (σ : Equiv.Perm (Fin n))

theorem mem_head?_ofFn {α : Type} {f : Fin n → α} {a : α} :
    a ∈ (List.ofFn f).head? ↔ ∃ i : Fin n, i.val = 0 ∧ f i = a := by
  cases n with
  | zero => simp
  | succ n =>
    constructor
    · intro h
      exact ⟨0, rfl, by simpa using h⟩
    · rintro ⟨i, hi, rfl⟩
      have hzero : i = 0 := Fin.ext hi
      simp [hzero]

theorem exists_head?_ofFn {α : Type} {f : Fin n → α} {P : α → Prop} {i : Fin n} (hi : i.val = 0) :
    (∃ a ∈ (List.ofFn f).head?, P a) ↔ P (f i) := by
  constructor
  · rintro ⟨a, ha, hP⟩
    obtain ⟨j, hj, rfl⟩ := mem_head?_ofFn.mp ha
    have hji : j = i := Fin.ext (hj.trans hi.symm)
    rwa [← hji]
  · intro hP
    exact ⟨_, mem_head?_ofFn.mpr ⟨i, hi, rfl⟩, hP⟩

/-- The first results in the two orders are both bad or both not. -/
def FirstAlike (results : NodeId → UaDataValue δ) : Prop :=
  ∀ i : Fin n, i.val = 0 → (IsBad results (nodes i) ↔ IsBad results (nodes (σ i)))

theorem valuesOf_ofFn (nodes : Fin n → NodeId) :
    valuesOf results value (List.ofFn nodes) =
      List.ofFn fun i => value (results (nodes i)).value := by
  rw [valuesOf, List.map_ofFn]
  rfl

/-- The reads of nodes that can all be converted. -/
theorem readsAlike_resultsEnd_iff :
    ReadsAlike σ (resultsEnd statusName results value (List.ofFn nodes))
        (resultsEnd statusName results value (List.ofFn (nodes ∘ σ))) ↔
      FirstAlike nodes σ results := by
  constructor
  · rintro ⟨hthrows, -⟩ i hi
    rw [resultsEnd_eq_throw_iff, resultsEnd_eq_throw_iff, exists_head?_ofFn hi,
      exists_head?_ofFn hi] at hthrows
    exact hthrows
  · intro halike
    constructor
    · rw [resultsEnd_eq_throw_iff, resultsEnd_eq_throw_iff]
      constructor
      · rintro ⟨first, hfirst, hbad⟩
        obtain ⟨i, hi, rfl⟩ := mem_head?_ofFn.mp hfirst
        exact (exists_head?_ofFn hi).mpr ((halike i hi).mp hbad)
      · rintro ⟨first, hfirst, hbad⟩
        obtain ⟨i, hi, rfl⟩ := mem_head?_ofFn.mp hfirst
        exact (exists_head?_ofFn hi).mpr ((halike i hi).mpr hbad)
    · intro values hvalues
      obtain ⟨⟨first, hfirst, hgood⟩, rfl⟩ := (resultsEnd_eq_ok_iff statusName).mp hvalues
      obtain ⟨i, hi, rfl⟩ := mem_head?_ofFn.mp hfirst
      refine ⟨_, valuesOf_ofFn nodes, (resultsEnd_eq_ok_iff statusName).mpr ⟨?_, ?_⟩⟩
      · exact (exists_head?_ofFn hi).mpr (mt (halike i hi).mpr hgood)
      · rw [valuesOf_ofFn]
        rfl

variable (prepare results value)

/-- **When the order of the nodes does not matter**: if and only if some node id cannot be
converted, or the first results in the two orders are both bad or both not. -/
theorem readsAlike_iff :
    ReadsAlike σ (readEnd statusName prepare results value (List.ofFn nodes))
        (readEnd statusName prepare results value (List.ofFn (nodes ∘ σ))) ↔
      (∃ i, prepare (nodes i) ≠ .ok ()) ∨ FirstAlike nodes σ results := by
  have hperm : (List.ofFn (nodes ∘ σ)).Perm (List.ofFn nodes) := σ.ofFn_comp_perm nodes
  by_cases hprepared : ∀ node ∈ List.ofFn nodes, prepare node = .ok ()
  · have hprepared' : ∀ node ∈ List.ofFn (nodes ∘ σ), prepare node = .ok () := fun node hnode =>
      hprepared node (hperm.mem_iff.mp hnode)
    have hnone : ¬ ∃ i, prepare (nodes i) ≠ .ok () := by
      rintro ⟨i, hi⟩
      exact hi (hprepared _ (List.mem_ofFn.mpr ⟨i, rfl⟩))
    rw [readEnd_of_prepared statusName hprepared, readEnd_of_prepared statusName hprepared',
      readsAlike_resultsEnd_iff, or_iff_right hnone]
  · push Not at hprepared
    obtain ⟨node, hnode, hne⟩ := hprepared
    obtain ⟨e, he⟩ := readEnd_of_not_prepared statusName results value ⟨node, hnode, hne⟩
    obtain ⟨e', he'⟩ := readEnd_of_not_prepared statusName results value
      ⟨node, hperm.mem_iff.mpr hnode, hne⟩
    obtain ⟨i, rfl⟩ := List.mem_ofFn.mp hnode
    refine iff_of_true ?_ (.inl ⟨i, hne⟩)
    rw [he, he']
    exact ⟨iff_of_true ⟨e, rfl⟩ ⟨e', rfl⟩, fun values h => by cases h⟩

end ServiceClient

end UmatiDashboard
