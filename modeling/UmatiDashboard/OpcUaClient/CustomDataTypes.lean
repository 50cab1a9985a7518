import Mathlib.Data.List.Induction
import UmatiDashboard.OpcUaClient.Namespaces

/-!
# The namespaces of the companion types

Four tables of types were generated from companion specifications. Each entry has two node ids, and
the client puts the index of the namespace into both whenever it fills the namespace cache. The
tables are global: a client that is constructed after a reset begins with an empty cache, but with
the tables as the last client has left them.

So a table has the index that its namespace had in the last namespace table in which it occurred,
whichever client has read it (`typeTables_after`). While the namespace is in the cache, the two
agree.
-/

namespace UmatiDashboard

/-- The tables of generated types. -/
inductive CompanionTypes where
  | machineryResult
  | tightening
  | gms
  | ijtBase
  deriving DecidableEq

namespace CompanionTypes

def namespaceURI : CompanionTypes → String
  | machineryResult => "http://opcfoundation.org/UA/Machinery/Result/"
  | tightening => "http://opcfoundation.org/UA/IJT/"
  | gms => "http://opcfoundation.org/UA/GMS/"
  | ijtBase => "http://opcfoundation.org/UA/IJT/Base/"

end CompanionTypes

/-- The namespace indices in the two node ids of a type. -/
structure TypeNamespace where
  typeId : UInt16
  binaryEncodingId : UInt16
  deriving DecidableEq

/-- The entries of the tables. -/
abbrev TypeTables : Type := CompanionTypes → List TypeNamespace

/-- The table with an index in all its node ids. -/
def setNamespace (nsIdx : UInt16) (entries : List TypeNamespace) : List TypeNamespace :=
  entries.map fun _ => ⟨nsIdx, nsIdx⟩

/-- Put the index of a namespace into the table that belongs to it. -/
def updateCustomDataTypesNamespace (tables : TypeTables) (namespaceURI : String)
    (namespaceIndex : Nat) : TypeTables :=
  fun types => if namespaceURI = types.namespaceURI
    then setNamespace (UInt16.ofNat namespaceIndex) (tables types) else tables types

/-- The namespace cache of the client in use, and the tables. -/
structure TypedNamespaces where
  namespaces : NamespaceState
  tables : TypeTables

/-- What happens to them. -/
inductive TypedNamespacesStep where
  /-- a client is constructed -/
  | newClient
  /-- the client reads the namespace table -/
  | updateNamespaceCache (uaNamespaces : List String)

namespace TypedNamespaces

/-- `fillNamespaceCache`, as far as the tables go. -/
def fillTables : Nat → List String → NamespaceCache → TypeTables → TypeTables
  | _, [], _, tables => tables
  | i, namespaceURI :: uaNamespaces, cache, tables =>
    fillTables (i + 1) uaNamespaces (cache.addNamespace namespaceURI i)
      (if namespaceURI ∈ cache.uriToIndex then tables
        else updateCustomDataTypesNamespace tables namespaceURI i)

def updateNamespaceCache (s : TypedNamespaces) (uaNamespaces : List String) : TypedNamespaces where
  namespaces := s.namespaces.updateNamespaceCache uaNamespaces
  tables := fillTables 0 uaNamespaces .empty s.tables

def step (s : TypedNamespaces) : TypedNamespacesStep → TypedNamespaces
  | .newClient => { s with namespaces := .initial }
  | .updateNamespaceCache uaNamespaces => s.updateNamespaceCache uaNamespaces

/-- The program after some steps. -/
def after (s : TypedNamespaces) (ks : List TypedNamespacesStep) : TypedNamespaces :=
  Transition.run step s ks

/-- The tables as they were generated, before there is a client. -/
def generated (tables : TypeTables) : TypedNamespaces := ⟨.initial, tables⟩

/-! ### One namespace table -/

section Fill

variable {cache : NamespaceCache} {tables : TypeTables} {types : CompanionTypes}

theorem mem_addNamespace {namespaceURI uri : String} {i : Nat} :
    uri ∈ (cache.addNamespace namespaceURI i).uriToIndex ↔
      uri ∈ cache.uriToIndex ∨ namespaceURI = uri := by
  unfold NamespaceCache.addNamespace
  split_ifs with hmem
  · exact ⟨.inl, fun h => h.elim id fun heq => heq ▸ hmem⟩
  · rw [Std.ExtTreeMap.mem_insert, Std.compare_eq_iff_eq, or_comm]

/-- The index of the first occurrence in the table. -/
theorem uriToIndex_fillNamespaceCache (uaNamespaces : List String) (i : Nat) (uri : String) :
    (NamespaceCache.fillNamespaceCache i uaNamespaces cache).uriToIndex[uri]? =
      (cache.uriToIndex[uri]?.or
        (if uri ∈ uaNamespaces then some (UInt16.ofNat (i + uaNamespaces.idxOf uri))
          else none)) := by
  induction uaNamespaces generalizing cache i with
  | nil => simp [NamespaceCache.fillNamespaceCache]
  | cons namespaceURI rest ih =>
    rw [NamespaceCache.fillNamespaceCache, ih]
    unfold NamespaceCache.addNamespace
    by_cases hmem : namespaceURI ∈ cache.uriToIndex
    · rw [if_pos hmem]
      by_cases heq : namespaceURI = uri
      · subst heq
        obtain ⟨k, hk⟩ := Option.isSome_iff_exists.mp
          (Std.ExtTreeMap.isSome_getElem?_iff_mem.mpr hmem)
        simp [hk]
      · simp only [List.mem_cons, Ne.symm heq, false_or, List.idxOf_cons_ne rest heq,
          Nat.succ_eq_add_one, Nat.add_assoc, Nat.add_comm 1]
    · rw [if_neg hmem]
      by_cases heq : namespaceURI = uri
      · subst heq
        have hnone : cache.uriToIndex[namespaceURI]? = none :=
          Std.ExtTreeMap.getElem?_eq_none hmem
        simp [hnone]
      · have hother : (cache.uriToIndex.insert namespaceURI (UInt16.ofNat i))[uri]? =
            cache.uriToIndex[uri]? := by
          rw [Std.ExtTreeMap.getElem?_insert, if_neg (by simpa using heq)]
        simp only [hother, List.mem_cons, Ne.symm heq, false_or, List.idxOf_cons_ne rest heq,
          Nat.succ_eq_add_one, Nat.add_assoc, Nat.add_comm 1]

/-- A table takes the index of the first occurrence, if its namespace is new to the cache. -/
theorem fillTables_apply (uaNamespaces : List String) (i : Nat) :
    fillTables i uaNamespaces cache tables types =
      if types.namespaceURI ∉ cache.uriToIndex ∧ types.namespaceURI ∈ uaNamespaces
      then setNamespace (UInt16.ofNat (i + uaNamespaces.idxOf types.namespaceURI)) (tables types)
      else tables types := by
  induction uaNamespaces generalizing cache tables i with
  | nil => simp [fillTables]
  | cons namespaceURI rest ih =>
    rw [fillTables, ih]
    simp only [mem_addNamespace]
    by_cases heq : namespaceURI = types.namespaceURI
    · -- whatever follows, the namespace is in the cache now
      rw [if_neg (fun h => h.1 (.inr heq))]
      by_cases hmem : namespaceURI ∈ cache.uriToIndex
      · rw [if_pos hmem, if_neg (fun h => h.1 (heq ▸ hmem))]
      · have hfirst : (namespaceURI :: rest).idxOf types.namespaceURI = 0 := by
          rw [heq, List.idxOf_cons_self]
        rw [if_neg hmem, if_pos ⟨heq ▸ hmem, heq ▸ List.mem_cons_self⟩, hfirst, Nat.add_zero,
          updateCustomDataTypesNamespace, if_pos heq]
    · have hsame : (if namespaceURI ∈ cache.uriToIndex then tables
          else updateCustomDataTypesNamespace tables namespaceURI i) types = tables types := by
        split_ifs
        · rfl
        · rw [updateCustomDataTypesNamespace, if_neg heq]
      simp only [hsame, heq, or_false, List.mem_cons, Ne.symm heq, false_or,
        List.idxOf_cons_ne rest heq, Nat.succ_eq_add_one, Nat.add_assoc, Nat.add_comm 1]

end Fill

/-! ### Every run -/

/-- The index that a step gives to the namespace of the types. -/
def namespaceIndex? (types : CompanionTypes) : TypedNamespacesStep → Option UInt16
  | .newClient => none
  | .updateNamespaceCache uaNamespaces =>
    if types.namespaceURI ∈ uaNamespaces
    then some (UInt16.ofNat (uaNamespaces.idxOf types.namespaceURI)) else none

section Runs

variable {s : TypedNamespaces} {types : CompanionTypes}

theorem tables_updateNamespaceCache (uaNamespaces : List String) :
    (s.updateNamespaceCache uaNamespaces).tables types =
      (namespaceIndex? types (.updateNamespaceCache uaNamespaces)).elim (s.tables types)
        (setNamespace · (s.tables types)) := by
  have hnew : types.namespaceURI ∉ NamespaceCache.empty.uriToIndex := by
    simp [NamespaceCache.empty]
  change fillTables 0 uaNamespaces .empty s.tables types = _
  rw [fillTables_apply, namespaceIndex?, Nat.zero_add]
  by_cases hmem : types.namespaceURI ∈ uaNamespaces
  · rw [if_pos ⟨hnew, hmem⟩, if_pos hmem, Option.elim_some]
  · rw [if_neg (fun h => hmem h.2), if_neg hmem, Option.elim_none]

theorem uriToIndex_updateNamespaceCache (uaNamespaces : List String) :
    (s.updateNamespaceCache uaNamespaces).namespaces.cache.uriToIndex[types.namespaceURI]? =
      namespaceIndex? types (.updateNamespaceCache uaNamespaces) := by
  have hcache : (s.updateNamespaceCache uaNamespaces).namespaces.cache =
      NamespaceCache.fillNamespaceCache 0 uaNamespaces .empty := by
    simp only [updateNamespaceCache, NamespaceState.updateNamespaceCache]
    split_ifs <;> rfl
  rw [hcache, uriToIndex_fillNamespaceCache, namespaceIndex?, Nat.zero_add]
  simp [NamespaceCache.empty]

/-- Where the cache has an index, the table has it as well. -/
def Agree (s : TypedNamespaces) : Prop :=
  ∀ (types : CompanionTypes) (i : UInt16),
    s.namespaces.cache.uriToIndex[types.namespaceURI]? = some i → ∀ e ∈ s.tables types, e = ⟨i, i⟩

theorem agree_step (s : TypedNamespaces) (k : TypedNamespacesStep) : (s.step k).Agree := by
  intro types i hi e he
  cases k with
  | newClient => simp [TypedNamespaces.step, NamespaceState.initial, NamespaceCache.empty] at hi
  | updateNamespaceCache uaNamespaces =>
    rw [TypedNamespaces.step, uriToIndex_updateNamespaceCache] at hi
    rw [TypedNamespaces.step, tables_updateNamespaceCache, hi, Option.elim_some, setNamespace] at he
    obtain ⟨-, -, rfl⟩ := List.mem_map.mp he
    rfl

theorem tables_step (k : TypedNamespacesStep) :
    (s.step k).tables types = (namespaceIndex? types k).elim (s.tables types)
      (setNamespace · (s.tables types)) := by
  cases k with
  | newClient => rfl
  | updateNamespaceCache uaNamespaces => exact tables_updateNamespaceCache uaNamespaces

@[simp] theorem setNamespace_setNamespace (i j : UInt16) (entries : List TypeNamespace) :
    setNamespace i (setNamespace j entries) = setNamespace i entries := by
  simp [setNamespace]

end Runs

/-- **The indices of the companion types.** After every run, over any number of clients, a table
has in all its node ids the index that its namespace had in the last namespace table in which it
occurred; without one it is as it was generated. As long as the namespace is in the cache of the
client, this is the index that the cache has. -/
theorem typeTables_after (tables : TypeTables) (ks : List TypedNamespacesStep)
    (types : CompanionTypes) :
    ((generated tables).after ks).tables types =
        (ks.filterMap (namespaceIndex? types)).getLast?.elim (tables types)
          (setNamespace · (tables types)) ∧
      ∀ i, ((generated tables).after ks).namespaces.cache.uriToIndex[types.namespaceURI]? = some i →
        ∀ e ∈ ((generated tables).after ks).tables types, e = ⟨i, i⟩ := by
  constructor
  · induction ks using List.reverseRecOn with
    | nil => rfl
    | append_singleton ks k ih =>
      have hlast : (generated tables).after (ks ++ [k]) = ((generated tables).after ks).step k := by
        simp [after, Transition.run]
      rw [hlast, tables_step, ih, List.filterMap_append]
      cases hk : namespaceIndex? types k with
      | none => simp [hk]
      | some i =>
        rw [List.filterMap_cons_some hk, List.filterMap_nil, List.getLast?_concat,
          Option.elim_some, Option.elim_some]
        cases (ks.filterMap (namespaceIndex? types)).getLast? with
        | none => rfl
        | some j => exact setNamespace_setNamespace i j _
  · have hstart : (generated tables).Agree := by
      intro types i hi
      simp [generated, NamespaceState.initial, NamespaceCache.empty] at hi
    have h : ((generated tables).after ks).Agree :=
      Transition.run_of_invariant (fun s k _ => agree_step s k) hstart
    exact h types

end TypedNamespaces

end UmatiDashboard
