import Mathlib.Data.List.Basic
import UmatiDashboard.Effect.Transition
import UmatiDashboard.ModelOpcUa.ModelDefinition

/-!
# The namespace cache

The server numbers its namespaces, and identifiers travel with the number while the gateway keeps
them with the URI. The client caches the translation in both directions and reads it anew
whenever a service call hints at a change. A change of the direction from indices to URIs issues a
reset; the other direction is not compared.

The two directions are inverse to one another, so a client that was not reset keeps both.
-/

namespace UmatiDashboard

/-- The two directions of the translation. -/
structure NamespaceCache where
  uriToIndex : Std.ExtTreeMap String UInt16 compare
  indexToUri : Std.ExtTreeMap UInt16 String compare

namespace NamespaceCache

/-- `initializeNamespaceCache` clears both directions. -/
def empty : NamespaceCache := ⟨∅, ∅⟩

variable (cache : NamespaceCache)

/-! ### Lookups -/

/-- The URI of a namespace; namespace zero has the empty one, and so has an unknown one. -/
def getUriFromNsIndex (nsIndex : UInt16) : String :=
  if nsIndex = 0 then "" else cache.indexToUri[nsIndex]?.getD ""

/-- The index of a namespace; the empty URI is that of namespace zero, and so is an unknown one. -/
def getNsIndexFromUri (uri : String) : UInt16 :=
  if uri.isEmpty then 0 else cache.uriToIndex[uri]?.getD 0

/-- The URIs, in the order of their indices. -/
def namespaces : List String := cache.indexToUri.toList.map Prod.snd

/-! ### Updates -/

/-- One round of filling the cache; a URI that is there already is skipped. -/
def addNamespace (namespaceURI : String) (i : Nat) : NamespaceCache :=
  if namespaceURI ∈ cache.uriToIndex then cache
  else { uriToIndex := cache.uriToIndex.insert namespaceURI (UInt16.ofNat i)
         indexToUri := cache.indexToUri.insert (UInt16.ofNat i) namespaceURI }

/-- Fill the cache from a namespace table, starting with the index `i`. -/
def fillNamespaceCache : Nat → List String → NamespaceCache → NamespaceCache
  | _, [], cache => cache
  | i, namespaceURI :: uaNamespaces, cache =>
    fillNamespaceCache (i + 1) uaNamespaces (cache.addNamespace namespaceURI i)

/-- Every old entry is there and unchanged. -/
def verifyCompatibleNamespaceCache (oldIndexToUriCache : Std.ExtTreeMap UInt16 String compare) :
    Bool :=
  oldIndexToUriCache.toList.all fun pair => cache.indexToUri[pair.1]? == some pair.2

end NamespaceCache

/-- The cache, and how often a reset was issued. -/
structure NamespaceState where
  cache : NamespaceCache
  resets : Nat

namespace NamespaceState

/-- Read the namespace table anew. -/
def updateNamespaceCache (s : NamespaceState) (uaNamespaces : List String) : NamespaceState :=
  let cache := NamespaceCache.fillNamespaceCache 0 uaNamespaces .empty
  if cache.verifyCompatibleNamespaceCache s.cache.indexToUri then { s with cache := cache }
  else { cache := cache, resets := s.resets + 1 }

end NamespaceState

/-! ### The two directions are inverse -/

namespace NamespaceCache

variable {cache : NamespaceCache}

/-- Each direction undoes the other one. -/
def Inverse (cache : NamespaceCache) : Prop :=
  ∀ (uri : String) (i : UInt16),
    cache.uriToIndex[uri]? = some i ↔ cache.indexToUri[i]? = some uri

/-- The indices that are taken are below the next one. -/
def Below (cache : NamespaceCache) (next : Nat) : Prop :=
  ∀ i ∈ cache.indexToUri, i.toNat < next

theorem inverse_empty : Inverse empty := by
  intro uri i
  simp [empty]

theorem below_empty (next : Nat) : Below empty next := by
  intro i hi
  simp [empty] at hi

/-- Adding a namespace under the next index keeps the two directions inverse. -/
theorem Inverse.addNamespace (h : cache.Inverse) {i : Nat} (hbelow : cache.Below i)
    (hi : i < 65536) (namespaceURI : String) :
    (cache.addNamespace namespaceURI i).Inverse ∧
      (cache.addNamespace namespaceURI i).Below (i + 1) := by
  unfold NamespaceCache.addNamespace
  split_ifs with hmem
  · exact ⟨h, fun k hk => Nat.lt_succ_of_lt (hbelow k hk)⟩
  have htoNat : (UInt16.ofNat i).toNat = i := UInt16.toNat_ofNat_of_lt' hi
  -- the index is free, since the indices that are taken are smaller
  have hfree : UInt16.ofNat i ∉ cache.indexToUri := by
    intro hin
    have hlt := hbelow _ hin
    omega
  have huri : cache.uriToIndex[namespaceURI]? = none := Std.ExtTreeMap.getElem?_eq_none hmem
  have hindex : cache.indexToUri[UInt16.ofNat i]? = none := Std.ExtTreeMap.getElem?_eq_none hfree
  constructor
  · intro uri k
    simp only [Std.ExtTreeMap.getElem?_insert, Std.compare_eq_iff_eq]
    by_cases hu : namespaceURI = uri
    · subst hu
      by_cases hk : UInt16.ofNat i = k
      · simp [hk]
      · simp [hk, ← h namespaceURI k, huri]
    · by_cases hk : UInt16.ofNat i = k
      · subst hk
        simp [hu, h uri (UInt16.ofNat i), hindex]
      · simp [hu, hk, h uri k]
  · intro k hk
    rw [Std.ExtTreeMap.mem_insert, Std.compare_eq_iff_eq] at hk
    rcases hk with rfl | hk
    · omega
    · exact Nat.lt_succ_of_lt (hbelow k hk)

/-- A cache that was filled from a table of at most 65536 URIs. -/
theorem inverse_fillNamespaceCache (uaNamespaces : List String) (i : Nat) (h : cache.Inverse)
    (hbelow : cache.Below i) (hsize : i + uaNamespaces.length ≤ 65536) :
    (fillNamespaceCache i uaNamespaces cache).Inverse := by
  induction uaNamespaces generalizing cache i with
  | nil => exact h
  | cons namespaceURI rest ih =>
    rw [List.length_cons] at hsize
    obtain ⟨hinv, hnext⟩ := h.addNamespace hbelow (by omega) namespaceURI
    exact ih (i + 1) hinv hnext (by omega)

/-- Every old entry is found again. -/
theorem verifyCompatibleNamespaceCache_iff {old : Std.ExtTreeMap UInt16 String compare} :
    cache.verifyCompatibleNamespaceCache old = true ↔
      ∀ (i : UInt16) (uri : String), old[i]? = some uri → cache.indexToUri[i]? = some uri := by
  simp [verifyCompatibleNamespaceCache, Std.ExtTreeMap.mem_toList_iff_getElem?_eq_some]

end NamespaceCache

/-! ### Lookups stay the same -/

namespace NamespaceCache

/-- Both directions of the second cache extend those of the first one. -/
def Extends (old new : NamespaceCache) : Prop :=
  (∀ (i : UInt16) (uri : String), old.indexToUri[i]? = some uri → new.indexToUri[i]? = some uri) ∧
    ∀ (uri : String) (i : UInt16), old.uriToIndex[uri]? = some i → new.uriToIndex[uri]? = some i

variable {old new later : NamespaceCache}

theorem Extends.refl (cache : NamespaceCache) : cache.Extends cache :=
  ⟨fun _ _ h => h, fun _ _ h => h⟩

theorem Extends.trans (h : old.Extends new) (h' : new.Extends later) : old.Extends later :=
  ⟨fun i uri hi => h'.1 i uri (h.1 i uri hi), fun uri i hu => h'.2 uri i (h.2 uri i hu)⟩

/-- For inverse caches one direction is enough. -/
theorem Inverse.extends (hold : old.Inverse) (hnew : new.Inverse)
    (h : ∀ (i : UInt16) (uri : String),
      old.indexToUri[i]? = some uri → new.indexToUri[i]? = some uri) : old.Extends new := by
  refine ⟨h, fun uri i hu => ?_⟩
  have hi : old.indexToUri[i]? = some uri := (hold uri i).mp hu
  exact (hnew uri i).mpr (h i uri hi)

/-- A lookup that found an entry finds it in every extension. -/
theorem Extends.getUriFromNsIndex (h : old.Extends new) {nsIndex : UInt16}
    (hfound : nsIndex ∈ old.indexToUri) :
    nsIndex ∈ new.indexToUri ∧ new.getUriFromNsIndex nsIndex = old.getUriFromNsIndex nsIndex := by
  obtain ⟨uri, huri⟩ := Option.isSome_iff_exists.mp
    (Std.ExtTreeMap.isSome_getElem?_iff_mem.mpr hfound)
  have huri' : new.indexToUri[nsIndex]? = some uri := h.1 nsIndex uri huri
  refine ⟨Std.ExtTreeMap.isSome_getElem?_iff_mem.mp (by rw [huri']; rfl), ?_⟩
  rw [NamespaceCache.getUriFromNsIndex, NamespaceCache.getUriFromNsIndex, huri, huri']

theorem Extends.getNsIndexFromUri (h : old.Extends new) {uri : String}
    (hfound : uri ∈ old.uriToIndex) :
    uri ∈ new.uriToIndex ∧ new.getNsIndexFromUri uri = old.getNsIndexFromUri uri := by
  obtain ⟨i, hi⟩ := Option.isSome_iff_exists.mp
    (Std.ExtTreeMap.isSome_getElem?_iff_mem.mpr hfound)
  have hi' : new.uriToIndex[uri]? = some i := h.2 uri i hi
  refine ⟨Std.ExtTreeMap.isSome_getElem?_iff_mem.mp (by rw [hi']; rfl), ?_⟩
  rw [NamespaceCache.getNsIndexFromUri, NamespaceCache.getNsIndexFromUri, hi, hi']

end NamespaceCache

namespace NamespaceState

/-- A client before its first connect. -/
def initial : NamespaceState := ⟨.empty, 0⟩

/-- The client after it has read some namespace tables. -/
def after (s : NamespaceState) (tables : List (List String)) : NamespaceState :=
  Transition.run updateNamespaceCache s tables

variable {s : NamespaceState}

/-- The cache is inverse after an update, and extends the one before unless a reset was issued. -/
theorem updateNamespaceCache_spec (h : s.cache.Inverse) {uaNamespaces : List String}
    (hsize : uaNamespaces.length ≤ 65536) :
    (s.updateNamespaceCache uaNamespaces).cache.Inverse ∧
      s.resets ≤ (s.updateNamespaceCache uaNamespaces).resets ∧
      ((s.updateNamespaceCache uaNamespaces).resets = s.resets →
        s.cache.Extends (s.updateNamespaceCache uaNamespaces).cache) := by
  have hinv : (NamespaceCache.fillNamespaceCache 0 uaNamespaces .empty).Inverse :=
    NamespaceCache.inverse_fillNamespaceCache uaNamespaces 0 NamespaceCache.inverse_empty
      (NamespaceCache.below_empty 0) (by omega)
  unfold updateNamespaceCache
  dsimp only
  split_ifs with hcompatible
  · have hextends := NamespaceCache.verifyCompatibleNamespaceCache_iff.mp hcompatible
    exact ⟨hinv, Nat.le_refl _, fun _ => h.extends hinv hextends⟩
  · exact ⟨hinv, Nat.le_succ _, fun hsame => absurd hsame (Nat.succ_ne_self _)⟩

/-- The same for a run of updates. -/
theorem after_spec (tables : List (List String)) (h : s.cache.Inverse)
    (hsize : ∀ uaNamespaces ∈ tables, uaNamespaces.length ≤ 65536) :
    (s.after tables).cache.Inverse ∧ s.resets ≤ (s.after tables).resets ∧
      ((s.after tables).resets = s.resets → s.cache.Extends (s.after tables).cache) := by
  induction tables generalizing s with
  | nil => exact ⟨h, Nat.le_refl _, fun _ => .refl _⟩
  | cons uaNamespaces rest ih =>
    obtain ⟨hinv, hle, hstep⟩ := updateNamespaceCache_spec h (hsize _ List.mem_cons_self)
    obtain ⟨hinv', hle', hrest⟩ := ih hinv fun t ht => hsize t (List.mem_cons_of_mem _ ht)
    refine ⟨hinv', Nat.le_trans hle hle', fun hsame => ?_⟩
    have hmid : (s.updateNamespaceCache uaNamespaces).resets = s.resets :=
      Nat.le_antisymm (hsame ▸ hle') hle
    exact (hstep hmid).trans (hrest (hsame.trans hmid.symm))

/-- **Namespace translations are stable until a reset.** What a lookup has found after some
updates it finds after every later one, unless a reset was issued since. -/
theorem lookups_stable (tables later : List (List String))
    (hsize : ∀ uaNamespaces ∈ tables ++ later, uaNamespaces.length ≤ 65536)
    (hreset : (initial.after (tables ++ later)).resets = (initial.after tables).resets) :
    (∀ nsIndex ∈ (initial.after tables).cache.indexToUri,
      nsIndex ∈ (initial.after (tables ++ later)).cache.indexToUri ∧
        (initial.after (tables ++ later)).cache.getUriFromNsIndex nsIndex =
          (initial.after tables).cache.getUriFromNsIndex nsIndex) ∧
      ∀ uri ∈ (initial.after tables).cache.uriToIndex,
        uri ∈ (initial.after (tables ++ later)).cache.uriToIndex ∧
          (initial.after (tables ++ later)).cache.getNsIndexFromUri uri =
            (initial.after tables).cache.getNsIndexFromUri uri := by
  have happend : initial.after (tables ++ later) = (initial.after tables).after later :=
    List.foldl_append
  rw [happend] at hreset ⊢
  have hinv : (initial.after tables).cache.Inverse :=
    (after_spec tables NamespaceCache.inverse_empty
      fun t ht => hsize t (List.mem_append_left _ ht)).1
  have hextends : (initial.after tables).cache.Extends ((initial.after tables).after later).cache :=
    (after_spec later hinv fun t ht => hsize t (List.mem_append_right _ ht)).2.2 hreset
  exact ⟨fun nsIndex h => hextends.getUriFromNsIndex h, fun uri h => hextends.getNsIndexFromUri h⟩

/-- A server that gets a further namespace. -/
theorem lookups_stable_furtherNamespace :
    (∀ nsIndex ∈ (initial.after [["ua", "a"]]).cache.indexToUri,
      nsIndex ∈ (initial.after ([["ua", "a"]] ++ [["ua", "a", "b", "a"]])).cache.indexToUri ∧
        (initial.after ([["ua", "a"]] ++ [["ua", "a", "b", "a"]])).cache.getUriFromNsIndex nsIndex =
          (initial.after [["ua", "a"]]).cache.getUriFromNsIndex nsIndex) ∧
      ∀ uri ∈ (initial.after [["ua", "a"]]).cache.uriToIndex,
        uri ∈ (initial.after ([["ua", "a"]] ++ [["ua", "a", "b", "a"]])).cache.uriToIndex ∧
          (initial.after ([["ua", "a"]] ++ [["ua", "a", "b", "a"]])).cache.getNsIndexFromUri uri =
            (initial.after [["ua", "a"]]).cache.getNsIndexFromUri uri :=
  lookups_stable [["ua", "a"]] [["ua", "a", "b", "a"]] (by decide) (by decide +kernel)

end NamespaceState

end UmatiDashboard
