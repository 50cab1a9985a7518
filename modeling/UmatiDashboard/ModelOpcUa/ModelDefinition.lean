import Mathlib.Data.List.Basic

/-!
# Identifiers and node definitions

The vocabulary of an OPC UA address space as the gateway keeps it: node identifiers and
qualified names with their namespace given as a URI, modelling rules and node classes, and
one reference of a Browse answer.

`NodeId` has two notions of identity. The C++ `operator==` reads an empty URI as the OPC UA
namespace and is `NodeId.equals` here; the ordered containers use `operator<`, which compares
the two strings lexicographically, so their keys are identified by plain equality. The
containers keyed by identifiers are the ordered tables `NodeMap` and `NodeSet`.
-/

namespace UmatiDashboard

/-! ### Identifiers -/

/-- A node identifier; `id` has the form `i=10`. -/
structure NodeId where
  uri : String
  id : String
  deriving DecidableEq, Inhabited

namespace NodeId

/-- The URI that `operator==` reads for an empty one. -/
def defaultUri : String := "http://opcfoundation.org/UA/"

/-- The null identifier has neither a URI nor an identifier. -/
def isNull (n : NodeId) : Bool := n.uri.isEmpty && n.id.isEmpty

/-- The string form of an identifier. -/
def toString (n : NodeId) : String :=
  (if n.uri.isEmpty then "" else "nsu=" ++ n.uri ++ ";") ++
    (if n.id.isEmpty then "i=0" else n.id)

/-- The URI with the default filled in. -/
def cmpUri (n : NodeId) : String := if n.uri = "" then defaultUri else n.uri

/-- The C++ `operator==`. -/
def equals (a b : NodeId) : Bool := a.cmpUri == b.cmpUri && a.id == b.id

@[simp] theorem equals_self (a : NodeId) : a.equals a = true := by simp [equals]

/-- The C++ `operator<`: by URI, then by identifier. -/
instance : Ord NodeId := ⟨compareLex (compareOn NodeId.uri) (compareOn NodeId.id)⟩

instance : Std.TransOrd NodeId :=
  inferInstanceAs (Std.TransCmp (compareLex (compareOn NodeId.uri) (compareOn NodeId.id)))

/-- The containers identify exactly the identifiers with equal URI and equal identifier. -/
instance : Std.LawfulEqOrd NodeId where
  eq_of_compare {a b} h := by
    have h' := compareLex_eq_eq.mp
      (show compareLex (compareOn NodeId.uri) (compareOn NodeId.id) a b = .eq from h)
    cases a
    cases b
    simpa [compareOn] using h'

end NodeId

/-- `std::map<NodeId_t, β>`. -/
abbrev NodeMap (β : Type) : Type := Std.ExtTreeMap NodeId β compare

/-- `std::set<NodeId_t>`. -/
abbrev NodeSet : Type := Std.ExtTreeSet NodeId compare

theorem NodeMap.mem_of_getElem? {β : Type} {m : NodeMap β} {n : NodeId} {v : β}
    (h : m[n]? = some v) : n ∈ m :=
  Std.ExtTreeMap.isSome_getElem?_iff_mem.mp (by rw [h]; rfl)

/-- Erasing a key that is not there changes nothing. -/
theorem NodeMap.erase_of_notMem {β : Type} {m : NodeMap β} {n : NodeId} (h : n ∉ m) :
    Std.ExtTreeMap.erase m n = m :=
  Std.ExtTreeMap.ext_getElem? fun k => by
    rw [Std.ExtTreeMap.getElem?_erase]
    split_ifs with hk
    · obtain rfl := Std.LawfulEqOrd.eq_of_compare hk
      exact (Std.ExtTreeMap.getElem?_eq_none h).symm
    · rfl

/-- Inserting a key that is there already changes nothing. -/
theorem NodeMap.insertIfNew_of_mem {β : Type} {m : NodeMap β} {n : NodeId} (h : n ∈ m) (v : β) :
    Std.ExtTreeMap.insertIfNew m n v = m :=
  Std.ExtTreeMap.ext_getElem? fun k => by
    rw [Std.ExtTreeMap.getElem?_insertIfNew]
    split_ifs with hk
    · obtain rfl := Std.LawfulEqOrd.eq_of_compare hk.1
      exact absurd h hk.2
    · rfl

/-- A browse name with its namespace. -/
structure QualifiedName where
  uri : String
  name : String
  deriving DecidableEq, Inhabited

namespace QualifiedName

def isNull (q : QualifiedName) : Bool := q.uri.isEmpty && q.name.isEmpty

/-- The string form of a qualified name. -/
def toString (q : QualifiedName) : String :=
  (if q.uri.isEmpty then "" else "nsu=" ++ q.uri ++ ";") ++ q.name

end QualifiedName

/-! ### Node definitions -/

inductive ModellingRule where
  | none
  | optional
  | mandatory
  | optionalPlaceholder
  | mandatoryPlaceholder
  deriving DecidableEq, Inhabited

inductive NodeClass where
  | object
  | variable
  | method
  | objectType
  | variableType
  | referenceType
  | dataType
  | view
  deriving DecidableEq, Inhabited

/-- One reference of a Browse answer. -/
structure BrowseResult where
  nodeClass : NodeClass
  nodeId : NodeId
  typeDefinition : NodeId
  referenceTypeId : NodeId
  browseName : QualifiedName
  deriving DecidableEq, Inhabited

/-- What a type says about one of its nodes. -/
structure NodeDefinition where
  modellingRule : ModellingRule
  nodeClass : NodeClass
  referenceType : NodeId
  specifiedTypeNodeId : NodeId
  specifiedBrowseName : QualifiedName
  deriving DecidableEq, Inhabited

/-! ### Well-known identifiers -/

namespace WellKnown

def ns0Uri : String := "http://opcfoundation.org/UA/"
def nsUriMachinery : String := "http://opcfoundation.org/UA/Machinery/"

def hasComponent : NodeId := ⟨ns0Uri, "i=47"⟩
def hierarchicalReferences : NodeId := ⟨ns0Uri, "i=33"⟩
def hasTypeDefinition : NodeId := ⟨ns0Uri, "i=40"⟩
def hasInterface : NodeId := ⟨ns0Uri, "i=17603"⟩
def baseVariableType : NodeId := ⟨"", "i=63"⟩
def propertyType : NodeId := ⟨"", "i=68"⟩
def baseObjectType : NodeId := ⟨ns0Uri, "i=58"⟩
def folder : NodeId := ⟨ns0Uri, "i=61"⟩
def functionalGroup : NodeId := ⟨"http://opcfoundation.org/UA/DI/", "i=1005"⟩
def undefinedType : NodeId := ⟨ns0Uri, "i=0"⟩
def missingType : NodeId := ⟨"", "i=0"⟩
def machinesFolder : NodeId := ⟨nsUriMachinery, "i=1001"⟩
def componentsFolder : QualifiedName := ⟨nsUriMachinery, "Components"⟩

end WellKnown

end UmatiDashboard
