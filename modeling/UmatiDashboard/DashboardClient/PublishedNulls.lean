import UmatiDashboard.DashboardClient.LosslessJson
import UmatiDashboard.DashboardClient.RenderedElements
import UmatiDashboard.Util.JsonNulls

/-!
# Nulls in the published JSON

A child whose JSON is written as null gets no member. Two other places do not look at what they
insert: a variable with child nodes keeps its value in the member `value`, null or not, and every
instance of a placeholder gets a member. `Place` names the places in the JSON of a tree at which its
nodes are rendered; with it, nothing is published for variables without value exactly if none that
has a place has child nodes or is an instance of a placeholder (`publishesNoNulls_iff`).
-/

namespace UmatiDashboard

namespace ModelToJson

open Node

variable {v : NodePtr → Json}

theorem rendersNoChild_iff : ∀ {visited : List QualifiedName} {ns : List Node},
    rendersNoChild v {} visited ns = true ↔
      ∀ n ∈ firstNamed visited ns, rendersNull v {} n = true
  | _, [] => by simp [rendersNoChild, firstNamed]
  | visited, n :: ns => by
    rw [rendersNoChild, firstNamed]
    split_ifs
    · exact rendersNoChild_iff
    · simp [rendersNoChild_iff]

/-! ### Places in the JSON -/

/-- The child whose JSON is the member under its name: the last one that is not written as null. -/
def LastChild (v : NodePtr → Json) (childNodes : List Node) (n : Node) : Prop :=
  Json.LastNamed bareName (fun n => !rendersNull v {} n) (firstNamed [] childNodes) n

/-- The instance whose JSON is the member under its name. -/
def LastInstance (instances : List (PlaceholderElement Node)) (el : PlaceholderElement Node) :
    Prop :=
  Json.LastNamed (fun el => el.browseName.name) (fun _ => true) instances el

/-- The node `x` is rendered at the path in the JSON of `n`, which is that of an instance of a
placeholder if `element` is set and has a further member then. -/
inductive Place (v : NodePtr → Json) : Bool → Node → List String → Node → Prop where
  | here (element : Bool) (n : Node) : Place v element n [] n
  | property {element : Bool} {d : NodeDefinition} {ptr : NodePtr} {nodeId typeNodeId : NodeId}
      {b : Bool} {childNodes : List Node} {n : Node} {path : List String} {x : Node}
      (hrule : isSimpleRule d.modellingRule = true)
      (hbase : isBaseDataVariableType d.nodeClass nodeId = true)
      (hlast : LastChild v childNodes n) (h : Place v false n path x) :
      Place v element (.simple d ptr nodeId typeNodeId b childNodes)
        ("properties" :: n.bareName :: path) x
  | child {element : Bool} {d : NodeDefinition} {ptr : NodePtr} {nodeId typeNodeId : NodeId}
      {b : Bool} {childNodes : List Node} {n : Node} {path : List String} {x : Node}
      (hrule : isSimpleRule d.modellingRule = true)
      (hbase : isBaseDataVariableType d.nodeClass nodeId = false)
      (hlast : LastChild v childNodes n)
      (hkey : element = true → n.bareName ≠ typeDefinitionKey) (h : Place v false n path x) :
      Place v element (.simple d ptr nodeId typeNodeId b childNodes) (n.bareName :: path) x
  | element {element : Bool} {d : NodeDefinition} {instances : List (PlaceholderElement Node)}
      {el : PlaceholderElement Node} {path : List String} {x : Node}
      (hrule : isPlaceholderRule d.modellingRule = true)
      (hlast : LastInstance instances el)
      (hkey : element = true → el.browseName.name ≠ typeDefinitionKey)
      (h : Place v true el.pNode path x) :
      Place v element (.placeholder d instances) (el.browseName.name :: path) x

/-- A child that has no member is written as null. -/
theorem memberJson_eq_null_iff_rendersNull {n : Node} {m : Json} (h : memberJson v n = .ok m) :
    m = .null ↔ rendersNull v {} n = true := by
  obtain ⟨j, hj, -, rfl⟩ := memberJson_eq_ok h
  rw [← ((okIff_modelToJson n).2 j hj).dumpsNull]
  split_ifs with hnull
  · exact iff_of_true rfl hnull
  · exact iff_of_false (fun heq => hnull (heq ▸ rfl)) hnull

theorem LastChild.ne_null {childNodes : List Node} {n : Node} (h : LastChild v childNodes n)
    {m : Json} (hm : memberJson v n = .ok m) : m ≠ .null := by
  have hwrites := h.1
  rw [Ne, memberJson_eq_null_iff_rendersNull hm]
  simpa using hwrites

/-- The last child of its name has its JSON as a member. -/
theorem LastChild.modelToJson_eq {childNodes : List Node} {n : Node}
    (h : LastChild v childNodes n) {m : Json} (hm : memberJson v n = .ok m) :
    modelToJson v {} n = .ok m := modelToJson_of_memberJson hm (h.ne_null hm)

/-! ### The members of children and of instances -/

section Members

variable {element : Bool} {typeDefinition : NodeId} {key : String} {j : Json}

theorem lasts_elementTail :
    Json.Lasts (elementTail element typeDefinition) key j ↔
      element = true ∧ key = typeDefinitionKey ∧ j = .string typeDefinition.toString := by
  cases element with
  | false => simp [elementTail, Json.Lasts]
  | true =>
    simp only [elementTail, if_true, Json.lasts_cons]
    constructor
    · rintro (⟨heq, -, -⟩ | hlasts)
      · cases heq
        exact ⟨trivial, rfl, rfl⟩
      · obtain ⟨-, before, after, heq, -⟩ := hlasts
        simp at heq
    · rintro ⟨-, rfl, rfl⟩
      exact Or.inl ⟨rfl, by simp, fun y hy => absurd hy List.not_mem_nil⟩

/-- Members followed by the further one. -/
theorem lasts_append_elementTail {xs : List (String × Except Exception Json)} :
    Json.Lasts (xs ++ elementTail element typeDefinition) key j ↔
      (Json.Lasts xs key j ∧ (element = true → key ≠ typeDefinitionKey)) ∨
        (element = true ∧ key = typeDefinitionKey ∧ j = .string typeDefinition.toString) := by
  rw [Json.lasts_append, lasts_elementTail]
  cases element with
  | false => simp [elementTail]
  | true =>
    simp only [elementTail, if_true, List.mem_singleton, forall_eq, true_implies]
    refine or_congr_left (and_congr_right fun _ => ?_)
    constructor
    · intro h hkey
      cases h hkey.symm
    · intro hne hkey
      exact absurd hkey.symm hne

theorem lasts_childEntries {childNodes : List Node} {members result : List (String × Json)}
    {ys : List (String × Except Exception Json)}
    (h : Json.putMembers members (childEntries v (firstNamed [] childNodes) ++ ys) = .ok result) :
    Json.Lasts (childEntries v (firstNamed [] childNodes)) key j ↔
      ∃ n, LastChild v childNodes n ∧ n.bareName = key ∧ memberJson v n = .ok j := by
  refine Json.lasts_map_iff fun n hn => ?_
  obtain ⟨jn, hjn⟩ := Json.ok_of_mem_putMembers h (n.bareName, memberJson v n)
    (List.mem_append_left _ (List.mem_map_of_mem hn))
  refine ⟨jn, hjn, ?_⟩
  rw [memberJson_eq_null_iff_rendersNull hjn]
  simp

theorem lasts_instanceEntries {instances : List (PlaceholderElement Node)}
    {members result : List (String × Json)} {ys : List (String × Except Exception Json)}
    (h : Json.putMembers members (instanceEntries v instances ++ ys) = .ok result) :
    Json.Lasts (instanceEntries v instances) key j ↔
      ∃ el, LastInstance instances el ∧ el.browseName.name = key ∧
        jsonAs true el.typeDefinition v el.pNode = .ok j := by
  refine Json.lasts_map_iff fun el hel => ?_
  obtain ⟨jel, hjel⟩ := Json.ok_of_mem_putMembers h
    (el.browseName.name, elementJson v el.typeDefinition el.pNode)
    (List.mem_append_left _ (List.mem_map_of_mem hel))
  exact ⟨jel, hjel, by simp [elementJson_ne_null hjel]⟩

/-- Of a node whose children have no JSON no child has a member. -/
theorem not_lastChild_of_rendersNoChild {childNodes : List Node} {n : Node}
    (hnone : rendersNoChild v {} [] childNodes = true) : ¬ LastChild v childNodes n := by
  intro hlast
  have hnull := rendersNoChild_iff.mp hnone n hlast.mem
  have hwrites := hlast.1
  simp [hnull] at hwrites

/-- The JSON of a simple node has the members of its children. -/
theorem exists_members_of_jsonAs {d : NodeDefinition} (hrule : isSimpleRule d.modellingRule = true)
    {ptr : NodePtr} {nodeId typeNodeId : NodeId} {b : Bool} {childNodes : List Node} {j : Json}
    (hj : jsonAs element typeDefinition v (.simple d ptr nodeId typeNodeId b childNodes) = .ok j) :
    ∃ members, Json.putMembers [] (childEntries v (firstNamed [] childNodes)) = .ok members ∧
      finish element typeDefinition
        (nodeJson d.nodeClass nodeId (v ptr) (!childNodes.isEmpty) members) = .ok j := by
  rw [jsonAs, modelToJson_firstNamed hrule] at hj
  cases hmembers : Json.putMembers [] (childEntries v (firstNamed [] childNodes)) with
  | error e =>
    rw [hmembers] at hj
    cases hj
  | ok members =>
    rw [hmembers] at hj
    exact ⟨members, rfl, hj⟩

/-- The JSON of a variable that keeps its value beside its children. -/
theorem jsonAs_base {d : NodeDefinition} (hrule : isSimpleRule d.modellingRule = true)
    {ptr : NodePtr} {nodeId typeNodeId : NodeId} {b : Bool} {childNodes : List Node}
    (hbase : (isBaseDataVariableType d.nodeClass nodeId && !childNodes.isEmpty) = true)
    {j : Json}
    (hj : jsonAs element typeDefinition v (.simple d ptr nodeId typeNodeId b childNodes) = .ok j) :
    ∃ members result, Json.putMembers [] (childEntries v (firstNamed [] childNodes)) = .ok members ∧
      Json.putMembers (valueMembers (v ptr) members) (elementTail element typeDefinition) =
        .ok result ∧ j = .ofMembers result := by
  obtain ⟨members, hmembers, hj⟩ := exists_members_of_jsonAs hrule hj
  rw [nodeJson_of_base hbase, finish_ofMembers] at hj
  obtain ⟨result, hresult, rfl⟩ := map_ofMembers_eq_ok hj
  exact ⟨members, result, hmembers, hresult, rfl⟩

/-- The JSON of a node that does not show a value of its own. -/
theorem jsonAs_plain {d : NodeDefinition} (hrule : isSimpleRule d.modellingRule = true)
    {ptr : NodePtr} {nodeId typeNodeId : NodeId} {b : Bool} {childNodes : List Node}
    (hbase : (isBaseDataVariableType d.nodeClass nodeId && !childNodes.isEmpty) = false)
    (hplain : isVariableClass d.nodeClass = true → rendersNoChild v {} [] childNodes = false)
    {j : Json}
    (hj : jsonAs element typeDefinition v (.simple d ptr nodeId typeNodeId b childNodes) = .ok j) :
    ∃ result, Json.putMembers [] (childEntries v (firstNamed [] childNodes) ++
      elementTail element typeDefinition) = .ok result ∧ j = .ofMembers result := by
  obtain ⟨members, hmembers, hj⟩ := exists_members_of_jsonAs hrule hj
  have hne : isVariableClass d.nodeClass = true → members ≠ [] := by
    intro hclass hnil
    have hall := ((Json.putMembers_eq_nil_iff hmembers).mp hnil).2
    have hnone : rendersNoChild v {} [] childNodes = true := by
      refine rendersNoChild_iff.mpr fun n hn => ?_
      have hnull : memberJson v n = .ok .null := hall _ (List.mem_map_of_mem hn)
      exact (memberJson_eq_null_iff_rendersNull hnull).mp rfl
    rw [hplain hclass] at hnone
    cases hnone
  rw [nodeJson_of_plain hbase (v ptr) hne, finish_ofMembers] at hj
  obtain ⟨result, hresult, rfl⟩ := map_ofMembers_eq_ok hj
  rw [Json.putMembers_append, hmembers]
  exact ⟨result, hresult, rfl⟩

/-- The JSON of a variable none of whose children shows. -/
theorem jsonAs_bare {d : NodeDefinition} (hrule : isSimpleRule d.modellingRule = true)
    {ptr : NodePtr} {nodeId typeNodeId : NodeId} {b : Bool} {childNodes : List Node}
    (hbase : (isBaseDataVariableType d.nodeClass nodeId && !childNodes.isEmpty) = false)
    (hclass : isVariableClass d.nodeClass = true)
    (hnone : rendersNoChild v {} [] childNodes = true) {j : Json}
    (hj : jsonAs element typeDefinition v (.simple d ptr nodeId typeNodeId b childNodes) = .ok j) :
    finish element typeDefinition (v ptr) = .ok j := by
  obtain ⟨members, hmembers, hj⟩ := exists_members_of_jsonAs hrule hj
  have hnil : members = [] := by
    refine (Json.putMembers_eq_nil_iff hmembers).mpr ⟨rfl, fun x hx => ?_⟩
    obtain ⟨n, hn, rfl⟩ := List.mem_map.mp hx
    obtain ⟨jn, hjn⟩ := Json.ok_of_mem_putMembers hmembers _ (List.mem_map_of_mem hn)
    have hnull := (memberJson_eq_null_iff_rendersNull hjn).mpr (rendersNoChild_iff.mp hnone n hn)
    exact hjn.trans (congrArg Except.ok hnull)
  subst hnil
  rwa [nodeJson_of_bare hbase hclass] at hj

end Members

/-! ### What is found at a place -/

theorem at?_ofMembers_cons {members : List (String × Json)} {key : String} {j : Json}
    (h : members.lookup key = some j) (path : List String) :
    (Json.ofMembers members).at? (key :: path) = j.at? path := by
  rw [Json.at?, Json.member?_ofMembers, h]
  rfl

/-- A member of the children is there beside the further one. -/
private theorem lookup_of_lasts_tail {element : Bool} {typeDefinition : NodeId} {key : String}
    {j : Json} {xs : List (String × Except Exception Json)} {result : List (String × Json)}
    (h : Json.putMembers [] (xs ++ elementTail element typeDefinition) = .ok result)
    (hlasts : Json.Lasts xs key j) (hkey : element = true → key ≠ typeDefinitionKey) :
    result.lookup key = some j :=
  Json.lookup_of_lasts h (lasts_append_elementTail.mpr (Or.inl ⟨hlasts, hkey⟩))

/-- **A node is found at its place**, with its JSON as a child or as an instance. -/
theorem at?_place {element : Bool} {n x : Node} {path : List String}
    (h : Place v element n path x) : ∀ {typeDefinition : NodeId} {j : Json},
      jsonAs element typeDefinition v n = .ok j →
      ∃ element' typeDefinition' jx, jsonAs element' typeDefinition' v x = .ok jx ∧
        j.at? path = some jx := by
  induction h with
  | here element n => exact fun hj => ⟨element, _, _, hj, rfl⟩
  | @property element d ptr nodeId typeNodeId b childNodes n path x hrule hbase hlast h ih =>
    intro typeDefinition j hj
    have hne : childNodes ≠ [] := List.ne_nil_of_mem (mem_of_mem_firstNamed hlast.mem)
    obtain ⟨members, result, hmembers, hresult, rfl⟩ :=
      jsonAs_base hrule (by simpa [hbase] using hne) hj
    have hmembers' : Json.putMembers [] (childEntries v (firstNamed [] childNodes) ++ []) =
        .ok members := by rw [List.append_nil, hmembers]
    obtain ⟨jn, hjn⟩ := Json.ok_of_mem_putMembers hmembers (n.bareName, memberJson v n)
      (List.mem_map_of_mem hlast.mem)
    -- no later member is written over the one of the child
    have hlookup : members.lookup n.bareName = some jn :=
      Json.lookup_of_lasts hmembers ((lasts_childEntries hmembers').mpr ⟨n, hlast, rfl, hjn⟩)
    have hproperties : result.lookup "properties" = some (.object members) := by
      rw [lookup_elementTail (by decide) hresult, valueMembers,
        if_neg (by rintro rfl; simp at hlookup)]
      exact Json.lookup_putMember_self _ _ _
    obtain ⟨element', typeDefinition', jx, hjx, hat⟩ :=
      @ih typeDefinition jn (by rw [jsonAs_false]; exact hlast.modelToJson_eq hjn)
    refine ⟨element', typeDefinition', jx, hjx, ?_⟩
    rw [at?_ofMembers_cons hproperties, ← hat, Json.at?]
    simp [Json.member?, hlookup]
  | @child element d ptr nodeId typeNodeId b childNodes n path x hrule hbase hlast hkey h ih =>
    intro typeDefinition j hj
    have hsome : rendersNoChild v {} [] childNodes = false :=
      Bool.eq_false_iff.mpr fun hnone => not_lastChild_of_rendersNoChild hnone hlast
    obtain ⟨result, hresult, rfl⟩ := jsonAs_plain hrule (by simp [hbase]) (fun _ => hsome) hj
    obtain ⟨jn, hjn⟩ := Json.ok_of_mem_putMembers hresult (n.bareName, memberJson v n)
      (List.mem_append_left _ (List.mem_map_of_mem hlast.mem))
    have hlookup := lookup_of_lasts_tail hresult
      ((lasts_childEntries hresult).mpr ⟨n, hlast, rfl, hjn⟩) hkey
    obtain ⟨element', typeDefinition', jx, hjx, hat⟩ :=
      @ih typeDefinition jn (by rw [jsonAs_false]; exact hlast.modelToJson_eq hjn)
    exact ⟨element', typeDefinition', jx, hjx, (at?_ofMembers_cons hlookup path).trans hat⟩
  | @element element d instances el path x hrule hlast hkey h ih =>
    intro typeDefinition j hj
    rw [jsonAs_placeholder hrule] at hj
    obtain ⟨result, hresult, rfl⟩ := map_ofMembers_eq_ok hj
    obtain ⟨jel, hjel⟩ := Json.ok_of_mem_putMembers hresult
      (el.browseName.name, elementJson v el.typeDefinition el.pNode)
      (List.mem_append_left _ (List.mem_map_of_mem hlast.mem))
    have hlookup := lookup_of_lasts_tail hresult
      ((lasts_instanceEntries hresult).mpr ⟨el, hlast, rfl, hjel⟩) hkey
    obtain ⟨element', typeDefinition', jx, hjx, hat⟩ := ih hjel
    exact ⟨element', typeDefinition', jx, hjx, (at?_ofMembers_cons hlookup path).trans hat⟩

/-! ### Nulls in the JSON of a node -/

/-- No variable with a place and with child nodes is without value. -/
def ValuesKept (v : NodePtr → Json) (element : Bool) (n : Node) : Prop :=
  ∀ path d ptr nodeId typeNodeId b childNodes,
    Place v element n path (.simple d ptr nodeId typeNodeId b childNodes) →
    isSimpleRule d.modellingRule = true → isBaseDataVariableType d.nodeClass nodeId = true →
    v ptr = .null → childNodes = []

section ValuesKept

variable {element : Bool} {d : NodeDefinition} {ptr : NodePtr} {nodeId typeNodeId : NodeId}
  {b : Bool} {childNodes : List Node}

theorem valuesKept_base (hrule : isSimpleRule d.modellingRule = true)
    (hbase : isBaseDataVariableType d.nodeClass nodeId = true) (hne : childNodes ≠ []) :
    ValuesKept v element (.simple d ptr nodeId typeNodeId b childNodes) ↔
      v ptr ≠ .null ∧ ∀ n, LastChild v childNodes n → ValuesKept v false n := by
  constructor
  · intro h
    refine ⟨fun hnull =>
        hne (h [] d ptr nodeId typeNodeId b childNodes (.here _ _) hrule hbase hnull),
      fun n hlast path d' ptr' nodeId' typeNodeId' b' childNodes' hplace => ?_⟩
    exact h _ d' ptr' nodeId' typeNodeId' b' childNodes' (.property hrule hbase hlast hplace)
  · rintro ⟨hvalue, hchildren⟩ path d' ptr' nodeId' typeNodeId' b' childNodes' hplace
    cases hplace with
    | here => exact fun _ _ hnull => absurd hnull hvalue
    | property _ _ hlast hplace => exact hchildren _ hlast _ _ _ _ _ _ _ hplace
    | child _ hbase' => rw [hbase] at hbase'; cases hbase'

theorem valuesKept_plain (hrule : isSimpleRule d.modellingRule = true)
    (hbase : (isBaseDataVariableType d.nodeClass nodeId && !childNodes.isEmpty) = false) :
    ValuesKept v element (.simple d ptr nodeId typeNodeId b childNodes) ↔
      ∀ n, LastChild v childNodes n → (element = true → n.bareName ≠ typeDefinitionKey) →
        ValuesKept v false n := by
  have hnotBase : ∀ {n}, LastChild v childNodes n →
      isBaseDataVariableType d.nodeClass nodeId = false := by
    intro n hlast
    have hne : childNodes ≠ [] := List.ne_nil_of_mem (mem_of_mem_firstNamed hlast.mem)
    simpa [hne] using hbase
  constructor
  · intro h n hlast hkey path d' ptr' nodeId' typeNodeId' b' childNodes' hplace
    exact h _ d' ptr' nodeId' typeNodeId' b' childNodes'
      (.child hrule (hnotBase hlast) hlast hkey hplace)
  · intro hchildren path d' ptr' nodeId' typeNodeId' b' childNodes' hplace
    cases hplace with
    | here =>
      intro _ hbase' _
      simpa [hbase'] using hbase
    | property _ hbase' hlast => rw [hnotBase hlast] at hbase'; cases hbase'
    | child _ _ hlast hkey hplace => exact hchildren _ hlast hkey _ _ _ _ _ _ _ hplace

theorem valuesKept_placeholder {instances : List (PlaceholderElement Node)}
    (hrule : isPlaceholderRule d.modellingRule = true) :
    ValuesKept v element (.placeholder d instances) ↔
      ∀ el, LastInstance instances el → (element = true → el.browseName.name ≠ typeDefinitionKey) →
        ValuesKept v true el.pNode := by
  constructor
  · intro h el hlast hkey path d' ptr' nodeId' typeNodeId' b' childNodes' hplace
    exact h _ d' ptr' nodeId' typeNodeId' b' childNodes' (.element hrule hlast hkey hplace)
  · intro helements path d' ptr' nodeId' typeNodeId' b' childNodes' hplace
    cases hplace with
    | element _ hlast hkey hplace => exact helements _ hlast hkey _ _ _ _ _ _ _ hplace

end ValuesKept

/-- The induction hypothesis for a node: its JSON, as a child or as an instance, has no nulls
exactly if its values are kept. -/
def NullsAreValues (v : NodePtr → Json) (n : Node) : Prop :=
  ∀ element typeDefinition j, jsonAs element typeDefinition v n = .ok j →
    (j.NullOrNoNull ↔ ValuesKept v element n)

section Step

variable {element : Bool} {typeDefinition : NodeId}

theorem noNull_childEntries_iff {childNodes : List Node} {members result : List (String × Json)}
    (ih : ∀ n ∈ childNodes, NullsAreValues v n)
    (h : Json.putMembers members (childEntries v (firstNamed [] childNodes) ++
      elementTail element typeDefinition) = .ok result) :
    (∀ key j, Json.Lasts (childEntries v (firstNamed [] childNodes) ++
        elementTail element typeDefinition) key j → j.NoNull) ↔
      ∀ n, LastChild v childNodes n → (element = true → n.bareName ≠ typeDefinitionKey) →
        ValuesKept v false n := by
  simp only [lasts_append_elementTail, lasts_childEntries h]
  constructor
  · intro hall n hlast hkey
    obtain ⟨jn, hjn⟩ := Json.ok_of_mem_putMembers h (n.bareName, memberJson v n)
      (List.mem_append_left _ (List.mem_map_of_mem hlast.mem))
    have hjn' : jsonAs false typeDefinition v n = .ok jn := by
      rw [jsonAs_false]
      exact hlast.modelToJson_eq hjn
    exact (ih n (mem_of_mem_firstNamed hlast.mem) _ _ _ hjn').mp
      (Or.inr (hall _ _ (Or.inl ⟨⟨n, hlast, rfl, hjn⟩, hkey⟩)))
  · rintro hall key j (⟨⟨n, hlast, rfl, hjn⟩, hkey⟩ | ⟨-, -, rfl⟩)
    · have hjn' : jsonAs false typeDefinition v n = .ok j := by
        rw [jsonAs_false]
        exact hlast.modelToJson_eq hjn
      exact (Json.NullOrNoNull.noNull_iff (hlast.ne_null hjn)).mp
        ((ih n (mem_of_mem_firstNamed hlast.mem) _ _ _ hjn').mpr (hall n hlast hkey))
    · exact Json.noNull_string _

theorem noNull_instanceEntries_iff {instances : List (PlaceholderElement Node)}
    {members result : List (String × Json)}
    (ih : ∀ el ∈ instances, NullsAreValues v el.pNode)
    (h : Json.putMembers members (instanceEntries v instances ++
      elementTail element typeDefinition) = .ok result) :
    (∀ key j, Json.Lasts (instanceEntries v instances ++
        elementTail element typeDefinition) key j → j.NoNull) ↔
      ∀ el, LastInstance instances el → (element = true → el.browseName.name ≠ typeDefinitionKey) →
        ValuesKept v true el.pNode := by
  simp only [lasts_append_elementTail, lasts_instanceEntries h]
  constructor
  · intro hall el hlast hkey
    obtain ⟨jel, hjel⟩ := Json.ok_of_mem_putMembers h
      (el.browseName.name, elementJson v el.typeDefinition el.pNode)
      (List.mem_append_left _ (List.mem_map_of_mem hlast.mem))
    exact (ih el hlast.mem true _ jel hjel).mp
      (Or.inr (hall _ _ (Or.inl ⟨⟨el, hlast, rfl, hjel⟩, hkey⟩)))
  · rintro hall key j (⟨⟨el, hlast, rfl, hjel⟩, hkey⟩ | ⟨-, -, rfl⟩)
    · exact (Json.NullOrNoNull.noNull_iff (elementJson_ne_null hjel)).mp
        ((ih el hlast.mem true _ j hjel).mpr (hall el hlast hkey))
    · exact Json.noNull_string _

theorem mem_valueMembers {value : Json} {members : List (String × Json)} {m : String × Json} :
    m ∈ valueMembers value members ↔
      m = ("value", value) ∨ (members ≠ [] ∧ m = ("properties", .object members)) := by
  rw [valueMembers]
  split_ifs with h
  · simp [h]
  · rw [Json.mem_putMember (List.pairwise_singleton _ _), List.mem_singleton]
    constructor
    · rintro (rfl | ⟨rfl, -⟩)
      · exact Or.inr ⟨h, rfl⟩
      · exact Or.inl rfl
    · rintro (rfl | ⟨-, rfl⟩)
      · have hkeys : "value" ≠ "properties" := by decide
        exact Or.inr ⟨rfl, hkeys⟩
      · exact Or.inl rfl

theorem ordered_valueMembers (value : Json) (members : List (String × Json)) :
    Json.Ordered (valueMembers value members) := by
  rw [valueMembers]
  split_ifs
  · exact List.pairwise_singleton _ _
  · exact Json.ordered_putMember (List.pairwise_singleton _ _)

/-- A variable that keeps its value is without nulls if the value and the properties are. -/
theorem nullOrNoNull_valueMembers {value : Json} {members result : List (String × Json)}
    (h : Json.putMembers (valueMembers value members) (elementTail element typeDefinition) =
      .ok result) :
    (Json.ofMembers result).NullOrNoNull ↔ value.NoNull ∧ ∀ m ∈ members, m.2.NoNull := by
  rw [Json.nullOrNoNull_ofMembers]
  have hmem : ∀ m : String × Json, m ∈ result ↔ m ∈ valueMembers value members ∨
      Json.Lasts (elementTail element typeDefinition) m.1 m.2 := by
    intro m
    rw [Json.mem_putMembers_iff (ordered_valueMembers value members) h]
    refine or_congr_left (and_iff_left_of_imp fun hm x hx hkey => ?_)
    cases element with
    | false => simp [elementTail] at hx
    | true =>
      simp only [elementTail, if_true, List.mem_singleton] at hx
      subst hx
      have hvalue : typeDefinitionKey ≠ "value" := by decide
      have hproperties : typeDefinitionKey ≠ "properties" := by decide
      rcases mem_valueMembers.mp hm with rfl | ⟨-, rfl⟩
      · exact absurd hkey hvalue
      · exact absurd hkey hproperties
  simp only [hmem, mem_valueMembers, lasts_elementTail]
  constructor
  · intro hall
    refine ⟨hall _ (Or.inl (Or.inl rfl)), ?_⟩
    by_cases hnil : members = []
    · simp [hnil]
    · exact Json.noNull_object.mp (hall _ (Or.inl (Or.inr ⟨hnil, rfl⟩)))
  · rintro ⟨hvalue, hmembers⟩ ⟨key, j⟩ ((hm | ⟨-, hm⟩) | ⟨-, -, rfl⟩)
    · cases hm
      exact hvalue
    · cases hm
      exact Json.noNull_object.mpr hmembers
    · exact Json.noNull_string _

/-- The further member brings no null. -/
theorem nullOrNoNull_finish {value j : Json} (hvalue : value.NullOrNoNull)
    (h : finish element typeDefinition value = .ok j) : j.NullOrNoNull := by
  cases element with
  | false => exact Except.ok.inj h ▸ hvalue
  | true =>
    have hstring := Json.noNull_string typeDefinition.toString
    cases value with
    | null =>
      obtain rfl := Except.ok.inj h
      exact Or.inr (by simp)
    | object members =>
      obtain rfl := Except.ok.inj h
      have hmembers := Json.noNull_object.mp (hvalue.resolve_left (by simp))
      exact Or.inr (Json.noNull_object.mpr (Json.noNull_putMember hstring hmembers))
    | _ => cases h

end Step

/-- A simple node is without nulls exactly if its values are kept, provided that this holds of its
children. -/
theorem nullsAreValues_simple (hv : ∀ ptr, (v ptr).NullOrNoNull) (d : NodeDefinition)
    (ptr : NodePtr) (nodeId typeNodeId : NodeId) (b : Bool) {childNodes : List Node}
    (ih : ∀ n ∈ childNodes, NullsAreValues v n) :
    NullsAreValues v (.simple d ptr nodeId typeNodeId b childNodes) := by
  intro element typeDefinition j hj
  by_cases hrule : isSimpleRule d.modellingRule = true
  · cases hbase : isBaseDataVariableType d.nodeClass nodeId && !childNodes.isEmpty with
    | true =>
      -- the value stands beside the members of the children
      have hboth : isBaseDataVariableType d.nodeClass nodeId = true ∧ childNodes ≠ [] := by
        simpa using hbase
      obtain ⟨members, result, hmembers, hresult, rfl⟩ := jsonAs_base hrule hbase hj
      have hentries : Json.putMembers [] (childEntries v (firstNamed [] childNodes) ++
          elementTail false typeDefinition) = .ok members := by
        rw [← hmembers]
        exact congrArg _ (List.append_nil _)
      have hchildren := noNull_childEntries_iff ih hentries
      rw [← Json.nullOrNoNull_putMembers hentries, Json.nullOrNoNull_ofMembers] at hchildren
      have hvalue : (v ptr).NoNull ↔ v ptr ≠ .null :=
        ⟨Json.NoNull.ne_null, fun hne => (hv ptr).resolve_left hne⟩
      rw [nullOrNoNull_valueMembers hresult, valuesKept_base hrule hboth.1 hboth.2, hvalue,
        hchildren]
      simp
    | false =>
      rw [valuesKept_plain hrule hbase]
      by_cases hbare : isVariableClass d.nodeClass = true ∧ rendersNoChild v {} [] childNodes = true
      · -- the value is the JSON
        have hfinish := jsonAs_bare hrule hbase hbare.1 hbare.2 hj
        exact iff_of_true (nullOrNoNull_finish (hv ptr) hfinish) fun n hlast _ =>
          absurd hlast (not_lastChild_of_rendersNoChild hbare.2)
      · -- the members are those of the children
        have hplain : isVariableClass d.nodeClass = true →
            rendersNoChild v {} [] childNodes = false :=
          fun hclass => Bool.eq_false_iff.mpr fun hnone => hbare ⟨hclass, hnone⟩
        obtain ⟨result, hresult, rfl⟩ := jsonAs_plain hrule hbase hplain hj
        rw [Json.nullOrNoNull_putMembers hresult, noNull_childEntries_iff ih hresult]
  · rw [jsonAs, modelToJson_simple_of_not_rule (Bool.eq_false_iff.mpr hrule)] at hj
    refine iff_of_true (nullOrNoNull_finish (Or.inl rfl) hj) ?_
    intro path d' ptr' nodeId' typeNodeId' b' childNodes' hplace hrule'
    cases hplace with
    | here => exact absurd hrule' hrule
    | property hrule'' => exact absurd hrule'' hrule
    | child hrule'' => exact absurd hrule'' hrule

theorem nullsAreValues_placeholder (d : NodeDefinition)
    {instances : List (PlaceholderElement Node)}
    (ih : ∀ el ∈ instances, NullsAreValues v el.pNode) :
    NullsAreValues v (.placeholder d instances) := by
  intro element typeDefinition j hj
  by_cases hrule : isPlaceholderRule d.modellingRule = true
  · rw [jsonAs_placeholder hrule] at hj
    obtain ⟨result, hresult, rfl⟩ := map_ofMembers_eq_ok hj
    rw [Json.nullOrNoNull_putMembers hresult, noNull_instanceEntries_iff ih hresult,
      valuesKept_placeholder hrule]
  · rw [jsonAs, modelToJson_placeholder_of_not_rule (Bool.eq_false_iff.mpr hrule)] at hj
    refine iff_of_true (nullOrNoNull_finish (Or.inl rfl) hj) ?_
    intro path d' ptr' nodeId' typeNodeId' b' childNodes' hplace hrule'
    cases hplace with
    | element hrule'' => exact absurd hrule'' hrule

mutual

/-- **The nulls in the JSON of a tree** are the missing values of variables with child nodes. -/
theorem nullsAreValues (hv : ∀ ptr, (v ptr).NullOrNoNull) : ∀ n : Node, NullsAreValues v n
  | .simple d ptr nodeId typeNodeId b childNodes =>
    nullsAreValues_simple hv d ptr nodeId typeNodeId b (nullsAreValues_children hv childNodes)
  | .placeholder d instances =>
    nullsAreValues_placeholder d (nullsAreValues_instances hv instances)

theorem nullsAreValues_children (hv : ∀ ptr, (v ptr).NullOrNoNull) : ∀ ns : List Node,
    ∀ n ∈ ns, NullsAreValues v n
  | [] => fun _ h => absurd h List.not_mem_nil
  | n :: ns => List.forall_mem_cons.mpr ⟨nullsAreValues hv n, nullsAreValues_children hv ns⟩

theorem nullsAreValues_instances (hv : ∀ ptr, (v ptr).NullOrNoNull) :
    ∀ (els : List (PlaceholderElement Node)), ∀ el ∈ els, NullsAreValues v el.pNode
  | [] => fun _ h => absurd h List.not_mem_nil
  | ⟨pNode, _, _⟩ :: els =>
    List.forall_mem_cons.mpr ⟨nullsAreValues hv pNode, nullsAreValues_instances hv els⟩

end

/-! ### Variables without value -/

/-- Nothing is published for variables without value: no null, no member `value` of theirs, and no
member that stands for such a variable alone. -/
structure PublishesNoNulls (v : NodePtr → Json) (n : Node) (j : Json) : Prop where
  noNull : j.NullOrNoNull
  noMember : ∀ path d ptr nodeId typeNodeId b childNodes,
    Place v false n path (.simple d ptr nodeId typeNodeId b childNodes) →
    isSimpleRule d.modellingRule = true → isVariableClass d.nodeClass = true → v ptr = .null →
      (isBaseDataVariableType d.nodeClass nodeId = true → j.at? (path ++ ["value"]) = none) ∧
        (path ≠ [] → rendersNoChild v {} [] childNodes = true → j.at? path = none)

/-- The member of the value. -/
theorem member?_value {element : Bool} {typeDefinition : NodeId} {d : NodeDefinition}
    (hrule : isSimpleRule d.modellingRule = true) {ptr : NodePtr} {nodeId typeNodeId : NodeId}
    {b : Bool} {childNodes : List Node}
    (hbase : isBaseDataVariableType d.nodeClass nodeId = true) (hnull : v ptr = .null) {j : Json}
    (hj : jsonAs element typeDefinition v (.simple d ptr nodeId typeNodeId b childNodes) = .ok j) :
    j.member? "value" = if childNodes = [] then none else some .null := by
  split_ifs with hne
  · subst hne
    have hclass : isVariableClass d.nodeClass = true := by
      rw [isBaseDataVariableType, Bool.and_eq_true] at hbase
      exact hbase.1
    have hfinish := jsonAs_bare hrule (by simp) hclass rfl hj
    rw [hnull] at hfinish
    cases element with
    | false =>
      obtain rfl := Except.ok.inj hfinish
      rfl
    | true =>
      obtain rfl := Except.ok.inj hfinish
      have hkeys : ("value" == typeDefinitionKey) = false := by decide
      simp [Json.member?, List.lookup_cons, hkeys]
  · obtain ⟨members, result, -, hresult, rfl⟩ := jsonAs_base hrule (by simp [hbase, hne]) hj
    rw [Json.member?_ofMembers, lookup_elementTail (by decide) hresult, valueMembers, hnull]
    split_ifs
    · rfl
    · rw [Json.lookup_putMember_of_ne _ (by decide)]
      rfl

/-- **Nothing is published for variables without value** exactly if those with a place in the JSON
have no child nodes, and are instances of placeholders only where a child of theirs is rendered. -/
theorem publishesNoNulls_iff (v : NodePtr → Json) (hv : ∀ ptr, (v ptr).NullOrNoNull) (n : Node)
    (j : Json) (hj : modelToJson v {} n = .ok j) :
    PublishesNoNulls v n j ↔
      ∀ path d ptr nodeId typeNodeId b childNodes,
        Place v false n path (.simple d ptr nodeId typeNodeId b childNodes) →
        isSimpleRule d.modellingRule = true → isVariableClass d.nodeClass = true →
        v ptr = .null →
          (isBaseDataVariableType d.nodeClass nodeId = true → childNodes = []) ∧
            (path ≠ [] → rendersNoChild v {} [] childNodes = false) := by
  have hj' : jsonAs false ⟨"", ""⟩ v n = .ok j := by rw [jsonAs_false]; exact hj
  constructor
  · intro h path d ptr nodeId typeNodeId b childNodes hplace hrule hclass hnull
    obtain ⟨hvalue, hmember⟩ :=
      h.noMember path d ptr nodeId typeNodeId b childNodes hplace hrule hclass hnull
    obtain ⟨element, typeDefinition, jx, hjx, hat⟩ := at?_place hplace hj'
    constructor
    · intro hbase
      by_contra hne
      have hread := member?_value hrule hbase hnull hjx
      rw [if_neg hne] at hread
      have hnone := hvalue hbase
      rw [Json.at?_append, hat] at hnone
      simp [Json.at?, hread] at hnone
    · intro hpath
      refine Bool.eq_false_iff.mpr fun hnone => ?_
      rw [hmember hpath hnone] at hat
      cases hat
  · intro h
    constructor
    · refine (nullsAreValues hv n _ _ j hj').mpr ?_
      intro path d ptr nodeId typeNodeId b childNodes hplace hrule hbase hnull
      have hclass : isVariableClass d.nodeClass = true := by
        rw [isBaseDataVariableType, Bool.and_eq_true] at hbase
        exact hbase.1
      exact (h path d ptr nodeId typeNodeId b childNodes hplace hrule hclass hnull).1 hbase
    · intro path d ptr nodeId typeNodeId b childNodes hplace hrule hclass hnull
      obtain ⟨hleaf, hsome⟩ := h path d ptr nodeId typeNodeId b childNodes hplace hrule hclass hnull
      obtain ⟨element, typeDefinition, jx, hjx, hat⟩ := at?_place hplace hj'
      constructor
      · intro hbase
        have hread := member?_value hrule hbase hnull hjx
        rw [if_pos (hleaf hbase)] at hread
        rw [Json.at?_append, hat]
        simp [Json.at?, hread]
      · intro hpath hnone
        rw [hsome hpath] at hnone
        cases hnone

/-- A machine with a speed, which has its unit as a property. -/
def spindle : Node :=
  .simple ⟨.mandatory, .object, WellKnown.hasComponent, ⟨"urn:spindle", "i=1"⟩, ⟨"", ""⟩⟩ 0
    ⟨"urn:spindle", "i=11"⟩ ⟨"urn:spindle", "i=1"⟩ false
    [.simple ⟨.mandatory, .variable, WellKnown.hasComponent, ⟨"urn:spindle", "i=2"⟩,
        ⟨"urn:spindle", "Speed"⟩⟩ 1 ⟨"urn:spindle", "i=12"⟩ ⟨"urn:spindle", "i=2"⟩ true
      [.simple ⟨.mandatory, .variable, WellKnown.hasComponent, ⟨"urn:spindle", "i=3"⟩,
        ⟨"urn:spindle", "EngineeringUnits"⟩⟩ 2 ⟨"urn:spindle", "i=13"⟩ ⟨"urn:spindle", "i=3"⟩ false
        []]]

/-- With both values there. -/
theorem publishesNoNulls_spindle :
    PublishesNoNulls (fun _ => .integer 5) spindle
      (.object [("Speed", .object [("properties", .object [("EngineeringUnits", .integer 5)]),
        ("value", .integer 5)])]) :=
  (publishesNoNulls_iff (fun _ => .integer 5) (fun _ => Or.inr (by simp [Json.NoNull])) spindle _
    (by with_unfolding_all rfl)).mpr fun _ _ _ _ _ _ _ _ _ _ hnull => Json.noConfusion hnull

/-- Before the first values have come, the speed is published as null. -/
theorem not_publishesNoNulls :
    ¬ ∀ v : NodePtr → Json, (∀ ptr, (v ptr).NullOrNoNull) → ∀ (n : Node) (j : Json),
      modelToJson v {} n = .ok j → PublishesNoNulls v n j := by
  intro h
  have hspindle := h (fun _ => .null) (fun _ => Or.inl rfl) spindle
    (.object [("Speed", .object [("value", .null)])]) (by with_unfolding_all rfl)
  have hnull := hspindle.noNull
  simp [Json.NullOrNoNull] at hnull

end ModelToJson

end UmatiDashboard
