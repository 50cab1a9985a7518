import UmatiDashboard.DashboardClient.WrittenJson
import UmatiDashboard.DashboardClient.Transform
import UmatiDashboard.DataClient.Answers
import UmatiDashboard.TypeReader.SetupTypeMap

/-!
# When a tree has a JSON

Every instance of a placeholder gets the member `$TypeDefinition`. The JSON of a variable without
children is its value as it is, and a value that is neither null nor an object takes no member:
the assignment throws, and with it the rendering of the whole tree. All the other assignments go
to a null value or an object. The JSON of a child is written out, which throws if it holds a string
that is not UTF-8. So a tree has a JSON if and only if the **bare** values of the instances that are
rendered take members, and every child that is rendered can be written out
(`modelToJson_ok_iff`).
-/

namespace UmatiDashboard

namespace Json

/-- A member can be assigned to the value. -/
def takesMembers : Json → Bool
  | null => true
  | object _ => true
  | _ => false

theorem exists_assign {j : Json} (h : j.takesMembers = true) (key : String) (value : Json) :
    ∃ members, members ≠ [] ∧ j.assign key value = .ok (object members) := by
  cases j with
  | null => exact ⟨_, List.cons_ne_nil _ _, rfl⟩
  | object members =>
    refine ⟨putMember key value members, ?_, rfl⟩
    cases members with
    | nil => exact List.cons_ne_nil _ _
    | cons m rest =>
      rw [putMember]
      split_ifs <;> exact List.cons_ne_nil _ _
  | _ => exact Bool.noConfusion h

theorem assign_error {j : Json} (h : j.takesMembers = false) (key : String) (value : Json) :
    ∃ e, j.assign key value = .error e := by
  cases j with
  | null => exact Bool.noConfusion h
  | object members => exact Bool.noConfusion h
  | _ => exact ⟨_, rfl⟩

end Json

namespace ModelToJson

section Rendering

variable (v : NodePtr → Json) (options : JsonOptions)

/-- The value of a variable is assigned as a member, not as the JSON itself. -/
def valueIsMember (d : NodeDefinition) (nodeId : NodeId) (childNodes : List Node) : Bool :=
  options.nestAsChildren || (isBaseDataVariableType d.nodeClass nodeId && !childNodes.isEmpty)

mutual

/-- The JSON of the node is written as null. -/
def rendersNull : Node → Bool
  | .simple d ptr nodeId _ _ childNodes =>
    !isSimpleRule d.modellingRule ||
      ((if isVariableClass d.nodeClass then
          !valueIsMember options d nodeId childNodes && (v ptr).dumpsNull
        else !options.serializeNodeInformation) &&
        rendersNoChild [] childNodes)
  | .placeholder d instances =>
    !isPlaceholderRule d.modellingRule ||
      (!options.serializeNodeInformation && instances.isEmpty)

/-- None of the children that are visited for the first time gets a member. -/
def rendersNoChild (visited : List QualifiedName) : List Node → Bool
  | [] => true
  | n :: ns =>
    if n.definition.specifiedBrowseName ∈ visited then rendersNoChild visited ns
    else (!options.publishNullValues && rendersNull n) &&
      rendersNoChild (visited ++ [n.definition.specifiedBrowseName]) ns

end

/-- The value that is the JSON of a variable as it is. -/
def bareValue : Node → Option Json
  | .simple d ptr nodeId _ _ childNodes =>
    if isSimpleRule d.modellingRule && isVariableClass d.nodeClass &&
        !valueIsMember options d nodeId childNodes && rendersNoChild v options [] childNodes then
      some (v ptr)
    else none
  | .placeholder _ _ => none

mutual

/-- The instances of placeholders that are rendered. -/
def elements : Node → List Node
  | .simple d _ _ _ _ childNodes =>
    if isSimpleRule d.modellingRule then elementsOfChildren [] childNodes else []
  | .placeholder d instances =>
    if isPlaceholderRule d.modellingRule then elementsOfInstances instances else []

def elementsOfChildren (visited : List QualifiedName) : List Node → List Node
  | [] => []
  | n :: ns =>
    if n.definition.specifiedBrowseName ∈ visited then elementsOfChildren visited ns
    else elements n ++ elementsOfChildren (visited ++ [n.definition.specifiedBrowseName]) ns

def elementsOfInstances : List (PlaceholderElement Node) → List Node
  | [] => []
  | ⟨pNode, _, _⟩ :: rest => elements pNode ++ pNode :: elementsOfInstances rest

end

/-- An instance that a member can be assigned to. -/
def Fits (el : Node) : Prop :=
  ∀ value, bareValue v options el = some value → value.takesMembers = true

mutual

/-- The children that are rendered. -/
def renderedChildren : Node → List Node
  | .simple d _ _ _ _ childNodes =>
    if isSimpleRule d.modellingRule then renderedChildrenOfChildren [] childNodes else []
  | .placeholder d instances =>
    if isPlaceholderRule d.modellingRule then renderedChildrenOfInstances instances else []

def renderedChildrenOfChildren (visited : List QualifiedName) : List Node → List Node
  | [] => []
  | n :: ns =>
    if n.definition.specifiedBrowseName ∈ visited then renderedChildrenOfChildren visited ns
    else renderedChildren n ++
      n :: renderedChildrenOfChildren (visited ++ [n.definition.specifiedBrowseName]) ns

def renderedChildrenOfInstances : List (PlaceholderElement Node) → List Node
  | [] => []
  | ⟨pNode, _, _⟩ :: rest => renderedChildren pNode ++ renderedChildrenOfInstances rest

end

/-- A value that is the JSON of a node can be written out. That of an instance (`element`) has a
further member. -/
def writesOutBare (element : Bool) (value : Json) : Bool :=
  if element then (value.set typeDefinitionKey (.string "")).all Json.dumps else value.dumps

mutual

/-- The JSON of a node can be written out, as far as the values go that it does not have from
children: these have been written out on their own. -/
def writesOut (element : Bool) : Node → Bool
  | .simple d ptr nodeId _ _ childNodes =>
    !isSimpleRule d.modellingRule || !isVariableClass d.nodeClass ||
      if valueIsMember options d nodeId childNodes then (v ptr).dumps
      else !rendersNoChild v options [] childNodes || writesOutBare element (v ptr)
  | .placeholder d instances =>
    !isPlaceholderRule d.modellingRule ||
      writesOutInstances (if element && !options.serializeNodeInformation then [typeDefinitionKey]
        else []) instances

/-- An instance does not count if a later one or a further member is written over it. -/
def writesOutInstances (overwritten : List String) : List (PlaceholderElement Node) → Bool
  | [] => true
  | ⟨pNode, browseName, _⟩ :: rest =>
    (overwritten.contains browseName.name ||
      rest.any (fun el => el.browseName.name == browseName.name) || writesOut true pNode) &&
      writesOutInstances overwritten rest

end

/-- A child that is written out, unless null values are to be published. -/
def WritesOut (n : Node) : Prop :=
  options.publishNullValues = false → writesOut v options false n = true

/-! ### What a rendered node looks like -/

/-- The JSON of a node: whether it is written as null, what it is if it is not made of members, and
whether it can be written out. -/
structure RendersAs (n : Node) (j : Json) : Prop where
  dumpsNull : j.dumpsNull = rendersNull v options n
  bare : ∀ value, bareValue v options n = some value → j = value
  takesMembers : bareValue v options n = none → j.takesMembers = true
  written : options.publishNullValues = false → ∀ element typeDefinition j',
    finish element typeDefinition j = .ok j' →
      (j'.dumps = true ↔ writesOut v options element n = true)

/-- A computation succeeds under a condition, and then with a property. -/
def OkIff (P : Prop) (Q : Json → Prop) (x : Except Exception Json) : Prop :=
  ((∃ j, x = .ok j) ↔ P) ∧ ∀ j, x = .ok j → Q j

variable {v options} {P P' : Prop} {Q Q' : Json → Prop} {x : Except Exception Json}

theorem okIff_ok {j : Json} (h : Q j) : OkIff True Q (.ok j) :=
  ⟨⟨fun _ => trivial, fun _ => ⟨j, rfl⟩⟩, fun _ heq => Except.ok.inj heq ▸ h⟩

theorem okIff_error {e : Exception} (h : ¬ P) : OkIff P Q (.error e) := by
  refine ⟨⟨?_, fun hP => absurd hP h⟩, ?_⟩
  · rintro ⟨j, hj⟩
    cases hj
  · intro j hj
    cases hj

theorem OkIff.congr (h : OkIff P Q x) (hP : P ↔ P') (hQ : ∀ j, Q j → Q' j) : OkIff P' Q' x :=
  ⟨h.1.trans hP, fun j hj => hQ j (h.2 j hj)⟩

/-- A computation that goes on with a value of another one. -/
theorem OkIff.bind {f : Json → Except Exception Json} {P' : Prop} {Q' : Json → Prop}
    (h : OkIff P Q x) (hf : ∀ j, Q j → OkIff P' Q' (f j)) : OkIff (P ∧ P') Q' (x.bind f) := by
  cases x with
  | error e =>
    have hP : ¬ P := by
      intro hP
      obtain ⟨j, hj⟩ := h.1.mpr hP
      cases hj
    exact okIff_error fun hboth => hP hboth.1
  | ok j =>
    have hP : P := h.1.mp ⟨j, rfl⟩
    exact (hf j (h.2 j rfl)).congr ⟨fun hP' => ⟨hP, hP'⟩, And.right⟩ fun _ => id

end Rendering

variable {v : NodePtr → Json} {options : JsonOptions}

/-! ### Members that can be written out -/

/-- An object of members that can be written out, but perhaps for the value. -/
def ValueAlone (P : Prop) (j : Json) : Prop :=
  ∃ members, j = .ofMembers members ∧ Json.Ordered members ∧
    (∀ m ∈ members, m.1 ≠ "value" → m.2.dumps = true) ∧
    ((∀ m ∈ members, m.1 = "value" → m.2.dumps = true) ↔ P)

theorem valueAlone_null : ValueAlone True .null :=
  ⟨[], rfl, .nil, by simp, by simp⟩

theorem ValueAlone.dumps_iff {P : Prop} {j : Json} (h : ValueAlone P j) : j.dumps = true ↔ P := by
  obtain ⟨members, rfl, -, hothers, hvalue⟩ := h
  rw [Json.dumps_ofMembers_iff, ← hvalue]
  exact ⟨fun hall m hm _ => hall m hm, fun hall m hm =>
    if hkey : m.1 = "value" then hall m hm hkey else hothers m hm hkey⟩

theorem ValueAlone.takesMembers {P : Prop} {j : Json} (h : ValueAlone P j) :
    j.takesMembers = true := by
  obtain ⟨members, rfl, -⟩ := h
  cases members <;> rfl

theorem ValueAlone.dumpsNull {P : Prop} {j : Json} (h : ValueAlone P j) :
    j.dumpsNull = j.isNull := by
  obtain ⟨members, rfl, -⟩ := h
  cases members <;> rfl

/-- Another member. -/
theorem ValueAlone.assign {P : Prop} {j value j' : Json} {key : String} (h : ValueAlone P j)
    (hkey : key ≠ "value") (hvalue : value.dumps = true) (hj : j.assign key value = .ok j') :
    ValueAlone P j' := by
  obtain ⟨members, rfl, hordered, hothers, hP⟩ := h
  rw [assign_ofMembers] at hj
  obtain rfl := Except.ok.inj hj
  refine ⟨_, rfl, Json.ordered_putMember hordered, ?_, ?_⟩
  · exact (Json.forall_mem_putMember hordered).mpr
      ⟨fun _ => hvalue, fun m hm _ hne => hothers m hm hne⟩
  · rw [Json.forall_mem_putMember hordered, ← hP]
    exact ⟨fun hall m hm heq => hall.2 m hm (by rw [heq]; exact hkey.symm) heq,
      fun hall => ⟨fun heq => absurd heq hkey, fun m hm _ => hall m hm⟩⟩

/-- The value. -/
theorem ValueAlone.assign_value {P : Prop} {j value j' : Json} (h : ValueAlone P j)
    (hj : j.assign "value" value = .ok j') : ValueAlone (value.dumps = true) j' := by
  obtain ⟨members, rfl, hordered, hothers, hP⟩ := h
  rw [assign_ofMembers] at hj
  obtain rfl := Except.ok.inj hj
  refine ⟨_, rfl, Json.ordered_putMember hordered, ?_, ?_⟩
  · exact (Json.forall_mem_putMember hordered).mpr
      ⟨fun hne => absurd rfl hne, fun m hm _ hne => hothers m hm hne⟩
  · rw [Json.forall_mem_putMember hordered]
    exact ⟨fun hall => hall.1 rfl,
      fun hvalue => ⟨fun _ => hvalue, fun m _ hne heq => absurd heq hne⟩⟩

/-- The further member of an instance. -/
theorem ValueAlone.finish_iff {P : Prop} {j j' : Json} (h : ValueAlone P j) {element : Bool}
    {typeDefinition : NodeId} (hj : finish element typeDefinition j = .ok j') :
    j'.dumps = true ↔ P := by
  cases element with
  | false => exact Except.ok.inj hj ▸ h.dumps_iff
  | true => exact (h.assign (by decide) (Json.dumps_string _) hj).dumps_iff

/-- It does not matter which string is written over a member. -/
theorem dumps_putMember_string (key s s' : String) : ∀ members : List (String × Json),
    ((Json.putMember key (.string s) members).all fun m => m.2.dumps) =
      (Json.putMember key (.string s') members).all fun m => m.2.dumps
  | [] => by simp [Json.putMember]
  | (k, j) :: rest => by
    simp only [Json.putMember]
    split_ifs
    · simp
    · simp
    · rw [List.all_cons, List.all_cons, dumps_putMember_string key s s' rest]

/-- A bare value, with the further member. -/
theorem dumps_finish_iff {value j' : Json} {element : Bool} {typeDefinition : NodeId}
    (hj : finish element typeDefinition value = .ok j') :
    j'.dumps = true ↔ writesOutBare element value = true := by
  cases element with
  | false => exact Except.ok.inj hj ▸ Iff.rfl
  | true =>
    cases value with
    | null =>
      obtain rfl := Except.ok.inj hj
      simp [writesOutBare]
    | object members =>
      obtain rfl := Except.ok.inj hj
      rw [writesOutBare, if_pos rfl, Json.set_object, Option.all_some, Json.dumps_object,
        Json.dumps_object, dumps_putMember_string _ _ ""]
    | _ => cases hj

/-- A member of an object that can be written out. -/
theorem dumps_assign {j value j' : Json} {key : String} (h : j.dumps = true)
    (hvalue : value.dumps = true) (hj : j.assign key value = .ok j') : j'.dumps = true := by
  cases j with
  | null =>
    obtain rfl := Except.ok.inj hj
    simpa using hvalue
  | object members =>
    obtain rfl := Except.ok.inj hj
    rw [Json.dumps_object, List.all_eq_true] at h ⊢
    exact Json.dumps_putMember hvalue h
  | _ => cases hj

/-! ### Simple nodes -/

/-- The information about a node. -/
private theorem okIff_nodeInformation (d : NodeDefinition) (nodeId : NodeId) :
    OkIff True (fun j => ValueAlone True j ∧ j.isNull = !options.serializeNodeInformation)
      (if options.serializeNodeInformation then
        (Json.null.assign "nodeId" (.string nodeId.toString)).bind fun json =>
          json.assign "specifiedTypeNodeId" (.string d.specifiedTypeNodeId.toString)
      else .ok .null) := by
  cases options.serializeNodeInformation with
  | false => exact okIff_ok ⟨valueAlone_null, rfl⟩
  | true =>
    rw [if_pos rfl]
    have hfirst : Json.null.assign "nodeId" (.string nodeId.toString) =
        .ok (.object [("nodeId", .string nodeId.toString)]) := rfl
    have hnodeId := valueAlone_null.assign (by decide) (Json.dumps_string _) hfirst
    obtain ⟨members, hne, hj⟩ := Json.exists_assign (j := .object
      [("nodeId", .string nodeId.toString)]) rfl "specifiedTypeNodeId"
        (.string d.specifiedTypeNodeId.toString)
    have hboth : (Json.null.assign "nodeId" (.string nodeId.toString)).bind (fun json =>
        json.assign "specifiedTypeNodeId" (.string d.specifiedTypeNodeId.toString)) =
          .ok (.object members) := hj
    rw [hboth]
    exact okIff_ok ⟨hnodeId.assign (by decide) (Json.dumps_string _) hj, rfl⟩

/-- The own JSON of a node: it takes members unless it is the variable's value. -/
def IsOwnJson (v : NodePtr → Json) (options : JsonOptions) (d : NodeDefinition) (ptr : NodePtr)
    (nodeId : NodeId) (childNodes : List Node) (j : Json) : Prop :=
  if isVariableClass d.nodeClass && !valueIsMember options d nodeId childNodes then j = v ptr
  else ValueAlone (isVariableClass d.nodeClass = true → (v ptr).dumps = true) j ∧
    j.isNull = (!isVariableClass d.nodeClass && !options.serializeNodeInformation)

theorem okIff_ownJson (d : NodeDefinition) (ptr : NodePtr) (nodeId : NodeId)
    (childNodes : List Node) :
    OkIff True (IsOwnJson v options d ptr nodeId childNodes)
      (ownJson v options d ptr nodeId childNodes) := by
  have hown : ownJson v options d ptr nodeId childNodes =
      (if options.serializeNodeInformation then
        (Json.null.assign "nodeId" (.string nodeId.toString)).bind fun json =>
          json.assign "specifiedTypeNodeId" (.string d.specifiedTypeNodeId.toString)
      else .ok .null).bind fun json =>
        if isVariableClass d.nodeClass then
          if valueIsMember options d nodeId childNodes then json.assign "value" (v ptr)
          else .ok (v ptr)
        else .ok json := by
    rw [ownJson]
    cases options.serializeNodeInformation <;> rfl
  rw [hown]
  refine ((okIff_nodeInformation d nodeId).bind fun j hj => ?_).congr
    (iff_of_eq (true_and True)) fun _ => id
  cases hclass : isVariableClass d.nodeClass with
  | false =>
    refine okIff_ok ?_
    simpa [IsOwnJson, hclass] using hj
  | true =>
    cases hmember : valueIsMember options d nodeId childNodes with
    | false => exact okIff_ok (by simp [IsOwnJson, hclass, hmember])
    | true =>
      obtain ⟨members, hne, hassign⟩ := Json.exists_assign hj.1.takesMembers "value" (v ptr)
      simp only [if_true]
      rw [hassign]
      refine okIff_ok ?_
      have hvalue := hj.1.assign_value hassign
      simpa [IsOwnJson, hclass, hmember, Json.isNull] using hvalue

/-! ### The members of the children -/

section Children

variable {d : NodeDefinition} {ptr : NodePtr} {nodeId : NodeId} {childNodes : List Node}
  {j children : Json} (hrule : isSimpleRule d.modellingRule = true) (typeNodeId : NodeId) (b : Bool)

include hrule

/-- Without members of children a node is its own JSON. -/
theorem IsOwnJson.rendersAs (hj : IsOwnJson v options d ptr nodeId childNodes j)
    (hnone : rendersNoChild v options [] childNodes = true) :
    RendersAs v options (.simple d ptr nodeId typeNodeId b childNodes) j := by
  cases hbare : isVariableClass d.nodeClass && !valueIsMember options d nodeId childNodes with
  | true =>
    -- the value of the variable, as it is
    rw [IsOwnJson, hbare, if_pos rfl] at hj
    subst hj
    rw [Bool.and_eq_true, Bool.not_eq_true'] at hbare
    refine ⟨?_, fun value hvalue => ?_, fun h => ?_, fun _ element typeDefinition j' hj' => ?_⟩
    · simp [rendersNull, hrule, hbare, hnone]
    · simpa [bareValue, hrule, hbare, hnone] using hvalue
    · simp [bareValue, hrule, hbare, hnone] at h
    · rw [dumps_finish_iff hj']
      simp [writesOut, hrule, hbare, hnone]
  | false =>
    -- members, with the value among them if it is a variable
    rw [IsOwnJson, hbare, if_neg Bool.false_ne_true] at hj
    have hmember : isVariableClass d.nodeClass = true →
        valueIsMember options d nodeId childNodes = true := by
      intro hclass
      rw [hclass, Bool.true_and, Bool.not_eq_false'] at hbare
      exact hbare
    refine ⟨?_, fun value hvalue => ?_, fun _ => hj.1.takesMembers,
      fun _ element typeDefinition j' hj' => ?_⟩
    · rw [hj.1.dumpsNull, hj.2]
      cases hclass : isVariableClass d.nodeClass with
      | false => simp [rendersNull, hrule, hclass, hnone]
      | true => simp [rendersNull, hrule, hclass, hmember hclass]
    · simp only [bareValue, hrule, Bool.true_and, hbare, Bool.false_and, Bool.false_eq_true,
        if_false] at hvalue
      cases hvalue
    · rw [hj.1.finish_iff hj']
      cases hclass : isVariableClass d.nodeClass with
      | false => simp [writesOut, hclass]
      | true => simp [writesOut, hrule, hclass, hmember hclass]

/-- With members of children a node is an object. -/
theorem rendersAs_object (hnone : ¬ rendersNoChild v options [] childNodes = true)
    {members : List (String × Json)}
    (hwrites : options.publishNullValues = false → ∀ element typeDefinition j',
      finish element typeDefinition (.object members) = .ok j' → (j'.dumps = true ↔
        writesOut v options element (.simple d ptr nodeId typeNodeId b childNodes) = true)) :
    RendersAs v options (.simple d ptr nodeId typeNodeId b childNodes) (.object members) := by
  refine ⟨?_, fun value hvalue => ?_, fun _ => rfl, hwrites⟩
  · simp [rendersNull, hrule, hnone, Json.dumpsNull]
  · simp [bareValue, hnone] at hvalue

/-- The members of the children go beside those of the node. -/
theorem IsOwnJson.okIff_assign (hj : IsOwnJson v options d ptr nodeId childNodes j)
    (hnone : ¬ rendersNoChild v options [] childNodes = true)
    (hmember : valueIsMember options d nodeId childNodes = true)
    (hwritten : options.publishNullValues = false → children.dumps = true) {key : String}
    (hkey : key ≠ "value") :
    OkIff True (RendersAs v options (.simple d ptr nodeId typeNodeId b childNodes))
      (j.assign key children) := by
  rw [IsOwnJson, hmember, Bool.not_true, Bool.and_false, if_neg Bool.false_ne_true] at hj
  obtain ⟨members, hmembers, hassign⟩ := Json.exists_assign hj.1.takesMembers key children
  rw [hassign]
  refine okIff_ok (rendersAs_object hrule typeNodeId b hnone
    fun hpublish element typeDefinition j' hj' => ?_)
  rw [(hj.1.assign hkey (hwritten hpublish) hassign).finish_iff hj']
  cases hclass : isVariableClass d.nodeClass with
  | false => simp [writesOut, hclass]
  | true => simp [writesOut, hrule, hclass, hmember]

/-- Or they take the place of the value. -/
theorem rendersAs_children (hnone : ¬ rendersNoChild v options [] childNodes = true)
    (hmember : valueIsMember options d nodeId childNodes = false)
    (htakes : children.takesMembers = true)
    (hempty : children.isEmpty = rendersNoChild v options [] childNodes)
    (hwritten : options.publishNullValues = false → children.dumps = true) :
    RendersAs v options (.simple d ptr nodeId typeNodeId b childNodes) children := by
  have hsome : children.isEmpty = false := hempty.trans (Bool.eq_false_iff.mpr hnone)
  cases children with
  | object members =>
    refine rendersAs_object hrule typeNodeId b hnone
      fun hpublish element typeDefinition j' hj' => ?_
    refine iff_of_true (dumps_finish (hwritten hpublish) hj') ?_
    simp [writesOut, hmember, hnone]
  | null => cases hsome
  | _ => cases htakes

/-- Adding the members of the children does not fail either. -/
theorem IsOwnJson.okIff_addChildren (hj : IsOwnJson v options d ptr nodeId childNodes j)
    (htakes : children.takesMembers = true)
    (hempty : children.isEmpty = rendersNoChild v options [] childNodes)
    (hwritten : options.publishNullValues = false → children.dumps = true) :
    OkIff True (RendersAs v options (.simple d ptr nodeId typeNodeId b childNodes))
      (addChildren options d nodeId j children) := by
  rw [addChildren, hempty]
  by_cases hnone : rendersNoChild v options [] childNodes = true
  · rw [if_pos hnone]
    exact okIff_ok (hj.rendersAs hrule typeNodeId b hnone)
  · have hne : childNodes.isEmpty = false := by
      cases childNodes with
      | nil => exact absurd rfl hnone
      | cons n ns => rfl
    rw [if_neg hnone]
    split_ifs with hnest hbase
    · exact hj.okIff_assign hrule typeNodeId b hnone (by simp [valueIsMember, hnest]) hwritten
        (by decide)
    · exact hj.okIff_assign hrule typeNodeId b hnone (by simp [valueIsMember, hbase, hne]) hwritten
        (by decide)
    · exact okIff_ok (rendersAs_children hrule typeNodeId b hnone
        (by simp [valueIsMember, hnest, hbase]) htakes hempty hwritten)

end Children

/-! ### The whole tree -/

/-- What is assigned to is empty only as long as nothing is assigned. -/
private theorem isEmpty_object {members : List (String × Json)} (h : members ≠ []) :
    (Json.object members).isEmpty = false := by simpa [Json.isEmpty] using h

/-- Everything that is needed to render a list of children or of instances. -/
def Renders (v : NodePtr → Json) (options : JsonOptions) (elements children : List Node) : Prop :=
  (∀ el ∈ elements, Fits v options el) ∧ ∀ c ∈ children, WritesOut v options c

@[simp] theorem renders_nil : Renders v options [] [] := by simp [Renders]

theorem renders_append {els els' cs cs' : List Node} :
    Renders v options (els ++ els') (cs ++ cs') ↔
      Renders v options els cs ∧ Renders v options els' cs' := by
  simp only [Renders, List.forall_mem_append]
  tauto

theorem renders_cons_child {els cs : List Node} {n : Node} :
    Renders v options els (n :: cs) ↔ WritesOut v options n ∧ Renders v options els cs := by
  simp only [Renders, List.forall_mem_cons]
  tauto

theorem renders_cons_element {els cs : List Node} {n : Node} :
    Renders v options (n :: els) cs ↔ Fits v options n ∧ Renders v options els cs := by
  simp only [Renders, List.forall_mem_cons]
  tauto

/-- Whether a rendered child is published. -/
theorem RendersAs.publishes {n : Node} {j : Json} (h : RendersAs v options n j) :
    (WritesOut v options n →
      options.publishes j = .ok !(!options.publishNullValues && rendersNull v options n)) ∧
    (¬ WritesOut v options n → ∃ e, options.publishes j = .error e) := by
  rw [JsonOptions.publishes, WritesOut]
  cases hpublish : options.publishNullValues with
  | true => simp [pure, Except.pure]
  | false =>
    have hdumps : j.dumps = true ↔ writesOut v options false n = true :=
      h.written hpublish false ⟨"", ""⟩ j rfl
    rw [← hdumps, ← h.dumpsNull, Json.dumpIsNull]
    cases j.dumps <;> simp [Functor.map, Except.map]

/-- An instance takes its type. -/
theorem RendersAs.okIff_assign {n : Node} {j : Json} (h : RendersAs v options n j)
    (typeDefinition : NodeId) :
    OkIff (Fits v options n)
      (fun j' => options.publishNullValues = false →
        (j'.dumps = true ↔ writesOut v options true n = true))
      (j.assign typeDefinitionKey (.string typeDefinition.toString)) := by
  have hfits : Fits v options n ↔ j.takesMembers = true := by
    cases hbare : bareValue v options n with
    | none =>
      refine iff_of_true (fun value hvalue => ?_) (h.takesMembers hbare)
      simp [hbare] at hvalue
    | some value =>
      rw [Fits, h.bare value hbare, hbare]
      simp
  refine ⟨?_, fun j' hj' hpublish => h.written hpublish true typeDefinition j' hj'⟩
  cases htakes : j.takesMembers with
  | true =>
    obtain ⟨members, -, heq⟩ := Json.exists_assign htakes typeDefinitionKey
      (.string typeDefinition.toString)
    simp [hfits, htakes, heq]
  | false =>
    obtain ⟨e, he⟩ := Json.assign_error htakes typeDefinitionKey (.string typeDefinition.toString)
    simp [hfits, htakes, he]

/-- The members that are not written over can be written out. -/
def DumpsBut (overwritten : List String) (members : List (String × Json)) : Prop :=
  ∀ m ∈ members, m.1 ∈ overwritten ∨ m.2.dumps = true

/-- One more instance is an object among the members. -/
theorem dumpsBut_putMember {overwritten : List String} {name : String} {el : Json}
    {members : List (String × Json)} (hordered : Json.Ordered members) :
    DumpsBut overwritten (Json.putMember name el members) ↔
      (name ∈ overwritten ∨ el.dumps = true) ∧ DumpsBut (name :: overwritten) members := by
  rw [DumpsBut, DumpsBut, Json.forall_mem_putMember hordered]
  simp only [List.mem_cons]
  refine and_congr_right fun _ => forall₂_congr fun m _ => ?_
  tauto

theorem dumpsBut_nil {members : List (String × Json)} :
    DumpsBut [] members ↔ (Json.ofMembers members).dumps = true := by
  simp [DumpsBut, Json.dumps_ofMembers_iff]

/-- The instances of a placeholder, and perhaps its own type, as an object. -/
theorem dumps_finish_ofMembers {members : List (String × Json)} (hordered : Json.Ordered members)
    {element : Bool} {typeDefinition : NodeId} {j' : Json}
    (hj : finish element typeDefinition (.ofMembers members) = .ok j') :
    j'.dumps = true ↔ DumpsBut (if element then [typeDefinitionKey] else []) members := by
  cases element with
  | false => exact Except.ok.inj hj ▸ dumpsBut_nil.symm
  | true =>
    rw [finish, if_pos rfl, assign_ofMembers] at hj
    obtain rfl := Except.ok.inj hj
    rw [← dumpsBut_nil, dumpsBut_putMember hordered, if_pos rfl]
    simp

/-- The object with the instances of a placeholder, beside information about it. -/
theorem dumps_finish_placeholderElements {members : List (String × Json)} {element : Bool}
    {typeDefinition : NodeId} {j' : Json}
    (hj : finish element typeDefinition
      (.ofMembers [("placeholderElements", .ofMembers members)]) = .ok j') :
    j'.dumps = true ↔ DumpsBut [] members := by
  rw [dumps_finish_ofMembers (List.pairwise_singleton _ _) hj, dumpsBut_nil]
  have hne : ("placeholderElements" : String) ≠ typeDefinitionKey := by decide
  cases element <;> simp [DumpsBut, hne]

mutual

/-- **When a node is rendered, and as what**. -/
theorem okIff_modelToJson : ∀ n : Node,
    OkIff (Renders v options (elements n) (renderedChildren n)) (RendersAs v options n)
      (modelToJson v options n)
  | .simple d ptr nodeId typeNodeId b childNodes => by
    by_cases hrule : isSimpleRule d.modellingRule = true
    · have hunfold : modelToJson v options (.simple d ptr nodeId typeNodeId b childNodes) =
          (ownJson v options d ptr nodeId childNodes).bind fun json =>
            (childrenToJson v options [] .null childNodes).bind fun children =>
              addChildren options d nodeId json children := by
        rcases simpleRule_cases hrule with h | h <;> simp only [modelToJson, h] <;> rfl
      rw [hunfold, elements, renderedChildren, if_pos hrule, if_pos hrule]
      refine ((okIff_ownJson d ptr nodeId childNodes).bind fun j hj => ?_).congr
        (iff_of_eq (true_and _)) fun _ => id
      refine ((okIff_childrenToJson [] .null rfl (fun _ => Json.dumps_null) childNodes).bind
        fun children hchildren => ?_).congr (iff_of_eq (and_true _)) fun _ => id
      obtain ⟨htakes, hempty, hwritten⟩ := hchildren
      exact hj.okIff_addChildren hrule typeNodeId b htakes (hempty.trans (Bool.true_and _)) hwritten
    · have hnull : modelToJson v options (.simple d ptr nodeId typeNodeId b childNodes) =
          .ok .null := by
        cases h : d.modellingRule <;> simp_all [isSimpleRule, modelToJson, pure, Except.pure]
      rw [hnull, elements, renderedChildren, if_neg hrule, if_neg hrule]
      refine (okIff_ok ⟨?_, ?_, fun _ => rfl, ?_⟩).congr (by simp) fun _ => id
      · simp [rendersNull, hrule]
      · simp [bareValue, hrule]
      · intro _ element typeDefinition j' hj'
        exact iff_of_true (dumps_finish Json.dumps_null hj') (by simp [writesOut, hrule])
  | .placeholder d instances => by
    have hbare : bareValue v options (.placeholder d instances) = none := rfl
    by_cases hrule : isPlaceholderRule d.modellingRule = true
    · have hunfold : modelToJson v options (.placeholder d instances) =
          (instancesToJson v options .null instances).bind fun placeholderJsonElements =>
            if options.serializeNodeInformation then
              Json.null.assign "placeholderElements" placeholderJsonElements
            else .ok placeholderJsonElements := by
        have hcases : d.modellingRule = .mandatoryPlaceholder ∨
            d.modellingRule = .optionalPlaceholder := by simpa [isPlaceholderRule] using hrule
        rcases hcases with h | h <;> simp only [modelToJson, h] <;> rfl
      rw [hunfold, elements, renderedChildren, if_pos hrule, if_pos hrule]
      refine ((okIff_instancesToJson [] .nil instances).bind fun j hj => ?_).congr
        (iff_of_eq (and_true _)) fun _ => id
      obtain ⟨members, rfl, hordered, hempty, hwritten⟩ := hj
      have hinstances : options.publishNullValues = false → ∀ overwritten,
          DumpsBut overwritten members ↔
            writesOutInstances v options overwritten instances = true := by
        intro hpublish overwritten
        rw [hwritten hpublish overwritten]
        simp [DumpsBut]
      split_ifs with hserialize
      · have hassign : Json.null.assign "placeholderElements" (.ofMembers members) =
            .ok (.ofMembers [("placeholderElements", .ofMembers members)]) := rfl
        rw [hassign]
        refine okIff_ok ⟨?_, by simp [hbare], fun _ => rfl, ?_⟩
        · simp [rendersNull, hrule, hserialize, Json.ofMembers]
        · intro hpublish element typeDefinition j' hj'
          rw [dumps_finish_placeholderElements hj', hinstances hpublish]
          simp [writesOut, hrule, hserialize]
      · refine okIff_ok ⟨?_, by simp [hbare], fun _ => ?_, ?_⟩
        · have hnull : (Json.ofMembers members).dumpsNull = members.isEmpty := by
            cases members <;> rfl
          rw [hnull, hempty]
          simp [rendersNull, hrule, hserialize]
        · cases members <;> rfl
        · intro hpublish element typeDefinition j' hj'
          rw [dumps_finish_ofMembers hordered hj', hinstances hpublish]
          simp [writesOut, hrule, hserialize]
    · have hnull : modelToJson v options (.placeholder d instances) = .ok .null := by
        cases h : d.modellingRule <;> simp_all [isPlaceholderRule, modelToJson, pure, Except.pure]
      rw [hnull, elements, renderedChildren, if_neg hrule, if_neg hrule]
      refine (okIff_ok ⟨?_, by simp [hbare], fun _ => rfl, ?_⟩).congr (by simp) fun _ => id
      · simp [rendersNull, hrule]
      · intro _ element typeDefinition j' hj'
        exact iff_of_true (dumps_finish Json.dumps_null hj') (by simp [writesOut, hrule])

theorem okIff_childrenToJson : ∀ (visited : List QualifiedName) (children : Json)
    (_ : children.takesMembers = true)
    (_ : options.publishNullValues = false → children.dumps = true) (ns : List Node),
    OkIff
      (Renders v options (elementsOfChildren visited ns) (renderedChildrenOfChildren visited ns))
      (fun j => j.takesMembers = true ∧
        j.isEmpty = (children.isEmpty && rendersNoChild v options visited ns) ∧
        (options.publishNullValues = false → j.dumps = true))
      (childrenToJson v options visited children ns)
  | visited, children, hchildren, hdumps, [] => by
    rw [childrenToJson]
    exact (okIff_ok ⟨hchildren, (Bool.and_true _).symm, hdumps⟩).congr
      (by simp [elementsOfChildren, renderedChildrenOfChildren]) fun _ => id
  | visited, children, hchildren, hdumps, n :: ns => by
    rw [childrenToJson, elementsOfChildren, renderedChildrenOfChildren, rendersNoChild]
    split_ifs with hvisited
    · -- a browse name that was visited is skipped
      exact okIff_childrenToJson visited children hchildren hdumps ns
    · refine ((okIff_modelToJson n).bind fun j hj => ?_).congr
        (renders_append.trans (and_congr_right fun _ => renders_cons_child)).symm fun _ => id
      by_cases hwrites : WritesOut v options n
      · -- the child is published, or written as null
        rw [hj.publishes.1 hwrites]
        show OkIff _ _ (if _ then _ else _)
        have hdumps' : options.publishNullValues = false → j.dumps = true := fun hpublish =>
          (hj.written hpublish false ⟨"", ""⟩ j rfl).mpr (hwrites hpublish)
        cases hhidden : !options.publishNullValues && rendersNull v options n with
        | true =>
          rw [Bool.true_and]
          exact (okIff_childrenToJson _ children hchildren hdumps ns).congr
            (by simp [hwrites]) fun _ => id
        | false =>
          obtain ⟨members, hne, hassign⟩ := Json.exists_assign hchildren
            n.definition.specifiedBrowseName.name j
          have hmembers : options.publishNullValues = false →
              (Json.object members).dumps = true := fun hpublish =>
            dumps_assign (hdumps hpublish) (hdumps' hpublish) hassign
          rw [Bool.not_false, if_pos rfl, hassign]
          refine (okIff_childrenToJson _ (.object members) rfl hmembers ns).congr
            (by simp [hwrites]) fun j' hj' => ?_
          rw [isEmpty_object hne, Bool.false_and] at hj'
          rw [Bool.false_and, Bool.and_false]
          exact hj'
      · obtain ⟨e, he⟩ := hj.publishes.2 hwrites
        rw [he]
        exact okIff_error fun h => hwrites h.1

theorem okIff_instancesToJson : ∀ (members : List (String × Json)) (_ : Json.Ordered members)
    (instances : List (PlaceholderElement Node)),
    OkIff
      (Renders v options (elementsOfInstances instances) (renderedChildrenOfInstances instances))
      (fun j => ∃ result, j = .ofMembers result ∧ Json.Ordered result ∧
        result.isEmpty = (members.isEmpty && instances.isEmpty) ∧
        (options.publishNullValues = false → ∀ overwritten, DumpsBut overwritten result ↔
          DumpsBut (instances.map (·.browseName.name) ++ overwritten) members ∧
            writesOutInstances v options overwritten instances = true))
      (instancesToJson v options (.ofMembers members) instances)
  | members, hordered, [] => by
    rw [instancesToJson]
    refine (okIff_ok ⟨members, rfl, hordered, (Bool.and_true _).symm, ?_⟩).congr
      (by simp [elementsOfInstances, renderedChildrenOfInstances]) fun _ => id
    simp [writesOutInstances]
  | members, hordered, ⟨pNode, browseName, typeDefinition⟩ :: rest => by
    rw [instancesToJson, elementsOfInstances, renderedChildrenOfInstances]
    refine ((okIff_modelToJson pNode).bind fun j hj => ?_).congr
      (renders_append.trans (and_congr_right fun _ => renders_cons_element)).symm fun _ => id
    refine (hj.okIff_assign typeDefinition).bind fun el hel => ?_
    rw [assign_ofMembers]
    refine (okIff_instancesToJson (Json.putMember browseName.name el members)
      (Json.ordered_putMember hordered) rest).congr Iff.rfl ?_
    rintro - ⟨result, rfl, hresult, hempty, hwritten⟩
    refine ⟨result, rfl, hresult, ?_, fun hpublish overwritten => ?_⟩
    · rw [hempty]
      simp [Json.putMember_ne_nil]
    · rw [hwritten hpublish, dumpsBut_putMember hordered, writesOutInstances, hel hpublish]
      simp only [Bool.and_eq_true, Bool.or_eq_true, List.contains_iff_mem, List.any_eq_true,
        beq_iff_eq, List.mem_append, List.mem_map, List.map_cons, List.cons_append]
      rw [or_comm (a := browseName.name ∈ overwritten)]
      exact ⟨fun ⟨⟨hel, hmembers⟩, hrest⟩ => ⟨hmembers, hel, hrest⟩,
        fun ⟨hmembers, hel, hrest⟩ => ⟨⟨hel, hmembers⟩, hrest⟩⟩

end

/-- **A tree has a JSON if and only if the bare values of its instances take members and the JSON
of every child can be written out**. -/
theorem modelToJson_ok_iff (n : Node) :
    (∃ j, modelToJson v options n = .ok j) ↔
      (∀ el ∈ elements n, Fits v options el) ∧ ∀ c ∈ renderedChildren n, WritesOut v options c :=
  (okIff_modelToJson n).1

/-! ### A cell with a sensor -/

/-- A type of cells with sensors, which are variables. -/
def cellTypes : TypeHierarchy where
  variableTypes :=
    [.node ⟨.variableType, ⟨"urn:cell", "i=2"⟩, ⟨"", ""⟩, WellKnown.hasComponent,
      ⟨"urn:cell", "SensorType"⟩⟩ .optional []]
  objectTypes :=
    [.node ⟨.objectType, ⟨"urn:cell", "i=1"⟩, ⟨"", ""⟩, WellKnown.hasComponent,
      ⟨"urn:cell", "CellType"⟩⟩ .optional
      [.node ⟨.variable, ⟨"urn:cell", "i=3"⟩, ⟨"urn:cell", "i=2"⟩, WellKnown.hasComponent,
        ⟨"urn:cell", "Sensor"⟩⟩ .optionalPlaceholder []]]

def cellReader : OpcUaTypeReader :=
  (OpcUaTypeReader.create ["urn:cell"] []).readTypes cellTypes [WellKnown.ns0Uri, "urn:cell"]

def cellType : NodeRef := (cellReader.typeMap[(⟨"urn:cell", "i=1"⟩ : NodeId)]?).getD 0

/-- A server with one sensor. -/
def cellAnswers : Answers where
  browse _ _ := .ok []
  browseWithResultTypeFilter _ _ _ :=
    .ok [⟨.variable, ⟨"urn:cell", "i=12"⟩, ⟨"urn:cell", "i=2"⟩, WellKnown.hasComponent,
      ⟨"urn:cell", "Temperature"⟩⟩]
  translateBrowsePathToNodeId _ _ := .ok ⟨"", ""⟩

open DashboardClient in
/-- The tree of the cell cannot be rendered when the temperature is a number. -/
theorem not_modelToJson_total :
    ¬ ∀ (A : Answers) (expectedObjectTypeNamespaces namespaces : List String)
      (namespaceInformations : List NamespaceInformation) (H : TypeHierarchy) (fuel : ℕ)
      (startNode : NodeId) (pTypeDefinition : NodeRef) (s : Session Unit) (n : Node),
      ((transformToNodeIds A.client ((OpcUaTypeReader.create expectedObjectTypeNamespaces
        namespaceInformations).readTypes H namespaces) fuel startNode pTypeDefinition).run s).1 =
          .ok n →
      ∀ (v : NodePtr → Json) (options : JsonOptions), ∃ j, modelToJson v options n = .ok j := by
  intro htotal
  have hfails : (((fun n => (modelToJson (fun _ => .integer 21) {} n).toBool) <$>
      transformToNodeIds cellAnswers.client cellReader 2 ⟨"urn:cell", "i=11"⟩ cellType).run
        ⟨(), .new⟩).1 = .ok false := by decide +kernel
  obtain ⟨n, hn⟩ : ∃ n, ((transformToNodeIds cellAnswers.client cellReader 2
      ⟨"urn:cell", "i=11"⟩ cellType).run ⟨(), .new⟩).1 = .ok n := by
    refine Outcome.returns_iff.mp ?_
    decide +kernel
  obtain ⟨j, hj⟩ := htotal cellAnswers ["urn:cell"] [WellKnown.ns0Uri, "urn:cell"] [] cellTypes 2
    ⟨"urn:cell", "i=11"⟩ cellType ⟨(), .new⟩ n hn (fun _ => .integer 21) {}
  have hrun : (transformToNodeIds cellAnswers.client cellReader 2 ⟨"urn:cell", "i=11"⟩
      cellType).run ⟨(), .new⟩ = (.ok n, _) := Prod.ext hn rfl
  rw [map_eq_pure_bind, Prog.run_bind, hrun] at hfails
  have hsame : (modelToJson (fun _ => .integer 21) {} n).toBool = false := Outcome.ok.inj hfails
  rw [hj] at hsame
  exact Bool.noConfusion hsame

end ModelToJson

end UmatiDashboard
