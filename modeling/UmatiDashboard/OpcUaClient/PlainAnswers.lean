import UmatiDashboard.DataClient.Answers
import UmatiDashboard.Effect.Determined
import UmatiDashboard.OpcUaClient.CachingClient
import UmatiDashboard.OpcUaClient.SuperTypes

/-!
# Answers without a connection or a cache

`ServerAddressSpace` says what a server has to tell about its nodes, and `answers` is what this
means in the terms of the model: no connection, no cache, no order of calls. A stack that `Serves`
such a server answers as the server would, or a call fails. A Browse that fails may come back
without a result, and is then taken for one of a node without references.
-/

namespace UmatiDashboard

/-- A server with an address space that does not change. For every node that is to be browsed there
is a result, and a path that leads somewhere has a target. -/
structure ServerAddressSpace (ι : Type) where
  namespaceArray : List String
  nodeClass : UaIndexedNodeId ι → Option NodeClass
  browse : UaIndexedNodeId ι → UaBrowseDescription ι → UaBrowseResponse (UaIndexedNodeId ι)
  translate : UaIndexedNodeId ι → UInt16 × String → UaBrowsePathResult (UaIndexedNodeId ι)
  results_ne_nil : ∀ nodeId description, (browse nodeId description).results ≠ []
  targets_ne_nil : ∀ nodeId browseName,
    isBadStatus (translate nodeId browseName).statusCode = false →
      (translate nodeId browseName).targets ≠ []

namespace ServerAddressSpace

variable {ι : Type} [DecidableEq ι] (space : ServerAddressSpace ι) (statusName : UInt32 → String)
  (text : IdentifierText ι)

/-! ### The plain answers -/

def cache : NamespaceCache := NamespaceCache.fillNamespaceCache 0 space.namespaceArray .empty

/-- An exception if the status is bad. -/
def checked (status : UInt32) : Except Exception Unit :=
  if isBadStatus status then .error (.ofStatus statusName status) else .ok ()

theorem checked_bind_of_bad {statusName : UInt32 → String} {α : Type} {status : UInt32}
    (h : isBadStatus status = true) {f : Unit → Except Exception α} :
    (checked statusName status >>= f) = .error (.ofStatus statusName status) := by
  rw [checked, if_pos h]
  rfl

/-- The supertype of a type. -/
def superType (t : UaIndexedNodeId ι) : Except Exception (Option (UaIndexedNodeId ι)) :=
  if ServiceClient.isTypeClass (space.nodeClass t) then do
    let response := space.browse t (superTypeDescription text (space.nodeClass t))
    checked statusName response.firstStatus
    pure (ServiceClient.superTypeOf response.references)
  else .error (.umati "Invalid NodeClass")

/-- The supertype, if there is one that can be found. -/
def above (t : UaIndexedNodeId ι) : Option (UaIndexedNodeId ι) :=
  (space.superType statusName text t).toOption.join

/-- Climb from a type to the expected one, past as many types as `height`. -/
def isA (expectedType : Option (UaIndexedNodeId ι)) :
    ℕ → Option (UaIndexedNodeId ι) → Except Exception Bool
  | 0, _ => .ok false
  | _ + 1, none => .ok false
  | height + 1, some checkType =>
    if expectedType = some checkType then .ok true else do
    let superType ← space.superType statusName text checkType
    isA expectedType height superType

/-- A type and those above it are not more than `height`, and their ids are not kept on the heap:
the supertype of a type is copied from a response that has been cleared. -/
structure Climbable (height : ℕ) : Prop where
  bounded : ∀ t, ancestor (space.above statusName text) height (some t) = none
  notOnHeap : ∀ t, ServiceClient.copiesFreed
    (space.browse t (superTypeDescription text (space.nodeClass t))).references = false

omit [DecidableEq ι] in
theorem Climbable.ancestor_eq_none {space : ServerAddressSpace ι} {statusName : UInt32 → String}
    {text : IdentifierText ι} {height : ℕ} (h : space.Climbable statusName text height)
    (checkType : Option (UaIndexedNodeId ι)) :
    ancestor (space.above statusName text) height checkType = none := by
  cases checkType with
  | none => exact ancestor_none _ _
  | some t => exact h.bounded t

/-- The references of a node that pass the filter. -/
def references (startNode : NodeId) (browseContext : UaBrowseDescription ι)
    (filter : UaReferenceDescription (UaIndexedNodeId ι) → Except Exception Bool) :
    Except Exception (List BrowseResult) := do
  let response := space.browse (space.cache.modelNodeIdToUaNodeId text startNode) browseContext
  checked statusName response.firstStatus
  List.flatten <$> response.references.mapM fun ref => do
    if ← filter ref then
      let entry ← space.cache.referenceToBrowseResult text ref
      pure [entry]
    else pure []

/-- What the address space means for the calls that read, with types up to a height. -/
def answers (height : ℕ) : Answers where
  browse startNode browseContext :=
    space.references statusName text startNode (space.cache.getUaBrowseContext text browseContext)
      fun _ => .ok true
  browseWithResultTypeFilter startNode browseContext typeDefinition := do
    let typeDefinitionUaNodeId := space.cache.modelNodeIdToUaNodeId text typeDefinition
    let nodeClassMask ← nodeClassFromNodeId (space.nodeClass typeDefinitionUaNodeId)
    space.references statusName text startNode
      { space.cache.getUaBrowseContext text browseContext with nodeClassMask := nodeClassMask }
      fun ref => space.isA statusName text (text.nonNull typeDefinitionUaNodeId) height
        ref.typeDefinition
  translateBrowsePathToNodeId startNode browseName :=
    if browseName.isNull then .error (.std "browseName is NULL") else
    if startNode.isNull then .error (.std "startNode is NULL") else do
    let result := space.translate (space.cache.modelNodeIdToUaNodeId text startNode)
      (space.cache.modelQualifiedNameToUaQualifiedName browseName)
    checked statusName result.statusCode
    pure (space.cache.uaNodeIdToModelNodeId text (text.idOf result.targets.head?.join))

/-- Whether a type is the expected one or below it. -/
def isSameOrSubtype (height : ℕ) (expectedType checkType : NodeId) : Bool :=
  (space.isA statusName text
    (text.nonNull (space.cache.modelNodeIdToUaNodeId text expectedType)) height
    (text.nonNull (space.cache.modelNodeIdToUaNodeId text checkType))).toOption.getD false

end ServerAddressSpace

/-! ### Clients and stacks in order -/

section Order

variable {χ ι α : Type} [DecidableEq ι] (space : ServerAddressSpace ι)
  (statusName : UInt32 → String) (text : IdentifierText ι) (mayFail unanswered : Prop)

/-- The supertypes that the client remembers are those of the server, and it is connected unless it
may fail. -/
structure ServiceClient.Fits (s : ServiceClient χ (UaIndexedNodeId ι)) : Prop where
  superTypes : ∀ t known,
    s.superTypes t = some known → space.superType statusName text t = .ok known
  isConnected : ¬ mayFail → s.isConnected = true

/-- The client knows the namespace table as well. -/
structure CachingClient.Fits (c : CachingClient χ ι) : Prop where
  cache : c.cache = space.cache
  client : c.client.Fits space statusName text mayFail

/-- The stack answers as the server would, or it may fail and has no session or a bad status. A
Browse may also be left unanswered, that is, come back without a result; browsing a supertype and
Translate, which access the first result unseen, may not. -/
structure StackAnswers.Serves (a : StackAnswers ι) : Prop where
  namespaceArray : a.namespaceArray = space.namespaceArray
  typeIsConnected : ¬ mayFail → a.typeIsConnected = true
  sessionIsConnected : ¬ mayFail → a.sessionIsConnected = true
  superTypeIsConnected : ¬ mayFail → ∀ t, a.superTypeIsConnected t = true
  nodeClass : ∀ nodeId, a.nodeClass nodeId = space.nodeClass nodeId ∨
    mayFail ∧ a.nodeClass nodeId = none
  browse : ∀ nodeId description,
    a.browse nodeId description = space.browse nodeId description ∨
      mayFail ∧ isBadStatus (a.browse nodeId description).firstStatus = true ∨
        unanswered ∧ (a.browse nodeId description).results = []
  superTypes : ∀ t, (a.types text t).response.results ≠ []
  translate : ∀ nodeId browseName, ∃ first rest,
    (a.translate nodeId browseName).results = first :: rest ∧
      (first = space.translate nodeId browseName ∨ mayFail ∧ isBadStatus first.statusCode = true)

end Order

open ServerAddressSpace (checked)

/-! ### The steps of an operation -/

namespace ServiceClient

section Steps

variable {χ ι α : Type} {statusName : UInt32 → String}
  {I : ServiceClient χ (UaIndexedNodeId ι) → Prop} {excused : Exception → Prop}

theorem determined_lift (answer : Except Exception α) :
    (lift answer : ServiceM χ (UaIndexedNodeId ι) α).Determined I excused answer := by
  intro s hs
  cases answer with
  | ok a => exact ⟨hs, .inl rfl⟩
  | error e => exact ⟨hs, .inl rfl⟩

theorem determined_throwIfBad (status : UInt32) :
    (throwIfBad statusName status : ServiceM χ (UaIndexedNodeId ι) Unit).Determined I excused
      (checked statusName status) := by
  unfold throwIfBad checked
  split_ifs
  · exact Prog.determined_throw _
  · exact Prog.determined_pure _

theorem determined_throwIfFirstBad (response : UaBrowseResponse (UaIndexedNodeId ι)) :
    (throwIfFirstBad statusName response.results :
      ServiceM χ (UaIndexedNodeId ι) Unit).Determined I excused
        (checked statusName response.firstStatus) := by
  unfold UaBrowseResponse.firstStatus
  cases response.results with
  | nil =>
    have hgood : checked statusName 0 = .ok () := if_neg (by decide)
    exact hgood ▸ Prog.determined_pure ()
  | cons first rest => exact determined_throwIfBad first.statusCode

/-- What is made of the answer to browsing a supertype. -/
theorem determined_superTypeOf {response : UaBrowseResponse (UaIndexedNodeId ι)}
    (h : response.results ≠ [])
    (hcopy : isBadStatus response.firstStatus = false →
      copiesFreed response.references = false) :
    ((do
      let first ← Prog.front response.results
      throwIfBad statusName first.statusCode
      copySuperType response.references) : ServiceM χ (UaIndexedNodeId ι) _).Determined
        I excused (do
          checked statusName response.firstStatus
          pure (superTypeOf response.references)) := by
  obtain ⟨first, rest, hresults⟩ := List.exists_cons_of_ne_nil h
  have hstatus : response.firstStatus = first.statusCode := by
    rw [UaBrowseResponse.firstStatus, hresults]
    rfl
  rw [hresults, hstatus]
  refine (determined_throwIfBad first.statusCode).bind fun _ hgood => ?_
  have hfirst : isBadStatus first.statusCode = false := by
    by_contra hbad
    rw [checked, if_pos (by simpa using hbad)] at hgood
    cases hgood
  rw [copySuperType, hcopy (hstatus ▸ hfirst), if_neg Bool.false_ne_true]
  exact Prog.determined_pure _

/-- Appending what the elements give is joining it. -/
private theorem foldlM_append {β γ : Type} (g : β → Except Exception (List γ)) (bs : List β)
    (acc : List γ) :
    bs.foldlM (fun acc b => do let entry ← g b; pure (acc ++ entry)) acc =
      (fun entries => acc ++ entries.flatten) <$> bs.mapM g := by
  induction bs generalizing acc with
  | nil => simp
  | cons b bs ih =>
    rw [List.foldlM_cons, List.mapM_cons]
    simp only [bind_assoc, pure_bind, map_bind, map_pure, ih, List.flatten_cons]
    simp only [map_eq_pure_bind, List.append_assoc]

/-- The loop over the references, with a filter that is determined. -/
theorem determined_referenceDescriptionsToBrowseResults
    {filter : UaReferenceDescription (UaIndexedNodeId ι) → ServiceM χ (UaIndexedNodeId ι) Bool}
    {keep : UaReferenceDescription (UaIndexedNodeId ι) → Except Exception Bool}
    (hfilter : ∀ ref, (filter ref).Determined I excused (keep ref))
    (convert : UaReferenceDescription (UaIndexedNodeId ι) → Except Exception BrowseResult)
    (refs : List (UaReferenceDescription (UaIndexedNodeId ι))) :
    (referenceDescriptionsToBrowseResults filter convert refs).Determined I excused
      (List.flatten <$> refs.mapM fun ref => do
        if ← keep ref then
          let entry ← convert ref
          pure [entry]
        else pure []) := by
  have hloop := foldlM_append (fun ref => do
    if ← keep ref then
      let entry ← convert ref
      pure [entry]
    else pure []) refs []
  simp only [List.nil_append] at hloop
  rw [← hloop]
  refine Prog.determined_foldEach (fun browseResult ref => ?_) [] refs
  refine Prog.Determined.bind ?_ fun entry _ => Prog.determined_pure _
  refine (hfilter ref).bind fun kept _ => ?_
  cases kept with
  | true => exact (determined_lift (convert ref)).bind fun entry _ => Prog.determined_pure _
  | false => exact Prog.determined_pure _

end Steps

variable {χ ι : Type} {space : ServerAddressSpace ι} {statusName : UInt32 → String}
  {text : IdentifierText ι} {mayFail unanswered : Prop} {a : StackAnswers ι}

theorem determined_verifyConnected {sessionIsConnected : Bool}
    (h : ¬ mayFail → sessionIsConnected = true) :
    (verifyConnected sessionIsConnected : ServiceM χ (UaIndexedNodeId ι) Unit).Determined
      (Fits space statusName text mayFail) (fun _ => mayFail) (.ok ()) := by
  intro s hs
  rw [ends_verifyConnected]
  refine ⟨fun _ => ⟨hs, .inl rfl⟩, fun hlost => ?_⟩
  have hfail : mayFail := by
    by_contra hnot
    exact hlost ⟨hs.isConnected hnot, h hnot⟩
  exact ⟨⟨hs.superTypes, fun hnot => absurd hfail hnot⟩, .inr ⟨_, hfail, rfl⟩⟩

theorem determined_browseSuperType (ha : a.Serves space text mayFail unanswered) {height : ℕ}
    (hheight : space.Climbable statusName text height) (t : UaIndexedNodeId ι) :
    (browseSuperType statusName (a.types text t) :
      ServiceM χ (UaIndexedNodeId ι) _).Determined (Fits space statusName text mayFail)
        (fun _ => mayFail) (space.superType statusName text t) := by
  refine (determined_verifyConnected fun hnot => ha.superTypeIsConnected hnot t).bind_ok ?_
  have hresults := ha.superTypes t
  simp only [StackAnswers.types] at hresults ⊢
  rcases ha.nodeClass t with hclass | ⟨hfail, hclass⟩
  · rw [hclass, ServerAddressSpace.superType]
    rw [hclass] at hresults
    by_cases htype : isTypeClass (space.nodeClass t) = true
    · rw [if_pos htype, throwIfNoType, if_pos htype, pure_bind]
      rcases ha.browse t (superTypeDescription text (space.nodeClass t)) with
        hbrowse | ⟨hfail, hbad⟩ | ⟨-, hnil⟩
      · rw [hbrowse]
        exact determined_superTypeOf (space.results_ne_nil t _) fun _ => hheight.notOnHeap t
      · exact (determined_superTypeOf hresults fun hgood => absurd hbad (by simp [hgood])).excuse
          (ServerAddressSpace.checked_bind_of_bad hbad) hfail _
      · exact absurd hnil hresults
    · rw [if_neg htype, throwIfNoType, if_neg htype]
      exact Prog.determined_throw _
  · rw [hclass]
    exact (Prog.determined_throw (Exception.umati "Invalid NodeClass")).excuse rfl hfail _

variable [DecidableEq ι]

/-- Remembering a supertype that was found. -/
theorem Fits.update {s : ServiceClient χ (UaIndexedNodeId ι)}
    (hs : s.Fits space statusName text mayFail) {t : UaIndexedNodeId ι}
    {known : Option (UaIndexedNodeId ι)} (ht : space.superType statusName text t = .ok known) :
    Fits space statusName text mayFail
      { s with superTypes := Function.update s.superTypes t (some known) } := by
  refine ⟨fun u other hu => ?_, hs.isConnected⟩
  have hu : Function.update s.superTypes t (some known) u = some other := hu
  by_cases heq : u = t
  · subst heq
    rw [Function.update_self] at hu
    obtain rfl := Option.some.inj hu
    exact ht
  · rw [Function.update_of_ne heq] at hu
    exact hs.superTypes u other hu

/-- **A climb with what is remembered is the plain climb.** -/
theorem determined_isSameOrSubtype (ha : a.Serves space text mayFail unanswered) {bound : ℕ}
    (hbound : space.Climbable statusName text bound)
    (expectedType : Option (UaIndexedNodeId ι)) (height : ℕ) :
    ∀ (checkType : Option (UaIndexedNodeId ι)) (fuel : ℕ) (maxDepth : UInt64),
      ancestor (space.above statusName text) height checkType = none → height < fuel →
      (isSameOrSubtype statusName (a.types text) fuel expectedType checkType maxDepth :
        ServiceM χ (UaIndexedNodeId ι) Bool).Determined (Fits space statusName text mayFail)
          (fun _ => mayFail) (space.isA statusName text expectedType height checkType) := by
  induction height with
  | zero =>
    intro checkType fuel maxDepth hend hfuel
    obtain rfl : checkType = none := hend
    obtain ⟨fuel, rfl⟩ := Nat.exists_eq_succ_of_ne_zero (Nat.ne_of_gt hfuel)
    exact Prog.determined_pure false
  | succ height ih =>
    intro checkType fuel maxDepth hend hfuel
    obtain ⟨fuel, rfl⟩ := Nat.exists_eq_succ_of_ne_zero (Nat.ne_of_gt (Nat.zero_lt_of_lt hfuel))
    have hfuel : height < fuel := Nat.lt_of_succ_lt_succ hfuel
    cases checkType with
    | none => exact Prog.determined_pure false
    | some t =>
      rw [ServerAddressSpace.isA]
      by_cases hexpected : expectedType = some t
      · rw [isSameOrSubtype, if_pos hexpected, if_pos hexpected]
        exact Prog.determined_pure true
      rw [if_neg hexpected]
      -- the climb goes on with a supertype that is the right one
      have hnext : ∀ known, space.superType statusName text t = .ok known →
          (isSameOrSubtype statusName (a.types text) fuel expectedType known (maxDepth - 1) :
            ServiceM χ (UaIndexedNodeId ι) Bool).Determined (Fits space statusName text mayFail)
              (fun _ => mayFail) (space.isA statusName text expectedType height known) := by
        intro known hknown
        refine ih known fuel (maxDepth - 1) ?_ hfuel
        rwa [ancestor_succ, ServerAddressSpace.above, hknown] at hend
      intro s hs
      cases hremembered : s.superTypes t with
      | some known =>
        have hknown := hs.superTypes t known hremembered
        rw [Prog.ends_iff_run, run_isSameOrSubtype_known _ fuel maxDepth hexpected hremembered,
          hknown]
        exact hnext known hknown s hs
      | none =>
        rw [Prog.ends_iff_run, run_isSameOrSubtype_browse _ fuel maxDepth hexpected hremembered]
        refine ((determined_browseSuperType ha hbound t).bind fun known hknown => ?_) s hs
        exact (Prog.determined_modify fun s hs => hs.update hknown).bind_ok (hnext known hknown)

end ServiceClient

/-! ### The operations -/

namespace CachingClient

variable {χ ι α : Type} {space : ServerAddressSpace ι} {statusName : UInt32 → String}
  {text : IdentifierText ι} {mayFail unanswered : Prop} {a : StackAnswers ι}
  {excused : Exception → Prop}

theorem determined_service {p : ServiceM χ (UaIndexedNodeId ι) α} {answer : Except Exception α}
    (hp : p.Determined (ServiceClient.Fits space statusName text mayFail) excused answer) :
    (service p).Determined (Fits space statusName text mayFail) excused answer :=
  hp.zoom (fun _ hc => hc.client) fun _ _ hc hs => ⟨hc.cache, hs⟩

/-- Reading the same namespace table again changes nothing. -/
theorem cache_updateNamespaceCache (ha : a.Serves space text mayFail unanswered)
    (s : NamespaceState) :
    (s.updateNamespaceCache a.namespaceArray).cache = space.cache := by
  rw [ha.namespaceArray, NamespaceState.updateNamespaceCache]
  split_ifs <;> rfl

theorem determined_updateNamespaceCache (ha : a.Serves space text mayFail unanswered) :
    (updateNamespaceCache a : CachingM χ ι Unit).Determined (Fits space statusName text mayFail)
      excused (.ok ()) :=
  Prog.determined_modify fun c hc => ⟨cache_updateNamespaceCache ha c.namespaces, hc.client⟩

theorem determined_throwIfFirstBad (ha : a.Serves space text mayFail unanswered)
    (uaResult : UaBrowseResponse (UaIndexedNodeId ι)) :
    (throwIfFirstBad statusName a uaResult : CachingM χ ι Unit).Determined
      (Fits space statusName text mayFail) excused (checked statusName uaResult.firstStatus) := by
  have hthrow : (service (ServiceClient.throwIfFirstBad statusName uaResult.results) :
      CachingM χ ι Unit).Determined (Fits space statusName text mayFail) excused
        (checked statusName uaResult.firstStatus) :=
    determined_service (ServiceClient.determined_throwIfFirstBad uaResult)
  unfold throwIfFirstBad
  split_ifs
  · exact (determined_updateNamespaceCache ha).bind_ok hthrow
  · exact hthrow

variable {filter : UaReferenceDescription (UaIndexedNodeId ι) → ServiceM χ (UaIndexedNodeId ι) Bool}
  {keep : UaReferenceDescription (UaIndexedNodeId ι) → Except Exception Bool}

variable (statusName) in
/-- What is made of a Browse response. -/
theorem determined_browseResponse (ha : a.Serves space text mayFail unanswered)
    (hfilter : ∀ ref, (filter ref).Determined (ServiceClient.Fits space statusName text mayFail)
      excused (keep ref))
    (convert : UaReferenceDescription (UaIndexedNodeId ι) → Except Exception BrowseResult)
    (uaResult : UaBrowseResponse (UaIndexedNodeId ι)) :
    (do
      throwIfFirstBad statusName a uaResult
      service (ServiceClient.referenceDescriptionsToBrowseResults filter convert
        uaResult.references)).Determined (Fits space statusName text mayFail) excused (do
          checked statusName uaResult.firstStatus
          List.flatten <$> uaResult.references.mapM fun ref => do
            if ← keep ref then
              let entry ← convert ref
              pure [entry]
            else pure []) :=
  (determined_throwIfFirstBad ha uaResult).bind fun _ _ => determined_service
    (ServiceClient.determined_referenceDescriptionsToBrowseResults hfilter convert
      uaResult.references)

/-- A Browse that is left unanswered is taken for one of a node without references. -/
def OrNothing (unanswered : Prop) (answer r : Except Exception (List BrowseResult)) : Prop :=
  r = answer ∨ unanswered ∧ r = .ok []

variable (filter) in
theorem determined_browseWithContextAndFilter (ha : a.Serves space text mayFail unanswered)
    (startNode : NodeId) (browseContext : UaBrowseDescription ι)
    (hfilter : ∀ ref, (filter ref).Determined (ServiceClient.Fits space statusName text mayFail)
      (fun _ => mayFail) (keep ref)) :
    ∃ r, OrNothing unanswered (space.references statusName text startNode browseContext keep) r ∧
      (browseWithContextAndFilter statusName text a startNode browseContext filter).Determined
        (Fits space statusName text mayFail) (fun _ => mayFail) r := by
  have hdetermined : ∀ r, (do
      throwIfFirstBad statusName a
        (a.browse (space.cache.modelNodeIdToUaNodeId text startNode) browseContext)
      service (ServiceClient.referenceDescriptionsToBrowseResults filter
        (space.cache.referenceToBrowseResult text)
        (a.browse (space.cache.modelNodeIdToUaNodeId text startNode)
          browseContext).references)).Determined (Fits space statusName text mayFail)
            (fun _ => mayFail) r →
      (browseWithContextAndFilter statusName text a startNode browseContext filter).Determined
        (Fits space statusName text mayFail) (fun _ => mayFail) r := by
    intro r hr
    refine Prog.determined_get_bind fun c hc => ?_
    rw [hc.cache]
    exact (determined_service
      (ServiceClient.determined_verifyConnected ha.sessionIsConnected)).bind_ok hr
  rcases ha.browse (space.cache.modelNodeIdToUaNodeId text startNode) browseContext with
    hbrowse | ⟨hfail, hbad⟩ | ⟨hun, hnil⟩
  · refine ⟨_, .inl rfl, hdetermined _ ?_⟩
    rw [hbrowse]
    exact determined_browseResponse statusName ha hfilter _ _
  · exact ⟨_, .inl rfl, hdetermined _ ((determined_browseResponse statusName ha hfilter _ _).excuse
      (ServerAddressSpace.checked_bind_of_bad hbad) hfail _)⟩
  · refine ⟨_, .inr ⟨hun, rfl⟩, hdetermined _ ?_⟩
    -- without results there are no references, and no first status to look at
    have hresponse := determined_browseResponse statusName ha hfilter
      (space.cache.referenceToBrowseResult text)
      (a.browse (space.cache.modelNodeIdToUaNodeId text startNode) browseContext)
    have hreferences : (a.browse (space.cache.modelNodeIdToUaNodeId text startNode)
        browseContext).references = [] := by
      rw [UaBrowseResponse.references, hnil]
      rfl
    have hstatus : checked statusName (a.browse (space.cache.modelNodeIdToUaNodeId text startNode)
        browseContext).firstStatus = .ok () := by
      have hgood : checked statusName 0 = .ok () := if_neg (by decide)
      rw [UaBrowseResponse.firstStatus, hnil]
      exact hgood
    rw [hreferences, hstatus] at hresponse
    rw [hreferences]
    exact hresponse

/-- **Browse.** -/
theorem determined_browse (ha : a.Serves space text mayFail unanswered) (startNode : NodeId)
    (browseContext : BrowseContext) (height : ℕ) [DecidableEq ι] :
    ∃ r, OrNothing unanswered
        ((space.answers statusName text height).browse startNode browseContext) r ∧
      (browse statusName text a startNode browseContext : CachingM χ ι _).Determined
        (Fits space statusName text mayFail) (fun _ => mayFail) r := by
  obtain ⟨r, hr, hdetermined⟩ := determined_browseWithContextAndFilter (χ := χ)
    (fun _ => pure true) ha startNode (space.cache.getUaBrowseContext text browseContext)
    fun _ => Prog.determined_pure true
  refine ⟨r, hr, Prog.determined_get_bind fun c hc => ?_⟩
  rw [hc.cache]
  exact hdetermined

/-- What is made of the result for a path. -/
theorem determined_browsePathResult (ha : a.Serves space text mayFail unanswered)
    {first : UaBrowsePathResult (UaIndexedNodeId ι)}
    (htargets : isBadStatus first.statusCode = false → first.targets ≠ [])
    (convert : Option (UaIndexedNodeId ι) → NodeId) :
    ((do
      if first.statusCode = badNodeIdUnknown then updateNamespaceCache a
      service (ServiceClient.throwIfBad statusName first.statusCode)
      let target ← Prog.front first.targets
      pure (convert target)) : CachingM χ ι _).Determined (Fits space statusName text mayFail)
        excused (do
          checked statusName first.statusCode
          pure (convert first.targets.head?.join)) := by
  have htail : ((do
      service (ServiceClient.throwIfBad statusName first.statusCode)
      let target ← Prog.front first.targets
      pure (convert target)) : CachingM χ ι _).Determined (Fits space statusName text mayFail)
        excused (do
          checked statusName first.statusCode
          pure (convert first.targets.head?.join)) := by
    refine (determined_service (ServiceClient.determined_throwIfBad _)).bind fun _ hgood => ?_
    have hstatus : isBadStatus first.statusCode = false := by
      by_contra hbad
      rw [checked, if_pos (by simpa using hbad)] at hgood
      cases hgood
    obtain ⟨target, rest, hrest⟩ := List.exists_cons_of_ne_nil (htargets hstatus)
    rw [hrest]
    exact (Prog.determined_front target rest).bind_ok (Prog.determined_pure _)
  split_ifs
  · exact (determined_updateNamespaceCache ha).bind_ok htail
  · exact htail

/-- **Translate.** -/
theorem determined_translateBrowsePathToNodeId
    (ha : a.Serves space text mayFail unanswered) (startNode : NodeId)
    (browseName : QualifiedName) (height : ℕ) [DecidableEq ι] :
    (translateBrowsePathToNodeId statusName text a startNode browseName :
      CachingM χ ι _).Determined (Fits space statusName text mayFail) (fun _ => mayFail)
        ((space.answers statusName text height).translateBrowsePathToNodeId startNode
          browseName) := by
  refine Prog.determined_get_bind fun c hc => ?_
  rw [hc.cache]
  refine (determined_service
    (ServiceClient.determined_verifyConnected ha.sessionIsConnected)).bind_ok ?_
  simp only [ServerAddressSpace.answers]
  split_ifs
  · exact Prog.determined_throw _
  · exact Prog.determined_throw _
  obtain ⟨first, rest, hresults, hfirst⟩ := ha.translate
    (space.cache.modelNodeIdToUaNodeId text startNode)
    (space.cache.modelQualifiedNameToUaQualifiedName browseName)
  rw [hresults]
  refine (Prog.determined_front first rest).bind_ok ?_
  rcases hfirst with rfl | ⟨hfail, hbad⟩
  · exact determined_browsePathResult ha (space.targets_ne_nil _ _) fun target =>
      space.cache.uaNodeIdToModelNodeId text (text.idOf target)
  · exact (determined_browsePathResult ha (fun hgood => absurd hbad (by simp [hgood])) fun target =>
      space.cache.uaNodeIdToModelNodeId text (text.idOf target)).excuse
        (ServerAddressSpace.checked_bind_of_bad hbad) hfail _

variable [DecidableEq ι]

/-- **Browse with a type.** -/
theorem determined_browseWithResultTypeFilter (ha : a.Serves space text mayFail unanswered)
    {height fuel : ℕ} (hheight : space.Climbable statusName text height) (hfuel : height < fuel)
    (startNode : NodeId) (browseContext : BrowseContext) (typeDefinition : NodeId) :
    ∃ r, OrNothing unanswered ((space.answers statusName text height).browseWithResultTypeFilter
        startNode browseContext typeDefinition) r ∧
      (browseWithResultTypeFilter statusName text a fuel startNode browseContext typeDefinition :
        CachingM χ ι _).Determined (Fits space statusName text mayFail) (fun _ => mayFail) r := by
  have hbrowse := fun nodeClassMask => determined_browseWithContextAndFilter (χ := χ) _ ha startNode
    { space.cache.getUaBrowseContext text browseContext with nodeClassMask := nodeClassMask }
    fun ref => ServiceClient.determined_isSameOrSubtype ha hheight
      (text.nonNull (space.cache.modelNodeIdToUaNodeId text typeDefinition)) height
      ref.typeDefinition fuel 100 (hheight.ancestor_eq_none _) hfuel
  -- the class of the type is asked for first
  have hclassed : ∀ r, (do
      let nodeClassMask ← service (ServiceClient.lift (nodeClassFromNodeId
        (a.nodeClass (space.cache.modelNodeIdToUaNodeId text typeDefinition))))
      browseWithContextAndFilter statusName text a startNode
        { space.cache.getUaBrowseContext text browseContext with nodeClassMask := nodeClassMask }
        fun ref => ServiceClient.isSameOrSubtype statusName (a.types text) fuel
          (text.nonNull (space.cache.modelNodeIdToUaNodeId text typeDefinition))
          ref.typeDefinition : CachingM χ ι _).Determined (Fits space statusName text mayFail)
            (fun _ => mayFail) r →
      (browseWithResultTypeFilter statusName text a fuel startNode browseContext typeDefinition :
        CachingM χ ι _).Determined (Fits space statusName text mayFail) (fun _ => mayFail) r := by
    intro r hr
    refine Prog.determined_get_bind fun c hc => ?_
    rw [hc.cache]
    exact (determined_service
      (ServiceClient.determined_verifyConnected ha.typeIsConnected)).bind_ok hr
  simp only [ServerAddressSpace.answers]
  rcases ha.nodeClass (space.cache.modelNodeIdToUaNodeId text typeDefinition) with
    hclass | ⟨hfail, hclass⟩
  · rw [hclass] at hclassed
    cases hmask : nodeClassFromNodeId
        (space.nodeClass (space.cache.modelNodeIdToUaNodeId text typeDefinition)) with
    | error e =>
      rw [hmask] at hclassed
      exact ⟨.error e, .inl rfl, hclassed _ (Prog.determined_throw e)⟩
    | ok nodeClassMask =>
      rw [hmask] at hclassed
      obtain ⟨r, hr, hdetermined⟩ := hbrowse nodeClassMask
      exact ⟨r, hr, hclassed r ((determined_service
        (ServiceClient.determined_lift (.ok nodeClassMask))).bind_ok hdetermined)⟩
  · rw [hclass] at hclassed
    exact ⟨_, .inl rfl, hclassed _ ((Prog.determined_throw
      (Exception.umati "Invalid NodeClass")).excuse rfl hfail _)⟩

/-- **A query for a type.** It does not fail; the answer may be no if something fails. -/
theorem run_isSameOrSubtype (ha : a.Serves space text mayFail unanswered) {height fuel : ℕ}
    (hheight : space.Climbable statusName text height) (hfuel : height < fuel)
    (expectedType checkType : NodeId) (maxDepth : ℕ) {c : CachingClient χ ι}
    (hc : c.Fits space statusName text mayFail) :
    ∃ b c', (isSameOrSubtype statusName text a fuel expectedType checkType maxDepth).run c =
        (.ok b, c') ∧ c'.Fits space statusName text mayFail ∧
      (b = space.isSameOrSubtype statusName text height expectedType checkType ∨
        mayFail ∧ b = false) := by
  have hdetermined := determined_service (ServiceClient.determined_isSameOrSubtype (χ := χ)
    ha hheight
    (text.nonNull (space.cache.modelNodeIdToUaNodeId text expectedType)) height
    (text.nonNull (space.cache.modelNodeIdToUaNodeId text checkType)) fuel (UInt64.ofNat maxDepth)
    (hheight.ancestor_eq_none _) hfuel)
  obtain ⟨hc', hout⟩ := hdetermined c hc
  have hrun : (isSameOrSubtype statusName text a fuel expectedType checkType maxDepth).run c =
      ((service (ServiceClient.isSameOrSubtype statusName (a.types text) fuel
        (text.nonNull (space.cache.modelNodeIdToUaNodeId text expectedType))
        (text.nonNull (space.cache.modelNodeIdToUaNodeId text checkType))
        (UInt64.ofNat maxDepth))).catching fun _ => pure false).run c := by
    rw [← hc.cache]
    rfl
  rw [hrun, Prog.run_catching, ServerAddressSpace.isSameOrSubtype]
  generalize (service (ServiceClient.isSameOrSubtype statusName (a.types text) fuel
    (text.nonNull (space.cache.modelNodeIdToUaNodeId text expectedType))
    (text.nonNull (space.cache.modelNodeIdToUaNodeId text checkType))
    (UInt64.ofNat maxDepth))).run c = r at hc' hout ⊢
  obtain ⟨out, c'⟩ := r
  rcases hout with rfl | ⟨e, hfail, rfl⟩
  · cases space.isA statusName text
        (text.nonNull (space.cache.modelNodeIdToUaNodeId text expectedType)) height
        (text.nonNull (space.cache.modelNodeIdToUaNodeId text checkType)) with
    | ok b => exact ⟨b, c', rfl, hc', .inl rfl⟩
    | error e => exact ⟨false, c', rfl, hc', .inl rfl⟩
  · exact ⟨false, c', rfl, hc', .inr ⟨hfail, rfl⟩⟩

omit [DecidableEq ι]

/-! ### The other operations -/

theorem Fits.threadConnectExecution (ha : a.Serves space text mayFail unanswered)
    {c : CachingClient χ ι}
    (hc : c.Fits space statusName text mayFail) (result : UInt32)
    (response : CreateSubscriptionResponse) :
    (threadConnectExecution a result response c).Fits space statusName text mayFail where
  cache := by
    rw [CachingClient.cache, CachingClient.threadConnectExecution]
    split_ifs
    · exact cache_updateNamespaceCache ha c.namespaces
    · exact hc.cache
  client := by
    refine ⟨hc.client.superTypes, fun hnot => ?_⟩
    have hconnected : c.client.toOpcUaClient.isConnected = true := hc.client.isConnected hnot
    have hsame : c.client.toOpcUaClient.threadConnectExecution result response =
        c.client.toOpcUaClient := by
      simp [OpcUaClient.threadConnectExecution, hconnected]
    rw [CachingClient.threadConnectExecution, hsame]
    exact hconnected

theorem Fits.subscribe (ha : a.Serves space text mayFail unanswered) {c : CachingClient χ ι}
    (hc : c.Fits space statusName text mayFail) (nodeId : NodeId) (callback : χ) :
    (subscribe statusName text a nodeId callback c).2.Fits space statusName text mayFail where
  cache := by
    rw [CachingClient.cache, CachingClient.subscribe]
    dsimp only
    split_ifs
    · exact cache_updateNamespaceCache ha c.namespaces
    · exact hc.cache
  client := by
    refine ⟨hc.client.superTypes, fun hnot => ?_⟩
    have hconnected : c.client.toOpcUaClient.isConnected = true := hc.client.isConnected hnot
    simp only [CachingClient.subscribe, OpcUaClient.subscribe]
    split <;> exact hconnected

theorem Fits.unsubscribe {c : CachingClient χ ι} (hc : c.Fits space statusName text mayFail)
    (monItemIds clientHandles : List Int32) :
    (unsubscribe monItemIds clientHandles c).Fits space statusName text mayFail :=
  ⟨hc.cache, hc.client.superTypes, hc.client.isConnected⟩

/-- Reading leaves the client as it is. -/
theorem run_readeNodeValues (modelNodeIds : List NodeId) (c : CachingClient χ ι) :
    ((readeNodeValues statusName text a modelNodeIds).run c).2 = c := by
  have hends : (readeNodeValues statusName text a modelNodeIds).Ends c fun _ c' => c' = c := by
    simp only [readeNodeValues, service, ServiceClient.readeNodeValues, Prog.ends_bind,
      Prog.ends_get, Prog.ends_zoom, ServiceClient.ends_lift, Outcome.follow_ok,
      Outcome.follow_throw, Outcome.follow_stuck, Prog.ends_front, implies_true, and_self]
  exact hends

end CachingClient

end UmatiDashboard
