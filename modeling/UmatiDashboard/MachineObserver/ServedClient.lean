import UmatiDashboard.MachineObserver.NodeIdentity
import UmatiDashboard.MachineObserver.SearchPlan
import UmatiDashboard.OpcUaClient.CustomDataTypes
import UmatiDashboard.OpcUaClient.PlainAnswers
import UmatiDashboard.TypeReader.ClientTypes

/-!
# The data client of a server whose address space stays the same

The gateway sees the server through the interface of the data client, and most of what is known
about the gateway is about data clients that answer the same question the same way. `OpcUaClient`
is such a data client (`dataClient_answers`): with its caches, however they were filled, it answers
as the address space does. If the session can be lost and calls can fail, each operation answers so
or throws, a query for a type may be answered with no, and a Browse that comes back without a
result returns nothing.
-/

namespace UmatiDashboard

/-- A client that is in order, with what is to come: before each of its next operations attempts to
connect, and while it runs the answers of the stack. -/
structure ServedClient {ι : Type} (space : ServerAddressSpace ι) (statusName : UInt32 → String)
    (text : IdentifierText ι) (mayFail unanswered : Prop) where
  client : CachingClient NewValueCallback ι
  turns : ℕ → List (UInt32 × CreateSubscriptionResponse) × StackAnswers ι
  fits : client.Fits space statusName text mayFail
  serves : ∀ k, (turns k).2.Serves space text mayFail unanswered

/-- The client answers as the server does or throws, in every state. A query for a type may be
answered with no, and a Browse that is left unanswered with nothing. -/
structure IDashboardDataClient.AnswersOrThrows {ω : Type} (client : IDashboardDataClient ω)
    (A : MachineAnswers) (unanswered : Prop) : Prop where
  browse : ∀ n ctx w, (client.browse n ctx w).1 = A.browse n ctx ∨
    (∃ e, (client.browse n ctx w).1 = .error e) ∨
      unanswered ∧ (client.browse n ctx w).1 = .ok []
  browseWithResultTypeFilter : ∀ n ctx t w,
    (client.browseWithResultTypeFilter n ctx t w).1 = A.browseWithResultTypeFilter n ctx t ∨
      (∃ e, (client.browseWithResultTypeFilter n ctx t w).1 = .error e) ∨
        unanswered ∧ (client.browseWithResultTypeFilter n ctx t w).1 = .ok []
  translateBrowsePathToNodeId : ∀ n q w,
    (client.translateBrowsePathToNodeId n q w).1 = A.translateBrowsePathToNodeId n q ∨
      ∃ e, (client.translateBrowsePathToNodeId n q w).1 = .error e
  isSameOrSubtype : ∀ expected checked depth w,
    (client.isSameOrSubtype expected checked depth w).1 = A.isSameOrSubtype expected checked depth ∨
      (client.isSameOrSubtype expected checked depth w).1 = false

/-! ### The answers about machines -/

namespace ServerAddressSpace

variable {ι : Type} [DecidableEq ι] {space : ServerAddressSpace ι} {statusName : UInt32 → String}
  {text : IdentifierText ι}

/-- No type is below the null id. -/
theorem isA_none (height : ℕ) : ∀ checkType,
    (space.isA statusName text none height checkType).toOption.getD false = false := by
  induction height with
  | zero => exact fun _ => rfl
  | succ height ih =>
    intro checkType
    cases checkType with
    | none => rfl
    | some t =>
      rw [isA, if_neg (Option.some_ne_none t).symm]
      cases space.superType statusName text t with
      | error e => rfl
      | ok superType => exact ih superType

variable (hroot : space.namespaceArray.head? = some WellKnown.ns0Uri)
  (hnull : text.parse "i=0" = text.null)

omit [DecidableEq ι] in
include hroot in
theorem getNsIndexFromUri_ns0Uri : space.cache.getNsIndexFromUri WellKnown.ns0Uri = 0 := by
  obtain ⟨rest, hrest⟩ := List.head?_eq_some_iff.mp hroot
  rw [NamespaceCache.getNsIndexFromUri_of_ne (by decide), cache,
    TypedNamespaces.uriToIndex_fillNamespaceCache, hrest]
  simp [NamespaceCache.empty]

include hroot hnull in
/-- The undefined type is the null id. -/
theorem nonNull_undefinedType {md : NodeId} (h : md.equals WellKnown.undefinedType = true) :
    text.nonNull (space.cache.modelNodeIdToUaNodeId text md) = none := by
  obtain ⟨hid, huri⟩ := NodeId.equals_iff.mp h
  have hindex : space.cache.getNsIndexFromUri md.uri = 0 := by
    rcases huri with huri | ⟨huri, -⟩ | ⟨huri, -⟩
    · rw [huri]
      exact getNsIndexFromUri_ns0Uri hroot
    · rw [huri]
      rfl
    · rw [huri]
      exact getNsIndexFromUri_ns0Uri hroot
  rw [NamespaceCache.modelNodeIdToUaNodeId, hindex, hid]
  exact if_pos (congrArg (UaIndexedNodeId.mk 0) hnull)

variable (space statusName text)

/-- The plain answers with those about types. -/
def machineAnswers (height : ℕ) : MachineAnswers where
  toAnswers := space.answers statusName text height
  isSameOrSubtype expected checked _ :=
    space.isSameOrSubtype statusName text height expected checked
  eq_of_undefined md t _ hundefined hsame := by
    rw [isSameOrSubtype, nonNull_undefinedType hroot hnull hundefined, isA_none] at hsame
    cases hsame

end ServerAddressSpace

/-! ### The client -/

/-- A handle is one of the node that was subscribed. -/
theorem nodeId_of_subscribe {χ ι : Type} {statusName : UInt32 → String} {text : IdentifierText ι}
    {a : StackAnswers ι} {c : CachingClient χ ι} {nodeId : NodeId} {callback : χ}
    {h : ValueSubscriptionHandle}
    (heq : (c.subscribe statusName text a nodeId callback).1 = some h) : h.nodeId = nodeId := by
  simp only [CachingClient.subscribe, OpcUaClient.subscribe, Subscription.subscribe] at heq
  cases hv : Subscription.validateMonitorItemResult statusName
      (a.createMonitoredItem (c.cache.modelNodeIdToUaNodeId text nodeId)) with
  | error e => simp [hv] at heq
  | ok u =>
    simp only [hv, Option.some.injEq] at heq
    rw [← heq]

namespace ServedClient

variable {ι : Type} {space : ServerAddressSpace ι} {statusName : UInt32 → String}
  {text : IdentifierText ι} {mayFail unanswered : Prop}
  (w : ServedClient space statusName text mayFail unanswered)

/-- The client after the attempts to connect. -/
def connected : CachingClient NewValueCallback ι :=
  (w.turns 0).1.foldl (fun c attempt => c.threadConnectExecution (w.turns 0).2 attempt.1 attempt.2)
    w.client

theorem fits_connected : w.connected.Fits space statusName text mayFail := by
  have hattempts : ∀ (attempts : List (UInt32 × CreateSubscriptionResponse))
      (c : CachingClient NewValueCallback ι), c.Fits space statusName text mayFail →
      (attempts.foldl (fun c attempt => c.threadConnectExecution (w.turns 0).2 attempt.1 attempt.2)
        c).Fits space statusName text mayFail := by
    intro attempts
    induction attempts with
    | nil => exact fun c hc => hc
    | cons attempt attempts ih =>
      exact fun c hc => ih _ (hc.threadConnectExecution (w.serves 0) _ _)
  exact hattempts _ _ w.fits

/-- The client after an operation. -/
def next (c : CachingClient NewValueCallback ι) (hc : c.Fits space statusName text mayFail) :
    ServedClient space statusName text mayFail unanswered where
  client := c
  turns k := w.turns (k + 1)
  fits := hc
  serves k := w.serves (k + 1)

/-- A client after its first connect. -/
def firstConnect (c : OpcUaClient NewValueCallback) (htry : c.tryConnecting = true)
    (hconnected : c.isConnected = false) {result : UInt32} (hresult : isBadStatus result = false)
    (response : CreateSubscriptionResponse)
    (turns : ℕ → List (UInt32 × CreateSubscriptionResponse) × StackAnswers ι)
    (hturns : ∀ k, (turns k).2.Serves space text mayFail unanswered) :
    ServedClient space statusName text mayFail unanswered where
  client := CachingClient.threadConnectExecution (turns 0).2 result response
    ⟨.initial, { c with superTypes := fun _ => none }⟩
  turns := turns
  fits := {
    cache := by
      rw [CachingClient.cache, CachingClient.threadConnectExecution, htry, hconnected, hresult]
      exact CachingClient.cache_updateNamespaceCache (hturns 0) .initial
    client := by
      refine ⟨fun t known h => (by cases h), fun _ => ?_⟩
      simp [CachingClient.threadConnectExecution, OpcUaClient.threadConnectExecution,
        OpcUaClient.connect, OpcUaClient.connectionStatusChanged, OpcUaClient.onConnected, htry,
        hconnected, hresult] }
  serves := hturns

variable {α : Type}

/-- An operation with a determined answer, which has the property `P`. -/
def operate (p : StackAnswers ι → CachingM NewValueCallback ι α)
    {P : Except Exception α → Prop}
    (hp : ∀ a, a.Serves space text mayFail unanswered → ∃ r, P r ∧
      (p a).Determined (CachingClient.Fits space statusName text mayFail) (fun _ => mayFail) r) :
    Except Exception α × ServedClient space statusName text mayFail unanswered :=
  (((p (w.turns 0).2).run w.connected).1.toExcept,
    w.next ((p (w.turns 0).2).run w.connected).2 <|
      (hp _ (w.serves 0)).elim fun _ h => (h.2 _ w.fits_connected).1)

/-- It ends with the answer, or it throws. -/
theorem fst_operate (p : StackAnswers ι → CachingM NewValueCallback ι α)
    {P : Except Exception α → Prop}
    (hp : ∀ a, a.Serves space text mayFail unanswered → ∃ r, P r ∧
      (p a).Determined (CachingClient.Fits space statusName text mayFail) (fun _ => mayFail) r) :
    P (w.operate p hp).1 ∨ mayFail ∧ ∃ e, (w.operate p hp).1 = .error e := by
  obtain ⟨r, hr, hdetermined⟩ := hp _ (w.serves 0)
  rw [operate]
  rcases (hdetermined _ w.fits_connected).2 with hout | ⟨e, hfail, hout⟩
  · refine .inl ?_
    dsimp only
    rw [hout]
    cases r <;> exact hr
  · refine .inr ⟨hfail, e, ?_⟩
    dsimp only
    rw [hout]
    rfl

section DataClient

variable [DecidableEq ι] {height : ℕ} (hheight : space.Climbable statusName text height)

include hheight in
theorem fits_isSameOrSubtype (expectedType checkType : NodeId) (maxDepth : ℕ) :
    ((CachingClient.isSameOrSubtype statusName text (w.turns 0).2 (height + 1) expectedType
      checkType maxDepth).run w.connected).2.Fits space statusName text mayFail := by
  obtain ⟨b, c, hrun, hc, -⟩ := CachingClient.run_isSameOrSubtype (w.serves 0) hheight
    (Nat.lt_add_one height) expectedType checkType maxDepth w.fits_connected
  rw [hrun]
  exact hc

/-- A query for a type. -/
def querySubtype (expectedType checkType : NodeId) (maxDepth : ℕ) :
    Bool × ServedClient space statusName text mayFail unanswered :=
  (((CachingClient.isSameOrSubtype statusName text (w.turns 0).2 (height + 1) expectedType
      checkType maxDepth).run w.connected).1.toExcept.toOption.getD false,
    w.next _ (w.fits_isSameOrSubtype hheight expectedType checkType maxDepth))

/-- It is answered as the address space says, or with no. -/
theorem fst_querySubtype (expectedType checkType : NodeId) (maxDepth : ℕ) :
    (w.querySubtype hheight expectedType checkType maxDepth).1 =
        space.isSameOrSubtype statusName text height expectedType checkType ∨
      mayFail ∧ (w.querySubtype hheight expectedType checkType maxDepth).1 = false := by
  obtain ⟨b, c, hrun, -, hb⟩ := CachingClient.run_isSameOrSubtype (w.serves 0) hheight
    (Nat.lt_add_one height) expectedType checkType maxDepth w.fits_connected
  have hfst : (w.querySubtype hheight expectedType checkType maxDepth).1 = b := by
    simp only [querySubtype, hrun]
    rfl
  rw [hfst]
  exact hb

/-- `OpcUaClient` as a data client. -/
def dataClient : IDashboardDataClient (ServedClient space statusName text mayFail unanswered) where
  browse startNode browseContext w :=
    w.operate (fun a => CachingClient.browse statusName text a startNode browseContext)
      fun _ ha => CachingClient.determined_browse ha startNode browseContext height
  browseWithResultTypeFilter startNode browseContext typeDefinition w :=
    w.operate (fun a => CachingClient.browseWithResultTypeFilter statusName text a (height + 1)
        startNode browseContext typeDefinition)
      fun _ ha => CachingClient.determined_browseWithResultTypeFilter ha hheight
        (Nat.lt_add_one height) startNode browseContext typeDefinition
  translateBrowsePathToNodeId startNode browseName w :=
    w.operate (P := (· = (space.answers statusName text height).translateBrowsePathToNodeId
        startNode browseName))
      (fun a => CachingClient.translateBrowsePathToNodeId statusName text a startNode browseName)
      fun _ ha => ⟨_, rfl, CachingClient.determined_translateBrowsePathToNodeId ha startNode
        browseName height⟩
  isSameOrSubtype expectedType checkType maxDepth w :=
    w.querySubtype hheight expectedType checkType maxDepth
  subscribe nodeId callback w :=
    let r := w.connected.subscribe statusName text (w.turns 0).2 nodeId callback
    (.ok r.1, w.next r.2 (w.fits_connected.subscribe (w.serves 0) nodeId callback))
  unsubscribe monItemIds clientHandles w :=
    w.next (w.connected.unsubscribe monItemIds clientHandles)
      (w.fits_connected.unsubscribe monItemIds clientHandles)
  readeNodeValues modelNodeIds w :=
    let r := (CachingClient.readeNodeValues statusName text (w.turns 0).2 modelNodeIds).run
      w.connected
    (r.1.toExcept, w.next r.2 (by
      rw [CachingClient.run_readeNodeValues]
      exact w.fits_connected))
  subscribe_nodeId nodeId callback w h w' heq := by
    have hhandle : (w.connected.subscribe statusName text (w.turns 0).2 nodeId callback).1 =
        some h := by
      simpa using congrArg Prod.fst heq
    exact nodeId_of_subscribe hhandle

end DataClient

/-! ### A small plant -/

/-- Identifiers that are written as they are. -/
def plainText : IdentifierText String where
  null := "i=0"
  print i := i
  parse i := i
  parse_print _ := rfl

/-- A server with a machine of the type 11, which is derived from the type 10. -/
def derivedSpace : ServerAddressSpace String where
  namespaceArray := [WellKnown.ns0Uri, "urn:plant"]
  nodeClass n := if n = ⟨1, "m1"⟩ ∨ n = ⟨1, "x"⟩ then some .object else some .objectType
  browse n d :=
    { serviceResult := 0
      results := [⟨0, [],
        if d.browseDirection = .backward then
          if n = ⟨1, "i=11"⟩ then
            [⟨none, some ⟨1, "i=10"⟩, (1, "Base"), .objectType, none, false⟩]
          else []
        else if n = ⟨1, "plant"⟩ then
          [⟨some ⟨0, "i=47"⟩, some ⟨1, "m1"⟩, (1, "m1"), .object, some ⟨1, "i=11"⟩, true⟩,
            ⟨some ⟨0, "i=47"⟩, some ⟨1, "x"⟩, (1, "x"), .object, some ⟨0, "i=58"⟩, true⟩]
        else []⟩] }
  translate _ _ := ⟨0x806F0000, []⟩
  results_ne_nil _ _ := by simp
  targets_ne_nil _ _ h := absurd h (by decide)

theorem climbable_derivedSpace : derivedSpace.Climbable (fun _ => "Bad") plainText 2 := by
  refine ⟨fun t => ?_, fun t => ?_⟩
  · by_cases ht : t = ⟨1, "i=11"⟩
    · subst ht
      decide +kernel
    · have habove : derivedSpace.above (fun _ => "Bad") plainText t = none := by
        rw [ServerAddressSpace.above, ServerAddressSpace.superType]
        split_ifs
        · simp [derivedSpace, superTypeDescription, ht, UaBrowseResponse.firstStatus,
            UaBrowseResponse.references, ServiceClient.superTypeOf, ServerAddressSpace.checked,
            isBadStatus, Except.toOption]
        · rfl
      rw [ancestor_succ, habove, ancestor_none]
  · by_cases ht : t = ⟨1, "i=11"⟩
    · subst ht
      decide +kernel
    · simp [derivedSpace, superTypeDescription, ht, UaBrowseResponse.references,
        ServiceClient.copiesFreed]

/-- A stack that answers as this server would. -/
def derivedStack : StackAnswers String where
  typeIsConnected := true
  sessionIsConnected := true
  superTypeIsConnected _ := true
  nodeClass := derivedSpace.nodeClass
  browse := derivedSpace.browse
  translate n q := ⟨0, [derivedSpace.translate n q]⟩
  read ns := ⟨0, ns.map fun _ => ⟨0, .ok .null⟩⟩
  createMonitoredItem _ := ⟨0, 1, 1⟩
  namespaceArray := derivedSpace.namespaceArray

theorem serves_derivedStack : derivedStack.Serves derivedSpace plainText False False where
  namespaceArray := rfl
  typeIsConnected _ := rfl
  sessionIsConnected _ := rfl
  superTypeIsConnected _ _ := rfl
  nodeClass _ := .inl rfl
  browse _ _ := .inl rfl
  superTypes _ := by simp [StackAnswers.types, derivedStack, derivedSpace]
  translate _ _ := ⟨_, [], rfl, .inl rfl⟩

theorem isBadStatus_good : isBadStatus 0 = false := by decide

/-- A client after its first connect to this server. -/
def derivedClient : ServedClient derivedSpace (fun _ => "Bad") plainText False False :=
  firstConnect ⟨false, true, ⟨1, 0, ∅⟩⟩ rfl rfl isBadStatus_good ⟨0, 1⟩
    (fun _ => ([], derivedStack)) fun _ => serves_derivedStack

/-- The machine is found by the type that its own type is derived from. -/
example : ((dataClient climbable_derivedSpace).browseWithResultTypeFilter ⟨"urn:plant", "plant"⟩
    .hierarchical ⟨"urn:plant", "i=10"⟩ derivedClient).1 =
      .ok [⟨.object, ⟨"urn:plant", "m1"⟩, ⟨"urn:plant", "i=11"⟩, ⟨"", "i=47"⟩,
        ⟨"urn:plant", "m1"⟩⟩] := by
  decide +kernel

end ServedClient

end UmatiDashboard
