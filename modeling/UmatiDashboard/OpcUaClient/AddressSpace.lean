import UmatiDashboard.OpcUaClient.Converter.NodeIds
import UmatiDashboard.OpcUaClient.ServiceFailures

/-!
# Walking through the address space

The gateway walks through the address space of the server: it browses a node, goes on with one of
the nodes it has found, and so on. It remembers the nodes by their ids of the model, and converts
such an id with the namespace cache of the moment whenever it asks the server about the node. In
between the namespace table may be read anew.

Next to the id that the gateway is at, a walk records the node that the server's answers have led
to. The gateway is at this node throughout the walk if and only if every node that it goes to is in
a namespace that the cache knows at that time (`at_node_iff_known`), as long as no reset is issued.
A node in another namespace is taken for one in namespace zero, and the walk goes on from there.
-/

namespace UmatiDashboard

variable {χ ι : Type}

/-- A walk of the client. -/
structure AddressWalk (χ ι : Type) where
  namespaces : NamespaceState
  client : ServiceClient χ (UaIndexedNodeId ι)
  /-- the node the gateway is at -/
  current : NodeId
  /-- the node that the server's answers have led to -/
  actual : UaIndexedNodeId ι

/-- A step of a walk. -/
inductive AddressStep (ι : Type) where
  /-- the namespace table is read anew -/
  | updateNamespaceCache (uaNamespaces : List String)
  /-- browse the node, with the server's answers, and go on with the `choice`-th result -/
  | browse (sessionIsConnected : Bool)
    (server : UaIndexedNodeId ι → UaBrowseResponse (UaIndexedNodeId ι)) (choice : ℕ)

namespace AddressWalk

variable (statusName : UInt32 → String) (text : IdentifierText ι) (s : AddressWalk χ ι)

/-- The node id that the server is asked about. -/
def asked : UaIndexedNodeId ι := s.namespaces.cache.modelNodeIdToUaNodeId text s.current

/-- Browse the node. -/
def browse (sessionIsConnected : Bool)
    (server : UaIndexedNodeId ι → UaBrowseResponse (UaIndexedNodeId ι)) :
    Outcome Exception (List BrowseResult) × ServiceClient χ (UaIndexedNodeId ι) :=
  (ServiceClient.browse statusName (.ok ()) sessionIsConnected (server (s.asked text))
    (s.namespaces.cache.referenceToBrowseResult text)).run s.client

/-- The node that the reference leads to. -/
def target (server : UaIndexedNodeId ι → UaBrowseResponse (UaIndexedNodeId ι)) (choice : ℕ) :
    Option (UaIndexedNodeId ι) :=
  (server s.actual).references[choice]?.map fun ref => text.idOf ref.nodeId

def step (s : AddressWalk χ ι) : AddressStep ι → AddressWalk χ ι
  | .updateNamespaceCache uaNamespaces =>
    { s with namespaces := s.namespaces.updateNamespaceCache uaNamespaces }
  | .browse sessionIsConnected server choice =>
    match s.browse statusName text sessionIsConnected server with
    | (.ok browseResults, client) =>
      { s with
        client := client
        current := (browseResults[choice]?.map BrowseResult.nodeId).getD s.current
        actual := (s.target text server choice).getD s.actual }
    | (_, client) => { s with client := client }

/-- The gateway is at the node that the answers have led to. -/
def AtNode : Prop := s.asked text = s.actual

/-- The table is one that indices can be given to, and does not make the client issue a reset. -/
def Compatible (s : AddressWalk χ ι) : AddressStep ι → Prop
  | .updateNamespaceCache uaNamespaces => uaNamespaces.length ≤ 65536 ∧
    (s.namespaces.updateNamespaceCache uaNamespaces).resets = s.namespaces.resets
  | .browse _ _ _ => True

/-- The step goes to a node whose namespace the cache knows. -/
def StaysKnown (s : AddressWalk χ ι) : AddressStep ι → Prop
  | .updateNamespaceCache _ => True
  | .browse sessionIsConnected server choice =>
    (s.browse statusName text sessionIsConnected server).1.Returns →
      ∀ node ∈ s.target text server choice, s.namespaces.cache.Known node.nsIndex

/-! ### What browsing returns -/

section Browse

variable {statusName text s} {convert : UaReferenceDescription (UaIndexedNodeId ι) →
  Except Exception BrowseResult}

/-- The loop over the references returns their conversions in order. -/
theorem map_of_loop {refs : List (UaReferenceDescription (UaIndexedNodeId ι))}
    {acc browseResults : List BrowseResult} {c c' : ServiceClient χ (UaIndexedNodeId ι)}
    (h : (Prog.foldEach (fun browseResult ref => do
      let entry ← ServiceClient.referenceDescriptionToBrowseResult (fun _ => pure true) convert ref
      pure (browseResult ++ entry)) acc refs).run c = (.ok browseResults, c')) :
    ∃ entries, browseResults = acc ++ entries ∧ refs.map convert = entries.map Except.ok := by
  induction refs generalizing acc with
  | nil =>
    cases h
    exact ⟨[], (List.append_nil _).symm, rfl⟩
  | cons ref refs ih =>
    rw [Prog.foldEach_cons, Prog.run_bind, Prog.run_bind] at h
    cases hconvert : convert ref with
    | error e =>
      rw [(ServiceClient.run_unfiltered c).2 e hconvert] at h
      cases h
    | ok entry =>
      rw [(ServiceClient.run_unfiltered c).1 entry hconvert] at h
      obtain ⟨entries, rfl, hrest⟩ := ih h
      exact ⟨entry :: entries, by simp, by rw [List.map_cons, List.map_cons, hconvert, hrest]⟩

/-- Browsing returns the references that the server has answered with, each of them converted. -/
theorem map_of_browse {sessionIsConnected : Bool}
    {response : UaBrowseResponse (UaIndexedNodeId ι)} {c c' : ServiceClient χ (UaIndexedNodeId ι)}
    {browseResults : List BrowseResult}
    (h : (ServiceClient.browse statusName (.ok ()) sessionIsConnected response convert).run c =
      (.ok browseResults, c')) :
    response.references.map convert = browseResults.map Except.ok := by
  rw [ServiceClient.browse, ServiceClient.browseWithContextAndFilter] at h
  obtain ⟨-, c₁, -, h⟩ := Prog.run_bind_eq_ok.mp h
  obtain ⟨-, c₂, -, h⟩ := Prog.run_bind_eq_ok.mp h
  obtain ⟨-, c₃, -, h⟩ := Prog.run_bind_eq_ok.mp h
  obtain ⟨results, c₄, hloop, h⟩ := Prog.run_bind_eq_ok.mp h
  cases h
  obtain ⟨entries, rfl, hmap⟩ := map_of_loop hloop
  exact hmap

/-- The result that is chosen is the conversion of the reference that is chosen. -/
theorem nodeId_of_browse {sessionIsConnected : Bool}
    {server : UaIndexedNodeId ι → UaBrowseResponse (UaIndexedNodeId ι)}
    {browseResults : List BrowseResult} {client : ServiceClient χ (UaIndexedNodeId ι)}
    (h : s.browse statusName text sessionIsConnected server = (.ok browseResults, client))
    (hat : s.AtNode text) (choice : ℕ) :
    browseResults[choice]?.map BrowseResult.nodeId =
      (s.target text server choice).map (s.namespaces.cache.uaNodeIdToModelNodeId text) := by
  have hmap := map_of_browse h
  rw [hat] at hmap
  have hchoice := congrArg (·[choice]?) hmap
  simp only [List.getElem?_map] at hchoice
  rw [target]
  cases href : (server s.actual).references[choice]? with
  | none =>
    rw [href] at hchoice
    rw [Option.map_eq_none_iff.mp hchoice.symm]
    rfl
  | some ref =>
    rw [href] at hchoice
    obtain ⟨entry, hentry, hok⟩ := Option.map_eq_some_iff.mp hchoice.symm
    rw [hentry, Option.map_some, Option.map_some, Option.map_some,
      NamespaceCache.nodeId_referenceToBrowseResult hok.symm]

end Browse

/-! ### One step -/

section Step

variable {statusName text s}

/-- The two directions of the cache are inverse, and the id the gateway is at can be converted. -/
structure Resolving (s : AddressWalk χ ι) : Prop where
  inverse : s.namespaces.cache.Inverse
  resolves : s.namespaces.cache.Resolves s.current.uri

variable (statusName text) in
/-- Reading a compatible table changes no conversion. -/
theorem asked_update (h : s.Resolving) {uaNamespaces : List String}
    (hcompatible : s.Compatible (.updateNamespaceCache uaNamespaces)) :
    (s.step statusName text (.updateNamespaceCache uaNamespaces)).Resolving ∧
      (s.step statusName text (.updateNamespaceCache uaNamespaces)).asked text = s.asked text := by
  obtain ⟨hinv, -, hext⟩ := NamespaceState.updateNamespaceCache_spec h.inverse hcompatible.1
  obtain ⟨hresolves, hindex⟩ := h.resolves.of_extends (hext hcompatible.2)
  refine ⟨⟨hinv, hresolves⟩, ?_⟩
  rw [asked, asked, NamespaceCache.modelNodeIdToUaNodeId, NamespaceCache.modelNodeIdToUaNodeId]
  exact congrArg (UaIndexedNodeId.mk · _) hindex

variable (statusName text) in
/-- A step from the node the gateway is at ends at the node that it leads to if and only if it goes
to a known namespace. -/
theorem step_atNode (h : s.Resolving) (hat : s.AtNode text) (k : AddressStep ι)
    (hcompatible : s.Compatible k) :
    (s.step statusName text k).Resolving ∧
      ((s.step statusName text k).AtNode text ↔ s.StaysKnown statusName text k) := by
  cases k with
  | updateNamespaceCache uaNamespaces =>
    obtain ⟨hresolving, hasked⟩ := asked_update statusName text h hcompatible
    exact ⟨hresolving, iff_of_true (hasked.trans hat) trivial⟩
  | browse sessionIsConnected server choice =>
    rw [step, StaysKnown]
    rcases hbrowse : s.browse statusName text sessionIsConnected server with
      ⟨browseResults | e | w, client⟩
    · have hnode := nodeId_of_browse hbrowse hat choice
      dsimp only
      cases htarget : s.target text server choice with
      | none =>
        rw [htarget] at hnode
        rw [hnode]
        exact ⟨⟨h.inverse, h.resolves⟩, iff_of_true hat fun _ node hmem => by cases hmem⟩
      | some node =>
        rw [htarget] at hnode
        rw [hnode]
        refine ⟨⟨h.inverse, NamespaceCache.resolves_getUriFromNsIndex h.inverse _⟩, ?_⟩
        -- the gateway goes on with the conversion of the node that the reference leads to
        refine (NamespaceCache.modelNodeIdToUaNodeId_uaNodeIdToModelNodeId h.inverse).trans
          ⟨fun hknown _ node' hmem => ?_, fun hknown => hknown trivial node rfl⟩
        cases hmem
        exact hknown
    · exact ⟨⟨h.inverse, h.resolves⟩, iff_of_true hat fun hreturns => hreturns.elim⟩
    · exact ⟨⟨h.inverse, h.resolves⟩, iff_of_true hat fun hreturns => hreturns.elim⟩

end Step

/-! ### Walks -/

/-- **When a walk stays on its nodes.** The gateway is at the node that the server's answers have
led to throughout a walk without a reset exactly when every node it goes to is in a namespace that
is known when it goes there. -/
theorem at_node_iff_known (ks : List (AddressStep ι)) (hinv : s.namespaces.cache.Inverse)
    (hresolves : s.namespaces.cache.Resolves s.current.uri) (hat : s.AtNode text)
    (hcompatible : Transition.Along (step statusName text) Compatible s ks) :
    Transition.Throughout (step statusName text) (AtNode text) s ks ↔
      Transition.Along (step statusName text) (StaysKnown statusName text) s ks := by
  refine Transition.throughout_iff_along (I := Resolving) (fun s k h hat hk hknown => ?_)
    (fun s k h hat hk hnext => ?_) ⟨hinv, hresolves⟩ hat hcompatible
  · obtain ⟨hresolving, hiff⟩ := step_atNode statusName text h hat k hk
    exact ⟨hresolving, hiff.mpr hknown⟩
  · exact (step_atNode statusName text h hat k hk).2.mp hnext

/-- A connected client at the node `x` of the server. -/
def atX : AddressWalk Unit String where
  namespaces := NamespaceState.initial.after [["ua", "a"]]
  client := {
    isConnected := true
    tryConnecting := true
    subscription := { nextId := 1, subscriptionId := 1, callbacks := ∅ }
    superTypes := fun _ => none }
  current := ⟨"a", "s=x"⟩
  actual := ⟨1, "x"⟩

/-- A server that leads to the node `y` of another namespace, whichever node is browsed. -/
def leadsToY (_ : UaIndexedNodeId String) : UaBrowseResponse (UaIndexedNodeId String) where
  serviceResult := 0
  results := [⟨0, [], [⟨some ⟨0, "HasComponent"⟩, some ⟨2, "y"⟩, (2, "y"), .object, none, true⟩]⟩]

/-- Going there after a new namespace table was read. -/
theorem at_node_iff_known_toY :
    Transition.Throughout (step (fun _ => "Bad") .strings) (AtNode .strings) atX
        [.updateNamespaceCache ["ua", "a", "b"], .browse true leadsToY 0] ↔
      Transition.Along (step (fun _ => "Bad") .strings) (StaysKnown (fun _ => "Bad") .strings) atX
        [.updateNamespaceCache ["ua", "a", "b"], .browse true leadsToY 0] :=
  at_node_iff_known (fun _ => "Bad") .strings atX
    [.updateNamespaceCache ["ua", "a", "b"], .browse true leadsToY 0]
    (NamespaceState.after_spec [["ua", "a"]] NamespaceCache.inverse_empty (by decide)).1
    (.inr (by decide +kernel)) (by unfold AtNode; decide +kernel)
    ⟨⟨by decide, by decide +kernel⟩, trivial, trivial⟩

end AddressWalk

end UmatiDashboard
