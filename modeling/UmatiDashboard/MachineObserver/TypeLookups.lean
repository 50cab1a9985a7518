import UmatiDashboard.DashboardClient.Expansion
import UmatiDashboard.DataClient.Answers
import UmatiDashboard.Effect.Skipping
import UmatiDashboard.MachineObserver.Search

/-!
# Lookups of types

Three places look up the type of a node by a Browse. An instance of a placeholder and a machine
with the base object type get the type of their first interface; a machine without a type gets its
`HasTypeDefinition`. They are guarded differently:

* `resolveInterface` compares with `operator==` and leaves the type if there is no interface;
* `placeholderTypeDefinition` compares the identifiers without their namespace, and takes the
  front of the answer whether there is one or not;
* `fixMissingType` takes the front of the answer likewise.

So the lookups are safe exactly if the answers are such that the missing guards do not matter.
-/

namespace UmatiDashboard

namespace Observer

variable {ω : Type}

/-- A type is replaced only if it is the base object type of namespace 0. -/
def ReplacesBaseObjectType {ε σ : Type} (lookup : Prog ε σ NodeId) (typeDefinition : NodeId)
    (s : σ) : Prop :=
  ∀ t s', lookup.run s = (.ok t, s') → t ≠ typeDefinition →
    typeDefinition.equals WellKnown.baseObjectType = true

/-- The lookup for an instance of a placeholder is safe. -/
structure PlaceholderLookupSafe (client : IDashboardDataClient ω) (browseResult : BrowseResult)
    (s : DashboardClient.Session ω) : Prop where
  nonempty : ((DashboardClient.placeholderTypeDefinition client browseResult).run s).1 ≠
    .stuck .undefined
  replaced : ReplacesBaseObjectType (DashboardClient.placeholderTypeDefinition client browseResult)
    browseResult.typeDefinition s

/-- The lookups for a machine are safe: the one for its type definition, and the one for its
interface with whatever type the machine has got in between. -/
structure MachineLookupsSafe (o : Observer ω) (machine : BrowseResult) (s : ObserverState ω) :
    Prop where
  nonempty : ((fixMissingType o machine).run s).1 ≠ .stuck .undefined
  interface : ∀ typed s', ((resolveInterface o typed).run s').1 ≠ .stuck .undefined
  replaced : ∀ typed s', ReplacesBaseObjectType
    (BrowseResult.typeDefinition <$> resolveInterface o typed) typed.typeDefinition s'

/-! ### One lookup -/

section Placeholder

variable {client : IDashboardDataClient ω} {browseResult : BrowseResult}
  {s : DashboardClient.Session ω}

/-- With the identifier of the base object type, in whatever namespace, an instance is asked for
its interfaces, and the answer is relied on. -/
theorem run_placeholderTypeDefinition_of_id
    (h : browseResult.typeDefinition.id = WellKnown.baseObjectType.id) :
    (DashboardClient.placeholderTypeDefinition client browseResult).run s =
      (DashboardClient.ask (client.browse browseResult.nodeId .hasInterface) >>= fun ifs =>
        Prog.front ifs >>= fun first => pure first.nodeId).run s := by
  rw [DashboardClient.placeholderTypeDefinition, if_pos h]

theorem run_placeholderTypeDefinition_of_ne
    (h : browseResult.typeDefinition.id ≠ WellKnown.baseObjectType.id) :
    (DashboardClient.placeholderTypeDefinition client browseResult).run s =
      (.ok browseResult.typeDefinition, s) := by
  rw [DashboardClient.placeholderTypeDefinition, if_neg h]
  rfl

/-- The lookup for an instance is safe exactly if an instance with the identifier of the base
object type is answered for with an interface, which in another namespace has to be the type
that the instance has already. -/
theorem placeholderLookupSafe_iff :
    PlaceholderLookupSafe client browseResult s ↔
      (browseResult.typeDefinition.id = WellKnown.baseObjectType.id →
        ∀ ifs, (client.browse browseResult.nodeId .hasInterface s.world).1 = .ok ifs →
          ∃ first rest, ifs = first :: rest ∧
            (browseResult.typeDefinition.equals WellKnown.baseObjectType = true ∨
              first.nodeId = browseResult.typeDefinition)) := by
  by_cases hid : browseResult.typeDefinition.id = WellKnown.baseObjectType.id
  · rw [forall_prop_of_true hid]
    constructor
    · rintro ⟨hnonempty, hreplaced⟩ ifs hifs
      have hask := DashboardClient.run_ask hifs
      rw [run_placeholderTypeDefinition_of_id hid, Prog.run_bind, hask] at hnonempty
      rw [ReplacesBaseObjectType] at hreplaced
      simp only [run_placeholderTypeDefinition_of_id hid, Prog.run_bind, hask] at hreplaced
      cases ifs with
      | nil => exact absurd rfl hnonempty
      | cons first rest =>
        refine ⟨first, rest, rfl, ?_⟩
        by_cases hsame : first.nodeId = browseResult.typeDefinition
        · exact Or.inr hsame
        · exact Or.inl (hreplaced first.nodeId _ rfl hsame)
    · intro h
      rcases hanswer : (client.browse browseResult.nodeId .hasInterface s.world).1 with e | ifs
      · have hask := DashboardClient.run_ask_of_error hanswer
        refine ⟨?_, fun t s' hrun _ => ?_⟩
        · rw [run_placeholderTypeDefinition_of_id hid, Prog.run_bind, hask]
          simp
        · rw [run_placeholderTypeDefinition_of_id hid, Prog.run_bind, hask] at hrun
          cases hrun
      · obtain ⟨first, rest, rfl, htype⟩ := h ifs hanswer
        have hask := DashboardClient.run_ask hanswer
        refine ⟨?_, fun t s' hrun hne => htype.resolve_right fun hsame => hne ?_⟩
        · rw [run_placeholderTypeDefinition_of_id hid, Prog.run_bind, hask]
          change (Outcome.ok first.nodeId : Outcome Exception NodeId) ≠ .stuck .undefined
          simp
        · rw [run_placeholderTypeDefinition_of_id hid, Prog.run_bind, hask] at hrun
          cases hrun
          exact hsame
  · refine ⟨fun _ h => absurd h hid, fun _ => ⟨?_, fun t s' hrun hne => ?_⟩⟩
    · rw [run_placeholderTypeDefinition_of_ne hid]
      simp
    · rw [run_placeholderTypeDefinition_of_ne hid] at hrun
      cases hrun
      exact absurd rfl hne

end Placeholder

section Machine

variable {o : Observer ω} {machine : BrowseResult} {s : ObserverState ω}

/-- The type definition of a machine is looked up safely exactly if a machine without a type is
answered for with one. -/
theorem fixMissingType_defined_iff :
    ((fixMissingType o machine).run s).1 ≠ .stuck .undefined ↔
      (machine.typeDefinition.equals WellKnown.missingType = true →
        (o.client.browse machine.nodeId .hasTypeDefinition s.world.state).1 ≠ .ok []) := by
  change (fixMissingType o machine).Ends s (fun out _ => out ≠ .stuck .undefined) ↔ _
  unfold fixMissingType
  split_ifs with hmissing
  · rw [forall_prop_of_true hmissing, Prog.ends_catching, Prog.ends_bind]
    rcases hanswer : o.data.browse machine.nodeId .hasTypeDefinition s.world with ⟨e | defs, w⟩
    · have hserver : (o.client.browse machine.nodeId .hasTypeDefinition s.world.state).1 =
          .error e := congrArg Prod.fst hanswer
      rw [ends_ask, hanswer, hserver]
      by_cases he : e.isUmatiException = true
      · simp [he]
      · simp [he]
    · have hserver : (o.client.browse machine.nodeId .hasTypeDefinition s.world.state).1 =
          .ok defs := congrArg Prod.fst hanswer
      rw [ends_ask, hanswer, hserver]
      cases defs with
      | nil => simp [Prog.front]
      | cons first rest => simp [Prog.front]
  · exact iff_of_true (by simp) fun h => absurd h hmissing

/-- The interface of a machine is looked up safely, whatever is answered. -/
theorem resolveInterface_defined (typed : BrowseResult) :
    ((resolveInterface o typed).run s).1 ≠ .stuck .undefined := by
  change (resolveInterface o typed).Ends s fun out _ => out ≠ .stuck .undefined
  unfold resolveInterface
  split_ifs
  · rw [Prog.ends_bind, ends_ask]
    refine ⟨fun ifs w _ => ?_, fun e w _ => by simp⟩
    cases ifs with
    | nil => simp
    | cons first rest => simp
  · simp

/-- Only the base object type of namespace 0 is replaced by an interface of the machine. -/
theorem resolveInterface_replaces (typed : BrowseResult) :
    ReplacesBaseObjectType (BrowseResult.typeDefinition <$> resolveInterface o typed)
      typed.typeDefinition s := by
  intro t s' hrun hne
  by_contra hbase
  rw [resolveInterface, if_neg hbase] at hrun
  cases hrun
  exact hne rfl

theorem machineLookupsSafe_iff :
    MachineLookupsSafe o machine s ↔
      (machine.typeDefinition.equals WellKnown.missingType = true →
        (o.client.browse machine.nodeId .hasTypeDefinition s.world.state).1 ≠ .ok []) := by
  rw [← fixMissingType_defined_iff]
  exact ⟨fun h => h.nonempty, fun h =>
    ⟨h, fun typed _ => resolveInterface_defined typed, fun typed _ =>
      resolveInterface_replaces typed⟩⟩

end Machine

/-! ### The lookups of the loops -/

/-- The lookups are safe for every instance of a placeholder and for every machine that the two
loops come to. -/
structure LookupsSafe (o : Observer ω) (fuel : ℕ) (browseResults : List BrowseResult)
    (session : DashboardClient.Session (Recorded ω)) (parentNodeId : NodeId)
    (filter : Option (NodeId → Bool)) (potentialMachines : List BrowseResult)
    (s : ObserverState ω) : Prop where
  instances : ∀ browseResult found session', Prog.Reaches
    (DashboardClient.preparePlaceholderNodeTypeId o.data o.reader
      (DashboardClient.transformToNodeIds o.data o.reader fuel))
    [] browseResults session browseResult found session' →
      PlaceholderLookupSafe o.data browseResult session'
  machines : ∀ machine found s', Prog.Reaches
    (browseCandidate o (browseForMachines o fuel) parentNodeId filter)
    [] potentialMachines s machine found s' →
      (filter.map fun f => f machine.nodeId).getD true = true → MachineLookupsSafe o machine s'

/-- **The lookups are safe** exactly if every instance with the identifier of the base object type
is answered for with an interface, which for another namespace leaves its type, and no machine
without a type has an empty `HasTypeDefinition`. -/
theorem lookupsSafe_iff (o : Observer ω) (fuel : ℕ) (browseResults : List BrowseResult)
    (session : DashboardClient.Session (Recorded ω)) (parentNodeId : NodeId)
    (filter : Option (NodeId → Bool)) (potentialMachines : List BrowseResult)
    (s : ObserverState ω) :
    LookupsSafe o fuel browseResults session parentNodeId filter potentialMachines s ↔
      (∀ browseResult found session', Prog.Reaches
        (DashboardClient.preparePlaceholderNodeTypeId o.data o.reader
          (DashboardClient.transformToNodeIds o.data o.reader fuel))
        [] browseResults session browseResult found session' →
          browseResult.typeDefinition.id = WellKnown.baseObjectType.id →
          ∀ ifs, (o.client.browse browseResult.nodeId .hasInterface session'.world.state).1 =
            .ok ifs → ∃ first rest, ifs = first :: rest ∧
              (browseResult.typeDefinition.equals WellKnown.baseObjectType = true ∨
                first.nodeId = browseResult.typeDefinition)) ∧
      ∀ machine found s', Prog.Reaches
        (browseCandidate o (browseForMachines o fuel) parentNodeId filter)
        [] potentialMachines s machine found s' →
          (filter.map fun f => f machine.nodeId).getD true = true →
          machine.typeDefinition.equals WellKnown.missingType = true →
          (o.client.browse machine.nodeId .hasTypeDefinition s'.world.state).1 ≠ .ok [] := by
  constructor
  · intro h
    exact ⟨fun r found session' hreach =>
        placeholderLookupSafe_iff.mp (h.instances r found session' hreach),
      fun machine found s' hreach hfilter =>
        machineLookupsSafe_iff.mp (h.machines machine found s' hreach hfilter)⟩
  · rintro ⟨hinstances, hmachines⟩
    exact ⟨fun r found session' hreach =>
        placeholderLookupSafe_iff.mpr (hinstances r found session' hreach),
      fun machine found s' hreach hfilter =>
        machineLookupsSafe_iff.mpr (hmachines machine found s' hreach hfilter)⟩

/-- A server that lists no interface and no type definition of any node. -/
def bareAnswers : Answers where
  browse _ _ := .ok []
  browseWithResultTypeFilter _ _ _ := .ok []
  translateBrowsePathToNodeId _ _ := .ok ⟨"", ""⟩

/-- An observer of this server. -/
def bareObserver : Observer Unit where
  client := bareAnswers.client
  reader := .create [] []
  machinesFilter := ∅
  topics := ⟨"umati/v2", "plant"⟩

/-- An instance of a type of the server whose identifier is that of the base object type, and a
machine without a type: for either one the front of an empty answer is taken. -/
theorem not_lookupsSafe :
    ¬ LookupsSafe bareObserver 0
        [⟨.object, ⟨"urn:plant", "i=1"⟩, ⟨"urn:plant", "i=58"⟩, WellKnown.hasComponent,
          ⟨"urn:plant", "Spindle"⟩⟩]
        ⟨⟨(), []⟩, .new⟩ WellKnown.machinesFolder none [] (bareObserver.start ()) ∧
      ¬ LookupsSafe bareObserver 0 [] ⟨⟨(), []⟩, .new⟩ WellKnown.machinesFolder none
        [⟨.object, ⟨"urn:plant", "i=2"⟩, WellKnown.missingType, WellKnown.hasComponent,
          ⟨"urn:plant", "Press"⟩⟩]
        (bareObserver.start ()) :=
  ⟨fun h => (h.instances _ _ _ Prog.reaches_head).nonempty rfl,
    fun h => (h.machines _ _ _ Prog.reaches_head rfl).nonempty rfl⟩

end Observer

end UmatiDashboard
