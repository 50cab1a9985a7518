import UmatiDashboard.DashboardClient.DataSets
import UmatiDashboard.Effect.Accounts
import UmatiDashboard.MachineObserver.UpdateMachines

/-!
# The phases of a cycle give account

The calls of the data client are the ledger of a cycle, and each phase gives account of its end
by it. The search catches `OpcUaException`s and `ClientNotConnected`, but a plain
`UmatiException` only where it fixes a missing type; the functions that add a machine catch
everything. Beside this, two places take the first element of an answer without looking whether
there is one.
-/

namespace UmatiDashboard

namespace Exception

/-- A `UmatiException` of none of the subclasses. -/
def isPlainUmatiException : Exception → Bool
  | umati _ => true
  | _ => false

/-- The exceptions that the data client raises. -/
def IsRaised (ex : Exception) : Prop :=
  ex.isOpcUaException = true ∨ ex.isClientNotConnected = true ∨ ex.isPlainUmatiException = true

theorem isUmatiException_of_isRaised {ex : Exception} (h : ex.IsRaised) :
    ex.isUmatiException = true := by
  cases ex <;> simp_all [IsRaised, isUmatiException, isOpcUaException, isClientNotConnected,
    isPlainUmatiException]

/-- A plain exception is caught by none of the handlers of the search. -/
theorem isCaught_of_isPlain {ex : Exception} (h : ex.isPlainUmatiException = true) :
    ex.isOpcUaException = false ∧ ex.isClientNotConnected = false ∧
      ex.isMachineInvalidException = false := by
  cases ex <;> simp_all [isPlainUmatiException, isOpcUaException, isClientNotConnected,
    isMachineInvalidException]

end Exception

/-- The calls that may throw raise the exceptions of the data client. -/
structure IDashboardDataClient.RaisesOnly {ω : Type} (client : IDashboardDataClient ω) : Prop where
  browse : ∀ n ctx w e, (client.browse n ctx w).1 = .error e → e.IsRaised
  browseWithResultTypeFilter :
    ∀ n ctx t w e, (client.browseWithResultTypeFilter n ctx t w).1 = .error e → e.IsRaised
  translateBrowsePathToNodeId :
    ∀ n q w e, (client.translateBrowsePathToNodeId n q w).1 = .error e → e.IsRaised
  readeNodeValues : ∀ ns w e, (client.readeNodeValues ns w).1 = .error e → e.IsRaised

namespace ClientCall

/-- The answer is a plain `UmatiException`. -/
def throwsPlain {α : Type} : Except Exception α → Bool
  | .ok _ => false
  | .error e => e.isPlainUmatiException

/-- A call of the search that ends the update thread: a plain `UmatiException`, or no type
definition where a missing one was looked for. -/
def escapes : ClientCall → Bool
  | browse _ ctx answer =>
    if ctx = .hasTypeDefinition then
      match answer with
      | .ok [] => true
      | _ => false
    else throwsPlain answer
  | browseWithResultTypeFilter _ _ _ answer => throwsPlain answer
  | translateBrowsePathToNodeId _ _ answer => throwsPlain answer
  | readeNodeValues _ answer => throwsPlain answer

/-- A Browse that finds no interface. -/
def lacksInterface : ClientCall → Bool
  | browse _ ctx (.ok []) => ctx = .hasInterface
  | _ => false

end ClientCall

open Exception (IsRaised)

variable {ω : Type}

/-! ### Expanding an instance -/

namespace DashboardClient

/-- The calls made, with those to look out for when a machine is added. -/
def ledger : Ledger (Session (Recorded ω)) ClientCall :=
  ⟨fun s => s.world.calls, fun c => c.lacksInterface = true⟩

/-- No exception is fatal where everything is caught. -/
abbrev Caught {α : Type} (k : ℕ) (p : ClientM (Recorded ω) α) : Prop :=
  p.Accounts ledger (fun _ => True) (fun _ => False) k

theorem asks_ask {α : Type} {entry : Except Exception α → ClientCall}
    {f : ω → Except Exception α × ω} :
    (ask (Recorded.call entry f)).Asks ledger (fun _ => True) entry := fun s => by
  rw [ask, Prog.ends_zoom, Prog.ends_call]
  refine ⟨fun a w h => ⟨.ok a, ?_, rfl, fun _ _ => trivial⟩, fun e w h =>
    ⟨.error e, ?_, rfl, fun _ _ => trivial⟩⟩
  all_goals
    obtain ⟨ha, rfl⟩ := Prod.mk.inj h
    rw [← ha]
    rfl

/-- A call whose answers are all fit to go on with. -/
theorem caught_ask {α β : Type} {entry : Except Exception α → ClientCall}
    {f : ω → Except Exception α × ω} {k : ℕ} {g : α → ClientM (Recorded ω) β}
    (hentry : ∀ answer, (entry answer).lacksInterface = false) (hg : ∀ a, Caught k (g a)) :
    Caught (k + 1) (ask (Recorded.call entry f) >>= g) :=
  asks_ask.bind (fun e _ => by simp [ledger, hentry])
    (fun a h => by simp [ledger, hentry] at h) fun a _ => hg a

theorem caught_update (k : ℕ) (f : DashboardClient → DashboardClient) :
    Caught k (update f : ClientM (Recorded ω) Unit) :=
  Prog.Silent.quiet fun _ => ⟨rfl, .ok _, rfl, fun _ h => by cases h⟩

theorem caught_insertBrowsed (k : ℕ) (startNode : NodeId) :
    Caught k (insertBrowsed startNode : ClientM (Recorded ω) Bool) :=
  Prog.Silent.quiet fun _ => ⟨rfl, .ok _, rfl, fun _ h => by cases h⟩

theorem caught_allocate (k : ℕ) : Caught k (allocate : ClientM (Recorded ω) NodePtr) :=
  Prog.Silent.quiet fun _ => ⟨rfl, .ok _, rfl, fun _ h => by cases h⟩

variable (client : IDashboardDataClient ω) (reader : OpcUaTypeReader)

/-- **The one undefined access**: a candidate without an interface. -/
theorem caught_placeholderTypeDefinition (k : ℕ) (browseResult : BrowseResult) :
    Caught k (placeholderTypeDefinition client.recorded browseResult) := by
  unfold placeholderTypeDefinition
  split_ifs
  · refine Prog.Accounts.le (asks_ask.bind (by simp [ledger, ClientCall.lacksInterface]) ?_ ?_)
      (Nat.le_succ k)
    · intro ifs hifs
      cases ifs with
      | nil => rfl
      | cons first rest => simp [ledger, ClientCall.lacksInterface] at hifs
    · intro ifs hifs
      cases ifs with
      | nil => exact absurd (by simp [ledger, ClientCall.lacksInterface]) hifs
      | cons first rest => exact Prog.accounts_pure
  · exact Prog.accounts_pure

section Children

variable {k : ℕ} {f : NodeId → NodeRef → ClientM (Recorded ω) Node}
  (hf : ∀ n t, Caught k (f n t))

include hf

theorem caught_optionalAndMandatory (startNode : NodeId) (found : List Node) (pChild : NodeRef) :
    Caught (k + 1) (optionalAndMandatoryTransformToNodeId client.recorded reader f startNode found
      pChild) := by
  refine Prog.Accounts.catchingAny ?_ fun ex => ?_
  · refine caught_ask (fun answer => rfl) fun childNodeId => ?_
    split_ifs
    · exact Prog.accounts_pure
    · exact (hf _ _).bind fun _ => Prog.accounts_pure
  · have hthrow : ∀ e, Caught (k + 1) (Prog.throw e : ClientM (Recorded ω) (Bool × List Node)) :=
      fun e => Prog.accounts_throw trivial id
    split
    · split_ifs
      · exact hthrow _
      · exact Prog.accounts_pure
    · split_ifs
      · exact hthrow _
      · exact Prog.accounts_pure

theorem caught_optionalAndMandatoryPlaceholder (startNode : NodeId) (found : List Node)
    (pChild : NodeRef) :
    Caught (k + 1) (optionalAndMandatoryPlaceholderTransformToNodeId client.recorded reader f
      startNode found pChild) := by
  refine Prog.Accounts.catchingAny ?_ fun ex => ?_
  · refine .bind (caught_ask (fun answer => by simp [ClientCall.lacksInterface])
      fun browseResults => .bind (.foldEach (fun instances r => ?_) _ _) fun _ =>
        Prog.accounts_pure) fun _ => Prog.accounts_pure
    refine (caught_placeholderTypeDefinition client k r).bind fun t => ?_
    split
    · exact (hf _ _).bind fun _ => Prog.accounts_pure
    · exact Prog.accounts_pure
  · split_ifs
    · exact Prog.accounts_throw trivial id
    · exact Prog.accounts_pure

theorem caught_transformChild (startNode : NodeId) (found : List Node) (pChild : NodeRef) :
    Caught (k + 1) (transformChild client.recorded reader f startNode found pChild) := by
  unfold transformChild
  split
  · exact (caught_optionalAndMandatory client reader hf startNode found pChild).map
  · exact (caught_optionalAndMandatory client reader hf startNode found pChild).map
  · exact (caught_optionalAndMandatoryPlaceholder client reader hf startNode found pChild).map
  · exact (caught_optionalAndMandatoryPlaceholder client reader hf startNode found pChild).map
  · exact Prog.accounts_pure

end Children

theorem caught_transformToNodeIds : ∀ (fuel : ℕ) (startNode : NodeId) (pTypeDefinition : NodeRef),
    Caught fuel (transformToNodeIds client.recorded reader fuel startNode pTypeDefinition)
  | 0, _, _ => Prog.accounts_outOfFuel
  | fuel + 1, startNode, pTypeDefinition => by
    have ih := caught_transformToNodeIds fuel
    refine .bind (caught_insertBrowsed _ _) fun isNew => .bind ?_ fun foundChildNodes =>
      (caught_allocate _).bind fun _ => Prog.accounts_pure
    split_ifs
    · refine .bind (.foldEach (caught_transformChild client reader ih startNode) _ _)
        fun found => ?_
      exact (caught_update _ _).bind fun _ => Prog.accounts_pure
    · exact Prog.accounts_pure

/-! ### Subscribing -/

theorem caught_subscribe (k : ℕ) (nodeId : NodeId) (cb : NewValueCallback) :
    Caught k (ask (client.recorded.subscribe nodeId cb)) := by
  have hsilent : (ask (client.recorded.subscribe nodeId cb)).Silent ledger fun _ => True := by
    intro s
    rw [ask, Prog.ends_zoom, Prog.ends_call]
    refine ⟨fun a w h => ⟨?_, .ok a, rfl, fun _ _ => trivial⟩, fun e w h =>
      ⟨?_, .error e, rfl, fun _ _ => trivial⟩⟩
    all_goals
      obtain ⟨-, rfl⟩ := Prod.mk.inj h
      rfl
  exact hsilent.accounts fun _ _ => id

theorem caught_subscribeValue (k : ℕ) (ptr : NodePtr) (nodeId : NodeId) :
    Caught k (subscribeValue client.recorded ptr nodeId) := by
  refine Prog.Accounts.catchingAny ?_ fun _ => Prog.accounts_pure
  refine (Prog.silent_get.quiet).bind fun s => ?_
  split_ifs
  · exact Prog.accounts_pure
  · refine .bind (caught_subscribe client k nodeId ⟨ptr⟩) fun subscribedValue => caught_update _ _

theorem caught_subscribeValues (k : ℕ) (node : Node) :
    Caught k (subscribeValues client.recorded node) := by
  rw [subscribeValues_eq, subscribeAll]
  have hvalue : ∀ v : NodePtr × NodeId, Caught k (subscribeValue client.recorded v.1 v.2) :=
    fun v => caught_subscribeValue client k v.1 v.2
  exact Prog.Accounts.forEach hvalue (nodeVariables node)

/-- `addDataSet` gives account of how it ends; it throws `OpcUaException`s only. -/
theorem accounts_addDataSet (fuel : ℕ) (startNodeId : NodeId) (pTypeDefinition : NodeRef)
    (channel onlineChannel : String) :
    (addDataSet client.recorded reader fuel startNodeId pTypeDefinition channel
        onlineChannel).Accounts
      ledger (fun e => e.isOpcUaException = true) (fun _ => False) fuel := by
  refine Prog.Accounts.catchingAny ?_ fun ex => ?_
  · exact .bind ((caught_transformToNodeIds client reader fuel _ _).bind fun _ =>
      Prog.accounts_pure) fun storage => (caught_subscribeValues client fuel _).bind fun _ =>
        caught_update _ _
  · split_ifs
    · exact Prog.accounts_pure
    · exact Prog.accounts_throw rfl id

end DashboardClient

namespace Observer

variable (o : Observer ω)

/-- The calls made, with those that are bad in a phase of a cycle. -/
def ledger (bad : ClientCall → Bool) : Ledger (ObserverState ω) ClientCall :=
  ⟨fun s => s.world.calls, fun c => bad c = true⟩

section Operations

variable {α : Type} {bad : ClientCall → Bool} {raised : Exception → Prop}

theorem asks_ask {entry : Except Exception α → ClientCall} {f : ω → Except Exception α × ω}
    (hf : ∀ w e, (f w).1 = .error e → raised e) :
    (ask (Recorded.call entry f)).Asks (ledger bad) raised entry := fun s => by
  rw [ends_ask]
  refine ⟨fun a w h => ⟨.ok a, ?_, rfl, fun _ h => by cases h⟩, fun e w h =>
    ⟨.error e, ?_, rfl, fun _ he => ?_⟩⟩
  · obtain ⟨ha, rfl⟩ := Prod.mk.inj h
    rw [← ha]
    rfl
  · obtain ⟨ha, rfl⟩ := Prod.mk.inj h
    rw [← ha]
    rfl
  · cases he
    exact hf _ e (Prod.mk.inj h).1

theorem silent_write (f : ObserverTables → ObserverTables) :
    (write f : ObserverM ω Unit).Silent (ledger bad) raised :=
  Prog.silent_modify fun _ => rfl

theorem silent_record (e : ObserverEvent) :
    (record e : ObserverM ω Unit).Silent (ledger bad) raised :=
  Prog.silent_modify fun _ => rfl

theorem silent_tables : (tables : ObserverM ω ObserverTables).Silent (ledger bad) raised :=
  fun _ => ⟨rfl, .ok _, rfl, fun _ h => by cases h⟩

theorem silent_setSubType (f : NodeMap NodeId → NodeMap NodeId) :
    (setSubType f : ObserverM ω Unit).Silent (ledger bad) raised :=
  Prog.silent_modify fun _ => rfl

theorem silent_askQuietly (f : ω → α × ω) :
    (askQuietly (Recorded.silent f) : ObserverM ω α).Silent (ledger bad) raised :=
  fun _ => ⟨rfl, .ok _, rfl, fun _ h => by cases h⟩

theorem silent_liftExcept {r : Except Exception α} (hr : ∀ e, r = .error e → raised e) :
    (liftExcept r : ObserverM ω α).Silent (ledger bad) raised := fun s => by
  rw [ends_liftExcept]
  exact ⟨fun a _ => ⟨rfl, .ok a, rfl, fun _ h => by cases h⟩, fun e he =>
    ⟨rfl, .error e, rfl, fun _ h => by cases h; exact hr e he⟩⟩

end Operations

/-! ### The search -/

/-- The account of a part of the search. -/
abbrev Searches {α : Type} (raised : Exception → Prop) (k : ℕ) (p : ObserverM ω α) : Prop :=
  p.Accounts (ledger ClientCall.escapes) raised (fun e => e.isPlainUmatiException = true) k

/-- The exceptions that the handlers of a candidate see. -/
def IsCandidateRaised (e : Exception) : Prop :=
  e.IsRaised ∨ e.isMachineInvalidException = true

section Search

variable {o} (hraises : o.client.RaisesOnly) {k : ℕ} {raised : Exception → Prop}

/-- A call of the search whose answers are all fit to go on with. -/
theorem searches_ask {α β : Type} {entry : Except Exception α → ClientCall}
    {f : ω → Except Exception α × ω} {g : α → ObserverM ω β}
    (hf : ∀ w e, (f w).1 = .error e → raised e)
    (hentry : ∀ answer, (entry answer).escapes = ClientCall.throwsPlain answer)
    (hg : ∀ a, Searches raised k (g a)) :
    Searches raised (k + 1) (ask (Recorded.call entry f) >>= g) :=
  (asks_ask hf).bind (fun e _ => by simp [ledger, hentry, ClientCall.throwsPlain])
    (fun a h => by simp [ledger, hentry, ClientCall.throwsPlain] at h) fun a _ => hg a

theorem searches_findSupertype (typeDefinition : NodeId) :
    ∀ mds, Searches raised k (findSupertype o typeDefinition mds)
  | [] => Prog.accounts_pure
  | md :: rest => (silent_askQuietly _).quiet.bind fun same => by
    cases same
    · exact searches_findSupertype typeDefinition rest
    · exact Prog.accounts_pure

theorem searches_resolveSubType (machine : BrowseResult) :
    Searches raised k (resolveSubType o machine) := by
  refine Prog.silent_get.quiet.bind fun s => ?_
  split
  · refine (silent_setSubType _).quiet.bind fun _ =>
      (searches_findSupertype _ _).bind fun md => ?_
    cases md with
    | none => exact Prog.accounts_pure
    | some md => exact (silent_setSubType _).quiet.bind fun _ => Prog.accounts_pure
  · split_ifs
    · exact Prog.accounts_pure
    · exact Prog.accounts_pure

/-- The handlers of a candidate let `ClientNotConnected` and plain exceptions through. -/
theorem searches_catchingCandidate {α : Type} {p q : ObserverM ω α}
    (hp : Searches IsCandidateRaised k p) (hq : Searches IsRaised k q) :
    Searches IsRaised k (p.catching fun ex => if isCandidateError ex then q else .throw ex) := by
  refine hp.catchingIf (fun e he hc => ⟨?_, Iff.rfl⟩) (fun e _ hplain => ?_) hq
  · rcases he with he | he
    · exact he
    · simp [isCandidateError, he] at hc
  · obtain ⟨hopc, -, hinv⟩ := Exception.isCaught_of_isPlain hplain
    simp [isCandidateError, hopc, hinv]

include hraises

theorem searches_fixMissingType (machine : BrowseResult) :
    Searches IsRaised k (fixMissingType o machine) := by
  unfold fixMissingType
  split_ifs
  · have hfix : (do
        let defs ← ask (o.data.browse machine.nodeId .hasTypeDefinition)
        let first ← Prog.front defs
        pure { machine with typeDefinition := first.nodeId }).Accounts
          (ledger ClientCall.escapes) IsRaised (fun _ => False) (k + 1) := by
      refine (asks_ask (hraises.browse _ _)).bind (by simp [ledger, ClientCall.escapes]) ?_ ?_
      · intro defs hdefs
        cases defs with
        | nil => rfl
        | cons first rest => simp [ledger, ClientCall.escapes] at hdefs
      · intro defs hdefs
        cases defs with
        | nil => exact absurd (by simp [ledger, ClientCall.escapes]) hdefs
        | cons first rest => exact Prog.accounts_pure
    refine (hfix.le (Nat.le_succ k)).catchingAll fun ex hex => ?_
    rw [if_pos (Exception.isUmatiException_of_isRaised hex)]
    exact Prog.accounts_pure
  · exact Prog.accounts_pure

theorem searches_checkCandidate (machine : BrowseResult) :
    Searches IsRaised k (checkCandidate o machine) := by
  refine searches_catchingCandidate ?_ Prog.accounts_pure
  refine (searches_resolveSubType machine).bind fun m₁ => .bind ?_ fun m₂ => .bind ?_
    fun found => ?_
  · unfold resolveInterface
    split_ifs
    · refine (searches_ask (fun w e h => .inl (hraises.browse _ _ w e h)) (fun _ => rfl)
        fun ifs => ?_).le (Nat.le_succ k)
      cases ifs with
      | nil => exact Prog.accounts_pure
      | cons first rest => exact Prog.accounts_pure
    · exact Prog.accounts_pure
  · have hlift : (liftExcept (o.reader.getIdentificationTypeNodeId m₂.typeDefinition) :
        ObserverM ω NodeId).Accounts (ledger ClientCall.escapes)
          (fun e => e.isMachineInvalidException = true)
          (fun e => e.isPlainUmatiException = true) k := by
      refine (silent_liftExcept fun e he => ?_).accounts fun e he hplain => ?_
      · exact o.reader.isMachineInvalid_of_getIdentificationTypeNodeId he
      · rw [(Exception.isCaught_of_isPlain hplain).2.2] at he
        cases he
    refine (hlift.mono (Nat.le_refl k) (fun _ => .inr) fun _ _ => Iff.rfl).bind fun t => ?_
    exact (searches_ask (fun w e h => .inl (hraises.browseWithResultTypeFilter _ _ _ w e h))
      (fun _ => rfl) fun _ => Prog.accounts_pure).le (Nat.le_succ k)
  · cases found
    · exact Prog.accounts_pure
    · exact Prog.accounts_pure

section Nested

variable {browse : NodeId → NodeId → Option (NodeId → Bool) → ObserverM ω (List BrowseResult)}
  (hbrowse : ∀ n p c, Searches IsRaised k (browse n p c))

include hbrowse

theorem searches_enterMachine (parentNodeId : NodeId) (machine : BrowseResult) :
    Searches IsRaised (k + 1) (enterMachine o browse parentNodeId machine) := by
  refine searches_catchingCandidate ?_ Prog.accounts_pure
  refine .bind ?_ fun components => (silent_record _).quiet.bind fun _ =>
    (silent_write _).quiet.bind fun _ => Prog.accounts_pure
  have hfolder : Searches IsRaised (k + 1) (findComponentsFolder o browse machine.nodeId) := by
    refine Prog.Accounts.catchingIf ?_ (fun e he _ => ⟨he, Iff.rfl⟩)
      (fun e _ hplain => (Exception.isCaught_of_isPlain hplain).1) Prog.accounts_pure
    refine searches_ask (hraises.translateBrowsePathToNodeId _ _) (fun _ => rfl)
      fun componentFolder => ?_
    split_ifs
    · exact Prog.accounts_pure
    · exact hbrowse _ _ _
  exact hfolder.mono (Nat.le_refl _) (fun _ => .inl) fun _ _ => Iff.rfl

theorem searches_browseCandidate (parentNodeId : NodeId) (filter : Option (NodeId → Bool))
    (newMachines : List BrowseResult) (machine : BrowseResult) :
    Searches IsRaised k (browseCandidate o browse parentNodeId filter newMachines machine) := by
  unfold browseCandidate
  split_ifs
  · refine (searches_fixMissingType hraises machine).bind fun m₁ =>
      (searches_checkCandidate hraises m₁).bind fun r => ?_
    cases r with
    | none => exact Prog.accounts_pure
    | some m₂ =>
      exact ((searches_enterMachine hraises hbrowse parentNodeId m₂).le (Nat.le_succ k)).bind
        fun _ => Prog.accounts_pure
  · exact Prog.accounts_pure

end Nested

theorem searches_browseForMachines : ∀ (fuel : ℕ) (nodeId parentNodeId : NodeId)
    (filter : Option (NodeId → Bool)),
    Searches IsRaised fuel (browseForMachines o fuel nodeId parentNodeId filter)
  | 0, _, _, _ => Prog.accounts_outOfFuel
  | fuel + 1, nodeId, parentNodeId, filter => by
    have hctx : BrowseContext.hierarchical ≠ .hasTypeDefinition := by decide
    refine searches_ask (hraises.browse _ _) (fun answer => ?_) fun potentialMachines => ?_
    · simp [ClientCall.escapes, hctx]
    · exact .foldEach (searches_browseCandidate hraises
        (searches_browseForMachines fuel) parentNodeId filter) _ _

/-- **The search gives account of its end**: only plain exceptions leave it. -/
theorem searches_canBrowseMachineList (fuel : ℕ) :
    Searches (fun e => e.isPlainUmatiException = true) fuel (canBrowseMachineList o fuel) := by
  refine Prog.Accounts.catchingIf (searches_browseForMachines hraises fuel _ _ _).map
    (fun e he hc => ⟨?_, Iff.rfl⟩) (fun e _ hplain => ?_) Prog.accounts_pure
  · rcases he with he | he | he
    · simp [he] at hc
    · simp [he] at hc
    · exact he
  · obtain ⟨hopc, hcnc, -⟩ := Exception.isCaught_of_isPlain hplain
    simp [hopc, hcnc]

end Search

/-! ### The rest of a cycle -/

/-- The account of a part of a cycle after the search, where no exception is fatal. -/
abbrev Processes {α : Type} (raised : Exception → Prop) (k : ℕ) (p : ObserverM ω α) : Prop :=
  p.Accounts (ledger ClientCall.lacksInterface) raised (fun _ => False) k

section Process

variable {o} {k : ℕ} {raised : Exception → Prop}

/-- A call whose answers are all fit to go on with. -/
theorem processes_ask {α β : Type} {entry : Except Exception α → ClientCall}
    {f : ω → Except Exception α × ω} {g : α → ObserverM ω β}
    (hentry : ∀ answer, (entry answer).lacksInterface = false)
    (hg : ∀ a, Processes (fun _ => True) k (g a)) :
    Processes (fun _ => True) k (ask (Recorded.call entry f) >>= g) :=
  ((asks_ask fun _ _ _ => trivial).bind (fun e _ => by simp [ledger, hentry])
    (fun a h => by simp [ledger, hentry] at h) fun a _ => hg a).le (Nat.le_succ k)

theorem processes_onClient {c : DashboardClient}
    {p : DashboardClient.ClientM (Recorded ω) Unit}
    (hp : p.Accounts DashboardClient.ledger raised (fun _ => False) k) :
    Processes raised k (onClient c p) :=
  Prog.Accounts.zoom (hp.bind fun _ => Prog.silent_get.quiet.map) rfl (fun _ => rfl)
    fun _ _ => rfl

theorem processes_liftExcept {α : Type} (r : Except Exception α) :
    Processes (fun _ => True) k (liftExcept r : ObserverM ω α) :=
  (silent_liftExcept fun _ _ => trivial).accounts fun _ _ => id

theorem processes_dropDashboardClient (machineNodeId : NodeId) :
    Processes raised k (dropDashboardClient o machineNodeId) := by
  refine silent_tables.quiet.bind fun t => ?_
  split
  · refine .bind (processes_onClient ?_) fun _ => (silent_write _).quiet
    exact Prog.Silent.quiet fun _ => ⟨rfl, .ok (), rfl, fun _ h => by cases h⟩
  · exact Prog.accounts_pure

theorem processes_removeMachine (machineNodeId : NodeId) :
    Processes raised k (removeMachine o machineNodeId) :=
  (silent_record _).quiet.bind fun _ => (silent_write _).quiet.bind fun _ =>
    (processes_dropDashboardClient machineNodeId).bind fun _ => (silent_write _).quiet

theorem processes_machineListsNotEqual (machineList : List BrowseResult) :
    Processes raised k (machineListsNotEqual o machineList) := by
  refine silent_tables.quiet.bind fun t => ?_
  split_ifs
  · exact Prog.accounts_pure
  · refine .bind (silent_tables.quiet.bind fun t => ?_) fun _ => Prog.accounts_pure
    exact (Prog.Accounts.forEach processes_removeMachine _).bind fun _ => (silent_write _).quiet

/-- `isOnline` lets no exception through. -/
theorem processes_isOnline (machineNodeId typeDefinition : NodeId) :
    Processes raised k (isOnline o machineNodeId typeDefinition) := by
  have hbody : ∀ identification, Processes (fun _ => True) k
      (browseIdentificationValues o machineNodeId typeDefinition identification) := by
    intro identification
    refine (processes_liftExcept _).bind fun p_type => processes_ask (fun answer => ?_)
      fun browseResults => processes_ask (fun _ => rfl) fun values =>
        (processes_liftExcept _).bind fun data => (processes_liftExcept _).bind fun json =>
          silent_tables.quiet.bind fun t => processes_liftExcept _
    have hctx : BrowseContext.variableNodes ≠ .hasInterface := by decide
    match answer with
    | .ok [] => simp [ClientCall.lacksInterface, hctx]
    | .ok (_ :: _) => rfl
    | .error _ => rfl
  refine Prog.Accounts.catchingAny ?_ fun _ => Prog.accounts_pure
  refine (processes_liftExcept _).bind fun p_type => ?_
  dsimp only
  split
  · exact Prog.accounts_pure
  · refine processes_ask (fun _ => rfl) fun identification => ?_
    cases identification with
    | nil => exact Prog.accounts_pure
    | cons first rest => exact (hbody first).bind fun _ => Prog.accounts_pure

theorem processes_findNewAndOfflineMachines (machineList : List BrowseResult)
    (toBeRemovedMachines : NodeSet) :
    Processes raised k (findNewAndOfflineMachines o machineList toBeRemovedMachines) := by
  refine .foldEach (fun found machineTool => ?_) _ _
  refine (processes_isOnline _ _).bind fun identification =>
    (silent_record _).quiet.bind fun _ => ?_
  cases identification with
  | none => exact Prog.accounts_pure
  | some identificationAsJson =>
    dsimp only
    split_ifs
    · exact Prog.accounts_pure
    · exact Prog.accounts_pure

/-- `addMachine` throws a `MachineInvalidException` only. -/
theorem processes_addMachine (fuel : ℕ) (machine : BrowseResult) :
    Processes (fun e => e.isMachineInvalidException = true) fuel (addMachine o fuel machine) := by
  have hbody : Processes
      (fun e => e.isOpcUaException = true ∨ e.isMachineInvalidException = true) fuel
      (if isIgnored machine.nodeId then pure ()
      else do
        let p_type ← liftExcept (o.reader.typeDefinitionToStructureNode machine.typeDefinition)
        let specification := (o.reader.node p_type).specifiedBrowseName.name
        let machineInformation := machineInformation (← tables) machine specification
        dropDashboardClient o machine.nodeId
        let pDashClient ← onClient .new
          (DashboardClient.addDataSet o.data o.reader fuel machine.nodeId p_type
            (o.topics.machine specification machine.nodeId.toString)
            (o.topics.onlineStatus machine.nodeId.toString))
        write fun t => { t with
          dashboardClients := t.dashboardClients.insertIfNew machine.nodeId pDashClient
          onlineMachines := t.onlineMachines.insertIfNew machine.nodeId machineInformation
          machineNames := t.machineNames.insertIfNew machine.nodeId machine.browseName.name }) := by
    split_ifs
    · exact Prog.accounts_pure
    · refine .bind (Prog.Silent.accounts (silent_liftExcept fun e he => ?_) fun _ _ => id)
        fun p_type => silent_tables.quiet.bind fun t =>
          (processes_dropDashboardClient _).bind fun _ => .bind ?_ fun c => (silent_write _).quiet
      · exact .inr (o.reader.isMachineInvalid_of_typeDefinitionToStructureNode he)
      · refine (processes_onClient (DashboardClient.accounts_addDataSet o.client o.reader fuel _ _ _
          _)).mono (Nat.le_refl _) (fun _ => .inl) fun _ _ => Iff.rfl
  refine (silent_record _).quiet.bind fun _ => hbody.catchingAll fun ex hex => ?_
  split_ifs with hopc
  · exact Prog.accounts_throw rfl id
  · exact Prog.accounts_throw (hex.resolve_left hopc) id

/-- `addNewMachine` lets no exception through. -/
theorem processes_addNewMachine (fuel : ℕ) (newMachine : BrowseResult) :
    Processes raised fuel (addNewMachine o fuel newMachine) := by
  refine Prog.Accounts.catchingAll ((processes_addMachine fuel newMachine).bind fun _ =>
    (silent_write _).quiet) fun ex hex => ?_
  rw [if_pos (by simp [isInvalidOrOffline, hex])]
  exact (silent_write _).quiet

/-- **The rest of a cycle gives account of its end**: it throws nothing. -/
theorem processes_processMachineList (fuel : ℕ) (toBeRemovedMachines : NodeSet)
    (machineList : List BrowseResult) :
    Processes raised fuel (processMachineList o fuel toBeRemovedMachines machineList) := by
  refine (silent_record _).quiet.bind fun _ =>
    (processes_machineListsNotEqual machineList).bind fun _ =>
    (processes_findNewAndOfflineMachines machineList _).bind fun found =>
    (Prog.Accounts.forEach processes_removeMachine _).bind fun _ =>
    .bind (.forEach (fun newMachineNodeId => ?_) _) fun _ => (silent_write _).quiet
  refine .bind ?_ fun skipped => ?_
  · refine silent_tables.quiet.bind fun t => ?_
    split
    · exact Prog.accounts_pure
    · split_ifs
      · exact (silent_write _).quiet.bind fun _ => Prog.accounts_pure
      · exact (silent_write _).quiet.bind fun _ => Prog.accounts_pure
  · split_ifs
    · exact Prog.accounts_pure
    · exact processes_addNewMachine fuel _

end Process

end Observer

end UmatiDashboard
