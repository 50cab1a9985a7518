import UmatiDashboard.Effect.Locking

/-!
# The locks of the gateway

Three threads share the OPC UA client and the machine observer: the main thread, which iterates
the client and publishes, the thread that connects the client, and the thread that updates the
machines. Here stand the functions of the gateway with nothing but the mutexes they lock and the
functions they call while they do. While the stack waits for the answer to a service call it may
deliver notifications, so every service call may run callbacks.

The mutexes are locked in a fixed order by every function, except that `m_clientMutex` is locked
again by a thread that holds it, which it allows. So the three threads never wait for each other
(`never_deadlocked`).
-/

namespace UmatiDashboard

/-- The mutexes. Each dashboard client has one for its data sets, and each data set one for its
values. -/
inductive GatewayMutex where
  | dashboardClients
  | client
  | callbacks
  | dataSet (dashClient : ℕ)
  | values (dashClient dataSet : ℕ)
  | machineIdentificationsCache

/-- The threads beside the main one. -/
inductive GatewayThread where
  | connecting
  | updating
  deriving DecidableEq

namespace GatewayMutex

/-- The mutexes declared as `std::recursive_mutex`. -/
def Recursive : GatewayMutex → Prop
  | client => True
  | dataSet _ => True
  | _ => False

/-- The order in which the mutexes are locked. -/
def rank : GatewayMutex → ℕ
  | dashboardClients => 0
  | client => 1
  | callbacks => 2
  | dataSet _ => 3
  | values _ _ => 4
  | machineIdentificationsCache => 5

end GatewayMutex

namespace GatewayLocks

open LockProgram GatewayMutex

abbrev Program := LockProgram GatewayMutex GatewayThread

/-! ### The subscription -/

/-- A notification runs the callback of its variable. The callback names the mutex of the values
in a declaration; whether that locks it or not, both are allowed for here. -/
def dataChange : Program :=
  hold callbacks (choose fun c => choose fun d => hold (values c d) skip)

/-- A call of the stack. -/
def service : Program := loop dataChange

def subscriptionSubscribe : Program := block [service, hold callbacks skip]

def subscriptionUnsubscribe : Program := block [hold callbacks skip, service]

/-! ### The OPC UA client -/

def initializeNamespaceCache : Program := hold client service

def updateNamespaceCache : Program := initializeNamespaceCache

def onConnected : Program := block [updateNamespaceCache, hold client service]

def connectionStatusChanged : Program := onConnected

def connect : Program := block [hold client service, connectionStatusChanged]

def threadConnectExecution : Program := loop connect

def checkConnection : Program := hold client skip

def readNodeClass : Program := block [checkConnection, hold client service]

def browseSuperType : Program := block [readNodeClass, hold client service]

/-- One query for a supertype after the other. -/
def isSameOrSubtype : Program := loop browseSuperType

/-- The filter is asked for every reference. -/
def browseWithContextAndFilter (filter : Program) : Program :=
  block [checkConnection, hold client service, updateNamespaceCache, loop filter]

def browse : Program := browseWithContextAndFilter skip

def browseWithResultTypeFilter : Program :=
  block [readNodeClass, browseWithContextAndFilter isSameOrSubtype]

def translateBrowsePathToNodeId : Program :=
  block [checkConnection, hold client service, updateNamespaceCache]

/-- After an exception the namespaces are read anew, with the mutex locked. -/
def subscribe : Program := hold client (block [subscriptionSubscribe, updateNamespaceCache])

def unsubscribe : Program := hold client subscriptionUnsubscribe

def readeNodeValues : Program := hold client service

def verifyConnection : Program := hold client service

/-- The subscription is deleted and the session closed. -/
def disconnect : Program := hold client (block [service, service])

/-- The rest of the destructor, after the connecting thread was joined. -/
def destroyClient : Program := hold client (block [service, disconnect])

/-! ### The dashboard clients -/

section DashboardClient

variable (c : ℕ)

/-- The instance is expanded by any number of calls, and its variables are subscribed. -/
def addDataSet : Program :=
  block [loop (block [translateBrowsePathToNodeId, browse, browseWithResultTypeFilter]),
    loop subscribe, hold (dataSet c) skip]

/-- The values are looked up one by one. -/
def getJson (d : ℕ) : Program := loop (hold (values c d) skip)

def publish : Program := hold (dataSet c) (loop (choose fun d => getJson c d))

def unsubscribeDashboardClient : Program := block [unsubscribe, hold (dataSet c) skip]

end DashboardClient

/-! ### The machine observer -/

def browseForMachines : Program :=
  loop (block [browse, isSameOrSubtype, browseWithResultTypeFilter, translateBrowsePathToNodeId])

def isOnline : Program := loop (block [browse, browseWithResultTypeFilter, readeNodeValues])

/-- A dashboard client is unsubscribed with the mutex locked. -/
def removeMachine : Program := hold dashboardClients (choose unsubscribeDashboardClient)

/-- A dashboard client that is there already is unsubscribed without the mutex. -/
def addMachine : Program :=
  block [choose unsubscribeDashboardClient, choose addDataSet, hold dashboardClients skip]

def updateMachines : Program :=
  block [browseForMachines, loop removeMachine, loop isOnline, loop removeMachine, loop addMachine,
    hold machineIdentificationsCache skip]

def publishMachinesList : Program := hold dashboardClients (hold machineIdentificationsCache skip)

def publishAll : Program :=
  block [hold dashboardClients (loop (choose publish)), publishMachinesList]

/-! ### The threads -/

def readTypes : Program := loop browse

def iterate : Program := block [hold client service, publishAll, verifyConnection]

/-- What the two threads run. -/
def program : GatewayThread → Program
  | .connecting => threadConnectExecution
  | .updating => loop updateMachines

/-- The main thread. Each client is connected once before its thread is started; the threads are
joined by the destructors of the client and of the observer. -/
def main : Program :=
  loop (block
    [hold client skip, connect,
      beside .connecting (block [loop readTypes, beside .updating (loop iterate)]),
      destroyClient])

/-! ### Every function locks in the order -/

/-- The mutexes that may be held where the client is called. -/
def Low (H : List GatewayMutex) : Prop := ∀ m ∈ H, rank m ≤ rank client

section Ordered

variable {H : List GatewayMutex} {J : Set GatewayThread} {p : Program}

theorem low_nil : Low [] := by simp [Low]

theorem Low.cons_client (h : Low H) : Low (client :: H) := by
  intro m hm
  rcases List.mem_cons.mp hm with rfl | hm
  · exact Nat.le_refl _
  · exact h m hm

theorem Low.cons_dashboardClients (h : Low H) : Low (dashboardClients :: H) := by
  intro m hm
  rcases List.mem_cons.mp hm with rfl | hm
  · exact Nat.zero_le _
  · exact h m hm

/-- No other mutex has the rank of `m_clientMutex`, so it can be locked where it may be held. -/
theorem ordered_hold_client (h : Low H)
    (hp : p.Ordered rank Recursive (client :: H) J) :
    (hold client p).Ordered rank Recursive H J := by
  refine ⟨?_, hp⟩
  by_cases hmem : client ∈ H
  · exact .inl ⟨hmem, trivial⟩
  · refine .inr fun m hm => Nat.lt_of_le_of_ne (h m hm) fun heq => ?_
    cases m with
    | client => exact hmem hm
    | _ => simp [rank] at heq

/-- A mutex of a higher rank can be locked there. -/
theorem ordered_hold (h : Low H) {m : GatewayMutex} (hm : rank client < rank m)
    (hp : p.Ordered rank Recursive (m :: H) J) : (hold m p).Ordered rank Recursive H J :=
  ⟨.inr fun m' hm' => Nat.lt_of_le_of_lt (h m' hm') hm, hp⟩

theorem ordered_service (h : Low H) : service.Ordered rank Recursive H J := by
  refine ordered_hold h (by decide) fun c d => ⟨.inr fun m hm => ?_, trivial⟩
  rcases List.mem_cons.mp hm with rfl | hm
  · exact (by decide : (2 : ℕ) < 4)
  · exact Nat.lt_of_le_of_lt (h m hm) (by decide : (1 : ℕ) < 4)

/-- A service call with `m_clientMutex` locked, which most operations of the client are. -/
theorem ordered_hold_client_service (h : Low H) :
    (hold client service).Ordered rank Recursive H J :=
  ordered_hold_client h (ordered_service h.cons_client)

theorem ordered_checkConnection (h : Low H) : checkConnection.Ordered rank Recursive H J :=
  ordered_hold_client h trivial

theorem ordered_updateNamespaceCache (h : Low H) :
    updateNamespaceCache.Ordered rank Recursive H J :=
  ordered_hold_client_service h

theorem ordered_connect (h : Low H) : connect.Ordered rank Recursive H J := by
  have hservice : (hold client service).Ordered rank Recursive H J := ordered_hold_client_service h
  exact ⟨hservice, ⟨ordered_updateNamespaceCache h, hservice, trivial⟩, trivial⟩

theorem ordered_isSameOrSubtype (h : Low H) : isSameOrSubtype.Ordered rank Recursive H J := by
  have hservice : (hold client service).Ordered rank Recursive H J := ordered_hold_client_service h
  exact ⟨⟨ordered_checkConnection h, hservice, trivial⟩, hservice, trivial⟩

theorem ordered_browseWithContextAndFilter (h : Low H) (hp : p.Ordered rank Recursive H J) :
    (browseWithContextAndFilter p).Ordered rank Recursive H J :=
  ⟨ordered_checkConnection h, ordered_hold_client_service h, ordered_updateNamespaceCache h, hp,
    trivial⟩

theorem ordered_browse (h : Low H) : browse.Ordered rank Recursive H J :=
  ordered_browseWithContextAndFilter h trivial

theorem ordered_browseWithResultTypeFilter (h : Low H) :
    browseWithResultTypeFilter.Ordered rank Recursive H J :=
  ⟨⟨ordered_checkConnection h, ordered_hold_client_service h, trivial⟩,
    ordered_browseWithContextAndFilter h (ordered_isSameOrSubtype h), trivial⟩

theorem ordered_translateBrowsePathToNodeId (h : Low H) :
    translateBrowsePathToNodeId.Ordered rank Recursive H J :=
  ⟨ordered_checkConnection h, ordered_hold_client_service h, ordered_updateNamespaceCache h,
    trivial⟩

theorem ordered_subscribe (h : Low H) : subscribe.Ordered rank Recursive H J := by
  have hclient : Low (client :: H) := h.cons_client
  exact ordered_hold_client h
    ⟨⟨ordered_service hclient, ordered_hold hclient (by decide) trivial, trivial⟩,
      ordered_updateNamespaceCache hclient, trivial⟩

theorem ordered_unsubscribe (h : Low H) : unsubscribe.Ordered rank Recursive H J := by
  have hclient : Low (client :: H) := h.cons_client
  exact ordered_hold_client h
    ⟨ordered_hold hclient (by decide) trivial, ordered_service hclient, trivial⟩

theorem ordered_destroyClient (h : Low H) : destroyClient.Ordered rank Recursive H J := by
  have hclient : Low (client :: H) := h.cons_client
  have htwice : Low (client :: client :: H) := hclient.cons_client
  exact ordered_hold_client h ⟨ordered_service hclient,
    ordered_hold_client hclient ⟨ordered_service htwice, ordered_service htwice, trivial⟩, trivial⟩

theorem ordered_addDataSet (h : Low H) (c : ℕ) : (addDataSet c).Ordered rank Recursive H J :=
  ⟨⟨ordered_translateBrowsePathToNodeId h, ordered_browse h, ordered_browseWithResultTypeFilter h,
    trivial⟩, ordered_subscribe h, ordered_hold h (by decide : (1 : ℕ) < 3) trivial, trivial⟩

theorem ordered_publish (h : Low H) (c : ℕ) : (publish c).Ordered rank Recursive H J := by
  refine ordered_hold h (by decide : (1 : ℕ) < 3) fun d => ⟨.inr fun m hm => ?_, trivial⟩
  rcases List.mem_cons.mp hm with rfl | hm
  · exact (by decide : (3 : ℕ) < 4)
  · exact Nat.lt_of_le_of_lt (h m hm) (by decide : (1 : ℕ) < 4)

theorem ordered_unsubscribeDashboardClient (h : Low H) (c : ℕ) :
    (unsubscribeDashboardClient c).Ordered rank Recursive H J :=
  ⟨ordered_unsubscribe h, ordered_hold h (by decide : (1 : ℕ) < 3) trivial, trivial⟩

end Ordered

section Threads

variable {J : Set GatewayThread} {p : Program}

/-- The mutex of the dashboard clients is locked where none is held. -/
theorem ordered_hold_dashboardClients
    (hp : p.Ordered rank Recursive [dashboardClients] J) :
    (hold dashboardClients p).Ordered rank Recursive [] J :=
  ⟨.inr fun _ hm => absurd hm List.not_mem_nil, hp⟩

theorem ordered_updateMachines : updateMachines.Ordered rank Recursive [] J := by
  have hnil : Low [] := low_nil
  have hremove : removeMachine.Ordered rank Recursive [] J :=
    ordered_hold_dashboardClients
      fun c => ordered_unsubscribeDashboardClient hnil.cons_dashboardClients c
  have hadd : addMachine.Ordered rank Recursive [] J :=
    ⟨fun c => ordered_unsubscribeDashboardClient hnil c, fun c => ordered_addDataSet hnil c,
      ordered_hold_dashboardClients trivial, trivial⟩
  have hfind : browseForMachines.Ordered rank Recursive [] J :=
    ⟨ordered_browse hnil, ordered_isSameOrSubtype hnil, ordered_browseWithResultTypeFilter hnil,
      ordered_translateBrowsePathToNodeId hnil, trivial⟩
  have honline : isOnline.Ordered rank Recursive [] J :=
    ⟨ordered_browse hnil, ordered_browseWithResultTypeFilter hnil,
      ordered_hold_client_service hnil, trivial⟩
  exact ⟨hfind, hremove, honline, hremove, hadd, ordered_hold hnil (by decide) trivial, trivial⟩

theorem ordered_iterate : iterate.Ordered rank Recursive [] J := by
  have hshared : Low [dashboardClients] := low_nil.cons_dashboardClients
  have hpublish : publishAll.Ordered rank Recursive [] J :=
    ⟨ordered_hold_dashboardClients fun c => ordered_publish hshared c,
      ordered_hold_dashboardClients (ordered_hold hshared (by decide) trivial), trivial⟩
  exact ⟨ordered_hold_client_service low_nil, hpublish, ordered_hold_client_service low_nil,
    trivial⟩

theorem ordered_program (t : GatewayThread) : (program t).Ordered rank Recursive [] J := by
  cases t with
  | connecting => exact ordered_connect low_nil
  | updating => exact ordered_updateMachines

theorem ordered_main : main.Ordered rank Recursive [] ∅ := by
  have hinner : (block [loop readTypes, beside .updating (loop iterate)] : Program).Ordered rank
      Recursive [] (insert .connecting ∅) :=
    ⟨ordered_browse low_nil, ⟨rfl, by simp, ordered_iterate⟩, trivial⟩
  exact ⟨ordered_hold_client low_nil trivial, ordered_connect low_nil,
    ⟨rfl, by simp, hinner⟩, ordered_destroyClient low_nil, trivial⟩

end Threads

/-- **The threads of the gateway never wait for each other.** In every interleaving, with any
number of machines, as long as a thread is not done some thread can go on. No thread locks a
mutex again that does not allow it, and none is joined with a mutex locked. -/
theorem never_deadlocked {s : LockPool GatewayMutex GatewayThread}
    (hs : LockPool.Reachable Recursive program main s) :
    ¬ s.Deadlocked Recursive ∧
      (∀ t m p k, s t = .run (hold m p) :: k → m ∈ LockFrame.held (s t) → Recursive m) ∧
      ∀ t u k, s t = .join u :: k → LockFrame.held (s t) = [] := by
  have hsorted : LockPool.Sorted rank Recursive s :=
    .of_reachable ordered_main ordered_program hs
  have hrank : ∀ m : GatewayMutex, rank m ≤ 5 := by
    intro m
    cases m <;> simp [rank]
  refine ⟨hsorted.not_deadlocked hrank, fun t m p k ht hm => ?_, fun t u k ht => hsorted.join ht⟩
  rcases hsorted.hold ht with ⟨-, hrec⟩ | hlt
  · exact hrec
  · exact absurd (hlt m hm) (Nat.lt_irrefl _)

/-- The main thread publishes, the client is being connected, and the machines are updated: the
updating thread waits for the main one. -/
theorem never_deadlocked_publishing :
    ∃ s : LockPool GatewayMutex GatewayThread, dashboardClients ∈ LockFrame.held (s none) ∧
      client ∈ LockFrame.held (s (some .connecting)) ∧
      s.Waiting Recursive (some .updating) ∧
      ¬ s.Deadlocked Recursive ∧
        (∀ t m p k, s t = .run (hold m p) :: k → m ∈ LockFrame.held (s t) → Recursive m) ∧
        ∀ t u k, s t = .join u :: k → LockFrame.held (s t) = [] := by
  have hmove {s : LockPool GatewayMutex GatewayThread} (t : Option GatewayThread)
      {k : List (LockFrame GatewayMutex GatewayThread)}
      (hs : LockPool.Reachable Recursive program main s) (h : LockFrame.Local (s t) k) :
      LockPool.Reachable Recursive program main (Function.update s t k) := .step hs (.move h)
  have hs : LockPool.Reachable Recursive program main (LockPool.start main) := .start
  -- the two threads are started
  have hs := hmove none (hmove none hs (.again _ _)) (.seq _ _ _)
  have hs := hmove none (hmove none hs (.leave _ _)) (.seq _ _ _)
  have hs := hmove none (hmove none hs (.leave _ _)) (.seq _ _ _)
  have hs := hs.step (.spawn (t := none) rfl rfl)
  have hs := hmove none (hmove none (hmove none hs (.seq _ _ _)) (.leave _ _)) (.seq _ _ _)
  have hs := hs.step (.spawn (t := none) rfl rfl)
  -- the main thread locks the table of the dashboard clients
  have hs := hmove none (hmove none (hmove none hs (.again _ _)) (.seq _ _ _)) (.leave _ _)
  have hs := hmove none (hmove none hs (.seq _ _ _)) (.seq _ _ _)
  have hs := hs.step (.lock (t := none) rfl ⟨by rintro (_ | _ | _) <;> simp, by simp⟩)
  -- the connecting thread locks the client
  have hs := hmove (some .connecting) (hmove (some .connecting) hs (.again _ _)) (.seq _ _ _)
  have hs := hs.step (.lock (t := some .connecting) rfl ⟨by rintro (_ | _ | _) <;> simp, by simp⟩)
  -- the updating thread is about to remove a machine
  have hs := hmove (some .updating) (hmove (some .updating) hs (.again _ _)) (.seq _ _ _)
  have hs := hmove (some .updating) (hmove (some .updating) hs (.leave _ _)) (.seq _ _ _)
  have hs := hmove (some .updating) hs (.again _ _)
  refine ⟨_, by simp, by simp, .lock rfl fun hfree => ?_, never_deadlocked hs⟩
  exact hfree.1 none (by simp) (by simp)

end GatewayLocks

end UmatiDashboard
