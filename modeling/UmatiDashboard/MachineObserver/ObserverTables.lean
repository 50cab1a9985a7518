import UmatiDashboard.DashboardClient.DashboardClient
import UmatiDashboard.MachineObserver.Topics

/-!
# The state of the machine observer

The tables of `DashboardMachineObserver` and the computations on them. The observer shares the
data client and the type reader with the rest of the gateway; of the type reader it changes the
cache of subtypes only.

An observer also records, for the cycle in progress, what it does: each state its tables pass
through, the list of machines it has browsed, and the calls of `isOnline`, `addMachine` and
`removeMachine`. Nothing reads this record; it is what statements about the inside of a cycle
speak of.
-/

namespace UmatiDashboard

/-- What is kept about a machine that is online. -/
structure MachineInformation where
  startNodeId : NodeId
  namespaceURI : String
  specification : String
  machineName : String
  typeDefinition : NodeId
  parent : NodeId
  deriving DecidableEq

structure ObserverTables where
  knownMachines : NodeMap BrowseResult
  knownMachineToolsSet : NodeSet
  parentOfMachine : NodeMap NodeId
  machineIdentificationsCache : NodeMap Json
  /-- the machines to be skipped, each with a counter and the error -/
  invalidMachines : NodeMap (Int × String)
  dashboardClients : NodeMap DashboardClient
  onlineMachines : NodeMap MachineInformation
  machineNames : NodeMap String

/-- The tables of a new observer. -/
def ObserverTables.empty : ObserverTables := ⟨∅, ∅, ∅, ∅, ∅, ∅, ∅, ∅⟩

/-- One thing an observer does in a cycle. -/
inductive ObserverEvent where
  /-- the search for machines was successful, with this list after removing duplicates -/
  | browsed (machineList : List BrowseResult)
  /-- `isOnline` was asked about a machine, with this answer -/
  | checkedOnline (machineNodeId : NodeId) (online : Bool)
  /-- `removeMachine` was called -/
  | removing (machineNodeId : NodeId)
  /-- `addMachine` was called -/
  | adding (machineNodeId : NodeId)
  /-- the search is done with a machine, and enters it into the table of parents -/
  | entering (machineNodeId : NodeId)
  deriving DecidableEq

structure ObserverState (ω : Type) where
  /-- the state of the data client, with the calls made in this cycle -/
  world : Recorded ω
  /-- `m_subTypeDefinitionToKnownMachineTypeDefinition` of the type reader -/
  subTypes : NodeMap NodeId
  tables : ObserverTables
  /-- the states the tables have passed through in this cycle -/
  history : List ObserverTables
  events : List ObserverEvent

namespace ObserverState

variable {ω : Type} (s : ObserverState ω)

/-- The state with another state of the data client. -/
def withWorld (w : Recorded ω) : ObserverState ω := { s with world := w }

/-- The state with an empty record. -/
def forget : ObserverState ω := { s with world.calls := [], history := [], events := [] }

/-- Record an event. -/
def log (e : ObserverEvent) : ObserverState ω := { s with events := s.events ++ [e] }

/-- Replace the tables, and record that. -/
def put (t : ObserverTables) : ObserverState ω :=
  { s with tables := t, history := s.history ++ [t] }

/-- Every state the tables have passed through satisfies `P`. -/
def Traced (P : ObserverTables → Prop) (s : ObserverState ω) : Prop := ∀ t ∈ s.history, P t

variable {s}

@[simp] theorem tables_withWorld (w : Recorded ω) : (s.withWorld w).tables = s.tables := rfl

@[simp] theorem tables_forget : s.forget.tables = s.tables := rfl

@[simp] theorem events_forget : s.forget.events = [] := rfl

@[simp] theorem events_withWorld (w : Recorded ω) : (s.withWorld w).events = s.events := rfl

@[simp] theorem traced_withWorld {P : ObserverTables → Prop} (w : Recorded ω) :
    (s.withWorld w).Traced P ↔ s.Traced P := Iff.rfl

@[simp] theorem tables_log (e : ObserverEvent) : (s.log e).tables = s.tables := rfl

@[simp] theorem events_log (e : ObserverEvent) : (s.log e).events = s.events ++ [e] := rfl

@[simp] theorem traced_log {P : ObserverTables → Prop} (e : ObserverEvent) :
    (s.log e).Traced P ↔ s.Traced P := Iff.rfl

@[simp] theorem tables_put (t : ObserverTables) : (s.put t).tables = t := rfl

@[simp] theorem events_put (t : ObserverTables) : (s.put t).events = s.events := rfl

theorem traced_put {P : ObserverTables → Prop} {t : ObserverTables} :
    (s.put t).Traced P ↔ s.Traced P ∧ P t := by
  simp [Traced, put, or_imp, forall_and]

end ObserverState

/-- A computation of an observer. -/
abbrev ObserverM (ω : Type) : Type → Type := Prog Exception (ObserverState ω)

/-- The data client, the type reader and the settings of an observer. -/
structure Observer (ω : Type) where
  client : IDashboardDataClient ω
  reader : OpcUaTypeReader
  machinesFilter : NodeSet
  topics : Topics

namespace Observer

variable {ω α : Type}

/-- The state of an observer that has not run yet. -/
def start (o : Observer ω) (world : ω) : ObserverState ω :=
  ⟨⟨world, []⟩, o.reader.subTypeDefinitionToKnownMachineTypeDefinition, .empty, [], []⟩

/-- The tables as they are. -/
def tables : ObserverM ω ObserverTables := ObserverState.tables <$> .get

/-- Record an event. -/
def record (e : ObserverEvent) : ObserverM ω Unit :=
  .modify fun s => s.log e

/-- Change the tables. -/
def write (f : ObserverTables → ObserverTables) : ObserverM ω Unit :=
  .modify fun s => s.put (f s.tables)

/-- The data client, keeping a record. -/
def data (o : Observer ω) : IDashboardDataClient (Recorded ω) := o.client.recorded

/-- A call of the data client. -/
def ask (f : Recorded ω → Except Exception α × Recorded ω) : ObserverM ω α :=
  (Prog.call f).zoom ObserverState.world fun w s => s.withWorld w

/-- A call of the data client that does not throw. -/
def askQuietly (f : Recorded ω → α × Recorded ω) : ObserverM ω α := fun s =>
  (.ok (f s.world).1, s.withWorld (f s.world).2)

/-- A query of the type reader. -/
def liftExcept : Except Exception α → ObserverM ω α
  | .ok a => pure a
  | .error e => .throw e

/-- Run an operation of a dashboard client; returned is the client as the operation left it. -/
def onClient (c : DashboardClient) (p : DashboardClient.ClientM (Recorded ω) Unit) :
    ObserverM ω DashboardClient :=
  (p >>= fun _ => DashboardClient.Session.this <$> .get).zoom (fun s => ⟨s.world, c⟩)
    fun t s => s.withWorld t.world

/-! ### Rules for the operations -/

section Rules

variable {s : ObserverState ω}

@[simp] theorem ends_tables {Q : Outcome Exception ObserverTables → ObserverState ω → Prop} :
    (tables : ObserverM ω _).Ends s Q ↔ Q (.ok s.tables) s := Iff.rfl

@[simp] theorem ends_record {e : ObserverEvent}
    {Q : Outcome Exception Unit → ObserverState ω → Prop} :
    (record e).Ends s Q ↔ Q (.ok ()) (s.log e) := Iff.rfl

@[simp] theorem ends_write {f : ObserverTables → ObserverTables}
    {Q : Outcome Exception Unit → ObserverState ω → Prop} :
    (write f).Ends s Q ↔ Q (.ok ()) (s.put (f s.tables)) := Iff.rfl

variable {Q : Outcome Exception α → ObserverState ω → Prop}

theorem ends_ask {f : Recorded ω → Except Exception α × Recorded ω} :
    (ask f).Ends s Q ↔
      (∀ a w, f s.world = (.ok a, w) → Q (.ok a) (s.withWorld w)) ∧
        ∀ e w, f s.world = (.error e, w) → Q (.throw e) (s.withWorld w) := by
  rw [ask, Prog.ends_zoom, Prog.ends_call]

@[simp] theorem ends_askQuietly {f : Recorded ω → α × Recorded ω} :
    (askQuietly f).Ends s Q ↔ Q (.ok (f s.world).1) (s.withWorld (f s.world).2) := Iff.rfl

theorem ends_liftExcept {r : Except Exception α} :
    (liftExcept r).Ends s Q ↔
      (∀ a, r = .ok a → Q (.ok a) s) ∧ ∀ e, r = .error e → Q (.throw e) s := by
  cases r with
  | ok a => simp [liftExcept]
  | error e => simp [liftExcept]

end Rules

end Observer

end UmatiDashboard
