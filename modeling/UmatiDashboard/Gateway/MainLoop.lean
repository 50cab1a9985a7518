import Mathlib.Data.Int.Notation
import Mathlib.Data.Nat.Notation
import UmatiDashboard.DataClient.Exceptions
import UmatiDashboard.Effect.Transition

/-!
# The main loop

`main` builds a `DashboardOpcUaClient`, waits for its connection, reads the types, and iterates
it until a reset is requested or the program is stopped; after a reset it builds another one. A
reset may be requested by any thread of the client at any moment, and a signal may stop the
program at any moment. So the main thread is modelled in steps, one for each time it looks at one
of the two flags, and other steps may come in between.

What the main thread reads from elsewhere (the state of the connection, whether reading the types
or publishing throws, the time) is part of a step. A log records what the threads do. Nothing
reads it; it is what statements about runs speak of.
-/

namespace UmatiDashboard

/-- Where the main thread is. -/
inductive MainPoint where
  /-- at `while (running)` -/
  | outerLoop
  /-- at `if (reset)` -/
  | resetCheck
  /-- at `reset = false` -/
  | resetClear
  /-- before a `DashboardOpcUaClient` is constructed -/
  | construct
  /-- in the loop of `connect`, after `i` rounds -/
  | connecting (i : ℕ)
  /-- at the end of `connect` -/
  | connected
  | readTypes
  | startMachineObserver
  /-- at the first operand of `while (running && !reset)` -/
  | runningCheck
  /-- at its second operand -/
  | innerCheck
  | iterate
  /-- `main` has returned -/
  | returned (code : ℤ)
  /-- an exception has left `main` -/
  | terminated (e : Exception)
  deriving DecidableEq

namespace MainPoint

/-- There is a `DashboardOpcUaClient`, whose threads may request a reset. -/
def hasClient : MainPoint → Bool
  | connecting _ | connected | readTypes | startMachineObserver | runningCheck | innerCheck
  | iterate => true
  | _ => false

/-- The main thread is done. -/
def isFinal : MainPoint → Bool
  | returned _ | terminated _ => true
  | _ => false

end MainPoint

/-- Something the threads do. Times are in nanoseconds. -/
inductive GatewayEvent where
  | constructed
  | typesRead
  /-- an exception of `readTypes` was caught -/
  | typesFailed
  | observerStarted (now : ℤ)
  | iterating (now : ℤ)
  /-- every dashboard client has published -/
  | published (now : ℤ)
  /-- the lists of machines were published -/
  | listsPublished (now : ℤ)
  | verified (now : ℤ) (ok : Bool)
  | resetIssued
  | stopped
  deriving DecidableEq

/-- What a step of the main thread reads from elsewhere. -/
structure MainAnswers where
  isConnected : Bool
  readTypes : Except Exception Unit
  /-- the steady clock -/
  now : ℤ
  /-- the steady clock when it is read once more -/
  later : ℤ
  /-- how the publishing of the dashboard clients ends -/
  publish : Except Exception Unit
  /-- how the publishing of the lists of machines ends -/
  publishMachinesList : Except Exception Unit
  verifyConnection : Bool

structure Gateway where
  point : MainPoint
  running : Bool
  reset : Bool
  resetCounter : ℕ
  lastPublish : ℤ
  lastConnectionVerify : ℤ
  /-- the counter of the machine observer -/
  publishMachinesOnline : ℕ
  log : List GatewayEvent

/-- A step of the gateway. -/
inductive GatewayStep where
  /-- the signal handler -/
  | stop
  /-- a thread of the client requests a reset -/
  | issueReset
  /-- the main thread goes on -/
  | main (a : MainAnswers)

namespace Gateway

variable (s : Gateway)

/-- The gateway after its configuration was loaded. -/
def start : Gateway := ⟨.outerLoop, true, false, 0, 0, 0, 0, []⟩

def goto (point : MainPoint) : Gateway := { s with point := point }

def record (e : GatewayEvent) : Gateway := { s with log := s.log ++ [e] }

/-! ### The flags -/

/-- `stopHandler` -/
def stop : Gateway := { s with running := false }.record .stopped

/-- `issueReset` -/
def issueReset : Gateway := { s with reset := true }.record .resetIssued

/-! ### Iterating -/

/-- A span of time in milliseconds, cut off by `duration_cast`. -/
def milliseconds (span : ℤ) : ℤ := span.tdiv 1000000

/-- `PublishAll` of the machine observer. Every thirtieth call publishes the lists of machines. -/
def publishAll (a : MainAnswers) : Gateway :=
  match a.publish with
  | .error e => s.goto (.terminated e)
  | .ok () =>
    let s := { s with publishMachinesOnline := s.publishMachinesOnline + 1 }.record
      (.published a.now)
    if s.publishMachinesOnline ≥ 30 then
      match a.publishMachinesList with
      | .error e => s.goto (.terminated e)
      | .ok () => { s with publishMachinesOnline := 0 }.record (.listsPublished a.now)
    else s

/-- A connection that cannot be verified is a reason to reset. -/
def verifyConnection (a : MainAnswers) : Gateway :=
  let s := s.record (.verified a.now a.verifyConnection)
  if a.verifyConnection then s else s.issueReset

/-- The part of `Iterate` that publishes. -/
def publishIfDue (a : MainAnswers) : Gateway :=
  if milliseconds (a.now - s.lastPublish) > 900 then
    { s with lastPublish := a.now }.publishAll a
  else s

/-- The part of `Iterate` that verifies the connection. -/
def verifyIfDue (a : MainAnswers) : Gateway :=
  if milliseconds (a.now - s.lastConnectionVerify) > 30000 then
    { s with lastConnectionVerify := a.now }.verifyConnection a
  else s

/-- `Iterate`, after the stack was given time. -/
def iterate (a : MainAnswers) : Gateway :=
  let s := ((s.record (.iterating a.now)).goto .runningCheck).publishIfDue a
  if s.point.isFinal then s else s.verifyIfDue a

/-! ### The main thread -/

/-- The exceptions after which the types are read once more. -/
def isRetried : Exception → Bool
  | .clientNotConnected _ => true
  | .opcUaNonGoodStatusCode _ _ => true
  | _ => false

/-- The next step of the main thread. -/
def mainStep (a : MainAnswers) : Gateway :=
  match s.point with
  | .outerLoop => s.goto (if s.running then .resetCheck else .returned 0)
  | .resetCheck =>
    if s.reset then { s with resetCounter := s.resetCounter + 1 }.goto .resetClear
    else s.goto .construct
  | .resetClear => { s with reset := false }.goto .construct
  | .construct => (s.record .constructed).goto (.connecting 0)
  | .connecting i =>
    s.goto (if s.running && !a.isConnected && decide (i < 60) then .connecting (i + 1)
      else .connected)
  | .connected => s.goto (if a.isConnected then .readTypes else .returned (-1))
  | .readTypes =>
    match a.readTypes with
    | .ok () => (s.record .typesRead).goto .startMachineObserver
    | .error e => if isRetried e then s.record .typesFailed else s.goto (.terminated e)
  | .startMachineObserver =>
    { s.record (.observerStarted a.now) with
      lastPublish := a.now
      lastConnectionVerify := a.later
      publishMachinesOnline := 0 }.goto .runningCheck
  | .runningCheck => s.goto (if s.running then .innerCheck else .outerLoop)
  | .innerCheck => s.goto (if s.reset then .outerLoop else .iterate)
  | .iterate => s.iterate a
  | .returned _ | .terminated _ => s

/-- A step of any of the threads. -/
def step (s : Gateway) : GatewayStep → Gateway
  | .stop => s.stop
  | .issueReset => if s.point.hasClient then s.issueReset else s
  | .main a => s.mainStep a

/-- The gateway after some steps. -/
def after (s : Gateway) (ks : List GatewayStep) : Gateway := Transition.run step s ks

end Gateway

end UmatiDashboard
