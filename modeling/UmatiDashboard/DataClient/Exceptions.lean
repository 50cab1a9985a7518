import UmatiDashboard.ModelOpcUa.ModelDefinition

/-!
# The exception hierarchy

The exceptions the gateway throws, with the text of their `what()`. The classes form a tree
under `std::exception`; a `catch` clause is a predicate on exceptions here.
-/

namespace UmatiDashboard

inductive Exception where
  /-- a plain `UmatiException` -/
  | umati (what : String)
  | opcUa (what : String)
  /-- an `OpcUaNonGoodStatusCodeException`, a subclass of `OpcUaException` -/
  | opcUaNonGoodStatusCode (status : UInt32) (what : String)
  | clientNotConnected (what : String)
  | machineInvalid (what : String)
  | machineOffline (what : String)
  | machineInvalidChild (what : String) (hasInvalidMandatoryChild : Bool)
  /-- any other `std::exception` -/
  | std (what : String)
  deriving DecidableEq, Inhabited

namespace Exception

def what : Exception → String
  | umati w => w
  | opcUa w => w
  | opcUaNonGoodStatusCode _ w => w
  | clientNotConnected w => w
  | machineInvalid w => w
  | machineOffline w => w
  | machineInvalidChild w _ => w
  | std w => w

/-- Caught by `catch (OpcUaException &)`. -/
def isOpcUaException : Exception → Bool
  | opcUa _ => true
  | opcUaNonGoodStatusCode _ _ => true
  | _ => false

/-- Caught by `catch (ClientNotConnected &)`. -/
def isClientNotConnected : Exception → Bool
  | clientNotConnected _ => true
  | _ => false

/-- Caught by `catch (MachineInvalidException &)`. -/
def isMachineInvalidException : Exception → Bool
  | machineInvalid _ => true
  | _ => false

/-- Caught by `catch (MachineOfflineException &)`. -/
def isMachineOfflineException : Exception → Bool
  | machineOffline _ => true
  | _ => false

/-- Caught by `catch (UmatiException &)`: everything the gateway defines itself. -/
def isUmatiException : Exception → Bool
  | std _ => false
  | _ => true

/-- What `throw ex` throws inside of `catch (std::exception &ex)`: the exception is copied at
its static type, so its class and its text are lost. -/
def sliced (_ex : Exception) : Exception := std "std::exception"

/-- The `OpcUaNonGoodStatusCodeException` of a status code. Its text has the digits of the code
and its name, which the OPC UA stack knows. -/
def ofStatus (statusName : UInt32 → String) (status : UInt32) : Exception :=
  let digits := Nat.toDigits 16 status.toNat
  opcUaNonGoodStatusCode status
    (String.ofList (List.replicate (8 - digits.length) '0' ++ digits) ++ ", " ++ statusName status)

end Exception

/-- `UA_StatusCode_isBad`: the severity bits of a status code. -/
def isBadStatus (code : UInt32) : Bool := decide (2 ≤ (code >>> 30).toNat)

end UmatiDashboard
