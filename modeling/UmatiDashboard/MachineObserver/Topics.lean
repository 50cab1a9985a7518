import UmatiDashboard.ModelOpcUa.StructureNode
import UmatiDashboard.Util.IdEncode

/-!
# Topics

The topics the gateway publishes on. `Topics` holds the two strings that are set once before
anything is published.
-/

namespace UmatiDashboard

structure Topics where
  topicPrefix : String
  clientId : String
  deriving DecidableEq

namespace Topics

variable (t : Topics)

/-- The topic of a machine, by the name of its type. -/
def machine (specification machineId : String) : String :=
  t.topicPrefix ++ "/" ++ t.clientId ++ "/" ++ specification ++ "/" ++ idEncode machineId

/-- The retained list of the machines of a type. -/
def list (specType : String) : String :=
  t.topicPrefix ++ "/" ++ t.clientId ++ "/list/" ++ specType

/-- The retained list of the machines that could not be added. -/
def errorList (specType : String) : String :=
  t.topicPrefix ++ "/" ++ t.clientId ++ "/bad_list/" ++ specType

def onlineStatus (machineId : String) : String :=
  t.topicPrefix ++ "/" ++ t.clientId ++ "/online/" ++ idEncode machineId

/-- Different types have different lists. -/
theorem list_injective : Function.Injective t.list := fun a b h => by
  have h' := congrArg String.toList h
  simp only [list, String.toList_append] at h'
  exact String.toList_inj.mp (List.append_cancel_left h')

theorem errorList_injective : Function.Injective t.errorList := fun a b h => by
  have h' := congrArg String.toList h
  simp only [errorList, String.toList_append] at h'
  exact String.toList_inj.mp (List.append_cancel_left h')

/-- No list of machines is a list of errors. -/
theorem list_ne_errorList (a b : String) : t.list a ≠ t.errorList b := fun h => by
  have h' := congrArg String.toList h
  simp only [list, errorList, String.toList_append, List.append_assoc] at h'
  have h'' := List.append_cancel_left (List.append_cancel_left (List.append_cancel_left h'))
  simp at h''

end Topics

end UmatiDashboard
