import UmatiDashboard.TypeReader.OpcUaTypeReader
import UmatiDashboard.Util.JsonReading

/-!
# The configuration

What the gateway is told at its start, and the check that it is enough.
-/

namespace UmatiDashboard

structure MqttConfig where
  hostname : String := ""
  port : BitVec 16 := 0
  username : String := ""
  password : String := ""
  /-- the member `Prefix` -/
  topicPrefix : String := "umati/v2"
  clientId : String := ""
  protocol : String := "tcp"
  caCertPath : String := "/etc/ssl/certs/"
  caTrustStorePath : String := ""
  httpProxy : String := ""
  httpsProxy : String := ""
  deriving DecidableEq

structure OpcUaConfig where
  endpoint : String := ""
  username : String := ""
  password : String := ""
  security : BitVec 8 := 1
  byPassCertVerification : Bool := false
  deriving DecidableEq

/-- A `NamespaceInformation` with its member `Namespace`, which the type reader does not look at. -/
structure NamedNamespaceInformation extends NamespaceInformation where
  namespaceUri : String

structure Configuration where
  opcUa : OpcUaConfig
  objectTypeNamespaces : List String
  machinesFilter : List NodeId
  namespaceInformations : List NamedNamespaceInformation
  mqtt : MqttConfig

/-- What leaves the constructor of a configuration when it fails: a `ConfigurationException`, or
an exception of the JSON library. -/
inductive LoadError where
  | configuration (what : String)
  | json (e : JsonError)
  deriving DecidableEq

namespace Configuration

variable (c : Configuration)

/-- `Configuration::Verify`. -/
def verify : Except LoadError Unit :=
  if c.mqtt.clientId = "" then .error (.configuration "MQTT ClientId is not specified.")
  else if c.mqtt.hostname = "" then .error (.configuration "MQTT Hostname is not specified.")
  else if c.mqtt.port = 0 then .error (.configuration "MQTT Port is not specified.")
  else if c.opcUa.endpoint = "" then .error (.configuration "OPC UA endpoint is not specified.")
  else .ok ()

/-- The configuration passes the check. -/
structure Verified : Prop where
  clientId : c.mqtt.clientId ≠ ""
  hostname : c.mqtt.hostname ≠ ""
  port : c.mqtt.port ≠ 0
  endpoint : c.opcUa.endpoint ≠ ""

variable {c}

theorem verify_of_verified (h : c.Verified) : c.verify = .ok () := by
  rw [verify, if_neg h.clientId, if_neg h.hostname, if_neg h.port, if_neg h.endpoint]

/-- A configuration that does not pass makes the check throw a `ConfigurationException`. -/
theorem verify_of_not_verified (h : ¬ c.Verified) :
    ∃ what, c.verify = .error (.configuration what) := by
  unfold verify
  split_ifs with hclientId hhostname hport hendpoint
  · exact ⟨_, rfl⟩
  · exact ⟨_, rfl⟩
  · exact ⟨_, rfl⟩
  · exact ⟨_, rfl⟩
  · exact absurd ⟨hclientId, hhostname, hport, hendpoint⟩ h

end Configuration

end UmatiDashboard
