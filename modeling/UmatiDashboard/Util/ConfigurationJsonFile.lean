import UmatiDashboard.Util.Configuration

/-!
# The configuration file

The configuration is read from a JSON file by macros of the JSON library that list the members of
each structure. Members of the MQTT and OPC UA settings have defaults, all others have to be there.
-/

namespace UmatiDashboard

open JsonDocument (at_ valueOr)

/-- What depends on the version of the library, and what it makes of a value that is no integer
where an integer is asked for. -/
structure JsonLibrary where
  nullIsEmpty : Bool
  toNumber : JsonDocument → Option Int

/-! ### Node ids and namespaces -/

/-- Texts are read as what they are. -/
theorem Codec.saysAt_string {nullIsEmpty : Bool} {key default_ a : String} {j : JsonDocument}
    (h : valueOr nullIsEmpty Codec.string.get key default_ j = .ok a) :
    Codec.string.SaysAt key j a ↔ True := by
  rw [Codec.saysAt_iff_of_valueOr h, iff_true]
  exact fun _ _ => trivial

/-- A member that has to be there, and is converted. -/
def Codec.RequiredAt {α : Type} (c : Codec α) (key : String) (j : JsonDocument) : Prop :=
  (∃ v, j.member key = some v) ∧ c.FitsAt key j

namespace NodeId

def fromJson (j : JsonDocument) : Except JsonError NodeId := do
  let uri ← at_ Codec.string.get "Uri" j
  let id ← at_ Codec.string.get "Id" j
  pure ⟨uri, id⟩

def toJson (n : NodeId) : JsonDocument := .object [("Id", .string n.id), ("Uri", .string n.uri)]

theorem fromJson_eq_ok_iff {j : JsonDocument} {n : NodeId} :
    fromJson j = .ok n ↔
      at_ Codec.string.get "Uri" j = .ok n.uri ∧ at_ Codec.string.get "Id" j = .ok n.id := by
  simp only [fromJson, bind_eq_ok_iff, pure, Except.pure, Except.ok.injEq]
  constructor
  · rintro ⟨uri, huri, id, hid, rfl⟩
    exact ⟨huri, hid⟩
  · rintro ⟨huri, hid⟩
    exact ⟨_, huri, _, hid, rfl⟩

/-- Both members have to be there. -/
def codec : Codec NodeId where
  get := fromJson
  put := toJson
  Fits j := Codec.string.RequiredAt "Uri" j ∧ Codec.string.RequiredAt "Id" j
  Says j n := Codec.string.SaysAt "Uri" j n.uri ∧ Codec.string.SaysAt "Id" j n.id
  Exact _ := True
  fits_iff {j} := by
    simp only [Codec.RequiredAt, ← Codec.exists_at_iff, fromJson_eq_ok_iff]
    constructor
    · rintro ⟨⟨uri, huri⟩, id, hid⟩
      exact ⟨⟨uri, id⟩, huri, hid⟩
    · rintro ⟨n, huri, hid⟩
      exact ⟨⟨_, huri⟩, _, hid⟩
  says_iff {j n} h := by
    obtain ⟨huri, hid⟩ := fromJson_eq_ok_iff.mp h
    rw [Codec.saysAt_iff_of_at huri, Codec.saysAt_iff_of_at hid]
    exact iff_of_true ⟨fun _ _ => trivial, fun _ _ => trivial⟩ trivial

theorem lossless_codec : codec.Lossless := fun _ => rfl

end NodeId

namespace NamedNamespaceInformation

def fromJson (j : JsonDocument) : Except JsonError NamedNamespaceInformation := do
  let namespaceUri ← at_ Codec.string.get "Namespace" j
  let types ← at_ NodeId.codec.list.get "Types" j
  let identificationType ← at_ NodeId.codec.get "IdentificationType" j
  pure { namespaceUri, types, identificationType }

def toJson (el : NamedNamespaceInformation) : JsonDocument :=
  .object [("IdentificationType", NodeId.codec.put el.identificationType),
    ("Namespace", .string el.namespaceUri), ("Types", NodeId.codec.list.put el.types)]

theorem fromJson_eq_ok_iff {j : JsonDocument} {el : NamedNamespaceInformation} :
    fromJson j = .ok el ↔ at_ Codec.string.get "Namespace" j = .ok el.namespaceUri ∧
      at_ NodeId.codec.list.get "Types" j = .ok el.types ∧
        at_ NodeId.codec.get "IdentificationType" j = .ok el.identificationType := by
  simp only [fromJson, bind_eq_ok_iff, pure, Except.pure, Except.ok.injEq]
  constructor
  · rintro ⟨namespaceUri, huri, types, htypes, identificationType, hid, rfl⟩
    exact ⟨huri, htypes, hid⟩
  · rintro ⟨huri, htypes, hid⟩
    exact ⟨_, huri, _, htypes, _, hid, rfl⟩

/-- A list of node ids is read as what it is. -/
theorem exact_nodeIds (j : JsonDocument) : NodeId.codec.list.Exact j :=
  fun _ _ _ _ => trivial

def codec : Codec NamedNamespaceInformation where
  get := fromJson
  put := toJson
  Fits j := Codec.string.RequiredAt "Namespace" j ∧ NodeId.codec.list.RequiredAt "Types" j ∧
    NodeId.codec.RequiredAt "IdentificationType" j
  Says j el := Codec.string.SaysAt "Namespace" j el.namespaceUri ∧
    NodeId.codec.list.SaysAt "Types" j el.types ∧
      NodeId.codec.SaysAt "IdentificationType" j el.identificationType
  Exact _ := True
  fits_iff {j} := by
    simp only [Codec.RequiredAt, ← Codec.exists_at_iff, fromJson_eq_ok_iff]
    constructor
    · rintro ⟨⟨namespaceUri, huri⟩, ⟨types, htypes⟩, identificationType, hid⟩
      exact ⟨{ namespaceUri, types, identificationType }, huri, htypes, hid⟩
    · rintro ⟨el, huri, htypes, hid⟩
      exact ⟨⟨_, huri⟩, ⟨_, htypes⟩, _, hid⟩
  says_iff {j el} h := by
    obtain ⟨huri, htypes, hid⟩ := fromJson_eq_ok_iff.mp h
    rw [Codec.saysAt_iff_of_at huri, Codec.saysAt_iff_of_at htypes, Codec.saysAt_iff_of_at hid]
    exact iff_of_true ⟨fun _ _ => trivial, fun v _ => exact_nodeIds v, fun _ _ => trivial⟩ trivial

theorem lossless_codec : codec.Lossless := by
  intro el
  refine fromJson_eq_ok_iff.mpr ⟨rfl, ?_, rfl⟩
  exact Codec.lossless_list NodeId.lossless_codec el.types

end NamedNamespaceInformation

variable (lib : JsonLibrary)

/-! ### The MQTT settings -/

namespace MqttConfig

/-- The members that the macro lists. The two for proxies are not among them. -/
def fromJson (j : JsonDocument) : Except JsonError MqttConfig := do
  let default_obj : MqttConfig := {}
  let hostname ← valueOr lib.nullIsEmpty Codec.string.get "Hostname" default_obj.hostname j
  let port ← valueOr lib.nullIsEmpty (Codec.unsigned lib.toNumber 16).get "Port" default_obj.port j
  let username ← valueOr lib.nullIsEmpty Codec.string.get "Username" default_obj.username j
  let password ← valueOr lib.nullIsEmpty Codec.string.get "Password" default_obj.password j
  let topicPrefix ← valueOr lib.nullIsEmpty Codec.string.get "Prefix" default_obj.topicPrefix j
  let clientId ← valueOr lib.nullIsEmpty Codec.string.get "ClientId" default_obj.clientId j
  let protocol ← valueOr lib.nullIsEmpty Codec.string.get "Protocol" default_obj.protocol j
  let caCertPath ← valueOr lib.nullIsEmpty Codec.string.get "CaCertPath" default_obj.caCertPath j
  let caTrustStorePath ←
    valueOr lib.nullIsEmpty Codec.string.get "CaTrustStorePath" default_obj.caTrustStorePath j
  pure { default_obj with
    hostname, port, username, password, topicPrefix, clientId, protocol, caCertPath,
    caTrustStorePath }

def toJson (c : MqttConfig) : JsonDocument :=
  .object [("CaCertPath", .string c.caCertPath), ("CaTrustStorePath", .string c.caTrustStorePath),
    ("ClientId", .string c.clientId), ("Hostname", .string c.hostname),
    ("Password", .string c.password), ("Port", .integer c.port.toNat),
    ("Prefix", .string c.topicPrefix), ("Protocol", .string c.protocol),
    ("Username", .string c.username)]

theorem fromJson_eq_ok_iff {j : JsonDocument} {c : MqttConfig} :
    fromJson lib j = .ok c ↔
      valueOr lib.nullIsEmpty Codec.string.get "Hostname" "" j = .ok c.hostname ∧
      valueOr lib.nullIsEmpty (Codec.unsigned lib.toNumber 16).get "Port" 0 j = .ok c.port ∧
      valueOr lib.nullIsEmpty Codec.string.get "Username" "" j = .ok c.username ∧
      valueOr lib.nullIsEmpty Codec.string.get "Password" "" j = .ok c.password ∧
      valueOr lib.nullIsEmpty Codec.string.get "Prefix" "umati/v2" j = .ok c.topicPrefix ∧
      valueOr lib.nullIsEmpty Codec.string.get "ClientId" "" j = .ok c.clientId ∧
      valueOr lib.nullIsEmpty Codec.string.get "Protocol" "tcp" j = .ok c.protocol ∧
      valueOr lib.nullIsEmpty Codec.string.get "CaCertPath" "/etc/ssl/certs/" j =
        .ok c.caCertPath ∧
      valueOr lib.nullIsEmpty Codec.string.get "CaTrustStorePath" "" j = .ok c.caTrustStorePath ∧
      c.httpProxy = "" ∧ c.httpsProxy = "" := by
  simp only [fromJson, bind_eq_ok_iff, pure, Except.pure, Except.ok.injEq]
  constructor
  · rintro ⟨a₁, h₁, a₂, h₂, a₃, h₃, a₄, h₄, a₅, h₅, a₆, h₆, a₇, h₇, a₈, h₈, a₉, h₉, rfl⟩
    exact ⟨h₁, h₂, h₃, h₄, h₅, h₆, h₇, h₈, h₉, rfl, rfl⟩
  · rintro ⟨h₁, h₂, h₃, h₄, h₅, h₆, h₇, h₈, h₉, hhttp, hhttps⟩
    refine ⟨_, h₁, _, h₂, _, h₃, _, h₄, _, h₅, _, h₆, _, h₇, _, h₈, _, h₉, ?_⟩
    cases c
    cases hhttp
    cases hhttps
    rfl

def codec : Codec MqttConfig where
  get := fromJson lib
  put := toJson
  Fits j := j.HasMembers lib.nullIsEmpty ∧ Codec.string.FitsAt "Hostname" j ∧
    (Codec.unsigned lib.toNumber 16).FitsAt "Port" j ∧ Codec.string.FitsAt "Username" j ∧
    Codec.string.FitsAt "Password" j ∧ Codec.string.FitsAt "Prefix" j ∧
    Codec.string.FitsAt "ClientId" j ∧ Codec.string.FitsAt "Protocol" j ∧
    Codec.string.FitsAt "CaCertPath" j ∧ Codec.string.FitsAt "CaTrustStorePath" j
  Says j c := Codec.string.SaysAt "Hostname" j c.hostname ∧
    (Codec.unsigned lib.toNumber 16).SaysAt "Port" j c.port ∧
    Codec.string.SaysAt "Username" j c.username ∧ Codec.string.SaysAt "Password" j c.password ∧
    Codec.string.SaysAt "Prefix" j c.topicPrefix ∧ Codec.string.SaysAt "ClientId" j c.clientId ∧
    Codec.string.SaysAt "Protocol" j c.protocol ∧
    Codec.string.SaysAt "CaCertPath" j c.caCertPath ∧
    Codec.string.SaysAt "CaTrustStorePath" j c.caTrustStorePath ∧
    Codec.string.SaysAt "HttpProxy" j c.httpProxy ∧ Codec.string.SaysAt "HttpsProxy" j c.httpsProxy
  Exact j := (Codec.unsigned lib.toNumber 16).ExactAt "Port" j ∧ j.EmptyAt "HttpProxy" ∧
    j.EmptyAt "HttpsProxy"
  fits_iff {j} := by
    constructor
    · rintro ⟨hj, h₁, h₂, h₃, h₄, h₅, h₆, h₇, h₈, h₉⟩
      obtain ⟨a₁, h₁⟩ := Codec.exists_valueOr_iff.mpr ⟨hj, h₁⟩
      obtain ⟨a₂, h₂⟩ := Codec.exists_valueOr_iff.mpr ⟨hj, h₂⟩
      obtain ⟨a₃, h₃⟩ := Codec.exists_valueOr_iff.mpr ⟨hj, h₃⟩
      obtain ⟨a₄, h₄⟩ := Codec.exists_valueOr_iff.mpr ⟨hj, h₄⟩
      obtain ⟨a₅, h₅⟩ := Codec.exists_valueOr_iff.mpr ⟨hj, h₅⟩
      obtain ⟨a₆, h₆⟩ := Codec.exists_valueOr_iff.mpr ⟨hj, h₆⟩
      obtain ⟨a₇, h₇⟩ := Codec.exists_valueOr_iff.mpr ⟨hj, h₇⟩
      obtain ⟨a₈, h₈⟩ := Codec.exists_valueOr_iff.mpr ⟨hj, h₈⟩
      obtain ⟨a₉, h₉⟩ := Codec.exists_valueOr_iff.mpr ⟨hj, h₉⟩
      exact ⟨⟨a₁, a₂, a₃, a₄, a₅, a₆, a₇, a₈, a₉, "", ""⟩, (fromJson_eq_ok_iff lib).mpr
        ⟨h₁, h₂, h₃, h₄, h₅, h₆, h₇, h₈, h₉, rfl, rfl⟩⟩
    · rintro ⟨c, hc⟩
      obtain ⟨h₁, h₂, h₃, h₄, h₅, h₆, h₇, h₈, h₉, -, -⟩ := (fromJson_eq_ok_iff lib).mp hc
      obtain ⟨hj, h₁⟩ := Codec.exists_valueOr_iff.mp ⟨_, h₁⟩
      exact ⟨hj, h₁, (Codec.exists_valueOr_iff.mp ⟨_, h₂⟩).2,
        (Codec.exists_valueOr_iff.mp ⟨_, h₃⟩).2, (Codec.exists_valueOr_iff.mp ⟨_, h₄⟩).2,
        (Codec.exists_valueOr_iff.mp ⟨_, h₅⟩).2, (Codec.exists_valueOr_iff.mp ⟨_, h₆⟩).2,
        (Codec.exists_valueOr_iff.mp ⟨_, h₇⟩).2, (Codec.exists_valueOr_iff.mp ⟨_, h₈⟩).2,
        (Codec.exists_valueOr_iff.mp ⟨_, h₉⟩).2⟩
  says_iff {j c} h := by
    obtain ⟨h₁, h₂, h₃, h₄, h₅, h₆, h₇, h₈, h₉, hhttp, hhttps⟩ := (fromJson_eq_ok_iff lib).mp h
    rw [Codec.saysAt_string h₁, Codec.saysAt_iff_of_valueOr h₂, Codec.saysAt_string h₃,
      Codec.saysAt_string h₄, Codec.saysAt_string h₅, Codec.saysAt_string h₆,
      Codec.saysAt_string h₇, Codec.saysAt_string h₈, Codec.saysAt_string h₉, hhttp, hhttps]
    simp only [true_and]
    rfl

end MqttConfig

/-! ### The OPC UA settings -/

namespace OpcUaConfig

def fromJson (j : JsonDocument) : Except JsonError OpcUaConfig := do
  let default_obj : OpcUaConfig := {}
  let endpoint ← valueOr lib.nullIsEmpty Codec.string.get "Endpoint" default_obj.endpoint j
  let username ← valueOr lib.nullIsEmpty Codec.string.get "Username" default_obj.username j
  let password ← valueOr lib.nullIsEmpty Codec.string.get "Password" default_obj.password j
  let security ←
    valueOr lib.nullIsEmpty (Codec.unsigned lib.toNumber 8).get "Security" default_obj.security j
  let byPassCertVerification ← valueOr lib.nullIsEmpty Codec.boolean.get "ByPassCertVerification"
    default_obj.byPassCertVerification j
  pure { endpoint, username, password, security, byPassCertVerification }

def toJson (c : OpcUaConfig) : JsonDocument :=
  .object [("ByPassCertVerification", .boolean c.byPassCertVerification),
    ("Endpoint", .string c.endpoint), ("Password", .string c.password),
    ("Security", .integer c.security.toNat), ("Username", .string c.username)]

theorem fromJson_eq_ok_iff {j : JsonDocument} {c : OpcUaConfig} :
    fromJson lib j = .ok c ↔
      valueOr lib.nullIsEmpty Codec.string.get "Endpoint" "" j = .ok c.endpoint ∧
      valueOr lib.nullIsEmpty Codec.string.get "Username" "" j = .ok c.username ∧
      valueOr lib.nullIsEmpty Codec.string.get "Password" "" j = .ok c.password ∧
      valueOr lib.nullIsEmpty (Codec.unsigned lib.toNumber 8).get "Security" 1 j =
        .ok c.security ∧
      valueOr lib.nullIsEmpty Codec.boolean.get "ByPassCertVerification" false j =
        .ok c.byPassCertVerification := by
  simp only [fromJson, bind_eq_ok_iff, pure, Except.pure, Except.ok.injEq]
  constructor
  · rintro ⟨a₁, h₁, a₂, h₂, a₃, h₃, a₄, h₄, a₅, h₅, rfl⟩
    exact ⟨h₁, h₂, h₃, h₄, h₅⟩
  · rintro ⟨h₁, h₂, h₃, h₄, h₅⟩
    exact ⟨_, h₁, _, h₂, _, h₃, _, h₄, _, h₅, rfl⟩

def codec : Codec OpcUaConfig where
  get := fromJson lib
  put := toJson
  Fits j := j.HasMembers lib.nullIsEmpty ∧ Codec.string.FitsAt "Endpoint" j ∧
    Codec.string.FitsAt "Username" j ∧ Codec.string.FitsAt "Password" j ∧
    (Codec.unsigned lib.toNumber 8).FitsAt "Security" j ∧
    Codec.boolean.FitsAt "ByPassCertVerification" j
  Says j c := Codec.string.SaysAt "Endpoint" j c.endpoint ∧
    Codec.string.SaysAt "Username" j c.username ∧ Codec.string.SaysAt "Password" j c.password ∧
    (Codec.unsigned lib.toNumber 8).SaysAt "Security" j c.security ∧
    Codec.boolean.SaysAt "ByPassCertVerification" j c.byPassCertVerification
  Exact j := (Codec.unsigned lib.toNumber 8).ExactAt "Security" j
  fits_iff {j} := by
    constructor
    · rintro ⟨hj, h₁, h₂, h₃, h₄, h₅⟩
      obtain ⟨a₁, h₁⟩ := Codec.exists_valueOr_iff.mpr ⟨hj, h₁⟩
      obtain ⟨a₂, h₂⟩ := Codec.exists_valueOr_iff.mpr ⟨hj, h₂⟩
      obtain ⟨a₃, h₃⟩ := Codec.exists_valueOr_iff.mpr ⟨hj, h₃⟩
      obtain ⟨a₄, h₄⟩ := Codec.exists_valueOr_iff.mpr ⟨hj, h₄⟩
      obtain ⟨a₅, h₅⟩ := Codec.exists_valueOr_iff.mpr ⟨hj, h₅⟩
      exact ⟨⟨a₁, a₂, a₃, a₄, a₅⟩, (fromJson_eq_ok_iff lib).mpr ⟨h₁, h₂, h₃, h₄, h₅⟩⟩
    · rintro ⟨c, hc⟩
      obtain ⟨h₁, h₂, h₃, h₄, h₅⟩ := (fromJson_eq_ok_iff lib).mp hc
      obtain ⟨hj, h₁⟩ := Codec.exists_valueOr_iff.mp ⟨_, h₁⟩
      exact ⟨hj, h₁, (Codec.exists_valueOr_iff.mp ⟨_, h₂⟩).2,
        (Codec.exists_valueOr_iff.mp ⟨_, h₃⟩).2, (Codec.exists_valueOr_iff.mp ⟨_, h₄⟩).2,
        (Codec.exists_valueOr_iff.mp ⟨_, h₅⟩).2⟩
  says_iff {j c} h := by
    obtain ⟨h₁, h₂, h₃, h₄, h₅⟩ := (fromJson_eq_ok_iff lib).mp h
    have hboolean : Codec.boolean.SaysAt "ByPassCertVerification" j c.byPassCertVerification :=
      (Codec.saysAt_iff_of_valueOr h₅).mpr fun _ _ => trivial
    rw [Codec.saysAt_string h₁, Codec.saysAt_string h₂, Codec.saysAt_string h₃,
      Codec.saysAt_iff_of_valueOr h₄, and_iff_left hboolean, true_and, true_and, true_and]

theorem lossless_codec : (codec lib).Lossless := by
  intro c
  refine (fromJson_eq_ok_iff lib).mpr ⟨rfl, rfl, rfl, ?_, rfl⟩
  exact Codec.lossless_unsigned lib.toNumber 8 c.security

end OpcUaConfig

namespace MqttConfig

/-- What is written is read again but for the proxies, which are not written. -/
theorem get_put_eq_ok_iff (c : MqttConfig) :
    (codec lib).get ((codec lib).put c) = .ok c ↔ c.httpProxy = "" ∧ c.httpsProxy = "" := by
  constructor
  · intro h
    obtain ⟨-, -, -, -, -, -, -, -, -, hhttp, hhttps⟩ := (fromJson_eq_ok_iff lib).mp h
    exact ⟨hhttp, hhttps⟩
  · rintro ⟨hhttp, hhttps⟩
    refine (fromJson_eq_ok_iff lib).mpr
      ⟨rfl, ?_, rfl, rfl, rfl, rfl, rfl, rfl, rfl, hhttp, hhttps⟩
    exact Codec.lossless_unsigned lib.toNumber 16 c.port

end MqttConfig

/-! ### The whole file -/

namespace Configuration

def fromJson (j : JsonDocument) : Except JsonError Configuration := do
  let opcUa ← at_ (OpcUaConfig.codec lib).get "OpcUa" j
  let objectTypeNamespaces ← at_ Codec.string.list.get "ObjectTypeNamespaces" j
  let namespaceInformations ←
    at_ NamedNamespaceInformation.codec.list.get "NamespaceInformations" j
  let mqtt ← at_ (MqttConfig.codec lib).get "Mqtt" j
  let machinesFilter ← at_ NodeId.codec.list.get "MachinesFilter" j
  pure { opcUa, objectTypeNamespaces, namespaceInformations, mqtt, machinesFilter }

def toJson (c : Configuration) : JsonDocument :=
  .object [("MachinesFilter", NodeId.codec.list.put c.machinesFilter),
    ("Mqtt", (MqttConfig.codec lib).put c.mqtt),
    ("NamespaceInformations", NamedNamespaceInformation.codec.list.put c.namespaceInformations),
    ("ObjectTypeNamespaces", Codec.string.list.put c.objectTypeNamespaces),
    ("OpcUa", (OpcUaConfig.codec lib).put c.opcUa)]

theorem fromJson_eq_ok_iff {j : JsonDocument} {c : Configuration} :
    fromJson lib j = .ok c ↔ at_ (OpcUaConfig.codec lib).get "OpcUa" j = .ok c.opcUa ∧
      at_ Codec.string.list.get "ObjectTypeNamespaces" j = .ok c.objectTypeNamespaces ∧
      at_ NamedNamespaceInformation.codec.list.get "NamespaceInformations" j =
        .ok c.namespaceInformations ∧
      at_ (MqttConfig.codec lib).get "Mqtt" j = .ok c.mqtt ∧
      at_ NodeId.codec.list.get "MachinesFilter" j = .ok c.machinesFilter := by
  simp only [fromJson, bind_eq_ok_iff, pure, Except.pure, Except.ok.injEq]
  constructor
  · rintro ⟨a₁, h₁, a₂, h₂, a₃, h₃, a₄, h₄, a₅, h₅, rfl⟩
    exact ⟨h₁, h₂, h₃, h₄, h₅⟩
  · rintro ⟨h₁, h₂, h₃, h₄, h₅⟩
    exact ⟨_, h₁, _, h₂, _, h₃, _, h₄, _, h₅, rfl⟩

def codec : Codec Configuration where
  get := fromJson lib
  put := toJson lib
  Fits j := (OpcUaConfig.codec lib).RequiredAt "OpcUa" j ∧
    Codec.string.list.RequiredAt "ObjectTypeNamespaces" j ∧
    NamedNamespaceInformation.codec.list.RequiredAt "NamespaceInformations" j ∧
    (MqttConfig.codec lib).RequiredAt "Mqtt" j ∧ NodeId.codec.list.RequiredAt "MachinesFilter" j
  Says j c := (OpcUaConfig.codec lib).SaysAt "OpcUa" j c.opcUa ∧
    Codec.string.list.SaysAt "ObjectTypeNamespaces" j c.objectTypeNamespaces ∧
    NamedNamespaceInformation.codec.list.SaysAt "NamespaceInformations" j c.namespaceInformations ∧
    (MqttConfig.codec lib).SaysAt "Mqtt" j c.mqtt ∧
    NodeId.codec.list.SaysAt "MachinesFilter" j c.machinesFilter
  Exact j := (OpcUaConfig.codec lib).ExactAt "OpcUa" j ∧ (MqttConfig.codec lib).ExactAt "Mqtt" j
  fits_iff {j} := by
    simp only [Codec.RequiredAt, ← Codec.exists_at_iff, fromJson_eq_ok_iff]
    constructor
    · rintro ⟨⟨a₁, h₁⟩, ⟨a₂, h₂⟩, ⟨a₃, h₃⟩, ⟨a₄, h₄⟩, a₅, h₅⟩
      exact ⟨⟨a₁, a₂, a₅, a₃, a₄⟩, h₁, h₂, h₃, h₄, h₅⟩
    · rintro ⟨c, h₁, h₂, h₃, h₄, h₅⟩
      exact ⟨⟨_, h₁⟩, ⟨_, h₂⟩, ⟨_, h₃⟩, ⟨_, h₄⟩, _, h₅⟩
  says_iff {j c} h := by
    obtain ⟨h₁, h₂, h₃, h₄, h₅⟩ := (fromJson_eq_ok_iff lib).mp h
    have hnamespaces : Codec.string.list.ExactAt "ObjectTypeNamespaces" j :=
      fun _ _ _ _ _ _ => trivial
    have hinformations : NamedNamespaceInformation.codec.list.ExactAt "NamespaceInformations" j :=
      fun _ _ _ _ _ _ => trivial
    have hfilter : NodeId.codec.list.ExactAt "MachinesFilter" j := fun _ _ _ _ _ _ => trivial
    rw [Codec.saysAt_iff_of_at h₁, Codec.saysAt_iff_of_at h₂, Codec.saysAt_iff_of_at h₃,
      Codec.saysAt_iff_of_at h₄, Codec.saysAt_iff_of_at h₅, and_iff_right hnamespaces,
      and_iff_right hinformations, and_iff_left hfilter]

/-- What is written is read again but for the proxies. -/
theorem get_put_eq_ok_iff (c : Configuration) :
    (codec lib).get ((codec lib).put c) = .ok c ↔
      c.mqtt.httpProxy = "" ∧ c.mqtt.httpsProxy = "" := by
  rw [← MqttConfig.get_put_eq_ok_iff lib]
  refine (fromJson_eq_ok_iff lib).trans ⟨fun h => h.2.2.2.1, fun h => ⟨?_, ?_, ?_, h, ?_⟩⟩
  · exact OpcUaConfig.lossless_codec lib c.opcUa
  · exact Codec.lossless_list Codec.lossless_string c.objectTypeNamespaces
  · exact Codec.lossless_list NamedNamespaceInformation.lossless_codec c.namespaceInformations
  · exact Codec.lossless_list NodeId.lossless_codec c.machinesFilter

end Configuration

/-- `ConfigurationJsonFile::ConfigurationJsonFile`. The content of the file, if there is a file, is
given as what the library's parser makes of it. Only a `parse_error` is caught. -/
def configurationJsonFile (filename : String) :
    Option (Except ParserError JsonDocument) → Except LoadError Configuration
  | none => .error (.configuration ("File '" ++ filename ++ "' not found."))
  | some (.error (.parseError what)) => .error (.configuration ("Json is not valid: '" ++ what))
  | some (.error .outOfRange) => .error (.json .outOfRange)
  | some (.ok j) =>
    match Configuration.fromJson lib j with
    | .error e => .error (.json e)
    | .ok c =>
      match c.verify with
      | .error e => .error e
      | .ok () => .ok c

end UmatiDashboard
