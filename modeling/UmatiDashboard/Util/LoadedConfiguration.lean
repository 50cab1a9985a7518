import UmatiDashboard.Util.ConfigurationJsonFile

/-!
# Which files are loaded faithfully

Loading a file should end in a `ConfigurationException` or in a configuration that passes the check
and has every setting as the document has it. That goes wrong in three ways. Only the library's
`parse_error` is translated, so a member that is missing or of another type makes an exception of
the library escape. The list of MQTT members lacks the two proxies, which are dropped. And numbers
are cut off at the width of their type. `configurationJsonFile_faithful_iff` says that there is no
further way, and when a configuration survives being written and read again.
-/

namespace UmatiDashboard

open JsonDocument (valueOr)

variable (lib : JsonLibrary) (filename : String)

/-- A `ConfigurationException`, or a configuration that passes the check and is what the document
says. -/
def LoadsFaithfully (content : Option (Except ParserError JsonDocument)) :
    Except LoadError Configuration → Prop
  | .ok c => c.Verified ∧ ∃ j, content = some (.ok j) ∧ (Configuration.codec lib).Says j c
  | .error (.configuration _) => True
  | .error (.json _) => False

/-- The MQTT settings lack what they must have: the text of a member is missing or empty, or the
lower sixteen bits of the port are zero. -/
def MqttConfig.Incomplete (j : JsonDocument) : Prop :=
  j.EmptyAt "ClientId" ∨ j.EmptyAt "Hostname" ∨
    ∀ v ∈ j.member "Port", ∀ n ∈ Codec.number lib.toNumber v, BitVec.ofInt 16 n = 0

/-- The check fails for the document. -/
def Configuration.Incomplete (j : JsonDocument) : Prop :=
  (∃ mqtt ∈ j.member "Mqtt", MqttConfig.Incomplete lib mqtt) ∨
    ∃ opcUa ∈ j.member "OpcUa", opcUa.EmptyAt "Endpoint"

/-- The contents that are loaded faithfully. -/
def Loadable : Option (Except ParserError JsonDocument) → Prop
  | none => True
  | some (.error e) => ∃ what, e = .parseError what
  | some (.ok j) => (Configuration.codec lib).Fits j ∧
      (Configuration.Incomplete lib j ∨ (Configuration.codec lib).Exact j)

/-! ### The check of a document -/

variable {lib} {j : JsonDocument}

theorem emptyAt_iff_of_valueOr {nullIsEmpty : Bool} {key a : String}
    (h : valueOr nullIsEmpty Codec.string.get key "" j = .ok a) : a = "" ↔ j.EmptyAt key := by
  obtain ⟨-, ⟨hnone, rfl⟩ | ⟨v, hv, hget⟩⟩ := JsonDocument.valueOr_eq_ok_iff.mp h
  · simp [JsonDocument.EmptyAt, hnone]
  · have hsays : v = .string a := (Codec.string.says_iff hget).mpr trivial
    simp [JsonDocument.EmptyAt, hv, hsays]

theorem port_eq_zero_iff {port : BitVec 16}
    (h : valueOr lib.nullIsEmpty (Codec.unsigned lib.toNumber 16).get "Port" 0 j = .ok port) :
    port = 0 ↔ ∀ v ∈ j.member "Port", ∀ n ∈ Codec.number lib.toNumber v, BitVec.ofInt 16 n = 0 := by
  obtain ⟨-, ⟨hnone, rfl⟩ | ⟨v, hv, hget⟩⟩ := JsonDocument.valueOr_eq_ok_iff.mp h
  · simp [hnone]
  · cases hn : Codec.number lib.toNumber v with
    | none => simp [Codec.unsigned, hn] at hget
    | some n =>
      have hport : BitVec.ofInt 16 n = port := by simpa [Codec.unsigned, hn] using hget
      simp only [hv, Option.mem_some_iff, forall_eq', hn, hport]

theorem MqttConfig.incomplete_iff {c : MqttConfig} (h : (MqttConfig.codec lib).get j = .ok c) :
    MqttConfig.Incomplete lib j ↔ c.clientId = "" ∨ c.hostname = "" ∨ c.port = 0 := by
  obtain ⟨hhostname, hport, -, -, -, hclientId, -⟩ := (MqttConfig.fromJson_eq_ok_iff lib).mp h
  rw [MqttConfig.Incomplete, emptyAt_iff_of_valueOr hclientId, emptyAt_iff_of_valueOr hhostname,
    port_eq_zero_iff hport]

theorem Configuration.incomplete_iff {c : Configuration}
    (h : (Configuration.codec lib).get j = .ok c) :
    Configuration.Incomplete lib j ↔ ¬ c.Verified := by
  obtain ⟨hopcUa, -, -, hmqtt, -⟩ := (Configuration.fromJson_eq_ok_iff lib).mp h
  obtain ⟨opcUa, hmember, hget⟩ := JsonDocument.at_eq_ok_iff.mp hopcUa
  obtain ⟨mqtt, hmember', hget'⟩ := JsonDocument.at_eq_ok_iff.mp hmqtt
  obtain ⟨hendpoint, -⟩ := (OpcUaConfig.fromJson_eq_ok_iff lib).mp hget
  have hverified : c.Verified ↔ c.mqtt.clientId ≠ "" ∧ c.mqtt.hostname ≠ "" ∧ c.mqtt.port ≠ 0 ∧
      c.opcUa.endpoint ≠ "" :=
    ⟨fun h => ⟨h.clientId, h.hostname, h.port, h.endpoint⟩,
      fun h => ⟨h.1, h.2.1, h.2.2.1, h.2.2.2⟩⟩
  simp only [Configuration.Incomplete, hmember, hmember', Option.mem_some_iff, exists_eq_left',
    MqttConfig.incomplete_iff hget', ← emptyAt_iff_of_valueOr hendpoint, hverified]
  tauto

/-! ### The constructor -/

variable (lib)

theorem configurationJsonFile_of_verified {c : Configuration}
    (h : (Configuration.codec lib).get j = .ok c) (hverified : c.Verified) :
    configurationJsonFile lib filename (some (.ok j)) = .ok c := by
  have hjson : Configuration.fromJson lib j = .ok c := h
  simp only [configurationJsonFile, hjson, Configuration.verify_of_verified hverified]

/-- A document that is read is loaded faithfully if it is incomplete, or if it is read as what it
is. -/
theorem loadsFaithfully_document_iff :
    LoadsFaithfully lib (some (.ok j)) (configurationJsonFile lib filename (some (.ok j))) ↔
      Loadable lib (some (.ok j)) := by
  cases hget : (Configuration.codec lib).get j with
  | error e =>
    have hjson : Configuration.fromJson lib j = .error e := hget
    have hfits : ¬ (Configuration.codec lib).Fits j := by
      rw [Codec.fits_iff, hget]
      rintro ⟨c, hc⟩
      cases hc
    simp only [configurationJsonFile, hjson]
    exact iff_of_false id fun h => hfits h.1
  | ok c =>
    have hfits : (Configuration.codec lib).Fits j := Codec.fits_iff _ |>.mpr ⟨c, hget⟩
    by_cases hverified : c.Verified
    · have hcomplete : ¬ Configuration.Incomplete lib j := by
        rw [Configuration.incomplete_iff hget]
        exact not_not_intro hverified
      rw [configurationJsonFile_of_verified lib filename hget hverified, Loadable,
        and_iff_right hfits, or_iff_right hcomplete, ← Codec.says_iff _ hget]
      constructor
      · rintro ⟨-, j', hj', hsays⟩
        cases hj'
        exact hsays
      · intro hsays
        exact ⟨hverified, j, rfl, hsays⟩
    · obtain ⟨what, hwhat⟩ := Configuration.verify_of_not_verified hverified
      have hjson : Configuration.fromJson lib j = .ok c := hget
      simp only [configurationJsonFile, hjson, hwhat]
      exact iff_of_true trivial ⟨hfits, .inl ((Configuration.incomplete_iff hget).mpr hverified)⟩

theorem loadsFaithfully_iff (content : Option (Except ParserError JsonDocument)) :
    LoadsFaithfully lib content (configurationJsonFile lib filename content) ↔
      Loadable lib content := by
  cases content with
  | none => exact iff_of_true trivial trivial
  | some parsed =>
    cases parsed with
    | ok j => exact loadsFaithfully_document_iff lib filename
    | error e =>
      cases e with
      | parseError what => exact iff_of_true trivial ⟨what, rfl⟩
      | outOfRange => exact iff_of_false id fun ⟨_, h⟩ => by cases h

theorem configurationJsonFile_eq_ok_iff {c : Configuration} :
    configurationJsonFile lib filename (some (.ok j)) = .ok c ↔
      (Configuration.codec lib).get j = .ok c ∧ c.Verified := by
  constructor
  · intro h
    cases hget : (Configuration.codec lib).get j with
    | error e =>
      have hjson : Configuration.fromJson lib j = .error e := hget
      simp [configurationJsonFile, hjson] at h
    | ok c' =>
      have hjson : Configuration.fromJson lib j = .ok c' := hget
      by_cases hverified : c'.Verified
      · rw [configurationJsonFile_of_verified lib filename hget hverified] at h
        cases h
        exact ⟨rfl, hverified⟩
      · obtain ⟨what, hwhat⟩ := Configuration.verify_of_not_verified hverified
        simp [configurationJsonFile, hjson, hwhat] at h
  · rintro ⟨hget, hverified⟩
    exact configurationJsonFile_of_verified lib filename hget hverified

/-- What is written of a configuration is read again if the check passes and no proxy is set. -/
theorem configurationJsonFile_put_eq_ok_iff (c : Configuration) :
    configurationJsonFile lib filename (some (.ok ((Configuration.codec lib).put c))) = .ok c ↔
      c.Verified ∧ c.mqtt.httpProxy = "" ∧ c.mqtt.httpsProxy = "" := by
  rw [configurationJsonFile_eq_ok_iff, Configuration.get_put_eq_ok_iff, and_comm]

/-- **When a configuration is loaded faithfully.** Loading the content of a file ends in a
`ConfigurationException` or in a verified configuration that is what the document says if and only
if there is no file, or the parser throws a `parse_error`, or all members are there and of the right
types and moreover the document is incomplete, or its proxies are empty and its numbers fit their
types. And a configuration is given back by reading what is written of it if and only if it is
verified and has no proxies. -/
theorem configurationJsonFile_faithful_iff :
    (∀ content, LoadsFaithfully lib content (configurationJsonFile lib filename content) ↔
        Loadable lib content) ∧
      ∀ c : Configuration,
        configurationJsonFile lib filename (some (.ok ((Configuration.codec lib).put c))) = .ok c ↔
          c.Verified ∧ c.mqtt.httpProxy = "" ∧ c.mqtt.httpsProxy = "" :=
  ⟨loadsFaithfully_iff lib filename, configurationJsonFile_put_eq_ok_iff lib filename⟩

/-- A library that throws for every value of another type. -/
def strictLibrary : JsonLibrary := ⟨false, fun _ => none⟩

/-- A document with everything that is needed and a proxy. -/
def proxyDocument : JsonDocument :=
  .object [("MachinesFilter", .array []),
    ("Mqtt", .object [("ClientId", .string "test/test"), ("Hostname", .string "localhost"),
      ("HttpProxy", .string "http://proxy:3128"), ("Port", .integer 1883)]),
    ("NamespaceInformations", .array []), ("ObjectTypeNamespaces", .array []),
    ("OpcUa", .object [("Endpoint", .string "opc.tcp://localhost:4840")])]

/-- The proxy is dropped; and for an empty object an exception of the library escapes. -/
theorem not_loadsFaithfully :
    (∃ c, configurationJsonFile strictLibrary "Configuration.json" (some (.ok proxyDocument)) =
        .ok c ∧ c.mqtt.httpProxy = "" ∧
      ¬ LoadsFaithfully strictLibrary (some (.ok proxyDocument)) (.ok c)) ∧
    configurationJsonFile strictLibrary "Configuration.json" (some (.ok (.object []))) =
        .error (.json .outOfRange) ∧
      ¬ LoadsFaithfully strictLibrary (some (.ok (.object []))) (.error (.json .outOfRange)) := by
  refine ⟨⟨⟨{ endpoint := "opc.tcp://localhost:4840" }, [], [], [],
    { hostname := "localhost", port := 1883, clientId := "test/test" }⟩, rfl, rfl, ?_⟩, rfl, id⟩
  rintro ⟨-, j, hj, hsays⟩
  cases hj
  have hmqtt := hsays.2.2.2.1 _ rfl
  have hproxy : JsonDocument.string "http://proxy:3128" = .string "" :=
    hmqtt.2.2.2.2.2.2.2.2.2.1 _ rfl
  exact absurd (JsonDocument.string.inj hproxy) (by decide)

end UmatiDashboard
