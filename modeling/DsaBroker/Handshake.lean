import DsaBroker.AbstractDSLinkActor
import DsaBroker.DsaToAkkaCoder
import DsaBroker.RemoteKeys
import DsaBroker.WireFormat
import Mathlib.Data.List.Lattice

/-!
# The handshake

`WebSocketController`: a link posts its public key, the broker answers with a temporary key and a
salt, and the link proves that it has the private key by hashing the salt with the secret that
both of them share.  The answer also says which message format the link has to use, and the
broker chooses the format again when the link connects.

What the broker draws at random is an argument: the temporary key pair and the salt.
-/

namespace DsaBroker

/-- What the controller uses from outside the repository. -/
structure Platform (Point : Type) where
  curve : Curve Point
  sha256 : List UInt8 → List UInt8
  /-- `getBytes` with the default charset of the machine. -/
  getBytes : Str → List UInt8
  /-- `JsValue.toString`. -/
  stringify : Json → Str

def IsAscii (s : Str) : Prop := ∀ c ∈ s, c < 128

instance (s : Str) : Decidable (IsAscii s) := List.decidableBAll (fun c => c < 128) s

/-- What the handshake relies on: the laws of the curve, and a default charset that is ASCII for
ASCII characters. -/
structure Platform.Lawful {Point : Type} (platform : Platform Point) : Prop where
  curve : platform.curve.Lawful
  getBytes_ascii : ∀ s, IsAscii s → platform.getBytes s = s.map UInt16.toUInt8

/-- `getBytes("UTF-8")`. -/
def getBytesUtf8 : Str → List UInt8
  | [] => []
  | c :: rest =>
      if isHighSurrogate c then
        match rest with
        | [] => [questionMark.toUInt8]
        | d :: more =>
            if isLowSurrogate d then
              (utf8Bytes (codePoint c d)).map UInt8.ofNat ++ getBytesUtf8 more
            else questionMark.toUInt8 :: getBytesUtf8 (d :: more)
      else if isLowSurrogate c then questionMark.toUInt8 :: getBytesUtf8 rest
      else (utf8Bytes c.toNat).map UInt8.ofNat ++ getBytesUtf8 rest

theorem getBytesUtf8_ascii {s : Str} (h : IsAscii s) : getBytesUtf8 s = s.map UInt16.toUInt8 := by
  induction s with
  | nil => rfl
  | cons c rest ih =>
    obtain ⟨hc, hrest⟩ := List.forall_mem_cons.mp h
    have hlt : c.toNat < 128 := UInt16.lt_iff_toNat_lt.mp hc
    have hhigh : isHighSurrogate c = false := by
      simp only [isHighSurrogate, Bool.and_eq_false_iff, decide_eq_false_iff_not,
        UInt16.le_iff_toNat_le, UInt16.reduceToNat]
      omega
    have hlow : isLowSurrogate c = false := by
      simp only [isLowSurrogate, Bool.and_eq_false_iff, decide_eq_false_iff_not,
        UInt16.le_iff_toNat_le, UInt16.reduceToNat]
      omega
    have hbyte : (utf8Bytes c.toNat).map UInt8.ofNat = [c.toUInt8] := by
      rw [utf8Bytes, if_pos hlt]
      rfl
    rw [getBytesUtf8.eq_def]
    simp only [hhigh, hlow, Bool.false_eq_true, if_false, hbyte, ih hrest, List.map_cons,
      List.singleton_append]

/-! ### Settings -/

def MSGJSON : Str := str "json"

def MSGPACK : Str := str "msgpack"

/-- `broker.server-config`. -/
structure ServerConfig where
  dsId : Str
  publicKey : Str
  wsUri : Str
  httpUri : Str
  tempKey : Str
  salt : Str
  version : Str
  updateInterval : Int
  format : List Str

structure BrokerSettings where
  brokerName : Str
  allowAllLinks : Bool
  config : ServerConfig

def BrokerSettings.serverConfiguration (settings : BrokerSettings) : JsFields Str Rat :=
  [(str "dsId", .string settings.config.dsId), (str "publicKey", .string settings.config.publicKey),
    (str "wsUri", .string settings.config.wsUri), (str "httpUri", .string settings.config.httpUri),
    (str "tempKey", .string settings.config.tempKey), (str "salt", .string settings.config.salt),
    (str "version", .string settings.config.version),
    (str "updateInterval", .number settings.config.updateInterval),
    (str "format", .array (settings.config.format.map .string))]

/-- `ServerConfiguration("format").as[List[String]]`. -/
def BrokerSettings.availableFormats (settings : BrokerSettings) : Option (List Str) :=
  (settings.serverConfiguration.get (str "format")).bind
    (JsonFormat.string : WireFormat Str).list.reads

/-! ### The request and the session -/

/-- DSA Client-Broker connection request. -/
structure ConnectionRequest where
  publicKey : Str
  isRequester : Bool
  isResponder : Bool
  linkData : Option Json
  version : Str
  formats : Option (List Str)
  enableWebSocketCompression : Bool

structure HandshakeRequest where
  queryString : Str → Option (List Str)
  remoteAddress : Str
  host : Str
  body : ConnectionRequest

/-- `request.queryString("dsId").head`; `none` when it throws. -/
def HandshakeRequest.getDsId (request : HandshakeRequest) : Option Str :=
  (request.queryString (str "dsId")).bind List.head?

def HandshakeRequest.getToken (request : HandshakeRequest) : Option Str :=
  (request.queryString (str "token")).bind List.head?

/-- A `ConnectionInfo` with the fields that the handshake fills in. -/
structure HandshakeInfo extends ConnectionInfo where
  linkData : Option Str
  version : Str
  clientFormats : List Str
  compression : Bool
  linkAddress : Str
  brokerAddress : Str
  format : Str
  tempKey : Str
  sharedSecret : List UInt8
  salt : Str
  tokenHash : Option Str

structure DSLinkSessionInfo where
  ci : HandshakeInfo
  sessionId : Str

/-- `intersect` of sequences, which counts how often an element occurs. -/
def intersect {α : Type} [DecidableEq α] (l₁ l₂ : List α) : List α := l₁.bagInter l₂

def chooseFormat (clientFormats serverFormats : List Str) : Str :=
  if (intersect clientFormats serverFormats).contains MSGPACK then MSGPACK else MSGJSON

section

variable {Point : Type} (platform : Platform Point) (settings : BrokerSettings)

/-- Constructs a connection info instance from the incoming request; `none` when it throws. -/
def buildConnectionInfo (tempKeys : LocalKeys platform.curve) (localSalt : Str)
    (request : HandshakeRequest) : Option HandshakeInfo := do
  let dsId ← request.getDsId
  let cr := request.body
  let availableFormats ← settings.availableFormats
  let selectedFormat := chooseFormat (cr.formats.getD [MSGJSON]) availableFormats
  let tempKey := tempKeys.encodedPublicKey
  let remoteKey ← RemoteKey.generate tempKeys cr.publicKey
  if 44 ≤ dsId.length then
    if valid : (cr.isRequester || cr.isResponder) = true then
      some
        { dsId := dsId
          linkName := dsId.take (dsId.length - 44)
          isRequester := cr.isRequester
          isResponder := cr.isResponder
          valid := valid
          linkData := cr.linkData.map platform.stringify
          version := cr.version
          clientFormats := cr.formats.getD []
          compression := cr.enableWebSocketCompression
          linkAddress := request.remoteAddress
          brokerAddress := request.host
          format := selectedFormat
          tempKey := tempKey
          sharedSecret := remoteKey.sharedSecret
          salt := localSalt
          tokenHash := request.getToken }
    else none
  else none

def linkPath (ci : HandshakeInfo) : Str := str "/downstream" ++ str "/" ++ ci.linkName

/-- The fields of the response that come from the keys and from the session. -/
def sessionFields (keys : LocalKeys platform.curve) (ci : HandshakeInfo) : JsFields Str Rat :=
  let dsId := settings.brokerName ++ str "-" ++ keys.encodedHashedPublicKey platform.sha256
  [(str "format", .string ci.format), (str "dsId", .string dsId),
    (str "publicKey", .string keys.encodedPublicKey), (str "tempKey", .string ci.tempKey),
    (str "salt", .string ci.salt), (str "path", .string (linkPath ci))]

/-- Builds a handshake response from the connection info structure. -/
def createHandshakeResponse (keys : LocalKeys platform.curve) (ci : HandshakeInfo) :
    JsFields Str Rat :=
  (settings.serverConfiguration.merge [(str "path", .string (linkPath ci))]).merge
    (sessionFields platform settings keys ci)

/-- What the broker sends back. -/
def handshakeResponse (keys : LocalKeys platform.curve) (ci : HandshakeInfo) : JsFields Str Rat :=
  settings.serverConfiguration.merge (createHandshakeResponse platform settings keys ci)

/-! ### The connecting side -/

/-- Builds the authorization hash to be sent to the remote broker. -/
def buildAuth (keys : LocalKeys platform.curve) (tempKey : Str) (salt : List UInt8) :
    Option Str := do
  let remoteKey ← RemoteKey.generate keys tempKey
  some (saltSharedSecret platform.sha256 salt remoteKey.sharedSecret)

/-- What goes into the URL of the WebSocket. -/
structure UplinkQuery where
  wsUri : Str
  auth : Str
  format : Str
deriving DecidableEq

/-- `(fields \ key).as[String]`. -/
def readText (fields : JsFields Str Rat) (key : Str) : Option Str :=
  (fields.get key).bind (JsonFormat.string : WireFormat Str).reads

/-- `uplinkHandshake` once the answer of the other broker is there. -/
def uplinkHandshake (keys : LocalKeys platform.curve) (serverConfig : JsFields Str Rat) :
    Option UplinkQuery := do
  let tempKey ← readText serverConfig (str "tempKey")
  let wsUri ← readText serverConfig (str "wsUri")
  let salt ← readText serverConfig (str "salt")
  let format ← readText serverConfig (str "format")
  let auth ← buildAuth platform keys tempKey (getBytesUtf8 salt)
  some ⟨wsUri, auth, format⟩

/-! ### The accepting side -/

def validateAuth (si : Option DSLinkSessionInfo) (clientAuth : Option Str) : Bool :=
  settings.allowAllLinks || (si.map DSLinkSessionInfo.ci).any fun ci =>
    clientAuth.getD [] =
      saltSharedSecret platform.sha256 (platform.getBytes ci.salt) ci.sharedSecret

inductive Transformer where
  | json | msgpack
deriving DecidableEq, Repr

def transformers (format : Str) : Option Transformer :=
  if format = MSGJSON then some .json else if format = MSGPACK then some .msgpack else none

def getTransformer (sessionInfo : Option DSLinkSessionInfo) : Option Transformer := do
  let format ← match sessionInfo with
    | none => some MSGJSON
    | some si => settings.availableFormats.map (chooseFormat si.ci.clientFormats)
  some ((transformers format).getD .json)

end

/-! ### Formats -/

theorem BrokerSettings.availableFormats_eq (settings : BrokerSettings) :
    settings.availableFormats = some settings.config.format := by
  have hget : settings.serverConfiguration.get (str "format") =
      some (.array (settings.config.format.map .string)) := rfl
  rw [availableFormats, hget, Option.bind_some]
  exact (JsonFormat.list_exactOn JsonFormat.string_exactOn settings.config.format).mpr
    fun _ _ => trivial

/-- A link that names no formats gets JSON, as it does when it names none that the broker has. -/
theorem chooseFormat_default (formats : Option (List Str)) (available : List Str) :
    chooseFormat (formats.getD [MSGJSON]) available = chooseFormat (formats.getD []) available := by
  cases formats with
  | some formats => rfl
  | none =>
    have hjson : ¬(intersect [MSGJSON] available).contains MSGPACK = true := by
      rw [List.contains_iff_mem]
      intro h
      exact absurd (List.mem_bagInter.mp h).1 (by decide)
    have hnil : ¬(intersect [] available).contains MSGPACK = true := by
      rw [List.contains_iff_mem]
      intro h
      exact absurd (List.mem_bagInter.mp h).1 List.not_mem_nil
    rw [Option.getD_none, Option.getD_none, chooseFormat, chooseFormat, if_neg hjson, if_neg hnil]

/-- There is a transformer for each format that can be chosen. -/
theorem transformers_chooseFormat (clientFormats serverFormats : List Str) :
    (transformers (chooseFormat clientFormats serverFormats)).isSome := by
  unfold chooseFormat
  split_ifs
  · decide
  · decide

/-! ### The session -/

section

variable {Point : Type} {platform : Platform Point} {settings : BrokerSettings}

/-- What a session has of the keys and of the request. -/
theorem buildConnectionInfo_cases {tempKeys : LocalKeys platform.curve} {localSalt : Str}
    {request : HandshakeRequest} {ci : HandshakeInfo}
    (h : buildConnectionInfo platform settings tempKeys localSalt request = some ci) :
    ∃ remoteKey, RemoteKey.generate tempKeys request.body.publicKey = some remoteKey ∧
      ci.sharedSecret = remoteKey.sharedSecret ∧ ci.tempKey = tempKeys.encodedPublicKey ∧
      ci.salt = localSalt ∧ ci.clientFormats = request.body.formats.getD [] ∧
      ci.format = chooseFormat (request.body.formats.getD [MSGJSON]) settings.config.format := by
  obtain ⟨dsId, -, h⟩ := Option.bind_eq_some_iff.mp h
  obtain ⟨available, havailable, h⟩ := Option.bind_eq_some_iff.mp h
  obtain ⟨remoteKey, hremote, h⟩ := Option.bind_eq_some_iff.mp h
  rw [settings.availableFormats_eq] at havailable
  split_ifs at h
  rw [← Option.some.inj h, Option.some.inj havailable]
  exact ⟨remoteKey, hremote, rfl, rfl, rfl, rfl, rfl⟩

/-- A session is built unless the request has no usable id or mode, or the product of the keys has
no coordinate. -/
theorem buildConnectionInfo_isSome_iff (hcurve : platform.curve.Lawful)
    (client tempKeys : LocalKeys platform.curve) (localSalt : Str) {request : HandshakeRequest}
    (hkey : request.body.publicKey = client.encodedPublicKey) :
    (buildConnectionInfo platform settings tempKeys localSalt request).isSome ↔
      (∃ dsId, request.getDsId = some dsId ∧ 44 ≤ dsId.length) ∧
      (request.body.isRequester || request.body.isResponder) = true ∧
      (platform.curve.xCoord (platform.curve.multiply tempKeys.d client.q)).isSome := by
  simp only [buildConnectionInfo, settings.availableFormats_eq, hkey,
    RemoteKey.generate_encodedPublicKey hcurve, Option.bind_eq_bind, Option.bind_some]
  rcases request.getDsId with _ | dsId
  · simp
  · rcases platform.curve.xCoord (platform.curve.multiply tempKeys.d client.q) with _ | bi
    · simp
    · by_cases hlength : 44 ≤ dsId.length
      · by_cases hmode : (request.body.isRequester || request.body.isResponder) = true
        · simp [hlength, hmode]
        · simp [hlength, hmode]
      · simp [hlength]

theorem JsFields.get_merge_of_right {a b : JsFields Str Rat} {k : Str} {v : Json}
    (h : b.get k = some v) : (a.merge b).get k = some v := by
  rw [get_merge, h, Option.some_or]

/-- The answer has the fields of the session in place of those of the configuration. -/
theorem uplinkHandshake_handshakeResponse (keys client : LocalKeys platform.curve)
    (ci : HandshakeInfo) :
    uplinkHandshake platform client (handshakeResponse platform settings keys ci) =
      (buildAuth platform client ci.tempKey (getBytesUtf8 ci.salt)).map fun auth =>
        ⟨settings.config.wsUri, auth, ci.format⟩ := by
  have hread : ∀ key text, (sessionFields platform settings keys ci).get key =
      some (.string text) → readText (handshakeResponse platform settings keys ci) key =
        some text := by
    intro key text h
    rw [readText, handshakeResponse, createHandshakeResponse,
      JsFields.get_merge_of_right (JsFields.get_merge_of_right h)]
    rfl
  have htempKey := hread (str "tempKey") ci.tempKey rfl
  have hsalt := hread (str "salt") ci.salt rfl
  have hformat := hread (str "format") ci.format rfl
  have hwsUri : readText (handshakeResponse platform settings keys ci) (str "wsUri") =
      some settings.config.wsUri := by
    rw [readText, handshakeResponse, createHandshakeResponse, JsFields.get_merge,
      JsFields.get_merge, JsFields.get_merge]
    rfl
  simp only [uplinkHandshake, htempKey, hsalt, hformat, hwsUri, Option.bind_eq_bind,
    Option.bind_some]
  rcases buildAuth platform client ci.tempKey (getBytesUtf8 ci.salt) with _ | auth
  · rfl
  · rfl

/-- The connecting side computes the hash that the accepting side compares with, and both sides
choose the same format. -/
theorem handshake_agrees (hplatform : platform.Lawful)
    (keys client tempKeys : LocalKeys platform.curve) {localSalt : Str}
    (hsalt : IsAscii localSalt) {request : HandshakeRequest}
    (hkey : request.body.publicKey = client.encodedPublicKey) {ci : HandshakeInfo}
    (hci : buildConnectionInfo platform settings tempKeys localSalt request = some ci)
    (sessionId : Str) :
    ∃ query : UplinkQuery,
      uplinkHandshake platform client (handshakeResponse platform settings keys ci) = some query ∧
      validateAuth platform settings (some ⟨ci, sessionId⟩) (some query.auth) = true ∧
      transformers query.format = getTransformer settings (some ⟨ci, sessionId⟩) := by
  obtain ⟨remoteKey, hremote, hsecret, htempKey, hcisalt, hformats, hformat⟩ :=
    buildConnectionInfo_cases hci
  have hclient : RemoteKey.generate client ci.tempKey = some remoteKey := by
    rw [htempKey, RemoteKey.generate_comm hplatform.curve, ← hkey, hremote]
  have hbytes : getBytesUtf8 ci.salt = platform.getBytes ci.salt := by
    rw [hcisalt, getBytesUtf8_ascii hsalt, hplatform.getBytes_ascii localSalt hsalt]
  have hauth : buildAuth platform client ci.tempKey (getBytesUtf8 ci.salt) =
      some (saltSharedSecret platform.sha256 (platform.getBytes ci.salt) ci.sharedSecret) := by
    rw [buildAuth, hclient, hbytes, hsecret]
    rfl
  refine ⟨⟨settings.config.wsUri, saltSharedSecret platform.sha256 (platform.getBytes ci.salt)
    ci.sharedSecret, ci.format⟩, ?_, ?_, ?_⟩
  · rw [uplinkHandshake_handshakeResponse, hauth, Option.map_some]
  · simp [validateAuth]
  · obtain ⟨transformer, htransformer⟩ := Option.isSome_iff_exists.mp
      (transformers_chooseFormat ci.clientFormats settings.config.format)
    simp only [getTransformer, settings.availableFormats_eq, hformat, chooseFormat_default,
      ← hformats, htransformer, Option.map_some, Option.bind_eq_bind, Option.bind_some,
      Option.getD_some]

end

/-! ### The curve of the broker, for the keys of one handshake

Points stand as multiples of the base point of SECP256R1; those with the numbers 2, 3 and 5 are
the public keys, the one with the number 6 is the common point of the first two. -/

/-- The 32 big-endian bytes of a number. -/
def bytes32 (n : Nat) : List UInt8 :=
  (List.range 32).reverse.map fun i => UInt8.ofNat (n / 256 ^ i)

def uncompressed (x y : Nat) : List UInt8 := 4 :: (bytes32 x ++ bytes32 y)

def encodedTwo : List UInt8 := uncompressed
  0x7cf27b188d034f7e8a52380304b51ac3c08969e277f21b35a60b48fc47669978
  0x7775510db8ed040293d9ac69f7430dbba7dade63ce982299e04b79d227873d1

def encodedThree : List UInt8 := uncompressed
  0x5ecbe4d1a6330a44c8f7ef951d4bf165e6c6b721efada985fb41661bc6e7fd6c
  0x8734640c4998ff7e374b06ce1a64a2ecd82ab036384fb83d9a79b127a27d5032

def encodedFive : List UInt8 := uncompressed
  0x51590b7a515140d2d784c85608668fdfef8c82fd1f5be52421554a0dc3d033ed
  0xe0c17da8904a727d8ae1bf36bf8a79260d012f00d4d80888d1d0bb44fda16da4

def multiplesOfBase : Curve Nat where
  generator := 1
  multiply := fun d q =>
    d * q % 115792089210356248762697446949407573529996955224135760342422259061068512044369
  encoded := fun q =>
    if q = 2 then encodedTwo else if q = 3 then encodedThree else if q = 5 then encodedFive
    else 5 :: List.replicate q 0
  decodePoint := fun bytes =>
    if bytes = encodedTwo then some 2 else if bytes = encodedThree then some 3
    else if bytes = encodedFive then some 5
    else if bytes.head? = some 5 then some (bytes.length - 1) else none
  xCoord := fun q =>
    if q = 6 then some 0xb01a172a76a4602c92d3242cb897dde3024c740debb215b4c6b0aae93c2291a9
    else some q

theorem multiplesOfBase_lawful : multiplesOfBase.Lawful where
  multiply_comm := by
    intro d e
    simp only [multiplesOfBase, Nat.mul_one, Nat.mul_mod_mod, Nat.mul_comm d e]
  decodePoint_encoded := by
    intro q
    have htag : ∀ x y, (5 : UInt8) :: List.replicate q 0 ≠ uncompressed x y := by
      intro x y h
      exact absurd (List.cons.inj h).1 (by decide)
    have htwo : (5 : UInt8) :: List.replicate q 0 ≠ encodedTwo := htag _ _
    have hthree : (5 : UInt8) :: List.replicate q 0 ≠ encodedThree := htag _ _
    have hfive : (5 : UInt8) :: List.replicate q 0 ≠ encodedFive := htag _ _
    by_cases h₂ : q = 2
    · subst h₂
      decide +kernel
    · by_cases h₃ : q = 3
      · subst h₃
        decide +kernel
      · by_cases h₅ : q = 5
        · subst h₅
          decide +kernel
        · simp only [multiplesOfBase, if_neg h₂, if_neg h₃, if_neg h₅]
          rw [if_neg htwo, if_neg hthree, if_neg hfive, if_pos List.head?_cons, List.length_cons,
            List.length_replicate, Nat.add_sub_cancel]

def meterSalt : Str := str "AAECAwQFBgcICQoL7f3a"

def meterPlatform : Platform Nat where
  curve := multiplesOfBase
  sha256 := fun bytes =>
    if bytes = meterSalt.map UInt16.toUInt8 ++ bytes32
        0xb01a172a76a4602c92d3242cb897dde3024c740debb215b4c6b0aae93c2291a9 then
      bytes32 0x590bb1ae2097ab1728c5a07f68b1241a9337d75d7dba1e13c159553d2ff1be72
    else if bytes = encodedFive then
      bytes32 0xbf6e3480d3f05753a3173bf500bf0fa34ee460c82d3067131dba040cf3918d9c
    else []
  getBytes := fun s => s.map UInt16.toUInt8
  stringify := fun _ => []

def meterKeys (d : Nat) : LocalKeys meterPlatform.curve := ⟨d, _, rfl⟩

def meterSettings : BrokerSettings where
  brokerName := str "broker"
  allowAllLinks := false
  config := ⟨[], [], str "/ws", str "/http", [], [], str "1.1.2", 200, [MSGJSON, MSGPACK]⟩

def meterRequest : HandshakeRequest where
  queryString := fun key =>
    if key = str "dsId" then some [str "meter-qfMA61lg6JEzr3NiARoeJvDi6i423EAqBK9sGSuJGow"]
    else none
  remoteAddress := str "10.0.0.7"
  host := str "broker:9000"
  body := ⟨(meterKeys 2).encodedPublicKey, true, false, none, str "1.1.2", some [MSGPACK], false⟩

theorem handshake_agrees_meter :
    ∃ ci, buildConnectionInfo meterPlatform meterSettings (meterKeys 3) meterSalt meterRequest =
        some ci ∧
      ∃ query : UplinkQuery,
        uplinkHandshake meterPlatform (meterKeys 2)
          (handshakeResponse meterPlatform meterSettings (meterKeys 5) ci) = some query ∧
        validateAuth meterPlatform meterSettings (some ⟨ci, str "session"⟩) (some query.auth) =
          true ∧
        transformers query.format = getTransformer meterSettings (some ⟨ci, str "session"⟩) := by
  have hplatform : meterPlatform.Lawful := ⟨multiplesOfBase_lawful, fun s _ => rfl⟩
  have hsalt : IsAscii meterSalt := by decide +kernel
  have hbuilt : (buildConnectionInfo meterPlatform meterSettings (meterKeys 3) meterSalt
      meterRequest).isSome := by
    rw [buildConnectionInfo_isSome_iff multiplesOfBase_lawful (meterKeys 2) (meterKeys 3) meterSalt
      rfl]
    exact ⟨⟨_, rfl, by decide +kernel⟩, rfl, by decide +kernel⟩
  obtain ⟨ci, hci⟩ := Option.isSome_iff_exists.mp hbuilt
  exact ⟨ci, hci, handshake_agrees hplatform (meterKeys 5) (meterKeys 2) (meterKeys 3) hsalt rfl hci
    (str "session")⟩

end DsaBroker
