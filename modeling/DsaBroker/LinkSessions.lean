import DsaBroker.WebSocketController

/-!
# Which links are connected

A run of the controller is given by its inputs.  The session that a connection gets is that of the
last handshake for the id, and the link must have its secret and name a token node
(`connects_iff`).  So whoever shakes hands for an id takes it over, and the others no longer get in.

A link that keeps to the protocol is connected, whatever others do, as long as nobody shakes hands
for its id and the token node stays (`link_connects`).
-/

namespace DsaBroker

namespace WebSocketController

section

variable {Point : Type} (setup : ControllerSetup Point)

/-- The session that an input opens. -/
def opened : ControllerInput setup.platform.curve → Option DSLinkSessionInfo
  | .handshake request tempKeys salt number => dslinkHandshake setup request tempKeys salt number
  | _ => none

/-- The input opens a session for the id, or drops it. -/
def Concerns (dsId : Str) : ControllerInput setup.platform.curve → Prop
  | .handshake request tempKeys salt number =>
      ∃ session, dslinkHandshake setup request tempKeys salt number = some session ∧
        session.ci.dsId = dsId
  | .evicted id => id = dsId
  | _ => False

/-- No limit is set by hand. -/
def LimitFree : ControllerInput setup.platform.curve → Prop
  | .token (.setConfig _ name _) => TokenGroup.configName name ∉ limitNames
  | _ => True

/-- The session for the id after these inputs: the one that the last of the inputs that concern the
id has opened. -/
def LastSession (inputs : List (ControllerInput setup.platform.curve)) (dsId : Str)
    (session : DSLinkSessionInfo) : Prop :=
  ∃ input, IsLast (Concerns setup dsId) inputs input ∧ opened setup input = some session

variable {setup} {s s' : WebSocketController}

/-! ### The cache -/

theorem cache_of_step [ScanOrder Str] {input : ControllerInput setup.platform.curve}
    (hstep : s.step setup input = some s') (dsId : Str) :
    (Concerns setup dsId input → s'.cache.get dsId = opened setup input) ∧
      (¬ Concerns setup dsId input → s'.cache.get dsId = s.cache.get dsId) := by
  rcases input with ⟨request, tempKeys, salt, number⟩ | id | ⟨request, clock⟩ | input
  · rw [← Option.some.inj hstep, opened]
    rcases hopened : dslinkHandshake setup request tempKeys salt number with _ | session
    · refine ⟨?_, fun _ => rfl⟩
      rintro ⟨session, hsession, -⟩
      rw [hopened] at hsession
      exact absurd hsession.symm (Option.some_ne_none _)
    · constructor
      · rintro ⟨other, hother, hid⟩
        obtain rfl := Option.some.inj (hopened.symm.trans hother)
        rw [ScanMap.get_put, if_pos hid.symm]
      · intro hnot
        rw [ScanMap.get_put, if_neg]
        exact fun hid => hnot ⟨session, hopened, hid.symm⟩
  · rw [← Option.some.inj hstep]
    constructor
    · rintro rfl
      exact ScanMap.get_remove_self _ _
    · intro hnot
      rw [ScanMap.get_remove, if_neg (Ne.symm hnot)]
  · obtain ⟨tokens, -, rfl⟩ := Option.map_eq_some_iff.mp hstep
    exact ⟨False.elim, fun _ => rfl⟩
  · obtain ⟨tokens, -, rfl⟩ := Option.map_eq_some_iff.mp hstep
    exact ⟨False.elim, fun _ => rfl⟩

/-- The cache has the session of the last handshake. -/
theorem cache_iff [ScanOrder Str] {inputs : List (ControllerInput setup.platform.curve)}
    (hrun : inputs.foldlM (step setup) initial = some s) (dsId : Str)
    (session : DSLinkSessionInfo) :
    s.cache.get dsId = some session ↔ LastSession setup inputs dsId session := by
  induction inputs using List.reverseRecOn generalizing s with
  | nil =>
    obtain rfl := Option.some.inj hrun
    constructor
    · exact fun hnone => absurd hnone.symm (Option.some_ne_none _)
    · rintro ⟨input, hlast, -⟩
      exact absurd hlast not_isLast_nil
  | append_singleton before input ih =>
    rw [List.foldlM_append] at hrun
    obtain ⟨t, ht, hlast⟩ := Option.bind_eq_some_iff.mp hrun
    obtain ⟨s, hs, hnil⟩ := Option.bind_eq_some_iff.mp hlast
    obtain rfl := Option.some.inj hnil
    have hcache := cache_of_step hs dsId
    simp only [LastSession, isLast_concat]
    by_cases hconcerns : Concerns setup dsId input
    · rw [hcache.1 hconcerns]
      constructor
      · exact fun hopened => ⟨input, Or.inl ⟨hconcerns, rfl⟩, hopened⟩
      · rintro ⟨other, ⟨-, rfl⟩ | ⟨hnot, -⟩, hopened⟩
        · exact hopened
        · exact absurd hconcerns hnot
    · rw [hcache.2 hconcerns, ih ht]
      constructor
      · rintro ⟨other, hother, hopened⟩
        exact ⟨other, Or.inr ⟨hconcerns, hother⟩, hopened⟩
      · rintro ⟨other, ⟨hyes, -⟩ | ⟨-, hother⟩, hopened⟩
        · exact absurd hyes hconcerns
        · exact ⟨other, hother, hopened⟩

/-! ### The tokens -/

theorem unlimited_of_usedTokens [ScanOrder Str] (h : s.tokens.Unlimited) {request : RequestHeader}
    {clock : Clock} {tokens : TokenGroup}
    (hused : s.usedTokens setup request clock = some tokens) : tokens.Unlimited := by
  simp only [usedTokens] at hused
  split at hused
  · split at hused
    · exact Option.some.inj hused ▸ h
    · rename_i dsId token _
      obtain ⟨checked, hchecked, hrest⟩ := Option.bind_eq_some_iff.mp hused
      have hfirst : checked.Unlimited := by
        split_ifs at hchecked
        · exact Option.some.inj hchecked ▸ h
        · have hcheck : s.tokens.SetsNoLimit (.check token) := trivial
          exact h.step hcheck hchecked
      split_ifs at hrest
      · have happend : checked.SetsNoLimit (.appendDsId2Token (token.take 16) dsId) := trivial
        exact hfirst.step happend hrest
      · exact Option.some.inj hrest ▸ hfirst
  · exact Option.some.inj hused ▸ h

theorem unlimited_of_step [ScanOrder Str] (h : s.tokens.Unlimited)
    {input : ControllerInput setup.platform.curve} (hlimit : LimitFree setup input)
    (hstep : s.step setup input = some s') : s'.tokens.Unlimited := by
  rcases input with ⟨request, tempKeys, salt, number⟩ | id | ⟨request, clock⟩ | input
  · rw [← Option.some.inj hstep]
    rcases dslinkHandshake setup request tempKeys salt number with _ | session
    · exact h
    · exact h
  · rw [← Option.some.inj hstep]
    exact h
  · obtain ⟨tokens, hused, rfl⟩ := Option.map_eq_some_iff.mp hstep
    exact unlimited_of_usedTokens h hused
  · obtain ⟨tokens, htokens, rfl⟩ := Option.map_eq_some_iff.mp hstep
    refine h.step ?_ htokens
    rcases input with _ | _ | _ | _ | _ | _ | _ | _
    case setConfig => exact hlimit
    all_goals exact trivial

theorem unlimited_of_run [ScanOrder Str] {inputs : List (ControllerInput setup.platform.curve)}
    (hrun : inputs.foldlM (step setup) initial = some s)
    (hlimits : ∀ input ∈ inputs, LimitFree setup input) : s.tokens.Unlimited := by
  have hkept := @foldlM_invariant _ _ (step setup)
    (fun s rest => s.tokens.Unlimited ∧ ∀ input ∈ rest, LimitFree setup input)
    (fun s input rest s' hs hstep =>
      ⟨unlimited_of_step hs.1 (hs.2 input List.mem_cons_self) hstep,
        (List.forall_mem_cons.mp hs.2).2⟩)
    initial s inputs ⟨TokenGroup.unlimited_initial, hlimits⟩ hrun
  exact hkept.1

/-! ### Connecting -/

theorem dslinkWSConnect_iff {sessionInfo : Option DSLinkSessionInfo} {flow : Bool}
    {session : DSLinkSessionInfo} {transformer : Transformer} :
    dslinkWSConnect setup sessionInfo flow = .accepted session transformer ↔
      sessionInfo = some session ∧
        (∀ token, session.ci.tokenHash = some token → 16 ≤ token.length) ∧
        flow = true ∧ getTransformer setup.settings (some session) = some transformer := by
  rcases sessionInfo with _ | si
  · simp [dslinkWSConnect]
  · simp only [dslinkWSConnect, Option.some.injEq]
    split_ifs with hshort hflow
    · simp only [false_iff, not_and]
      rintro rfl hlong
      rw [Option.any_eq_true] at hshort
      obtain ⟨token, htoken, hless⟩ := hshort
      exact absurd (of_decide_eq_true hless) (Nat.not_lt.mpr (hlong token htoken))
    · have hlong : ∀ token, si.ci.tokenHash = some token → 16 ≤ token.length := by
        intro token htoken
        rw [htoken, Option.any_some, decide_eq_true_eq] at hshort
        exact Nat.le_of_not_lt hshort
      rcases htransformer : getTransformer setup.settings (some si) with _ | found
      · simp only [reduceCtorEq, false_iff, not_and]
        rintro rfl - -
        rw [htransformer]
        exact fun h => Option.some_ne_none _ h.symm
      · simp only [ConnectResult.accepted.injEq]
        constructor
        · rintro ⟨rfl, rfl⟩
          exact ⟨rfl, hlong, hflow, htransformer⟩
        · rintro ⟨rfl, -, -, hsame⟩
          exact ⟨rfl, Option.some.inj (htransformer.symm.trans hsame)⟩
    · simp only [reduceCtorEq, hflow, false_and, and_false]

/-- Who is let in, and with what: a link that has a flow, an open session in the cache, the right
answer to its challenge and the hash of a token that is there; and it gets the transformer of its
session. -/
theorem acceptOrResult_iff [ScanOrder Str] (hclosed : setup.settings.allowAllLinks = false)
    (htokens : s.tokens.Unlimited) {request : RequestHeader} {clock : Clock} {flow : Bool}
    {session : DSLinkSessionInfo} {transformer : Transformer} :
    s.acceptOrResult setup request clock flow = .accepted session transformer ↔
      ∃ dsId, request.getDsId = some dsId ∧ flow = true ∧ s.cache.get dsId = some session ∧
        request.getAuth.getD [] = saltSharedSecret setup.platform.sha256
          (setup.platform.getBytes session.ci.salt) session.ci.sharedSecret ∧
        (∃ hash, session.ci.tokenHash = some hash ∧
          (s.tokens.get (getTokenId hash)).isSome = true) ∧
        getTransformer setup.settings (some session) = some transformer := by
  rw [acceptOrResult]
  rcases request.getDsId with _ | dsId
  · simp
  · simp only [Option.some.injEq, exists_eq_left']
    rcases hcache : s.cache.get dsId with _ | si
    · simp [validateAuth, hclosed]
    · -- with unlimited tokens, what is checked is that the token of the hash is there
      have hadmits := htokens.checkToken_iff hclosed clock si
      have hsecret : validateAuth setup.platform setup.settings (some si) request.getAuth = true ↔
          request.getAuth.getD [] = saltSharedSecret setup.platform.sha256
            (setup.platform.getBytes si.ci.salt) si.ci.sharedSecret := by
        simp [validateAuth, hclosed]
      split_ifs with hauth
      · -- the check throws, says no or says yes
        rcases hcheck : checkToken setup.settings clock s.tokens.nodes (some si) with _ | _ | _
        case some.true =>
          obtain ⟨hash, hhash, hnode⟩ := hadmits.mp hcheck
          simp only [dslinkWSConnect_iff, Option.some.injEq]
          constructor
          · rintro ⟨rfl, -, hflow, htransformer⟩
            exact ⟨hflow, rfl, hsecret.mp hauth, ⟨hash, hhash, hnode⟩, htransformer⟩
          · rintro ⟨hflow, rfl, -, -, htransformer⟩
            refine ⟨rfl, ?_, hflow, htransformer⟩
            intro token htoken
            obtain rfl := Option.some.inj (hhash.symm.trans htoken)
            exact htokens.length_le hnode
        all_goals
          simp only [reduceCtorEq, false_iff]
          rintro ⟨-, hsame, -, htoken, -⟩
          obtain rfl := Option.some.inj hsame
          rw [hadmits.mpr htoken] at hcheck
          exact absurd hcheck (by decide)
      · -- a wrong answer to the challenge is no session
        simp only [false_iff]
        rintro ⟨-, hsame, hgiven, -⟩
        obtain rfl := Option.some.inj hsame
        exact hauth (hsecret.mpr hgiven)

/-! ### What a link gets from its handshake -/

theorem isAscii_localSalt (setup : ControllerSetup Point) (salt : Nat) :
    IsAscii (localSalt setup salt) := by
  have hdigits : ∀ n < 64, urlBase64.digit n < 128 := by decide +kernel
  have hhex : ∀ n < 16, hexDigitOf n < 128 := by decide
  intro c hc
  rcases List.mem_append.mp hc with hbase | hrandom
  · rw [UrlBase64.encodeBytes_eq] at hbase
    obtain ⟨n, hn, rfl⟩ := urlBase64.mem_encodeDigits hbase
    exact hdigits n hn
  · rw [toHexString] at hrandom
    split_ifs at hrandom
    · rw [List.mem_singleton.mp hrandom]
      decide
    · obtain ⟨n, hn, rfl⟩ := List.mem_map.mp hrandom
      have hbase : 1 < 16 := by omega
      exact hhex n (Nat.digits_lt_base hbase (List.mem_reverse.mp hn))

theorem given_of_handshake {request : HandshakeRequest}
    {tempKeys : LocalKeys setup.platform.curve} {salt number : Nat} {session : DSLinkSessionInfo}
    (h : dslinkHandshake setup request tempKeys salt number = some session) :
    request.getDsId = some session.ci.dsId ∧ session.ci.tokenHash = request.getToken := by
  obtain ⟨ci, hci, rfl⟩ := Option.map_eq_some_iff.mp h
  obtain ⟨dsId, hdsId, hci⟩ := Option.bind_eq_some_iff.mp hci
  obtain ⟨available, -, hci⟩ := Option.bind_eq_some_iff.mp hci
  obtain ⟨remoteKey, -, hci⟩ := Option.bind_eq_some_iff.mp hci
  split_ifs at hci
  rw [← Option.some.inj hci, hdsId]
  exact ⟨rfl, rfl⟩

/-- The link computes the hash that it is asked for, and both sides choose the same format. -/
theorem query_of_handshake (hplatform : setup.platform.Lawful)
    {client tempKeys : LocalKeys setup.platform.curve} {request : HandshakeRequest}
    (hkey : request.body.publicKey = client.encodedPublicKey) {salt number : Nat}
    {session : DSLinkSessionInfo}
    (h : dslinkHandshake setup request tempKeys salt number = some session)
    (keys : LocalKeys setup.platform.curve) :
    uplinkHandshake setup.platform client
        (handshakeResponse setup.platform setup.settings keys session.ci) =
      some ⟨setup.settings.config.wsUri, saltSharedSecret setup.platform.sha256
        (setup.platform.getBytes session.ci.salt) session.ci.sharedSecret, session.ci.format⟩ ∧
    ∃ transformer, transformers session.ci.format = some transformer ∧
      getTransformer setup.settings (some session) = some transformer := by
  obtain ⟨ci, hci, rfl⟩ := Option.map_eq_some_iff.mp h
  obtain ⟨remoteKey, hremote, hsecret, htempKey, hsalt, hformats, hformat⟩ :=
    buildConnectionInfo_cases hci
  have hascii := isAscii_localSalt setup salt
  constructor
  · have hclient : RemoteKey.generate client ci.tempKey = some remoteKey := by
      rw [htempKey, RemoteKey.generate_comm hplatform.curve, ← hkey, hremote]
    rw [uplinkHandshake_handshakeResponse, buildAuth, hclient, hsalt, getBytesUtf8_ascii hascii,
      hplatform.getBytes_ascii _ hascii, hsecret]
    rfl
  · obtain ⟨transformer, htransformer⟩ := Option.isSome_iff_exists.mp
      (transformers_chooseFormat ci.clientFormats setup.settings.config.format)
    rw [hformat, chooseFormat_default, ← hformats]
    refine ⟨transformer, htransformer, ?_⟩
    simp only [getTransformer, setup.settings.availableFormats_eq, htransformer, Option.map_some,
      Option.bind_eq_bind, Option.bind_some, Option.getD_some]

end

end WebSocketController

open WebSocketController

/-- **Who is connected.**  After every run in which no limit is set by hand, a request to connect
is accepted just if it has the id of a session that is there, which is that of the last handshake
for this id, and the hash of its salt and secret, and if the session names a token node. -/
theorem connects_iff {Point : Type} [ScanOrder Str] {setup : ControllerSetup Point}
    (hclosed : setup.settings.allowAllLinks = false)
    {inputs : List (ControllerInput setup.platform.curve)} {s : WebSocketController}
    (hrun : inputs.foldlM (step setup) initial = some s)
    (hlimits : ∀ input ∈ inputs, LimitFree setup input) (request : RequestHeader) (clock : Clock)
    (flow : Bool) (session : DSLinkSessionInfo) (transformer : Transformer) :
    s.acceptOrResult setup request clock flow = .accepted session transformer ↔
      ∃ dsId, request.getDsId = some dsId ∧ flow = true ∧ LastSession setup inputs dsId session ∧
        request.getAuth.getD [] = saltSharedSecret setup.platform.sha256
          (setup.platform.getBytes session.ci.salt) session.ci.sharedSecret ∧
        (∃ hash, session.ci.tokenHash = some hash ∧
          (s.tokens.get (getTokenId hash)).isSome = true) ∧
        getTransformer setup.settings (some session) = some transformer := by
  simp only [acceptOrResult_iff hclosed (unlimited_of_run hrun hlimits), cache_iff hrun]

/-- **A link gets in.**  A link posts its public key and the hash of a token whose node is there.
As long as nobody else shakes hands for its id, the session is not dropped and no limit is set by
hand on a token node, it is connected as often as it asks with the hash that it computes from the
answer, and it gets the format that the answer names; other links may shake hands and connect in
between, and tokens may change.  Links are let in by their tokens alone: `AllowAllLinks` is off. -/
theorem link_connects {Point : Type} [ScanOrder Str] {setup : ControllerSetup Point}
    (hplatform : setup.platform.Lawful) (hclosed : setup.settings.allowAllLinks = false)
    {inputs : List (ControllerInput setup.platform.curve)} {s : WebSocketController}
    (hrun : inputs.foldlM (step setup) initial = some s)
    (hlimits : ∀ input ∈ inputs, LimitFree setup input)
    {client tempKeys : LocalKeys setup.platform.curve} {request : HandshakeRequest}
    (hkey : request.body.publicKey = client.encodedPublicKey) {salt number : Nat}
    {session : DSLinkSessionInfo}
    (hsession : dslinkHandshake setup request tempKeys salt number = some session)
    (hlast : IsLast (Concerns setup session.ci.dsId) inputs
      (.handshake request tempKeys salt number))
    {token : Str} (htoken : request.getToken =
      some (hashToken setup.platform token session.ci.dsId))
    (hnode : (s.tokens.get (getTokenId token)).isSome = true)
    (keys : LocalKeys setup.platform.curve) :
    ∃ query transformer, uplinkHandshake setup.platform client
        (handshakeResponse setup.platform setup.settings keys session.ci) = some query ∧
      transformers query.format = some transformer ∧
      ∀ (connect : RequestHeader) (clock : Clock), connect.getDsId = some session.ci.dsId →
        connect.getAuth = some query.auth →
        s.acceptOrResult setup connect clock true = .accepted session transformer := by
  have htokens := unlimited_of_run hrun hlimits
  obtain ⟨hquery, transformer, hformat, htransformer⟩ :=
    query_of_handshake hplatform hkey hsession keys
  refine ⟨_, transformer, hquery, hformat, ?_⟩
  intro connect clock hdsId hauth
  refine (acceptOrResult_iff hclosed htokens).mpr ⟨_, hdsId, rfl, ?_, ?_, ?_, htransformer⟩
  · exact (cache_iff hrun _ _).mpr ⟨_, hlast, hsession⟩
  · rw [hauth, Option.getD_some]
  · refine ⟨_, (given_of_handshake hsession).2.trans htoken, ?_⟩
    rw [getTokenId_hashToken setup.platform (htokens.length_le hnode)]
    exact hnode

/-! ### The meter -/

def meterSetup : ControllerSetup Nat where
  platform := meterPlatform
  settings := meterSettings
  saltBytes := (List.range 12).map Nat.toUInt8
  toText := DSAVal.string?

/-- The request of the meter, with the default token. -/
def tokenRequest : HandshakeRequest where
  queryString := fun key =>
    if key = str "token" then
      some [hashToken meterPlatform TokenGroup.DEFAULT_TOKEN
        (str "meter-qfMA61lg6JEzr3NiARoeJvDi6i423EAqBK9sGSuJGow")]
    else meterRequest.queryString key
  remoteAddress := meterRequest.remoteAddress
  host := meterRequest.host
  body := meterRequest.body

/-- The handshake, and the end of another token. -/
def meterInputs : List (ControllerInput meterSetup.platform.curve) :=
  [.handshake tokenRequest (meterKeys 3) 32570 1, .token (.remove (str "another"))]

def meterState (session : DSLinkSessionInfo) : WebSocketController where
  cache := ScanMap.empty.put session.ci.dsId session
  tokens := ScanMap.remove TokenGroup.initial (str "another")

theorem exists_meterSession : ∃ session,
    dslinkHandshake meterSetup tokenRequest (meterKeys 3) 32570 1 = some session ∧
      meterInputs.foldlM (step meterSetup) initial = some (meterState session) ∧
      (∀ input ∈ meterInputs, LimitFree meterSetup input) ∧
      IsLast (Concerns meterSetup session.ci.dsId) meterInputs
        (.handshake tokenRequest (meterKeys 3) 32570 1) := by
  have hbuilt : (buildConnectionInfo meterPlatform meterSettings (meterKeys 3)
      (localSalt meterSetup 32570) tokenRequest).isSome := by
    rw [buildConnectionInfo_isSome_iff multiplesOfBase_lawful (meterKeys 2) (meterKeys 3)
      (localSalt meterSetup 32570) rfl]
    exact ⟨⟨_, rfl, by decide +kernel⟩, rfl, by decide +kernel⟩
  obtain ⟨ci, hci⟩ := Option.isSome_iff_exists.mp hbuilt
  have hsession : dslinkHandshake meterSetup tokenRequest (meterKeys 3) 32570 1 =
      some ⟨ci, sessionId ci 1⟩ := congrArg (Option.map _) hci
  refine ⟨_, hsession, ?_, ?_, ?_⟩
  · simp only [meterInputs, List.foldlM_cons, List.foldlM_nil, step, hsession]
    rfl
  · exact List.forall_mem_cons.mpr ⟨trivial, List.forall_mem_singleton.mpr trivial⟩
  · exact ⟨[], _, rfl, ⟨_, hsession, rfl⟩, List.forall_mem_singleton.mpr id⟩

theorem getToken_tokenRequest {session : DSLinkSessionInfo}
    (h : dslinkHandshake meterSetup tokenRequest (meterKeys 3) 32570 1 = some session) :
    tokenRequest.getToken = some (hashToken meterPlatform TokenGroup.DEFAULT_TOKEN
      session.ci.dsId) := by
  have hdsId : some session.ci.dsId =
      some (str "meter-qfMA61lg6JEzr3NiARoeJvDi6i423EAqBK9sGSuJGow") :=
    (given_of_handshake h).1.symm.trans rfl
  rw [Option.some.inj hdsId]
  rfl

def connectRequest (dsId auth : Str) : RequestHeader where
  queryString := fun key =>
    if key = str "dsId" then some [dsId] else if key = str "auth" then some [auth] else none

theorem meterPlatform_lawful : meterPlatform.Lawful := ⟨multiplesOfBase_lawful, fun _ _ => rfl⟩

theorem exists_defaultNode : ((ScanMap.remove TokenGroup.initial (str "another")).get
    (getTokenId TokenGroup.DEFAULT_TOKEN)).isSome = true := by decide

theorem connects_iff_meter :
    ∃ session transformer auth, (meterState session).acceptOrResult meterSetup
      (connectRequest session.ci.dsId auth) springClock true = .accepted session transformer := by
  obtain ⟨session, hsession, hrun, hlimits, hlast⟩ := exists_meterSession
  have hkey : tokenRequest.body.publicKey = (meterKeys 2).encodedPublicKey := rfl
  obtain ⟨-, transformer, -, htransformer⟩ := query_of_handshake meterPlatform_lawful hkey hsession
    (meterKeys 5)
  have hclosed : meterSetup.settings.allowAllLinks = false := rfl
  refine ⟨session, transformer, _, (connects_iff hclosed hrun hlimits _ springClock true session
    transformer).mpr ⟨_, rfl, rfl, ⟨_, hlast, hsession⟩, rfl, ?_, htransformer⟩⟩
  refine ⟨_, (given_of_handshake hsession).2.trans (getToken_tokenRequest hsession), ?_⟩
  rw [getTokenId_hashToken meterPlatform (by decide)]
  exact exists_defaultNode

theorem link_connects_meter :
    ∃ session query transformer,
      uplinkHandshake meterPlatform (meterKeys 2)
        (handshakeResponse meterPlatform meterSettings (meterKeys 5) session.ci) = some query ∧
      transformers query.format = some transformer ∧
      (meterState session).acceptOrResult meterSetup (connectRequest session.ci.dsId query.auth)
        springClock true = .accepted session transformer := by
  obtain ⟨session, hsession, hrun, hlimits, hlast⟩ := exists_meterSession
  have hclosed : meterSetup.settings.allowAllLinks = false := rfl
  obtain ⟨query, transformer, hquery, hformat, hconnects⟩ := link_connects meterPlatform_lawful
    hclosed hrun hlimits rfl hsession hlast (getToken_tokenRequest hsession)
    exists_defaultNode (meterKeys 5)
  exact ⟨session, query, transformer, hquery, hformat, hconnects _ springClock rfl rfl⟩

end DsaBroker
