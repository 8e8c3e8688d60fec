import DsaBroker.KeyFiles
import DsaBroker.Tokens
import Mathlib.Data.Nat.Digits.Defs

/-!
# Connecting links

`WebSocketController`: a link shakes hands by posting a connection request, and connects later with
what it got for an answer.  In between, the broker keeps the session in a cache, under the id that
the link has given.

A connection does not use up the session, so it is good for any number of them; another handshake
for the same id replaces it, and the cache may drop it.
-/

namespace DsaBroker

/-! ### Requests to connect -/

/-- `RequestHeader`. -/
structure RequestHeader where
  queryString : Str → Option (List Str)

/-- Extracts `dsId` from the request's query string; `none` when it throws. -/
def RequestHeader.getDsId (request : RequestHeader) : Option Str :=
  (request.queryString (str "dsId")).bind List.head?

/-- Extracts "auth" parameter from URL. -/
def RequestHeader.getAuth (request : RequestHeader) : Option Str :=
  (request.queryString (str "auth")).bind List.head?

/-- The answer: a connection with its message format, a status, or an exception. -/
inductive ConnectResult where
  | accepted (session : DSLinkSessionInfo) (transformer : Transformer)
  | unauthorized
  | forbidden
  | badRequest
  | failed

/-! ### The controller -/

def hexDigitOf (n : Nat) : UInt16 := if n < 10 then (48 + n).toUInt16 else (87 + n).toUInt16

/-- `toHexString` of a number that is not negative. -/
def toHexString (n : Nat) : Str :=
  if n = 0 then str "0" else (Nat.digits 16 n).reverse.map hexDigitOf

/-- What the controller is set up with.  `toText` is `toString` of a value, `none` when it
throws. -/
structure ControllerSetup (Point : Type) where
  platform : Platform Point
  settings : BrokerSettings
  saltBytes : List UInt8
  toText : DSAVal → Option Str

structure WebSocketController where
  cache : ScanMap Str DSLinkSessionInfo
  tokens : TokenGroup

/-- What the controller draws at random comes with a handshake; `flow` says whether the actors for
a connection have started. -/
inductive ControllerInput {Point : Type} (curve : Curve Point) where
  | handshake (request : HandshakeRequest) (tempKeys : LocalKeys curve) (salt number : Nat)
  | evicted (dsId : Str)
  | connect (request : RequestHeader) (clock : Clock)
  | token (input : TokenInput)

namespace WebSocketController

section

variable {Point : Type} (setup : ControllerSetup Point)

/-- `saltBase + Random.nextInt(Int.MaxValue).toHexString`. -/
def localSalt (salt : Nat) : Str := UrlBase64.encodeBytes setup.saltBytes ++ toHexString salt

def sessionId (ci : HandshakeInfo) (number : Nat) : Str :=
  ci.linkName ++ str "_" ++ ci.linkAddress ++ str "_" ++ intText number

/-- The session of a handshake; `none` when it throws. -/
def dslinkHandshake (request : HandshakeRequest) (tempKeys : LocalKeys setup.platform.curve)
    (salt number : Nat) : Option DSLinkSessionInfo :=
  (buildConnectionInfo setup.platform setup.settings tempKeys (localSalt setup salt) request).map
    fun ci => ⟨ci, sessionId ci number⟩

/-- Establishes a WebSocket connection. -/
def dslinkWSConnect (sessionInfo : Option DSLinkSessionInfo) (flow : Bool) : ConnectResult :=
  match sessionInfo with
  | none => .forbidden
  | some si =>
      -- `appendDsId2Token` takes the id of the token with `substring`
      if si.ci.tokenHash.any fun token => token.length < 16 then .failed
      else if flow then
        match getTransformer setup.settings (some si) with
        | some transformer => .accepted si transformer
        | none => .failed
      else .badRequest

variable [ScanOrder Str]

def acceptOrResult (s : WebSocketController) (request : RequestHeader) (clock : Clock)
    (flow : Bool) : ConnectResult :=
  match request.getDsId with
  | none => .failed
  | some dsId =>
      let sessionInfo := s.cache.get dsId
      if validateAuth setup.platform setup.settings sessionInfo request.getAuth then
        match checkToken setup.settings clock s.tokens.nodes sessionInfo with
        | none => .failed
        | some true => dslinkWSConnect setup sessionInfo flow
        | some false => .unauthorized
      else .unauthorized

/-- What a request to connect does to the token nodes: the use is counted, and the id of the link
is stored. -/
def usedTokens (s : WebSocketController) (request : RequestHeader) (clock : Clock) :
    Option TokenGroup :=
  let sessionInfo := request.getDsId.bind s.cache.get
  if validateAuth setup.platform setup.settings sessionInfo request.getAuth then
    match sessionInfo.bind fun si => si.ci.tokenHash.map fun token => (si.ci.dsId, token) with
    | none => some s.tokens
    | some (dsId, token) =>
        let checked :=
          if setup.settings.allowAllLinks then some s.tokens
          else s.tokens.step setup.toText (.check token)
        checked.bind fun tokens =>
          if checkToken setup.settings clock s.tokens.nodes sessionInfo = some true ∧
              16 ≤ token.length then
            tokens.step setup.toText (.appendDsId2Token (token.take 16) dsId)
          else some tokens
  else some s.tokens

/-- One input; `none` when an action on tokens throws. -/
def step (s : WebSocketController) :
    ControllerInput setup.platform.curve → Option WebSocketController
  | .handshake request tempKeys salt number =>
      some (match dslinkHandshake setup request tempKeys salt number with
        | none => s
        | some session => { s with cache := s.cache.put session.ci.dsId session })
  | .evicted dsId => some { s with cache := s.cache.remove dsId }
  | .connect request clock =>
      (s.usedTokens setup request clock).map fun tokens => { s with tokens := tokens }
  | .token input => (s.tokens.step setup.toText input).map fun tokens => { s with tokens := tokens }

def initial : WebSocketController := ⟨.empty, TokenGroup.initial⟩

end

end WebSocketController

end DsaBroker
