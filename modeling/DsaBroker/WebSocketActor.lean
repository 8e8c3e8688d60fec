import DsaBroker.AbstractDSLinkActor
import DsaBroker.Callbacks
import DsaBroker.CounterBatches
import DsaBroker.SourceQueue
import DsaBroker.WireFormat

/-!
# The actor of a socket

`WebSocketActor` stands between a client and its link.  It acknowledges what the client sends and
passes it on to the link, as soon as the registry has told it where the link is, and it numbers
what the link sends to the client.

The callbacks run on other threads, beside the actor.  They tell the link and offer messages to the
queue of the socket, but the counter and the routee are the actor's own.  `Settings` keep the queue
from failing or waiting: it drops messages.
-/

namespace DsaBroker

/-- What the actor receives, but for `StreamRequest`: that one is answered with the flow that joins
the socket to the actor and its queue, and changes neither. -/
inductive SocketEvent where
  | message (message : DSAMessage)
  | requestEnvelope (requests : List DSARequest)
  | responseEnvelope (responses : List DSAResponse)
  | routeeUpdateRequest
  /-- `Status.Success` or `Status.Failure`, when the stream of the socket ends -/
  | done
  | terminated

inductive LinkMessage where
  | connectEndpoint (ci : ConnectionInfo)
  | message (message : DSAMessage)
deriving DecidableEq

/-- A message to a link, with the future that the link is the value of. -/
structure Told where
  future : Nat
  link : Routee
  message : LinkMessage
deriving DecidableEq

/-- The actor, with its queue and what it has done. -/
structure WebSocketActor where
  connInfo : ConnectionInfo
  localMsgId : IntCounter
  /-- the future that `routee` is -/
  routee : Nat
  futures : Nat → Awaited Routee DSAMessage
  /-- the pings that were sent to a link and are not answered yet -/
  pings : List Int
  poisoned : Bool
  running : Bool
  out : SourceQueue DSAMessage
  offered : List DSAMessage
  told : List Told
  /-- what was received, and `routee` at that time -/
  handled : List (Nat × SocketEvent)

namespace WebSocketActor

def sendToSocket (s : WebSocketActor) (msg : DSAMessage) : WebSocketActor :=
  { s with out := s.out.offer msg, offered := s.offered ++ [msg] }

def sendAck (s : WebSocketActor) (remoteMsgId : Int) : WebSocketActor :=
  s.sendToSocket (.pong remoteMsgId)

def sendRequests (s : WebSocketActor) (requests : List DSARequest) : WebSocketActor :=
  if requests.isEmpty then s
  else
    { s with localMsgId := s.localMsgId.inc.2 }.sendToSocket
      (.request s.localMsgId.inc.1 none requests)

def sendResponses (s : WebSocketActor) (responses : List DSAResponse) : WebSocketActor :=
  if responses.isEmpty then s
  else
    { s with localMsgId := s.localMsgId.inc.2 }.sendToSocket
      (.response s.localMsgId.inc.1 none responses)

/-- Registers a callback that tells or asks the link. -/
def whenRoutee (s : WebSocketActor) (message : DSAMessage) : WebSocketActor :=
  { s with
    futures := Function.update s.futures s.routee ((s.futures s.routee).register message) }

/-- `updateRoutee` asks the registry; the answer comes later. -/
def updateRoutee (s : WebSocketActor) : WebSocketActor := { s with routee := s.routee + 1 }

def receive (s : WebSocketActor) : SocketEvent → WebSocketActor
  | .message (.ping msg ack) => s.whenRoutee (.ping msg ack)
  | .message (.request msg ack requests) => (s.sendAck msg).whenRoutee (.request msg ack requests)
  | .message (.response msg ack responses) =>
      (s.sendAck msg).whenRoutee (.response msg ack responses)
  -- `EmptyMessage` is ignored; there is no case for `AllowedMessage` and `PongMessage`
  | .message _ => s
  | .requestEnvelope requests => s.sendRequests requests
  | .responseEnvelope responses => s.sendResponses responses
  | .routeeUpdateRequest => s.updateRoutee
  | .done => { s with poisoned := true }
  | .terminated => { s with running := false }

def handle (s : WebSocketActor) (event : SocketEvent) : WebSocketActor :=
  { s.receive event with handled := s.handled ++ [(s.routee, event)] }

def tell (s : WebSocketActor) (future : Nat) (link : Routee) (message : LinkMessage) :
    WebSocketActor :=
  { s with told := s.told ++ [⟨future, link, message⟩] }

/-- What a callback does with the routee. -/
def execute (s : WebSocketActor) (future : Nat) (link : Routee) (message : DSAMessage) :
    WebSocketActor :=
  match message with
  | .ping msg _ => { s.tell future link (.message message) with pings := s.pings ++ [msg] }
  | _ => s.tell future link (.message message)

end WebSocketActor

/-- What happens next. -/
inductive SocketInput where
  /-- the actor takes a message from its mailbox -/
  | event (event : SocketEvent)
  | poisonPill
  /-- the registry has answered, or it has not in time -/
  | routeeArrived (future : Nat) (link : Option Routee)
  | callback (future place : Nat)
  /-- a link has answered a ping, or it has not in time -/
  | pingAnswered (place : Nat) (inTime : Bool)
  /-- the socket asks for the next message -/
  | pull

namespace WebSocketActor

def step (s : WebSocketActor) : SocketInput → Option WebSocketActor
  | .event event => if s.running then some (s.handle event) else none
  | .poisonPill => if s.poisoned ∧ s.running then some { s with running := false } else none
  | .routeeArrived i link =>
      if i ≤ s.routee ∧ (s.futures i).outcome = none then
        let arrived := { s with
          futures := Function.update s.futures i ((s.futures i).complete link) }
        -- the connection is announced before the future is completed
        some (link.elim arrived fun r => arrived.tell i r (.connectEndpoint s.connInfo))
      else none
  | .callback i j => ((s.futures i).turn j).map fun turn =>
      let taken := { s with futures := Function.update s.futures i turn.2 }
      turn.1.elim taken fun ran => taken.execute i ran.1 ran.2
  | .pingAnswered j inTime => s.pings[j]?.map fun msg =>
      let answered := { s with pings := s.pings.eraseIdx j }
      if inTime then answered.sendAck msg else answered
  | .pull => some { s with out := s.out.pull }

/-- The buffer of the source. -/
def bufferSize : Nat := 100

/-- A new actor, that has asked the registry for its link and has greeted the client. -/
def initial (ci : ConnectionInfo) (salt : Int) (overflow : OverflowStrategy) : WebSocketActor :=
  sendToSocket
    { connInfo := ci
      localMsgId := ⟨1, 1⟩
      routee := 0
      futures := fun _ => .start
      pings := []
      poisoned := false
      running := true
      out := .start bufferSize overflow (by decide)
      offered := []
      told := []
      handled := [] }
    (.allowed true salt)

end WebSocketActor

end DsaBroker
