import DsaBroker.DSAValue

/-!
# Requests, responses and origins

The messages of `models.rpc` that a responder link receives and sends, and the entities
of `models` that accompany them.  A routee is compared by what it points at: two
selections of one actor path are equal, two references of one actor are equal.
-/

namespace DsaBroker

/-- `akka.routing.Routee`, with the three kinds the broker builds. -/
inductive Routee where
  | actorRef (path : Str)
  | actorSelection (path : Str)
  | sharded (region entityId : Str)
deriving DecidableEq, Repr

/-- Used in call records to store the subscribers for future responses. -/
structure Origin where
  source : Routee
  sourceId : Int
deriving DecidableEq, Repr

/-! ### Requests -/

inductive DSAMethod where
  | list | set | remove | invoke | subscribe | unsubscribe | close
deriving DecidableEq, Repr

structure SubscriptionPath where
  path : Str
  sid : Int
  qos : Option Int := none
deriving DecidableEq, Repr

inductive DSARequest where
  | list (rid : Int) (path : Str)
  | set (rid : Int) (path : Str) (value : DSAVal) (permit : Option Str)
  | remove (rid : Int) (path : Str)
  | invoke (rid : Int) (path : Str) (params : DSAMap) (permit : Option Str)
  | subscribe (rid : Int) (paths : List SubscriptionPath)
  | unsubscribe (rid : Int) (sids : List Int)
  | close (rid : Int)
deriving DecidableEq

def DSARequest.rid : DSARequest → Int
  | .list rid _ | .set rid _ _ _ | .remove rid _ | .invoke rid _ _ _ | .subscribe rid _
  | .unsubscribe rid _ | .close rid => rid

def DSARequest.method : DSARequest → DSAMethod
  | .list .. => .list
  | .set .. => .set
  | .remove .. => .remove
  | .invoke .. => .invoke
  | .subscribe .. => .subscribe
  | .unsubscribe .. => .unsubscribe
  | .close .. => .close

/-- `head.ensuring(size == 1)`, which guards the only path of a SUBSCRIBE request and the
only SID of an UNSUBSCRIBE request: `none` when the head is missing or the assertion
fails. -/
def onlyElement : List α → Option α
  | [a] => some a
  | _ => none

theorem onlyElement_eq_some {l : List α} {a : α} : onlyElement l = some a ↔ l = [a] := by
  cases l with
  | nil => simp [onlyElement]
  | cons head tail => cases tail <;> simp [onlyElement]

/-- `split` of SUBSCRIBE and UNSUBSCRIBE requests: one request for each path or SID, all with
the same RID.  Other requests are not split. -/
def DSARequest.split : DSARequest → List DSARequest
  | .subscribe rid paths => paths.map fun path => .subscribe rid [path]
  | .unsubscribe rid sids => sids.map fun sid => .unsubscribe rid [sid]
  | request => [request]

/-! ### Responses -/

inductive StreamState where
  | initialized | opened | closed
deriving DecidableEq, Repr

structure DSAError where
  msg : Option Str := none
  errType : Option Str := none
  phase : Option Str := none
  path : Option Str := none
  detail : Option Str := none
deriving DecidableEq, Repr

structure ColumnInfo where
  colName : Str
  colType : Str
deriving DecidableEq, Repr

structure DSAResponse where
  rid : Int
  stream : Option StreamState := none
  updates : Option (List DSAVal) := none
  columns : Option (List ColumnInfo) := none
  error : Option DSAError := none
deriving DecidableEq

/-- Combines the requests that need to be dispatched to the WebSocket and responses that
need to be sent back to the requester's actor. -/
structure HandlerResult where
  requests : List DSARequest
  responses : List DSAResponse
deriving DecidableEq

namespace HandlerResult

def empty : HandlerResult := ⟨[], []⟩

def request (request : DSARequest) : HandlerResult := ⟨[request], []⟩

def response (response : DSAResponse) : HandlerResult := ⟨[], [response]⟩

def flatten (results : List HandlerResult) : HandlerResult :=
  ⟨results.flatMap HandlerResult.requests, results.flatMap HandlerResult.responses⟩

end HandlerResult

/-- A response envelope on its way to a routee. -/
structure Delivery where
  target : Routee
  responses : List DSAResponse
deriving DecidableEq

end DsaBroker
