import DsaBroker.GroupCallRegistry
import DsaBroker.Paths
import DsaBroker.Registries

/-!
# The responder of a link

`ResponderBehavior` with the bindings of `SimpleResponderBehavior`.  The request and response
handlers are written in a monad that keeps what they do while they run: the registries (only
the counters change at once), the calls of `persist`, and the messages sent directly.  The
effects of a handler that throws remain, as they do in the source.

akka-persistence runs the handlers of all persist calls made while a message is processed
after that processing, in call order and before the next message; `receive` does the same.
A handler that throws, or a response that cannot be processed, stops the actor: `none`.

The sender of an envelope is the routee that `routee(sender.path)` gives for it.  Logging,
metrics, the permission lookup and the snapshot calls of the handlers are left out here.
-/

namespace DsaBroker

/-- What a link is constructed with, and `toString` of the values that are no strings. -/
structure Link where
  linkPath : Str
  render : DSAVal → Str

/-- The registries of a responder. -/
structure ResponderState where
  ridRegistry : RidRegistry
  sidRegistry : SidRegistry
  attributes : Str → Option DSAMap
  listRegistry : Bindings
  subsRegistry : Bindings

def ResponderState.initial : ResponderState :=
  ⟨.fresh, .fresh, fun _ => none, .empty, .empty⟩

/-- A call of `persist` by one of the registries or by `saveAttribute`. -/
inductive PersistCall where
  | rid (event : LookupRidRestoreProcess)
  | sid (event : LookupSidRestoreProcess)
  | saveAttribute (nodePath name : Str) (value : DSAVal)
  | group (call : GroupCallPersist)
deriving DecidableEq

/-- A message being processed: the registries, the persist calls whose handlers are still to
run, and what was sent directly. -/
structure Processing where
  state : ResponderState
  persisted : List PersistCall := []
  sent : List Delivery := []

inductive Thrown where
  | noSuchElement | nullPointer | assertionFailed | matchError
deriving DecidableEq, Repr

abbrev Handling := ExceptT Thrown (StateM Processing)

/-! ### What the handlers can do -/

def registries : Handling ResponderState := do return (← get).state

def persist (call : PersistCall) : Handling Unit :=
  modify fun p => { p with persisted := p.persisted ++ [call] }

def send (deliveries : List Delivery) : Handling Unit :=
  modify fun p => { p with sent := p.sent ++ deliveries }

/-- `ridRegistry.nextTgtId`. -/
def nextTgtRid : Handling Int := do
  let p ← get
  let (tgtId, ridRegistry) := p.state.ridRegistry.nextTgtId
  set { p with state := { p.state with ridRegistry := ridRegistry } }
  return tgtId

/-- `sidRegistry.nextTgtId`. -/
def nextTgtSid : Handling Int := do
  let p ← get
  let (tgtId, sidRegistry) := p.state.sidRegistry.nextTgtId
  set { p with state := { p.state with sidRegistry := sidRegistry } }
  return tgtId

/-- `get`, `head`, `apply`: throws when there is nothing. -/
def getOrThrow (thrown : Thrown) : Option α → Handling α
  | some a => return a
  | none => throw thrown

def saveLookup (method : DSAMethod) (origin : Option Origin) (path : Option Str)
    (tgtId : Int) : Handling Unit := persist (.rid (.saved method origin path tgtId))

def saveListLookup (path : Str) (tgtId : Int) : Handling Unit :=
  saveLookup .list none (some path) tgtId

/-- `require(method == Set || method == Invoke || method == Remove)`. -/
def savePassthroughLookup (method : DSAMethod) (origin : Origin) (tgtId : Int) :
    Handling Unit := do
  if method ≠ .set ∧ method ≠ .invoke ∧ method ≠ .remove then throw .assertionFailed
  saveLookup method (some origin) none tgtId

def saveSubscribeLookup (origin : Origin) (tgtId : Int) : Handling Unit :=
  saveLookup .subscribe (some origin) none tgtId

def saveUnsubscribeLookup (origin : Origin) (tgtId : Int) : Handling Unit :=
  saveLookup .unsubscribe (some origin) none tgtId

def addListOrigin (targetId : Int) (origin : Origin) : Handling Unit :=
  persist (.group (.addOrigin targetId origin .list))

def addSubscribeOrigin (targetId : Int) (origin : Origin) : Handling Unit :=
  persist (.group (.addOrigin targetId origin .subs))

/-- `value.toString`, which throws for `null`. -/
def toText (link : Link) : DSAVal → Handling Str
  | .null => throw .nullPointer
  | .string value => return value
  | value => return link.render value

section Handlers

variable [ScanOrder Int]

/-- `GroupCallRegistry.removeOrigin`: persists what is decided; the target id is returned if
the call record can be removed. -/
def removeOrigin (bindings : Bindings) (origin : Origin) (regTypeVal : RegistryType) :
    Handling (Option Int) :=
  match bindings.removal origin with
  | some (targetId, theLastOne) => do
      persist (.group (.removeOrigin origin regTypeVal targetId theLastOne))
      return if theLastOne then some targetId else none
  | none => return none

def removeListOrigin (origin : Origin) : Handling (Option Int) := do
  removeOrigin (← registries).listRegistry origin .list

def removeSubscribeOrigin (origin : Origin) : Handling (Option Int) := do
  removeOrigin (← registries).subsRegistry origin .subs

/-! ### Request handlers -/

def closedResponse (rid : Int) : DSAResponse := { rid := rid, stream := some .closed }

def addAttributeAction : Str := str "addAttribute"

def setValueAction : Str := str "setValue"

/-- The target RID of a passthrough call, registered for its origin. -/
def passthroughTgtId (sender : Routee) (srcId : Int) (method : DSAMethod) : Handling Int := do
  let tgtId ← nextTgtRid
  savePassthroughLookup method ⟨sender, srcId⟩ tgtId
  return tgtId

def saveAttribute (nodePath name : Str) (value : DSAVal) : Handling Unit :=
  persist (.saveAttribute nodePath name value)

/-- Handles Set request: an attribute of a node is stored by the broker, which answers itself;
anything else is passed through to the link. -/
def handleSetRequest (link : Link) (sender : Routee) (rid : Int) (path : Str) (value : DSAVal)
    (permit : Option Str) : Handling HandlerResult := do
  if isAttribute path then
    let (nodePath, attrName) := splitPath path
    saveAttribute nodePath (← getOrThrow .noSuchElement attrName) value
    return .response (closedResponse rid)
  else
    let tgtId ← passthroughTgtId sender rid .set
    return .request (.set tgtId (translatePath link.linkPath path) value permit)

/-- Handles Remove request: it is passed through to the link, also when it is about an attribute
that the broker stores. -/
def handleRemoveRequest (link : Link) (sender : Routee) (rid : Int) (path : Str) :
    Handling HandlerResult := do
  let tgtId ← passthroughTgtId sender rid .remove
  return .request (.remove tgtId (translatePath link.linkPath path))

/-- INVOKE; the actions `addAttribute` and `setValue` are handled by the broker. -/
def handleInvokeRequest (link : Link) (sender : Routee) (rid : Int) (path : Str)
    (params : DSAMap) (permit : Option Str) : Handling HandlerResult := do
  if endsWith path (slash :: addAttributeAction) then
    let attrName ← toText link (← getOrThrow .noSuchElement (params.get (str "name")))
    let nodePath := dropRight path (addAttributeAction.length + 1)
    saveAttribute nodePath attrName (← getOrThrow .noSuchElement (params.get (str "value")))
    return .response (closedResponse rid)
  else if endsWith path (slash :: setValueAction) then
    let attrPath := dropRight path (setValueAction.length + 1)
    let attrValue ← getOrThrow .noSuchElement (params.get (str "value"))
    let tgtId ← passthroughTgtId sender rid .invoke
    return .request (.set tgtId (translatePath link.linkPath attrPath) attrValue permit)
  else
    let tgtId ← passthroughTgtId sender rid .invoke
    return .request (.invoke tgtId (translatePath link.linkPath path) params permit)

/-- Handles List request: a path that is not listed yet gets a call of its own, otherwise the origin
joins the call of the path; the link is asked in both cases. -/
def handleListRequest (link : Link) (sender : Routee) (rid : Int) (path : Str) :
    Handling HandlerResult := do
  let origin : Origin := ⟨sender, rid⟩
  match (← registries).ridRegistry.lookupByPath path with
  | none =>
      let tgtId ← nextTgtRid
      saveListLookup path tgtId
      addListOrigin tgtId origin
      return .request (.list tgtId (translatePath link.linkPath path))
  | some record =>
      addListOrigin record.targetId origin
      return .request (.list record.targetId (translatePath link.linkPath path))

/-- Handles Subscribe request: a path that is not subscribed yet gets a target SID and a call,
otherwise the origin joins the SID and the request goes out under a target RID that is not saved. -/
def handleSubscribeRequest (link : Link) (sender : Routee) (srcRid : Int)
    (paths : List SubscriptionPath) : Handling HandlerResult := do
  -- to ensure there's only one path (see requester actor)
  let srcPath ← getOrThrow .assertionFailed (onlyElement paths)
  let ridOrigin : Origin := ⟨sender, srcRid⟩
  let sidOrigin : Origin := ⟨sender, srcPath.sid⟩
  match (← registries).sidRegistry.lookupByPath srcPath.path with
  | none =>
      let tgtRid ← nextTgtRid
      saveSubscribeLookup ridOrigin tgtRid
      let tgtSid ← nextTgtSid
      persist (.sid (.saved srcPath.path tgtSid))
      let tgtPath :=
        { srcPath with path := translatePath link.linkPath srcPath.path, sid := tgtSid }
      addSubscribeOrigin tgtSid sidOrigin
      return .request (.subscribe tgtRid [tgtPath])
  | some tgtSid =>
      -- Close and Subscribe response may come out of order, leaving until it's a problem
      addSubscribeOrigin tgtSid sidOrigin
      let tgtRid ← nextTgtRid
      let tgtPath :=
        { srcPath with path := translatePath link.linkPath srcPath.path, sid := tgtSid }
      return .request (.subscribe tgtRid [tgtPath])

/-- Handles Unsubscribe request: with the last origin the SID goes, and the link is told; any other
origin is answered by the broker. -/
def handleUnsubscribeRequest (sender : Routee) (rid : Int) (sids : List Int) :
    Handling HandlerResult := do
  let ridOrigin : Origin := ⟨sender, rid⟩
  let sidOrigin : Origin := ⟨sender, ← getOrThrow .assertionFailed (onlyElement sids)⟩
  match ← removeSubscribeOrigin sidOrigin with
  | some targetSid =>
      persist (.sid (.removed targetSid))
      let tgtRid ← nextTgtRid
      saveUnsubscribeLookup ridOrigin tgtRid
      return .request (.unsubscribe tgtRid [targetSid])
  | none => return .response (closedResponse rid)

/-- `ridRegistry.removeLookup`. -/
def removeLookup (record : LookupRecord) : Handling Unit := persist (.rid (.removed record))

/-- Handles Close request: a passthrough call is closed at the link and stays registered until its
response, a LIST call is closed with its last origin. -/
def handleCloseRequest (sender : Routee) (rid : Int) : Handling HandlerResult := do
  let origin : Origin := ⟨sender, rid⟩
  match (← registries).ridRegistry.lookupByOrigin origin with
  | some record => return .request (.close record.targetId) -- passthrough call
  | none => -- LIST call
      match ← removeListOrigin origin with
      | some targetId =>
          match (← registries).ridRegistry.lookupByTargetId targetId with
          | some record => removeLookup record
          | none => pure ()
          return .request (.close targetId)
      | none => return .empty

/-- Processes request using the appropriate handler. -/
def requestHandler (link : Link) (sender : Routee) : DSARequest → Handling HandlerResult
  | .set rid path value permit => handleSetRequest link sender rid path value permit
  | .remove rid path => handleRemoveRequest link sender rid path
  | .invoke rid path params permit => handleInvokeRequest link sender rid path params permit
  | .list rid path => handleListRequest link sender rid path
  | .subscribe rid paths => handleSubscribeRequest link sender rid paths
  | .unsubscribe rid sids => handleUnsubscribeRequest sender rid sids
  | .close rid => handleCloseRequest sender rid

/-- One request of an envelope: an exception is logged and the result is empty. -/
def processRequest (link : Link) (sender : Routee) (p : Processing) (request : DSARequest) :
    HandlerResult × Processing :=
  match (requestHandler link sender request).run p with
  | (.ok result, p') => (result, p')
  | (.error _, p') => (.empty, p')

/-- Processes the requests and returns requests that need to be forwarded to their
destinations as well as the responses that need to be delivered to the originators. -/
def processRequests (link : Link) (sender : Routee) (p : Processing) :
    List DSARequest → List HandlerResult × Processing
  | [] => ([], p)
  | request :: rest =>
      let (result, p') := processRequest link sender p request
      let (results, p'') := processRequests link sender p' rest
      (result :: results, p'')

end Handlers

/-! ### Response handlers -/

def baseConfig : Str := str "$base"

/-- `linkPath + value.toString`. -/
def underLink (link : Link) (value : DSAVal) : Handling DSAVal :=
  return .string (link.linkPath ++ (← toText link value))

/-- Extracts $base config from an update row; a row that has none stays as it is. -/
def adjustBase (link : Link) : DSAVal → Handling DSAVal
  | .array (.string name :: rest) =>
      if name = baseConfig then do
        let value ← getOrThrow .noSuchElement rest.head?
        return .array [.string baseConfig, ← underLink link value]
      else return .array (.string name :: rest)
  | .map value =>
      match DSAMap.get value baseConfig with
      | some base => return .map (DSAMap.updated value baseConfig (← underLink link base))
      | none => return .map value
  | row => return row

/-- Sends each response of a call registry in an envelope of its own. -/
def sendEach (results : List (Routee × DSAResponse)) : Handling Unit :=
  send (results.map fun result => ⟨result.1, [result.2]⟩)

/-- `results groupBy (_._1) mapValues (_.map(_._2))`. -/
def groupByTarget (results : List (Routee × DSAResponse)) : List Delivery :=
  let targets := results.foldl
    (fun targets result => if result.1 ∈ targets then targets else targets ++ [result.1]) []
  targets.map fun target =>
    ⟨target, (results.filter fun result => result.1 = target).map Prod.snd⟩

def deliverList (rsp : DSAResponse) : Handling Unit := do
  let p ← get
  let delivered := p.state.listRegistry.deliverListResponse rsp
  set { p with
    state := { p.state with listRegistry := delivered.bindings }
    persisted := p.persisted ++ delivered.persisted.map PersistCall.group }
  sendEach delivered.sent

def deliverSubscribe (rsp : DSAResponse) : Handling Unit := do
  let p ← get
  let delivered ← getOrThrow .matchError (p.state.subsRegistry.deliverSubscribeResponse rsp)
  set { p with
    state := { p.state with subsRegistry := delivered.bindings }
    persisted := p.persisted ++ delivered.persisted.map PersistCall.group }
  send (groupByTarget delivered.sent)

/-- Forwards response to the recipients and returns nothing. -/
def handleSubscribeResponse (rsp : DSAResponse) : Handling (List (Routee × DSAResponse)) := do
  deliverSubscribe rsp
  return []

/-- If the response is for LIST request, forwards it to the list router. Otherwise translates
the response's RID and returns to be sent to the requester. -/
def handleNonSubscribeResponse (link : Link) (rsp : DSAResponse) :
    Handling (List (Routee × DSAResponse)) := do
  let s ← registries
  match s.ridRegistry.lookupByTargetId rsp.rid with
  | some ⟨.list, _, _, some path⟩ =>
      -- add stored attributes for this path
      let attrUpdates := ((s.attributes path).getD []).map fun entry =>
        DSAVal.array [.string entry.1, entry.2]
      -- adjust $base
      let oldUpdates ← (rsp.updates.getD []).mapM (adjustBase link)
      deliverList { rsp with updates := some (oldUpdates ++ attrUpdates) }
      return []
  | some ⟨method, targetId, some origin, path⟩ =>
      if rsp.stream = some .closed then
        removeLookup ⟨method, targetId, some origin, path⟩
      return [(origin.source, { rsp with rid := origin.sourceId })]
  | _ => return []

def responseHandler (link : Link) (rsp : DSAResponse) :
    Handling (List (Routee × DSAResponse)) :=
  if rsp.rid = 0 then handleSubscribeResponse rsp else handleNonSubscribeResponse link rsp

/-- Processes the responses and returns the translated ones with their destinations. -/
def processResponses (link : Link) : List DSAResponse → Handling (List (Routee × DSAResponse))
  | [] => return []
  | rsp :: rest => do
      let results ← responseHandler link rsp
      return results ++ (← processResponses link rest)

/-! ### Handlers of persisted events -/

def addAttribute (attributes : Str → Option DSAMap) (nodePath name : Str) (value : DSAVal) :
    Str → Option DSAMap :=
  Function.update attributes nodePath
    (some (DSAMap.updated ((attributes nodePath).getD []) name value))

/-- The registry that a group call works on. -/
def ResponderState.bindings (s : ResponderState) : RegistryType → Bindings
  | .subs => s.subsRegistry
  | _ => s.listRegistry

def ResponderState.setBindings (s : ResponderState) (regTypeVal : RegistryType)
    (bindings : Bindings) : ResponderState :=
  match regTypeVal with
  | .subs => { s with subsRegistry := bindings }
  | _ => { s with listRegistry := bindings }

/-- The handler of one persist call: the registries after it and what it sends. -/
def handlePersisted (s : ResponderState) : PersistCall →
    Option (ResponderState × List Delivery)
  | .rid event => some ({ s with ridRegistry := s.ridRegistry.handle event }, [])
  | .sid event =>
      (s.sidRegistry.handle event).map fun sidRegistry =>
        ({ s with sidRegistry := sidRegistry }, [])
  | .saveAttribute nodePath name value =>
      some ({ s with attributes := addAttribute s.attributes nodePath name value }, [])
  | .group call =>
      ((s.bindings call.regTypeVal).handle call).map fun result =>
        (s.setBindings call.regTypeVal result.1, result.2)

def runHandlers (s : ResponderState) : List PersistCall →
    Option (ResponderState × List Delivery)
  | [] => some (s, [])
  | call :: rest =>
      (handlePersisted s call).bind fun first =>
        (runHandlers first.1 rest).map fun later => (later.1, first.2 ++ later.2)

/-! ### Messages -/

inductive ResponderMessage where
  | requestEnvelope (sender : Routee) (requests : List DSARequest)
  | responseMessage (responses : List DSAResponse)

/-- A processed message whose persist handlers have run. -/
structure Outcome where
  state : ResponderState
  toEndpoint : List (List DSARequest) := []
  sent : List Delivery := []
  persisted : List PersistCall := []

/-- Runs the persist handlers of a processed message. -/
def complete (p : Processing) (toEndpoint : List (List DSARequest)) (sent : List Delivery) :
    Option Outcome :=
  (runHandlers p.state p.persisted).map fun result =>
    { state := result.1
      toEndpoint := toEndpoint
      sent := p.sent ++ sent ++ result.2
      persisted := p.persisted }

/-- Processes incoming requests and responses. -/
def receive [ScanOrder Int] (link : Link) (s : ResponderState) :
    ResponderMessage → Option Outcome
  | .requestEnvelope sender requests =>
      let (results, p) := processRequests link sender { state := s } requests
      let result := HandlerResult.flatten results
      complete p (if result.requests = [] then [] else [result.requests])
        (if result.responses = [] then [] else [⟨sender, result.responses⟩])
  | .responseMessage responses =>
      match (processResponses link responses).run { state := s } with
      | (.ok results, p) => complete p [] (groupByTarget results)
      | (.error _, _) => none

/-! ### A link, two requesters and a path, for examples -/

def linkR : Link := ⟨str "/downstream/R", fun _ => []⟩

def requesterA : Routee := .actorSelection (str "/user/downstream/A")

def requesterB : Routee := .actorSelection (str "/user/downstream/B")

def blah : Str := str "/downstream/R/blah"

end DsaBroker
