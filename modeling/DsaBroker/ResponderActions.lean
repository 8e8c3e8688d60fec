import DsaBroker.DeferredEffects
import DsaBroker.ResponderBehavior

/-!
# What a request makes the responder do

The request handlers in closed form.  What a handler does is decided by what it looks up
(`lookups`); the possibilities are the constructors of `Action`, and each says which target
ids are issued, which persist calls are made and what is forwarded or answered.
`processRequest_eq` says that the handlers of `ResponderBehavior` do just this, and nothing
else: a request changes nothing but the counters before its persist handlers run.

So an envelope is a batch of commands with deferred effects (`responderSystem`), and the
rules of `DeferredEffects` apply to it.
-/

namespace DsaBroker

/-! ### Running handlers -/

@[simp] theorem run_bind (x : Handling α) (f : α → Handling β) (p : Processing) :
    (x >>= f).run p =
      match x.run p with
      | (.ok a, p') => (f a).run p'
      | (.error thrown, p') => (.error thrown, p') := by
  have h : (x >>= f).run p = ExceptT.bindCont f (x.run p).1 (x.run p).2 := rfl
  rw [h]
  rcases x.run p with ⟨_ | a, p'⟩ <;> rfl

@[simp] theorem run_pure (a : α) (p : Processing) : (pure a : Handling α).run p = (.ok a, p) :=
  rfl

@[simp] theorem run_throw (thrown : Thrown) (p : Processing) :
    (throw thrown : Handling α).run p = (.error thrown, p) := rfl

@[simp] theorem run_registries (p : Processing) : registries.run p = (.ok p.state, p) := rfl

@[simp] theorem run_persist (call : PersistCall) (p : Processing) :
    (persist call).run p = (.ok (), { p with persisted := p.persisted ++ [call] }) := rfl

namespace ResponderState

/-- The target RID that is issued next. -/
def nextRid (s : ResponderState) : Int := s.ridRegistry.nextTargetId.value

/-- The target SID that is issued next. -/
def nextSid (s : ResponderState) : Int := s.sidRegistry.targetSids.value

def issueRid (s : ResponderState) : ResponderState :=
  { s with ridRegistry := s.ridRegistry.nextTgtId.2 }

def issueSid (s : ResponderState) : ResponderState :=
  { s with sidRegistry := s.sidRegistry.nextTgtId.2 }

end ResponderState

@[simp] theorem run_nextTgtRid (p : Processing) :
    nextTgtRid.run p = (.ok p.state.nextRid, { p with state := p.state.issueRid }) := rfl

@[simp] theorem run_nextTgtSid (p : Processing) :
    nextTgtSid.run p = (.ok p.state.nextSid, { p with state := p.state.issueSid }) := rfl

@[simp] theorem run_getOrThrow_some (thrown : Thrown) (a : α) (p : Processing) :
    (getOrThrow thrown (some a)).run p = (.ok a, p) := rfl

@[simp] theorem run_getOrThrow_none (thrown : Thrown) (p : Processing) :
    (getOrThrow thrown (none : Option α)).run p = (.error thrown, p) := rfl

/-! ### Lookups and actions -/

/-- What the handler of a request finds in the registries. -/
structure Lookups where
  /-- the target RID of a LIST of the path -/
  listCall : Option Int := none
  /-- the target SID for the path -/
  subscription : Option Int := none
  /-- the target RID of the origin's own call -/
  call : Option Int := none
  /-- the binding that holds the origin, and whether the origin is its only one -/
  removal : Option (Int × Bool) := none
  /-- the call record under the target RID that lost its last origin -/
  record : Option LookupRecord := none
deriving DecidableEq

/-- The lookups of a request. -/
def lookups [ScanOrder Int] (s : ResponderState) (sender : Routee) : DSARequest → Lookups
  | .list _ path =>
      { listCall := (s.ridRegistry.lookupByPath path).map LookupRecord.targetId }
  | .subscribe _ paths =>
      { subscription := (onlyElement paths).bind fun srcPath =>
          s.sidRegistry.lookupByPath srcPath.path }
  | .unsubscribe _ sids =>
      { removal := (onlyElement sids).bind fun sid => s.subsRegistry.removal ⟨sender, sid⟩ }
  | .close rid =>
      match s.ridRegistry.lookupByOrigin ⟨sender, rid⟩ with
      | some record => { call := some record.targetId }
      | none =>
          match s.listRegistry.removal ⟨sender, rid⟩ with
          | some (targetId, true) =>
              { removal := some (targetId, true)
                record := s.ridRegistry.lookupByTargetId targetId }
          | found => { removal := found }
  | _ => {}

inductive Action where
  /-- the request throws, or closes nothing -/
  | nothing
  /-- UNSUBSCRIBE of what is not subscribed -/
  | answer (rid : Int)
  | saveAttribute (rid : Int) (nodePath name : Str) (value : DSAVal)
  | passthrough (method : DSAMethod) (origin : Origin) (forward : Int → DSARequest)
  | listNew (path : Str) (origin : Origin) (tgtPath : Str)
  | listKnown (targetId : Int) (origin : Origin) (tgtPath : Str)
  | subscribeNew (ridOrigin sidOrigin : Origin) (srcPath : SubscriptionPath) (tgtPath : Str)
  | subscribeKnown (tgtSid : Int) (sidOrigin : Origin) (srcPath : SubscriptionPath)
      (tgtPath : Str)
  | unsubscribeLast (ridOrigin sidOrigin : Origin) (targetSid : Int)
  | unsubscribeOther (rid : Int) (sidOrigin : Origin) (targetSid : Int)
  | closeCall (targetId : Int)
  | closeListLast (origin : Origin) (targetId : Int) (record : Option LookupRecord)
  | closeListOther (origin : Origin) (targetId : Int)

/-- The text of a parameter, if it is not `null`. -/
def textOf (link : Link) : DSAVal → Option Str
  | .null => none
  | .string value => some value
  | value => some (link.render value)

/-- What a request amounts to, given what its handler looks up. -/
def actionOf (link : Link) (sender : Routee) (l : Lookups) : DSARequest → Action
  | .set rid path value permit =>
      if isAttribute path then
        match splitPath path with
        | (nodePath, some name) => .saveAttribute rid nodePath name value
        | (_, none) => .nothing
      else
        .passthrough .set ⟨sender, rid⟩ fun tgtId =>
          .set tgtId (translatePath link.linkPath path) value permit
  | .remove rid path =>
      .passthrough .remove ⟨sender, rid⟩ fun tgtId =>
        .remove tgtId (translatePath link.linkPath path)
  | .invoke rid path params permit =>
      if endsWith path (slash :: addAttributeAction) then
        match (params.get (str "name")).bind (textOf link), params.get (str "value") with
        | some name, some value =>
            .saveAttribute rid (dropRight path (addAttributeAction.length + 1)) name value
        | _, _ => .nothing
      else if endsWith path (slash :: setValueAction) then
        match params.get (str "value") with
        | some value =>
            .passthrough .invoke ⟨sender, rid⟩ fun tgtId =>
              .set tgtId
                (translatePath link.linkPath (dropRight path (setValueAction.length + 1)))
                value permit
        | none => .nothing
      else
        .passthrough .invoke ⟨sender, rid⟩ fun tgtId =>
          .invoke tgtId (translatePath link.linkPath path) params permit
  | .list rid path =>
      match l.listCall with
      | none => .listNew path ⟨sender, rid⟩ (translatePath link.linkPath path)
      | some targetId => .listKnown targetId ⟨sender, rid⟩ (translatePath link.linkPath path)
  | .subscribe rid paths =>
      match onlyElement paths with
      | none => .nothing
      | some srcPath =>
          match l.subscription with
          | none =>
              .subscribeNew ⟨sender, rid⟩ ⟨sender, srcPath.sid⟩ srcPath
                (translatePath link.linkPath srcPath.path)
          | some tgtSid =>
              .subscribeKnown tgtSid ⟨sender, srcPath.sid⟩ srcPath
                (translatePath link.linkPath srcPath.path)
  | .unsubscribe rid sids =>
      match onlyElement sids with
      | none => .nothing
      | some sid =>
          match l.removal with
          | some (targetSid, true) => .unsubscribeLast ⟨sender, rid⟩ ⟨sender, sid⟩ targetSid
          | some (targetSid, false) => .unsubscribeOther rid ⟨sender, sid⟩ targetSid
          | none => .answer rid
  | .close rid =>
      match l.call with
      | some targetId => .closeCall targetId
      | none =>
          match l.removal with
          | some (targetId, true) => .closeListLast ⟨sender, rid⟩ targetId l.record
          | some (targetId, false) => .closeListOther ⟨sender, rid⟩ targetId
          | none => .nothing

namespace Action

/-- Whether a target RID, and whether a target SID is issued. -/
def issues : Action → Bool × Bool
  | passthrough .. | listNew .. | subscribeKnown .. | unsubscribeLast .. => (true, false)
  | subscribeNew .. => (true, true)
  | _ => (false, false)

/-- The persist calls, given the ids that are issued. -/
def effects (rid sid : Int) : Action → List PersistCall
  | saveAttribute _ nodePath name value => [.saveAttribute nodePath name value]
  | passthrough method origin _ => [.rid (.saved method (some origin) none rid)]
  | listNew path origin _ =>
      [.rid (.saved .list none (some path) rid), .group (.addOrigin rid origin .list)]
  | listKnown targetId origin _ => [.group (.addOrigin targetId origin .list)]
  | subscribeNew ridOrigin sidOrigin srcPath _ =>
      [.rid (.saved .subscribe (some ridOrigin) none rid), .sid (.saved srcPath.path sid),
        .group (.addOrigin sid sidOrigin .subs)]
  | subscribeKnown tgtSid sidOrigin _ _ => [.group (.addOrigin tgtSid sidOrigin .subs)]
  | unsubscribeLast ridOrigin sidOrigin targetSid =>
      [.group (.removeOrigin sidOrigin .subs targetSid true), .sid (.removed targetSid),
        .rid (.saved .unsubscribe (some ridOrigin) none rid)]
  | unsubscribeOther _ sidOrigin targetSid =>
      [.group (.removeOrigin sidOrigin .subs targetSid false)]
  | closeListLast origin targetId record =>
      .group (.removeOrigin origin .list targetId true) ::
        record.toList.map fun record => .rid (.removed record)
  | closeListOther origin targetId => [.group (.removeOrigin origin .list targetId false)]
  | nothing | answer _ | closeCall _ => []

/-- What is forwarded and what is answered. -/
def result (rid sid : Int) : Action → HandlerResult
  | nothing | closeListOther .. => .empty
  | answer srcRid | saveAttribute srcRid .. | unsubscribeOther srcRid .. =>
      .response (closedResponse srcRid)
  | passthrough _ _ forward => .request (forward rid)
  | listNew _ _ tgtPath => .request (.list rid tgtPath)
  | listKnown targetId _ tgtPath => .request (.list targetId tgtPath)
  | subscribeNew _ _ srcPath tgtPath =>
      .request (.subscribe rid [{ srcPath with path := tgtPath, sid := sid }])
  | subscribeKnown tgtSid _ srcPath tgtPath =>
      .request (.subscribe rid [{ srcPath with path := tgtPath, sid := tgtSid }])
  | unsubscribeLast _ _ targetSid => .request (.unsubscribe rid [targetSid])
  | closeCall targetId | closeListLast _ targetId _ => .request (.close targetId)

end Action

/-- The counters after issuing. -/
def ResponderState.advance (issues : Bool × Bool) (s : ResponderState) : ResponderState :=
  let s := if issues.1 then s.issueRid else s
  if issues.2 then s.issueSid else s

section

variable (issues : Bool × Bool) (s : ResponderState)

@[simp] theorem listRegistry_advance : (s.advance issues).listRegistry = s.listRegistry := by
  rcases issues with ⟨_ | _, _ | _⟩ <;> rfl

@[simp] theorem bindings_advance (regTypeVal : RegistryType) :
    (s.advance issues).bindings regTypeVal = s.bindings regTypeVal := by
  rcases issues with ⟨_ | _, _ | _⟩ <;> cases regTypeVal <;> rfl

@[simp] theorem callsByTargetId_advance :
    (s.advance issues).ridRegistry.callsByTargetId = s.ridRegistry.callsByTargetId := by
  rcases issues with ⟨_ | _, _ | _⟩ <;> rfl

@[simp] theorem callsByPath_advance :
    (s.advance issues).ridRegistry.callsByPath = s.ridRegistry.callsByPath := by
  rcases issues with ⟨_ | _, _ | _⟩ <;> rfl

@[simp] theorem pathBySid_advance :
    (s.advance issues).sidRegistry.pathBySid = s.sidRegistry.pathBySid := by
  rcases issues with ⟨_ | _, _ | _⟩ <;> rfl

@[simp] theorem sidByPath_advance :
    (s.advance issues).sidRegistry.sidByPath = s.sidRegistry.sidByPath := by
  rcases issues with ⟨_ | _, _ | _⟩ <;> rfl

end

/-- The processing of a message after an action. -/
def Processing.after (p : Processing) (a : Action) : Processing :=
  { p with
    state := p.state.advance a.issues
    persisted := p.persisted ++ a.effects p.state.nextRid p.state.nextSid }

/-! ### The handlers do what the actions say -/

@[simp] theorem Processing.after_nothing (p : Processing) : p.after .nothing = p := by
  simp [Processing.after, Action.issues, Action.effects, ResponderState.advance]

theorem run_toText (link : Link) (value : DSAVal) (p : Processing) :
    (toText link value).run p =
      match textOf link value with
      | some text => (.ok text, p)
      | none => (.error .nullPointer, p) := by
  cases value <;> rfl

theorem run_passthroughTgtId (sender : Routee) (rid : Int) {method : DSAMethod} (p : Processing)
    (hmethod : method = .set ∨ method = .invoke ∨ method = .remove) :
    (passthroughTgtId sender rid method).run p =
      (.ok p.state.nextRid,
        { p with
          state := p.state.issueRid
          persisted := p.persisted ++
            [.rid (.saved method (some ⟨sender, rid⟩) none p.state.nextRid)] }) := by
  rcases hmethod with rfl | rfl | rfl <;> rfl

/-- How the result of a handler enters the result of the envelope. -/
def Performs (handler : Handling HandlerResult) (p : Processing) (a : Action) : Prop :=
  (∃ thrown, handler.run p = (.error thrown, p) ∧ a = .nothing) ∨
    handler.run p = (.ok (a.result p.state.nextRid p.state.nextSid), p.after a)

theorem performs_set (link : Link) (sender : Routee) (p : Processing) (rid : Int) (path : Str)
    (value : DSAVal) (permit : Option Str) (l : Lookups) :
    Performs (handleSetRequest link sender rid path value permit) p
      (actionOf link sender l (.set rid path value permit)) := by
  simp only [Performs, handleSetRequest, actionOf]
  by_cases hattribute : isAttribute path = true
  · simp only [hattribute, if_true]
    rcases hsplit : splitPath path with ⟨nodePath, _ | name⟩
    · left
      exact ⟨.noSuchElement, by simp only [run_bind, run_getOrThrow_none], rfl⟩
    · right
      simp only [run_bind, run_getOrThrow_some, saveAttribute, run_persist, run_pure]
      rfl
  · right
    simp only [hattribute, Bool.false_eq_true, if_false, run_bind, run_pure,
      run_passthroughTgtId sender rid p (Or.inl rfl)]
    rfl

theorem performs_remove (link : Link) (sender : Routee) (p : Processing) (rid : Int) (path : Str)
    (l : Lookups) :
    Performs (handleRemoveRequest link sender rid path) p
      (actionOf link sender l (.remove rid path)) := by
  right
  simp only [handleRemoveRequest, actionOf, run_bind, run_pure,
    run_passthroughTgtId sender rid p (Or.inr (Or.inr rfl))]
  rfl

theorem performs_invoke (link : Link) (sender : Routee) (p : Processing) (rid : Int) (path : Str)
    (params : DSAMap) (permit : Option Str) (l : Lookups) :
    Performs (handleInvokeRequest link sender rid path params permit) p
      (actionOf link sender l (.invoke rid path params permit)) := by
  simp only [Performs, handleInvokeRequest, actionOf]
  by_cases hadd : endsWith path (slash :: addAttributeAction) = true
  · simp only [hadd, if_true]
    cases hname : params.get (str "name") with
    | none =>
      left
      exact ⟨.noSuchElement, by simp only [run_bind, run_getOrThrow_none], rfl⟩
    | some nameValue =>
      simp only [run_bind, run_getOrThrow_some, run_toText, Option.bind_some]
      cases textOf link nameValue with
      | none => exact Or.inl ⟨.nullPointer, rfl, rfl⟩
      | some name =>
        cases hvalue : params.get (str "value") with
        | none => exact Or.inl ⟨.noSuchElement, rfl, rfl⟩
        | some value => exact Or.inr rfl
  · by_cases hset : endsWith path (slash :: setValueAction) = true
    · simp only [hadd, hset, Bool.false_eq_true, if_false, if_true]
      cases hvalue : params.get (str "value") with
      | none =>
        left
        exact ⟨.noSuchElement, by simp only [run_bind, run_getOrThrow_none], rfl⟩
      | some value =>
        right
        simp only [run_bind, run_getOrThrow_some, run_pure,
          run_passthroughTgtId sender rid p (Or.inr (Or.inl rfl))]
        rfl
    · right
      simp only [hadd, hset, Bool.false_eq_true, if_false, run_bind, run_pure,
        run_passthroughTgtId sender rid p (Or.inr (Or.inl rfl))]
      rfl

section

variable [ScanOrder Int]

theorem performs_list (link : Link) (sender : Routee) (p : Processing) (rid : Int) (path : Str) :
    Performs (handleListRequest link sender rid path) p
      (actionOf link sender (lookups p.state sender (.list rid path)) (.list rid path)) := by
  right
  simp only [handleListRequest, actionOf, lookups, run_bind, run_registries]
  cases p.state.ridRegistry.lookupByPath path with
  | none =>
    simp only [run_bind, run_nextTgtRid, saveListLookup, saveLookup, addListOrigin, run_persist,
      run_pure, List.append_assoc]
    rfl
  | some record =>
    simp only [run_bind, addListOrigin, run_persist, run_pure]
    rfl

theorem performs_subscribe (link : Link) (sender : Routee) (p : Processing) (rid : Int)
    (paths : List SubscriptionPath) :
    Performs (handleSubscribeRequest link sender rid paths) p
      (actionOf link sender (lookups p.state sender (.subscribe rid paths))
        (.subscribe rid paths)) := by
  simp only [Performs, handleSubscribeRequest, actionOf, lookups]
  cases onlyElement paths with
  | none =>
    left
    exact ⟨.assertionFailed, by simp only [run_bind, run_getOrThrow_none], rfl⟩
  | some srcPath =>
    right
    simp only [run_bind, run_getOrThrow_some, run_registries, Option.bind_some]
    cases p.state.sidRegistry.lookupByPath srcPath.path with
    | none =>
      simp only [run_bind, run_nextTgtRid, run_nextTgtSid, saveSubscribeLookup, saveLookup,
        addSubscribeOrigin, run_persist, run_pure, List.append_assoc]
      rfl
    | some tgtSid =>
      simp only [run_bind, run_nextTgtRid, addSubscribeOrigin, run_persist, run_pure]
      rfl

theorem run_removeOrigin (bindings : Bindings) (origin : Origin) (regTypeVal : RegistryType)
    (p : Processing) :
    (removeOrigin bindings origin regTypeVal).run p =
      match bindings.removal origin with
      | some (targetId, theLastOne) =>
          (.ok (if theLastOne then some targetId else none),
            { p with persisted := p.persisted ++
                [.group (.removeOrigin origin regTypeVal targetId theLastOne)] })
      | none => (.ok none, p) := by
  simp only [removeOrigin]
  rcases bindings.removal origin with _ | ⟨targetId, theLastOne⟩
  · rfl
  · simp only [run_bind, run_persist, run_pure]

theorem performs_unsubscribe (link : Link) (sender : Routee) (p : Processing) (rid : Int)
    (sids : List Int) :
    Performs (handleUnsubscribeRequest sender rid sids) p
      (actionOf link sender (lookups p.state sender (.unsubscribe rid sids))
        (.unsubscribe rid sids)) := by
  simp only [Performs, handleUnsubscribeRequest, actionOf, lookups]
  cases onlyElement sids with
  | none =>
    left
    exact ⟨.assertionFailed, by simp only [run_bind, run_getOrThrow_none], rfl⟩
  | some sid =>
    right
    simp only [run_bind, run_getOrThrow_some, removeSubscribeOrigin, run_registries,
      run_removeOrigin, Option.bind_some]
    rcases p.state.subsRegistry.removal ⟨sender, sid⟩ with _ | ⟨targetSid, _ | _⟩
    · simp only [run_pure]
      rw [Processing.after]
      simp [Action.result, Action.issues, Action.effects, ResponderState.advance]
    · rfl
    · simp only [if_true, run_bind, run_persist, run_nextTgtRid, saveUnsubscribeLookup,
        saveLookup, run_pure, List.append_assoc]
      rfl

theorem performs_close (link : Link) (sender : Routee) (p : Processing) (rid : Int) :
    Performs (handleCloseRequest sender rid) p
      (actionOf link sender (lookups p.state sender (.close rid)) (.close rid)) := by
  right
  simp only [handleCloseRequest, actionOf, lookups, run_bind, run_registries]
  cases p.state.ridRegistry.lookupByOrigin ⟨sender, rid⟩ with
  | some record =>
    simp only [run_pure]
    rw [Processing.after]
    simp [Action.result, Action.issues, Action.effects, ResponderState.advance]
  | none =>
    simp only [run_bind, removeListOrigin, run_registries, run_removeOrigin]
    rcases p.state.listRegistry.removal ⟨sender, rid⟩ with _ | ⟨targetId, _ | _⟩
    · simp only [run_pure, Processing.after_nothing]
      rfl
    · rfl
    · simp only [if_true, run_bind, run_registries]
      cases p.state.ridRegistry.lookupByTargetId targetId with
      | none => rfl
      | some record =>
        simp only [removeLookup, run_bind, run_persist, run_pure, List.append_assoc]
        rfl

/-- What one request of an envelope amounts to. -/
def requestAction (link : Link) (sender : Routee) (s : ResponderState) (request : DSARequest) :
    Action := actionOf link sender (lookups s sender request) request

/-- What the registries hold when an action is decided. -/
def Action.Found (s : ResponderState) : Action → Prop
  | passthrough method _ _ => method = .set ∨ method = .remove ∨ method = .invoke
  | listNew path _ _ => s.ridRegistry.lookupByPath path = none
  | listKnown targetId _ _ =>
      ∃ path record, s.ridRegistry.lookupByPath path = some record ∧ record.targetId = targetId
  | subscribeNew _ _ srcPath _ => s.sidRegistry.lookupByPath srcPath.path = none
  | subscribeKnown tgtSid _ srcPath _ => s.sidRegistry.lookupByPath srcPath.path = some tgtSid
  | unsubscribeLast _ sidOrigin targetSid =>
      s.subsRegistry.removal sidOrigin = some (targetSid, true)
  | unsubscribeOther _ sidOrigin targetSid =>
      s.subsRegistry.removal sidOrigin = some (targetSid, false)
  | closeCall targetId =>
      ∃ origin record, s.ridRegistry.lookupByOrigin origin = some record ∧
        record.targetId = targetId
  | closeListLast origin targetId record =>
      s.listRegistry.removal origin = some (targetId, true) ∧
        record = s.ridRegistry.lookupByTargetId targetId
  | closeListOther origin targetId => s.listRegistry.removal origin = some (targetId, false)
  | _ => True

/-- The action of a request says what was found in the registries at its turn; the effects, which
are performed later, are carried out on this. -/
theorem requestAction_found (link : Link) (sender : Routee) (s : ResponderState)
    (request : DSARequest) : (requestAction link sender s request).Found s := by
  rcases request with ⟨rid, path⟩ | ⟨rid, path, value, permit⟩ | ⟨rid, path⟩ |
    ⟨rid, path, params, permit⟩ | ⟨rid, paths⟩ | ⟨rid, sids⟩ | rid
  · simp only [requestAction, lookups, actionOf]
    cases hlookup : s.ridRegistry.lookupByPath path with
    | none => exact hlookup
    | some record => exact ⟨path, record, hlookup, rfl⟩
  · simp only [requestAction, actionOf]
    split
    · split <;> exact trivial
    · exact Or.inl rfl
  · exact Or.inr (Or.inl rfl)
  · simp only [requestAction, actionOf]
    split
    · split <;> exact trivial
    · split
      · split
        · exact Or.inr (Or.inr rfl)
        · exact trivial
      · exact Or.inr (Or.inr rfl)
  · simp only [requestAction, lookups, actionOf]
    cases onlyElement paths with
    | none => exact trivial
    | some srcPath =>
      simp only [Option.bind_some]
      cases hlookup : s.sidRegistry.lookupByPath srcPath.path with
      | none => exact hlookup
      | some tgtSid => exact hlookup
  · simp only [requestAction, lookups, actionOf]
    cases onlyElement sids with
    | none => exact trivial
    | some sid =>
      simp only [Option.bind_some]
      rcases hremoval : s.subsRegistry.removal ⟨sender, sid⟩ with _ | ⟨targetSid, _ | _⟩
      · exact trivial
      · exact hremoval
      · exact hremoval
  · simp only [requestAction, lookups, actionOf]
    cases hlookup : s.ridRegistry.lookupByOrigin ⟨sender, rid⟩ with
    | some record => exact ⟨_, record, hlookup, rfl⟩
    | none =>
      rcases hremoval : s.listRegistry.removal ⟨sender, rid⟩ with _ | ⟨targetId, _ | _⟩
      · exact trivial
      · exact hremoval
      · exact ⟨hremoval, rfl⟩

theorem performs_request (link : Link) (sender : Routee) (p : Processing)
    (request : DSARequest) :
    Performs (requestHandler link sender request) p
      (requestAction link sender p.state request) := by
  cases request with
  | set rid path value permit => exact performs_set ..
  | remove rid path => exact performs_remove ..
  | invoke rid path params permit => exact performs_invoke ..
  | list rid path => exact performs_list ..
  | subscribe rid paths => exact performs_subscribe ..
  | unsubscribe rid sids => exact performs_unsubscribe ..
  | close rid => exact performs_close ..

/-- **One request does what its action says.** -/
theorem processRequest_eq (link : Link) (sender : Routee) (p : Processing)
    (request : DSARequest) :
    processRequest link sender p request =
      ((requestAction link sender p.state request).result p.state.nextRid p.state.nextSid,
        p.after (requestAction link sender p.state request)) := by
  unfold processRequest
  rcases performs_request link sender p request with ⟨thrown, hrun, hnothing⟩ | hrun
  · rw [hrun, hnothing, Processing.after_nothing]
    rfl
  · rw [hrun]

end

/-! ### Persist handlers and counters -/

/-- A handler neither reads nor changes the counters. -/
theorem handlePersisted_advance (issues : Bool × Bool) (s : ResponderState)
    (call : PersistCall) :
    handlePersisted (s.advance issues) call =
      (handlePersisted s call).map fun r => (r.1.advance issues, r.2) := by
  obtain ⟨issuesRid, issuesSid⟩ := issues
  cases call with
  | rid event => cases issuesRid <;> cases issuesSid <;> cases event <;> rfl
  | sid event =>
    cases event with
    | saved path tgtId => cases issuesRid <;> cases issuesSid <;> rfl
    | removed tgtId =>
      simp only [handlePersisted, SidRegistry.handle, SidRegistry.internalRemoveLookup,
        pathBySid_advance]
      cases s.sidRegistry.pathBySid tgtId with
      | none => rfl
      | some path => cases issuesRid <;> cases issuesSid <;> rfl
  | saveAttribute nodePath name value => cases issuesRid <;> cases issuesSid <;> rfl
  | group call =>
    simp only [handlePersisted, bindings_advance]
    cases (s.bindings call.regTypeVal).handle call with
    | none => rfl
    | some r => cases issuesRid <;> cases issuesSid <;> cases call.regTypeVal <;> rfl

theorem handlePersisted_counters {s : ResponderState} {call : PersistCall}
    {r : ResponderState × List Delivery} (h : handlePersisted s call = some r) :
    r.1.nextRid = s.nextRid ∧ r.1.nextSid = s.nextSid := by
  cases call with
  | rid event =>
    cases h
    refine ⟨?_, rfl⟩
    simp only [ResponderState.nextRid, RidRegistry.handle_nextTargetId]
  | sid event =>
    cases event with
    | saved path tgtId => cases h; exact ⟨rfl, rfl⟩
    | removed tgtId =>
      simp only [handlePersisted, SidRegistry.handle, Option.map_eq_some_iff] at h
      obtain ⟨sids, hsids, rfl⟩ := h
      obtain ⟨_, _, hcounter, _⟩ := SidRegistry.internalRemoveLookup_eq_some hsids
      refine ⟨rfl, ?_⟩
      simp only [ResponderState.nextSid, hcounter]
  | saveAttribute nodePath name value => cases h; exact ⟨rfl, rfl⟩
  | group call =>
    simp only [handlePersisted, Option.map_eq_some_iff] at h
    obtain ⟨result, _, rfl⟩ := h
    cases call.regTypeVal <;> exact ⟨rfl, rfl⟩

theorem runHandlers_counters {calls : List PersistCall} {s : ResponderState}
    {r : ResponderState × List Delivery} (h : runHandlers s calls = some r) :
    r.1.nextRid = s.nextRid ∧ r.1.nextSid = s.nextSid := by
  induction calls generalizing s r with
  | nil => cases h; exact ⟨rfl, rfl⟩
  | cons call rest ih =>
    simp only [runHandlers, Option.bind_eq_some_iff, Option.map_eq_some_iff] at h
    obtain ⟨first, hfirst, later, hlater, rfl⟩ := h
    obtain ⟨hrid, hsid⟩ := handlePersisted_counters hfirst
    obtain ⟨hrid', hsid'⟩ := ih hlater
    exact ⟨hrid'.trans hrid, hsid'.trans hsid⟩

/-! ### An envelope is a batch with deferred effects -/

/-- The responses of a delivery, each with its recipient. -/
def Delivery.each (d : Delivery) : List (Routee × DSAResponse) :=
  d.responses.map fun rsp => (d.target, rsp)

section

variable [ScanOrder Int]

/-- The responder as a system with deferred effects, for the requests of one sender. -/
def responderSystem (link : Link) (sender : Routee) :
    DeferredSystem ResponderState DSARequest (Bool × Bool) PersistCall DSARequest
      (Routee × DSAResponse) where
  advance := ResponderState.advance
  decide s request :=
    let a := requestAction link sender s request
    let result := a.result s.nextRid s.nextSid
    { advances := a.issues
      effects := a.effects s.nextRid s.nextSid
      forwarded := result.requests
      answered := result.responses.map fun rsp => (sender, rsp) }
  perform s call := (handlePersisted s call).map fun r => (r.1, r.2.flatMap Delivery.each)
  perform_advance issues s call := by
    rw [handlePersisted_advance, Option.map_map, Option.map_map]
    rfl

theorem performAll_eq (link : Link) (sender : Routee) (s : ResponderState)
    (calls : List PersistCall) :
    (responderSystem link sender).performAll s calls =
      (runHandlers s calls).map fun r => (r.1, r.2.flatMap Delivery.each) := by
  induction calls generalizing s with
  | nil => rfl
  | cons call rest ih =>
    simp only [DeferredSystem.performAll, runHandlers, responderSystem] at ih ⊢
    cases handlePersisted s call with
    | none => rfl
    | some first =>
      simp only [Option.map_some, Option.bind_some, ih]
      cases runHandlers first.1 rest with
      | none => rfl
      | some later => simp only [Option.map_some, List.flatMap_append]

/-- The turns of the system are the steps of `processRequests`. -/
theorem processRequests_eq (link : Link) (sender : Routee) (requests : List DSARequest)
    (p : Processing) (forwarded : List DSARequest) (answered : List (Routee × DSAResponse)) :
    let results := HandlerResult.flatten (processRequests link sender p requests).1
    let p' := (processRequests link sender p requests).2
    p'.sent = p.sent ∧
      requests.foldl (responderSystem link sender).take ⟨p.state, p.persisted, forwarded, answered⟩
        = ⟨p'.state, p'.persisted, forwarded ++ results.requests,
            answered ++ results.responses.map fun rsp => (sender, rsp)⟩ := by
  induction requests generalizing p forwarded answered with
  | nil => simp [processRequests, HandlerResult.flatten]
  | cons request rest ih =>
    have hstep := processRequest_eq link sender p request
    obtain ⟨hsent, hfold⟩ := ih (p.after (requestAction link sender p.state request))
      (forwarded ++ ((requestAction link sender p.state request).result p.state.nextRid
        p.state.nextSid).requests)
      (answered ++ ((requestAction link sender p.state request).result p.state.nextRid
        p.state.nextSid).responses.map fun rsp => (sender, rsp))
    simp only [processRequests, hstep]
    refine ⟨hsent, ?_⟩
    rw [List.foldl_cons]
    apply Eq.trans hfold
    simp only [HandlerResult.flatten, List.flatMap_cons, List.append_assoc, List.map_append]

/-- The turn in which all requests of an envelope have been decided. -/
def envelopeTurn (link : Link) (sender : Routee) (s : ResponderState)
    (requests : List DSARequest) :
    Turn ResponderState PersistCall DSARequest (Routee × DSAResponse) :=
  requests.foldl (responderSystem link sender).take { present := s }

/-- Only the sender is answered directly. -/
theorem envelopeTurn_answered (link : Link) (sender : Routee) (s : ResponderState)
    (requests : List DSARequest) :
    ∃ responses : List DSAResponse, (envelopeTurn link sender s requests).answered
      = responses.map fun rsp => (sender, rsp) := by
  obtain ⟨_, hfold⟩ := processRequests_eq link sender requests { state := s } [] []
  have hturn : envelopeTurn link sender s requests = _ := hfold
  refine ⟨(HandlerResult.flatten
    (processRequests link sender { state := s } requests).1).responses, ?_⟩
  simp only [hturn, List.nil_append]

/-- The response envelope to the sender, response by response. -/
theorem each_answered (link : Link) (sender : Routee) (s : ResponderState)
    (requests : List DSARequest) :
    (if (envelopeTurn link sender s requests).answered = [] then []
      else [⟨sender, (envelopeTurn link sender s requests).answered.map Prod.snd⟩] :
        List Delivery).flatMap Delivery.each
      = (envelopeTurn link sender s requests).answered := by
  obtain ⟨responses, hanswered⟩ := envelopeTurn_answered link sender s requests
  rw [hanswered]
  cases responses with
  | nil => rfl
  | cons head tail => simp [Delivery.each]

/-- An envelope: one request envelope to the endpoint and one response envelope to the sender,
if there is anything in them, and then what the persist handlers send. -/
theorem receive_requestEnvelope (link : Link) (sender : Routee) (s : ResponderState)
    (requests : List DSARequest) :
    receive link s (.requestEnvelope sender requests) =
      let t := envelopeTurn link sender s requests
      (runHandlers t.present t.pending).map fun r =>
        { state := r.1
          toEndpoint := if t.forwarded = [] then [] else [t.forwarded]
          sent := (if t.answered = [] then [] else [⟨sender, t.answered.map Prod.snd⟩]) ++ r.2
          persisted := t.pending } := by
  obtain ⟨hsent, hfold⟩ := processRequests_eq link sender requests { state := s } [] []
  have hturn : envelopeTurn link sender s requests = _ := hfold
  simp only [receive, complete, hturn, hsent, List.nil_append, List.map_eq_nil_iff, List.map_map,
    Function.comp_def, List.map_id']

end

end DsaBroker
