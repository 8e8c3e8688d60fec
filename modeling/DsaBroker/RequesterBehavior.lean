import DsaBroker.Grouping
import DsaBroker.Messages
import DsaBroker.Paths
import Mathlib.Logic.Function.Basic

/-!
# The requester of a link

`RequesterBehavior`: a link in requester mode routes the requests of its endpoint to the
targets of their paths, and passes responses on, subscription updates through the subscription
channel and all others directly.  For CLOSE and UNSUBSCRIBE requests, which have no path, it
keeps the targets of earlier requests by RID and SID.

While a message is processed the two maps do not change.  Every change is persisted, and the
persist handlers run after the processing, in call order and before the next message; so what
a message comes to (`RequesterOutcome`) is read off the maps as they are when it is handled.
`none` is a message whose processing throws.  Logging, metrics and snapshot calls are left out.
-/

namespace DsaBroker

/-! ### Quality of service -/

/-- `QoS.Level`. -/
inductive QoS where
  | default | queued | durable | durableAndPersist
deriving DecidableEq, Repr

namespace QoS

def index : QoS → Int
  | default => 0
  | queued => 1
  | durable => 2
  | durableAndPersist => 3

/-- `QoS(level)`; `none` when it throws. -/
def ofLevel (level : Int) : Option QoS :=
  if level = 0 then some default
  else if level = 1 then some queued
  else if level = 2 then some durable
  else if level = 3 then some durableAndPersist
  else none

/-- `qos >= QoS.Durable`. -/
def AtLeastDurable (qos : QoS) : Prop := qos.index ≥ durable.index

instance (qos : QoS) : Decidable qos.AtLeastDurable := inferInstanceAs (Decidable (_ ≥ _))

end QoS

structure PathAndQos where
  path : Str
  qos : QoS
deriving DecidableEq, Repr

structure SubscriptionNotificationMessage where
  response : DSAResponse
  sid : Int
  qos : QoS
deriving DecidableEq

/-! ### State and events -/

/-- The targets of previously used RIDs and SIDs. -/
structure RequesterState where
  targetsByRid : Int → Option Str
  targetsBySid : Int → Option PathAndQos
  lastRid : Int

def RequesterState.initial : RequesterState := ⟨fun _ => none, fun _ => none, 0⟩

inductive RequesterEvent where
  | ridTargetsRequesterState (rid : Int) (target : Str)
  | sidTargetsRequesterState (sid : Int) (pathAndQos : PathAndQos)
  | removeTargetByRid (rid : Int)
  | removeTargetBySid (sids : List Int)
  | lastRidSet (rid : Int)
deriving DecidableEq, Repr

namespace RequesterState

def removeTargetBy (s : RequesterState) (sids : List Int) : RequesterState :=
  { s with
    targetsBySid := sids.foldl (fun targets sid => Function.update targets sid none)
      s.targetsBySid }

/-- The handlers of the persisted events. -/
def handle (s : RequesterState) : RequesterEvent → RequesterState
  | .ridTargetsRequesterState rid target =>
      { s with targetsByRid := Function.update s.targetsByRid rid (some target) }
  | .sidTargetsRequesterState sid pathAndQos =>
      { s with targetsBySid := Function.update s.targetsBySid sid (some pathAndQos) }
  | .removeTargetByRid rid => { s with targetsByRid := Function.update s.targetsByRid rid none }
  | .removeTargetBySid sids => s.removeTargetBy sids
  | .lastRidSet rid => { s with lastRid := rid }

/-- Recovers events of requester behavior from the journal. -/
def requesterRecover (s : RequesterState) : RequesterEvent → RequesterState
  | .ridTargetsRequesterState rid target =>
      { s with targetsByRid := Function.update s.targetsByRid rid (some target) }
  | .sidTargetsRequesterState sid pathAndQos =>
      { s with targetsBySid := Function.update s.targetsBySid sid (some pathAndQos) }
  | .removeTargetByRid rid => { s with targetsByRid := Function.update s.targetsByRid rid none }
  | .removeTargetBySid sids => s.removeTargetBy sids
  | .lastRidSet rid => { s with lastRid := rid }

theorem requesterRecover_eq_handle (s : RequesterState) (event : RequesterEvent) :
    s.requesterRecover event = s.handle event := by
  cases event <;> rfl

theorem targetsBySid_removeTargetBy (s : RequesterState) (sids : List Int) (sid : Int) :
    (s.removeTargetBy sids).targetsBySid sid = if sid ∈ sids then none else s.targetsBySid sid := by
  have hfold : ∀ (sids : List Int) (targets : Int → Option PathAndQos),
      sids.foldl (fun targets sid => Function.update targets sid none) targets sid
        = if sid ∈ sids then none else targets sid := by
    intro sids
    induction sids with
    | nil => intro targets; rfl
    | cons first rest ih =>
      intro targets
      rw [List.foldl_cons, ih, Function.update_apply]
      by_cases hrest : sid ∈ rest
      · rw [if_pos hrest, if_pos (List.mem_cons_of_mem _ hrest)]
      · simp only [List.mem_cons, or_false, hrest, if_false]
  exact hfold sids s.targetsBySid

/-! ### Requests -/

/-- Tries to resolve the request target by path or by cached RID/SID (for Close/Unsubscribe,
and also removes the target from the cache after the look up).  `none` when nothing is found,
which throws and is caught. -/
def resolveTarget (s : RequesterState) : DSARequest → Option (Str × List RequesterEvent)
  | .list _ path | .set _ path _ _ | .remove _ path | .invoke _ path _ _ =>
      some (resolveLinkPath path, [])
  | .subscribe _ paths => paths.head?.map fun path => (resolveLinkPath path.path, [])
  | .unsubscribe _ sids =>
      sids.head?.bind fun sid =>
        (s.targetsBySid sid).map fun target => (target.path, [.removeTargetBySid [sid]])
  | .close rid => (s.targetsByRid rid).map fun target => (target, [.removeTargetByRid rid])

/-- `path.qos.map(QoS(_)).getOrElse(QoS.Default)`; `none` when it throws. -/
def requestedQos (path : SubscriptionPath) : Option QoS :=
  match path.qos with
  | some level => QoS.ofLevel level
  | none => some .default

/-- Saves the request's target indexed by its RID or SID, where applicable.  `none` when the QoS
level is not supported. -/
def cacheRequestTarget (request : DSARequest) (target : Str) : Option (List RequesterEvent) :=
  match request with
  | .list rid _ | .invoke rid _ _ _ => some [.ridTargetsRequesterState rid target]
  | .subscribe _ paths =>
      (onlyElement paths).bind fun path =>
        (requestedQos path).map fun qos => [.sidTargetsRequesterState path.sid ⟨target, qos⟩]
  | _ => some []

/-- What is persisted for one request, and where it is routed if nothing throws. -/
structure Routing where
  persisted : List RequesterEvent
  target : Option Str

def route (s : RequesterState) (request : DSARequest) : Routing :=
  match s.resolveTarget request with
  | none => ⟨[], none⟩
  | some (target, removed) =>
      match cacheRequestTarget request target with
      | none => ⟨removed, none⟩
      | some saved => ⟨removed ++ saved, some target⟩

/-- The parts of the requests with their targets, those that were not dropped. -/
def routed (s : RequesterState) (requests : List DSARequest) : List (Str × DSARequest) :=
  (requests.flatMap DSARequest.split).filterMap fun request =>
    (s.route request).target.map fun target => (target, request)

/-- Groups the requests by their target and routes each batch as one envelope. -/
def batchAndRoute (requests : List (Str × DSARequest)) : List (Str × List DSARequest) :=
  Grouping.groupBy requests

/-! ### Responses -/

/-- `rows collect extractSid`; `none` when `extractSid` throws. -/
def collectSids : List DSAVal → Option (List Int)
  | [] => some []
  | row :: rest =>
      match row with
      | .array _ | .map _ =>
          (extractSid row).bind fun sid => (collectSids rest).map fun sids => sid :: sids
      | _ => collectSids rest

/-- Removes stored targets when the response's stream is closed. -/
def cleanupResponse (response : DSAResponse) : Option (List RequesterEvent) :=
  if response.stream = some .closed then
    if response.rid = 0 then
      response.updates.bind fun updates =>
        (collectSids updates).map fun sids => [.removeTargetBySid sids.eraseDups]
    else some [.removeTargetByRid response.rid]
  else some []

def cleanupStoredTargets (responses : List DSAResponse) : Option (List RequesterEvent) :=
  (responses.mapM cleanupResponse).map List.flatten

/-- The QoS recorded for a SID. -/
def qosOf (s : RequesterState) (sid : Int) : QoS :=
  ((s.targetsBySid sid).map PathAndQos.qos).getD .default

def withQosAndSid (s : RequesterState) (response : DSAResponse) :
    Option (List SubscriptionNotificationMessage) :=
  (response.updates.getD []).mapM fun update =>
    (extractSid update).map fun sid => ⟨response, sid, s.qosOf sid⟩

/-- The notifications of all responses. -/
def notifications (s : RequesterState) (subscriptions : List DSAResponse) :
    Option (List SubscriptionNotificationMessage) :=
  (subscriptions.mapM s.withQosAndSid).map List.flatten

end RequesterState

def isSubscription (response : DSAResponse) : Bool := response.rid = 0

/-- A partial mapping that is defined on every element of a list. -/
theorem mapM_eq_some_map {f : α → Option β} (g : α → β) {l : List α}
    (h : ∀ a ∈ l, f a = some (g a)) : l.mapM f = some (l.map g) := by
  induction l with
  | nil => rfl
  | cons a rest ih =>
    rw [List.mapM_cons, h a List.mem_cons_self,
      ih fun b hb => h b (List.mem_cons_of_mem a hb)]
    rfl

/-! ### Behaviors -/

inductive RequesterMessage where
  | requestMessage (requests : List DSARequest)
  | responseEnvelope (responses : List DSAResponse)
deriving DecidableEq

/-- What a message comes to. -/
structure RequesterOutcome where
  persisted : List RequesterEvent := []
  /-- The envelopes for the targets. -/
  routed : List (Str × List DSARequest) := []
  /-- Offered to the stream of the subscription channel. -/
  offered : List SubscriptionNotificationMessage := []
  /-- Put into the subscription channel by `putMessage`. -/
  put : List SubscriptionNotificationMessage := []
  /-- Sent to the endpoint. -/
  toEndpoint : List DSAResponse := []
  stashed : Bool := false

namespace RequesterState

/-- `RequestMessage` in the connected behavior. -/
def processRequests (s : RequesterState) (requests : List DSARequest) : RequesterOutcome where
  persisted :=
    (requests.flatMap DSARequest.split).flatMap (fun request => (s.route request).persisted) ++
      (requests.getLast?.map fun request => .lastRidSet request.rid).toList
  routed := batchAndRoute (s.routed requests)

/-- Processes incoming messages from Requester DSLink and dispatches responses to it. -/
def requesterBehavior (s : RequesterState) : RequesterMessage → Option RequesterOutcome
  | .requestMessage requests => some (s.processRequests requests)
  | .responseEnvelope responses => do
      let persisted ← cleanupStoredTargets responses
      let offered ← s.notifications (responses.filter isSubscription)
      return {
        persisted := persisted
        offered := offered
        toEndpoint := responses.filter fun response => !isSubscription response }

/-- The requester mixin for disconnected behavior, and `toStash` for everything else. -/
def requesterDisconnected (s : RequesterState) : RequesterMessage → Option RequesterOutcome
  | .requestMessage _ => some { stashed := true }
  | .responseEnvelope responses => do
      let persisted ← cleanupStoredTargets responses
      let notifications ← s.notifications (responses.filter isSubscription)
      return {
        persisted := persisted
        put := notifications.filter fun message => message.qos.AtLeastDurable
        stashed := (responses.filter fun response => !isSubscription response) ≠ [] }

/-! ### Envelopes that are processed without an exception -/

/-- Every update row of a subscription response names its SID, and there are update rows if the
stream is closed. -/
def WellFormed (response : DSAResponse) : Prop := response.rid = 0 →
  (response.stream = some .closed → response.updates.isSome) ∧
    ∀ row ∈ response.updates.getD [], (extractSid row).isSome

/-- The updates of an envelope: one for every row of a subscription response, with the SID it
names and the QoS recorded for this SID. -/
def updates (s : RequesterState) (responses : List DSAResponse) :
    List SubscriptionNotificationMessage :=
  (responses.filter isSubscription).flatMap fun response =>
    (response.updates.getD []).filterMap fun row =>
      (extractSid row).map fun sid => ⟨response, sid, s.qosOf sid⟩

theorem collectSids_isSome {rows : List DSAVal} (h : ∀ row ∈ rows, (extractSid row).isSome) :
    (collectSids rows).isSome := by
  induction rows with
  | nil => rfl
  | cons row rest ih =>
    have hrest := ih fun row' hrow' => h row' (List.mem_cons_of_mem row hrow')
    obtain ⟨sid, hsid⟩ := Option.isSome_iff_exists.mp (h row List.mem_cons_self)
    unfold collectSids
    split
    · rw [hsid, Option.bind_some, Option.isSome_map]
      exact hrest
    · rw [hsid, Option.bind_some, Option.isSome_map]
      exact hrest
    · exact hrest

theorem cleanupResponse_isSome {response : DSAResponse} (h : WellFormed response) :
    (cleanupResponse response).isSome := by
  unfold cleanupResponse
  split
  case isFalse => rfl
  case isTrue hclosed =>
    split
    case isFalse => rfl
    case isTrue hrid =>
      obtain ⟨hsome, hrows⟩ := h hrid
      obtain ⟨rows, hupdates⟩ := Option.isSome_iff_exists.mp (hsome hclosed)
      rw [hupdates, Option.getD_some] at hrows
      rw [hupdates, Option.bind_some, Option.isSome_map]
      exact collectSids_isSome hrows

theorem cleanupStoredTargets_isSome {responses : List DSAResponse}
    (h : ∀ response ∈ responses, WellFormed response) :
    ∃ persisted, cleanupStoredTargets responses = some persisted := by
  rw [cleanupStoredTargets, mapM_eq_some_map fun response => (cleanupResponse response).getD []]
  · exact ⟨_, rfl⟩
  · intro response hresponse
    obtain ⟨events, hevents⟩ :=
      Option.isSome_iff_exists.mp (cleanupResponse_isSome (h response hresponse))
    rw [hevents, Option.getD_some]

theorem withQosAndSid_of_rows (s : RequesterState) {response : DSAResponse}
    (h : ∀ row ∈ response.updates.getD [], (extractSid row).isSome) :
    s.withQosAndSid response = some ((response.updates.getD []).filterMap fun row =>
      (extractSid row).map fun sid => ⟨response, sid, s.qosOf sid⟩) := by
  rw [withQosAndSid]
  generalize response.updates.getD [] = rows at h ⊢
  induction rows with
  | nil => rfl
  | cons row rest ih =>
    obtain ⟨sid, hsid⟩ := Option.isSome_iff_exists.mp (h row List.mem_cons_self)
    rw [List.mapM_cons, ih fun row' hrow' => h row' (List.mem_cons_of_mem row hrow'),
      List.filterMap_cons, hsid]
    rfl

theorem notifications_eq (s : RequesterState) {responses : List DSAResponse}
    (h : ∀ response ∈ responses, WellFormed response) :
    s.notifications (responses.filter isSubscription) = some (s.updates responses) := by
  rw [notifications, mapM_eq_some_map fun response : DSAResponse =>
    (response.updates.getD []).filterMap fun row =>
      (extractSid row).map fun sid => ⟨response, sid, s.qosOf sid⟩]
  · rw [Option.map_some, ← List.flatMap_def, updates]
  · intro response hresponse
    obtain ⟨hmem, hrid⟩ := List.mem_filter.mp hresponse
    exact s.withQosAndSid_of_rows (h response hmem (of_decide_eq_true hrid)).2

theorem requesterBehavior_envelope (s : RequesterState) {responses : List DSAResponse}
    (h : ∀ response ∈ responses, WellFormed response) :
    ∃ persisted, s.requesterBehavior (.responseEnvelope responses) =
      some {
        persisted := persisted
        offered := s.updates responses
        toEndpoint := responses.filter fun response => !isSubscription response } := by
  obtain ⟨persisted, hpersisted⟩ := cleanupStoredTargets_isSome h
  refine ⟨persisted, ?_⟩
  rw [requesterBehavior, hpersisted, s.notifications_eq h]
  rfl

theorem requesterDisconnected_envelope (s : RequesterState) {responses : List DSAResponse}
    (h : ∀ response ∈ responses, WellFormed response) :
    ∃ persisted, s.requesterDisconnected (.responseEnvelope responses) =
      some {
        persisted := persisted
        put := (s.updates responses).filter fun message => message.qos.AtLeastDurable
        stashed := (responses.filter fun response => !isSubscription response) ≠ [] } := by
  obtain ⟨persisted, hpersisted⟩ := cleanupStoredTargets_isSome h
  refine ⟨persisted, ?_⟩
  rw [requesterDisconnected, hpersisted, s.notifications_eq h]
  rfl

/-! ### The persist handlers -/

/-- The state when the persist handlers have run. -/
def after (s : RequesterState) (events : List RequesterEvent) : RequesterState :=
  events.foldl handle s

@[simp] theorem after_nil (s : RequesterState) : s.after [] = s := rfl

theorem after_append (s : RequesterState) (events later : List RequesterEvent) :
    s.after (events ++ later) = (s.after events).after later := List.foldl_append

end RequesterState

end DsaBroker
