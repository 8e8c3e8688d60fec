import DsaBroker.Histories
import DsaBroker.RequesterBatches

/-!
# Runs of a requester link

A requester link over connects and disconnects.  While it is disconnected, messages are stashed;
the connect puts them back in front of the mailbox, so that they are redelivered, whole and in
order, before anything else is received.  The persist handlers of a message run before the next
message, so one step covers both.

Beside its state the link keeps what has happened: the journal, every message with the
state in which it arrived, and every message with what it came to when it was handled.

Read as a history (`LinkEntry`), the messages handled determine the maps: a RID or SID has the
target that its latest opening request was routed to, unless something closed it since
(`requester_bookkeeping`).
-/

namespace DsaBroker

/-- A message that arrives, and the link as it finds it. -/
structure Arrival where
  message : RequesterMessage
  connected : Bool
  state : RequesterState

/-- A message and what it came to. -/
structure HandledMessage where
  message : RequesterMessage
  outcome : RequesterOutcome

structure RequesterLink where
  state : RequesterState
  connected : Bool
  stash : List RequesterMessage
  /-- Unstashed, in front of the mailbox. -/
  redelivered : List RequesterMessage
  journal : List RequesterEvent
  arrived : List Arrival
  handled : List HandledMessage

inductive LinkInput where
  | connectEndpoint
  | disconnectEndpoint
  | receive (message : RequesterMessage)
  | redelivery

namespace RequesterLink

def initial : RequesterLink where
  state := .initial
  connected := false
  stash := []
  redelivered := []
  journal := []
  arrived := []
  handled := []

def behavior (link : RequesterLink) (message : RequesterMessage) : Option RequesterOutcome :=
  if link.connected then link.state.requesterBehavior message
  else link.state.requesterDisconnected message

/-- Processes a message and runs the persist handlers. -/
def handle (link : RequesterLink) (message : RequesterMessage) : Option RequesterLink :=
  (link.behavior message).map fun outcome =>
    { link with
      state := link.state.after outcome.persisted
      stash := if outcome.stashed then link.stash ++ [message] else link.stash
      journal := link.journal ++ outcome.persisted
      handled := link.handled ++ [⟨message, outcome⟩] }

/-- Notes the arrival of a message. -/
def arrival (link : RequesterLink) (message : RequesterMessage) : RequesterLink :=
  { link with arrived := link.arrived ++ [⟨message, link.connected, link.state⟩] }

/-- One step; `none` for a redelivery when nothing is unstashed, for another input when something
is, and when processing throws. -/
def step (link : RequesterLink) (input : LinkInput) : Option RequesterLink :=
  match input, link.redelivered with
  | .redelivery, message :: rest =>
      ({ link with redelivered := rest } : RequesterLink).handle message
  | .redelivery, [] => none
  | _, _ :: _ => none
  | .connectEndpoint, [] =>
      some { link with connected := true, redelivered := link.stash, stash := [] }
  | .disconnectEndpoint, [] => some { link with connected := false }
  | .receive message, [] => (link.arrival message).handle message

/-- The four kinds of steps. -/
theorem step_cases {link link' : RequesterLink} {input : LinkInput}
    (h : link.step input = some link') :
    (input = .connectEndpoint ∧ link.redelivered = [] ∧
        link' = { link with connected := true, redelivered := link.stash, stash := [] }) ∨
      (input = .disconnectEndpoint ∧ link.redelivered = [] ∧
        link' = { link with connected := false }) ∨
      (∃ message, input = .receive message ∧ link.redelivered = [] ∧
        (link.arrival message).handle message = some link') ∨
      ∃ message rest, input = .redelivery ∧ link.redelivered = message :: rest ∧
        ({ link with redelivered := rest } : RequesterLink).handle message = some link' := by
  unfold step at h
  split at h
  case h_1 message rest hredelivered =>
    exact Or.inr (Or.inr (Or.inr ⟨message, rest, rfl, hredelivered, h⟩))
  case h_2 => cases h
  case h_3 => cases h
  case h_4 hredelivered =>
    cases h
    exact Or.inl ⟨rfl, hredelivered, rfl⟩
  case h_5 hredelivered =>
    cases h
    exact Or.inr (Or.inl ⟨rfl, hredelivered, rfl⟩)
  case h_6 message hredelivered =>
    exact Or.inr (Or.inr (Or.inl ⟨message, rfl, hredelivered, h⟩))

theorem handle_eq_some {link link' : RequesterLink} {message : RequesterMessage}
    (h : link.handle message = some link') :
    ∃ outcome, link.behavior message = some outcome ∧
      link' = { link with
        state := link.state.after outcome.persisted
        stash := if outcome.stashed then link.stash ++ [message] else link.stash
        journal := link.journal ++ outcome.persisted
        handled := link.handled ++ [⟨message, outcome⟩] } := by
  obtain ⟨outcome, houtcome, heq⟩ := Option.map_eq_some_iff.mp h
  exact ⟨outcome, houtcome, heq.symm⟩

end RequesterLink

/-! ### The history of a link -/

/-- What has been handled, request part by request part and response by response. -/
inductive LinkEntry where
  | routed (target : Str) (request : DSARequest)
  | dropped (request : DSARequest)
  | received (response : DSAResponse)

namespace LinkEntry

/-- What an entry does to the target of a RID. -/
def touchRid (rid : Int) : LinkEntry → Option (Option Str)
  | routed target (.list other _) | routed target (.invoke other _ _ _) =>
      if other = rid then some (some target) else none
  | routed _ (.close other) | dropped (.close other) => if other = rid then some none else none
  | received response =>
      if response.stream = some .closed ∧ response.rid ≠ 0 ∧ response.rid = rid then some none
      else none
  | _ => none

/-- What an entry does to the target of a SID. -/
def touchSid (sid : Int) : LinkEntry → Option (Option Str)
  | routed target (.subscribe _ [path]) => if path.sid = sid then some (some target) else none
  | routed _ (.unsubscribe _ (other :: _)) | dropped (.unsubscribe _ (other :: _)) =>
      if other = sid then some none else none
  | received response =>
      if response.stream = some .closed ∧ response.rid = 0 ∧
        ∃ row ∈ response.updates.getD [], extractSid row = some sid then some none
      else none
  | _ => none

end LinkEntry

/-- A request part is routed if it travels in one of the envelopes. -/
def HandledMessage.entry (h : HandledMessage) (part : DSARequest) : LinkEntry :=
  match h.outcome.routed.find? fun envelope => part ∈ envelope.2 with
  | some envelope => .routed envelope.1 part
  | none => .dropped part

/-- The entries of a message; a request that is stashed has not been handled yet. -/
def HandledMessage.entries (h : HandledMessage) : List LinkEntry :=
  match h.message with
  | .requestMessage requests =>
      if h.outcome.stashed then [] else (RequesterState.parts requests).map h.entry
  | .responseEnvelope responses => responses.map LinkEntry.received

def RequesterLink.history (link : RequesterLink) : List LinkEntry :=
  link.handled.flatMap HandledMessage.entries

/-! ### Responses -/

namespace RequesterState

open Histories

theorem mem_collectSids {rows : List DSAVal} {sids : List Int} (h : collectSids rows = some sids)
    (sid : Int) : sid ∈ sids ↔ ∃ row ∈ rows, extractSid row = some sid := by
  induction rows generalizing sids with
  | nil =>
    cases h
    simp only [List.not_mem_nil, false_and, exists_false]
  | cons row rest ih =>
    have hnamed : (extractSid row).bind (fun sid =>
        (collectSids rest).map fun sids => sid :: sids) = some sids →
        (sid ∈ sids ↔ ∃ row' ∈ row :: rest, extractSid row' = some sid) := by
      intro h
      obtain ⟨first, hfirst, hrest⟩ := Option.bind_eq_some_iff.mp h
      obtain ⟨later, hlater, rfl⟩ := Option.map_eq_some_iff.mp hrest
      rw [List.mem_cons, ih hlater, List.exists_mem_cons_iff, hfirst, Option.some.injEq,
        @eq_comm _ sid]
    have hother : extractSid row = none → collectSids rest = some sids →
        (sid ∈ sids ↔ ∃ row' ∈ row :: rest, extractSid row' = some sid) := by
      intro hnone h
      rw [ih h, List.exists_mem_cons_iff, hnone]
      simp only [reduceCtorEq, false_or]
    cases row with
    | array value => exact hnamed h
    | map value => exact hnamed h
    | null => exact hother rfl h
    | numeric _ => exact hother rfl h
    | string _ => exact hother rfl h
    | boolean _ => exact hother rfl h
    | binary _ => exact hother rfl h

theorem cleanupStoredTargets_cons {response : DSAResponse} {rest : List DSAResponse}
    {events : List RequesterEvent} (h : cleanupStoredTargets (response :: rest) = some events) :
    ∃ first later, cleanupResponse response = some first ∧
      cleanupStoredTargets rest = some later ∧ events = first ++ later := by
  obtain ⟨all, hall, rfl⟩ := Option.map_eq_some_iff.mp h
  rw [List.mapM_cons] at hall
  obtain ⟨first, hfirst, hmore⟩ := Option.bind_eq_some_iff.mp hall
  obtain ⟨later, hlater, hpure⟩ := Option.bind_eq_some_iff.mp hmore
  cases hpure
  refine ⟨first, later.flatten, hfirst, ?_, List.flatten_cons⟩
  rw [cleanupStoredTargets, hlater]
  rfl

/-- Cleaning up after a response is what its entry does to the maps: a closed response takes its RID
away, closed rows of subscriptions take away their SIDs, and an open one nothing. -/
theorem after_cleanupResponse {response : DSAResponse} {events : List RequesterEvent}
    (h : cleanupResponse response = some events) (s : RequesterState) :
    (∀ rid, (s.after events).targetsByRid rid =
        settle (LinkEntry.touchRid rid) (s.targetsByRid rid) (.received response)) ∧
      ∀ sid, ((s.after events).targetsBySid sid).map PathAndQos.path =
        settle (LinkEntry.touchSid sid) ((s.targetsBySid sid).map PathAndQos.path)
          (.received response) := by
  unfold cleanupResponse at h
  split at h
  case isFalse hopen =>
    cases h
    constructor
    · intro rid
      simp only [settle, LinkEntry.touchRid, hopen, false_and, if_false, Option.getD_none,
        after_nil]
    · intro sid
      simp only [settle, LinkEntry.touchSid, hopen, false_and, if_false, Option.getD_none,
        after_nil]
  case isTrue hclosed =>
    split at h
    case isTrue hzero =>
      obtain ⟨updates, hupdates, hmap⟩ := Option.bind_eq_some_iff.mp h
      obtain ⟨sids, hsids, rfl⟩ := Option.map_eq_some_iff.mp hmap
      constructor
      · intro rid
        simp only [settle, LinkEntry.touchRid, hzero, ne_eq, not_true_eq_false, false_and,
          and_false, if_false, Option.getD_none]
        rfl
      · intro sid
        have hafter : s.after [.removeTargetBySid sids.eraseDups] =
            s.removeTargetBy sids.eraseDups := rfl
        rw [hafter, targetsBySid_removeTargetBy]
        simp only [List.mem_eraseDups, mem_collectSids hsids, settle, LinkEntry.touchSid, hclosed,
          hzero, hupdates, Option.getD_some, true_and]
        split <;> rfl
    case isFalse hrid =>
      cases h
      constructor
      · intro rid
        have hafter : s.after [.removeTargetByRid response.rid] =
            { s with targetsByRid := Function.update s.targetsByRid response.rid none } := rfl
        rw [hafter]
        simp only [settle, LinkEntry.touchRid, hclosed, hrid, ne_eq, not_false_iff, true_and,
          Function.update_apply, @eq_comm _ rid]
        split <;> rfl
      · intro sid
        simp only [settle, LinkEntry.touchSid, hrid, false_and, and_false, if_false,
          Option.getD_none]
        rfl

theorem after_cleanupStoredTargets {responses : List DSAResponse} {events : List RequesterEvent}
    (h : cleanupStoredTargets responses = some events) (s : RequesterState) :
    (∀ rid, (s.after events).targetsByRid rid = (responses.map LinkEntry.received).foldl
        (settle (LinkEntry.touchRid rid)) (s.targetsByRid rid)) ∧
      ∀ sid, ((s.after events).targetsBySid sid).map PathAndQos.path =
        (responses.map LinkEntry.received).foldl (settle (LinkEntry.touchSid sid))
          ((s.targetsBySid sid).map PathAndQos.path) := by
  induction responses generalizing s events with
  | nil =>
    cases h
    exact ⟨fun _ => rfl, fun _ => rfl⟩
  | cons response rest ih =>
    obtain ⟨first, later, hfirst, hlater, rfl⟩ := cleanupStoredTargets_cons h
    obtain ⟨hrid, hsid⟩ := after_cleanupResponse hfirst s
    obtain ⟨hrids, hsids⟩ := ih hlater (s.after first)
    constructor
    · intro rid
      rw [after_append, hrids, hrid, List.map_cons, List.foldl_cons]
    · intro sid
      rw [after_append, hsids, hsid, List.map_cons, List.foldl_cons]

/-! ### Requests -/

/-- The entry of a part that is handled with these maps. -/
def entryOf (s : RequesterState) (part : DSARequest) : LinkEntry :=
  match (s.route part).target with
  | some target => .routed target part
  | none => .dropped part

/-- The envelope of a message with one part. -/
theorem routed_of_single (s : RequesterState) {request part : DSARequest}
    (hsplit : request.split = [part]) :
    (s.processRequests [request]).routed =
      ((s.route part).target.map fun target => (target, [part])).toList := by
  have hflat : [request].flatMap DSARequest.split = [part] := by
    rw [List.flatMap_cons, hsplit]
    rfl
  rw [processRequests, routed, hflat, List.filterMap_cons, List.filterMap_nil]
  cases (s.route part).target with
  | none => rfl
  | some target =>
    have hvalues : Grouping.valuesOf target [(target, part)] = [part] :=
      congrArg (List.map Prod.snd) (List.filter_cons_of_pos (decide_eq_true rfl))
    exact congrArg (fun values => [(target, values)]) hvalues

/-- The entries of a message with one request that has one part or none. -/
theorem entries_of_single (s : RequesterState) {request : DSARequest}
    (hlength : request.split.length ≤ 1) :
    (⟨.requestMessage [request], s.processRequests [request]⟩ : HandledMessage).entries =
      request.split.map s.entryOf := by
  have hparts : parts [request] = request.split := List.append_nil _
  have hstashed : (s.processRequests [request]).stashed = false := rfl
  simp only [HandledMessage.entries, hstashed, hparts, Bool.false_eq_true, if_false]
  rcases hsplit : request.split with _ | ⟨part, _ | ⟨second, rest⟩⟩
  · rfl
  · simp only [List.map_cons, List.map_nil, HandledMessage.entry, s.routed_of_single hsplit,
      entryOf]
    cases (s.route part).target with
    | none => rfl
    | some target =>
      simp only [Option.map_some, Option.toList_some, List.find?_cons, List.mem_singleton,
        decide_true]
  · rw [hsplit] at hlength
    exact absurd hlength (by simp only [List.length_cons]; omega)

/-- Where it makes no difference whether a part was routed. -/
theorem touch_entryOf (touch : LinkEntry → Option (Option Str)) (s : RequesterState)
    {part : DSARequest} (hsame : ∀ target, touch (.routed target part) = touch (.dropped part)) :
    touch (s.entryOf part) = touch (.dropped part) := by
  unfold entryOf
  split
  · exact hsame _
  · rfl

theorem settle_entryOf_subscribe (s : RequesterState) (srcRid : Int) (path : SubscriptionPath) :
    (∀ rid value, ridTargetAfter rid value (.subscribe srcRid [path]) =
        settle (LinkEntry.touchRid rid) value (s.entryOf (.subscribe srcRid [path]))) ∧
      ∀ sid value, sidTargetAfter sid value (.subscribe srcRid [path]) =
        settle (LinkEntry.touchSid sid) value (s.entryOf (.subscribe srcRid [path])) := by
  have hentry : s.entryOf (.subscribe srcRid [path]) =
      if (requestedQos path).isSome then
        .routed (resolveLinkPath path.path) (.subscribe srcRid [path])
      else .dropped (.subscribe srcRid [path]) := by
    simp only [entryOf, route, resolveTarget, List.head?_cons, Option.map_some,
      cacheRequestTarget, onlyElement, Option.bind_some]
    cases requestedQos path <;> rfl
  rw [hentry]
  constructor
  · intro rid value
    split <;> rfl
  · intro sid value
    simp only [sidTargetAfter]
    split
    case isTrue h => simp only [h.2, if_true, settle, LinkEntry.touchSid, h.1, Option.getD_some]
    case isFalse h =>
      split
      case isTrue hqos =>
        have hsid : path.sid ≠ sid := fun hsid => h ⟨hsid, hqos⟩
        simp only [settle, LinkEntry.touchSid, hsid, if_false, Option.getD_none]
      case isFalse => rfl

/-- A part changes the maps as its entry says, whatever the maps hold: the entry names the RID or
SID that is set or removed, and both maps agree on it. -/
theorem settle_entryOf (s : RequesterState) {request part : DSARequest}
    (hpart : part ∈ request.split) :
    (∀ rid value, ridTargetAfter rid value part =
        settle (LinkEntry.touchRid rid) value (s.entryOf part)) ∧
      ∀ sid value, sidTargetAfter sid value part =
        settle (LinkEntry.touchSid sid) value (s.entryOf part) := by
  -- the entry of a part is the part itself, with the path that its target resolves to at this state
  cases request with
  | subscribe srcRid paths =>
    obtain ⟨path, _, rfl⟩ := List.mem_map.mp hpart
    exact s.settle_entryOf_subscribe srcRid path
  | unsubscribe srcRid sids =>
    obtain ⟨removed, _, rfl⟩ := List.mem_map.mp hpart
    constructor
    · intro rid value
      rw [settle, touch_entryOf (LinkEntry.touchRid rid) s fun _ => rfl]
      rfl
    · intro sid value
      rw [settle, touch_entryOf (LinkEntry.touchSid sid) s fun _ => rfl]
      simp only [sidTargetAfter, LinkEntry.touchSid]
      split <;> rfl
  | close closed =>
    rw [List.mem_singleton.mp hpart]
    constructor
    · intro rid value
      rw [settle, touch_entryOf (LinkEntry.touchRid rid) s fun _ => rfl]
      simp only [ridTargetAfter, LinkEntry.touchRid]
      split <;> rfl
    · intro sid value
      rw [settle, touch_entryOf (LinkEntry.touchSid sid) s fun _ => rfl]
      rfl
  | list opened path =>
    rw [List.mem_singleton.mp hpart]
    constructor
    · -- the RID is remembered when the target resolves, no SID is
      intro rid value
      simp only [ridTargetAfter, settle, entryOf, route, resolveTarget, cacheRequestTarget,
        LinkEntry.touchRid]
      split <;> rfl
    · exact fun _ _ => rfl
  | invoke opened path params permit =>
    rw [List.mem_singleton.mp hpart]
    constructor
    · intro rid value
      simp only [ridTargetAfter, settle, entryOf, route, resolveTarget, cacheRequestTarget,
        LinkEntry.touchRid]
      split <;> rfl
    · exact fun _ _ => rfl
  | set _ _ _ _ =>
    rw [List.mem_singleton.mp hpart]
    exact ⟨fun _ _ => rfl, fun _ _ => rfl⟩
  | remove _ _ =>
    rw [List.mem_singleton.mp hpart]
    exact ⟨fun _ _ => rfl, fun _ _ => rfl⟩

theorem foldl_settle_entryOf (s : RequesterState) {request : DSARequest} {batch : List DSARequest}
    (hbatch : batch ⊆ request.split) :
    (∀ rid value, batch.foldl (ridTargetAfter rid) value =
        (batch.map s.entryOf).foldl (settle (LinkEntry.touchRid rid)) value) ∧
      ∀ sid value, batch.foldl (sidTargetAfter sid) value =
        (batch.map s.entryOf).foldl (settle (LinkEntry.touchSid sid)) value := by
  induction batch with
  | nil => exact ⟨fun _ _ => rfl, fun _ _ => rfl⟩
  | cons part rest ih =>
    rw [List.cons_subset] at hbatch
    obtain ⟨hrid, hsid⟩ := s.settle_entryOf hbatch.1
    obtain ⟨hrids, hsids⟩ := ih hbatch.2
    constructor
    · intro rid value
      rw [List.foldl_cons, List.map_cons, List.foldl_cons, hrid, hrids]
    · intro sid value
      rw [List.foldl_cons, List.map_cons, List.foldl_cons, hsid, hsids]

end RequesterState

/-! ### Bookkeeping -/

/-- One request with at most one path or SID, or responses whose rid-0 ones carry update rows
that name a SID. -/
def RequesterMessage.Simple : RequesterMessage → Prop
  | .requestMessage requests =>
      ∃ request : DSARequest, requests = [request] ∧ request.split.length ≤ 1
  | .responseEnvelope responses => ∀ response ∈ responses, response.rid = 0 →
      ∃ rows, response.updates = some rows ∧ ∀ row ∈ rows, (extractSid row).isSome

namespace RequesterLink

open Histories

/-- Every message received is simple. -/
def OneAtATime (_ : RequesterLink) : LinkInput → Prop
  | .receive message => message.Simple
  | _ => True

/-- The maps hold what the history leaves, and the journal replays to them. -/
structure Bookkept (link : RequesterLink) : Prop where
  byRid : ∀ rid, link.state.targetsByRid rid = latest (LinkEntry.touchRid rid) link.history
  bySid : ∀ sid, (link.state.targetsBySid sid).map PathAndQos.path =
    latest (LinkEntry.touchSid sid) link.history
  replayed : link.journal.foldl RequesterState.requesterRecover .initial = link.state
  waiting : ∀ message ∈ link.stash ++ link.redelivered, message.Simple

theorem bookkept_initial : initial.Bookkept where
  byRid _ := rfl
  bySid _ := rfl
  replayed := rfl
  waiting _ h := absurd h List.not_mem_nil

/-- What handling a simple message does to the maps, whatever the behavior: a request adds or
removes what its parts say, a response takes away what it closes, and a message that is stashed
changes nothing. -/
theorem after_behavior {link : RequesterLink} {message : RequesterMessage}
    {outcome : RequesterOutcome} (hsimple : message.Simple)
    (h : link.behavior message = some outcome) :
    (∀ rid, (link.state.after outcome.persisted).targetsByRid rid =
        (⟨message, outcome⟩ : HandledMessage).entries.foldl (settle (LinkEntry.touchRid rid))
          (link.state.targetsByRid rid)) ∧
      ∀ sid, ((link.state.after outcome.persisted).targetsBySid sid).map PathAndQos.path =
        (⟨message, outcome⟩ : HandledMessage).entries.foldl (settle (LinkEntry.touchSid sid))
          ((link.state.targetsBySid sid).map PathAndQos.path) := by
  cases message with
  | requestMessage requests =>
    obtain ⟨request, rfl, hlength⟩ := hsimple
    unfold behavior at h
    split at h
    · cases h
      have hparts : RequesterState.parts [request] = request.split := List.append_nil _
      obtain ⟨hrid, hsid⟩ := link.state.foldl_settle_entryOf (List.Subset.refl request.split)
      rw [RequesterState.after_single, RequesterState.entries_of_single _ hlength]
      constructor
      · intro rid
        rw [← hrid, ← RequesterState.targetsByRid_foldl_settled]
        rfl
      · intro sid
        rw [← hsid, ← RequesterState.targetsBySid_foldl_settled]
        rfl
    · -- without a link to send by, the message is stashed and nothing is persisted
      cases h
      exact ⟨fun _ => rfl, fun _ => rfl⟩
  | responseEnvelope responses =>
    have hcleanup : RequesterState.cleanupStoredTargets responses = some outcome.persisted := by
      unfold behavior at h
      split at h
      · simp only [RequesterState.requesterBehavior, Option.bind_eq_bind, Option.pure_def,
          Option.bind_eq_some_iff, Option.some.injEq] at h
        obtain ⟨persisted, hpersisted, _, _, rfl⟩ := h
        exact hpersisted
      · simp only [RequesterState.requesterDisconnected, Option.bind_eq_bind, Option.pure_def,
          Option.bind_eq_some_iff, Option.some.injEq] at h
        obtain ⟨persisted, hpersisted, _, _, rfl⟩ := h
        exact hpersisted
    exact RequesterState.after_cleanupStoredTargets hcleanup link.state

theorem replayed_append {journal events : List RequesterEvent} {s : RequesterState}
    (h : journal.foldl RequesterState.requesterRecover .initial = s) :
    (journal ++ events).foldl RequesterState.requesterRecover .initial = s.after events := by
  have hrecover : RequesterState.requesterRecover = RequesterState.handle := by
    funext s event
    exact s.requesterRecover_eq_handle event
  rw [List.foldl_append, h, hrecover]
  rfl

theorem Bookkept.handle {link link' : RequesterLink} {message : RequesterMessage}
    (h : link.Bookkept) (hsimple : message.Simple) (hrun : link.handle message = some link') :
    link'.Bookkept := by
  obtain ⟨outcome, houtcome, rfl⟩ := handle_eq_some hrun
  obtain ⟨hrid, hsid⟩ := after_behavior hsimple houtcome
  have hhistory : ∀ next : RequesterLink, next.handled = link.handled ++ [⟨message, outcome⟩] →
      next.history = link.history ++ (⟨message, outcome⟩ : HandledMessage).entries := by
    intro next hnext
    rw [history, hnext, List.flatMap_append, List.flatMap_singleton]
    rfl
  constructor
  · intro rid
    refine (hrid rid).trans (Eq.trans ?_ (congrArg _ (hhistory _ rfl)).symm)
    rw [h.byRid, latest_append]
  · intro sid
    refine (hsid sid).trans (Eq.trans ?_ (congrArg _ (hhistory _ rfl)).symm)
    rw [h.bySid, latest_append]
  · exact replayed_append h.replayed
  · intro other hother
    split at hother
    · rw [List.append_assoc, List.mem_append, List.singleton_append, List.mem_cons] at hother
      rcases hother with hstash | rfl | hredelivered
      · exact h.waiting other (List.mem_append_left _ hstash)
      · exact hsimple
      · exact h.waiting other (List.mem_append_right _ hredelivered)
    · exact h.waiting other hother

theorem Bookkept.step {link link' : RequesterLink} {input : LinkInput} (h : link.Bookkept)
    (hok : link.OneAtATime input) (hstep : link.step input = some link') : link'.Bookkept := by
  rcases step_cases hstep with ⟨_, hnone, rfl⟩ | ⟨_, _, rfl⟩ | ⟨message, rfl, _, hrun⟩ |
    ⟨message, rest, _, hredelivered, hrun⟩
  · refine ⟨h.byRid, h.bySid, h.replayed, fun message hmessage => h.waiting message ?_⟩
    rwa [hnone, List.append_nil]
  · exact ⟨h.byRid, h.bySid, h.replayed, h.waiting⟩
  · have harrived : (link.arrival message).Bookkept := ⟨h.byRid, h.bySid, h.replayed, h.waiting⟩
    exact harrived.handle hok hrun
  · have hsimple := h.waiting message
      (List.mem_append_right _ (hredelivered ▸ List.mem_cons_self))
    have hnext : ({ link with redelivered := rest } : RequesterLink).Bookkept := by
      refine ⟨h.byRid, h.bySid, h.replayed, fun other hother => h.waiting other ?_⟩
      rw [hredelivered]
      rcases List.mem_append.mp hother with hstash | hrest
      · exact List.mem_append_left _ hstash
      · exact List.mem_append_right _ (List.mem_cons_of_mem _ hrest)
    exact hnext.handle hsimple hrun

/-- No target is changed. -/
def SameTargets (s s' : RequesterState) : Prop :=
  s'.targetsByRid = s.targetsByRid ∧ s'.targetsBySid = s.targetsBySid

/-- A request of one part whose target is looked up, when the maps hold what the history
leaves. -/
theorem routed_of_latest {s : RequesterState} {part : DSARequest}
    {touch : LinkEntry → Option (Option Str)} {entries : List LinkEntry}
    (hsplit : part.split = [part]) (hfound : (s.route part).target = latest touch entries)
    (hdropped : (s.route part).target = none → (s.route part).persisted = []) :
    (∀ target, LastSet touch entries target →
        (s.processRequests [part]).routed = [(target, [part])]) ∧
      ((∀ target, ¬ LastSet touch entries target) → (s.processRequests [part]).routed = [] ∧
        (s.processRequests [part]).persisted = [.lastRidSet part.rid] ∧
        SameTargets s (s.after (s.processRequests [part]).persisted)) := by
  constructor
  · intro target hlast
    rw [s.routed_of_single hsplit, hfound, latest_eq_some_iff.mpr hlast]
    rfl
  · intro hnever
    have hnone : (s.route part).target = none := by
      rw [hfound, Option.eq_none_iff_forall_ne_some]
      exact fun target hlatest => hnever target (latest_eq_some_iff.mp hlatest)
    have hpersisted : (s.processRequests [part]).persisted = [.lastRidSet part.rid] := by
      simp only [RequesterState.processRequests, List.flatMap_cons, List.flatMap_nil, hsplit,
        List.append_nil, hdropped hnone, List.nil_append, List.getLast?_singleton,
        Option.map_some, Option.toList_some]
    rw [s.routed_of_single hsplit, hnone, hpersisted]
    exact ⟨rfl, rfl, rfl, rfl⟩

/-- **Requester bookkeeping.**  In every run with one request at a time, CLOSE is routed to the
target that the latest LIST or INVOKE with its RID was routed to, and UNSUBSCRIBE to that of the
latest SUBSCRIBE with its SID, unless a CLOSE, an UNSUBSCRIBE or a closed response came since;
then it is dropped, no target changes, and all that is persisted is that its RID is the last one.
The journal replays to the live state. -/
theorem requester_bookkeeping {link : RequesterLink}
    (h : Reachable step OneAtATime initial link) :
    (∀ rid, ∃ outcome, link.state.requesterBehavior (.requestMessage [.close rid]) = some outcome ∧
      (∀ target, LastSet (LinkEntry.touchRid rid) link.history target →
        outcome.routed = [(target, [.close rid])]) ∧
      ((∀ target, ¬ LastSet (LinkEntry.touchRid rid) link.history target) →
        outcome.routed = [] ∧ outcome.persisted = [.lastRidSet rid] ∧
          SameTargets link.state (link.state.after outcome.persisted))) ∧
    (∀ rid sid, ∃ outcome,
      link.state.requesterBehavior (.requestMessage [.unsubscribe rid [sid]]) = some outcome ∧
      (∀ target, LastSet (LinkEntry.touchSid sid) link.history target →
        outcome.routed = [(target, [.unsubscribe rid [sid]])]) ∧
      ((∀ target, ¬ LastSet (LinkEntry.touchSid sid) link.history target) →
        outcome.routed = [] ∧ outcome.persisted = [.lastRidSet rid] ∧
          SameTargets link.state (link.state.after outcome.persisted))) ∧
    link.journal.foldl RequesterState.requesterRecover .initial = link.state := by
  have hkept : link.Bookkept := by
    apply h.invariant bookkept_initial
    exact fun _ _ _ hinv hok hstep => hinv.step hok hstep
  refine ⟨fun rid => ⟨_, rfl, ?_⟩, fun rid sid => ⟨_, rfl, ?_⟩, hkept.replayed⟩
  · apply routed_of_latest rfl
    · rw [← hkept.byRid, ← RequesterState.foundTarget_close]
      exact RequesterState.target_route_close ..
    · simp only [RequesterState.route, RequesterState.resolveTarget]
      cases link.state.targetsByRid rid with
      | none => exact fun _ => rfl
      | some target => rintro ⟨⟩
  · apply routed_of_latest rfl
    · rw [← hkept.bySid, ← RequesterState.foundTarget_unsubscribe]
      exact RequesterState.target_route_unsubscribe ..
    · simp only [RequesterState.route, RequesterState.resolveTarget, List.head?_cons,
        Option.bind_some]
      cases link.state.targetsBySid sid with
      | none => exact fun _ => rfl
      | some target => rintro ⟨⟩

/-- A LIST that is routed, and its CLOSE. -/
theorem requester_bookkeeping_close :
    ∃ link, Reachable step OneAtATime initial link ∧
      ∃ outcome, link.state.requesterBehavior (.requestMessage [.close 1]) = some outcome ∧
        outcome.routed = [(str "/data", [.close 1])] := by
  have hreached : Reachable step OneAtATime initial _ :=
    .next (.receive (.requestMessage [.list 1 (str "/data")]))
      (.next .connectEndpoint .start trivial rfl) ⟨_, rfl, Nat.le_refl 1⟩ rfl
  obtain ⟨hclose, _⟩ := requester_bookkeeping hreached
  obtain ⟨outcome, hrun, hrouted, _⟩ := hclose 1
  refine ⟨_, hreached, outcome, hrun, hrouted _ ?_⟩
  rw [← latest_eq_some_iff]
  decide +kernel

/-- A CLOSE that finds no target is dropped, but its RID is the last one from then on. -/
theorem dropped_close_sets_lastRid :
    ∃ link link', Reachable step OneAtATime initial link ∧
      (∀ target, ¬ LastSet (LinkEntry.touchRid 5) link.history target) ∧
      link.step (.receive (.requestMessage [.close 5])) = some link' ∧
      link'.state ≠ link.state := by
  refine ⟨_, _, .next .connectEndpoint .start trivial rfl, ?_, rfl, ?_⟩
  · intro target hlast
    cases latest_eq_some_iff.mpr hlast
  · intro hsame
    exact absurd (congrArg RequesterState.lastRid hsame) (by decide)

end RequesterLink

end DsaBroker
