import DsaBroker.DSAValue
import DsaBroker.Runs
import Mathlib.Data.List.Induction

/-!
# The session of a link

`AbstractDSLinkActor`: a link is connected to an endpoint or not.  The persist handlers of a
message run before the next message, in the order of the calls; a reconnect makes two calls.

A link is restarted by its supervisor within its actor cell, which goes on watching what it
watched, or started anew in another cell, which watches nothing.  Either way it recovers its
base state from the journal.  Recovery restores the endpoint and the behavior but does not watch
the endpoint, so the session state holds in the runs that never start a link anew while its
journal ends with an endpoint (`session_state`).
-/

namespace DsaBroker

/-- A reference to an endpoint actor, by its uid. -/
abbrev EndpointRef := Int

inductive DSLinkMode where
  | responder | requester | dual
deriving DecidableEq, Repr

/-- Encapsulates information about a DSLink.  The constructor throws for a link that is neither
a requester nor a responder. -/
structure ConnectionInfo where
  dsId : Str
  linkName : Str
  isRequester : Bool
  isResponder : Bool
  valid : (isRequester || isResponder) = true
deriving DecidableEq

def ConnectionInfo.mode (ci : ConnectionInfo) : DSLinkMode :=
  if ci.isRequester then if ci.isResponder then .dual else .requester else .responder

/-- The connection info of a link that starts, a requester initially. -/
def ConnectionInfo.initially (linkName : Str) : ConnectionInfo := ⟨[], linkName, true, false, rfl⟩

/-- Internal state of the abstract layer: the variables of the actor, and the event that sets
all of them. -/
structure DSLinkBaseState where
  endpoint : Option EndpointRef
  connInfo : ConnectionInfo
  lastConnected : Option Int := none
  lastDisconnected : Option Int := none
deriving DecidableEq

inductive RegistryMessage where
  | registerDSLink (name : Str) (mode : DSLinkMode) (connected : Bool)
  | dsLinkStateChanged (name : Str) (mode : DSLinkMode) (connected : Bool)
  | unregisterDSLink (name : Str)
deriving DecidableEq

/-- What a link sends: to the registry, to an endpoint or to the sender of a message. -/
inductive LinkOutput where
  | toRegistry (message : RegistryMessage)
  | poisonPill (endpoint : EndpointRef)
  | routeeUpdateRequest (endpoint : EndpointRef)
  | reply (text : Str)
  | linkInfo (ci : ConnectionInfo) (connected : Bool) (lastConnected lastDisconnected : Option Int)
deriving DecidableEq

/-- A link in its actor cell, with its journal and the endpoints whose connects it accepted. -/
structure LinkActor where
  linkName : Str
  state : DSLinkBaseState
  /-- The behavior. -/
  connected : Bool
  watching : List EndpointRef
  journal : List DSLinkBaseState
  accepted : List EndpointRef

inductive SessionMessage where
  | connectEndpoint (ci : ConnectionInfo) (ref : EndpointRef) (now : Int)
  | disconnectEndpoint (kill : Bool) (now : Int)
  | terminated (ref : EndpointRef) (now : Int)
  | getLinkInfo
  | ping

/-- A message has been processed: the link, the events to persist and the messages sent. -/
structure Received where
  link : LinkActor
  persisted : List DSLinkBaseState := []
  outputs : List LinkOutput := []

namespace LinkActor

/-! ### Start and recovery -/

/-- The variables of a link that starts. -/
def freshState (linkName : Str) : DSLinkBaseState := ⟨none, .initially linkName, none, none⟩

/-- `preStart` notifies the registry. -/
def preStart (linkName : Str) : List LinkOutput :=
  [.toRegistry (.registerDSLink linkName (ConnectionInfo.initially linkName).mode false)]

/-- `postStop` notifies the registry. -/
def postStop (linkName : Str) : List LinkOutput := [.toRegistry (.unregisterDSLink linkName)]

/-- A link that has never been started before. -/
def initial (linkName : Str) : LinkActor where
  linkName := linkName
  state := freshState linkName
  connected := false
  watching := []
  journal := []
  accepted := []

def updateState (_ event : DSLinkBaseState) : DSLinkBaseState := event

/-- Recovers events of base layer from the journal, then `afterRecovery`. -/
def recovered (link : LinkActor) : LinkActor :=
  let state := link.journal.foldl updateState (freshState link.linkName)
  { link with
    state := state
    connected := state.endpoint.isSome }

def afterRecovery (link : LinkActor) : List LinkOutput :=
  link.state.endpoint.toList.map .routeeUpdateRequest

/-! ### Connecting and disconnecting -/

def watch (link : LinkActor) (ref : EndpointRef) : LinkActor :=
  { link with watching := if ref ∈ link.watching then link.watching else ref :: link.watching }

def unwatch (link : LinkActor) (ref : EndpointRef) : LinkActor :=
  { link with watching := link.watching.filter (· ≠ ref) }

/-- The event that `connectToEndpoint` persists. -/
def connectEvent (link : LinkActor) (ref : EndpointRef) (ci : ConnectionInfo) (now : Int) :
    DSLinkBaseState :=
  ⟨some ref, ci, some now, link.state.lastDisconnected⟩

/-- The event that `disconnectFromEndpoint` persists. -/
def disconnectEvent (link : LinkActor) (now : Int) : DSLinkBaseState :=
  ⟨none, link.state.connInfo, link.state.lastConnected, some now⟩

/-- The handlers of `connectToEndpoint` and `disconnectFromEndpoint`, told apart by the event. -/
def handle (r : LinkActor × List LinkOutput) (event : DSLinkBaseState) :
    LinkActor × List LinkOutput :=
  let journaled := { r.1 with journal := r.1.journal ++ [event] }
  match event.endpoint with
  | some ref =>
      ({ journaled.watch ref with state := updateState r.1.state event, connected := true },
        r.2 ++ [.toRegistry (.dsLinkStateChanged r.1.linkName event.connInfo.mode true)])
  | none =>
      ({ journaled with state := updateState r.1.state event, connected := false },
        r.2 ++ [.toRegistry (.dsLinkStateChanged r.1.linkName event.connInfo.mode false)])

/-- Dissociates this link from the endpoint. -/
def disconnectFromEndpoint (link : LinkActor) (kill : Bool) (now : Int) : Received :=
  match link.state.endpoint with
  | some ref =>
      { link := link.unwatch ref
        persisted := [link.disconnectEvent now]
        outputs := if kill then [.poisonPill ref] else [] }
  | none => { link := link }

/-- Associates this link with an endpoint. -/
def connectToEndpoint (r : Received) (ref : EndpointRef) (ci : ConnectionInfo) (now : Int) :
    Received :=
  { r with
    link := { r.link with accepted := r.link.accepted ++ [ref] }
    persisted := r.persisted ++ [r.link.connectEvent ref ci now] }

def reply (r : Received) (text : String) : Received :=
  { r with outputs := r.outputs ++ [.reply (str text)] }

/-! ### Behaviors -/

/-- Handles messages in CONNECTED state. -/
def whenConnected (link : LinkActor) : SessionMessage → Received
  | .disconnectEndpoint kill now => link.disconnectFromEndpoint kill now
  | .terminated wsActor now =>
      if some wsActor = link.state.endpoint then link.disconnectFromEndpoint false now
      else { link := link }
  | .getLinkInfo =>
      { link := link
        outputs := [.linkInfo link.state.connInfo true link.state.lastConnected
          link.state.lastDisconnected] }
  | .connectEndpoint ci ref now =>
      if some ref ≠ link.state.endpoint then
        reply (connectToEndpoint (link.disconnectFromEndpoint true now) ref ci now) "Reconnecting"
      else reply { link := link } "Already connecting"
  | .ping => reply { link := link } "Ok"

/-- Handles messages in DISCONNECTED state.  A ping and a termination are left to the behaviors
mixed in, which stash them. -/
def whenDisconnected (link : LinkActor) : SessionMessage → Received
  | .connectEndpoint ci ref now =>
      reply (connectToEndpoint { link := link } ref ci now) "Connecting"
  | .getLinkInfo =>
      { link := link
        outputs := [.linkInfo link.state.connInfo false link.state.lastConnected
          link.state.lastDisconnected] }
  | .disconnectEndpoint _ _ => { link := link }
  | .terminated _ _ | .ping => { link := link }

/-- Processes a message and runs the persist handlers. -/
def receive (link : LinkActor) (message : SessionMessage) : LinkActor × List LinkOutput :=
  let r := if link.connected then link.whenConnected message else link.whenDisconnected message
  r.persisted.foldl handle (r.link, r.outputs)

end LinkActor

/-! ### Runs -/

inductive SessionInput where
  | receive (message : SessionMessage)
  /-- by the supervisor, in the same cell -/
  | restart
  /-- in another cell, after the link was stopped -/
  | startAnew
  /-- in another cell, after everything went down -/
  | startAfterCrash

namespace LinkActor

/-- A link in a cell of its own, which watches nothing yet. -/
def inNewCell (link : LinkActor) : LinkActor := { link with watching := [] }

/-- The termination of an actor is received only while it is watched, and ends the watch. -/
def terminate (link : LinkActor) (ref : EndpointRef) : Option LinkActor :=
  if ref ∈ link.watching then some (link.unwatch ref) else none

/-- One step and what the link sends in it. -/
def perform (link : LinkActor) : SessionInput → Option (LinkActor × List LinkOutput)
  | .receive (.terminated ref now) =>
      (link.terminate ref).map fun link => link.receive (.terminated ref now)
  | .receive message => some (link.receive message)
  | .restart =>
      let restarted := link.recovered
      some (restarted,
        postStop link.linkName ++ preStart link.linkName ++ restarted.afterRecovery)
  | .startAnew =>
      let started := link.inNewCell.recovered
      some (started, postStop link.linkName ++ preStart link.linkName ++ started.afterRecovery)
  | .startAfterCrash =>
      let started := link.inNewCell.recovered
      some (started, preStart link.linkName ++ started.afterRecovery)

def step (link : LinkActor) (input : SessionInput) : Option LinkActor :=
  (link.perform input).map Prod.fst

/-- **The session state.**  The link is in the connected behavior exactly when it has an
endpoint; its endpoint is that of the latest connect it accepted, and is watched; no endpoint
accepted before is watched any more. -/
structure SessionState (link : LinkActor) : Prop where
  connected : link.connected = true ↔ link.state.endpoint.isSome
  endpoint : ∀ ref, link.state.endpoint = some ref →
    link.accepted.getLast? = some ref ∧ ref ∈ link.watching
  unwatched : ∀ ref ∈ link.accepted, link.state.endpoint ≠ some ref → ref ∉ link.watching

/-- The journal does not end with an endpoint, so a link that recovers from it in a new cell takes
itself for disconnected. -/
def EndsDisconnected (link : LinkActor) : Prop :=
  ∀ event, link.journal.getLast? = some event → event.endpoint = none

/-- The link is started anew only if its journal does not end with an endpoint. -/
def NotAnewWithEndpoint (link : LinkActor) : SessionInput → Prop
  | .startAnew | .startAfterCrash => link.EndsDisconnected
  | _ => True

/-! ### What a message does to the session -/

/-- The messages for the registry. -/
def registryMessages (outputs : List LinkOutput) : List RegistryMessage :=
  outputs.filterMap fun
    | .toRegistry message => some message
    | _ => none

/-- The four things that a message can do, and what the registry is told. -/
inductive Session (link : LinkActor) : LinkActor → List RegistryMessage → Prop where
  | kept : Session link link []
  | disconnected {ref : EndpointRef} (now : Int) (hendpoint : link.state.endpoint = some ref) :
      Session link
        { link.unwatch ref with
          state := link.disconnectEvent now
          connected := false
          journal := link.journal ++ [link.disconnectEvent now] }
        [.dsLinkStateChanged link.linkName link.state.connInfo.mode false]
  | connected (ref : EndpointRef) (ci : ConnectionInfo) (now : Int)
      (hendpoint : link.state.endpoint = none) :
      Session link
        { link.watch ref with
          state := link.connectEvent ref ci now
          connected := true
          journal := link.journal ++ [link.connectEvent ref ci now]
          accepted := link.accepted ++ [ref] }
        [.dsLinkStateChanged link.linkName ci.mode true]
  | reconnected {old : EndpointRef} (ref : EndpointRef) (ci : ConnectionInfo) (now : Int)
      (hendpoint : link.state.endpoint = some old) :
      Session link
        { (link.unwatch old).watch ref with
          state := link.connectEvent ref ci now
          connected := true
          journal := link.journal ++ [link.disconnectEvent now] ++ [link.connectEvent ref ci now]
          accepted := link.accepted ++ [ref] }
        [.dsLinkStateChanged link.linkName link.state.connInfo.mode false,
          .dsLinkStateChanged link.linkName ci.mode true]

/-- Every message the actor can receive does one of four things to the session: nothing, or a
connection, a disconnection, or a reconnection to another endpoint. -/
theorem session_of_receive {link : LinkActor}
    (h : link.connected = true ↔ link.state.endpoint.isSome) (message : SessionMessage) :
    Session link (link.receive message).1 (registryMessages (link.receive message).2) := by
  -- the actor is connected just while it has an endpoint, so its behavior says which
  cases hconnected : link.connected with
  | false =>
    have hnone : link.state.endpoint = none := by
      apply Option.not_isSome_iff_eq_none.mp
      intro hsome
      cases hconnected.symm.trans (h.mpr hsome)
    have hreceive : link.receive message =
        (link.whenDisconnected message).persisted.foldl handle
          ((link.whenDisconnected message).link, (link.whenDisconnected message).outputs) := by
      simp only [receive, hconnected, Bool.false_eq_true, if_false]
    rw [hreceive]
    cases message with
    | connectEndpoint ci ref now => exact .connected ref ci now hnone
    | disconnectEndpoint kill now => exact .kept
    | terminated ref now => exact .kept
    | getLinkInfo => exact .kept
    | ping => exact .kept
  | true =>
    obtain ⟨ref, href⟩ := Option.isSome_iff_exists.mp (h.mp hconnected)
    have hreceive : link.receive message =
        (link.whenConnected message).persisted.foldl handle
          ((link.whenConnected message).link, (link.whenConnected message).outputs) := by
      simp only [receive, hconnected, if_true]
    rw [hreceive]
    cases message with
    | connectEndpoint ci next now =>
      simp only [whenConnected, disconnectFromEndpoint, href]
      split
      · exact .reconnected next ci now href
      · exact .kept
    | disconnectEndpoint kill now =>
      simp only [whenConnected, disconnectFromEndpoint, href]
      cases kill <;> exact .disconnected now href
    | terminated wsActor now =>
      simp only [whenConnected]
      split
      · simp only [disconnectFromEndpoint, href]
        exact .disconnected now href
      · exact .kept
    | getLinkInfo => exact .kept
    | ping => exact .kept

/-! ### The invariant -/

/-- Beside the session state: only the endpoint is watched, and the journal recovers the
state. -/
structure SessionInv (link : LinkActor) : Prop where
  connected : link.connected = true ↔ link.state.endpoint.isSome
  endpoint : ∀ ref, link.state.endpoint = some ref →
    link.accepted.getLast? = some ref ∧ ref ∈ link.watching
  watching : ∀ ref ∈ link.watching, link.state.endpoint = some ref
  journal : link.journal.getLast?.getD (freshState link.linkName) = link.state

theorem sessionInv_initial (linkName : Str) : (initial linkName).SessionInv where
  connected := by simp only [initial, freshState, Option.isSome_none]
  endpoint := by rintro ref ⟨⟩
  watching := by rintro ref ⟨⟩
  journal := rfl

theorem mem_watch {link : LinkActor} {ref r : EndpointRef} :
    r ∈ (link.watch ref).watching ↔ r = ref ∨ r ∈ link.watching := by
  simp only [watch]
  split
  case isTrue h =>
    constructor
    · exact Or.inr
    · rintro (rfl | hr)
      · exact h
      · exact hr
  case isFalse => exact List.mem_cons

theorem mem_unwatch {link : LinkActor} {ref r : EndpointRef} :
    r ∈ (link.unwatch ref).watching ↔ r ∈ link.watching ∧ r ≠ ref := by
  simp only [unwatch, List.mem_filter, decide_eq_true_eq]

/-- Each of the four keeps the invariant. -/
theorem SessionInv.session {link link' : LinkActor} {sent : List RegistryMessage}
    (h : link.SessionInv) (hsession : Session link link' sent) : link'.SessionInv := by
  cases hsession with
  | kept => exact h
  | @disconnected ref now hendpoint =>
    constructor
    · simp only [disconnectEvent, Option.isSome_none, Bool.false_eq_true]
    · rintro other ⟨⟩
    · -- what is watched still would have been the endpoint that is given up
      intro other hother
      obtain ⟨hwatched, hne⟩ := mem_unwatch.mp hother
      exact absurd (Option.some.inj ((h.watching other hwatched).symm.trans hendpoint)) hne
    · rw [List.getLast?_concat]
      rfl
  | connected ref ci now hendpoint =>
    constructor
    · simp only [connectEvent, Option.isSome_some]
    · rintro other ⟨⟩
      exact ⟨List.getLast?_concat, mem_watch.mpr (Or.inl rfl)⟩
    · intro other hother
      rcases mem_watch.mp hother with rfl | hwatched
      · rfl
      · cases hendpoint.symm.trans (h.watching other hwatched)
    · rw [List.getLast?_concat]
      rfl
  | @reconnected old ref ci now hendpoint =>
    constructor
    · simp only [connectEvent, Option.isSome_some]
    · rintro other ⟨⟩
      exact ⟨List.getLast?_concat, mem_watch.mpr (Or.inl rfl)⟩
    · -- the old endpoint is watched no longer, and no other one was
      intro other hother
      rcases mem_watch.mp hother with rfl | hwatched
      · rfl
      · obtain ⟨hbefore, hne⟩ := mem_unwatch.mp hwatched
        exact absurd (Option.some.inj ((h.watching other hbefore).symm.trans hendpoint)) hne
    · rw [List.getLast?_concat]
      rfl

theorem foldl_updateState (journal : List DSLinkBaseState) (state : DSLinkBaseState) :
    journal.foldl updateState state = journal.getLast?.getD state := by
  induction journal using List.reverseRecOn with
  | nil => rfl
  | append_singleton journal last _ =>
    rw [List.foldl_append, List.getLast?_concat]
    rfl

/-- Recovery restores the state, and the behavior with it. -/
theorem SessionInv.state_recovered {link : LinkActor} (h : link.SessionInv) :
    link.recovered = link := by
  have hstate : link.journal.foldl updateState (freshState link.linkName) = link.state := by
    rw [foldl_updateState, h.journal]
  have hconnected : link.state.endpoint.isSome = link.connected := by
    rw [Bool.eq_iff_iff]
    exact h.connected.symm
  simp only [recovered, hstate, hconnected]

/-- A cell that watches nothing is in order if the link has no endpoint. -/
theorem SessionInv.inNewCell {link : LinkActor} (h : link.SessionInv)
    (hends : link.EndsDisconnected) : link.inNewCell.SessionInv := by
  have hnone : link.state.endpoint = none := by
    rw [← h.journal]
    cases hlast : link.journal.getLast? with
    | none => rfl
    | some event => exact hends event hlast
  constructor
  · exact h.connected
  · intro ref hendpoint
    cases hnone.symm.trans hendpoint
  · rintro ref ⟨⟩
  · exact h.journal

theorem unwatch_unwatch (link : LinkActor) (ref : EndpointRef) :
    (link.unwatch ref).unwatch ref = link.unwatch ref := by
  simp only [unwatch, List.filter_filter, Bool.and_self]

/-- The termination of the endpoint ends the session. -/
theorem session_of_terminated {link : LinkActor} (h : link.SessionInv) {ref : EndpointRef}
    (hwatched : ref ∈ link.watching) (now : Int) :
    Session link ((link.unwatch ref).receive (.terminated ref now)).1
      (registryMessages ((link.unwatch ref).receive (.terminated ref now)).2) := by
  have hendpoint := h.watching ref hwatched
  have hconnected : (link.unwatch ref).connected = true := h.connected.mpr (hendpoint ▸ rfl)
  have hafter : (link.unwatch ref).state.endpoint = some ref := hendpoint
  simp only [receive, hconnected, if_true, whenConnected, hafter, disconnectFromEndpoint,
    unwatch_unwatch]
  exact .disconnected now hendpoint

/-- A message that is received does one of the four things. -/
theorem session_of_perform {link : LinkActor} {message : SessionMessage}
    {r : LinkActor × List LinkOutput} (h : link.SessionInv)
    (hperform : link.perform (.receive message) = some r) :
    Session link r.1 (registryMessages r.2) := by
  cases message with
  | terminated ref now =>
    simp only [perform, terminate] at hperform
    split at hperform
    case isTrue hwatched =>
      cases hperform
      exact session_of_terminated h hwatched now
    case isFalse => cases hperform
  | connectEndpoint ci ref now =>
    cases hperform
    exact session_of_receive h.connected _
  | disconnectEndpoint kill now =>
    cases hperform
    exact session_of_receive h.connected _
  | getLinkInfo =>
    cases hperform
    exact session_of_receive h.connected _
  | ping =>
    cases hperform
    exact session_of_receive h.connected _

theorem SessionInv.perform {link : LinkActor} {input : SessionInput}
    {r : LinkActor × List LinkOutput} (h : link.SessionInv) (hok : link.NotAnewWithEndpoint input)
    (hperform : link.perform input = some r) : r.1.SessionInv := by
  cases input with
  | receive message => exact h.session (session_of_perform h hperform)
  | restart =>
    cases hperform
    exact h.state_recovered.symm ▸ h
  | startAnew =>
    cases hperform
    exact (h.inNewCell hok).state_recovered.symm ▸ h.inNewCell hok
  | startAfterCrash =>
    cases hperform
    exact (h.inNewCell hok).state_recovered.symm ▸ h.inNewCell hok

/-- **Session state machine.**  In every run that never starts the link anew while its journal
ends with an endpoint, the session state holds after every message and every restart. -/
theorem session_state {linkName : Str} {link : LinkActor}
    (h : Reachable step NotAnewWithEndpoint (initial linkName) link) : link.SessionState := by
  have hinv : link.SessionInv := by
    apply h.invariant (sessionInv_initial linkName)
    intro link input link' hinv hok hstep
    obtain ⟨r, hperform, rfl⟩ := Option.map_eq_some_iff.mp hstep
    exact hinv.perform hok hperform
  constructor
  · exact hinv.connected
  · exact hinv.endpoint
  · intro ref _ hother hwatched
    exact hother (hinv.watching ref hwatched)

/-- A connection info of a requester. -/
def requesterInfo : ConnectionInfo := ⟨str "dsId", str "A", true, false, rfl⟩

/-- Connect, reconnect to another endpoint, and a restart of the supervisor. -/
theorem session_state_reconnect :
    ∃ link, Reachable step NotAnewWithEndpoint (initial (str "A")) link ∧
      link.state.endpoint = some 2 ∧ link.accepted = [1, 2] ∧ link.SessionState := by
  have hreached : Reachable step NotAnewWithEndpoint (initial (str "A")) _ :=
    .next .restart
      (.next (.receive (.connectEndpoint requesterInfo 2 1))
        (.next (.receive (.connectEndpoint requesterInfo 1 0)) .start trivial rfl) trivial rfl)
      trivial rfl
  exact ⟨_, hreached, rfl, rfl, session_state hreached⟩

/-- A link that is started anew while its journal ends with an endpoint takes that endpoint for
connected without watching it. -/
theorem recovered_endpoint_not_watched :
    ∃ link, Reachable step AnyStep (initial (str "A")) link ∧ ¬ link.SessionState := by
  refine ⟨_, .next .startAfterCrash
    (.next (.receive (.connectEndpoint requesterInfo 1 0)) .start trivial rfl) trivial rfl, ?_⟩
  intro h
  exact absurd (h.endpoint 1 rfl).2 List.not_mem_nil

end LinkActor

end DsaBroker
