import DsaBroker.RequesterLink

/-!
# Delivery across disconnects

What a requester link owes its client for the envelopes that arrive: a subscription update goes
to the channel, while the link is disconnected only with QoS Durable or above; every other
response goes to the endpoint, after the reconnect if it has to.

A disconnected link stashes the whole envelope for the sake of its other responses, and the
redelivery hands its updates to the channel again.  So the law holds in the runs in which no
envelope that arrives while the link is disconnected carries both (`delivered_once`).
-/

namespace DsaBroker

def RequesterMessage.responses : RequesterMessage → List DSAResponse
  | .requestMessage _ => []
  | .responseEnvelope responses => responses

/-- The responses of a message that are for the endpoint. -/
def RequesterMessage.others (message : RequesterMessage) : List DSAResponse :=
  message.responses.filter fun response => !isSubscription response

/-- The message carries an update, a row for some subscription, which travel under RID 0. -/
def RequesterMessage.HasUpdate (message : RequesterMessage) : Prop :=
  ∃ response ∈ message.responses, response.rid = 0 ∧ response.updates.getD [] ≠ []

/-- The updates to be handed to the channel for a message that arrives. -/
def Arrival.dueUpdates (a : Arrival) : List SubscriptionNotificationMessage :=
  let updates := a.state.updates a.message.responses
  if a.connected then updates else updates.filter fun message => message.qos.AtLeastDurable

def Arrival.dueResponses (a : Arrival) : List DSAResponse := a.message.others

/-- Handed to the channel, through its stream or by `putMessage`. -/
def HandledMessage.handed (h : HandledMessage) : List SubscriptionNotificationMessage :=
  h.outcome.offered ++ h.outcome.put

namespace RequesterLink

def handedUpdates (link : RequesterLink) : List SubscriptionNotificationMessage :=
  link.handled.flatMap HandledMessage.handed

def sentToEndpoint (link : RequesterLink) : List DSAResponse :=
  link.handled.flatMap fun h => h.outcome.toEndpoint

/-- The responses for the endpoint that wait for a redelivery. -/
def pending (link : RequesterLink) : List DSAResponse :=
  (link.redelivered ++ link.stash).flatMap RequesterMessage.others

/-- **What the link owes.**  The updates due are handed over once each and in order, and nothing
else is; the other responses are sent once each and in order, or still wait; and nothing waits
once the link is connected and its stash has been redelivered. -/
structure DeliveredOnce (link : RequesterLink) : Prop where
  updates : link.handedUpdates = link.arrived.flatMap Arrival.dueUpdates
  responses : link.sentToEndpoint ++ link.pending = link.arrived.flatMap Arrival.dueResponses
  caughtUp : link.connected = true → link.redelivered = [] → link.pending = []

/-- The messages received are processed without an exception, and none that arrives while the
link is disconnected carries both an update and a response for the endpoint. -/
def Unmixed (link : RequesterLink) : LinkInput → Prop
  | .receive message =>
      (∀ response ∈ message.responses, RequesterState.WellFormed response) ∧
        (link.connected = false → ¬ (message.HasUpdate ∧ message.others ≠ []))
  | _ => True

end RequesterLink

theorem RequesterState.updates_eq_nil {s : RequesterState} {message : RequesterMessage}
    (h : ¬ message.HasUpdate) : s.updates message.responses = [] := by
  rw [RequesterState.updates, List.flatMap_eq_nil_iff]
  intro response hresponse
  obtain ⟨hmem, hrid⟩ := List.mem_filter.mp hresponse
  have hrows : response.updates.getD [] = [] :=
    not_not.mp fun hrows => h ⟨response, hmem, of_decide_eq_true hrid, hrows⟩
  rw [hrows, List.filterMap_nil]

namespace RequesterLink

/-! ### What handling a message hands over and sends -/

/-- A connected link hands all updates over, sends all other responses and stashes nothing. -/
theorem behavior_connected {link : RequesterLink} {message : RequesterMessage}
    (hconnected : link.connected = true)
    (hwf : ∀ response ∈ message.responses, RequesterState.WellFormed response) :
    ∃ outcome, link.behavior message = some outcome ∧
      outcome.offered ++ outcome.put = link.state.updates message.responses ∧
      outcome.toEndpoint = message.others ∧ outcome.stashed = false := by
  unfold behavior
  rw [if_pos hconnected]
  cases message with
  | requestMessage requests => exact ⟨_, rfl, rfl, rfl, rfl⟩
  | responseEnvelope responses =>
    obtain ⟨persisted, hrun⟩ := link.state.requesterBehavior_envelope hwf
    exact ⟨_, hrun, List.append_nil _, rfl, rfl⟩

/-- A disconnected link puts the durable updates, sends nothing and stashes the message if it
has a response for the endpoint; requests are stashed anyway. -/
theorem behavior_disconnected {link : RequesterLink} {message : RequesterMessage}
    (hdisconnected : link.connected = false)
    (hwf : ∀ response ∈ message.responses, RequesterState.WellFormed response) :
    ∃ outcome, link.behavior message = some outcome ∧
      outcome.offered ++ outcome.put =
        (link.state.updates message.responses).filter (fun update => update.qos.AtLeastDurable) ∧
      outcome.toEndpoint = [] ∧ (message.others ≠ [] → outcome.stashed = true) ∧
      (outcome.stashed = true → message.responses = [] ∨ message.others ≠ []) := by
  unfold behavior
  rw [hdisconnected, if_neg Bool.false_ne_true]
  cases message with
  | requestMessage requests =>
    exact ⟨_, rfl, rfl, rfl, fun _ => rfl, fun _ => Or.inl rfl⟩
  | responseEnvelope responses =>
    obtain ⟨persisted, hrun⟩ := link.state.requesterDisconnected_envelope hwf
    exact ⟨_, hrun, rfl, rfl, fun hothers => decide_eq_true hothers,
      fun hstashed => Or.inr (of_decide_eq_true hstashed)⟩

/-- What handling a message adds to the logs. -/
theorem logs_of_handle {link link' : RequesterLink} {message : RequesterMessage}
    (h : link.handle message = some link') :
    ∃ outcome, link.behavior message = some outcome ∧
      link'.handedUpdates = link.handedUpdates ++ (outcome.offered ++ outcome.put) ∧
      link'.sentToEndpoint = link.sentToEndpoint ++ outcome.toEndpoint ∧
      link'.stash = (if outcome.stashed then link.stash ++ [message] else link.stash) ∧
      link'.redelivered = link.redelivered ∧ link'.connected = link.connected ∧
      link'.arrived = link.arrived := by
  obtain ⟨outcome, houtcome, rfl⟩ := handle_eq_some h
  refine ⟨outcome, houtcome, ?_, ?_, rfl, rfl, rfl, rfl⟩
  · simp only [handedUpdates, List.flatMap_append, List.flatMap_singleton]
    rfl
  · simp only [sentToEndpoint, List.flatMap_append, List.flatMap_singleton]

/-! ### The invariant -/

/-- The link has delivered what it owes, only a disconnected link has a stash and only a
connected one redelivers, and what waits is well formed and carries no update. -/
structure Owing (link : RequesterLink) : Prop where
  updates : link.handedUpdates = link.arrived.flatMap Arrival.dueUpdates
  responses : link.sentToEndpoint ++ link.pending = link.arrived.flatMap Arrival.dueResponses
  stash : link.connected = true → link.stash = []
  redelivered : link.connected = false → link.redelivered = []
  waiting : ∀ message ∈ link.redelivered ++ link.stash,
    (∀ response ∈ message.responses, RequesterState.WellFormed response) ∧ ¬ message.HasUpdate

theorem owing_initial : initial.Owing where
  updates := rfl
  responses := rfl
  stash _ := rfl
  redelivered _ := rfl
  waiting _ h := absurd h List.not_mem_nil

theorem pending_eq_nil {link : RequesterLink} (hredelivered : link.redelivered = [])
    (hstash : link.stash = []) : link.pending = [] := by
  rw [pending, hredelivered, hstash]
  rfl

theorem Owing.receive_connected {link link' : RequesterLink} {message : RequesterMessage}
    (h : link.Owing) (hnone : link.redelivered = []) (hconnected : link.connected = true)
    (hwf : ∀ response ∈ message.responses, RequesterState.WellFormed response)
    (hrun : (link.arrival message).handle message = some link') : link'.Owing := by
  obtain ⟨outcome, houtcome, hhanded, hsent, hstash, hredelivered, hstill, harrived⟩ :=
    logs_of_handle hrun
  obtain ⟨_, hsame, hupdates, hothers, hstashed⟩ :=
    behavior_connected (show (link.arrival message).connected = true from hconnected) hwf
  cases houtcome.symm.trans hsame
  have hempty : link.stash = [] := h.stash hconnected
  rw [hstashed, if_neg Bool.false_ne_true] at hstash
  have hdue : Arrival.dueUpdates ⟨message, link.connected, link.state⟩ =
      link.state.updates message.responses := if_pos hconnected
  have hpending : link'.pending = [] :=
    pending_eq_nil (hredelivered.trans hnone) (hstash.trans hempty)
  have hbefore : link.pending = [] := pending_eq_nil hnone hempty
  have hresponses := h.responses
  rw [hbefore, List.append_nil] at hresponses
  constructor
  · rw [hhanded, harrived, hupdates]
    simp only [arrival, List.flatMap_append, List.flatMap_singleton, hdue]
    rw [← h.updates]
    rfl
  · rw [hsent, harrived, hothers, hpending, List.append_nil]
    simp only [arrival, List.flatMap_append, List.flatMap_singleton]
    rw [← hresponses]
    rfl
  · exact fun _ => hstash.trans hempty
  · exact fun _ => hredelivered.trans hnone
  · intro other hother
    rw [hredelivered, hstash] at hother
    exact h.waiting other hother

/-- A message for a link that is away owes it the durable updates and the other responses: the
former are queued, the latter wait in the stash, each of them once. -/
theorem Owing.receive_disconnected {link link' : RequesterLink} {message : RequesterMessage}
    (h : link.Owing) (hnone : link.redelivered = []) (hdisconnected : link.connected = false)
    (hwf : ∀ response ∈ message.responses, RequesterState.WellFormed response)
    (hunmixed : ¬ (message.HasUpdate ∧ message.others ≠ []))
    (hrun : (link.arrival message).handle message = some link') : link'.Owing := by
  obtain ⟨outcome, houtcome, hhanded, hsent, hstash, hredelivered, hstill, harrived⟩ :=
    logs_of_handle hrun
  -- away, the link sends nothing: durable updates are queued, the rest of the message is stashed
  obtain ⟨_, hsame, hupdates, hothers, hstashed, hreason⟩ :=
    behavior_disconnected (show (link.arrival message).connected = false from hdisconnected) hwf
  cases houtcome.symm.trans hsame
  have hdue : Arrival.dueUpdates ⟨message, link.connected, link.state⟩ =
      (link.state.updates message.responses).filter fun update => update.qos.AtLeastDurable := by
    simp only [Arrival.dueUpdates, hdisconnected, Bool.false_eq_true, if_false]
  -- what waits grows by the others of this message, which is not stashed without any
  have hpending : link'.pending = link.pending ++ message.others := by
    rw [pending, hredelivered, hstash]
    by_cases hothersNil : message.others = []
    · rw [hothersNil, List.append_nil]
      split
      · simp only [pending, arrival, hnone, List.nil_append, List.flatMap_append,
          List.flatMap_singleton, hothersNil, List.append_nil]
      · rfl
    · rw [hstashed hothersNil, if_pos rfl]
      simp only [pending, arrival, hnone, List.nil_append, List.flatMap_append,
        List.flatMap_singleton]
  constructor
  · rw [hhanded, harrived, hupdates]
    simp only [arrival, List.flatMap_append, List.flatMap_singleton, hdue]
    rw [← h.updates]
    rfl
  · rw [hsent, harrived, hothers, hpending, List.append_nil]
    simp only [arrival, List.flatMap_append, List.flatMap_singleton]
    rw [← h.responses, List.append_assoc]
    rfl
  · rintro hconnected
    rw [hstill] at hconnected
    cases hdisconnected.symm.trans hconnected
  · exact fun _ => hredelivered.trans hnone
  · intro other hother
    rw [hredelivered, hstash] at hother
    split at hother
    case isFalse => exact h.waiting other hother
    -- the message is stashed for its others, so it has no updates that would be queued twice
    case isTrue hyes =>
      rcases List.mem_append.mp hother with hmore | hmore
      · exact h.waiting other (List.mem_append_left _ hmore)
      rcases List.mem_append.mp hmore with hmore | hmore
      · exact h.waiting other (List.mem_append_right _ hmore)
      rw [List.mem_singleton.mp hmore]
      refine ⟨hwf, fun hupdate => ?_⟩
      rcases hreason hyes with hempty | hsome
      · obtain ⟨response, hresponse, _⟩ := hupdate
        rw [hempty] at hresponse
        exact absurd hresponse List.not_mem_nil
      · exact hunmixed ⟨hupdate, hsome⟩

/-- A stashed message that comes back is handled like one that has just arrived, and is owed no
longer. -/
theorem Owing.redelivery {link link' : RequesterLink} {message : RequesterMessage}
    {rest : List RequesterMessage} (h : link.Owing) (hnext : link.redelivered = message :: rest)
    (hrun : ({ link with redelivered := rest } : RequesterLink).handle message = some link') :
    link'.Owing := by
  obtain ⟨outcome, houtcome, hhanded, hsent, hstash, hredelivered, hstill, harrived⟩ :=
    logs_of_handle hrun
  have hconnected : link.connected = true := by
    cases hc : link.connected with
    | true => rfl
    | false => cases hnext.symm.trans (h.redelivered hc)
  obtain ⟨hwf, hupdate⟩ := h.waiting message (by rw [hnext]; exact List.mem_cons_self)
  obtain ⟨_, hsame, hupdates, hothers, hstashed⟩ := behavior_connected
    (show ({ link with redelivered := rest } : RequesterLink).connected = true from hconnected) hwf
  cases houtcome.symm.trans hsame
  rw [hstashed, if_neg Bool.false_ne_true] at hstash
  have hnoUpdates : link.state.updates message.responses = [] :=
    RequesterState.updates_eq_nil hupdate
  have hpending : link.pending = message.others ++ link'.pending := by
    rw [pending, pending, hnext, hredelivered, hstash, List.cons_append, List.flatMap_cons]
  constructor
  · rw [hhanded, harrived, hupdates]
    show link.handedUpdates ++ link.state.updates message.responses = _
    rw [hnoUpdates, List.append_nil]
    exact h.updates
  · rw [hsent, harrived, hothers, List.append_assoc, ← hpending]
    exact h.responses
  · exact fun _ => hstash.trans (h.stash hconnected)
  · intro hdisconnected
    rw [hstill] at hdisconnected
    cases hconnected.symm.trans hdisconnected
  · intro other hother
    rw [hredelivered, hstash] at hother
    apply h.waiting other
    rw [hnext, List.cons_append]
    exact List.mem_cons_of_mem _ hother

theorem Owing.step {link link' : RequesterLink} {input : LinkInput} (h : link.Owing)
    (hok : link.Unmixed input) (hstep : link.step input = some link') : link'.Owing := by
  rcases step_cases hstep with ⟨_, hnone, rfl⟩ | ⟨_, hnone, rfl⟩ | ⟨message, rfl, hnone, hrun⟩ |
    ⟨message, rest, _, hnext, hrun⟩
  · constructor
    · exact h.updates
    · rw [← h.responses, pending, pending, hnone, List.append_nil, List.nil_append]
      rfl
    · exact fun _ => rfl
    · rintro ⟨⟩
    · intro other hother
      rw [List.append_nil] at hother
      exact h.waiting other (List.mem_append_right _ hother)
  · refine ⟨h.updates, h.responses, ?_, fun _ => hnone, h.waiting⟩
    rintro ⟨⟩
  · obtain ⟨hwf, hunmixed⟩ := hok
    cases hconnected : link.connected with
    | true => exact h.receive_connected hnone hconnected hwf hrun
    | false => exact h.receive_disconnected hnone hconnected hwf (hunmixed hconnected) hrun
  · exact h.redelivery hnext hrun

/-- **Delivery across disconnects.**  In every run in which no envelope that arrives while the
link is disconnected carries both an update and another response, every reachable link has
delivered exactly what it owes; and while it is disconnected no step sends to the endpoint.

What is owed for an update is its notification, which is the whole response: one that has several
rows is handed over once for each of them. -/
theorem delivered_once {link : RequesterLink} (h : Reachable step Unmixed initial link) :
    link.DeliveredOnce ∧ (link.connected = false → ∀ input link', link.Unmixed input →
      link.step input = some link' → link'.sentToEndpoint = link.sentToEndpoint) := by
  have hinv : link.Owing := by
    apply h.invariant owing_initial
    exact fun _ _ _ hinv hok hstep => hinv.step hok hstep
  constructor
  · refine ⟨hinv.updates, hinv.responses, fun hconnected hnone => ?_⟩
    exact pending_eq_nil hnone (hinv.stash hconnected)
  · intro hdisconnected input link' hok hstep
    rcases step_cases hstep with ⟨_, _, rfl⟩ | ⟨_, _, rfl⟩ | ⟨message, rfl, _, hrun⟩ |
      ⟨message, rest, _, hnext, _⟩
    · rfl
    · rfl
    · obtain ⟨outcome, houtcome, _, hsent, _⟩ := logs_of_handle hrun
      obtain ⟨_, hsame, _, hnothing, _⟩ := behavior_disconnected
        (show (link.arrival message).connected = false from hdisconnected) hok.1
      cases houtcome.symm.trans hsame
      rw [hsent, hnothing, List.append_nil]
      rfl
    · cases hnext.symm.trans (hinv.redelivered hdisconnected)

/-- A response that is stashed, and sent after the connect. -/
theorem delivered_once_stashed :
    ∃ link, Reachable step Unmixed initial link ∧
      link.sentToEndpoint = [{ rid := 1, stream := some .closed }] ∧ link.DeliveredOnce := by
  have hok : Unmixed initial
      (.receive (.responseEnvelope [{ rid := 1, stream := some .closed }])) := by
    constructor
    · intro response hresponse hrid
      rw [List.mem_singleton.mp hresponse] at hrid
      cases hrid
    · rintro _ ⟨⟨response, hresponse, hrid, _⟩, _⟩
      rw [List.mem_singleton.mp hresponse] at hrid
      cases hrid
  have hreached : Reachable step Unmixed initial _ :=
    .next .redelivery (.next .connectEndpoint (.next _ .start hok rfl) trivial rfl) trivial rfl
  exact ⟨_, hreached, rfl, (delivered_once hreached).1⟩

/-- What a broker node answers to a SUBSCRIBE: the closed request and the first update. -/
def subscribeAnswer : List DSAResponse :=
  [{ rid := 1, stream := some .closed },
    { rid := 0, stream := some .opened,
      updates := some [.map [(sidKey, .numeric 7), (str "value", .boolean true)]] }]

/-- Arriving at a disconnected link for a durable subscription, such an answer hands its update
to the channel twice. -/
theorem mixed_envelope_handed_twice :
    ∃ link, Reachable step AnyStep initial link ∧ ¬ link.DeliveredOnce := by
  have hrun : ∃ link, Reachable step AnyStep initial link ∧
      link.handedUpdates.length = 2 ∧ (link.arrived.flatMap Arrival.dueUpdates).length = 1 :=
    Reachable.exists_of_run
      [.connectEndpoint,
        .receive (.requestMessage [.subscribe 1 [⟨str "/downstream/R/blah", 7, some 2⟩]]),
        .disconnectEndpoint, .receive (.responseEnvelope subscribeAnswer), .connectEndpoint,
        .redelivery] (by decide +kernel)
  obtain ⟨link, hreached, htwice, honce⟩ := hrun
  refine ⟨link, hreached, fun h => ?_⟩
  rw [h.updates, honce] at htwice
  cases htwice

end RequesterLink

end DsaBroker
