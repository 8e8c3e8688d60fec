import DsaBroker.ForwardedCalls

/-!
# Responses relayed to requesters

`Relay` is a response on its way to a requester together with the target RID that it answers.
The responder relays a response when it handles it, and the last response of a LIST call when
an origin is added to the call.  What it sends besides are its own answers to the sender of an
envelope, and updates for subscribers (`receive_sent`).
-/

namespace DsaBroker

/-- A response sent to a requester, and the target RID that it answers. -/
structure Relay where
  targetId : Int
  target : Routee
  response : DSAResponse

/-! ### What is relayed -/

/-- What the handling of a response sends; a SUBSCRIBE response answers no target RID. -/
def relaysOfResponse (link : Link) (rsp : DSAResponse) (p : Processing) : List Relay :=
  if rsp.rid = 0 then []
  else
    match (responseHandler link rsp).run p with
    | (.ok results, p') =>
        ((p'.sent.drop p.sent.length).flatMap Delivery.each ++ results).map fun r =>
          ⟨rsp.rid, r.1, r.2⟩
    | (.error _, _) => []

def relaysOfResponses (link : Link) (p : Processing) : List DSAResponse → List Relay
  | [] => []
  | rsp :: rest =>
      relaysOfResponse link rsp p ++
        relaysOfResponses link ((responseHandler link rsp).run p).2 rest

/-- What a persist handler sends of an earlier response: the last one of a LIST call. -/
def relaysOfHandler (s : ResponderState) : PersistCall → List Relay
  | .group (.addOrigin _ _ .subs) => []
  | .group (.addOrigin targetId origin _) =>
      (s.listRegistry.getLastResponse targetId).toList.map fun rsp =>
        ⟨rsp.rid, origin.source, { rsp with rid := origin.sourceId }⟩
  | _ => []

def relaysOfHandlers (s : ResponderState) : List PersistCall → List Relay
  | [] => []
  | call :: rest => relaysOfHandler s call ++ relaysOfHandlers (call.applied s) rest

section

variable [ScanOrder Int]

/-- What a message relays. -/
def relays (link : Link) (s : ResponderState) : ResponderMessage → List Relay
  | .requestEnvelope sender requests =>
      let p := (processRequests link sender { state := s } requests).2
      relaysOfHandlers p.state p.persisted
  | .responseMessage responses => relaysOfResponses link { state := s } responses

end

theorem relaysOfHandlers_append (s : ResponderState) (calls later : List PersistCall) :
    relaysOfHandlers s (calls ++ later) =
      relaysOfHandlers s calls ++ relaysOfHandlers (s.performed calls) later := by
  induction calls generalizing s with
  | nil => rfl
  | cons call rest ih =>
    rw [List.cons_append, relaysOfHandlers, relaysOfHandlers, ih, List.append_assoc]
    rfl

theorem relaysOfHandlers_advance (issues : Bool × Bool) (s : ResponderState)
    (calls : List PersistCall) :
    relaysOfHandlers (s.advance issues) calls = relaysOfHandlers s calls := by
  induction calls generalizing s with
  | nil => rfl
  | cons call rest ih =>
    have hone : relaysOfHandler (s.advance issues) call = relaysOfHandler s call := by
      unfold relaysOfHandler
      rw [listRegistry_advance]
    rw [relaysOfHandlers, relaysOfHandlers, hone, applied_advance, ih]

/-! ### Nothing else is relayed -/

/-- An update for a subscriber, under its own SID. -/
def SubscriptionUpdate (sent : Routee × DSAResponse) : Prop :=
  ∃ rsp row origin, sent = (origin.source, Bindings.subscribeResponse rsp row origin)

def AmongRelays (relays : List Relay) (sent : Routee × DSAResponse) : Prop :=
  ∃ relay ∈ relays, sent = (relay.target, relay.response)

/-- The broker's own answer to a request. -/
def ResponderMessage.Answers (sent : Routee × DSAResponse) : ResponderMessage → Prop
  | .requestEnvelope sender requests =>
      ∃ request ∈ requests, sent = (sender, closedResponse request.rid)
  | .responseMessage _ => False

theorem subscriptionUpdate_of_deliver {b : Bindings} {rsp : DSAResponse}
    {delivered : Bindings.Delivered} (h : b.deliverSubscribeResponse rsp = some delivered) :
    ∀ sent ∈ delivered.sent, SubscriptionUpdate sent := by
  refine Bindings.deliverSubscribeResponse_invariant
    (fun d => ∀ sent ∈ d.sent, SubscriptionUpdate sent) ?_ ?_ h
  · intro d row first _ hd hfirst sent hsent
    obtain ⟨targetSid, _, rfl⟩ := Option.map_eq_some_iff.mp hfirst
    rcases List.mem_append.mp hsent with hold | hnew
    · exact hd sent hold
    · obtain ⟨origin, _, rfl⟩ := List.mem_map.mp hnew
      exact ⟨rsp, row, origin, rfl⟩
  · intro sent hsent
    cases hsent

/-- What a response sends is a subscription update or is relayed. -/
theorem responds_sent {link : Link} {p p' : Processing} {rsp : DSAResponse}
    {results : List (Routee × DSAResponse)}
    (hrun : (responseHandler link rsp).run p = (.ok results, p')) :
    ∀ sent ∈ p'.sent.flatMap Delivery.each ++ results,
      sent ∈ p.sent.flatMap Delivery.each ∨ SubscriptionUpdate sent ∨
        AmongRelays (relaysOfResponse link rsp p) sent := by
  have hrelayed : rsp.rid ≠ 0 → ∀ sent,
      sent ∈ (p'.sent.drop p.sent.length).flatMap Delivery.each ++ results →
      AmongRelays (relaysOfResponse link rsp p) sent := by
    intro hrid sent hsent
    refine ⟨⟨rsp.rid, sent.1, sent.2⟩, ?_, rfl⟩
    simp only [relaysOfResponse, if_neg hrid, hrun]
    exact List.mem_map.mpr ⟨sent, hsent, rfl⟩
  intro sent hsent
  cases responds_of_run hrun with
  | subscribe hrid hdelivered =>
    rw [List.append_nil, List.flatMap_append] at hsent
    rcases List.mem_append.mp hsent with hold | hnew
    · exact Or.inl hold
    · exact Or.inr (Or.inl
        (subscriptionUpdate_of_deliver hdelivered sent (mem_each_groupByTarget.mp hnew)))
  | list hrid hrecord hlist hrows hdelivered =>
    rw [List.append_nil, List.flatMap_append] at hsent
    rcases List.mem_append.mp hsent with hold | hnew
    · exact Or.inl hold
    · refine Or.inr (Or.inr (hrelayed hrid sent ?_))
      rw [List.drop_left]
      exact List.mem_append_left _ hnew
  | call hrid hrecord hcall horigin =>
    rcases List.mem_append.mp hsent with hold | hnew
    · exact Or.inl hold
    · exact Or.inr (Or.inr (hrelayed hrid sent (List.mem_append_right _ hnew)))
  | unknown hrid hnone =>
    rw [List.append_nil] at hsent
    exact Or.inl hsent

theorem AmongRelays.append_left {relays later : List Relay} {sent : Routee × DSAResponse}
    (h : AmongRelays relays sent) : AmongRelays (relays ++ later) sent := by
  obtain ⟨relay, hrelay, hsent⟩ := h
  exact ⟨relay, List.mem_append_left _ hrelay, hsent⟩

theorem AmongRelays.append_right {relays later : List Relay} {sent : Routee × DSAResponse}
    (h : AmongRelays later sent) : AmongRelays (relays ++ later) sent := by
  obtain ⟨relay, hrelay, hsent⟩ := h
  exact ⟨relay, List.mem_append_right _ hrelay, hsent⟩

theorem processResponses_sent {link : Link} {p p' : Processing} {responses : List DSAResponse}
    {results : List (Routee × DSAResponse)}
    (hrun : (processResponses link responses).run p = (.ok results, p')) :
    ∀ sent ∈ p'.sent.flatMap Delivery.each ++ results,
      sent ∈ p.sent.flatMap Delivery.each ∨ SubscriptionUpdate sent ∨
        AmongRelays (relaysOfResponses link p responses) sent := by
  induction responses generalizing p results with
  | nil =>
    cases hrun
    intro sent hsent
    rw [List.append_nil] at hsent
    exact Or.inl hsent
  | cons rsp rest ih =>
    obtain ⟨first, p₁, later, hfirst, hlater, rfl⟩ := processResponses_cons hrun
    have hone := responds_sent hfirst
    rw [relaysOfResponses, hfirst]
    have hearlier : ∀ sent ∈ p₁.sent.flatMap Delivery.each ++ first,
        sent ∈ p.sent.flatMap Delivery.each ∨ SubscriptionUpdate sent ∨
          AmongRelays (relaysOfResponse link rsp p ++ relaysOfResponses link p₁ rest) sent := by
      intro sent hsent
      rcases hone sent hsent with hold | hupdate | hrelayed
      · exact Or.inl hold
      · exact Or.inr (Or.inl hupdate)
      · exact Or.inr (Or.inr hrelayed.append_left)
    intro sent hsent
    have hcases : sent ∈ first ∨ sent ∈ p'.sent.flatMap Delivery.each ++ later := by
      rw [List.mem_append, List.mem_append] at hsent
      rw [List.mem_append]
      rcases hsent with hsent | hsent | hsent
      · exact Or.inr (Or.inl hsent)
      · exact Or.inl hsent
      · exact Or.inr (Or.inr hsent)
    rcases hcases with hfirstSent | hlaterSent
    · exact hearlier sent (List.mem_append_right _ hfirstSent)
    · rcases ih hlater sent hlaterSent with hmiddle | hupdate | hrelayed
      · exact hearlier sent (List.mem_append_left _ hmiddle)
      · exact Or.inr (Or.inl hupdate)
      · exact Or.inr (Or.inr hrelayed.append_right)

/-- What a new origin is sent: a subscription update, or the last response of its LIST call. -/
theorem onAddOrigin_sent {regTypeVal : RegistryType} {origin : Origin} {record : GroupCallRecord}
    {deliveries : List Delivery}
    (h : Bindings.onAddOrigin regTypeVal origin record = some deliveries) :
    ∀ sent ∈ deliveries.flatMap Delivery.each, SubscriptionUpdate sent ∨
      (regTypeVal ≠ .subs ∧ ∃ rsp, record.lastResponse = some rsp ∧
        sent = (origin.source, { rsp with rid := origin.sourceId })) := by
  intro sent hsent
  by_cases hsubs : regTypeVal = .subs
  · subst hsubs
    left
    simp only [Bindings.onAddOrigin, Bindings.onAddSubscribeOrigin] at h
    split at h
    · cases h
      cases hsent
    · split at h
      · cases h
        exact ⟨_, _, origin, List.mem_singleton.mp hsent⟩
      · cases h
  · refine Or.inr ⟨hsubs, ?_⟩
    have hlist : Bindings.onAddListOrigin origin record = deliveries := by
      cases regTypeVal with
      | subs => exact absurd rfl hsubs
      | list => exact Option.some.inj h
      | default => exact Option.some.inj h
    subst hlist
    obtain ⟨delivery, hdelivery, heach⟩ := List.mem_flatMap.mp hsent
    obtain ⟨rsp, hrsp, rfl⟩ := List.mem_map.mp hdelivery
    exact ⟨rsp, Option.mem_toList.mp hrsp, List.mem_singleton.mp heach⟩

/-- What a persist handler sends is a subscription update or is relayed. -/
theorem handler_sent {s : ResponderState} {call : PersistCall}
    {r : ResponderState × List Delivery} (h : handlePersisted s call = some r) :
    ∀ sent ∈ r.2.flatMap Delivery.each,
      SubscriptionUpdate sent ∨ AmongRelays (relaysOfHandler s call) sent := by
  intro sent hsent
  rcases call with event | event | _ | call
  · cases h
    cases hsent
  · obtain ⟨_, _, rfl⟩ := Option.map_eq_some_iff.mp h
    cases hsent
  · cases h
    cases hsent
  · obtain ⟨result, hhandle, rfl⟩ := Option.map_eq_some_iff.mp h
    rcases call with ⟨targetId, origin, regTypeVal⟩ | ⟨_, _, _, _⟩ | ⟨_, _⟩
    · obtain ⟨deliveries, hadded, rfl⟩ := Option.map_eq_some_iff.mp hhandle
      rcases onAddOrigin_sent hadded sent hsent with hupdate | ⟨hlist, rsp, hrsp, heq⟩
      · exact Or.inl hupdate
      · rw [Bindings.lastResponse_getOrInsert, Bindings.getLastResponse_internalAddOrigin] at hrsp
        refine Or.inr ⟨⟨rsp.rid, origin.source, { rsp with rid := origin.sourceId }⟩, ?_, heq⟩
        cases regTypeVal with
        | subs => exact absurd rfl hlist
        | list => exact List.mem_map.mpr ⟨rsp, Option.mem_toList.mpr hrsp, rfl⟩
        | default => exact List.mem_map.mpr ⟨rsp, Option.mem_toList.mpr hrsp, rfl⟩
    · cases hhandle
      cases hsent
    · cases hhandle
      cases hsent

theorem handlers_sent {s : ResponderState} {calls : List PersistCall}
    {r : ResponderState × List Delivery} (h : runHandlers s calls = some r) :
    ∀ sent ∈ r.2.flatMap Delivery.each,
      SubscriptionUpdate sent ∨ AmongRelays (relaysOfHandlers s calls) sent := by
  induction calls generalizing s r with
  | nil =>
    cases h
    intro sent hsent
    cases hsent
  | cons call rest ih =>
    simp only [runHandlers, Option.bind_eq_some_iff, Option.map_eq_some_iff] at h
    obtain ⟨first, hfirst, later, hlater, rfl⟩ := h
    intro sent hsent
    rw [List.flatMap_append] at hsent
    rw [relaysOfHandlers, ← applied_of_handlePersisted hfirst]
    rcases List.mem_append.mp hsent with hmem | hmem
    · exact (handler_sent hfirst sent hmem).imp_right AmongRelays.append_left
    · exact (ih hlater sent hmem).imp_right AmongRelays.append_right

/-- Everything a message sends is accounted for: it is the broker's own answer to a request of the
sender, an update for a subscriber, or one of the relays that the message makes. -/
theorem receive_sent [ScanOrder Int] {link : Link} {s : ResponderState} {msg : ResponderMessage}
    {outcome : Outcome} (h : receive link s msg = some outcome) :
    ∀ sent ∈ outcome.sent.flatMap Delivery.each,
      msg.Answers sent ∨ SubscriptionUpdate sent ∨ AmongRelays (relays link s msg) sent := by
  intro sent hsent
  cases msg with
  | requestEnvelope sender requests =>
    obtain ⟨hnone, hfold⟩ := processRequests_eq link sender requests { state := s } [] []
    obtain ⟨r, hrun, rfl⟩ := Option.map_eq_some_iff.mp h
    rw [List.flatMap_append, List.flatMap_append, hnone] at hsent
    rcases List.mem_append.mp hsent with hanswered | hhandler
    · -- the answers of the broker go to the sender, each to a request of the envelope
      left
      have hresponse : ∃ rsp ∈ (HandlerResult.flatten
          (processRequests link sender { state := s } requests).1).responses,
          sent = (sender, rsp) := by
        rw [List.flatMap_nil, List.nil_append] at hanswered
        split at hanswered
        · cases hanswered
        · rw [List.flatMap_singleton] at hanswered
          obtain ⟨rsp, hrsp, rfl⟩ := List.mem_map.mp hanswered
          exact ⟨rsp, hrsp, rfl⟩
      obtain ⟨rsp, hrsp, rfl⟩ := hresponse
      obtain ⟨request, hrequest, rfl⟩ := processRequests_responses link sender _ requests rsp hrsp
      exact ⟨request, hrequest, rfl⟩
    · -- the rest is sent by handlers, to new origins
      exact Or.inr (handlers_sent hrun sent hhandler)
  | responseMessage responses =>
    simp only [receive] at h
    split at h
    case h_1 results p hrun =>
      rw [complete, runHandlers_of_isRemoval _ (isRemoval_of_processResponses hrun)] at h
      cases h
      right
      simp only [List.append_nil, List.flatMap_append] at hsent
      have hprocessed : sent ∈ p.sent.flatMap Delivery.each ++ results := by
        rcases List.mem_append.mp hsent with hold | hresult
        · exact List.mem_append_left _ hold
        · exact List.mem_append_right _ (mem_each_groupByTarget.mp hresult)
      rcases processResponses_sent hrun sent hprocessed with hnone | hsome
      · cases hnone
      · exact hsome
    case h_2 => cases h

end DsaBroker
