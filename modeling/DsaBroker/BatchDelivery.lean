import DsaBroker.ResponderActions

/-!
# Envelopes of several requests

`deliverEnvelopes` hands envelopes of one sender to a responder, one after the other.  One
envelope of `n` requests need not do what `n` envelopes of one request do: its requests are
decided on the registries that the envelope found, while what the requests before them have
decided waits in the persist handlers.

It does the same if every request is undisturbed by the handlers that are pending before it.
That is a condition on what the request looks up: either it finds the same with the pending
handlers run, or it only removes, once more, an origin that a pending handler removes from a
binding with further origins.
-/

namespace DsaBroker

section

variable [ScanOrder Int]

/-- Envelopes of one sender, delivered one after the other: the state reached, the requests
sent to the endpoint and the responses sent, each with its recipient. -/
def deliverEnvelopes (link : Link) (sender : Routee) (s : ResponderState) :
    List (List DSARequest) → Option (Worked ResponderState DSARequest (Routee × DSAResponse))
  | [] => some ⟨s, [], []⟩
  | requests :: rest =>
      (receive link s (.requestEnvelope sender requests)).bind fun first =>
        (deliverEnvelopes link sender first.state rest).map fun later =>
          ⟨later.state, first.toEndpoint.flatten ++ later.forwarded,
            first.sent.flatMap Delivery.each ++ later.sent⟩

/-- The broker answers the request itself. -/
def Action.answers : Action → Bool
  | .answer _ | .saveAttribute .. | .unsubscribeOther .. => true
  | _ => false

/-- The request removes an origin that is gone once the pending handlers have run, from a
binding that keeps other origins. -/
def RepeatedRemoval (present settled : ResponderState) (sender : Routee)
    (request : DSARequest) : Prop :=
  lookups settled sender request = {} ∧
    ∃ targetId, lookups present sender request = { removal := some (targetId, false) }

/-- The request is not disturbed by the handlers pending before it. -/
def UndisturbedRequest (link : Link) (sender : Routee)
    (t : Turn ResponderState PersistCall DSARequest (Routee × DSAResponse))
    (request : DSARequest) : Prop :=
  ∃ settled sent, runHandlers t.present t.pending = some (settled, sent) ∧
    (lookups settled sender request = lookups t.present sender request ∨
      RepeatedRemoval t.present settled sender request) ∧
    ((requestAction link sender t.present request).answers = true → sent = []) ∧
    (runHandlers (settled.advance (requestAction link sender t.present request).issues)
      ((requestAction link sender t.present request).effects settled.nextRid
        settled.nextSid)).isSome = true

/-! ### Repeated removals -/

theorem performAll_removeOrigin (link : Link) (sender : Routee) {s : ResponderState}
    (regTypeVal : RegistryType) {origin : Origin}
    (h : (s.bindings regTypeVal).removal origin = none) (targetId : Int) :
    (responderSystem link sender).performAll (s.advance (false, false))
        [.group (.removeOrigin origin regTypeVal targetId false)] =
      (responderSystem link sender).performAll (s.advance (false, false)) [] := by
  have hsame : handlePersisted s (.group (.removeOrigin origin regTypeVal targetId false))
      = some (s, []) := by
    simp only [handlePersisted, GroupCallPersist.regTypeVal, Bindings.handle,
      Bindings.removeFrom_of_removal_none h]
    cases regTypeVal <;> rfl
  have hadvance : s.advance (false, false) = s := rfl
  rw [performAll_eq, performAll_eq, hadvance]
  simp only [runHandlers, hsame, Option.bind_some, Option.map_some, List.append_nil]

/-- What a repeated removal decides comes to the same as what is decided without the origin:
nothing is changed, and an UNSUBSCRIBE is answered alike. -/
theorem sameOutcome_of_repeatedRemoval {link : Link} {sender : Routee}
    {present settled : ResponderState} {request : DSARequest}
    (h : RepeatedRemoval present settled sender request) :
    (responderSystem link sender).SameOutcome settled
      ((responderSystem link sender).decide present request)
      ((responderSystem link sender).decide settled request) := by
  obtain ⟨hsettled, targetId, hpresent⟩ := h
  cases request with
  | set rid path value permit => cases hpresent
  | remove rid path => cases hpresent
  | invoke rid path params permit => cases hpresent
  | list rid path => cases congrArg Lookups.removal hpresent
  | subscribe rid paths => cases congrArg Lookups.removal hpresent
  | unsubscribe rid sids =>
    cases honly : onlyElement sids with
    | none =>
      have hremoval := congrArg Lookups.removal hpresent
      simp only [lookups, honly, Option.bind_none] at hremoval
      cases hremoval
    | some sid =>
      -- the origin is gone from the settled state, if not from the one decided on
      have hnone := congrArg Lookups.removal hsettled
      simp only [lookups, honly, Option.bind_some] at hnone
      have hbefore : requestAction link sender present (.unsubscribe rid sids)
          = .unsubscribeOther rid ⟨sender, sid⟩ targetId := by
        simp only [requestAction, hpresent, actionOf, honly]
      have hafter : requestAction link sender settled (.unsubscribe rid sids)
          = .answer rid := by
        simp only [requestAction, hsettled, actionOf, honly]
      simp only [responderSystem, hbefore, hafter]
      refine ⟨rfl, rfl, ?_⟩
      exact performAll_removeOrigin link sender .subs hnone targetId
  | close rid =>
    have hcall : settled.ridRegistry.lookupByOrigin ⟨sender, rid⟩ = none := by
      cases hlookup : settled.ridRegistry.lookupByOrigin ⟨sender, rid⟩ with
      | none => rfl
      | some record =>
        simp only [lookups, hlookup] at hsettled
        cases congrArg Lookups.call hsettled
    -- with neither a call nor a binding left, a CLOSE decides on nothing
    have hnone : settled.listRegistry.removal ⟨sender, rid⟩ = none := by
      rcases hremoval : settled.listRegistry.removal ⟨sender, rid⟩ with _ | ⟨t, _ | _⟩
      · rfl
      · simp only [lookups, hcall, hremoval] at hsettled
        cases congrArg Lookups.removal hsettled
      · simp only [lookups, hcall, hremoval] at hsettled
        cases congrArg Lookups.removal hsettled
    have hbefore : requestAction link sender present (.close rid)
        = .closeListOther ⟨sender, rid⟩ targetId := by
      simp only [requestAction, hpresent, actionOf]
    have hafter : requestAction link sender settled (.close rid) = .nothing := by
      simp only [requestAction, hsettled, actionOf]
    simp only [responderSystem, hbefore, hafter]
    refine ⟨rfl, rfl, ?_⟩
    exact performAll_removeOrigin link sender .list hnone targetId

/-! ### Envelopes are batches -/

/-- One envelope is one batch of the system. -/
theorem deliverEnvelopes_cons (link : Link) (sender : Routee) (s : ResponderState)
    (requests : List DSARequest) (rest : List (List DSARequest)) :
    deliverEnvelopes link sender s (requests :: rest) =
      ((responderSystem link sender).batch s requests).bind fun first =>
        (deliverEnvelopes link sender first.state rest).map fun later =>
          ⟨later.state, first.forwarded ++ later.forwarded, first.sent ++ later.sent⟩ := by
  have hbatch : (responderSystem link sender).batch s requests =
      (runHandlers (envelopeTurn link sender s requests).present
        (envelopeTurn link sender s requests).pending).map fun r =>
          ⟨r.1, (envelopeTurn link sender s requests).forwarded,
            (envelopeTurn link sender s requests).answered ++ r.2.flatMap Delivery.each⟩ := by
    show (responderSystem link sender).finish (envelopeTurn link sender s requests) = _
    rw [DeferredSystem.finish, performAll_eq, Option.map_map]
    rfl
  simp only [deliverEnvelopes, receive_requestEnvelope, hbatch]
  cases runHandlers (envelopeTurn link sender s requests).present
      (envelopeTurn link sender s requests).pending with
  | none => rfl
  | some r =>
    have hforwarded : (if (envelopeTurn link sender s requests).forwarded = [] then []
        else [(envelopeTurn link sender s requests).forwarded]).flatten
        = (envelopeTurn link sender s requests).forwarded := by
      split
      case isTrue hnil => rw [hnil]; rfl
      case isFalse => simp
    simp only [Option.map_some, Option.bind_some, List.flatMap_append, hforwarded,
      each_answered]

theorem deliverEnvelopes_single (link : Link) (sender : Routee) (s : ResponderState)
    (requests : List DSARequest) :
    deliverEnvelopes link sender s [requests]
      = (responderSystem link sender).batch s requests := by
  rw [deliverEnvelopes_cons]
  cases (responderSystem link sender).batch s requests with
  | none => rfl
  | some first =>
    simp only [deliverEnvelopes, Option.bind_some, Option.map_some, List.append_nil]

theorem deliverEnvelopes_each (link : Link) (sender : Routee) (s : ResponderState)
    (requests : List DSARequest) :
    deliverEnvelopes link sender s (requests.map fun request => [request])
      = (responderSystem link sender).each s requests := by
  induction requests generalizing s with
  | nil => rfl
  | cons request rest ih =>
    rw [List.map_cons, deliverEnvelopes_cons, DeferredSystem.each]
    simp only [ih]

theorem undisturbed_of_undisturbedRequest {link : Link} {sender : Routee}
    {t : Turn ResponderState PersistCall DSARequest (Routee × DSAResponse)}
    {request : DSARequest} (h : UndisturbedRequest link sender t request) :
    (responderSystem link sender).Undisturbed t request := by
  obtain ⟨settled, sent, hrun, hlookups, hanswers, hsome⟩ := h
  obtain ⟨hrid, hsid⟩ := runHandlers_counters hrun
  refine ⟨settled, sent.flatMap Delivery.each, ?_, ?_, ?_, ?_⟩
  · rw [DeferredSystem.settled, performAll_eq, hrun]
    rfl
  · rcases hlookups with hsame | hrepeated
    · -- the same is found, so the same is decided
      have haction : requestAction link sender settled request
          = requestAction link sender t.present request := by
        simp only [requestAction, hsame]
      simp only [responderSystem, haction, hrid, hsid]
      exact ⟨rfl, rfl, rfl⟩
    · exact sameOutcome_of_repeatedRemoval hrepeated
  · intro hanswered
    have hanswersTrue : (requestAction link sender t.present request).answers = true := by
      cases haction : requestAction link sender t.present request <;>
        simp only [responderSystem, haction, Action.result, HandlerResult.empty,
          HandlerResult.request, List.map_nil, ne_eq, not_true_eq_false] at hanswered <;> rfl
    rw [hanswers hanswersTrue]
    rfl
  · rw [performAll_eq, Option.isSome_map]
    rw [hrid, hsid] at hsome
    exact hsome

end

/-- **Batch equivalence.**  An envelope in which every request is undisturbed by the handlers
pending before it leaves the same registries, sends the same requests to the endpoint and the
same responses, in the same order, as its requests in envelopes of their own. -/
theorem envelope_eq_single_requests [ScanOrder Int] (link : Link) (sender : Routee)
    (s : ResponderState) (requests : List DSARequest)
    (h : Along (responderSystem link sender).take (UndisturbedRequest link sender)
      { present := s } requests) :
    deliverEnvelopes link sender s [requests] =
      deliverEnvelopes link sender s (requests.map fun request => [request]) := by
  rw [deliverEnvelopes_single, deliverEnvelopes_each]
  apply DeferredSystem.batch_eq_each
  exact Along.mono (fun _ _ => undisturbed_of_undisturbedRequest) h

/-! ### Two requests in one envelope -/

/-- A LIST and an INVOKE of one path do not disturb each other. -/
theorem envelope_eq_single_requests_list_invoke :
    deliverEnvelopes linkR requesterA .initial
        [[.list 101 blah, .invoke 102 blah [] none]] =
      deliverEnvelopes linkR requesterA .initial
        [[.list 101 blah], [.invoke 102 blah [] none]] :=
  envelope_eq_single_requests linkR requesterA .initial
    [.list 101 blah, .invoke 102 blah [] none]
    ⟨⟨_, _, rfl, Or.inl rfl, fun _ => rfl, rfl⟩,
      ⟨_, _, rfl, Or.inl rfl, fun _ => rfl, rfl⟩, trivial⟩

/-- Two LISTs of a path that is not listed yet: in one envelope the second does not find the
first, and the path is listed under two target RIDs. -/
theorem envelope_ne_single_requests :
    deliverEnvelopes linkR requesterA .initial [[.list 101 blah, .list 102 blah]] ≠
      deliverEnvelopes linkR requesterA .initial [[.list 101 blah], [.list 102 blah]] := by
  intro hsame
  have hforwarded := congrArg (fun result => result.map Worked.forwarded) hsame
  revert hforwarded
  decide

end DsaBroker
