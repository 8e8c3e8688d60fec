import DsaBroker.ResponderResponses

/-!
# Invariants over messages

Rules for what holds over the runs of a responder.  An envelope is decided request by request
while the effects wait (`envelopeTurn`); what every request keeps, on the registries it sees
and on the registries as they will be with everything pending performed, the envelope keeps
(`envelope_invariant`, `envelope_total`).  A response message keeps what each response keeps,
and the handlers it leaves behind only remove (`responseMessage_invariant`).
-/

namespace DsaBroker

/-- An envelope of one sender, half decided. -/
abbrev EnvelopeTurn := Turn ResponderState PersistCall DSARequest (Routee × DSAResponse)

/-- The same registries with other counters. -/
def ResponderState.withCounters (s : ResponderState) (rids sids : IntCounter) :
    ResponderState :=
  { s with
    ridRegistry := { s.ridRegistry with nextTargetId := rids }
    sidRegistry := { s.sidRegistry with targetSids := sids } }

theorem advance_withCounters (s : ResponderState) (rids sids : IntCounter)
    (issues : Bool × Bool) :
    ∃ rids' sids', (s.withCounters rids sids).advance issues = s.withCounters rids' sids' := by
  obtain ⟨issuesRid, issuesSid⟩ := issues
  cases issuesRid <;> cases issuesSid <;> exact ⟨_, _, rfl⟩

/-! ### Registries with handlers performed -/

/-- The bindings after a handler. -/
def GroupCallPersist.applied (b : Bindings) : GroupCallPersist → Bindings
  | addOrigin targetId origin _ => b.internalAddOrigin targetId origin
  | removeOrigin origin _ targetId theLastOne =>
      if theLastOne then (b.removeFrom targetId origin).internalRemove targetId
      else b.removeFrom targetId origin
  | remove targetId _ => b.internalRemove targetId

/-- The registries after a handler that does not throw. -/
def PersistCall.applied (s : ResponderState) : PersistCall → ResponderState
  | rid event => { s with ridRegistry := s.ridRegistry.handle event }
  | sid event => { s with sidRegistry := (s.sidRegistry.handle event).getD s.sidRegistry }
  | saveAttribute nodePath name value =>
      { s with attributes := addAttribute s.attributes nodePath name value }
  | group call => s.setBindings call.regTypeVal (call.applied (s.bindings call.regTypeVal))

def ResponderState.performed (s : ResponderState) (calls : List PersistCall) : ResponderState :=
  calls.foldl PersistCall.applied s

theorem applied_of_handlePersisted {s : ResponderState} {call : PersistCall}
    {r : ResponderState × List Delivery} (h : handlePersisted s call = some r) :
    r.1 = call.applied s := by
  rcases call with event | event | ⟨nodePath, name, value⟩ | call
  · cases h
    rfl
  · obtain ⟨sidRegistry, hhandle, rfl⟩ := Option.map_eq_some_iff.mp h
    simp only [PersistCall.applied, hhandle, Option.getD_some]
  · cases h
    rfl
  · obtain ⟨result, hhandle, rfl⟩ := Option.map_eq_some_iff.mp h
    have hresult : result.1 = call.applied (s.bindings call.regTypeVal) := by
      cases call with
      | addOrigin targetId origin regTypeVal =>
        obtain ⟨sent, _, rfl⟩ := Option.map_eq_some_iff.mp hhandle
        rfl
      | removeOrigin origin regTypeVal targetId theLastOne =>
        cases hhandle
        rfl
      | remove targetId regTypeVal =>
        cases hhandle
        rfl
    rw [hresult]
    rfl

theorem performed_of_runHandlers {calls : List PersistCall} {s : ResponderState}
    {r : ResponderState × List Delivery} (h : runHandlers s calls = some r) :
    r.1 = s.performed calls := by
  induction calls generalizing s r with
  | nil =>
    cases h
    rfl
  | cons call rest ih =>
    simp only [runHandlers, Option.bind_eq_some_iff, Option.map_eq_some_iff] at h
    obtain ⟨first, hfirst, later, hlater, rfl⟩ := h
    rw [ih hlater, applied_of_handlePersisted hfirst]
    rfl

theorem applied_advance (issues : Bool × Bool) (s : ResponderState) (call : PersistCall) :
    call.applied (s.advance issues) = (call.applied s).advance issues := by
  obtain ⟨issuesRid, issuesSid⟩ := issues
  rcases call with event | event | ⟨nodePath, name, value⟩ | call
  · cases issuesRid <;> cases issuesSid <;> cases event <;> rfl
  · rcases event with ⟨path, sid⟩ | sid
    · cases issuesRid <;> cases issuesSid <;> rfl
    · simp only [PersistCall.applied, SidRegistry.handle, SidRegistry.internalRemoveLookup,
        pathBySid_advance]
      cases s.sidRegistry.pathBySid sid <;> cases issuesRid <;> cases issuesSid <;> rfl
  · cases issuesRid <;> cases issuesSid <;> rfl
  · simp only [PersistCall.applied]
    cases call.regTypeVal <;> cases issuesRid <;> cases issuesSid <;> rfl

theorem performed_advance (issues : Bool × Bool) (s : ResponderState)
    (calls : List PersistCall) :
    (s.advance issues).performed calls = (s.performed calls).advance issues := by
  induction calls generalizing s with
  | nil => rfl
  | cons call rest ih =>
    show (call.applied (s.advance issues)).performed rest = _
    rw [applied_advance, ih]
    rfl

theorem performed_append (s : ResponderState) (calls later : List PersistCall) :
    s.performed (calls ++ later) = (s.performed calls).performed later :=
  List.foldl_append ..

/-- The registries with everything pending performed. -/
def EnvelopeTurn.settled (t : EnvelopeTurn) : ResponderState := t.present.performed t.pending

section

variable [ScanOrder Int]

/-- The next turn of an envelope, after one more request. -/
def EnvelopeTurn.take (link : Link) (sender : Routee) (t : EnvelopeTurn)
    (request : DSARequest) : EnvelopeTurn :=
  (responderSystem link sender).take t request

/-- What a request does at its turn. -/
def EnvelopeTurn.action (link : Link) (sender : Routee) (t : EnvelopeTurn)
    (request : DSARequest) : Action :=
  requestAction link sender t.present request

/-- The effects of a request at its turn, performed on the settled state. -/
def EnvelopeTurn.perform (link : Link) (sender : Routee) (t : EnvelopeTurn)
    (request : DSARequest) (settled : ResponderState) :
    Option (ResponderState × List Delivery) :=
  let a := t.action link sender request
  runHandlers (settled.advance a.issues) (a.effects t.present.nextRid t.present.nextSid)

/-- Seen on the settled registries, the effects of a request come on top. -/
theorem EnvelopeTurn.settled_take (link : Link) (sender : Routee) (t : EnvelopeTurn)
    (request : DSARequest) :
    (t.take link sender request).settled =
      (t.settled.advance (t.action link sender request).issues).performed
        ((t.action link sender request).effects t.present.nextRid t.present.nextSid) := by
  have htake : (t.take link sender request).settled =
      (t.present.advance (t.action link sender request).issues).performed
        (t.pending ++
          (t.action link sender request).effects t.present.nextRid t.present.nextSid) := rfl
  rw [htake, performed_append, performed_advance]
  rfl

theorem EnvelopeTurn.performAll_eq (link : Link) (sender : Routee) (t : EnvelopeTurn)
    (request : DSARequest) (settled : ResponderState) :
    (responderSystem link sender).performAll
        ((responderSystem link sender).advance
          ((responderSystem link sender).decide t.present request).advances settled)
        ((responderSystem link sender).decide t.present request).effects =
      (t.perform link sender request settled).map fun r => (r.1, r.2.flatMap Delivery.each) :=
  DsaBroker.performAll_eq ..

variable {link : Link} {sender : Routee}

/-- While the requests of an envelope are decided, only the counters change. -/
theorem envelopeTurn_present (link : Link) (sender : Routee) (s : ResponderState)
    (requests : List DSARequest) :
    ∃ rids sids, (envelopeTurn link sender s requests).present = s.withCounters rids sids := by
  suffices hturn : ∀ (t : EnvelopeTurn) rids sids, t.present = s.withCounters rids sids →
      ∃ rids sids, (requests.foldl (responderSystem link sender).take t).present
        = s.withCounters rids sids from
    hturn { present := s } s.ridRegistry.nextTargetId s.sidRegistry.targetSids rfl
  induction requests with
  | nil =>
    intro t rids sids ht
    exact ⟨rids, sids, ht⟩
  | cons request rest ih =>
    intro t rids sids ht
    obtain ⟨rids', sids', hadvance⟩ := advance_withCounters s rids sids
      (t.action link sender request).issues
    apply ih ((responderSystem link sender).take t request) rids' sids'
    rw [← hadvance, ← ht]
    rfl

/-- An envelope that comes through leaves the settled registries of its last turn. -/
theorem receive_requestEnvelope_state {s : ResponderState} {requests : List DSARequest}
    {outcome : Outcome} (h : receive link s (.requestEnvelope sender requests) = some outcome) :
    outcome.state = EnvelopeTurn.settled (envelopeTurn link sender s requests) := by
  rw [receive_requestEnvelope] at h
  obtain ⟨r, hrun, rfl⟩ := Option.map_eq_some_iff.mp h
  exact performed_of_runHandlers hrun

/-- **What every request keeps, an envelope keeps.** The invariant may speak of the turn, of the
state with the effects performed, and of what these have sent so far. -/
theorem envelope_invariant
    {Inv : EnvelopeTurn → ResponderState → List (Routee × DSAResponse) → Prop}
    {Ok : EnvelopeTurn → DSARequest → Prop}
    (hstep : ∀ t request settled outs S' sent, Inv t settled outs → Ok t request →
      t.perform link sender request settled = some (S', sent) →
      Inv (t.take link sender request) S' (outs ++ sent.flatMap Delivery.each))
    {s : ResponderState} {requests : List DSARequest} {outcome : Outcome}
    (hs : Inv { present := s } s [])
    (hok : Along (EnvelopeTurn.take link sender) Ok { present := s } requests)
    (hreceive : receive link s (.requestEnvelope sender requests) = some outcome) :
    ∃ outs, Inv (envelopeTurn link sender s requests) outcome.state outs ∧
      outcome.sent.flatMap Delivery.each
        = (envelopeTurn link sender s requests).answered ++ outs := by
  rw [receive_requestEnvelope] at hreceive
  obtain ⟨⟨S, sent⟩, hrun, rfl⟩ := Option.map_eq_some_iff.mp hreceive
  have hfinish : (responderSystem link sender).finish (envelopeTurn link sender s requests)
      = some ⟨S, (envelopeTurn link sender s requests).forwarded,
          (envelopeTurn link sender s requests).answered ++ sent.flatMap Delivery.each⟩ := by
    rw [DeferredSystem.finish, performAll_eq, hrun]
    rfl
  have hsystem : ∀ (t : EnvelopeTurn) (request : DSARequest) settled outs S' outs',
      Inv t settled outs → Ok t request →
      (responderSystem link sender).settled t = some (settled, outs) →
      (responderSystem link sender).performAll
          ((responderSystem link sender).advance
            ((responderSystem link sender).decide t.present request).advances settled)
          ((responderSystem link sender).decide t.present request).effects = some (S', outs') →
      Inv ((responderSystem link sender).take t request) S' (outs ++ outs') := by
    intro t request settled outs S' outs' hinv hrequest _ hperform
    rw [EnvelopeTurn.performAll_eq] at hperform
    obtain ⟨⟨after, sentAfter⟩, hafter, heq⟩ := Option.map_eq_some_iff.mp hperform
    cases heq
    exact hstep t request settled outs after sentAfter hinv hrequest hafter
  obtain ⟨S', outs, hinv, hresult⟩ := (responderSystem link sender).finish_invariant hsystem
    ((responderSystem link sender).settled_start s) hs hok hfinish
  obtain ⟨hstate, _, hsent⟩ := Worked.mk.inj hresult
  have houts : outs = sent.flatMap Delivery.each := (List.append_cancel_left hsent).symm
  refine ⟨outs, ?_, ?_⟩
  · rw [← hstate] at hinv
    exact hinv
  · rw [List.flatMap_append, each_answered, houts]

/-- **If the effects of every request can be performed at its turn, the handlers of the
envelope do not throw.** -/
theorem envelope_total {Inv : EnvelopeTurn → ResponderState → Prop}
    {Ok : EnvelopeTurn → DSARequest → Prop}
    (hstep : ∀ t request settled, Inv t settled → Ok t request →
      ∃ r, t.perform link sender request settled = some r ∧
        Inv (t.take link sender request) r.1)
    {s : ResponderState} {requests : List DSARequest} (hs : Inv { present := s } s)
    (hok : Along (EnvelopeTurn.take link sender) Ok { present := s } requests) :
    ∃ outcome, receive link s (.requestEnvelope sender requests) = some outcome ∧
      Inv (envelopeTurn link sender s requests) outcome.state := by
  obtain ⟨result, hfinish⟩ := (responderSystem link sender).finish_total
    (fun t request settled _ hinv hrequest _ => by
      obtain ⟨r, hperform, hafter⟩ := hstep t request settled hinv hrequest
      refine ⟨r.1, r.2.flatMap Delivery.each, ?_, hafter⟩
      rw [EnvelopeTurn.performAll_eq, hperform]
      rfl)
    ((responderSystem link sender).settled_start s) hs hok
  have hrun : ∃ outcome, receive link s (.requestEnvelope sender requests) = some outcome := by
    have hpending : (responderSystem link sender).finish (envelopeTurn link sender s requests)
        = some result := hfinish
    rw [DeferredSystem.finish, performAll_eq, Option.map_map] at hpending
    obtain ⟨r, hr, _⟩ := Option.map_eq_some_iff.mp hpending
    rw [receive_requestEnvelope]
    exact ⟨_, Option.map_eq_some_iff.mpr ⟨r, hr, rfl⟩⟩
  obtain ⟨outcome, hreceive⟩ := hrun
  have hkeeps : ∀ (t : EnvelopeTurn) (request : DSARequest) (settled : ResponderState)
      (outs : List (Routee × DSAResponse)) S' sent, Inv t settled → Ok t request →
      t.perform link sender request settled = some (S', sent) →
      Inv (t.take link sender request) S' := by
    intro t request settled _ S' sent hinv hrequest hperform
    obtain ⟨r, hr, hafter⟩ := hstep t request settled hinv hrequest
    rw [hperform] at hr
    cases hr
    exact hafter
  obtain ⟨_, hinv, _⟩ := envelope_invariant hkeeps hs hok hreceive
  exact ⟨outcome, hreceive, hinv⟩

end

/-! ### Response messages -/

/-- The persist calls that responses make. -/
def PersistCall.IsRemoval : PersistCall → Prop
  | .rid (.removed _) | .group (.remove ..) => True
  | _ => False

/-- Handlers that only remove do not throw, and send nothing. -/
theorem runHandlers_of_isRemoval {calls : List PersistCall} (s : ResponderState)
    (hcalls : ∀ call ∈ calls, call.IsRemoval) :
    runHandlers s calls = some (s.performed calls, []) := by
  induction calls generalizing s with
  | nil => rfl
  | cons call rest ih =>
    rw [List.forall_mem_cons] at hcalls
    obtain ⟨hcall, hrest⟩ := hcalls
    have hone : handlePersisted s call = some (call.applied s, []) := by
      rcases call with (_ | _) | _ | _ | (_ | _ | _)
      · exact hcall.elim
      · rfl
      · exact hcall.elim
      · exact hcall.elim
      · exact hcall.elim
      · exact hcall.elim
      · rfl
    simp only [runHandlers, hone, Option.bind_some, ih _ hrest, Option.map_some]
    rfl

theorem isRemoval_of_deliverSubscribe {b : Bindings} {rsp : DSAResponse}
    {delivered : Bindings.Delivered} (h : b.deliverSubscribeResponse rsp = some delivered) :
    ∀ call ∈ delivered.persisted, (PersistCall.group call).IsRemoval := by
  refine Bindings.deliverSubscribeResponse_invariant
    (fun d => ∀ call ∈ d.persisted, (PersistCall.group call).IsRemoval) ?_ ?_ h
  case refine_2 =>
    intro call hcall
    cases hcall
  intro d row first _ hd hfirst call hcall
  obtain ⟨targetSid, _, rfl⟩ := Option.map_eq_some_iff.mp hfirst
  rcases List.mem_append.mp hcall with hcall | hcall
  · exact hd call hcall
  · split at hcall
    · rw [List.mem_singleton.mp hcall]
      exact trivial
    · cases hcall

/-- The persist calls of a response only remove. -/
theorem Responds.isRemoval {link : Link} {p p' : Processing} {rsp : DSAResponse}
    {results : List (Routee × DSAResponse)} (h : Responds link p rsp results p')
    (hp : ∀ call ∈ p.persisted, call.IsRemoval) : ∀ call ∈ p'.persisted, call.IsRemoval := by
  intro call hcall
  cases h with
  | subscribe hrid hdelivered =>
    rcases List.mem_append.mp hcall with hcall | hcall
    · exact hp call hcall
    · obtain ⟨groupCall, hgroup, rfl⟩ := List.mem_map.mp hcall
      exact isRemoval_of_deliverSubscribe hdelivered groupCall hgroup
  | list hrid hrecord hlist hrows hdelivered =>
    subst hdelivered
    rcases List.mem_append.mp hcall with hcall | hcall
    · exact hp call hcall
    · obtain ⟨groupCall, hgroup, rfl⟩ := List.mem_map.mp hcall
      simp only [Bindings.deliverListResponse] at hgroup
      split at hgroup
      · rw [List.mem_singleton.mp hgroup]
        exact trivial
      · cases hgroup
  | call hrid hrecord hcallRecord horigin =>
    rcases List.mem_append.mp hcall with hcall | hcall
    · exact hp call hcall
    · split at hcall
      · rw [List.mem_singleton.mp hcall]
        exact trivial
      · cases hcall
  | unknown hrid hnone => exact hp call hcall

theorem isRemoval_of_processResponses {link : Link} {responses : List DSAResponse}
    {s : ResponderState} {p : Processing} {results : List (Routee × DSAResponse)}
    (h : (processResponses link responses).run { state := s } = (.ok results, p)) :
    ∀ call ∈ p.persisted, call.IsRemoval := by
  refine processResponses_invariant (fun _ p _ => ∀ call ∈ p.persisted, call.IsRemoval) ?_ ?_ h
  · intro _ p rsp results p' _ _ hp hresponds
    exact hresponds.isRemoval hp
  · intro call hcall
    cases hcall

/-- The RID registry changes only when the handlers run. -/
theorem Responds.ridRegistry {link : Link} {p p' : Processing} {rsp : DSAResponse}
    {results : List (Routee × DSAResponse)} (h : Responds link p rsp results p') :
    p'.state.ridRegistry = p.state.ridRegistry := by
  cases h <;> rfl

theorem ridRegistry_of_processResponses {link : Link} {responses : List DSAResponse}
    {s : ResponderState} {p : Processing} {results : List (Routee × DSAResponse)}
    (h : (processResponses link responses).run { state := s } = (.ok results, p)) :
    p.state.ridRegistry = s.ridRegistry := by
  refine processResponses_invariant (fun _ p _ => p.state.ridRegistry = s.ridRegistry) ?_ rfl h
  intro _ p rsp results p' _ _ hp hresponds
  exact hresponds.ridRegistry.trans hp

/-- What remains to be said of a response message that comes through: what every response
keeps, and the handlers that run after it. -/
theorem responseMessage_invariant [ScanOrder Int]
    (Inv : List DSAResponse → Processing → List (Routee × DSAResponse) → Prop) {link : Link}
    {responses : List DSAResponse}
    (hstep : ∀ handled p rsp results p' before, rsp ∈ responses → Inv handled p before →
      Responds link p rsp results p' → Inv (handled ++ [rsp]) p' (before ++ results))
    {s : ResponderState} {outcome : Outcome} (hs : Inv [] { state := s } [])
    (hreceive : receive link s (.responseMessage responses) = some outcome) :
    ∃ p results r, Inv responses p results ∧ runHandlers p.state p.persisted = some r ∧
      outcome.state = r.1 ∧ outcome.toEndpoint = [] ∧ outcome.persisted = p.persisted ∧
      outcome.sent = p.sent ++ groupByTarget results ++ r.2 := by
  simp only [receive] at hreceive
  split at hreceive
  case h_1 results p hrun =>
    obtain ⟨r, hr, rfl⟩ := Option.map_eq_some_iff.mp hreceive
    have hinv := processResponses_invariant Inv hstep hs hrun
    exact ⟨p, results, r, hinv, hr, rfl, rfl, rfl, rfl⟩
  case h_2 => cases hreceive

end DsaBroker
