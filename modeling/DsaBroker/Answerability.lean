import DsaBroker.ForwardedCalls
import DsaBroker.ResponseDelivery

/-!
# Forwarded calls stay answerable

A SET, REMOVE, INVOKE, SUBSCRIBE or UNSUBSCRIBE that is forwarded under a target RID is to be
registered under it, for its origin, until a response closes it; then what the endpoint
responds reaches the requester with its own rid (`open_calls_answerable`).

`handleSubscribeRequest` issues a target RID for every SUBSCRIBE, but registers it only for the
first of a path: the acknowledgement of a second subscriber finds no record.  And a target RID
that is issued while it is in use takes the record of another call.  `CallCondition` excludes
just these.
-/

namespace DsaBroker

/-- A responder and the calls, other than LIST, that it has forwarded and the endpoint has not
closed. -/
structure CallRun where
  state : ResponderState
  openCalls : List ForwardedCall

def CallRun.initial : CallRun := ⟨.initial, []⟩

/-- A response of the message closes the call: it comes under the call's target RID and says that
the stream is closed. -/
def ClosedBy (responses : List DSAResponse) (call : ForwardedCall) : Prop :=
  ∃ rsp ∈ responses, rsp.rid = call.targetId ∧ rsp.stream = some .closed

instance (responses : List DSAResponse) (call : ForwardedCall) :
    Decidable (ClosedBy responses call) :=
  inferInstanceAs (Decidable (∃ rsp ∈ responses, rsp.rid = call.targetId ∧
    rsp.stream = some .closed))

section

variable [ScanOrder Int]

def CallRun.receive (link : Link) (run : CallRun) (msg : ResponderMessage) : Option CallRun :=
  (DsaBroker.receive link run.state msg).map fun outcome =>
    { state := outcome.state
      openCalls := match msg with
        | .requestEnvelope sender requests =>
            run.openCalls ++ (forwardedCalls link sender run.state requests).filter
              fun call => call.request.method ≠ .list
        | .responseMessage responses =>
            run.openCalls.filter fun call => ¬ ClosedBy responses call }

/-- A target RID that no call has: no record is registered under it, and no origins are bound to it.
-/
def RidFree (s : ResponderState) (rid : Int) : Prop :=
  s.ridRegistry.lookupByTargetId rid = none ∧ ¬ s.listRegistry.Bound rid

/-- The request is no SUBSCRIBE of a path that has a SID, and a target RID that it issues is
free, both on the registries it sees and with everything pending performed. -/
def CallUndisturbed (link : Link) (sender : Routee) (t : EnvelopeTurn) (request : DSARequest) :
    Prop :=
  (∀ rid srcPath, request = .subscribe rid [srcPath] →
    t.present.sidRegistry.lookupByPath srcPath.path = none) ∧
  ((t.action link sender request).issues.1 = true →
    RidFree t.present t.present.nextRid ∧ RidFree t.settled t.present.nextRid)

def CallCondition (link : Link) (run : CallRun) : ResponderMessage → Prop
  | .requestEnvelope sender requests =>
      Along (EnvelopeTurn.take link sender) (CallUndisturbed link sender)
        { present := run.state } requests
  | .responseMessage _ => True

end

/-! ### Requests -/

/-- The call is registered for its origin, is no LIST, and no LIST shares its target RID. -/
structure Held (s : ResponderState) (call : ForwardedCall) : Prop where
  record : ∃ record, s.ridRegistry.callsByTargetId call.targetId = some record ∧
    record.origin = some call.origin ∧ record.method ≠ .list
  unbound : ¬ s.listRegistry.Bound call.targetId

/-- The counter of target RIDs, which never gives out 0. -/
def Positive (s : ResponderState) : Prop :=
  0 < s.ridRegistry.nextTargetId.value ∧ 0 < s.ridRegistry.nextTargetId.init

/-- The registries in the middle of an envelope, as the next request finds them and as they are when
the pending effects have been performed: both in order, equal on the records that are in both, and
with every open call held. -/
structure CallTurn (t : EnvelopeTurn) (openCalls : List ForwardedCall) : Prop where
  present : RidInv t.present.ridRegistry
  settled : RidInv t.settled.ridRegistry
  current : ∀ targetId before found,
    t.present.ridRegistry.callsByTargetId targetId = some before →
    t.settled.ridRegistry.callsByTargetId targetId = some found → found = before
  positive : Positive t.present
  held : ∀ call ∈ openCalls, call.targetId ≠ 0 ∧ Held t.settled call ∧
    ¬ t.present.listRegistry.Bound call.targetId

theorem Positive.advance {s : ResponderState} (h : Positive s) (issues : Bool × Bool) :
    Positive (s.advance issues) := by
  obtain ⟨hvalue, hinit⟩ := h
  have hinc : 0 < (s.ridRegistry.nextTargetId.inc.2).value := by
    rw [IntCounter.inc_snd_value]
    split
    · exact hinit
    · omega
  obtain ⟨issuesRid, issuesSid⟩ := issues
  cases issuesRid <;> cases issuesSid
  · exact ⟨hvalue, hinit⟩
  · exact ⟨hvalue, hinit⟩
  · exact ⟨hinc, hinit⟩
  · exact ⟨hinc, hinit⟩

/-- What a request forwards under a new target RID it registers under it, unless it is a
SUBSCRIBE of a path that has a SID, or a LIST. -/
theorem held_of_issued [ScanOrder Int] {present settled : ResponderState} {sender : Routee}
    {request : DSARequest} {a : Action} (hbehalf : a.OnBehalf present sender request)
    (hfound : a.Found present) (hissues : a.issues.1 = true) (hlist : request.method ≠ .list)
    (hsubscribe : ∀ tgtSid sidOrigin srcPath tgtPath,
      a ≠ .subscribeKnown tgtSid sidOrigin srcPath tgtPath)
    {rid sid : Int} (hfree : ¬ settled.listRegistry.Bound rid) :
    Held (settled.performed (a.effects rid sid)) ⟨rid, sender, request⟩ := by
  have hsaved : ∀ (method : DSAMethod) (r : RidRegistry), method ≠ .list →
      ∃ record, (r.addLookup method (some ⟨sender, request.rid⟩) none rid).callsByTargetId rid
        = some record ∧ record.origin = some ⟨sender, request.rid⟩ ∧ record.method ≠ .list := by
    intro method r hmethod
    refine ⟨⟨method, rid, some ⟨sender, request.rid⟩, none⟩, ?_, rfl, hmethod⟩
    rw [RidRegistry.callsByTargetId_addLookup, if_pos rfl]
  cases a with
  | passthrough method origin forward =>
    obtain ⟨rfl, _⟩ := hbehalf
    refine ⟨hsaved method settled.ridRegistry ?_, hfree⟩
    rcases hfound with rfl | rfl | rfl <;> exact nofun
  | listNew path origin tgtPath =>
    rw [hbehalf.2] at hlist
    exact absurd rfl hlist
  | subscribeNew ridOrigin sidOrigin srcPath tgtPath =>
    obtain ⟨rfl, _⟩ := hbehalf
    exact ⟨hsaved .subscribe settled.ridRegistry nofun, hfree⟩
  | subscribeKnown tgtSid sidOrigin srcPath tgtPath =>
    exact absurd rfl (hsubscribe tgtSid sidOrigin srcPath tgtPath)
  | unsubscribeLast ridOrigin sidOrigin targetSid =>
    obtain ⟨rfl, _⟩ := hbehalf
    exact ⟨hsaved .unsubscribe settled.ridRegistry nofun, hfree⟩
  | _ => cases hissues

theorem Held.advance {s : ResponderState} {call : ForwardedCall} (h : Held s call)
    (issues : Bool × Bool) : Held (s.advance issues) call := by
  obtain ⟨issuesRid, issuesSid⟩ := issues
  cases issuesRid <;> cases issuesSid <;> exact ⟨h.record, h.unbound⟩

theorem Held.performed {s : ResponderState} {call : ForwardedCall} (h : Held s call)
    {calls : List PersistCall} (hcalls : ∀ c ∈ calls, ¬ c.Touches call.targetId) :
    Held (s.performed calls) call := by
  obtain ⟨hsame, hbound⟩ := untouched_performed s hcalls
  refine ⟨?_, fun ht => h.unbound (hbound ht)⟩
  rw [hsame]
  exact h.record

section

variable [ScanOrder Int] {link : Link} {sender : Routee}

/-- **A request at its turn.** An undisturbed request keeps the open calls answerable, those of
before and the one that it opens itself: nothing it persists touches their target RIDs. -/
theorem CallTurn.take {t : EnvelopeTurn} {openCalls : List ForwardedCall}
    (ht : CallTurn t openCalls) {request : DSARequest}
    (hundisturbed : CallUndisturbed link sender t request) :
    CallTurn (t.take link sender request) (openCalls ++
      (t.calls link sender request).filter fun call => call.request.method ≠ .list) := by
  have hfound : (t.action link sender request).Found t.present := requestAction_found ..
  have hbehalf : (t.action link sender request).OnBehalf t.present sender request :=
    requestAction_onBehalf ..
  have hpresent : (t.take link sender request).present
      = t.present.advance (t.action link sender request).issues := rfl
  have hsettled := t.settled_take link sender request
  have hcalls := t.calls_eq link sender request
  obtain ⟨hnew, hfree⟩ := hundisturbed
  generalize t.action link sender request = a at hfound hbehalf hpresent hsettled hcalls hfree
  constructor
  · -- what is present keeps its records, only the counters move
    rw [hpresent]
    exact ht.present.advance _
  · rw [hsettled]
    -- the performed effects keep the registry in order; an issued RID is not in it
    refine RidInv.perform ht.present (ht.settled.advance _) ?_ hfound ?_
    · intro targetId _ before found
      rw [callsByTargetId_advance]
      exact ht.current targetId before found
    · rintro hissues ⟨record, hrecord, _⟩
      rw [callsByTargetId_advance] at hrecord
      cases (hfree hissues).2.1.symm.trans hrecord
  · -- a record that is there before and after the request is the same one
    intro targetId before found
    rw [hpresent, hsettled, callsByTargetId_advance]
    intro hbefore hafter
    rcases callsByTargetId_performed hafter with hold | ⟨_, _, _, hsaved⟩
    · rw [callsByTargetId_advance] at hold
      exact ht.current targetId before found hbefore hold
    · obtain ⟨rfl, hissues⟩ := Action.issues_of_saved hsaved
      cases (hfree hissues).1.1.symm.trans hbefore
  · rw [hpresent]
    exact ht.positive.advance _
  · -- an open call of before keeps its record, unless the request joins or closes it
    intro call hcall
    rw [hpresent, hsettled, listRegistry_advance]
    rcases List.mem_append.mp hcall with hold | hforwarded
    · obtain ⟨hne, hheld, hunbound⟩ := ht.held call hold
      obtain ⟨record, hrecord, _, hmethod⟩ := hheld.record
      refine ⟨hne, (hheld.advance _).performed (Action.untouched ?_ ?_ ?_), hunbound⟩
      · intro hissues heq
        rw [← heq] at hrecord
        cases (hfree hissues).2.1.symm.trans hrecord
      · -- a LIST joins a LIST call
        rintro targetId origin tgtPath rfl heq
        obtain ⟨_, path, found, _, hpath, htarget⟩ := hbehalf
        obtain ⟨hlistMethod, _, hbefore⟩ := ht.present.byPath path found hpath
        rw [htarget, heq] at hbefore
        rw [ht.current _ found record hbefore hrecord] at hmethod
        exact hmethod hlistMethod
      · -- a CLOSE of the last origin removes the call of a list binding
        rintro origin targetId found rfl htarget
        obtain ⟨hremoval, hlookup⟩ := hfound
        obtain ⟨binding, hbinding, _⟩ := Bindings.removal_eq_some hremoval
        rw [ht.present.targetIds targetId found hlookup.symm] at htarget
        exact hunbound (htarget ▸ ⟨binding, hbinding⟩)
    · -- a call that the request has opened itself has the RID just issued
      rw [List.mem_filter, hcalls] at hforwarded
      obtain ⟨hforwarded, hmethod⟩ := hforwarded
      obtain ⟨targetId, htarget, rfl⟩ := List.mem_map.mp hforwarded
      obtain ⟨rfl, hissues⟩ := Action.issues_of_target hbehalf
        (Option.mem_toList.mp htarget) (of_decide_eq_true hmethod)
      obtain ⟨⟨_, hunboundPresent⟩, _, hunbound⟩ := hfree hissues
      refine ⟨Int.ne_of_gt ht.positive.1, ?_, hunboundPresent⟩
      apply held_of_issued hbehalf hfound hissues (of_decide_eq_true hmethod)
      · rintro tgtSid sidOrigin srcPath tgtPath rfl
        cases (hnew _ srcPath hbehalf).symm.trans hfound
      · rw [listRegistry_advance]
        exact hunbound

end

/-! ### Responses -/

/-- The processing of a response message after some of its responses: the RID registry is
as before, LIST calls only are bound, and calls are to be removed that a response closes. -/
structure AnswerInv (s : ResponderState) (handled : List DSAResponse) (p : Processing) : Prop where
  ridRegistry : p.state.ridRegistry = s.ridRegistry
  bound : ∀ t, p.state.listRegistry.Bound t →
    s.listRegistry.Bound t ∨ s.ridRegistry.ListRegistered t
  calls : ∀ call ∈ p.persisted,
    (∃ targetId regTypeVal, call = .group (.remove targetId regTypeVal)) ∨
    ∃ rsp ∈ handled, ∃ record, call = .rid (.removed record) ∧ rsp.stream = some .closed ∧
      s.ridRegistry.callsByTargetId rsp.rid = some record

/-- One response more: it binds no call but LIST calls, and the only records that are persisted as
removed are those of the calls it closes. -/
theorem AnswerInv.step {link : Link} {s : ResponderState} {handled : List DSAResponse}
    {p p' : Processing} {rsp : DSAResponse} {results : List (Routee × DSAResponse)}
    (h : AnswerInv s handled p) (hresponds : Responds link p rsp results p') :
    AnswerInv s (handled ++ [rsp]) p' := by
  have hkept : ∀ call ∈ p.persisted,
      (∃ targetId regTypeVal, call = .group (.remove targetId regTypeVal)) ∨
      ∃ rsp' ∈ handled ++ [rsp], ∃ record, call = .rid (.removed record) ∧
        rsp'.stream = some .closed ∧ s.ridRegistry.callsByTargetId rsp'.rid = some record := by
    intro call hcall
    rcases h.calls call hcall with hgroup | ⟨rsp', hmem, hremoved⟩
    · exact Or.inl hgroup
    · exact Or.inr ⟨rsp', List.mem_append_left _ hmem, hremoved⟩
  cases hresponds with
  | subscribe hrid hdelivered =>
    refine ⟨h.ridRegistry, h.bound, ?_⟩
    intro call hcall
    rcases List.mem_append.mp hcall with hold | hnew
    · -- rows of subscriptions persist removals of group records only
      exact hkept call hold
    · obtain ⟨groupCall, hgroup, rfl⟩ := List.mem_map.mp hnew
      obtain ⟨_, row, _, sid, _, rfl⟩ :=
        (Bindings.mem_persisted_deliverRows hdelivered groupCall).mp hgroup
      exact Or.inl ⟨sid, .subs, rfl⟩
  | @list record path oldUpdates delivered hrid hrecord hlist hrows hdelivered =>
    subst hdelivered
    refine ⟨h.ridRegistry, ?_, ?_⟩
    · -- the only new binding is the one of the LIST call answered
      intro t ht
      rcases Bindings.bound_put_setLastResponse.mp ht with rfl | hold
      · rw [h.ridRegistry] at hrecord
        exact Or.inr ⟨record, hrecord, hlist.1⟩
      · exact h.bound t hold
    · intro call hcall
      rcases List.mem_append.mp hcall with hold | hnew
      · exact hkept call hold
      · obtain ⟨groupCall, hgroup, rfl⟩ := List.mem_map.mp hnew
        simp only [Bindings.deliverListResponse] at hgroup
        split at hgroup
        · rw [List.mem_singleton.mp hgroup]
          exact Or.inl ⟨_, _, rfl⟩
        · cases hgroup
  | @call record origin hrid hrecord hcall horigin =>
    refine ⟨h.ridRegistry, h.bound, ?_⟩
    intro call hcallMem
    rcases List.mem_append.mp hcallMem with hold | hnew
    · exact hkept call hold
    · -- a closed response removes the call it answers, which is the case the condition speaks of
      split at hnew
      case isTrue hclosed =>
        rw [h.ridRegistry] at hrecord
        right
        exact ⟨rsp, List.mem_append_right _ (List.mem_singleton.mpr rfl), record,
          List.mem_singleton.mp hnew, hclosed, hrecord⟩
      case isFalse => cases hnew
  | unknown hrid hnone => exact ⟨h.ridRegistry, h.bound, hkept⟩

/-- The handlers that a response message leaves behind remove the calls that it closes. -/
theorem RidInv.performed_removals {s : ResponderState} (s₀ : ResponderState)
    {calls : List PersistCall}
    (hcalls : ∀ call ∈ calls, (∃ targetId regTypeVal, call = .group (.remove targetId regTypeVal)) ∨
      ∃ record, call = .rid (.removed record) ∧
        s₀.ridRegistry.callsByTargetId record.targetId = some record)
    (h : RidInv s.ridRegistry)
    (hshrinks : ∀ t record, s.ridRegistry.callsByTargetId t = some record →
      s₀.ridRegistry.callsByTargetId t = some record) :
    RidInv (s.performed calls).ridRegistry := by
  induction calls generalizing s with
  | nil => exact h
  | cons call rest ih =>
    rw [List.forall_mem_cons] at hcalls
    obtain ⟨hcall, hrest⟩ := hcalls
    rcases hcall with ⟨targetId, regTypeVal, rfl⟩ | ⟨record, rfl, hrecord⟩
    · cases regTypeVal <;> exact ih hrest h hshrinks
    · refine ih hrest (h.removeCall ?_) ?_
      · intro found hfound
        have hsame := hshrinks _ found hfound
        rw [hrecord] at hsame
        exact (Option.some.inj hsame).symm
      · intro t found hfound
        exact hshrinks t found (RidInv.callsByTargetId_of_removed hfound).1

/-! ### Runs -/

/-- What every state of a run satisfies. -/
structure CallInv (run : CallRun) : Prop where
  rids : RidInv run.state.ridRegistry
  positive : Positive run.state
  held : ∀ call ∈ run.openCalls, call.targetId ≠ 0 ∧ Held run.state call

theorem CallInv.initial : CallInv .initial := by
  refine ⟨RidInv.fresh, ⟨by decide, by decide⟩, ?_⟩
  intro call hcall
  cases hcall

/-- When the handlers of a response message have run, the open calls that the message has not closed
are still held. -/
theorem CallInv.responses {run : CallRun} (hs : CallInv run) {responses : List DSAResponse}
    {p : Processing} (h : AnswerInv run.state responses p) :
    CallInv { state := p.state.performed p.persisted
              openCalls := run.openCalls.filter fun call => ¬ ClosedBy responses call } := by
  have hrids : RidInv p.state.ridRegistry := by
    rw [h.ridRegistry]
    exact hs.rids
  refine ⟨RidInv.performed_removals run.state ?_ hrids ?_, ?_, ?_⟩
  · -- each removal takes the record that stands under its target RID
    intro call hcall
    rcases h.calls call hcall with hgroup | ⟨rsp, _, record, rfl, _, hrecord⟩
    · exact Or.inl hgroup
    · refine Or.inr ⟨record, rfl, ?_⟩
      rw [hs.rids.targetIds rsp.rid record hrecord]
      exact hrecord
  · rw [h.ridRegistry]
    exact fun _ _ => id
  · -- responses issue no target RID
    have hcounter : (p.state.performed p.persisted).ridRegistry.nextTargetId
        = run.state.ridRegistry.nextTargetId := by
      rw [performed_nextTargetId, h.ridRegistry]
    unfold Positive
    rw [hcounter]
    exact hs.positive
  · intro call hcall
    rw [List.mem_filter] at hcall
    obtain ⟨hopen, hnotClosed⟩ := hcall
    have hnotClosed : ¬ ClosedBy responses call := of_decide_eq_true hnotClosed
    obtain ⟨hne, hheld⟩ := hs.held call hopen
    obtain ⟨record, hrecord, horigin, hmethod⟩ := hheld.record
    have hprocessed : Held p.state call := by
      refine ⟨⟨record, ?_, horigin, hmethod⟩, ?_⟩
      · rw [h.ridRegistry]
        exact hrecord
      · intro hbound
        rcases h.bound _ hbound with hold | ⟨found, hfound, hlist⟩
        · exact hheld.unbound hold
        · cases hrecord.symm.trans hfound
          exact hmethod hlist
    -- an open call that is removed by the message would have been closed by it
    refine ⟨hne, hprocessed.performed ?_⟩
    intro c hc htouches
    rcases h.calls c hc with ⟨targetId, regTypeVal, rfl⟩ | ⟨rsp, hrsp, found, rfl, hclosed, hfound⟩
    · exact htouches
    · have htarget : rsp.rid = call.targetId :=
        (hs.rids.targetIds rsp.rid found hfound).symm.trans htouches
      exact hnotClosed ⟨rsp, hrsp, htarget, hclosed⟩

section

variable [ScanOrder Int] {link : Link}

/-- **One message of a run** that meets the condition keeps every open call held, under a target RID
other than 0. -/
theorem CallInv.receive {run run' : CallRun} (h : CallInv run)
    {msg : ResponderMessage} (hok : CallCondition link run msg)
    (hreceive : run.receive link msg = some run') : CallInv run' := by
  obtain ⟨outcome, houtcome, rfl⟩ := Option.map_eq_some_iff.mp hreceive
  cases msg with
  | requestEnvelope sender requests =>
    have hstart : CallTurn { present := run.state } (run.openCalls ++
        ([] : List ForwardedCall).filter fun call => call.request.method ≠ .list) := by
      rw [List.filter_nil, List.append_nil]
      refine ⟨h.rids, h.rids, ?_, h.positive, ?_⟩
      · intro targetId before found hbefore hfound
        cases hbefore.symm.trans hfound
        rfl
      · intro call hcall
        obtain ⟨hne, hheld⟩ := h.held call hcall
        exact ⟨hne, hheld, hheld.unbound⟩
    have hstep : ∀ (t : EnvelopeTurn) (calls : List ForwardedCall) (_ : Nat)
        (request : DSARequest),
        CallTurn t (run.openCalls ++ calls.filter fun call => call.request.method ≠ .list) →
        CallUndisturbed link sender t request →
        CallTurn (t.take link sender request) (run.openCalls ++
          (calls ++ t.calls link sender request).filter fun call =>
            call.request.method ≠ .list) := by
      intro t calls _ request ht hundisturbed
      rw [List.filter_append, ← List.append_assoc]
      exact ht.take hundisturbed
    have hturn := envelope_calls_invariant 0 hstep hstart hok
    rw [receive_requestEnvelope_state houtcome]
    refine ⟨hturn.settled, ?_, fun call hcall => ?_⟩
    · unfold Positive EnvelopeTurn.settled
      rw [performed_nextTargetId]
      exact hturn.positive
    · obtain ⟨hne, hheld, _⟩ := hturn.held call hcall
      exact ⟨hne, hheld⟩
  | responseMessage responses =>
    have hstart : AnswerInv run.state [] { state := run.state } :=
      ⟨rfl, fun _ => Or.inl, nofun⟩
    obtain ⟨p, _, r, hinv, hrun, hstate, _⟩ := responseMessage_invariant
      (fun handled p _ => AnswerInv run.state handled p)
      (fun _ _ _ _ _ _ _ hp hresponds => hp.step hresponds) hstart houtcome
    rw [hstate, performed_of_runHandlers hrun]
    exact h.responses hinv

end

end DsaBroker
