import DsaBroker.CallRecords

/-!
# Calls forwarded to the endpoint

A request that is forwarded, other than a CLOSE, is a call under a target RID: a new one, or
that of the LIST call it joins.  `forwardedCalls` are the calls of an envelope, read off the
results of its requests; `envelope_calls_invariant` is the rule for what holds of them.
-/

namespace DsaBroker

/-- A request that is forwarded under a target RID. -/
structure ForwardedCall where
  targetId : Int
  sender : Routee
  request : DSARequest
deriving DecidableEq

/-- On whose behalf the call is made. -/
def ForwardedCall.origin (call : ForwardedCall) : Origin := ⟨call.sender, call.request.rid⟩

/-- What a request forwards; a CLOSE ends a call and is none. -/
def callsOf (sender : Routee) (request : DSARequest) (result : HandlerResult) :
    List ForwardedCall :=
  if request.method = .close then []
  else result.requests.map fun forwarded => ⟨forwarded.rid, sender, request⟩

theorem callsOf_request {sender : Routee} {request forwarded : DSARequest}
    (hmethod : request.method ≠ .close) :
    callsOf sender request (.request forwarded) = [⟨forwarded.rid, sender, request⟩] :=
  if_neg hmethod

theorem callsOf_nothing {sender : Routee} {request : DSARequest} {result : HandlerResult}
    (h : result.requests = []) : callsOf sender request result = [] := by
  unfold callsOf
  rw [h]
  split <;> rfl

/-- The calls that an envelope forwards. -/
def forwardedCalls [ScanOrder Int] (link : Link) (sender : Routee) (s : ResponderState)
    (requests : List DSARequest) : List ForwardedCall :=
  (requests.zip (processRequests link sender { state := s } requests).1).flatMap
    fun handled => callsOf sender handled.1 handled.2

/-- The target RID of the call that an action forwards. -/
def Action.target (rid : Int) : Action → Option Int
  | .passthrough .. | .listNew .. | .subscribeNew .. | .subscribeKnown ..
  | .unsubscribeLast .. => some rid
  | .listKnown targetId .. => some targetId
  | _ => none

/-- What an action has to do with the request it comes from. -/
def Action.OnBehalf (s : ResponderState) (sender : Routee) (request : DSARequest) :
    Action → Prop
  | .passthrough _ origin forward =>
      origin = ⟨sender, request.rid⟩ ∧ (∀ rid, (forward rid).rid = rid) ∧
        (request.method = .set ∨ request.method = .remove ∨ request.method = .invoke)
  | .listNew path origin _ =>
      origin = ⟨sender, request.rid⟩ ∧ request = .list request.rid path
  | .listKnown targetId origin _ =>
      origin = ⟨sender, request.rid⟩ ∧ ∃ path record, request = .list request.rid path ∧
        s.ridRegistry.lookupByPath path = some record ∧ record.targetId = targetId
  | .subscribeNew ridOrigin .. =>
      ridOrigin = ⟨sender, request.rid⟩ ∧ request.method = .subscribe
  | .subscribeKnown _ _ srcPath _ => request = .subscribe request.rid [srcPath]
  | .unsubscribeLast ridOrigin .. =>
      ridOrigin = ⟨sender, request.rid⟩ ∧ request.method = .unsubscribe
  | .closeCall _ | .closeListLast .. => request.method = .close
  | .answer rid | .saveAttribute rid .. | .unsubscribeOther rid .. => rid = request.rid
  | _ => True

/-- A call is forwarded under a target RID that is issued for it, or under that of the LIST
call of its path. -/
theorem Action.target_cases {a : Action} {s : ResponderState} {sender : Routee}
    {request : DSARequest} (hbehalf : a.OnBehalf s sender request) (rid : Int) :
    (a.target rid = some rid ∧ a.issues.1 = true) ∨
      (∃ path record, request = .list request.rid path ∧
        s.ridRegistry.callsByPath path = some record ∧
        a.target rid = some record.targetId ∧ a.issues.1 = false) ∨
      (a.target rid = none ∧ a.issues.1 = false) := by
  cases a with
  | listKnown targetId origin tgtPath =>
    obtain ⟨_, path, record, hrequest, hpath, rfl⟩ := hbehalf
    exact Or.inr (Or.inl ⟨path, record, hrequest, hpath, rfl, rfl⟩)
  | _ => first | exact Or.inl ⟨rfl, rfl⟩ | exact Or.inr (Or.inr ⟨rfl, rfl⟩)

/-- A call other than LIST is forwarded under the target RID that is issued for it. -/
theorem Action.issues_of_target {a : Action} {s : ResponderState} {sender : Routee}
    {request : DSARequest} (hbehalf : a.OnBehalf s sender request) {rid targetId : Int}
    (htarget : a.target rid = some targetId) (hlist : request.method ≠ .list) :
    targetId = rid ∧ a.issues.1 = true := by
  cases a with
  | listKnown known origin tgtPath =>
    obtain ⟨_, path, _, hrequest, _⟩ := hbehalf
    rw [hrequest] at hlist
    exact absurd rfl hlist
  | _ => first | exact ⟨(Option.some.inj htarget).symm, rfl⟩ | cases htarget

/-- The broker answers a request itself with a closed response of the request's rid only. -/
theorem Action.responses_eq {a : Action} {s : ResponderState} {sender : Routee}
    {request : DSARequest} (hbehalf : a.OnBehalf s sender request) (rid sid : Int) :
    ∀ rsp ∈ (a.result rid sid).responses, rsp = closedResponse request.rid := by
  intro rsp hrsp
  cases a with
  | answer srcRid => exact hbehalf ▸ List.mem_singleton.mp hrsp
  | saveAttribute srcRid nodePath name value => exact hbehalf ▸ List.mem_singleton.mp hrsp
  | unsubscribeOther srcRid sidOrigin targetSid => exact hbehalf ▸ List.mem_singleton.mp hrsp
  | _ => cases hrsp

section

variable [ScanOrder Int]

/-- Whatever a request makes the responder do is done on behalf of its sender and under its own rid,
and a LIST joins only a call of the path it lists. -/
theorem requestAction_onBehalf (link : Link) (sender : Routee) (s : ResponderState)
    (request : DSARequest) :
    (requestAction link sender s request).OnBehalf s sender request := by
  rcases request with ⟨rid, path⟩ | ⟨rid, path, value, permit⟩ | ⟨rid, path⟩ |
    ⟨rid, path, params, permit⟩ | ⟨rid, paths⟩ | ⟨rid, sids⟩ | rid
  · -- a LIST: of a new path, or of one that is listed already
    simp only [requestAction, lookups, actionOf]
    cases hlookup : s.ridRegistry.lookupByPath path with
    | none => exact ⟨rfl, rfl⟩
    | some record => exact ⟨rfl, path, record, rfl, hlookup, rfl⟩
  · -- a SET: of an attribute of the broker's own node, or of what the link has
    simp only [requestAction, actionOf]
    split
    · split
      · exact rfl
      · exact trivial
    · exact ⟨rfl, fun _ => rfl, Or.inl rfl⟩
  · exact ⟨rfl, fun _ => rfl, Or.inr (Or.inl rfl)⟩
  · -- an INVOKE: of the attribute actions, which take a name, or of an action of the link
    simp only [requestAction, actionOf]
    split
    · split
      · exact rfl
      · exact trivial
    · split
      · split
        · exact ⟨rfl, fun _ => rfl, Or.inr (Or.inr rfl)⟩
        · exact trivial
      · exact ⟨rfl, fun _ => rfl, Or.inr (Or.inr rfl)⟩
  · simp only [requestAction, lookups, actionOf]
    cases honly : onlyElement paths with
    | none => exact trivial
    | some srcPath =>
      rw [onlyElement_eq_some.mp honly]
      simp only [Option.bind_some]
      cases s.sidRegistry.lookupByPath srcPath.path with
      | none => exact ⟨rfl, rfl⟩
      | some tgtSid => exact rfl
  · simp only [requestAction, lookups, actionOf]
    cases onlyElement sids with
    | none => exact trivial
    | some sid =>
      simp only [Option.bind_some]
      rcases s.subsRegistry.removal ⟨sender, sid⟩ with _ | ⟨targetSid, _ | _⟩
      · exact rfl
      · exact rfl
      · exact ⟨rfl, rfl⟩
  · -- a CLOSE: of a call, else of an origin in a list binding
    simp only [requestAction, lookups, actionOf]
    cases s.ridRegistry.lookupByOrigin ⟨sender, rid⟩ with
    | some record => exact rfl
    | none =>
      rcases s.listRegistry.removal ⟨sender, rid⟩ with _ | ⟨targetId, _ | _⟩
      · exact trivial
      · exact trivial
      · exact rfl

/-- The call that a request forwards at its turn. -/
def EnvelopeTurn.calls (link : Link) (sender : Routee) (t : EnvelopeTurn)
    (request : DSARequest) : List ForwardedCall :=
  callsOf sender request
    ((t.action link sender request).result t.present.nextRid t.present.nextSid)

/-- The call of a request, if it forwards one, is its own, under the target of its action. -/
theorem EnvelopeTurn.calls_eq (link : Link) (sender : Routee) (t : EnvelopeTurn)
    (request : DSARequest) :
    t.calls link sender request =
      ((t.action link sender request).target t.present.nextRid).toList.map
        fun targetId => ⟨targetId, sender, request⟩ := by
  have hbehalf : (t.action link sender request).OnBehalf t.present sender request :=
    requestAction_onBehalf ..
  unfold EnvelopeTurn.calls
  -- only a CLOSE is handed on without being a call of its own
  generalize t.action link sender request = a at hbehalf
  cases a with
  | nothing => exact callsOf_nothing rfl
  | answer srcRid => exact callsOf_nothing rfl
  | saveAttribute srcRid nodePath name value => exact callsOf_nothing rfl
  | passthrough method origin forward =>
    obtain ⟨_, hrid, hmethod⟩ := hbehalf
    have hclose : request.method ≠ .close := by
      rcases hmethod with h | h | h <;> rw [h] <;> exact nofun
    apply (callsOf_request hclose).trans
    rw [hrid]
    rfl
  | listNew path origin tgtPath =>
    apply callsOf_request
    rw [hbehalf.2]
    exact nofun
  | listKnown targetId origin tgtPath =>
    obtain ⟨_, path, _, hrequest, _⟩ := hbehalf
    apply callsOf_request
    rw [hrequest]
    exact nofun
  | subscribeNew ridOrigin sidOrigin srcPath tgtPath =>
    apply callsOf_request
    rw [hbehalf.2]
    exact nofun
  | subscribeKnown tgtSid sidOrigin srcPath tgtPath =>
    apply callsOf_request
    rw [show request = .subscribe request.rid [srcPath] from hbehalf]
    exact nofun
  | unsubscribeLast ridOrigin sidOrigin targetSid =>
    apply callsOf_request
    rw [hbehalf.2]
    exact nofun
  | unsubscribeOther srcRid sidOrigin targetSid => exact callsOf_nothing rfl
  | closeCall targetId => exact if_pos hbehalf
  | closeListLast origin targetId record => exact if_pos hbehalf
  | closeListOther origin targetId => exact callsOf_nothing rfl

/-- What the broker answers itself to the requests of an envelope. -/
theorem processRequests_responses (link : Link) (sender : Routee) (p : Processing)
    (requests : List DSARequest) :
    ∀ rsp ∈ (HandlerResult.flatten (processRequests link sender p requests).1).responses,
      ∃ request ∈ requests, rsp = closedResponse request.rid := by
  induction requests generalizing p with
  | nil =>
    intro rsp hrsp
    cases hrsp
  | cons request rest ih =>
    intro rsp hrsp
    simp only [processRequests, processRequest_eq, HandlerResult.flatten, List.flatMap_cons]
      at hrsp
    rcases List.mem_append.mp hrsp with hfirst | hlater
    · exact ⟨request, List.mem_cons_self,
        Action.responses_eq (requestAction_onBehalf ..) _ _ rsp hfirst⟩
    · obtain ⟨later, hmem, heq⟩ := ih _ rsp hlater
      exact ⟨later, List.mem_cons_of_mem _ hmem, heq⟩

/-- How many target RIDs the requests issue. -/
def ridsIssued (link : Link) (sender : Routee) (t : EnvelopeTurn) : List DSARequest → Nat
  | [] => 0
  | request :: rest =>
      (if (t.action link sender request).issues.1 then 1 else 0) +
        ridsIssued link sender (t.take link sender request) rest

/-- What a request keeps at its turn, of the registries, of the calls forwarded and of the
number of target RIDs issued so far, an envelope keeps. -/
theorem envelope_calls_invariant {Inv : EnvelopeTurn → List ForwardedCall → Nat → Prop}
    {Ok : EnvelopeTurn → DSARequest → Prop} {link : Link} {sender : Routee} (issued : Nat)
    (hstep : ∀ t calls issued request, Inv t calls issued → Ok t request →
      Inv (t.take link sender request) (calls ++ t.calls link sender request)
        (issued + if (t.action link sender request).issues.1 then 1 else 0))
    {s : ResponderState} {requests : List DSARequest} {calls : List ForwardedCall}
    (hstart : Inv { present := s } calls issued)
    (hok : Along (EnvelopeTurn.take link sender) Ok { present := s } requests) :
    Inv (envelopeTurn link sender s requests)
      (calls ++ forwardedCalls link sender s requests)
      (issued + ridsIssued link sender { present := s } requests) := by
  suffices hrest : ∀ (t : EnvelopeTurn) (p : Processing) calls issued, p.state = t.present →
      Inv t calls issued → Along (EnvelopeTurn.take link sender) Ok t requests →
      Inv (requests.foldl (responderSystem link sender).take t)
        (calls ++ (requests.zip (processRequests link sender p requests).1).flatMap
          fun handled => callsOf sender handled.1 handled.2)
        (issued + ridsIssued link sender t requests) from
    hrest { present := s } { state := s } calls issued rfl hstart hok
  clear hstart hok
  induction requests with
  | nil =>
    intro t p calls issued _ ht _
    simpa [ridsIssued] using ht
  | cons request rest ih =>
    intro t p calls issued hstate ht hok
    obtain ⟨hrequest, hrest⟩ := hok
    have hnext := hstep t calls issued request ht hrequest
    have hpresent : (p.after (requestAction link sender p.state request)).state
        = (t.take link sender request).present := by
      rw [hstate, Processing.after, hstate]
      rfl
    have hresult := ih (t.take link sender request) _ _ _ hpresent hnext hrest
    have hcalls : t.calls link sender request = callsOf sender request
        ((requestAction link sender p.state request).result p.state.nextRid p.state.nextSid) := by
      rw [hstate]
      rfl
    rw [hcalls, List.append_assoc, Nat.add_assoc] at hresult
    simp only [processRequests, processRequest_eq, List.zip_cons_cons, List.flatMap_cons]
    exact hresult

end

end DsaBroker
