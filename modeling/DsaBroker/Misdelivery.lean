import DsaBroker.Relays

/-!
# Responses reach their originators only

Every response of the endpoint that is relayed to a requester answers a target RID that the
broker issued for a request of this requester with this rid.  The calls forwarded so far are
kept beside the state, and every relay is explained by one of them
(`relays_reach_originators`).

The argument is that target RIDs are not reused.  The counter gives them out in order as long
as it does not wrap, so a call forwarded under a target RID is the only one under it, or all
of them are LISTs of one path.
-/

namespace DsaBroker

section

variable [ScanOrder Int]

/-- A responder, the calls it has forwarded, the number of target RIDs it has issued, and what
it has relayed. -/
structure RelayRun where
  state : ResponderState
  forwarded : List ForwardedCall
  issued : Nat
  relays : List Relay

def RelayRun.initial : RelayRun := ⟨.initial, [], 0, []⟩

def RelayRun.receive (link : Link) (run : RelayRun) (msg : ResponderMessage) :
    Option RelayRun :=
  (DsaBroker.receive link run.state msg).map fun outcome =>
    { state := outcome.state
      forwarded := match msg with
        | .requestEnvelope sender requests =>
            run.forwarded ++ forwardedCalls link sender run.state requests
        | .responseMessage _ => run.forwarded
      issued := match msg with
        | .requestEnvelope sender requests =>
            run.issued + ridsIssued link sender { present := run.state } requests
        | .responseMessage _ => run.issued
      relays := run.relays ++ DsaBroker.relays link run.state msg }

end

/-- Two requests forwarded under one target RID may be so: they are one and the same, or LISTs
of one path. -/
def ForwardedCall.SameCall (call other : ForwardedCall) : Prop :=
  call = other ∨ ∃ path, call.request = .list call.request.rid path ∧
    other.request = .list other.request.rid path

/-- The relay goes to the originator of a call under the target RID that it answers. -/
def Explained (forwarded : List ForwardedCall) (relay : Relay) : Prop :=
  ∃ call ∈ forwarded, call.targetId = relay.targetId ∧
    call.origin = ⟨relay.target, relay.response.rid⟩

theorem Explained.mono {forwarded later : List ForwardedCall} {relay : Relay}
    (h : Explained forwarded relay) : Explained (forwarded ++ later) relay := by
  obtain ⟨call, hcall, hexplains⟩ := h
  exact ⟨call, List.mem_append_left _ hcall, hexplains⟩

/-! ### The invariant -/

/-- Some call under the target RID has the origin. -/
def Originates (forwarded : List ForwardedCall) (targetId : Int) (origin : Origin) : Prop :=
  ∃ call ∈ forwarded, call.targetId = targetId ∧ call.origin = origin

/-- The calls under the target RID are LISTs of the path, and there are some. -/
def Lists (forwarded : List ForwardedCall) (targetId : Int) (path : Str) : Prop :=
  (∃ call ∈ forwarded, call.targetId = targetId) ∧
    ∀ call ∈ forwarded, call.targetId = targetId → call.request = .list call.request.rid path

/-- A target RID stands for one call. -/
def OneCallEach (forwarded : List ForwardedCall) : Prop :=
  ∀ call ∈ forwarded, ∀ other ∈ forwarded, other.targetId = call.targetId → call.SameCall other

/-- What the registries know of the calls forwarded: an origin that is recorded or bound under a
target RID has had a request forwarded under it, and the calls found by a path are LISTs of this
path. -/
structure OriginInv (s : ResponderState) (forwarded : List ForwardedCall) : Prop where
  records : ∀ targetId record origin,
    s.ridRegistry.callsByTargetId targetId = some record → record.origin = some origin →
    Originates forwarded targetId origin
  lists : ∀ path record, s.ridRegistry.callsByPath path = some record →
    Lists forwarded record.targetId path
  origins : ∀ targetId origin, origin ∈ s.listRegistry.getOrigins targetId →
    Originates forwarded targetId origin
  last : ∀ targetId rsp, s.listRegistry.getLastResponse targetId = some rsp →
    rsp.rid = targetId

/-- The calls forwarded have got the target RIDs issued so far, each its own; and the counter
has not wrapped. -/
structure IssuedInv (s : ResponderState) (forwarded : List ForwardedCall) (issued : Nat) :
    Prop where
  counter : s.ridRegistry.nextTargetId = ⟨1, issued + 1⟩
  issuedIds : ∀ call ∈ forwarded, call.targetId ≤ issued
  oneCallEach : OneCallEach forwarded

/-- The registries in the middle of an envelope. -/
structure RelayTurn (t : EnvelopeTurn) (forwarded : List ForwardedCall) (issued : Nat) :
    Prop where
  issuedInv : IssuedInv t.present forwarded issued
  present : ∀ path record, t.present.ridRegistry.callsByPath path = some record →
    Lists forwarded record.targetId path
  settled : OriginInv t.settled forwarded
  relays : ∀ relay ∈ relaysOfHandlers t.present t.pending, Explained forwarded relay

/-- A request adds the call it forwards. -/
theorem Originates.mono {forwarded later : List ForwardedCall} {targetId : Int} {origin : Origin}
    (h : Originates forwarded targetId origin) :
    Originates (forwarded ++ later) targetId origin := by
  obtain ⟨call, hcall, horiginates⟩ := h
  exact ⟨call, List.mem_append_left _ hcall, horiginates⟩

theorem Lists.append {forwarded later : List ForwardedCall} {targetId : Int} {path : Str}
    (h : Lists forwarded targetId path)
    (hlater : ∀ call ∈ later, call.targetId = targetId →
      call.request = .list call.request.rid path) : Lists (forwarded ++ later) targetId path := by
  obtain ⟨⟨call, hcall, htarget⟩, hall⟩ := h
  refine ⟨⟨call, List.mem_append_left _ hcall, htarget⟩, ?_⟩
  intro other hother
  rcases List.mem_append.mp hother with hold | hnew
  · exact hall other hold
  · exact hlater other hnew

theorem Lists.path_eq {forwarded : List ForwardedCall} {targetId : Int} {path path' : Str}
    (h : Lists forwarded targetId path) (h' : Lists forwarded targetId path') :
    path = path' := by
  obtain ⟨⟨call, hcall, htarget⟩, hall⟩ := h
  have hsame := (hall call hcall htarget).symm.trans (h'.2 call hcall htarget)
  exact (DSARequest.list.inj hsame).2

/-! ### Persist handlers -/

/-- What a persist call says of calls is so of the calls forwarded. -/
def PersistCall.ExplainedBy (forwarded : List ForwardedCall) : PersistCall → Prop
  | .rid (.saved _ origin path tgtId) =>
      (∀ o, origin = some o → Originates forwarded tgtId o) ∧
        ∀ p, path = some p → Lists forwarded tgtId p
  | .group (.addOrigin _ _ .subs) => True
  | .group (.addOrigin targetId origin _) => Originates forwarded targetId origin
  | _ => True

theorem explainedBy_of_isRemoval {forwarded : List ForwardedCall} {call : PersistCall}
    (h : call.IsRemoval) : call.ExplainedBy forwarded := by
  rcases call with (_ | _) | _ | _ | (_ | _ | _)
  · exact h.elim
  · exact trivial
  · exact h.elim
  · exact h.elim
  · exact h.elim
  · exact h.elim
  · exact trivial

theorem OriginInv.setList {s : ResponderState} {forwarded : List ForwardedCall}
    (h : OriginInv s forwarded) {b : Bindings}
    (horigins : ∀ targetId origin, origin ∈ b.getOrigins targetId →
      origin ∈ s.listRegistry.getOrigins targetId ∨ Originates forwarded targetId origin)
    (hlast : ∀ targetId rsp, b.getLastResponse targetId = some rsp →
      s.listRegistry.getLastResponse targetId = some rsp ∨ rsp.rid = targetId) :
    OriginInv { s with listRegistry := b } forwarded where
  records := h.records
  lists := h.lists
  origins targetId origin horigin := by
    rcases horigins targetId origin horigin with hold | hnew
    · exact h.origins targetId origin hold
    · exact hnew
  last targetId rsp hrsp := by
    rcases hlast targetId rsp hrsp with hold | hnew
    · exact h.last targetId rsp hold
    · exact hnew

/-- A group event keeps the origins of LIST calls explained if the origin that it adds is of a
request forwarded under this target RID. -/
theorem OriginInv.appliedGroup {s : ResponderState} {forwarded : List ForwardedCall}
    (h : OriginInv s forwarded) {call : GroupCallPersist}
    (hadded : ∀ targetId origin regTypeVal, call = .addOrigin targetId origin regTypeVal →
      Originates forwarded targetId origin) :
    OriginInv { s with listRegistry := call.applied s.listRegistry } forwarded := by
  apply h.setList
  · intro t o ho
    rcases call with ⟨targetId, origin, regTypeVal⟩ | ⟨origin, regTypeVal, targetId, _ | _⟩ |
      ⟨targetId, regTypeVal⟩
    · rcases Bindings.mem_getOrigins_internalAddOrigin.mp ho with ⟨rfl, rfl⟩ | hold
      · exact Or.inr (hadded t o regTypeVal rfl)
      · exact Or.inl hold
    · exact Or.inl (Bindings.mem_getOrigins_removeFrom.mp ho).1
    · have hrest := (Bindings.mem_getOrigins_internalRemove.mp ho).1
      exact Or.inl (Bindings.mem_getOrigins_removeFrom.mp hrest).1
    · exact Or.inl (Bindings.mem_getOrigins_internalRemove.mp ho).1
  · intro t rsp hrsp
    left
    rcases call with ⟨targetId, origin, regTypeVal⟩ | ⟨origin, regTypeVal, targetId, _ | _⟩ |
      ⟨targetId, regTypeVal⟩
    · exact (Bindings.getLastResponse_internalAddOrigin ..).symm.trans hrsp
    · exact (Bindings.getLastResponse_removeFrom ..).symm.trans hrsp
    · simp only [GroupCallPersist.applied, if_true, Bindings.getLastResponse_internalRemove,
        Bindings.getLastResponse_removeFrom] at hrsp
      split at hrsp
      · cases hrsp
      · exact hrsp
    · simp only [GroupCallPersist.applied, Bindings.getLastResponse_internalRemove] at hrsp
      split at hrsp
      · cases hrsp
      · exact hrsp

/-- A persist handler that is explained by the calls forwarded so far keeps it so that every origin
in the registries stands for one of them. -/
theorem OriginInv.applied {s : ResponderState} {forwarded : List ForwardedCall}
    (h : OriginInv s forwarded) {call : PersistCall} (hcall : call.ExplainedBy forwarded) :
    OriginInv (call.applied s) forwarded := by
  rcases call with (⟨method, origin, path, tgtId⟩ | record) | event | _ | call
  · -- an added call is explained by the request it comes from, all others were there before
    obtain ⟨horigin, hpath⟩ := hcall
    refine ⟨?_, ?_, h.origins, h.last⟩
    · intro t record o hrecord ho
      simp only [PersistCall.applied, RidRegistry.handle,
        RidRegistry.callsByTargetId_addLookup] at hrecord
      split at hrecord
      case isTrue ht =>
        cases hrecord
        exact ht ▸ horigin o ho
      case isFalse => exact h.records t record o hrecord ho
    · intro p record hrecord
      simp only [PersistCall.applied, RidRegistry.handle,
        RidRegistry.callsByPath_addLookup] at hrecord
      split at hrecord
      case isTrue hp =>
        cases hrecord
        exact hpath p hp
      case isFalse => exact h.lists p record hrecord
  · refine ⟨?_, ?_, h.origins, h.last⟩
    · -- removing a call leaves fewer calls to explain
      intro t found o hfound
      simp only [PersistCall.applied, RidRegistry.handle,
        RidRegistry.callsByTargetId_internalRemoveLookup] at hfound
      split at hfound
      · cases hfound
      · exact h.records t found o hfound
    · intro p found hfound
      simp only [PersistCall.applied, RidRegistry.handle,
        RidRegistry.callsByPath_internalRemoveLookup] at hfound
      split at hfound
      · cases hfound
      · exact h.lists p found hfound
  · -- SIDs and attributes explain no relay
    exact ⟨h.records, h.lists, h.origins, h.last⟩
  · exact ⟨h.records, h.lists, h.origins, h.last⟩
  · -- only the origins of LIST calls are explained; those of subscriptions are addressed by SID
    have hgroup : ∀ regTypeVal, call.regTypeVal = regTypeVal → regTypeVal ≠ .subs →
        OriginInv { s with listRegistry := call.applied s.listRegistry } forwarded := by
      intro regTypeVal hreg hlist
      apply h.appliedGroup
      rintro targetId origin added rfl
      cases hreg
      cases added
      · exact hcall
      · exact absurd rfl hlist
      · exact hcall
    simp only [PersistCall.applied]
    cases hreg : call.regTypeVal with
    | subs => exact ⟨h.records, h.lists, h.origins, h.last⟩
    | list => exact hgroup .list hreg (by decide)
    | default => exact hgroup .default hreg (by decide)

/-- The last response of a LIST call goes to an origin of the call. -/
theorem OriginInv.explained {s : ResponderState} {forwarded : List ForwardedCall}
    (h : OriginInv s forwarded) {call : PersistCall} (hcall : call.ExplainedBy forwarded) :
    ∀ relay ∈ relaysOfHandler s call, Explained forwarded relay := by
  intro relay hrelay
  have hlast : ∀ targetId origin, Originates forwarded targetId origin →
      relay ∈ (s.listRegistry.getLastResponse targetId).toList.map (fun rsp =>
        (⟨rsp.rid, origin.source, { rsp with rid := origin.sourceId }⟩ : Relay)) →
      Explained forwarded relay := by
    intro targetId origin horiginates hmem
    obtain ⟨rsp, hrsp, rfl⟩ := List.mem_map.mp hmem
    obtain ⟨fwd, hfwd, htarget, horigin⟩ := horiginates
    have hrid := h.last targetId rsp (Option.mem_toList.mp hrsp)
    exact ⟨fwd, hfwd, htarget.trans hrid.symm, horigin⟩
  rcases call with event | event | _ | ⟨targetId, origin, _ | _ | _⟩ | _ | _
  case group.addOrigin.list => exact hlast targetId origin hcall hrelay
  case group.addOrigin.default => exact hlast targetId origin hcall hrelay
  all_goals cases hrelay

/-- **Handlers whose calls are explained relay to originators only, and keep the invariant.** -/
theorem OriginInv.performed {s : ResponderState} {forwarded : List ForwardedCall}
    (h : OriginInv s forwarded) {calls : List PersistCall}
    (hcalls : ∀ call ∈ calls, call.ExplainedBy forwarded) :
    OriginInv (s.performed calls) forwarded ∧
      ∀ relay ∈ relaysOfHandlers s calls, Explained forwarded relay := by
  induction calls generalizing s with
  | nil =>
    refine ⟨h, ?_⟩
    intro relay hrelay
    cases hrelay
  | cons call rest ih =>
    rw [List.forall_mem_cons] at hcalls
    obtain ⟨hcall, hrest⟩ := hcalls
    obtain ⟨hafter, hrelays⟩ := ih (h.applied hcall) hrest
    refine ⟨hafter, ?_⟩
    intro relay hrelay
    rcases List.mem_append.mp hrelay with hfirst | hlater
    · exact h.explained hcall relay hfirst
    · exact hrelays relay hlater

/-! ### Requests -/

theorem IssuedInv.advance {s : ResponderState} {forwarded : List ForwardedCall} {issued : Nat}
    (h : IssuedInv s forwarded issued) {issues : Bool × Bool}
    (hwraps : issued + (if issues.1 then 1 else 0) < 2147483647) :
    (s.advance issues).ridRegistry.nextTargetId
      = ⟨1, (issued + (if issues.1 then 1 else 0) : Nat) + 1⟩ := by
  have hcounter := h.counter
  obtain ⟨issuesRid, issuesSid⟩ := issues
  cases issuesRid
  · cases issuesSid <;> exact hcounter
  · have hinc : s.ridRegistry.nextTargetId.inc.2 = ⟨1, (issued + 1 : Nat) + 1⟩ := by
      rw [hcounter, IntCounter.inc]
      simp only [if_true] at hwraps
      have hvalue : ((issued : Int) + 1) ≠ maxInt := by
        simp only [maxInt]
        omega
      simp only [if_neg hvalue]
      rfl
    cases issuesSid <;> exact hinc

theorem OneCallEach.append {forwarded : List ForwardedCall} (h : OneCallEach forwarded)
    {call : ForwardedCall}
    (hcall : ∀ old ∈ forwarded, old.targetId = call.targetId → old.SameCall call) :
    OneCallEach (forwarded ++ [call]) := by
  intro first hfirst second hsecond heq
  rcases List.mem_append.mp hfirst with hfirstOld | hfirstNew
  · rcases List.mem_append.mp hsecond with hsecondOld | hsecondNew
    · exact h first hfirstOld second hsecondOld heq
    · rw [List.mem_singleton.mp hsecondNew] at heq ⊢
      exact hcall first hfirstOld heq.symm
  · rw [List.mem_singleton.mp hfirstNew] at heq ⊢
    rcases List.mem_append.mp hsecond with hsecondOld | hsecondNew
    · rcases hcall second hsecondOld heq with hsame | ⟨path, hsecondPath, hcallPath⟩
      · exact Or.inl hsame.symm
      · exact Or.inr ⟨path, hcallPath, hsecondPath⟩
    · exact Or.inl (List.mem_singleton.mp hsecondNew).symm

theorem IssuedInv.nextRid {s : ResponderState} {forwarded : List ForwardedCall} {issued : Nat}
    (h : IssuedInv s forwarded issued) : s.nextRid = issued + 1 :=
  congrArg IntCounter.value h.counter

/-- The target RID that is issued next has not been issued before. -/
theorem IssuedInv.fresh {s : ResponderState} {forwarded : List ForwardedCall} {issued : Nat}
    (h : IssuedInv s forwarded issued) : ∀ call ∈ forwarded, call.targetId ≠ s.nextRid := by
  intro call hcall heq
  have hle := h.issuedIds call hcall
  have hnext := h.nextRid
  omega

/-- The call that a request hands on has a target RID of its own, or the one of the LISTs of its
path; and the counter counts the target RIDs issued, unless it wraps. -/
theorem IssuedInv.take [ScanOrder Int] {link : Link} {sender : Routee} {t : EnvelopeTurn}
    {request : DSARequest} {forwarded : List ForwardedCall} {issued : Nat}
    (h : IssuedInv t.present forwarded issued)
    (hlists : ∀ path record, t.present.ridRegistry.callsByPath path = some record →
      Lists forwarded record.targetId path)
    (hwraps : issued + (if (t.action link sender request).issues.1 then 1 else 0)
      < 2147483647) :
    IssuedInv (t.take link sender request).present
      (forwarded ++ t.calls link sender request)
      (issued + if (t.action link sender request).issues.1 then 1 else 0) := by
  have hbehalf : (t.action link sender request).OnBehalf t.present sender request :=
    requestAction_onBehalf ..
  have hpresent : (t.take link sender request).present
      = t.present.advance (t.action link sender request).issues := rfl
  have hcalls := t.calls_eq link sender request
  generalize t.action link sender request = a at hbehalf hpresent hcalls hwraps ⊢
  have hcounter := h.advance hwraps
  rw [hpresent, hcalls]
  rcases Action.target_cases hbehalf t.present.nextRid with
    ⟨htarget, hissues⟩ | ⟨path, record, hrequest, hpath, htarget, hissues⟩ | ⟨htarget, hissues⟩
  · -- a new target RID has not been issued, so it can clash with none
    refine ⟨hcounter, ?_, ?_⟩
    · have hnext := h.nextRid
      intro call hcall
      rw [htarget, Option.toList_some, List.map_singleton, List.mem_append] at hcall
      rw [if_pos hissues]
      rcases hcall with hold | hnew
      · have hle := h.issuedIds call hold
        omega
      · rw [List.mem_singleton.mp hnew]
        show t.present.nextRid ≤ _
        omega
    · rw [htarget]
      apply h.oneCallEach.append
      intro old hold heq
      exact absurd heq (h.fresh old hold)
  · -- a further LIST of a path goes under the RID of the call, all requests under it list this path
    obtain ⟨⟨known, hknown, hknownTarget⟩, hall⟩ := hlists path record hpath
    refine ⟨hcounter, ?_, ?_⟩
    · intro call hcall
      rw [htarget, Option.toList_some, List.map_singleton, List.mem_append] at hcall
      simp only [hissues, Bool.false_eq_true, if_false, Nat.add_zero]
      rcases hcall with hold | hnew
      · exact h.issuedIds call hold
      · rw [List.mem_singleton.mp hnew]
        exact hknownTarget ▸ h.issuedIds known hknown
    · rw [htarget]
      apply h.oneCallEach.append
      intro old hold heq
      exact Or.inr ⟨path, hall old hold heq, hrequest⟩
  · -- nothing is handed on
    rw [htarget, Option.toList_none, List.map_nil, List.append_nil]
    refine ⟨hcounter, ?_, h.oneCallEach⟩
    simp only [hissues, Bool.false_eq_true, if_false, Nat.add_zero]
    exact h.issuedIds

/-- The effects of a request are explained by the calls forwarded, its own among them. -/
theorem Action.explained [ScanOrder Int] {a : Action} {present : ResponderState}
    {sender : Routee} {request : DSARequest} (hbehalf : a.OnBehalf present sender request)
    {forwarded : List ForwardedCall} {rid sid : Int}
    (hown : ∀ targetId, a.target rid = some targetId →
      Originates forwarded targetId ⟨sender, request.rid⟩)
    (hlist : a.issues.1 = true → ∀ path, request = .list request.rid path →
      Lists forwarded rid path) :
    ∀ call ∈ a.effects rid sid, call.ExplainedBy forwarded := by
  intro call hcall
  cases a with
  | nothing => cases hcall
  | answer srcRid => cases hcall
  | closeCall targetId => cases hcall
  | saveAttribute srcRid nodePath name value =>
    rw [List.mem_singleton.mp hcall]
    exact trivial
  | passthrough method origin forward =>
    obtain ⟨rfl, _⟩ := hbehalf
    rw [List.mem_singleton.mp hcall]
    -- a record that is saved for a call is that of the request, under the RID just issued
    refine ⟨?_, nofun⟩
    rintro o ⟨⟩
    exact hown rid rfl
  | listNew path origin tgtPath =>
    obtain ⟨rfl, hrequest⟩ := hbehalf
    rcases List.mem_cons.mp hcall with rfl | hcall
    · refine ⟨nofun, ?_⟩
      rintro p ⟨⟩
      exact hlist rfl path hrequest
    · rw [List.mem_singleton.mp hcall]
      exact hown rid rfl
  | listKnown targetId origin tgtPath =>
    -- a LIST that joins is explained by its own call to the target RID that it found
    obtain ⟨rfl, _⟩ := hbehalf
    rw [List.mem_singleton.mp hcall]
    exact hown targetId rfl
  | subscribeNew ridOrigin sidOrigin srcPath tgtPath =>
    obtain ⟨rfl, _⟩ := hbehalf
    rcases List.mem_cons.mp hcall with rfl | hcall
    · refine ⟨?_, nofun⟩
      rintro o ⟨⟩
      exact hown rid rfl
    · rcases List.mem_cons.mp hcall with rfl | hcall
      · exact trivial
      · rw [List.mem_singleton.mp hcall]
        exact trivial
  | subscribeKnown tgtSid sidOrigin srcPath tgtPath =>
    rw [List.mem_singleton.mp hcall]
    exact trivial
  | unsubscribeLast ridOrigin sidOrigin targetSid =>
    obtain ⟨rfl, _⟩ := hbehalf
    rcases List.mem_cons.mp hcall with rfl | hcall
    · exact trivial
    · rcases List.mem_cons.mp hcall with rfl | hcall
      · exact trivial
      · -- the last UNSUBSCRIBE saves a record of its own besides the two removals
        rw [List.mem_singleton.mp hcall]
        refine ⟨?_, nofun⟩
        rintro o ⟨⟩
        exact hown rid rfl
  | unsubscribeOther srcRid sidOrigin targetSid =>
    rw [List.mem_singleton.mp hcall]
    exact trivial
  | closeListLast origin targetId record =>
    rcases List.mem_cons.mp hcall with rfl | hcall
    · exact trivial
    · cases record with
      | none => cases hcall
      | some record =>
        rw [List.mem_singleton.mp hcall]
        exact trivial
  | closeListOther origin targetId =>
    rw [List.mem_singleton.mp hcall]
    exact trivial

/-! ### Envelopes -/

theorem OriginInv.advance {s : ResponderState} {forwarded : List ForwardedCall}
    (h : OriginInv s forwarded) (issues : Bool × Bool) :
    OriginInv (s.advance issues) forwarded := by
  obtain ⟨issuesRid, issuesSid⟩ := issues
  cases issuesRid <;> cases issuesSid <;> exact ⟨h.records, h.lists, h.origins, h.last⟩

/-- Calls that come later do not spoil what the registries know. -/
theorem OriginInv.mono {s : ResponderState} {forwarded later : List ForwardedCall}
    (h : OriginInv s forwarded)
    (hlists : ∀ targetId path, Lists forwarded targetId path →
      Lists (forwarded ++ later) targetId path) :
    OriginInv s (forwarded ++ later) where
  records t record origin hrecord horigin := (h.records t record origin hrecord horigin).mono
  lists path record hrecord := hlists _ _ (h.lists path record hrecord)
  origins t origin horigin := (h.origins t origin horigin).mono
  last := h.last

section

variable [ScanOrder Int] {link : Link} {sender : Routee}

/-- A LIST call stays a LIST call of its path. -/
theorem RelayTurn.lists_calls {t : EnvelopeTurn} {forwarded : List ForwardedCall} {issued : Nat}
    (h : RelayTurn t forwarded issued) (request : DSARequest) {targetId : Int} {path : Str}
    (hlists : Lists forwarded targetId path) :
    Lists (forwarded ++ t.calls link sender request) targetId path := by
  apply hlists.append
  intro call hcall htarget
  rw [t.calls_eq link sender request] at hcall
  obtain ⟨target, haction, rfl⟩ := List.mem_map.mp hcall
  have haction := Option.mem_toList.mp haction
  have htarget : target = targetId := htarget
  subst htarget
  have hbehalf : (t.action link sender request).OnBehalf t.present sender request :=
    requestAction_onBehalf ..
  rcases Action.target_cases hbehalf t.present.nextRid with
    ⟨hnew, _⟩ | ⟨listed, record, hrequest, hrecord, hknown, _⟩ | ⟨hnone, _⟩
  · -- a fresh target RID is not the one of an earlier LIST
    have heq : target = t.present.nextRid := Option.some.inj (haction.symm.trans hnew)
    obtain ⟨⟨old, hold, htarget⟩, _⟩ := hlists
    exact absurd (htarget.trans heq) (h.issuedInv.fresh old hold)
  · -- a known one belongs to one path only, and the request lists it
    have heq : target = record.targetId := Option.some.inj (haction.symm.trans hknown)
    have hpath : path = listed := (heq ▸ hlists).path_eq (h.present listed record hrecord)
    rw [hpath]
    exact hrequest
  · cases haction.symm.trans hnone

/-- **A request keeps what the registries know of the calls.** It hands on one call at most, under a
target RID that is new or belongs to LISTs of the same path; so every origin that is saved under it
is explained by a call that was forwarded. -/
theorem RelayTurn.take {t : EnvelopeTurn} {forwarded : List ForwardedCall} {issued : Nat}
    (h : RelayTurn t forwarded issued) (request : DSARequest)
    (hwraps : issued + (if (t.action link sender request).issues.1 then 1 else 0)
      < 2147483647) :
    RelayTurn (t.take link sender request) (forwarded ++ t.calls link sender request)
      (issued + if (t.action link sender request).issues.1 then 1 else 0) := by
  have hbehalf : (t.action link sender request).OnBehalf t.present sender request :=
    requestAction_onBehalf ..
  have hlists : ∀ targetId path, Lists forwarded targetId path →
      Lists (forwarded ++ t.calls link sender request) targetId path :=
    fun _ _ => h.lists_calls request
  have hsettled : OriginInv (t.settled.advance (t.action link sender request).issues)
      (forwarded ++ t.calls link sender request) := (h.settled.mono hlists).advance _
  -- what the action hands on is among the calls of the envelope
  have hcall : ∀ targetId,
      (t.action link sender request).target t.present.nextRid = some targetId →
      ⟨targetId, sender, request⟩ ∈ forwarded ++ t.calls link sender request := by
    intro targetId htarget
    rw [t.calls_eq link sender request, htarget]
    exact List.mem_append_right _ (List.mem_singleton.mpr rfl)
  have heffects : ∀ call ∈
      (t.action link sender request).effects t.present.nextRid t.present.nextSid,
      call.ExplainedBy (forwarded ++ t.calls link sender request) := by
    apply Action.explained hbehalf
    · intro targetId htarget
      exact ⟨_, hcall targetId htarget, rfl, rfl⟩
    · -- a LIST that issues a RID is the only request under it
      intro hissues path hrequest
      have htarget : (t.action link sender request).target t.present.nextRid
          = some t.present.nextRid := by
        rcases Action.target_cases hbehalf t.present.nextRid with
          ⟨htarget, _⟩ | ⟨_, _, _, _, _, hnone⟩ | ⟨_, hnone⟩
        · exact htarget
        · cases hissues.symm.trans hnone
        · cases hissues.symm.trans hnone
      refine ⟨⟨_, hcall _ htarget, rfl⟩, ?_⟩
      intro call hmem hsame
      rcases List.mem_append.mp hmem with hold | hnew
      · exact absurd hsame (h.issuedInv.fresh call hold)
      · rw [t.calls_eq link sender request, htarget] at hnew
        rw [List.mem_singleton.mp hnew]
        exact hrequest
  obtain ⟨hafter, hrelays⟩ := hsettled.performed heffects
  refine ⟨h.issuedInv.take h.present hwraps, ?_, ?_, ?_⟩
  · intro path record hrecord
    have hpresent : t.present.ridRegistry.callsByPath path = some record := by
      have hadvance : (t.present.advance
          (t.action link sender request).issues).ridRegistry.callsByPath path = some record :=
        hrecord
      rw [← hadvance, callsByPath_advance]
    exact hlists _ _ (h.present path record hpresent)
  · rw [EnvelopeTurn.settled_take]
    exact hafter
  · -- persisted handlers relay the last response to whoever joins a LIST, see `Action.explained`
    intro relay hrelay
    have htake : relaysOfHandlers (t.take link sender request).present
        (t.take link sender request).pending =
      relaysOfHandlers (t.present.advance (t.action link sender request).issues)
        (t.pending ++
          (t.action link sender request).effects t.present.nextRid t.present.nextSid) := rfl
    rw [htake, relaysOfHandlers_append, relaysOfHandlers_advance, performed_advance] at hrelay
    rcases List.mem_append.mp hrelay with hold | hnew
    · exact (h.relays relay hold).mono
    · exact hrelays relay hnew

/-- An envelope keeps what the registries know of the calls, if the counter does not wrap. -/
theorem RelayTurn.envelope {s : ResponderState} {forwarded : List ForwardedCall} {issued : Nat}
    (hissued : IssuedInv s forwarded issued) (horigins : OriginInv s forwarded)
    (requests : List DSARequest)
    (hwraps : issued + ridsIssued link sender { present := s } requests < 2147483647) :
    RelayTurn (envelopeTurn link sender s requests)
      (forwarded ++ forwardedCalls link sender s requests)
      (issued + ridsIssued link sender { present := s } requests) := by
  have hstep : ∀ (t : EnvelopeTurn) (calls : List ForwardedCall) (n : Nat)
      (request : DSARequest), (n < 2147483647 → RelayTurn t calls n) → AnyStep t request →
      n + (if (t.action link sender request).issues.1 then 1 else 0) < 2147483647 →
      RelayTurn (t.take link sender request) (calls ++ t.calls link sender request)
        (n + if (t.action link sender request).issues.1 then 1 else 0) := by
    intro t calls n request ht _ hn
    exact (ht (by omega)).take request hn
  refine envelope_calls_invariant issued hstep (fun _ => ?_) Along.anyStep hwraps
  refine ⟨hissued, horigins.lists, horigins, ?_⟩
  intro relay hrelay
  cases hrelay

end

/-! ### Response messages -/

/-- A response keeps what the registries know of the calls, and is relayed to originators
only. -/
theorem OriginInv.responds {link : Link} {p p' : Processing} {forwarded : List ForwardedCall}
    {rsp : DSAResponse} {results : List (Routee × DSAResponse)} (h : OriginInv p.state forwarded)
    (hrun : (responseHandler link rsp).run p = (.ok results, p')) :
    OriginInv p'.state forwarded ∧
      ∀ relay ∈ relaysOfResponse link rsp p, Explained forwarded relay := by
  -- rows of subscriptions go by SID and are no relays; of the other responses each copy sent is one
  have hrelays : rsp.rid ≠ 0 → ∀ relay ∈ relaysOfResponse link rsp p, ∃ sent,
      sent ∈ (p'.sent.drop p.sent.length).flatMap Delivery.each ++ results ∧
        relay = ⟨rsp.rid, sent.1, sent.2⟩ := by
    intro hrid relay hrelay
    simp only [relaysOfResponse, if_neg hrid, hrun] at hrelay
    obtain ⟨sent, hsent, rfl⟩ := List.mem_map.mp hrelay
    exact ⟨sent, hsent, rfl⟩
  cases responds_of_run hrun with
  | subscribe hrid hdelivered =>
    refine ⟨⟨h.records, h.lists, h.origins, h.last⟩, ?_⟩
    intro relay hrelay
    rw [relaysOfResponse, if_pos hrid] at hrelay
    cases hrelay
  | @list record path oldUpdates delivered hrid hrecord hlist hrows hdelivered =>
    subst hdelivered
    refine ⟨h.setList ?_ ?_, ?_⟩
    · -- the answered record keeps its origins
      intro targetId origin horigin
      left
      rwa [Bindings.deliverListResponse, Bindings.getOrigins_put_setLastResponse] at horigin
    · -- the response becomes the last one of its own target RID
      intro targetId last hlast
      simp only [Bindings.deliverListResponse, Bindings.getLastResponse_put_setLastResponse]
        at hlast
      split at hlast
      case isTrue ht =>
        cases hlast
        exact Or.inr ht.symm
      case isFalse => exact Or.inl hlast
    · -- it is relayed to the origins of the record, who have a LIST under this RID
      intro relay hrelay
      obtain ⟨sent, hsent, rfl⟩ := hrelays hrid relay hrelay
      rw [List.drop_left, List.append_nil, flatMap_each_alone] at hsent
      obtain ⟨origin, horigin, rfl⟩ := List.mem_map.mp hsent
      rw [GroupCallRecord.origins_setLastResponse, Bindings.origins_getOrInsert] at horigin
      exact h.origins rsp.rid origin horigin
  | @call record origin hrid hrecord hcall horigin =>
    refine ⟨h, ?_⟩
    intro relay hrelay
    obtain ⟨sent, hsent, rfl⟩ := hrelays hrid relay hrelay
    rw [List.drop_length, List.flatMap_nil, List.nil_append] at hsent
    rw [List.mem_singleton.mp hsent]
    exact h.records rsp.rid record origin hrecord horigin
  | unknown hrid hnone =>
    refine ⟨h, ?_⟩
    intro relay hrelay
    obtain ⟨sent, hsent, rfl⟩ := hrelays hrid relay hrelay
    rw [List.drop_length] at hsent
    cases hsent

theorem OriginInv.processed {link : Link} {p p' : Processing} {forwarded : List ForwardedCall}
    {responses : List DSAResponse} {results : List (Routee × DSAResponse)}
    (h : OriginInv p.state forwarded)
    (hrun : (processResponses link responses).run p = (.ok results, p')) :
    OriginInv p'.state forwarded ∧
      ∀ relay ∈ relaysOfResponses link p responses, Explained forwarded relay := by
  induction responses generalizing p results with
  | nil =>
    cases hrun
    refine ⟨h, ?_⟩
    intro relay hrelay
    cases hrelay
  | cons rsp rest ih =>
    obtain ⟨first, p₁, later, hfirst, hlater, rfl⟩ := processResponses_cons hrun
    obtain ⟨hnext, hrelays⟩ := h.responds hfirst
    obtain ⟨hafter, hrelaysLater⟩ := ih hnext hlater
    refine ⟨hafter, ?_⟩
    intro relay hrelay
    rw [relaysOfResponses, hfirst] at hrelay
    rcases List.mem_append.mp hrelay with hmem | hmem
    · exact hrelays relay hmem
    · exact hrelaysLater relay hmem

/-! ### Runs -/

/-- What every state of a run satisfies, as long as the counter does not wrap. -/
structure RelayInv (run : RelayRun) : Prop where
  issued : IssuedInv run.state run.forwarded run.issued
  origins : OriginInv run.state run.forwarded
  explained : ∀ relay ∈ run.relays, Explained run.forwarded relay

def RelayRun.Accounted (run : RelayRun) : Prop := run.issued < 2147483647 → RelayInv run

theorem RelayInv.initial : RelayInv .initial := by
  refine ⟨⟨rfl, ?_, ?_⟩, ⟨?_, ?_, ?_, ?_⟩, ?_⟩
  · intro call hcall
    cases hcall
  · intro call hcall
    cases hcall
  · intro targetId record origin hrecord
    cases hrecord
  · intro path record hrecord
    cases hrecord
  · intro targetId origin horigin
    cases horigin
  · intro targetId rsp hrsp
    cases hrsp
  · intro relay hrelay
    cases hrelay

section

variable [ScanOrder Int] {link : Link}

/-- **One message of a run** keeps it that calls, origins and relays explain each other, as long as
the counter has not wrapped after it. -/
theorem RelayInv.receive {run run' : RelayRun} (h : RelayInv run) {msg : ResponderMessage}
    (hreceive : run.receive link msg = some run') (hwraps : run'.issued < 2147483647) :
    RelayInv run' := by
  obtain ⟨outcome, houtcome, rfl⟩ := Option.map_eq_some_iff.mp hreceive
  cases msg with
  | requestEnvelope sender requests =>
    have hturn := RelayTurn.envelope h.issued h.origins requests hwraps
    obtain ⟨_, hfold⟩ := processRequests_eq link sender requests { state := run.state } [] []
    have hlast : envelopeTurn link sender run.state requests = _ := hfold
    have hstate := receive_requestEnvelope_state houtcome
    refine ⟨?_, ?_, ?_⟩
    · refine ⟨?_, hturn.issuedInv.issuedIds, hturn.issuedInv.oneCallEach⟩
      simp only [hstate, EnvelopeTurn.settled, performed_nextTargetId]
      exact hturn.issuedInv.counter
    · simp only [hstate]
      exact hturn.settled
    · intro relay hrelay
      rcases List.mem_append.mp hrelay with hold | hnew
      · exact (h.explained relay hold).mono
      · apply hturn.relays relay
        rw [hlast]
        exact hnew
  | responseMessage responses =>
    simp only [DsaBroker.receive] at houtcome
    split at houtcome
    case h_1 results p hrun =>
      obtain ⟨r, hr, rfl⟩ := Option.map_eq_some_iff.mp houtcome
      obtain ⟨hprocessed, hrelays⟩ := OriginInv.processed h.origins hrun
      have hremovals := isRemoval_of_processResponses hrun
      obtain ⟨hafter, _⟩ := hprocessed.performed
        (fun call hcall => explainedBy_of_isRemoval (hremovals call hcall))
      -- removals need no explanation, and they are all that responses persist
      rw [← performed_of_runHandlers hr] at hafter
      refine ⟨⟨?_, h.issued.issuedIds, h.issued.oneCallEach⟩, hafter, ?_⟩
      · have hcounter : r.1.ridRegistry.nextTargetId = run.state.ridRegistry.nextTargetId := by
          rw [performed_of_runHandlers hr, performed_nextTargetId,
            ridRegistry_of_processResponses hrun]
        exact hcounter.trans h.issued.counter
      · intro relay hrelay
        rcases List.mem_append.mp hrelay with hold | hnew
        · exact h.explained relay hold
        · exact hrelays relay hnew
    case h_2 => cases houtcome

end

/-- **No misdelivery.**  In every run that issues fewer than 2^31 - 1 target RIDs, a response
that is relayed to a requester answers a target RID under which a request of this requester
with the response's rid was forwarded; and all requests forwarded under this target RID are
this one, or LISTs of its path.  Whatever else is sent is the broker's own answer to the sender
of a request, or an update for a subscriber. -/
theorem relays_reach_originators [ScanOrder Int] {link : Link} {run : RelayRun}
    (h : Reachable (RelayRun.receive link) AnyStep .initial run)
    (hissued : run.issued < 2147483647) :
    (∀ relay ∈ run.relays, ∃ call ∈ run.forwarded, call.targetId = relay.targetId ∧
        call.origin = ⟨relay.target, relay.response.rid⟩ ∧
        ∀ other ∈ run.forwarded, other.targetId = relay.targetId → call.SameCall other) ∧
      ∀ msg outcome, receive link run.state msg = some outcome →
        ∀ sent ∈ outcome.sent.flatMap Delivery.each,
          msg.Answers sent ∨ SubscriptionUpdate sent ∨
            AmongRelays (relays link run.state msg) sent := by
  have hinv : run.Accounted := by
    apply h.invariant (fun _ => RelayInv.initial)
    intro run msg run' hrun _ hreceive hwraps
    have hgrows : run.issued ≤ run'.issued := by
      obtain ⟨outcome, _, rfl⟩ := Option.map_eq_some_iff.mp hreceive
      cases msg with
      | requestEnvelope sender requests => exact Nat.le_add_right ..
      | responseMessage responses => exact Nat.le_refl _
    exact (hrun (by omega)).receive hreceive hwraps
  obtain ⟨hcounted, _, hexplained⟩ := hinv hissued
  refine ⟨?_, fun msg outcome => receive_sent⟩
  intro relay hrelay
  obtain ⟨call, hcall, htarget, horigin⟩ := hexplained relay hrelay
  refine ⟨call, hcall, htarget, horigin, ?_⟩
  intro other hother hsame
  exact hcounted.oneCallEach call hcall other hother (hsame.trans htarget.symm)

/-- Two requesters list a path, one before and one after the endpoint has responded. -/
theorem relays_reach_originators_two_lists :
    ∃ run : RelayRun, run.forwarded =
        [⟨1, requesterA, .list 101 blah⟩, ⟨1, requesterB, .list 5 blah⟩] ∧
      run.relays.map Relay.target = [requesterA, requesterB] ∧
      ∀ relay ∈ run.relays, ∃ call ∈ run.forwarded, call.targetId = relay.targetId ∧
        call.origin = ⟨relay.target, relay.response.rid⟩ ∧
        ∀ other ∈ run.forwarded, other.targetId = relay.targetId → call.SameCall other := by
  have hrun : ∃ run, Reachable (RelayRun.receive linkR) AnyStep .initial run ∧
      run.issued = 1 ∧ run.forwarded =
        [⟨1, requesterA, .list 101 blah⟩, ⟨1, requesterB, .list 5 blah⟩] ∧
      run.relays.map Relay.target = [requesterA, requesterB] :=
    ⟨_, .next (.requestEnvelope requesterB [.list 5 blah])
      (.next (.responseMessage [{ rid := 1, stream := some .opened }])
        (.next (.requestEnvelope requesterA [.list 101 blah]) .start trivial rfl)
        trivial rfl)
      trivial rfl, rfl, rfl, rfl⟩
  obtain ⟨run, hreached, hissued, hforwarded, htargets⟩ := hrun
  have hsmall : run.issued < 2147483647 := by
    rw [hissued]
    decide
  exact ⟨run, hforwarded, htargets, (relays_reach_originators hreached hsmall).1⟩

end DsaBroker
