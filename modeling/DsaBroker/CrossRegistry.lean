import DsaBroker.CallRecords

/-!
# Bindings and registered ids

The target ids that have a list binding are to be those of the registered LIST records, the
target SIDs that have a subscribe binding are to be those of the SID registry, and every
binding is to have an origin (`Consistent`).  `Bindings.Matches` says this of one table of
bindings and a set of ids; each operation on bindings changes the set in step.

What can break it: a request that works with a target id whose removal is pending, or that
takes the last but one origin while the removal of the last one is pending; a target id that is
issued while it is in use; and responses, which insert a binding for a SID that is not
registered and remove the binding of a stream they close, while the record stays.
`CrossCondition` excludes these.
-/

namespace DsaBroker

/-! ### Bindings that match a set of ids -/

/-- The bound target ids are the registered ones, and every binding has an origin. -/
structure Bindings.Matches (b : Bindings) (Registered : Int → Prop) : Prop where
  bound : ∀ t, b.Bound t ↔ Registered t
  origins : ∀ t, b.Bound t → ∃ o, o ∈ b.getOrigins t

namespace Bindings.Matches

variable {b : Bindings} {Registered Registered' : Int → Prop}

theorem congr (h : b.Matches Registered) (hsame : ∀ t, Registered t ↔ Registered' t) :
    b.Matches Registered' where
  bound t := (h.bound t).trans (hsame t)
  origins := h.origins

theorem addOrigin (h : b.Matches Registered) (targetId : Int) (origin : Origin) :
    (b.internalAddOrigin targetId origin).Matches fun t => t = targetId ∨ Registered t where
  bound t := by rw [bound_internalAddOrigin, h.bound]
  origins t ht := by
    rcases bound_internalAddOrigin.mp ht with rfl | hold
    · exact ⟨origin, mem_getOrigins_internalAddOrigin.mpr (Or.inl ⟨rfl, rfl⟩)⟩
    · obtain ⟨o, ho⟩ := h.origins t hold
      exact ⟨o, mem_getOrigins_internalAddOrigin.mpr (Or.inr ho)⟩

/-- An origin is added to a binding that is there. -/
theorem addKnown (h : b.Matches Registered) {targetId : Int} (hbound : b.Bound targetId)
    (origin : Origin) : (b.internalAddOrigin targetId origin).Matches Registered := by
  apply (h.addOrigin targetId origin).congr
  intro t
  constructor
  · rintro (rfl | ht)
    · exact (h.bound t).mp hbound
    · exact ht
  · exact Or.inr

theorem remove (h : b.Matches Registered) (targetId : Int) :
    (b.internalRemove targetId).Matches fun t => Registered t ∧ t ≠ targetId where
  bound t := by rw [bound_internalRemove, h.bound]
  origins t ht := by
    obtain ⟨hold, hne⟩ := bound_internalRemove.mp ht
    obtain ⟨o, ho⟩ := h.origins t hold
    exact ⟨o, mem_getOrigins_internalRemove.mpr ⟨ho, hne⟩⟩

/-- The last origin is removed together with its binding. -/
theorem removeLast (h : b.Matches Registered) (targetId : Int) (origin : Origin) :
    ((b.removeFrom targetId origin).internalRemove targetId).Matches
      fun t => Registered t ∧ t ≠ targetId where
  bound t := by rw [bound_internalRemove, bound_removeFrom, h.bound]
  origins t ht := by
    obtain ⟨hold, hne⟩ := bound_internalRemove.mp ht
    obtain ⟨o, ho⟩ := h.origins t (bound_removeFrom.mp hold)
    refine ⟨o, mem_getOrigins_internalRemove.mpr ⟨mem_getOrigins_removeFrom.mpr ⟨ho, ?_⟩, hne⟩⟩
    rintro ⟨rfl, _⟩
    exact hne rfl

/-- An origin is removed that is not the only one of its binding. -/
theorem removeOther (h : b.Matches Registered) {targetId : Int} {origin : Origin}
    (hother : b.Bound targetId → ∃ o ∈ b.getOrigins targetId, o ≠ origin) :
    (b.removeFrom targetId origin).Matches Registered where
  bound t := by rw [bound_removeFrom, h.bound]
  origins t ht := by
    have hold := bound_removeFrom.mp ht
    by_cases heq : t = targetId
    · subst heq
      obtain ⟨o, ho, hne⟩ := hother hold
      exact ⟨o, mem_getOrigins_removeFrom.mpr ⟨ho, fun hsame => hne hsame.2⟩⟩
    · obtain ⟨o, ho⟩ := h.origins t hold
      exact ⟨o, mem_getOrigins_removeFrom.mpr ⟨ho, fun hsame => heq hsame.1⟩⟩

end Bindings.Matches

/-! ### The two pairs of tables -/

def SidRegistry.Registered (r : SidRegistry) (targetSid : Int) : Prop :=
  ∃ path, r.pathBySid targetSid = some path

/-- **Cross-registry consistency.** -/
def ResponderState.Consistent (s : ResponderState) : Prop :=
  s.listRegistry.Matches s.ridRegistry.ListRegistered ∧
    s.subsRegistry.Matches s.sidRegistry.Registered

/-- The RID registry and the list bindings: just the LIST calls that are registered have bindings,
and each binding has a requester. -/
structure ListInv (r : RidRegistry) (b : Bindings) : Prop extends RidInv r where
  bindings : b.Matches r.ListRegistered

/-- The SID registry and the subscribe bindings: just the registered SIDs have bindings, each with a
subscriber, and a path leads to a SID that leads back to it. -/
structure SubsInv (r : SidRegistry) (b : Bindings) : Prop where
  bindings : b.Matches r.Registered
  bySid : ∀ path sid, r.sidByPath path = some sid → r.pathBySid sid = some path

namespace ListInv

variable {r : RidRegistry} {b : Bindings}

theorem not_listRegistered (h : ListInv r b) {rid : Int} (hfree : ¬ b.Bound rid) :
    ¬ r.ListRegistered rid := fun hlist => hfree ((h.bindings.bound rid).mpr hlist)

/-- A call other than LIST is registered under a target RID that has no list binding. -/
theorem saved (h : ListInv r b) {rid : Int} (hfree : ¬ b.Bound rid) (method : DSAMethod)
    (hmethod : method ≠ .list) (origin : Option Origin) :
    ListInv (r.addLookup method origin none rid) b := by
  have hnot := h.not_listRegistered hfree
  refine ⟨h.toRidInv.addLookup hnot (by simp [hmethod]), h.bindings.congr ?_⟩
  intro t
  rw [RidRegistry.listRegistered_addLookup]
  by_cases ht : t = rid
  · subst ht
    simp only [hnot, if_true, hmethod]
  · simp only [ht, if_false]

/-- A LIST call is registered, and bound to its first origin. -/
theorem savedList (h : ListInv r b) {rid : Int} (hfree : ¬ b.Bound rid) (path : Str)
    (origin : Origin) :
    ListInv (r.addLookup .list none (some path) rid) (b.internalAddOrigin rid origin) := by
  refine ⟨h.toRidInv.addLookup (h.not_listRegistered hfree) (by simp), ?_⟩
  apply (h.bindings.addOrigin rid origin).congr
  intro t
  rw [RidRegistry.listRegistered_addLookup]
  by_cases ht : t = rid <;> simp [ht]

/-- A call is removed, if it is still the one registered under its target RID. -/
theorem removeCall (h : ListInv r b) {record : LookupRecord} {b' : Bindings}
    (hcurrent : ∀ found, r.callsByTargetId record.targetId = some found → found = record)
    (hbindings : b'.Matches fun t => r.ListRegistered t ∧ t ≠ record.targetId) :
    ListInv (r.internalRemoveLookup record) b' := by
  refine ⟨h.toRidInv.removeCall hcurrent, hbindings.congr ?_⟩
  intro t
  exact (RidRegistry.listRegistered_internalRemoveLookup r record t).symm

end ListInv

namespace SubsInv

variable {r : SidRegistry} {b : Bindings}

theorem registered_addLookup (path : Str) (sid t : Int) :
    (r.addLookup path sid).Registered t ↔ t = sid ∨ r.Registered t := by
  simp only [SidRegistry.Registered, SidRegistry.pathBySid_addLookup]
  by_cases ht : t = sid <;> simp [ht]

/-- A path gets a SID that is free, and the SID its first origin. -/
theorem saved (h : SubsInv r b) (path : Str) {sid : Int} (hfree : ¬ r.Registered sid)
    (origin : Origin) : SubsInv (r.addLookup path sid) (b.internalAddOrigin sid origin) := by
  constructor
  · exact (h.bindings.addOrigin sid origin).congr fun t => (registered_addLookup path sid t).symm
  · intro p t hp
    rw [SidRegistry.sidByPath_addLookup] at hp
    rw [SidRegistry.pathBySid_addLookup]
    split at hp
    case isTrue heq =>
      cases hp
      rw [if_pos rfl, heq]
    case isFalse =>
      have hpath := h.bySid p t hp
      rw [if_neg ?_]
      · exact hpath
      · rintro rfl
        exact hfree ⟨p, hpath⟩

/-- A SID and its binding are removed; the handler throws if the SID is not registered, and
then there is nothing to remove. -/
theorem removed (h : SubsInv r b) (sid : Int) (origin : Origin) :
    SubsInv ((r.internalRemoveLookup sid).getD r)
      ((b.removeFrom sid origin).internalRemove sid) := by
  have hbindings := h.bindings.removeLast sid origin
  cases hremove : r.internalRemoveLookup sid with
  | none =>
    have hunregistered : r.pathBySid sid = none := Option.map_eq_none_iff.mp hremove
    refine ⟨hbindings.congr ?_, h.bySid⟩
    intro t
    constructor
    · exact And.left
    · rintro ⟨path, hpath⟩
      refine ⟨⟨path, hpath⟩, ?_⟩
      rintro rfl
      cases hunregistered.symm.trans hpath
  | some r' =>
    obtain ⟨path, hpath, _, hpathBySid, hsidByPath⟩ :=
      SidRegistry.internalRemoveLookup_eq_some hremove
    constructor
    · apply hbindings.congr
      intro t
      simp only [Option.getD_some, SidRegistry.Registered, hpathBySid]
      by_cases ht : t = sid <;> simp [ht]
    · intro p t hp
      simp only [Option.getD_some, hsidByPath] at hp
      simp only [Option.getD_some, hpathBySid]
      split at hp
      · cases hp
      case isFalse hne =>
        have hregistered := h.bySid p t hp
        rw [if_neg ?_]
        · exact hregistered
        · rintro rfl
          rw [hpath] at hregistered
          exact hne (Option.some.inj hregistered).symm

end SubsInv

/-! ### Requests -/

/-- A LIST joins a call that is still bound; a CLOSE that takes an origin for one of several
takes one of several. -/
def Action.KeepsList (settled : ResponderState) : Action → Prop
  | listKnown targetId .. => settled.listRegistry.Bound targetId
  | closeListOther origin targetId => settled.listRegistry.Bound targetId →
      ∃ o ∈ settled.listRegistry.getOrigins targetId, o ≠ origin
  | _ => True

/-- The same for SUBSCRIBE and UNSUBSCRIBE; and a SID that is issued is free. -/
def Action.KeepsSubs (settled : ResponderState) (sid : Int) : Action → Prop
  | subscribeNew .. => ¬ settled.sidRegistry.Registered sid
  | subscribeKnown tgtSid .. => settled.subsRegistry.Bound tgtSid
  | unsubscribeOther _ sidOrigin targetSid => settled.subsRegistry.Bound targetSid →
      ∃ o ∈ settled.subsRegistry.getOrigins targetSid, o ≠ sidOrigin
  | _ => True

/-- A request that keeps the bindings consistent, given the registries it sees and those with
everything pending performed; a RID that it issues has no list binding in either. -/
def CrossUndisturbed [ScanOrder Int] (link : Link) (sender : Routee) (t : EnvelopeTurn)
    (request : DSARequest) : Prop :=
  let a := t.action link sender request
  (a.issues.1 = true → ¬ t.present.listRegistry.Bound t.present.nextRid ∧
    ¬ t.settled.listRegistry.Bound t.present.nextRid) ∧
  a.KeepsList t.settled ∧ a.KeepsSubs t.settled t.present.nextSid

/-- The tables are consistent, as a request sees them and with everything pending performed;
and a pending handler may have removed the call of a list binding, but not replaced it. -/
structure CrossTurn (t : EnvelopeTurn) : Prop where
  presentList : ListInv t.present.ridRegistry t.present.listRegistry
  list : ListInv t.settled.ridRegistry t.settled.listRegistry
  subs : SubsInv t.settled.sidRegistry t.settled.subsRegistry
  current : ∀ targetId, t.present.listRegistry.Bound targetId → ∀ record,
    t.settled.ridRegistry.callsByTargetId targetId = some record →
    t.present.ridRegistry.callsByTargetId targetId = some record

theorem ListInv.advance {s : ResponderState} (h : ListInv s.ridRegistry s.listRegistry)
    (issues : Bool × Bool) :
    ListInv (s.advance issues).ridRegistry (s.advance issues).listRegistry := by
  obtain ⟨issuesRid, issuesSid⟩ := issues
  cases issuesRid <;> cases issuesSid <;> exact ⟨⟨h.targetIds, h.lists, h.byPath⟩, h.bindings⟩

theorem SubsInv.advance {s : ResponderState} (h : SubsInv s.sidRegistry s.subsRegistry)
    (issues : Bool × Bool) :
    SubsInv (s.advance issues).sidRegistry (s.advance issues).subsRegistry := by
  obtain ⟨issuesRid, issuesSid⟩ := issues
  cases issuesRid <;> cases issuesSid <;> exact ⟨h.bindings, h.bySid⟩

/-- The effects of an action keep LIST calls and list bindings matched when its target RID is free,
the calls it has found are the current ones, and a binding it joins or leaves is as it was found. -/
theorem ListInv.perform [ScanOrder Int] {present settled : ResponderState} {a : Action}
    (hpresent : ListInv present.ridRegistry present.listRegistry)
    (h : ListInv settled.ridRegistry settled.listRegistry)
    (hcurrent : ∀ targetId, present.listRegistry.Bound targetId → ∀ record,
      settled.ridRegistry.callsByTargetId targetId = some record →
      present.ridRegistry.callsByTargetId targetId = some record)
    (hfound : a.Found present) {rid sid : Int}
    (hfree : a.issues.1 = true → ¬ settled.listRegistry.Bound rid)
    (hkeeps : a.KeepsList settled) :
    ListInv (settled.performed (a.effects rid sid)).ridRegistry
      (settled.performed (a.effects rid sid)).listRegistry := by
  -- an added call needs a free RID, an origin that comes or goes its binding as it was found
  cases a with
  | nothing => exact h
  | answer srcRid => exact h
  | saveAttribute srcRid nodePath name value => exact h
  | passthrough method origin forward =>
    refine h.saved (hfree rfl) method ?_ _
    rcases hfound with rfl | rfl | rfl <;> exact nofun
  | listNew path origin tgtPath => exact h.savedList (hfree rfl) path origin
  | listKnown targetId origin tgtPath =>
    exact ⟨h.toRidInv, h.bindings.addKnown hkeeps origin⟩
  | subscribeNew ridOrigin sidOrigin srcPath tgtPath => exact h.saved (hfree rfl) .subscribe nofun _
  | subscribeKnown tgtSid sidOrigin srcPath tgtPath => exact h
  | unsubscribeLast ridOrigin sidOrigin targetSid => exact h.saved (hfree rfl) .unsubscribe nofun _
  | unsubscribeOther srcRid sidOrigin targetSid => exact h
  | closeCall targetId => exact h
  | closeListLast origin targetId record =>
    obtain ⟨hremoval, rfl⟩ := hfound
    obtain ⟨binding, hbinding, _⟩ := Bindings.removal_eq_some hremoval
    obtain ⟨record, hrecord, _⟩ := (hpresent.bindings.bound targetId).mp ⟨binding, hbinding⟩
    have htarget := hpresent.targetIds targetId record hrecord
    have hlookup : present.ridRegistry.lookupByTargetId targetId = some record := hrecord
    subst htarget
    rw [hlookup]
    refine h.removeCall ?_ (h.bindings.removeLast record.targetId origin)
    intro found hfound
    have hsame := hcurrent record.targetId ⟨binding, hbinding⟩ found hfound
    rw [hrecord] at hsame
    exact (Option.some.inj hsame).symm
  | closeListOther origin targetId =>
    exact ⟨h.toRidInv, h.bindings.removeOther hkeeps⟩

theorem SubsInv.perform {settled : ResponderState} {a : Action}
    (h : SubsInv settled.sidRegistry settled.subsRegistry) {rid sid : Int}
    (hkeeps : a.KeepsSubs settled sid) :
    SubsInv (settled.performed (a.effects rid sid)).sidRegistry
      (settled.performed (a.effects rid sid)).subsRegistry := by
  cases a with
  | nothing => exact h
  | answer srcRid => exact h
  | saveAttribute srcRid nodePath name value => exact h
  | passthrough method origin forward => exact h
  | listNew path origin tgtPath => exact h
  | listKnown targetId origin tgtPath => exact h
  | subscribeNew ridOrigin sidOrigin srcPath tgtPath =>
    exact h.saved srcPath.path hkeeps sidOrigin
  | subscribeKnown tgtSid sidOrigin srcPath tgtPath =>
    exact ⟨h.bindings.addKnown hkeeps sidOrigin, h.bySid⟩
  | unsubscribeLast ridOrigin sidOrigin targetSid => exact h.removed targetSid sidOrigin
  | unsubscribeOther srcRid sidOrigin targetSid =>
    exact ⟨h.bindings.removeOther hkeeps, h.bySid⟩
  | closeCall targetId => exact h
  | closeListLast origin targetId record => cases record <;> exact h
  | closeListOther origin targetId => exact h

/-- A request that is undisturbed at its turn keeps both pairs of registries matched, in the settled
state as in the present one. -/
theorem CrossTurn.take [ScanOrder Int] {link : Link} {sender : Routee} {t : EnvelopeTurn}
    (ht : CrossTurn t) {request : DSARequest}
    (hundisturbed : CrossUndisturbed link sender t request) :
    CrossTurn (t.take link sender request) := by
  have hfound : (t.action link sender request).Found t.present := requestAction_found ..
  have hpresent : (t.take link sender request).present
      = t.present.advance (t.action link sender request).issues := rfl
  have hsettled := t.settled_take link sender request
  obtain ⟨hfree, hkeepsList, hkeepsSubs⟩ := hundisturbed
  generalize t.action link sender request = a
    at hfound hpresent hsettled hfree hkeepsList hkeepsSubs
  constructor
  · rw [hpresent]
    exact ht.presentList.advance _
  · rw [hsettled]
    refine ListInv.perform ht.presentList (ht.list.advance _) ?_ hfound ?_ ?_
    · rw [callsByTargetId_advance]
      exact ht.current
    · rw [listRegistry_advance]
      exact fun hissues => (hfree hissues).2
    · cases a <;> exact hkeepsList
  · rw [hsettled]
    apply SubsInv.perform (ht.subs.advance _)
    cases a <;> exact hkeepsSubs
  · intro targetId hbound record hrecord
    rw [hpresent, listRegistry_advance] at hbound
    rw [hpresent, callsByTargetId_advance]
    rw [hsettled] at hrecord
    rcases callsByTargetId_performed hrecord with hold | ⟨_, _, _, hsaved⟩
    · rw [callsByTargetId_advance] at hold
      exact ht.current targetId hbound record hold
    · obtain ⟨rfl, hissues⟩ := Action.issues_of_saved hsaved
      exact absurd hbound (hfree hissues).1

/-! ### Responses -/

/-- A row of a SUBSCRIBE response is about the SID. -/
def DSAResponse.Names (rsp : DSAResponse) (sid : Int) : Prop :=
  rsp.rid = 0 ∧ ∃ row ∈ rsp.updates.getD [], extractSid row = some sid

/-- Responses that keep the bindings consistent: the stream of a registered LIST is not closed,
and of the SIDs that are named, just those that are not registered have their stream closed. -/
def ResponsesKeep (s : ResponderState) (responses : List DSAResponse) : Prop :=
  (∀ rsp ∈ responses, rsp.rid ≠ 0 → rsp.stream = some .closed →
    ¬ s.ridRegistry.ListRegistered rsp.rid) ∧
  ∀ rsp ∈ responses, ∀ sid, rsp.Names sid →
    ((∃ other ∈ responses, other.Names sid ∧ other.stream = some .closed) ↔
      ¬ s.sidRegistry.Registered sid)

/-- The removal of a call that is registered and no LIST, or of a subscribe binding. -/
def PersistCall.RemovesFrom (s : ResponderState) (call : PersistCall) : Prop :=
  (∃ sid, call = .group (.remove sid .subs)) ∨
    ∃ record, call = .rid (.removed record) ∧ record.method ≠ .list ∧
      s.ridRegistry.callsByTargetId record.targetId = some record

/-- The processing of a response message after some of its responses. -/
structure ResponsesInv (s : ResponderState) (handled : List DSAResponse) (p : Processing) :
    Prop where
  ridRegistry : p.state.ridRegistry = s.ridRegistry
  sidRegistry : p.state.sidRegistry = s.sidRegistry
  list : ListInv s.ridRegistry p.state.listRegistry
  subsBound : ∀ t, p.state.subsRegistry.Bound t ↔
    s.subsRegistry.Bound t ∨ ∃ rsp ∈ handled, rsp.Names t
  subsOrigins : ∀ t, p.state.subsRegistry.getOrigins t = s.subsRegistry.getOrigins t
  calls : ∀ call ∈ p.persisted, call.RemovesFrom s
  removed : ∀ t, PersistCall.group (.remove t .subs) ∈ p.persisted ↔
    ∃ rsp ∈ handled, rsp.Names t ∧ rsp.stream = some .closed

/-- A response is delivered to a LIST call that is bound. -/
theorem ListInv.deliver {r : RidRegistry} {b : Bindings} (h : ListInv r b) {rsp : DSAResponse}
    (hbound : b.Bound rsp.rid) : ListInv r (b.deliverListResponse rsp).bindings := by
  refine ⟨h.toRidInv, ⟨?_, ?_⟩⟩
  · intro t
    simp only [Bindings.deliverListResponse, Bindings.bound_put_setLastResponse]
    rw [← h.bindings.bound]
    constructor
    · rintro (rfl | ht)
      · exact hbound
      · exact ht
    · exact Or.inr
  · intro t ht
    simp only [Bindings.deliverListResponse, Bindings.bound_put_setLastResponse,
      Bindings.getOrigins_put_setLastResponse] at ht ⊢
    rcases ht with rfl | ht
    · exact h.bindings.origins _ hbound
    · exact h.bindings.origins t ht

theorem exists_mem_handled {handled : List DSAResponse} {rsp : DSAResponse}
    {P : DSAResponse → Prop} :
    (∃ other ∈ handled ++ [rsp], P other) ↔ (∃ other ∈ handled, P other) ∨ P rsp := by
  simp only [List.mem_append, List.mem_singleton, or_and_right, exists_or, exists_eq_left]

/-- A response that is no SUBSCRIBE response leaves the subscribe bindings alone. -/
theorem ResponsesInv.other {s : ResponderState} {handled : List DSAResponse}
    {p p' : Processing} {rsp : DSAResponse} (h : ResponsesInv s handled p) (hrid : rsp.rid ≠ 0)
    (hrids : p'.state.ridRegistry = p.state.ridRegistry)
    (hsids : p'.state.sidRegistry = p.state.sidRegistry)
    (hsubs : p'.state.subsRegistry = p.state.subsRegistry)
    (hlist : ListInv s.ridRegistry p'.state.listRegistry)
    (hcalls : ∀ call ∈ p'.persisted, call ∈ p.persisted ∨
      ∃ record, call = .rid (.removed record) ∧ record.method ≠ .list ∧
        s.ridRegistry.callsByTargetId record.targetId = some record)
    (hkept : ∀ call ∈ p.persisted, call ∈ p'.persisted) :
    ResponsesInv s (handled ++ [rsp]) p' := by
  refine ⟨hrids.trans h.ridRegistry, hsids.trans h.sidRegistry, hlist, ?_, ?_, ?_, ?_⟩
  · intro t
    have hnames : ¬ rsp.Names t := fun hnames => hrid hnames.1
    rw [hsubs, h.subsBound, exists_mem_handled, or_iff_left hnames]
  · intro t
    rw [hsubs]
    exact h.subsOrigins t
  · intro call hcall
    rcases hcalls call hcall with hold | hremoved
    · exact h.calls call hold
    · exact Or.inr hremoved
  · intro t
    rw [exists_mem_handled, ← h.removed t]
    constructor
    · intro hcall
      rcases hcalls _ hcall with hold | ⟨_, hcontra, _⟩
      · exact Or.inl hold
      · cases hcontra
    · rintro (hold | ⟨hnames, _⟩)
      · exact hkept _ hold
      · exact absurd hnames.1 hrid

/-- One response more: rows of subscriptions bind their SIDs and persist the removal of those they
close, a response to a LIST binds its call, and no other response binds anything. -/
theorem ResponsesInv.step {link : Link} {s : ResponderState} {responses : List DSAResponse}
    (hkeep : ResponsesKeep s responses) {handled : List DSAResponse} {p p' : Processing}
    {rsp : DSAResponse} {results : List (Routee × DSAResponse)} (hrsp : rsp ∈ responses)
    (h : ResponsesInv s handled p) (hresponds : Responds link p rsp results p') :
    ResponsesInv s (handled ++ [rsp]) p' := by
  cases hresponds with
  | subscribe hrid hdelivered =>
    -- only the last responses change; the rows of this response are counted among those handled
    refine ⟨h.ridRegistry, h.sidRegistry, h.list, ?_, ?_, ?_, ?_⟩
    · intro t
      rw [(Bindings.bound_deliverRows hdelivered t).1, h.subsBound t, exists_mem_handled,
        or_assoc, DSAResponse.Names, and_iff_right hrid]
    · intro t
      rw [(Bindings.bound_deliverRows hdelivered t).2]
      exact h.subsOrigins t
    · intro call hcall
      rcases List.mem_append.mp hcall with hold | hnew
      · exact h.calls call hold
      · obtain ⟨groupCall, hgroup, rfl⟩ := List.mem_map.mp hnew
        obtain ⟨_, row, _, sid, _, rfl⟩ :=
          (Bindings.mem_persisted_deliverRows hdelivered groupCall).mp hgroup
        exact Or.inl ⟨sid, rfl⟩
    · intro t
      rw [List.mem_append, h.removed t, exists_mem_handled]
      apply or_congr_right
      constructor
      · -- a removal that is new is one for a row of this response, and it is a closed one
        intro hnew
        obtain ⟨groupCall, hgroup, heq⟩ := List.mem_map.mp hnew
        cases heq
        obtain ⟨hclosed, row, hrow, sid, hsid, hcall⟩ :=
          (Bindings.mem_persisted_deliverRows hdelivered _).mp hgroup
        cases hcall
        exact ⟨⟨hrid, row, hrow, hsid⟩, hclosed⟩
      · rintro ⟨⟨_, row, hrow, hsid⟩, hclosed⟩
        refine List.mem_map.mpr ⟨.remove t .subs, ?_, rfl⟩
        exact (Bindings.mem_persisted_deliverRows hdelivered _).mpr
          ⟨hclosed, row, hrow, t, hsid, rfl⟩
  | @list record path oldUpdates delivered hrid hrecord hlist hrows hdelivered =>
    have hregistered : s.ridRegistry.ListRegistered rsp.rid := by
      rw [h.ridRegistry] at hrecord
      exact ⟨record, hrecord, hlist.1⟩
    -- a closed response for a registered LIST is excluded, so the record stays
    have hopen : rsp.stream ≠ some .closed :=
      fun hclosed => hkeep.1 rsp hrsp hrid hclosed hregistered
    subst hdelivered
    have hnothing : (Bindings.deliverListResponse p.state.listRegistry
        { rsp with updates := some (oldUpdates ++ attributeRows p.state path) }).persisted = [] :=
      if_neg hopen
    refine h.other hrid rfl rfl rfl ?_ ?_ ?_
    · apply h.list.deliver
      exact (h.list.bindings.bound rsp.rid).mpr hregistered
    · intro call hcall
      rw [hnothing, List.map_nil, List.append_nil] at hcall
      exact Or.inl hcall
    · intro call hcall
      exact List.mem_append_left _ hcall
  | @call record origin hrid hrecord hcall horigin =>
    refine h.other hrid rfl rfl rfl h.list ?_ ?_
    · intro call hcallMem
      rcases List.mem_append.mp hcallMem with hold | hnew
      · exact Or.inl hold
      · right
        split at hnew
        · -- the removed record is that of a call, whose method is not LIST or which has no path
          rw [h.ridRegistry] at hrecord
          have htarget := h.list.targetIds rsp.rid record hrecord
          refine ⟨record, List.mem_singleton.mp hnew, ?_, ?_⟩
          · intro hmethod
            obtain ⟨path, hpath⟩ := h.list.lists rsp.rid record hrecord hmethod
            exact hcall path ⟨hmethod, hpath⟩
          · rw [htarget]
            exact hrecord
        · cases hnew
    · intro call hcallMem
      exact List.mem_append_left _ hcallMem
  | unknown hrid hnone =>
    exact h.other hrid rfl rfl rfl h.list (fun _ => Or.inl) (fun _ hcall => hcall)

/-! ### The handlers that responses leave behind -/

/-- Calls are removed that are registered and no LIST: the list bindings do not notice. -/
theorem ListInv.performed_removals {s s₀ : ResponderState} {calls : List PersistCall}
    (hcalls : ∀ call ∈ calls, call.RemovesFrom s₀)
    (h : ListInv s.ridRegistry s.listRegistry)
    (hshrinks : ∀ t record, s.ridRegistry.callsByTargetId t = some record →
      s₀.ridRegistry.callsByTargetId t = some record) :
    ListInv (s.performed calls).ridRegistry (s.performed calls).listRegistry := by
  induction calls generalizing s with
  | nil => exact h
  | cons call rest ih =>
    rw [List.forall_mem_cons] at hcalls
    obtain ⟨hcall, hrest⟩ := hcalls
    rcases hcall with ⟨sid, rfl⟩ | ⟨record, rfl, hmethod, hrecord⟩
    · exact ih hrest h hshrinks
    · have hcurrent : ∀ found, s.ridRegistry.callsByTargetId record.targetId = some found →
          found = record := by
        intro found hfound
        have hsame := hshrinks _ found hfound
        rw [hrecord] at hsame
        exact (Option.some.inj hsame).symm
      refine ih hrest (h.removeCall hcurrent (h.bindings.congr ?_)) ?_
      · intro t
        refine (and_iff_left_of_imp ?_).symm
        rintro ⟨found, hfound, hlist⟩ rfl
        rw [hcurrent found hfound] at hlist
        exact hmethod hlist
      · intro t found hfound
        simp only [PersistCall.applied, RidRegistry.handle,
          RidRegistry.callsByTargetId_internalRemoveLookup] at hfound
        split at hfound
        · cases hfound
        · exact hshrinks t found hfound

/-- The SIDs whose bindings are removed are unbound, and nothing else is. -/
theorem subs_performed_removals (s : ResponderState) {s₀ : ResponderState}
    {calls : List PersistCall}
    (hcalls : ∀ call ∈ calls, call.RemovesFrom s₀) :
    (s.performed calls).sidRegistry = s.sidRegistry ∧ ∀ t,
      ((s.performed calls).subsRegistry.Bound t ↔
        s.subsRegistry.Bound t ∧ PersistCall.group (.remove t .subs) ∉ calls) ∧
      ∀ o, o ∈ (s.performed calls).subsRegistry.getOrigins t ↔
        o ∈ s.subsRegistry.getOrigins t ∧ PersistCall.group (.remove t .subs) ∉ calls := by
  induction calls generalizing s with
  | nil =>
    refine ⟨rfl, fun t => ⟨?_, fun o => ?_⟩⟩
    · exact (and_iff_left List.not_mem_nil).symm
    · exact (and_iff_left List.not_mem_nil).symm
  | cons call rest ih =>
    rw [List.forall_mem_cons] at hcalls
    obtain ⟨hcall, hrest⟩ := hcalls
    obtain ⟨hsids, hafter⟩ := ih (call.applied s) hrest
    rcases hcall with ⟨sid, rfl⟩ | ⟨record, rfl, _⟩
    · refine ⟨hsids, fun t => ⟨?_, fun o => ?_⟩⟩
      · apply (hafter t).1.trans
        have hremoved : (PersistCall.applied s (.group (.remove sid .subs))).subsRegistry
            = s.subsRegistry.internalRemove sid := rfl
        rw [hremoved, Bindings.bound_internalRemove, List.mem_cons]
        simp only [PersistCall.group.injEq, GroupCallPersist.remove.injEq, and_true, not_or,
          and_assoc, ne_eq]
      · apply ((hafter t).2 o).trans
        have hremoved : (PersistCall.applied s (.group (.remove sid .subs))).subsRegistry
            = s.subsRegistry.internalRemove sid := rfl
        rw [hremoved, Bindings.mem_getOrigins_internalRemove, List.mem_cons]
        simp only [PersistCall.group.injEq, GroupCallPersist.remove.injEq, and_true, not_or,
          and_assoc, ne_eq]
    · -- a call is removed, and no SID with it
      refine ⟨hsids, fun t => ⟨?_, fun o => ?_⟩⟩
      · apply (hafter t).1.trans
        simp only [List.mem_cons, reduceCtorEq, false_or]
        rfl
      · apply ((hafter t).2 o).trans
        simp only [List.mem_cons, reduceCtorEq, false_or]
        rfl

/-! ### Runs -/

/-- What every state of a run satisfies. -/
structure CrossInv (s : ResponderState) : Prop where
  list : ListInv s.ridRegistry s.listRegistry
  subs : SubsInv s.sidRegistry s.subsRegistry

/-- No bindings match no ids. -/
theorem Bindings.Matches.empty {Registered : Int → Prop} (hnone : ∀ t, ¬ Registered t) :
    Bindings.Matches .empty Registered where
  bound t := by
    refine ⟨?_, fun ht => absurd ht (hnone t)⟩
    rintro ⟨record, hrecord⟩
    cases hrecord
  origins t := by
    rintro ⟨record, hrecord⟩
    cases hrecord

theorem CrossInv.initial : CrossInv .initial := by
  refine ⟨⟨RidInv.fresh, .empty ?_⟩, ⟨.empty ?_, ?_⟩⟩
  · rintro t ⟨record, hrecord, _⟩
    cases hrecord
  · rintro t ⟨path, hpath⟩
    cases hpath
  · intro path sid hsid
    cases hsid

/-- When the handlers that the responses leave behind have run, the SIDs with a binding are the
registered ones again. -/
theorem ResponsesInv.crossInv {s : ResponderState} (hs : CrossInv s)
    {responses : List DSAResponse} (hkeep : ResponsesKeep s responses) {p : Processing}
    (h : ResponsesInv s responses p) : CrossInv (p.state.performed p.persisted) := by
  have hlist : ListInv p.state.ridRegistry p.state.listRegistry := by
    rw [h.ridRegistry]
    exact h.list
  have hshrinks : ∀ t record, p.state.ridRegistry.callsByTargetId t = some record →
      s.ridRegistry.callsByTargetId t = some record := by
    rw [h.ridRegistry]
    exact fun _ _ => id
  obtain ⟨hsids, hafter⟩ := subs_performed_removals p.state h.calls
  rw [h.sidRegistry] at hsids
  -- a SID whose row is closed goes just if no call registers it, as the condition asks
  have hbound : ∀ t, (p.state.performed p.persisted).subsRegistry.Bound t ↔
      s.sidRegistry.Registered t := by
    intro t
    rw [(hafter t).1, h.subsBound t, h.removed t, hs.subs.bindings.bound t]
    constructor
    · rintro ⟨hregistered | ⟨rsp, hrsp, hnames⟩, hopen⟩
      · exact hregistered
      · by_contra hunregistered
        exact hopen ((hkeep.2 rsp hrsp t hnames).mpr hunregistered)
    · intro hregistered
      refine ⟨Or.inl hregistered, ?_⟩
      rintro ⟨rsp, hrsp, hnames, hclosed⟩
      exact (hkeep.2 rsp hrsp t hnames).mp ⟨rsp, hrsp, hnames, hclosed⟩ hregistered
  refine ⟨hlist.performed_removals h.calls hshrinks, ⟨⟨?_, ?_⟩, ?_⟩⟩
  · rw [hsids]
    exact hbound
  · -- what stays bound keeps its origins
    intro t ht
    obtain ⟨o, ho⟩ := hs.subs.bindings.origins t
      ((hs.subs.bindings.bound t).mpr ((hbound t).mp ht))
    refine ⟨o, ((hafter t).2 o).mpr ⟨?_, ((hafter t).1.mp ht).2⟩⟩
    rw [h.subsOrigins t]
    exact ho
  · rw [hsids]
    exact hs.subs.bySid

def CrossCondition [ScanOrder Int] (link : Link) (s : ResponderState) : ResponderMessage → Prop
  | .requestEnvelope sender requests =>
      Along (EnvelopeTurn.take link sender) (CrossUndisturbed link sender) { present := s }
        requests
  | .responseMessage responses => ResponsesKeep s responses

/-- One message of a run. -/
def nextState [ScanOrder Int] (link : Link) (s : ResponderState) (msg : ResponderMessage) :
    Option ResponderState :=
  (receive link s msg).map Outcome.state

theorem CrossInv.next [ScanOrder Int] {link : Link} {s s' : ResponderState} (hs : CrossInv s)
    {msg : ResponderMessage} (hok : CrossCondition link s msg)
    (hnext : nextState link s msg = some s') : CrossInv s' := by
  obtain ⟨outcome, hreceive, rfl⟩ := Option.map_eq_some_iff.mp hnext
  cases msg with
  | requestEnvelope sender requests =>
    have hstart : CrossTurn { present := s } :=
      ⟨hs.list, hs.list, hs.subs, fun _ _ _ hrecord => hrecord⟩
    have hstep : ∀ (t : EnvelopeTurn) request, CrossTurn t →
        CrossUndisturbed link sender t request → CrossTurn (t.take link sender request) :=
      fun _ _ ht hundisturbed => ht.take hundisturbed
    have hturn := Along.invariant hstep hstart hok
    rw [receive_requestEnvelope_state hreceive]
    exact ⟨hturn.list, hturn.subs⟩
  | responseMessage responses =>
    have hstart : ResponsesInv s [] { state := s } := by
      refine ⟨rfl, rfl, hs.list, ?_, fun _ => rfl, nofun, ?_⟩
      · intro t
        simp
      · intro t
        simp
    obtain ⟨p, _, r, hinv, hrun, hstate, _⟩ := responseMessage_invariant
      (fun handled p _ => ResponsesInv s handled p)
      (fun _ _ _ _ _ _ hrsp hp hresponds => hp.step hok hrsp hresponds) hstart hreceive
    rw [hstate, performed_of_runHandlers hrun]
    exact hinv.crossInv hs hok

/-- **Cross-registry consistency.**  In every run whose messages meet the condition, the target
ids with a list binding are those of the registered LIST records, the target SIDs with a
subscribe binding are the registered ones, and every binding has an origin. -/
theorem registries_consistent [ScanOrder Int] {link : Link} {s : ResponderState}
    (h : Reachable (nextState link) (CrossCondition link) .initial s) : s.Consistent := by
  have hinv : CrossInv s := by
    apply h.invariant CrossInv.initial
    intro s msg s' hs hok hnext
    exact hs.next hok hnext
  exact ⟨hinv.list.bindings, hinv.subs.bindings⟩

/-! ### A LIST call -/

def listBlah : ResponderMessage := .requestEnvelope requesterA [.list 101 blah]

def listResponse (stream : StreamState) : ResponderMessage :=
  .responseMessage [{ rid := 1, stream := some stream }]

/-- A LIST and its first response. -/
theorem registries_consistent_list :
    ∃ s : ResponderState, s.ridRegistry.ListRegistered 1 ∧ s.Consistent := by
  have hlist : CrossCondition linkR .initial listBlah := by
    refine ⟨⟨fun _ => ⟨?_, ?_⟩, trivial, trivial⟩, trivial⟩
    all_goals
      rintro ⟨binding, hbinding⟩
      cases hbinding
  have hreached : Reachable (nextState linkR) (CrossCondition linkR) .initial _ :=
    .next listBlah .start hlist rfl
  refine ⟨_, ?_, registries_consistent (.next (listResponse .opened) hreached ⟨?_, ?_⟩ rfl)⟩
  · exact ⟨_, rfl, rfl⟩
  · intro rsp hrsp _ hclosed
    rw [List.mem_singleton.mp hrsp] at hclosed
    cases hclosed
  · intro rsp hrsp sid hnames
    rw [List.mem_singleton.mp hrsp] at hnames
    cases hnames.1

/-- The endpoint closes the stream of a LIST: the binding is removed and the record stays. -/
theorem registries_inconsistent :
    ∃ s, Reachable (nextState linkR) AnyStep .initial s ∧ ¬ s.Consistent := by
  refine ⟨_, .next (listResponse .closed) (.next listBlah .start trivial rfl) trivial rfl, ?_⟩
  rintro ⟨hlist, _⟩
  obtain ⟨binding, hbinding⟩ := (hlist.bound 1).mpr ⟨_, rfl, rfl⟩
  cases hbinding

end DsaBroker
