import DsaBroker.ResponderRuns

/-!
# The SID registry and its journal

The two maps of the SID registry are to be inverse to each other, the handlers of its events
are not to throw, and its journal is to be replayable.  Requests may decide otherwise: what an
envelope decides about a path or a SID is decided on the registries that the envelope found.
Two SUBSCRIBEs of a new path in one envelope give the path two SIDs; two UNSUBSCRIBEs of a
last subscriber remove the SID twice, and the second handler throws; a SUBSCRIBE after the
last UNSUBSCRIBE binds a SID that is about to be removed, and so it will be removed again.

`SidCondition` excludes just these requests, and a SID that is issued while it is in use.
Over runs that meet it nothing of this happens (`sid_registry_sound`).
-/

namespace DsaBroker

/-- A responder and the SID events that it has journaled. -/
structure SidRun where
  state : ResponderState
  journal : List LookupSidRestoreProcess

namespace SidRun

def initial : SidRun := ⟨.initial, []⟩

end SidRun

def PersistCall.sidEvent : PersistCall → Option LookupSidRestoreProcess
  | .sid event => some event
  | _ => none

/-- One message, its events journaled. -/
def SidRun.receive [ScanOrder Int] (link : Link) (run : SidRun) (msg : ResponderMessage) :
    Option SidRun :=
  (DsaBroker.receive link run.state msg).map fun outcome =>
    { state := outcome.state
      journal := run.journal ++ outcome.persisted.filterMap PersistCall.sidEvent }

/-- Replays a journal into a new registry; `none` when recovery throws. -/
def replaySids (journal : List LookupSidRestoreProcess) : Option SidRegistry :=
  journal.foldlM SidRegistry.restoreSidRegistry .fresh

def SidRegistry.Inverse (r : SidRegistry) : Prop :=
  ∀ path sid, r.sidByPath path = some sid ↔ r.pathBySid sid = some path

/-- The responses of a message cannot be processed. -/
def ProcessingThrows (link : Link) (s : ResponderState) : ResponderMessage → Prop
  | .requestEnvelope .. => False
  | .responseMessage responses =>
      ∃ thrown p, (processResponses link responses).run { state := s } = (.error thrown, p)

/-- What an earlier request of the same envelope must not have decided: that the path gets a
SID, or that the SID in question is removed.  And a SID that is issued is to be free. -/
def SidUndisturbed [ScanOrder Int] (link : Link) (sender : Routee) (t : EnvelopeTurn)
    (request : DSARequest) : Prop :=
  match t.action link sender request with
  | .subscribeNew _ _ srcPath _ =>
      (∀ sid, PersistCall.sid (.saved srcPath.path sid) ∉ t.pending) ∧
        t.present.sidRegistry.pathBySid t.present.nextSid = none ∧
        ∀ path, PersistCall.sid (.saved path t.present.nextSid) ∉ t.pending
  | .subscribeKnown tgtSid .. => PersistCall.sid (.removed tgtSid) ∉ t.pending
  | .unsubscribeLast _ _ targetSid => PersistCall.sid (.removed targetSid) ∉ t.pending
  | _ => True

def SidCondition [ScanOrder Int] (link : Link) (run : SidRun) : ResponderMessage → Prop
  | .requestEnvelope sender requests =>
      Along (EnvelopeTurn.take link sender) (SidUndisturbed link sender)
        { present := run.state } requests
  | .responseMessage _ => True

/-! ### The invariant -/

/-- The last responses that subscribers are sent have a row. -/
def Bindings.HaveRows (b : Bindings) : Prop :=
  ∀ targetSid rsp, b.getLastResponse targetSid = some rsp →
    ∃ row rest, rsp.updates = some (row :: rest)

structure SidInv (s : ResponderState) : Prop where
  inverse : s.sidRegistry.Inverse
  bound : ∀ targetSid origin, origin ∈ s.subsRegistry.getOrigins targetSid →
    ∃ path, s.sidRegistry.pathBySid targetSid = some path
  rows : s.subsRegistry.HaveRows

theorem SidInv.initial : SidInv .initial where
  inverse _ _ := ⟨nofun, nofun⟩
  bound _ _ h := nomatch h
  rows _ _ h := nomatch h

/-- The invariant reads the maps of the SID registry and the subscribe bindings. -/
theorem SidInv.of_same {s s' : ResponderState} (hs : SidInv s)
    (hpath : s'.sidRegistry.pathBySid = s.sidRegistry.pathBySid)
    (hsid : s'.sidRegistry.sidByPath = s.sidRegistry.sidByPath)
    (hsubs : s'.subsRegistry = s.subsRegistry) : SidInv s' where
  inverse path sid := by
    rw [hpath, hsid]
    exact hs.inverse path sid
  bound targetSid origin := by
    rw [hpath, hsubs]
    exact hs.bound targetSid origin
  rows := by
    rw [hsubs]
    exact hs.rows

/-- The registries after some handlers, as far as SIDs are concerned. -/
structure SidAfter (s : ResponderState) (calls : List PersistCall) (s' : ResponderState) :
    Prop where
  inv : SidInv s'
  kept : ∀ path sid, s.sidRegistry.sidByPath path = some sid →
    PersistCall.sid (.removed sid) ∉ calls → s'.sidRegistry.sidByPath path = some sid
  found : ∀ path sid, s'.sidRegistry.sidByPath path = some sid →
    s.sidRegistry.sidByPath path = some sid ∨ PersistCall.sid (.saved path sid) ∈ calls

namespace SidAfter

theorem of_same {s s' : ResponderState} {calls : List PersistCall} (h : SidInv s')
    (hsid : s'.sidRegistry.sidByPath = s.sidRegistry.sidByPath) : SidAfter s calls s' where
  inv := h
  kept path sid hpath _ := by rw [hsid, hpath]
  found path sid hpath := by
    rw [hsid] at hpath
    exact Or.inl hpath

theorem of_start {s₁ s s' : ResponderState} {calls : List PersistCall} (h : SidAfter s calls s')
    (hsid : s₁.sidRegistry.sidByPath = s.sidRegistry.sidByPath) : SidAfter s₁ calls s' where
  inv := h.inv
  kept path sid := by
    rw [hsid]
    exact h.kept path sid
  found path sid := by
    rw [hsid]
    exact h.found path sid

theorem trans {s s' s'' : ResponderState} {calls later : List PersistCall}
    (h : SidAfter s calls s') (hlater : SidAfter s' later s'') :
    SidAfter s (calls ++ later) s'' where
  inv := hlater.inv
  kept path sid hpath hnot := by
    rw [List.mem_append, not_or] at hnot
    exact hlater.kept path sid (h.kept path sid hpath hnot.1) hnot.2
  found path sid hpath := by
    rcases hlater.found path sid hpath with hmiddle | hsaved
    · rcases h.found path sid hmiddle with hstart | hsaved
      · exact Or.inl hstart
      · exact Or.inr (List.mem_append_left _ hsaved)
    · exact Or.inr (List.mem_append_right _ hsaved)

end SidAfter

/-! ### Persist handlers -/

theorem Bindings.HaveRows.handle_addOrigin {b : Bindings} (hb : b.HaveRows) (targetId : Int)
    (origin : Origin) :
    ∃ sent, b.handle (.addOrigin targetId origin .subs) =
      some (b.internalAddOrigin targetId origin, sent) := by
  have hlast : ((b.internalAddOrigin targetId origin).getOrInsert targetId).lastResponse
      = b.getLastResponse targetId := by
    rw [← getLastResponse_internalAddOrigin b targetId targetId origin]
    simp [getOrInsert, getLastResponse]
  simp only [Bindings.handle, onAddOrigin, onAddSubscribeOrigin, hlast]
  cases hresponse : b.getLastResponse targetId with
  | none => exact ⟨[], rfl⟩
  | some rsp =>
    obtain ⟨row, rest, hrows⟩ := hb targetId rsp hresponse
    simp only [hrows]
    exact ⟨_, rfl⟩

theorem SidInv.of_subs {s : ResponderState} (hs : SidInv s) {b : Bindings}
    (hbound : ∀ targetSid origin, origin ∈ b.getOrigins targetSid →
      origin ∈ s.subsRegistry.getOrigins targetSid ∨
        ∃ path, s.sidRegistry.pathBySid targetSid = some path)
    (hrows : b.HaveRows) : SidInv { s with subsRegistry := b } where
  inverse := hs.inverse
  bound targetSid origin horigin := by
    rcases hbound targetSid origin horigin with hold | hpath
    · exact hs.bound targetSid origin hold
    · exact hpath
  rows := hrows

/-- What the handler of a persist call relies on. -/
def SidAdmits (s : ResponderState) : PersistCall → Prop
  | .sid (.saved path sid) =>
      s.sidRegistry.sidByPath path = none ∧ s.sidRegistry.pathBySid sid = none
  | .sid (.removed sid) =>
      (∃ path, s.sidRegistry.pathBySid sid = some path) ∧ s.subsRegistry.getOrigins sid = []
  | .group (.addOrigin targetSid _ .subs) => ∃ path, s.sidRegistry.pathBySid targetSid = some path
  | _ => True

theorem SidInv.handleSaved {s : ResponderState} (hs : SidInv s) {path : Str} {sid : Int}
    (hpath : s.sidRegistry.sidByPath path = none) (hsid : s.sidRegistry.pathBySid sid = none) :
    SidAfter s [.sid (.saved path sid)]
      { s with sidRegistry := s.sidRegistry.addLookup path sid } where
  inv :=
    { inverse := by
        intro p t
        simp only [SidRegistry.pathBySid_addLookup, SidRegistry.sidByPath_addLookup]
        have hinverse := hs.inverse p t
        grind
      bound := by
        intro targetSid origin horigin
        obtain ⟨p, hp⟩ := hs.bound targetSid origin horigin
        simp only [SidRegistry.pathBySid_addLookup]
        split
        · exact ⟨path, rfl⟩
        · exact ⟨p, hp⟩
      rows := hs.rows }
  kept p t hp _ := by
    simp only [SidRegistry.sidByPath_addLookup]
    grind
  found p t hp := by
    simp only [SidRegistry.sidByPath_addLookup] at hp
    grind

/-- The removal of a SID does not throw when the SID has a path, and it keeps the tables inverse
when nobody is bound to the SID any more. -/
theorem SidInv.handleRemoved {s : ResponderState} (hs : SidInv s) {sid : Int} {path : Str}
    (hpath : s.sidRegistry.pathBySid sid = some path)
    (hunbound : s.subsRegistry.getOrigins sid = []) :
    ∃ r, handlePersisted s (.sid (.removed sid)) = some r ∧
      SidAfter s [.sid (.removed sid)] r.1 := by
  -- the replay throws only if the SID has no path, but it has one
  have hsome := s.sidRegistry.internalRemoveLookup_isSome sid
  rw [hpath, Option.isSome_some] at hsome
  obtain ⟨sidRegistry, hremove⟩ := Option.isSome_iff_exists.mp hsome
  have hrun : handlePersisted s (.sid (.removed sid))
      = some ({ s with sidRegistry := sidRegistry }, []) := by
    simp only [handlePersisted, SidRegistry.handle, hremove, Option.map_some]
  refine ⟨_, hrun, ?_⟩
  obtain ⟨path', hpath', _, hpathBySid, hsidByPath⟩ :=
    SidRegistry.internalRemoveLookup_eq_some hremove
  rw [hpath] at hpath'
  cases hpath'
  constructor
  · -- the two tables stay inverse: the pair of `sid` and `path` is gone from both
    constructor
    · intro p t
      have hinverse := hs.inverse p t
      have hremoved := hs.inverse path sid
      simp only [hpathBySid, hsidByPath]
      grind
    · -- a SID with an origin is another one, so its path stays
      intro targetSid origin horigin
      have hne : targetSid ≠ sid := by
        rintro rfl
        rw [hunbound] at horigin
        cases horigin
      obtain ⟨p, hp⟩ := hs.bound targetSid origin horigin
      simp only [hpathBySid, if_neg hne]
      exact ⟨p, hp⟩
    · exact hs.rows
  · intro p t hp hnot
    have hne : p ≠ path := by
      rintro rfl
      rw [(hs.inverse p sid).mpr hpath] at hp
      cases hp
      exact hnot (List.mem_singleton.mpr rfl)
    simp only [hsidByPath, if_neg hne, hp]
  · intro p t hp
    simp only [hsidByPath] at hp
    split at hp
    · cases hp
    · exact Or.inl hp

/-- The handlers of group events do not throw where they are admitted, and they leave the SIDs and
their paths alone. -/
theorem SidInv.handleGroup {s : ResponderState} (hs : SidInv s) {call : GroupCallPersist}
    (hadmits : SidAdmits s (.group call)) :
    ∃ r, handlePersisted s (.group call) = some r ∧ SidInv r.1 ∧
      r.1.sidRegistry = s.sidRegistry := by
  rcases call with ⟨targetId, origin, regTypeVal⟩ | ⟨origin, regTypeVal, targetId, theLastOne⟩ |
    ⟨targetId, regTypeVal⟩
  · rcases regTypeVal with _ | _ | _
    · exact ⟨_, rfl, hs.of_same rfl rfl rfl, rfl⟩
    · -- a new origin is sent the last response, whose rows the invariant allows to be sent
      obtain ⟨sent, hhandle⟩ := hs.rows.handle_addOrigin targetId origin
      have hrun : handlePersisted s (.group (.addOrigin targetId origin .subs)) =
          some ({ s with subsRegistry := s.subsRegistry.internalAddOrigin targetId origin },
            sent) := by
        simp only [handlePersisted, GroupCallPersist.regTypeVal, ResponderState.bindings, hhandle,
          Option.map_some, ResponderState.setBindings]
      refine ⟨_, hrun, hs.of_subs ?_ ?_, rfl⟩
      · intro targetSid o ho
        rcases Bindings.mem_getOrigins_internalAddOrigin.mp ho with ⟨rfl, rfl⟩ | hold
        · exact Or.inr hadmits
        · exact Or.inl hold
      · intro targetSid rsp hrsp
        rw [Bindings.getLastResponse_internalAddOrigin] at hrsp
        exact hs.rows targetSid rsp hrsp
    · exact ⟨_, rfl, hs.of_same rfl rfl rfl, rfl⟩
  · rcases regTypeVal with _ | _ | _
    · exact ⟨_, rfl, hs.of_same rfl rfl rfl, rfl⟩
    · -- removals leave fewer origins and fewer last responses
      refine ⟨_, rfl, hs.of_subs ?_ ?_, rfl⟩
      · intro targetSid o ho
        left
        cases theLastOne
        · exact (Bindings.mem_getOrigins_removeFrom.mp ho).1
        · have hrest := (Bindings.mem_getOrigins_internalRemove.mp ho).1
          exact (Bindings.mem_getOrigins_removeFrom.mp hrest).1
      · intro targetSid rsp hrsp
        apply hs.rows targetSid rsp
        cases theLastOne
        · exact (Bindings.getLastResponse_removeFrom ..).symm.trans hrsp
        · simp only [if_true, Bindings.getLastResponse_internalRemove,
            Bindings.getLastResponse_removeFrom] at hrsp
          split at hrsp
          · cases hrsp
          · exact hrsp
    · exact ⟨_, rfl, hs.of_same rfl rfl rfl, rfl⟩
  · rcases regTypeVal with _ | _ | _
    · exact ⟨_, rfl, hs.of_same rfl rfl rfl, rfl⟩
    · refine ⟨_, rfl, hs.of_subs ?_ ?_, rfl⟩
      · intro targetSid o ho
        exact Or.inl (Bindings.mem_getOrigins_internalRemove.mp ho).1
      · intro targetSid rsp hrsp
        simp only [Bindings.getLastResponse_internalRemove] at hrsp
        split at hrsp
        · cases hrsp
        · exact hs.rows targetSid rsp hrsp
    · exact ⟨_, rfl, hs.of_same rfl rfl rfl, rfl⟩

/-- **A handler whose call is admitted does not throw and keeps the invariant.** -/
theorem SidInv.handle {s : ResponderState} (hs : SidInv s) {call : PersistCall}
    (hadmits : SidAdmits s call) :
    ∃ r, handlePersisted s call = some r ∧ SidAfter s [call] r.1 := by
  rcases call with event | event | ⟨nodePath, name, value⟩ | groupCall
  · exact ⟨_, rfl, .of_same (hs.of_same rfl rfl rfl) rfl⟩
  · rcases event with ⟨path, sid⟩ | sid
    · obtain ⟨hpath, hsid⟩ := hadmits
      exact ⟨_, rfl, hs.handleSaved hpath hsid⟩
    · obtain ⟨⟨path, hpath⟩, hunbound⟩ := hadmits
      exact hs.handleRemoved hpath hunbound
  · exact ⟨_, rfl, .of_same (hs.of_same rfl rfl rfl) rfl⟩
  · obtain ⟨r, hrun, hinv, hsame⟩ := hs.handleGroup hadmits
    exact ⟨r, hrun, .of_same hinv (by rw [hsame])⟩

/-- Handlers run one after the other, as far as they get. -/
def handleNext (s : ResponderState) (call : PersistCall) : Option ResponderState :=
  (handlePersisted s call).map Prod.fst

theorem SidInv.runHandlers {s : ResponderState} (hs : SidInv s) {calls : List PersistCall}
    (hadmits : Admissible handleNext SidAdmits s calls) :
    ∃ r, DsaBroker.runHandlers s calls = some r ∧ SidAfter s calls r.1 := by
  induction calls generalizing s with
  | nil => exact ⟨(s, []), rfl, .of_same hs rfl⟩
  | cons call rest ih =>
    obtain ⟨hcall, hrest⟩ := hadmits
    obtain ⟨first, hfirst, hafter⟩ := hs.handle hcall
    have hnext : handleNext s call = some first.1 := by rw [handleNext, hfirst, Option.map_some]
    obtain ⟨later, hlater, hafterLater⟩ := ih hafter.inv (hrest _ hnext)
    refine ⟨(later.1, first.2 ++ later.2), ?_, hafter.trans hafterLater⟩
    simp only [DsaBroker.runHandlers, hfirst, hlater, Option.bind_some, Option.map_some]

/-! ### Requests -/

/-- The registries a request sees and the registries with everything pending performed. -/
structure SidTurn (t : EnvelopeTurn) (settled : ResponderState) : Prop where
  present : SidInv t.present
  pending : SidAfter t.present t.pending settled

theorem SidInv.advance {s : ResponderState} (hs : SidInv s) (issues : Bool × Bool) :
    SidInv (s.advance issues) := by
  obtain ⟨issuesRid, issuesSid⟩ := issues
  cases issuesRid <;> cases issuesSid <;> exact hs.of_same rfl rfl rfl

/-- A SID that an UNSUBSCRIBE or another SUBSCRIBE finds is registered once everything pending
is performed, unless its removal is pending. -/
theorem SidTurn.registered {t : EnvelopeTurn} {settled : ResponderState}
    (ht : SidTurn t settled) {sid : Int} {path : Str}
    (hpath : t.present.sidRegistry.sidByPath path = some sid)
    (hpending : PersistCall.sid (.removed sid) ∉ t.pending) :
    settled.sidRegistry.pathBySid sid = some path :=
  (ht.pending.inv.inverse path sid).mp (ht.pending.kept path sid hpath hpending)

/-- The three effects of a first SUBSCRIBE are admitted one after the other: path and SID are free
in the settled registry, since neither is there at the turn nor saved by a pending effect. -/
theorem SidTurn.admits_subscribeNew {t : EnvelopeTurn} {settled : ResponderState}
    (ht : SidTurn t settled) {ridOrigin sidOrigin : Origin} {path : Str}
    (hfound : t.present.sidRegistry.sidByPath path = none)
    (hpath : ∀ sid, PersistCall.sid (.saved path sid) ∉ t.pending)
    (hfree : t.present.sidRegistry.pathBySid t.present.nextSid = none)
    (hfreePending : ∀ p, PersistCall.sid (.saved p t.present.nextSid) ∉ t.pending) :
    Admissible handleNext SidAdmits (settled.advance (true, true))
      [.rid (.saved .subscribe (some ridOrigin) none t.present.nextRid),
        .sid (.saved path t.present.nextSid),
        .group (.addOrigin t.present.nextSid sidOrigin .subs)] := by
  -- what is not present and not pending is not settled either
  have hnoPath : settled.sidRegistry.sidByPath path = none := by
    cases hsome : settled.sidRegistry.sidByPath path with
    | none => rfl
    | some sid =>
      rcases ht.pending.found path sid hsome with hpresent | hsaved
      · rw [hfound] at hpresent
        cases hpresent
      · exact absurd hsaved (hpath sid)
  have hnoSid : settled.sidRegistry.pathBySid t.present.nextSid = none := by
    cases hsome : settled.sidRegistry.pathBySid t.present.nextSid with
    | none => rfl
    | some p =>
      have hsid := (ht.pending.inv.inverse p t.present.nextSid).mpr hsome
      rcases ht.pending.found p t.present.nextSid hsid with hpresent | hsaved
      · have hused := (ht.present.inverse p t.present.nextSid).mp hpresent
        rw [hfree] at hused
        cases hused
      · exact absurd hsaved (hfreePending p)
  refine ⟨trivial, ?_⟩
  intro afterRid hafterRid
  obtain rfl := Option.some.inj hafterRid
  refine ⟨⟨hnoPath, hnoSid⟩, ?_⟩
  intro afterSid hafterSid
  obtain rfl := Option.some.inj hafterSid
  refine ⟨⟨path, ?_⟩, fun _ _ => trivial⟩
  simp only [SidRegistry.pathBySid_addLookup, if_true]

section

variable [ScanOrder Int] {link : Link} {sender : Routee}

theorem SidTurn.admits_unsubscribeLast {t : EnvelopeTurn} {settled : ResponderState}
    (ht : SidTurn t settled) {ridOrigin sidOrigin : Origin} {targetSid : Int}
    (hfound : t.present.subsRegistry.removal sidOrigin = some (targetSid, true))
    (hpending : PersistCall.sid (.removed targetSid) ∉ t.pending) :
    Admissible handleNext SidAdmits (settled.advance (true, false))
      [.group (.removeOrigin sidOrigin .subs targetSid true), .sid (.removed targetSid),
        .rid (.saved .unsubscribe (some ridOrigin) none t.present.nextRid)] := by
  obtain ⟨record, hrecord, horigin, _⟩ := Bindings.removal_eq_some hfound
  obtain ⟨path, hpath⟩ := ht.present.bound targetSid sidOrigin
    (Bindings.mem_getOrigins.mpr ⟨record, hrecord, horigin⟩)
  have hsid := (ht.present.inverse path targetSid).mpr hpath
  refine ⟨trivial, ?_⟩
  intro afterGroup hafterGroup
  obtain rfl := Option.some.inj hafterGroup
  refine ⟨⟨⟨path, ht.registered hsid hpending⟩, ?_⟩, ?_⟩
  · -- the binding is gone before its SID is
    rw [List.eq_nil_iff_forall_not_mem]
    intro o ho
    exact (Bindings.mem_getOrigins_internalRemove.mp ho).2 rfl
  · intro afterSid _
    exact ⟨trivial, fun _ _ => trivial⟩

/-- The effects of an undisturbed request are admitted on the settled registries. -/
theorem SidTurn.admits {t : EnvelopeTurn} {settled : ResponderState} (ht : SidTurn t settled)
    {request : DSARequest} (hundisturbed : SidUndisturbed link sender t request) :
    Admissible handleNext SidAdmits (settled.advance (t.action link sender request).issues)
      ((t.action link sender request).effects t.present.nextRid t.present.nextSid) := by
  have hfound : (t.action link sender request).Found t.present := requestAction_found ..
  unfold SidUndisturbed at hundisturbed
  generalize t.action link sender request = a at hfound hundisturbed ⊢
  cases a with
  | nothing => exact trivial
  | answer rid => exact trivial
  | saveAttribute rid nodePath name value => exact ⟨trivial, fun _ _ => trivial⟩
  | passthrough method origin forward => exact ⟨trivial, fun _ _ => trivial⟩
  | listNew path origin tgtPath =>
    exact ⟨trivial, fun _ _ => ⟨trivial, fun _ _ => trivial⟩⟩
  | listKnown targetId origin tgtPath => exact ⟨trivial, fun _ _ => trivial⟩
  | subscribeNew ridOrigin sidOrigin srcPath tgtPath =>
    obtain ⟨hpath, hfree, hfreePending⟩ := hundisturbed
    exact ht.admits_subscribeNew hfound hpath hfree hfreePending
  | subscribeKnown tgtSid sidOrigin srcPath tgtPath =>
    exact ⟨⟨srcPath.path, ht.registered hfound hundisturbed⟩, fun _ _ => trivial⟩
  | unsubscribeLast ridOrigin sidOrigin targetSid =>
    exact ht.admits_unsubscribeLast hfound hundisturbed
  | unsubscribeOther rid sidOrigin targetSid => exact ⟨trivial, fun _ _ => trivial⟩
  | closeCall targetId => exact trivial
  | closeListLast origin targetId record =>
    refine ⟨trivial, fun _ _ => ?_⟩
    cases record with
    | none => exact trivial
    | some record => exact ⟨trivial, fun _ _ => trivial⟩
  | closeListOther origin targetId => exact ⟨trivial, fun _ _ => trivial⟩

theorem SidTurn.take {t : EnvelopeTurn} {settled : ResponderState} (ht : SidTurn t settled)
    {request : DSARequest} (hundisturbed : SidUndisturbed link sender t request) :
    ∃ r, t.perform link sender request settled = some r ∧
      SidTurn (t.take link sender request) r.1 := by
  have hadvance : SidAfter settled [] (settled.advance (t.action link sender request).issues) :=
    .of_same (ht.pending.inv.advance _) (sidByPath_advance ..)
  obtain ⟨r, hrun, hafter⟩ := hadvance.inv.runHandlers (ht.admits hundisturbed)
  refine ⟨r, hrun, ht.present.advance _, ?_⟩
  exact (ht.pending.trans (hadvance.trans hafter)).of_start (sidByPath_advance ..)

end

/-! ### Responses -/

theorem SidInv.deliver {s : ResponderState} (hs : SidInv s) {rsp : DSAResponse}
    {delivered : Bindings.Delivered}
    (h : s.subsRegistry.deliverSubscribeResponse rsp = some delivered) :
    SidInv { s with subsRegistry := delivered.bindings } := by
  refine Bindings.deliverSubscribeResponse_invariant
    (fun d => SidInv { s with subsRegistry := d.bindings }) ?_ hs h
  intro d row first _ hd hfirst
  obtain ⟨targetSid, _, rfl⟩ := Option.map_eq_some_iff.mp hfirst
  apply hs.of_subs
  · intro t o ho
    rw [Bindings.getOrigins_put_setLastResponse] at ho
    exact Or.inr (hd.bound t o ho)
  · intro t last hlast
    simp only [Bindings.getLastResponse, Bindings.get_put_setLastResponse] at hlast
    split at hlast
    · cases hlast
      exact ⟨row, [], rfl⟩
    · exact hd.rows t last hlast

theorem Responds.sidInv {link : Link} {p p' : Processing} {rsp : DSAResponse}
    {results : List (Routee × DSAResponse)} (h : Responds link p rsp results p')
    (hp : SidInv p.state) : SidInv p'.state := by
  cases h with
  | subscribe hrid hdelivered => exact hp.deliver hdelivered
  | list hrid hrecord hlist hrows hdelivered => exact hp.of_same rfl rfl rfl
  | call hrid hrecord hcall horigin => exact hp
  | unknown hrid hnone => exact hp

theorem Responds.sidRegistry {link : Link} {p p' : Processing} {rsp : DSAResponse}
    {results : List (Routee × DSAResponse)} (h : Responds link p rsp results p') :
    p'.state.sidRegistry = p.state.sidRegistry := by
  cases h <;> rfl

theorem admits_of_isRemoval {s : ResponderState} {calls : List PersistCall}
    (hcalls : ∀ call ∈ calls, call.IsRemoval) : Admissible handleNext SidAdmits s calls := by
  induction calls generalizing s with
  | nil => exact trivial
  | cons call rest ih =>
    rw [List.forall_mem_cons] at hcalls
    obtain ⟨hcall, hrest⟩ := hcalls
    refine ⟨?_, fun _ _ => ih hrest⟩
    rcases call with event | event | _ | (_ | _ | _)
    · exact trivial
    · exact hcall.elim
    · exact trivial
    · exact hcall.elim
    · exact trivial
    · exact trivial

/-! ### Replay -/

/-- The journal of a message whose handlers came through can be replayed. -/
theorem SidRegistry.SameMaps.replay {calls : List PersistCall} {s : ResponderState}
    {r : ResponderState × List Delivery} {registry : SidRegistry}
    (h : registry.SameMaps s.sidRegistry) (hrun : runHandlers s calls = some r) :
    ∃ registry', (calls.filterMap PersistCall.sidEvent).foldlM restoreSidRegistry registry
      = some registry' ∧ registry'.SameMaps r.1.sidRegistry := by
  induction calls generalizing s r registry with
  | nil =>
    cases hrun
    exact ⟨registry, rfl, h⟩
  | cons call rest ih =>
    simp only [runHandlers, Option.bind_eq_some_iff, Option.map_eq_some_iff] at hrun
    obtain ⟨first, hfirst, later, hlater, rfl⟩ := hrun
    have hother : call.sidEvent = none → registry.SameMaps first.1.sidRegistry →
        ∃ registry', ((call :: rest).filterMap PersistCall.sidEvent).foldlM restoreSidRegistry
          registry = some registry' ∧ registry'.SameMaps later.1.sidRegistry := by
      intro hnone hsame
      rw [List.filterMap_cons, hnone]
      exact ih hsame hlater
    cases call with
    | sid event =>
      obtain ⟨live, hlive, rfl⟩ := Option.map_eq_some_iff.mp hfirst
      obtain ⟨registry', hrestore, hsame⟩ := h.restore hlive
      obtain ⟨last, hlast, hsameLast⟩ := ih hsame hlater
      refine ⟨last, ?_, hsameLast⟩
      simp only [List.filterMap_cons, PersistCall.sidEvent, List.foldlM_cons, hrestore]
      exact hlast
    | rid event =>
      cases hfirst
      exact hother rfl h
    | saveAttribute nodePath name value =>
      cases hfirst
      exact hother rfl h
    | group groupCall =>
      obtain ⟨result, _, rfl⟩ := Option.map_eq_some_iff.mp hfirst
      apply hother rfl
      cases groupCall.regTypeVal <;> exact h

/-! ### Runs -/

section

variable [ScanOrder Int]

/-- What every state of a run satisfies: the invariant, and a journal that can be replayed. -/
structure SidRun.Sound (run : SidRun) : Prop where
  inv : SidInv run.state
  replayed : ∃ registry, replaySids run.journal = some registry ∧
    registry.SameMaps run.state.sidRegistry

/-- No handler of a message that meets the condition throws. -/
theorem SidInv.receives {link : Link} {run : SidRun} (hs : SidInv run.state)
    {msg : ResponderMessage} (hok : SidCondition link run msg) :
    (∃ outcome, receive link run.state msg = some outcome ∧ SidInv outcome.state) ∨
      ProcessingThrows link run.state msg := by
  cases msg with
  | requestEnvelope sender requests =>
    have hstart : SidTurn { present := run.state } run.state := ⟨hs, .of_same hs rfl⟩
    obtain ⟨outcome, hreceive, hturn⟩ := envelope_total
      (fun _ _ _ ht hundisturbed => SidTurn.take ht hundisturbed) hstart hok
    exact Or.inl ⟨outcome, hreceive, hturn.pending.inv⟩
  | responseMessage responses =>
    rcases hrun : (processResponses link responses).run { state := run.state } with
      ⟨thrown | results, p⟩
    · exact Or.inr ⟨thrown, p, hrun⟩
    · left
      have hinv := processResponses_invariant (fun _ p _ => SidInv p.state)
        (fun _ _ _ _ _ _ _ hp hresponds => hresponds.sidInv hp) hs hrun
      have hremovals := isRemoval_of_processResponses hrun
      obtain ⟨r, hr, hafter⟩ := hinv.runHandlers (admits_of_isRemoval hremovals)
      refine ⟨⟨r.1, [], p.sent ++ groupByTarget results ++ r.2, p.persisted⟩, ?_, hafter.inv⟩
      simp only [receive, hrun, complete, hr, Option.map_some]

theorem receive_of_processingThrows {link : Link} {s : ResponderState} {msg : ResponderMessage}
    (h : ProcessingThrows link s msg) : receive link s msg = none := by
  cases msg with
  | requestEnvelope sender requests => exact h.elim
  | responseMessage responses =>
    obtain ⟨thrown, p, hrun⟩ := h
    simp only [receive, hrun]

/-- The persist calls of a message, and the state their handlers ran on. -/
theorem receive_runHandlers {link : Link} {s : ResponderState} {msg : ResponderMessage}
    {outcome : Outcome} (h : receive link s msg = some outcome) :
    ∃ s₀ r, runHandlers s₀ outcome.persisted = some r ∧ outcome.state = r.1 ∧
      s₀.sidRegistry.SameMaps s.sidRegistry := by
  cases msg with
  | requestEnvelope sender requests =>
    rw [receive_requestEnvelope] at h
    obtain ⟨r, hrun, rfl⟩ := Option.map_eq_some_iff.mp h
    obtain ⟨rids, sids, hpresent⟩ := envelopeTurn_present link sender s requests
    refine ⟨_, r, hrun, rfl, ?_⟩
    rw [hpresent]
    exact ⟨rfl, rfl⟩
  | responseMessage responses =>
    obtain ⟨p, results, r, hsids, hrun, hstate, _, hpersisted, _⟩ := responseMessage_invariant
      (fun _ p _ => p.state.sidRegistry = s.sidRegistry)
      (fun _ _ _ _ _ _ _ hp hresponds => hresponds.sidRegistry.trans hp) rfl h
    refine ⟨p.state, r, hpersisted ▸ hrun, hstate, ?_⟩
    rw [hsids]
    exact ⟨rfl, rfl⟩

theorem SidRun.Sound.receive {link : Link} {run run' : SidRun} (h : run.Sound)
    {msg : ResponderMessage} (hok : SidCondition link run msg)
    (hreceive : run.receive link msg = some run') : run'.Sound := by
  obtain ⟨outcome, houtcome, rfl⟩ := Option.map_eq_some_iff.mp hreceive
  constructor
  · rcases h.inv.receives hok with ⟨outcome', houtcome', hinv⟩ | hthrows
    · rw [houtcome] at houtcome'
      cases houtcome'
      exact hinv
    · rw [receive_of_processingThrows hthrows] at houtcome
      cases houtcome
  · obtain ⟨registry, hreplay, hsame⟩ := h.replayed
    obtain ⟨s₀, r, hrun, hstate, hmaps⟩ := receive_runHandlers houtcome
    have hstart : registry.SameMaps s₀.sidRegistry :=
      ⟨hsame.1.trans hmaps.1.symm, hsame.2.trans hmaps.2.symm⟩
    obtain ⟨registry', hevents, hsame'⟩ := hstart.replay hrun
    refine ⟨registry', ?_, ?_⟩
    · rw [replaySids] at hreplay ⊢
      rw [List.foldlM_append, hreplay]
      exact hevents
    · rw [hstate]
      exact hsame'

end

/-- **The SID registry and its journal.**  In every run whose requests meet the condition, the
maps of the registry are inverse to each other, the journal can be replayed, and no handler of
a next message that meets the condition throws. -/
theorem sid_registry_sound [ScanOrder Int] {link : Link} {run : SidRun}
    (h : Reachable (SidRun.receive link) (SidCondition link) SidRun.initial run) :
    run.state.sidRegistry.Inverse ∧ (replaySids run.journal).isSome = true ∧
      ∀ msg, SidCondition link run msg →
        (receive link run.state msg).isSome = true ∨ ProcessingThrows link run.state msg := by
  have hsound : run.Sound := by
    apply h.invariant ⟨.initial, .fresh, rfl, rfl, rfl⟩
    intro run msg run' hrun hok hreceive
    exact hrun.receive hok hreceive
  obtain ⟨registry, hreplay, _⟩ := hsound.replayed
  refine ⟨hsound.inv.inverse, Option.isSome_iff_exists.mpr ⟨registry, hreplay⟩, ?_⟩
  intro msg hok
  rcases hsound.inv.receives hok with ⟨outcome, houtcome, _⟩ | hthrows
  · exact Or.inl (Option.isSome_iff_exists.mpr ⟨outcome, houtcome⟩)
  · exact Or.inr hthrows

/-! ### A subscription that ends twice -/

def subscribeBlah : ResponderMessage :=
  .requestEnvelope requesterA [.subscribe 101 [⟨blah, 1, none⟩]]

def unsubscribeBlah : ResponderMessage := .requestEnvelope requesterA [.unsubscribe 102 [1]]

/-- Subscribed and unsubscribed in two envelopes. -/
theorem sid_registry_sound_subscribe_unsubscribe :
    ∃ run, run.journal = [.saved blah 1, .removed 1] ∧
      run.state.sidRegistry.Inverse ∧ (replaySids run.journal).isSome = true ∧
      ∀ msg, SidCondition linkR run msg →
        (receive linkR run.state msg).isSome = true ∨ ProcessingThrows linkR run.state msg := by
  refine ⟨_, ?_, sid_registry_sound (.next unsubscribeBlah
    (.next subscribeBlah .start ⟨⟨nofun, rfl, nofun⟩, trivial⟩ rfl) ⟨?_, trivial⟩ rfl)⟩
  · rfl
  · show PersistCall.sid (.removed 1) ∉ []
    exact List.not_mem_nil

/-- Unsubscribed twice in one envelope, the SID is removed twice: the second handler throws,
and the journal that holds both events cannot be replayed. -/
theorem sid_handler_throws :
    ∃ run, Reachable (SidRun.receive linkR) AnyStep SidRun.initial run ∧
      receive linkR run.state
        (.requestEnvelope requesterA [.unsubscribe 102 [1], .unsubscribe 103 [1]]) = none ∧
      replaySids (run.journal ++ (envelopeTurn linkR requesterA run.state
        [.unsubscribe 102 [1], .unsubscribe 103 [1]]).pending.filterMap PersistCall.sidEvent)
        = none := by
  refine ⟨_, .next subscribeBlah .start trivial rfl, rfl, rfl⟩

end DsaBroker
