import DsaBroker.EventStore
import DsaBroker.ResponderRuns

/-!
# Recovery of a responder

A responder journals an event for every persist call, hands its state to `saveSnapshot` in
every persist handler, and is rebuilt from the last stored snapshot and the events journaled
since.  `ResponderLife` is a responder over any number of such generations.

The main part of the state that is handed out is a value built with the responder, from the
registries it starts with.  Recovery from a snapshot puts other registries in their place, and
from then on what is handed out is no longer what the responder works with.  And the event of a
removed origin does not say which binding the origin was removed from.  Where neither of these
matters, recovery finds what was there (`recovery_agrees`).

The events of a message are journaled together, before the first of their handlers runs.  So they
stay when a handler throws, and when the processing of the message throws later on: the responder
fails, and the next thing that happens to it is recovery, from all of these events.
-/

namespace DsaBroker

/-! ### Events and snapshots -/

inductive ResponderEvent where
  | rid (event : LookupRidRestoreProcess)
  | sid (event : LookupSidRestoreProcess)
  | attributeSaved (nodePath name : Str) (value : DSAVal)
  | group (event : GroupCallRegistryRestoreProcess)

/-- The event that a persist call journals. -/
def PersistCall.event : PersistCall → ResponderEvent
  | rid event => .rid event
  | sid event => .sid event
  | saveAttribute nodePath name value => .attributeSaved nodePath name value
  | group call => .group call.event

structure MainResponderBehaviorState where
  ridRegistry : RidRegistry
  sidRegistry : SidRegistry
  attributes : Str → Option DSAMap

structure ResponderBehaviorState where
  main : MainResponderBehaviorState
  listBindings : Bindings
  subsBindings : Bindings

def ResponderState.main (s : ResponderState) : MainResponderBehaviorState :=
  ⟨s.ridRegistry, s.sidRegistry, s.attributes⟩

/-- The record of a snapshot, the routees being as they were: the constructor drops the last
response. -/
def GroupCallRecord.update (record : GroupCallRecord) : GroupCallRecord :=
  { record with lastResponse := none }

/-- `responderRecover` and `simpleResponderRecover` for a snapshot. -/
def ResponderState.offered : Option ResponderBehaviorState → ResponderState
  | none => .initial
  | some snapshot =>
      { ridRegistry := snapshot.main.ridRegistry
        sidRegistry := snapshot.main.sidRegistry
        attributes := snapshot.main.attributes
        listRegistry := snapshot.listBindings.mapValues GroupCallRecord.update
        subsRegistry := snapshot.subsBindings.mapValues GroupCallRecord.update }

/-- `responderRecover` and `simpleResponderRecover` for an event; `none` when it throws. -/
def ResponderState.restore [ScanOrder Int] (s : ResponderState) :
    ResponderEvent → Option ResponderState
  | .rid event => some { s with ridRegistry := s.ridRegistry.restoreRidRegistry event }
  | .sid event =>
      (s.sidRegistry.restoreSidRegistry event).map fun sidRegistry =>
        { s with sidRegistry := sidRegistry }
  | .attributeSaved nodePath name value =>
      some { s with attributes := addAttribute s.attributes nodePath name value }
  | .group event =>
      match event.value with
      | .list => some { s with listRegistry := s.listRegistry.restoreGroupCallRegistry event }
      | .subs => some { s with subsRegistry := s.subsRegistry.restoreGroupCallRegistry event }
      | .default => some s

/-! ### Generations -/

/-- A main state handed to `saveSnapshot`, and the one in use at that moment. -/
structure Handed where
  saved : MainResponderBehaviorState
  used : MainResponderBehaviorState

/-- A responder over its generations. -/
structure ResponderLife where
  live : ResponderState
  /-- the main state built with the responder, once it has been replaced -/
  replaced : Option MainResponderBehaviorState
  store : EventStore ResponderBehaviorState ResponderEvent
  handed : List Handed
  /-- something was thrown: the responder stops here, and handles no message before it has
  recovered -/
  failed : Bool

/-- What happens to a responder: a message, with the persist handlers (by number) whose
snapshot is stored, or stop and recovery. -/
inductive LifeInput where
  | message (msg : ResponderMessage) (stores : Nat → Bool)
  | restart

namespace ResponderLife

def initial : ResponderLife := ⟨.initial, none, .empty, [], false⟩

/-- `mainResponderBehaviorState`: it shares its maps and counters with the registries until
these are replaced. -/
def mainResponderBehaviorState (life : ResponderLife) : MainResponderBehaviorState :=
  life.replaced.getD life.live.main

/-- One persist handler, the event journaled before it and the snapshot taken at its end. -/
def handle (life : ResponderLife) (call : PersistCall) (stores : Bool) :
    Option ResponderLife :=
  (handlePersisted life.live call).map fun r =>
    let after := { life with live := r.1, store := life.store.append call.event }
    let main := after.mainResponderBehaviorState
    { after with
      handed := life.handed ++ [⟨main, r.1.main⟩]
      store :=
        if stores then after.store.save ⟨main, r.1.listRegistry, r.1.subsRegistry⟩
        else after.store }

/-- The responder fails; the persist calls whose handlers have not run are journaled. -/
def fail (life : ResponderLife) (calls : List PersistCall) : ResponderLife :=
  { life with
    store := (calls.map PersistCall.event).foldl EventStore.append life.store
    failed := true }

/-- The persist handlers of a message, up to the first that throws. -/
def handleAll (life : ResponderLife) : List PersistCall → (Nat → Bool) → ResponderLife
  | [], _ => life
  | call :: rest, stores =>
      match life.handle call (stores 0) with
      | some next => next.handleAll rest fun n => stores (n + 1)
      | none => life.fail (call :: rest)

end ResponderLife

section

variable [ScanOrder Int]

/-- The persist calls of a subscribe response before the row whose SID cannot be read. -/
def persistedRows (s : ResponderState) (rsp : DSAResponse) : List PersistCall :=
  let rows := (rsp.updates.getD []).takeWhile fun row => (extractSid row).isSome
  ((Bindings.deliverRows rsp s.subsRegistry rows).map fun delivered =>
    delivered.persisted.map PersistCall.group).getD []

/-- The persist calls of a response message that throws, up to where it does.  A LIST response
persists nothing before its rows are adjusted. -/
def persistedUntil (link : Link) (p : Processing) : List DSAResponse → List PersistCall
  | [] => p.persisted
  | rsp :: rest =>
      match (responseHandler link rsp).run p with
      | (.ok _, p') => persistedUntil link p' rest
      | (.error _, _) => p.persisted ++ if rsp.rid = 0 then persistedRows p.state rsp else []

/-- A message being processed, before its persist handlers run; when the processing throws, the
persist calls that were made before. -/
def processing (link : Link) (s : ResponderState) :
    ResponderMessage → Except (List PersistCall) Processing
  | .requestEnvelope sender requests =>
      .ok (processRequests link sender { state := s } requests).2
  | .responseMessage responses =>
      match (processResponses link responses).run { state := s } with
      | (.ok _, p) => .ok p
      | (.error _, _) => .error (persistedUntil link { state := s } responses)

def recover (store : EventStore ResponderBehaviorState ResponderEvent) :
    Option ResponderState := store.recover ResponderState.offered ResponderState.restore

namespace ResponderLife

/-- A message.  If its processing throws, the state is the one before it, but for last responses
and counters, which no recovery brings back. -/
def receive (link : Link) (life : ResponderLife) (msg : ResponderMessage)
    (stores : Nat → Bool) : ResponderLife :=
  match processing link life.live msg with
  | .ok p => { life with live := p.state }.handleAll p.persisted stores
  | .error calls => life.fail calls

/-- Stops and recovers; a snapshot replaces the registries that the responder starts with.  When
the recovery throws, the responder stays stopped. -/
def restart (life : ResponderLife) : Option ResponderLife :=
  (recover life.store).map fun s =>
    { life with
      live := s
      replaced := life.store.snapshot.map fun _ => ResponderState.initial.main
      failed := false }

def step (link : Link) (life : ResponderLife) : LifeInput → Option ResponderLife
  | .message msg stores => if life.failed then none else some (life.receive link msg stores)
  | .restart => life.restart

end ResponderLife

end

/-! ### Agreement -/

def Bindings.SameOrigins (b b' : Bindings) : Prop :=
  ∀ t o, o ∈ b.getOrigins t ↔ o ∈ b'.getOrigins t

/-- The same maps, attributes, and origins of every target id. -/
structure ResponderState.Agrees (s live : ResponderState) : Prop where
  rids : s.ridRegistry.SameMaps live.ridRegistry
  sids : s.sidRegistry.SameMaps live.sidRegistry
  attributes : s.attributes = live.attributes
  listOrigins : s.listRegistry.SameOrigins live.listRegistry
  subsOrigins : s.subsRegistry.SameOrigins live.subsRegistry

/-- Recovery comes through and agrees with the live state; and every main state handed to
`saveSnapshot` was the one in use. -/
structure ResponderLife.Sound [ScanOrder Int] (life : ResponderLife) : Prop where
  recovers : life.store.Recoverable ResponderState.offered ResponderState.restore
    ResponderState.Agrees life.live
  handed : ∀ h ∈ life.handed, h.saved = h.used

/-! ### The condition -/

/-- No other binding holds the origin. -/
def Bindings.BindsOnly (b : Bindings) (origin : Origin) (targetId : Int) : Prop :=
  ∀ t, origin ∈ b.getOrigins t → t = targetId

/-- The binding holds no other origin. -/
def Bindings.HoldsOnly (b : Bindings) (targetId : Int) (origin : Origin) : Prop :=
  ∀ o ∈ b.getOrigins targetId, o = origin

section

variable [ScanOrder Int]

/-- When an origin is removed, no other binding holds it; and if it was taken for the last
origin of its binding, it is. -/
def RemovalUndisturbed (link : Link) (sender : Routee) (t : EnvelopeTurn)
    (request : DSARequest) : Prop :=
  ∀ origin regTypeVal targetId theLastOne,
    PersistCall.group (.removeOrigin origin regTypeVal targetId theLastOne) ∈
      (t.action link sender request).effects t.present.nextRid t.present.nextSid →
    (t.settled.bindings regTypeVal).BindsOnly origin targetId ∧
      (theLastOne = true → (t.settled.bindings regTypeVal).HoldsOnly targetId origin)

/-- No persist handler of the message throws; and if its processing does, nothing had been
persisted. -/
def ResponderLife.ComesThrough (link : Link) (life : ResponderLife) (msg : ResponderMessage) :
    Prop :=
  match processing link life.live msg with
  | .ok p => (runHandlers p.state p.persisted).isSome = true
  | .error calls => calls = []

def RecoveryCondition (link : Link) (life : ResponderLife) : LifeInput → Prop
  | .message msg _ =>
      life.ComesThrough link msg ∧
      (life.replaced.isSome = true → ∀ p, processing link life.live msg = .ok p →
        p.persisted = []) ∧
      match msg with
      | .requestEnvelope sender requests =>
          Along (EnvelopeTurn.take link sender) (RemovalUndisturbed link sender)
            { present := life.live } requests
      | .responseMessage _ => True
  | .restart => True

end

/-! ### Origins -/

namespace Bindings

variable {b b' : Bindings}

theorem SameOrigins.refl (b : Bindings) : b.SameOrigins b := fun _ _ => Iff.rfl

theorem SameOrigins.addOrigin (h : b.SameOrigins b') (targetId : Int) (origin : Origin) :
    (b.internalAddOrigin targetId origin).SameOrigins (b'.internalAddOrigin targetId origin) := by
  intro t o
  rw [mem_getOrigins_internalAddOrigin, mem_getOrigins_internalAddOrigin, h t o]

theorem SameOrigins.remove (h : b.SameOrigins b') (targetId : Int) :
    (b.internalRemove targetId).SameOrigins (b'.internalRemove targetId) := by
  intro t o
  rw [mem_getOrigins_internalRemove, mem_getOrigins_internalRemove, h t o]

theorem SameOrigins.update (b : Bindings) :
    SameOrigins (b.mapValues GroupCallRecord.update) b := by
  intro t o
  simp only [getOrigins, ScanMap.get_mapValues]
  cases b.get t <;> rfl

/-- The origin is removed from the binding that a scan finds. -/
theorem mem_getOrigins_internalRemoveOrigin_iff [ScanOrder Int] {origin : Origin} (t : Int)
    (o : Origin) :
    o ∈ (b.internalRemoveOrigin origin).getOrigins t ↔
      o ∈ b.getOrigins t ∧ ¬ (b.lookupTargetId origin = some t ∧ o = origin) := by
  unfold internalRemoveOrigin
  cases hfound : b.lookupTargetId origin with
  | none => simp
  | some found =>
    have hremoved : o ∈ (b.removeFrom found origin).getOrigins t ↔
        o ∈ b.getOrigins t ∧ ¬ (some found = some t ∧ o = origin) := by
      rw [mem_getOrigins_removeFrom, Option.some.injEq, eq_comm (a := t)]
    simp only
    split
    case isTrue hempty =>
      rw [mem_getOrigins_internalRemove, hremoved]
      refine ⟨And.left, fun ho => ⟨ho, ?_⟩⟩
      rintro rfl
      have hleft := hremoved.mpr ho
      rw [hempty] at hleft
      cases hleft
    case isFalse => exact hremoved

/-- What is left of the origins when one is removed of which it is known where it is. -/
theorem mem_getOrigins_internalRemoveOrigin [ScanOrder Int] {origin : Origin} {targetId : Int}
    (honly : b.BindsOnly origin targetId) (t : Int) (o : Origin) :
    o ∈ (b.internalRemoveOrigin origin).getOrigins t ↔
      o ∈ b.getOrigins t ∧ ¬ (t = targetId ∧ o = origin) := by
  rw [mem_getOrigins_internalRemoveOrigin_iff]
  apply and_congr_right
  intro ho
  apply not_congr
  apply and_congr_left
  rintro rfl
  -- where it is, a scan finds it
  have hwhere := honly t ho
  cases hfound : b.lookupTargetId o with
  | none =>
    obtain ⟨record, hrecord, horigin⟩ := mem_getOrigins.mp ho
    exact absurd horigin (of_decide_eq_false (ScanMap.find_eq_none.mp hfound t record hrecord))
  | some found =>
    obtain ⟨record, hrecord, horigin⟩ := ScanMap.get_of_find_eq_some hfound
    have hheld := mem_getOrigins.mpr ⟨record, hrecord, of_decide_eq_true horigin⟩
    rw [hwhere, honly found hheld]
    exact iff_of_true rfl rfl

/-- Replay removes the origin from the binding it was removed from. -/
theorem SameOrigins.removeOrigin [ScanOrder Int] (h : b.SameOrigins b') {origin : Origin}
    {regTypeVal : RegistryType} {targetId : Int} {theLastOne : Bool}
    (honly : b'.BindsOnly origin targetId)
    (hlast : theLastOne = true → b'.HoldsOnly targetId origin) :
    (b.internalRemoveOrigin origin).SameOrigins
      (GroupCallPersist.applied b' (.removeOrigin origin regTypeVal targetId theLastOne)) := by
  have honlyHere : b.BindsOnly origin targetId := fun t ht => honly t ((h t origin).mp ht)
  intro t o
  rw [mem_getOrigins_internalRemoveOrigin honlyHere, h t o]
  cases theLastOne with
  | false => exact mem_getOrigins_removeFrom.symm
  | true =>
    simp only [GroupCallPersist.applied, if_true, mem_getOrigins_internalRemove,
      mem_getOrigins_removeFrom]
    refine ⟨fun ho => ⟨ho, ?_⟩, And.left⟩
    rintro rfl
    exact ho.2 ⟨rfl, hlast rfl o ho.1⟩

end Bindings

namespace ResponderState.Agrees

theorem refl (s : ResponderState) : s.Agrees s :=
  ⟨⟨rfl, rfl, rfl⟩, ⟨rfl, rfl⟩, rfl, .refl _, .refl _⟩

theorem trans {s live live' : ResponderState} (h : s.Agrees live) (h' : live.Agrees live') :
    s.Agrees live' where
  rids := ⟨h.rids.callsByTargetId.trans h'.rids.callsByTargetId,
    h.rids.callsByOrigin.trans h'.rids.callsByOrigin,
    h.rids.callsByPath.trans h'.rids.callsByPath⟩
  sids := ⟨h.sids.1.trans h'.sids.1, h.sids.2.trans h'.sids.2⟩
  attributes := h.attributes.trans h'.attributes
  listOrigins t o := (h.listOrigins t o).trans (h'.listOrigins t o)
  subsOrigins t o := (h.subsOrigins t o).trans (h'.subsOrigins t o)

/-- A snapshot of the main state and the bindings in use agrees with them. -/
theorem offered (s : ResponderState) :
    Agrees (.offered (some ⟨s.main, s.listRegistry, s.subsRegistry⟩)) s :=
  ⟨⟨rfl, rfl, rfl⟩, ⟨rfl, rfl⟩, rfl, .update _, .update _⟩

end ResponderState.Agrees

/-! ### Calls whose events say enough -/

/-- What makes the event of a persist call say enough. -/
def PersistCall.Restorable (s : ResponderState) : PersistCall → Prop
  | .group (.removeOrigin origin regTypeVal targetId theLastOne) =>
      regTypeVal ≠ .default ∧ (s.bindings regTypeVal).BindsOnly origin targetId ∧
        (theLastOne = true → (s.bindings regTypeVal).HoldsOnly targetId origin)
  | .group call => call.regTypeVal ≠ .default
  | _ => True

/-- Each call of a list can be replayed from its event alone, in the state that the calls before it
leave. -/
def AllRestorable (s : ResponderState) (calls : List PersistCall) : Prop :=
  Along PersistCall.applied (fun s call => call.Restorable s) s calls

theorem restorable_advance (issues : Bool × Bool) (s : ResponderState) (call : PersistCall) :
    call.Restorable (s.advance issues) ↔ call.Restorable s := by
  rcases call with _ | _ | _ | (_ | _ | _)
  case group.removeOrigin => simp only [PersistCall.Restorable, bindings_advance]
  all_goals rfl

theorem allRestorable_advance (issues : Bool × Bool) (s : ResponderState)
    (calls : List PersistCall) :
    AllRestorable (s.advance issues) calls ↔ AllRestorable s calls := by
  unfold AllRestorable
  induction calls generalizing s with
  | nil => rfl
  | cons call rest ih => simp only [Along, restorable_advance, applied_advance, ih]

/-- The effects of a request are restorable, if its removal is. -/
theorem Action.restorable {a : Action} {s : ResponderState} {rid sid : Int}
    (hremoved : ∀ origin regTypeVal targetId theLastOne,
      PersistCall.group (.removeOrigin origin regTypeVal targetId theLastOne) ∈ a.effects rid sid →
      (s.bindings regTypeVal).BindsOnly origin targetId ∧
        (theLastOne = true → (s.bindings regTypeVal).HoldsOnly targetId origin)) :
    AllRestorable s (a.effects rid sid) := by
  cases a with
  | nothing => exact trivial
  | answer srcRid => exact trivial
  | closeCall targetId => exact trivial
  | saveAttribute srcRid nodePath name value => exact ⟨trivial, trivial⟩
  | passthrough method origin forward => exact ⟨trivial, trivial⟩
  | listNew path origin tgtPath => exact ⟨trivial, nofun, trivial⟩
  | listKnown targetId origin tgtPath => exact ⟨nofun, trivial⟩
  | subscribeNew ridOrigin sidOrigin srcPath tgtPath =>
    exact ⟨trivial, trivial, nofun, trivial⟩
  | subscribeKnown tgtSid sidOrigin srcPath tgtPath => exact ⟨nofun, trivial⟩
  | unsubscribeLast ridOrigin sidOrigin targetSid =>
    refine ⟨⟨nofun, hremoved _ _ _ _ List.mem_cons_self⟩, trivial, trivial, trivial⟩
  | unsubscribeOther srcRid sidOrigin targetSid =>
    exact ⟨⟨nofun, hremoved _ _ _ _ List.mem_cons_self⟩, trivial⟩
  | closeListLast origin targetId record =>
    refine ⟨⟨nofun, hremoved _ _ _ _ List.mem_cons_self⟩, ?_⟩
    cases record with
    | none => exact trivial
    | some record => exact ⟨trivial, trivial⟩
  | closeListOther origin targetId =>
    exact ⟨⟨nofun, hremoved _ _ _ _ List.mem_cons_self⟩, trivial⟩

/-! ### Responses -/

/-- A response changes last responses and, for what is not bound yet, the keys of a table. -/
theorem Responds.agrees {link : Link} {p p' : Processing} {rsp : DSAResponse}
    {results : List (Routee × DSAResponse)} (h : Responds link p rsp results p') :
    p.state.Agrees p'.state := by
  obtain ⟨hrids, hsids, hattributes, hlist, hsubs⟩ := ResponderState.Agrees.refl p.state
  cases h with
  | subscribe hrid hdelivered =>
    refine ⟨hrids, hsids, hattributes, hlist, ?_⟩
    intro t o
    rw [(Bindings.bound_deliverRows hdelivered t).2]
  | list hrid hrecord hlistCall hrows hdelivered =>
    subst hdelivered
    refine ⟨hrids, hsids, hattributes, ?_, hsubs⟩
    intro t o
    rw [Bindings.deliverListResponse, Bindings.getOrigins_put_setLastResponse]
  | call hrid hrecord hcall horigin => exact ⟨hrids, hsids, hattributes, hlist, hsubs⟩
  | unknown hrid hnone => exact ⟨hrids, hsids, hattributes, hlist, hsubs⟩

/-- The persist calls of a response say enough. -/
theorem Responds.restorable {link : Link} {p p' : Processing} {rsp : DSAResponse}
    {results : List (Routee × DSAResponse)} (h : Responds link p rsp results p')
    (hp : ∀ call ∈ p.persisted, ∀ s, call.Restorable s) :
    ∀ call ∈ p'.persisted, ∀ s, call.Restorable s := by
  intro call hcall s
  cases h with
  | subscribe hrid hdelivered =>
    rcases List.mem_append.mp hcall with hold | hnew
    · exact hp call hold s
    · obtain ⟨groupCall, hgroup, rfl⟩ := List.mem_map.mp hnew
      obtain ⟨_, row, _, sid, _, rfl⟩ :=
        (Bindings.mem_persisted_deliverRows hdelivered groupCall).mp hgroup
      exact RegistryType.noConfusion
  | list hrid hrecord hlistCall hrows hdelivered =>
    subst hdelivered
    rcases List.mem_append.mp hcall with hold | hnew
    · exact hp call hold s
    · obtain ⟨groupCall, hgroup, rfl⟩ := List.mem_map.mp hnew
      simp only [Bindings.deliverListResponse] at hgroup
      split at hgroup
      · rw [List.mem_singleton.mp hgroup]
        exact RegistryType.noConfusion
      · cases hgroup
  | call hrid hrecord hcallRecord horigin =>
    rcases List.mem_append.mp hcall with hold | hnew
    · exact hp call hold s
    · split at hnew
      · rw [List.mem_singleton.mp hnew]
        exact trivial
      · cases hnew
  | unknown hrid hnone => exact hp call hcall s

theorem allRestorable_of_forall {calls : List PersistCall} (s : ResponderState)
    (hcalls : ∀ call ∈ calls, ∀ s, call.Restorable s) :
    AllRestorable s calls := by
  induction calls generalizing s with
  | nil => exact trivial
  | cons call rest ih =>
    rw [List.forall_mem_cons] at hcalls
    exact ⟨hcalls.1 s, ih _ hcalls.2⟩

/-! ### Replay of an event -/

section

variable [ScanOrder Int]

/-- Replay of a group event changes the origins as its handler has. -/
theorem Bindings.SameOrigins.restore {b b' : Bindings} (h : b.SameOrigins b')
    {call : GroupCallPersist}
    (hremoved : ∀ origin regTypeVal targetId theLastOne,
      call = .removeOrigin origin regTypeVal targetId theLastOne →
      b'.BindsOnly origin targetId ∧ (theLastOne = true → b'.HoldsOnly targetId origin)) :
    (b.restoreGroupCallRegistry call.event).SameOrigins (call.applied b') := by
  cases call with
  | addOrigin targetId origin regTypeVal => exact h.addOrigin targetId origin
  | remove targetId regTypeVal => exact h.remove targetId
  | removeOrigin origin regTypeVal targetId theLastOne =>
    obtain ⟨honly, hlast⟩ := hremoved origin regTypeVal targetId theLastOne rfl
    exact h.removeOrigin honly hlast

/-- **Replay of an event does what its handler has done**, provided the event says enough: the
removal of an origin must name the only binding that holds it. -/
theorem ResponderState.Agrees.restore {s live : ResponderState} (h : s.Agrees live)
    {call : PersistCall} {r : ResponderState × List Delivery}
    (hcall : call.Restorable live) (hlive : handlePersisted live call = some r) :
    ∃ s', s.restore call.event = some s' ∧ s'.Agrees r.1 := by
  obtain ⟨hrids, hsids, hattributes, hlist, hsubs⟩ := h
  cases call with
  | rid event =>
    cases hlive
    exact ⟨_, rfl, hrids.restore event, hsids, hattributes, hlist, hsubs⟩
  | sid event =>
    obtain ⟨sidRegistry, hhandle, rfl⟩ := Option.map_eq_some_iff.mp hlive
    obtain ⟨restored, hrestored, hsame⟩ := hsids.restore hhandle
    refine ⟨_, Option.map_eq_some_iff.mpr ⟨restored, hrestored, rfl⟩, ?_⟩
    exact ⟨hrids, hsame, hattributes, hlist, hsubs⟩
  | saveAttribute nodePath name value =>
    cases hlive
    refine ⟨_, rfl, hrids, hsids, ?_, hlist, hsubs⟩
    rw [hattributes]
  | group call =>
    -- no target id in the event of a removal: replay must find the binding that the handler had
    rw [applied_of_handlePersisted hlive]
    have hremoved : ∀ origin regTypeVal targetId theLastOne,
        call = .removeOrigin origin regTypeVal targetId theLastOne →
        (live.bindings call.regTypeVal).BindsOnly origin targetId ∧
          (theLastOne = true → (live.bindings call.regTypeVal).HoldsOnly targetId origin) := by
      rintro origin regTypeVal targetId theLastOne rfl
      exact hcall.2
    have hvalue : call.event.value = call.regTypeVal := by cases call <;> rfl
    simp only [ResponderState.restore, PersistCall.event, PersistCall.applied, hvalue]
    cases hreg : call.regTypeVal with
    | list =>
      rw [hreg] at hremoved
      exact ⟨_, rfl, hrids, hsids, hattributes, hlist.restore hremoved, hsubs⟩
    | subs =>
      rw [hreg] at hremoved
      exact ⟨_, rfl, hrids, hsids, hattributes, hlist, hsubs.restore hremoved⟩
    | default =>
      cases call with
      | addOrigin => exact absurd hreg hcall
      | removeOrigin => exact absurd hreg hcall.1
      | remove => exact absurd hreg hcall

/-! ### Persist handlers -/

/-- A handler whose event says enough, while the main state is shared with the registries. -/
theorem ResponderLife.Sound.handle {life life' : ResponderLife} (h : life.Sound)
    (hshared : life.replaced = none) {call : PersistCall} {stores : Bool}
    (hcall : call.Restorable life.live) (hhandle : life.handle call stores = some life') :
    life'.Sound ∧ life'.replaced = none ∧ life'.live = call.applied life.live := by
  obtain ⟨r, hr, rfl⟩ := Option.map_eq_some_iff.mp hhandle
  have hmain : ∀ live store handed,
      (⟨live, life.replaced, store, handed, life.failed⟩ :
        ResponderLife).mainResponderBehaviorState = live.main := by
    intro live store handed
    rw [mainResponderBehaviorState, hshared]
    rfl
  refine ⟨⟨?_, ?_⟩, hshared, applied_of_handlePersisted hr⟩
  · simp only [hmain]
    cases stores with
    | false => exact h.recovers.append fun s hs => hs.restore hcall hr
    | true => exact EventStore.recoverable_save (life.store.append call.event) (.offered r.1)
  · intro handed hmem
    simp only [hmain] at hmem
    rcases List.mem_append.mp hmem with hold | hnew
    · exact h.handed handed hold
    · rw [List.mem_singleton.mp hnew]

/-- The handlers of a message, none of which throws. -/
theorem ResponderLife.Sound.handleAll {life : ResponderLife} (h : life.Sound)
    (hshared : life.replaced = none) {calls : List PersistCall} {stores : Nat → Bool}
    (hcalls : AllRestorable life.live calls)
    (hthrough : (runHandlers life.live calls).isSome = true) :
    (life.handleAll calls stores).Sound := by
  induction calls generalizing life stores with
  | nil => exact h
  | cons call rest ih =>
    obtain ⟨hcall, hrest⟩ := hcalls
    obtain ⟨final, hfinal⟩ := Option.isSome_iff_exists.mp hthrough
    obtain ⟨first, hfirst, hlater⟩ := Option.bind_eq_some_iff.mp hfinal
    obtain ⟨later, hlater, -⟩ := Option.map_eq_some_iff.mp hlater
    -- a handler that does not throw takes the responder on by one step
    obtain ⟨next, hnext⟩ : ∃ next, life.handle call (stores 0) = some next :=
      ⟨_, Option.map_eq_some_iff.mpr ⟨first, hfirst, rfl⟩⟩
    obtain ⟨hsound, hstill, hlive⟩ := h.handle hshared hcall hnext
    rw [ResponderLife.handleAll, hnext]
    have hstate : next.live = first.1 := hlive.trans (applied_of_handlePersisted hfirst).symm
    apply ih hsound hstill
    · rw [hlive]
      exact hrest
    · rw [hstate, hlater]
      rfl

/-! ### Requests -/

/-- The handlers of an envelope whose removals are undisturbed. -/
theorem allRestorable_envelope {link : Link} {sender : Routee} {s : ResponderState}
    {requests : List DSARequest}
    (hok : Along (EnvelopeTurn.take link sender) (RemovalUndisturbed link sender)
      { present := s } requests) :
    AllRestorable (envelopeTurn link sender s requests).present
      (envelopeTurn link sender s requests).pending := by
  have hstep : ∀ (t : EnvelopeTurn) request, AllRestorable t.present t.pending →
      RemovalUndisturbed link sender t request →
      AllRestorable (t.take link sender request).present
        (t.take link sender request).pending := by
    intro t request ht hundisturbed
    have htake : (t.take link sender request).pending = t.pending ++
        (t.action link sender request).effects t.present.nextRid t.present.nextSid := rfl
    have hpresent : (t.take link sender request).present
        = t.present.advance (t.action link sender request).issues := rfl
    rw [htake, hpresent, allRestorable_advance, AllRestorable, along_append]
    exact ⟨ht, Action.restorable hundisturbed⟩
  exact Along.invariant hstep trivial hok

/-! ### Messages -/

/-- Before its handlers run, a message changes nothing that recovery is to bring back; and the
events of its persist calls say enough. -/
theorem processing_agrees {link : Link} {life : ResponderLife} {msg : ResponderMessage}
    {stores : Nat → Bool} {p : Processing} (hok : RecoveryCondition link life (.message msg stores))
    (h : processing link life.live msg = .ok p) :
    life.live.Agrees p.state ∧
      AllRestorable p.state p.persisted := by
  obtain ⟨-, -, hundisturbed⟩ := hok
  cases msg with
  | requestEnvelope sender requests =>
    obtain rfl := Except.ok.inj h
    obtain ⟨_, hfold⟩ := processRequests_eq link sender requests { state := life.live } [] []
    have hturn : envelopeTurn link sender life.live requests = _ := hfold
    have hrestorable := allRestorable_envelope hundisturbed
    obtain ⟨rids, sids, hpresent⟩ := envelopeTurn_present link sender life.live requests
    rw [hturn] at hrestorable hpresent
    refine ⟨?_, hrestorable⟩
    have hstate : (processRequests link sender { state := life.live } requests).2.state
        = life.live.withCounters rids sids := hpresent
    rw [hstate]
    exact ⟨⟨rfl, rfl, rfl⟩, ⟨rfl, rfl⟩, rfl, .refl _, .refl _⟩
  | responseMessage responses =>
    rw [processing] at h
    split at h
    case h_1 results p₁ hrun =>
      obtain rfl := Except.ok.inj h
      have hstart : ∀ call ∈ ([] : List PersistCall), ∀ s, call.Restorable s := by
        intro call hcall
        cases hcall
      obtain ⟨hagrees, hrestorable⟩ := processResponses_invariant
        (fun _ p _ => life.live.Agrees p.state ∧ ∀ call ∈ p.persisted, ∀ s, call.Restorable s)
        (fun _ _ _ _ _ _ _ hp hresponds =>
          ⟨hp.1.trans hresponds.agrees, hresponds.restorable hp.2⟩)
        ⟨.refl _, hstart⟩ hrun
      exact ⟨hagrees, allRestorable_of_forall _ hrestorable⟩
    case h_2 => cases h

/-! ### Runs -/

/-- **One step** of a life that meets the condition: the snapshot with the journal replayed on it
stays in agreement with the live state, through messages, snapshots and crashes. -/
theorem ResponderLife.Sound.step {link : Link} {life life' : ResponderLife} (h : life.Sound)
    {input : LifeInput} (hok : RecoveryCondition link life input)
    (hstep : life.step link input = some life') : life'.Sound := by
  cases input with
  | restart =>
    obtain ⟨s, hrecover, rfl⟩ := Option.map_eq_some_iff.mp hstep
    exact ⟨⟨s, hrecover, .refl s⟩, h.handed⟩
  | message msg stores =>
    obtain ⟨hthrough, hreplaced, -⟩ := id hok
    simp only [ResponderLife.step] at hstep
    split_ifs at hstep
    obtain rfl := Option.some.inj hstep
    rw [ResponderLife.ComesThrough] at hthrough
    rw [ResponderLife.receive]
    rcases hp : processing link life.live msg with calls | p
    · -- the processing throws, and nothing has been journaled
      rw [hp] at hthrough
      obtain rfl : calls = [] := hthrough
      exact ⟨h.recovers, h.handed⟩
    · rw [hp] at hthrough
      obtain ⟨hagrees, hrestorable⟩ := processing_agrees hok hp
      have hprocessed : ResponderLife.Sound { life with live := p.state } :=
        ⟨h.recovers.congr fun s hs => hs.trans hagrees, h.handed⟩
      show ResponderLife.Sound (ResponderLife.handleAll { life with live := p.state }
        p.persisted stores)
      by_cases hmain : life.replaced = none
      · exact hprocessed.handleAll hmain hrestorable hthrough
      · -- the main state is no longer shared, so the message may persist nothing
        rw [hreplaced (Option.isSome_iff_ne_none.mpr hmain) p hp]
        exact hprocessed

end

/-- **Recovery brings back what was there.**  In every run whose steps meet the condition,
recovery comes through, and finds the records, the attributes and the origins of every target
id that the responder is using; and every main state handed to `saveSnapshot` was the one in
use. -/
theorem recovery_agrees [ScanOrder Int] {link : Link} {life : ResponderLife}
    (h : Reachable (ResponderLife.step link) (RecoveryCondition link) .initial life) :
    (∃ s, recover life.store = some s ∧ s.Agrees life.live) ∧
      ∀ handed ∈ life.handed, handed.saved = handed.used := by
  have hsound : life.Sound := by
    refine h.invariant ⟨⟨.initial, rfl, .refl _⟩, ?_⟩ ?_
    · intro handed hmem
      cases hmem
    · intro life input life' hlife hok hstep
      exact hlife.step hok hstep
  exact ⟨hsound.recovers, hsound.handed⟩

/-! ### Snapshots in the first and in the second generation -/

def setBlah (rid : Int) : ResponderMessage :=
  .requestEnvelope requesterA [.set rid blah .null none]

/-- A call, a snapshot and a restart. -/
theorem recovery_agrees_snapshot :
    ∃ life : ResponderLife, life.store.snapshot.isSome = true ∧ life.handed.length = 1 ∧
      (∃ s, recover life.store = some s ∧ s.Agrees life.live) ∧
      ∀ handed ∈ life.handed, handed.saved = handed.used := by
  have hok : RecoveryCondition linkR .initial (.message (setBlah 101) fun _ => true) := by
    refine ⟨rfl, ?_, ?_, trivial⟩
    · intro hreplaced
      cases hreplaced
    · intro origin regTypeVal targetId theLastOne hmem
      cases List.mem_singleton.mp hmem
  exact ⟨_, rfl, rfl, recovery_agrees
    (.next .restart (.next (.message (setBlah 101) fun _ => true) .start hok rfl) trivial rfl)⟩

/-- The last subscriber of a path is unsubscribed twice in one envelope: the second handler throws,
its event is journaled, and the responder does not come back. -/
example : ∃ life : ResponderLife,
    Reachable (ResponderLife.step linkR) AnyStep .initial life ∧
      life.failed = true ∧ life.restart.isNone = true :=
  Reachable.exists_of_run
    [.message (.requestEnvelope requesterA [.subscribe 1 [⟨blah, 1, none⟩]]) fun _ => false,
      .message (.requestEnvelope requesterA [.unsubscribe 2 [1], .unsubscribe 3 [1]])
        fun _ => false]
    (by decide +kernel)

/-- A call and a snapshot in each of two generations: the second snapshot holds the registries
that recovery from the first has replaced, and the first call is lost. -/
theorem second_snapshot_forgets :
    ∃ life : ResponderLife, Reachable (ResponderLife.step linkR) AnyStep .initial life ∧
      life.live.ridRegistry.callsByTargetId 1
        = some ⟨.set, 1, some ⟨requesterA, 101⟩, none⟩ ∧
      (recover life.store).map (fun s => s.ridRegistry.callsByTargetId 1) = some none ∧
      ∃ handed ∈ life.handed, handed.saved.ridRegistry.callsByTargetId 1 = none ∧
        handed.used.ridRegistry.callsByTargetId 1
          = some ⟨.set, 1, some ⟨requesterA, 101⟩, none⟩ := by
  refine ⟨_, .next (.message (setBlah 102) fun _ => true)
    (.next .restart (.next (.message (setBlah 101) fun _ => true) .start trivial rfl)
      trivial rfl) trivial rfl, rfl, rfl, ?_⟩
  exact ⟨_, List.mem_cons_of_mem _ List.mem_cons_self, rfl, rfl⟩

end DsaBroker
