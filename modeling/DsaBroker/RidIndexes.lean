import DsaBroker.ResponderBehavior
import DsaBroker.Runs

/-!
# The three indexes of the RID registry

A call record is kept under its target RID, under its origin if it has one, and under its
path if it has one.  The three maps are updated together; `OneRelation` says that they agree:
what is found by origin or by path is registered, and what is registered is found.

They agree as long as no record is saved under an origin or a path that another record has.
The second record takes the entry over, and the first is no longer found.  This is what
happens to a SUBSCRIBE of several paths: `split` makes one request of each path, and all of
them have the same RID, so their records have the same origin.
-/

namespace DsaBroker

/-! ### One index -/

/-- A record is found in the index just if it has the key and is registered. -/
def Indexes {κ : Type} (key : LookupRecord → Option κ) (index : κ → Option LookupRecord)
    (calls : Int → Option LookupRecord) : Prop :=
  ∀ k record, index k = some record ↔
    key record = some k ∧ calls record.targetId = some record

namespace Indexes

variable {κ : Type} [DecidableEq κ] {key : LookupRecord → Option κ}
  {index index' : κ → Option LookupRecord} {calls calls' : Int → Option LookupRecord}

/-- A record is saved under a key that is not in use. -/
theorem saved (record : LookupRecord) (h : Indexes key index calls)
    (hfree : calls record.targetId = none)
    (hunused : ∀ k ∈ key record, index k = none)
    (hindex : ∀ k, index' k = if key record = some k then some record else index k)
    (hcalls : ∀ t, calls' t = if t = record.targetId then some record else calls t) :
    Indexes key index' calls' := by
  intro k found
  rw [hindex, hcalls]
  by_cases hk : key record = some k
  · rw [if_pos hk]
    constructor
    · rintro ⟨⟩
      exact ⟨hk, if_pos rfl⟩
    · rintro ⟨hkey, hfound⟩
      split at hfound
      · exact hfound
      · have hold : index k = some found := (h k found).mpr ⟨hkey, hfound⟩
        rw [hunused k hk] at hold
        cases hold
  · rw [if_neg hk, h k found]
    constructor
    · rintro ⟨hkey, hfound⟩
      refine ⟨hkey, ?_⟩
      rw [if_neg ?_]
      · exact hfound
      · intro heq
        rw [heq, hfree] at hfound
        cases hfound
    · rintro ⟨hkey, hfound⟩
      split at hfound
      · cases hfound
        exact absurd hkey hk
      · exact ⟨hkey, hfound⟩

/-- If the index still agrees after a save, the key was not in use. -/
theorem unused (record : LookupRecord) (h : Indexes key index calls)
    (h' : Indexes key index' calls')
    (hfree : calls record.targetId = none)
    (hindex : ∀ k, index' k = if key record = some k then some record else index k)
    (hcalls : ∀ t, calls' t = if t = record.targetId then some record else calls t) :
    ∀ k ∈ key record, index k = none := by
  intro k hk
  cases hold : index k with
  | none => rfl
  | some old =>
    obtain ⟨hkey, hregistered⟩ := (h k old).mp hold
    have hne : old.targetId ≠ record.targetId := by
      intro heq
      rw [heq, hfree] at hregistered
      cases hregistered
    have hstill : index' k = some old := by
      apply (h' k old).mpr
      exact ⟨hkey, by rw [hcalls, if_neg hne, hregistered]⟩
    rw [hindex, if_pos (Option.mem_def.mp hk)] at hstill
    cases hstill
    exact absurd rfl hne

/-- A registered record is removed. -/
theorem removed (record : LookupRecord) (h : Indexes key index calls)
    (hregistered : calls record.targetId = some record)
    (hindex : ∀ k, index' k = if key record = some k then none else index k)
    (hcalls : ∀ t, calls' t = if t = record.targetId then none else calls t) :
    Indexes key index' calls' := by
  intro k found
  rw [hindex, hcalls]
  by_cases hk : key record = some k
  · rw [if_pos hk]
    constructor
    · intro hnone
      cases hnone
    · rintro ⟨hkey, hfound⟩
      split at hfound
      · cases hfound
      case isFalse hne =>
        have hone : index k = some found := (h k found).mpr ⟨hkey, hfound⟩
        rw [(h k record).mpr ⟨hk, hregistered⟩] at hone
        cases hone
        exact absurd rfl hne
  · rw [if_neg hk, h k found]
    constructor
    · rintro ⟨hkey, hfound⟩
      refine ⟨hkey, ?_⟩
      rw [if_neg ?_]
      · exact hfound
      · intro heq
        rw [heq, hregistered] at hfound
        cases hfound
        exact hk hkey
    · rintro ⟨hkey, hfound⟩
      split at hfound
      · cases hfound
      · exact ⟨hkey, hfound⟩

end Indexes

/-! ### Calls of the registry -/

inductive RidCall where
  | saveListLookup (path : Str) (tgtId : Int)
  | savePassthroughLookup (method : DSAMethod) (origin : Origin) (tgtId : Int)
  | saveSubscribeLookup (origin : Origin) (tgtId : Int)
  | saveUnsubscribeLookup (origin : Origin) (tgtId : Int)
  | removeLookup (record : LookupRecord)
deriving DecidableEq

/-- The event that a call persists; `none` when the call throws. -/
def RidCall.event : RidCall → Option LookupRidRestoreProcess
  | saveListLookup path tgtId => some (.saved .list none (some path) tgtId)
  | savePassthroughLookup method origin tgtId =>
      if method = .set ∨ method = .invoke ∨ method = .remove then
        some (.saved method (some origin) none tgtId)
      else none
  | saveSubscribeLookup origin tgtId => some (.saved .subscribe (some origin) none tgtId)
  | saveUnsubscribeLookup origin tgtId => some (.saved .unsubscribe (some origin) none tgtId)
  | removeLookup record => some (.removed record)

/-- A call while the link runs, or the event of a call replayed. -/
inductive RidStep where
  | live (call : RidCall)
  | replayed (call : RidCall)
deriving DecidableEq

namespace RidRegistry

/-- The target id of a saved record is not registered, a removed record is. -/
def Registered (r : RidRegistry) : LookupRidRestoreProcess → Prop
  | .saved _ _ _ tgtId => r.callsByTargetId tgtId = none
  | .removed record => r.callsByTargetId record.targetId = some record

instance (r : RidRegistry) : (event : LookupRidRestoreProcess) → Decidable (r.Registered event)
  | .saved .. => inferInstanceAs (Decidable (_ = none))
  | .removed _ => inferInstanceAs (Decidable (_ = _))

def step (r : RidRegistry) : RidStep → Option RidRegistry
  | .live call =>
      call.event.bind fun event => if r.Registered event then some (r.handle event) else none
  | .replayed call =>
      call.event.bind fun event =>
        if r.Registered event then some (r.restoreRidRegistry event) else none

/-- **One relation.**  A record is found by its target id, and by its origin and its path,
or by none of them. -/
structure OneRelation (r : RidRegistry) : Prop where
  targetIds : ∀ t record, r.callsByTargetId t = some record → record.targetId = t
  byOrigin : Indexes LookupRecord.origin r.callsByOrigin r.callsByTargetId
  byPath : Indexes LookupRecord.path r.callsByPath r.callsByTargetId

/-- Neither the origin nor the path of a record to be saved is in use. -/
def Unused (r : RidRegistry) : LookupRidRestoreProcess → Prop
  | .saved _ origin path _ =>
      (∀ o ∈ origin, r.callsByOrigin o = none) ∧ ∀ p ∈ path, r.callsByPath p = none
  | .removed _ => True

/-- The condition on a step. -/
def UnusedBy (r : RidRegistry) : RidStep → Prop
  | .live call | .replayed call => ∀ event ∈ call.event, r.Unused event

instance (r : RidRegistry) : (event : LookupRidRestoreProcess) → Decidable (r.Unused event)
  | .saved .. => inferInstanceAs (Decidable (_ ∧ _))
  | .removed _ => .isTrue trivial

instance (r : RidRegistry) : (s : RidStep) → Decidable (r.UnusedBy s)
  | .live call | .replayed call => inferInstanceAs (Decidable (∀ event ∈ call.event, _))

namespace OneRelation

variable {r : RidRegistry}

theorem fresh : OneRelation .fresh := by
  constructor
  · intro t record hrecord
    cases hrecord
  · intro o record
    constructor
    · rintro ⟨⟩
    · rintro ⟨_, ⟨⟩⟩
  · intro p record
    constructor
    · rintro ⟨⟩
    · rintro ⟨_, ⟨⟩⟩

theorem addLookup (h : r.OneRelation) {method : DSAMethod} {origin : Option Origin}
    {path : Option Str} {tgtId : Int} (hfree : r.callsByTargetId tgtId = none)
    (hunused : r.Unused (.saved method origin path tgtId)) :
    (r.addLookup method origin path tgtId).OneRelation := by
  have hcalls := r.callsByTargetId_addLookup method origin path tgtId
  constructor
  · intro t record hrecord
    rw [hcalls] at hrecord
    split at hrecord
    case isTrue ht =>
      cases hrecord
      exact ht.symm
    case isFalse => exact h.targetIds t record hrecord
  · exact Indexes.saved ⟨method, tgtId, origin, path⟩ h.byOrigin hfree hunused.1
      (r.callsByOrigin_addLookup method origin path tgtId) hcalls
  · exact Indexes.saved ⟨method, tgtId, origin, path⟩ h.byPath hfree hunused.2
      (r.callsByPath_addLookup method origin path tgtId) hcalls

theorem internalRemoveLookup (h : r.OneRelation) {record : LookupRecord}
    (hregistered : r.callsByTargetId record.targetId = some record) :
    (r.internalRemoveLookup record).OneRelation := by
  have hcalls := r.callsByTargetId_internalRemoveLookup record
  constructor
  · intro t found hfound
    rw [hcalls] at hfound
    split at hfound
    · cases hfound
    · exact h.targetIds t found hfound
  · exact Indexes.removed record h.byOrigin hregistered
      (r.callsByOrigin_internalRemoveLookup record) hcalls
  · exact Indexes.removed record h.byPath hregistered
      (r.callsByPath_internalRemoveLookup record) hcalls

/-- **A step keeps the relation just if it meets the condition.** -/
theorem handle_iff (h : r.OneRelation) {event : LookupRidRestoreProcess}
    (hregistered : r.Registered event) : (r.handle event).OneRelation ↔ r.Unused event := by
  rcases event with ⟨method, origin, path, tgtId⟩ | record
  · constructor
    · intro h'
      have hcalls := r.callsByTargetId_addLookup method origin path tgtId
      constructor
      · exact Indexes.unused ⟨method, tgtId, origin, path⟩ h.byOrigin h'.byOrigin hregistered
          (r.callsByOrigin_addLookup method origin path tgtId) hcalls
      · exact Indexes.unused ⟨method, tgtId, origin, path⟩ h.byPath h'.byPath hregistered
          (r.callsByPath_addLookup method origin path tgtId) hcalls
    · intro hunused
      exact h.addLookup hregistered hunused
  · exact ⟨fun _ => trivial, fun _ => h.internalRemoveLookup hregistered⟩

/-- The relation is one of the maps. -/
theorem congr {r' : RidRegistry} (h : r.OneRelation) (hsame : r'.SameMaps r) :
    r'.OneRelation := by
  obtain ⟨htarget, horigin, hpath⟩ := hsame
  constructor
  · rw [htarget]
    exact h.targetIds
  · rw [htarget, horigin]
    exact h.byOrigin
  · rw [htarget, hpath]
    exact h.byPath

end OneRelation

/-- Live or replayed, a step is the handler of its event as far as the maps go. -/
theorem event_of_step {r r' : RidRegistry} {s : RidStep} (h : r.step s = some r') :
    ∃ event, r.Registered event ∧ (r.UnusedBy s ↔ r.Unused event) ∧
      r'.SameMaps (r.handle event) := by
  have hcall : ∀ (call : RidCall) (apply : LookupRidRestoreProcess → RidRegistry),
      (call.event.bind fun event => if r.Registered event then some (apply event) else none)
        = some r' →
      ∃ event, call.event = some event ∧ r.Registered event ∧ r' = apply event := by
    intro call apply hstep
    obtain ⟨event, hevent, hstep⟩ := Option.bind_eq_some_iff.mp hstep
    split at hstep
    case isTrue hregistered =>
      cases hstep
      exact ⟨event, hevent, hregistered, rfl⟩
    case isFalse => cases hstep
  cases s with
  | live call =>
    obtain ⟨event, hevent, hregistered, rfl⟩ := hcall call _ h
    refine ⟨event, hregistered, ?_, rfl, rfl, rfl⟩
    simp only [UnusedBy, hevent, Option.mem_some_iff, forall_eq']
  | replayed call =>
    obtain ⟨event, hevent, hregistered, rfl⟩ := hcall call _ h
    refine ⟨event, hregistered, ?_, SameMaps.restore ⟨rfl, rfl, rfl⟩ event⟩
    simp only [UnusedBy, hevent, Option.mem_some_iff, forall_eq']

theorem SameMaps.symm {r r' : RidRegistry} (h : r.SameMaps r') : r'.SameMaps r :=
  ⟨h.callsByTargetId.symm, h.callsByOrigin.symm, h.callsByPath.symm⟩

theorem OneRelation.step_iff {r r' : RidRegistry} (h : r.OneRelation) {s : RidStep}
    (hstep : r.step s = some r') : r'.OneRelation ↔ r.UnusedBy s := by
  obtain ⟨event, hregistered, hunused, hsame⟩ := event_of_step hstep
  rw [hunused, ← h.handle_iff hregistered]
  exact ⟨fun h' => h'.congr hsame.symm, fun h' => h'.congr hsame⟩

end RidRegistry

/-- **The three indexes are one relation** in every run that saves no record under an origin
or a path that is in use; and a further step keeps them so just if it does not either. -/
theorem rid_indexes_agree {r : RidRegistry}
    (h : Reachable RidRegistry.step RidRegistry.UnusedBy .fresh r) :
    r.OneRelation ∧ ∀ s r', r.step s = some r' → (r'.OneRelation ↔ r.UnusedBy s) := by
  have hone : r.OneRelation := by
    apply h.invariant RidRegistry.OneRelation.fresh
    intro r s r' hr hok hstep
    exact (hr.step_iff hstep).mpr hok
  exact ⟨hone, fun s r' hstep => hone.step_iff hstep⟩

/-! ### One SUBSCRIBE of one path, and of two -/

/-- A LIST and a SUBSCRIBE are saved, the first is removed, and the second replayed. -/
theorem rid_indexes_agree_list_subscribe :
    ∃ r : RidRegistry, r.lookupByOrigin ⟨requesterA, 101⟩
        = some ⟨.subscribe, 2, some ⟨requesterA, 101⟩, none⟩ ∧
      (r.OneRelation ∧ ∀ s r', r.step s = some r' → (r'.OneRelation ↔ r.UnusedBy s)) := by
  have hrun : ∃ r, Reachable RidRegistry.step RidRegistry.UnusedBy .fresh r ∧
      r.lookupByOrigin ⟨requesterA, 101⟩
        = some ⟨.subscribe, 2, some ⟨requesterA, 101⟩, none⟩ :=
    Reachable.exists_of_run
      [.live (.saveListLookup blah 1), .live (.removeLookup ⟨.list, 1, none, some blah⟩),
        .replayed (.saveSubscribeLookup ⟨requesterA, 101⟩ 2)] (by decide +kernel)
  obtain ⟨r, hreached, hfound⟩ := hrun
  exact ⟨r, hfound, rid_indexes_agree hreached⟩

/-- A SUBSCRIBE of two paths, as the requester side sends it. -/
def subscribeTwoPaths : List DSARequest :=
  (DSARequest.subscribe 101 [⟨blah, 1, none⟩, ⟨str "/downstream/R/foo", 2, none⟩]).split

/-- The records of a SUBSCRIBE of two paths have the same origin.  The second takes over the
entry of the first, in the registry itself and in the registry of a link. -/
theorem split_subscribe_loses_index :
    (∃ r : RidRegistry, Reachable RidRegistry.step AnyStep .fresh r ∧ ¬ r.OneRelation) ∧
      ∃ outcome, receive linkR .initial (.requestEnvelope requesterA subscribeTwoPaths)
          = some outcome ∧ ¬ outcome.state.ridRegistry.OneRelation := by
  have hlost : ∀ r : RidRegistry,
      r.lookupByTargetId 1 = some ⟨.subscribe, 1, some ⟨requesterA, 101⟩, none⟩ →
      r.lookupByOrigin ⟨requesterA, 101⟩
        = some ⟨.subscribe, 2, some ⟨requesterA, 101⟩, none⟩ → ¬ r.OneRelation := by
    intro r hfirst hsecond hone
    have hfound : r.callsByOrigin ⟨requesterA, 101⟩
        = some ⟨.subscribe, 1, some ⟨requesterA, 101⟩, none⟩ :=
      (hone.byOrigin _ _).mpr ⟨rfl, hfirst⟩
    cases hsecond.symm.trans hfound
  constructor
  · refine ⟨_, .next (.live (.saveSubscribeLookup ⟨requesterA, 101⟩ 2))
      (.next (.live (.saveSubscribeLookup ⟨requesterA, 101⟩ 1)) .start trivial rfl) trivial rfl, ?_⟩
    exact hlost _ rfl rfl
  · refine ⟨_, rfl, ?_⟩
    exact hlost _ rfl rfl

end DsaBroker
