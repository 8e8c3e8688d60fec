import DsaBroker.ResponderRuns

/-!
# The records of the RID registry

What the registry of calls keeps as long as target RIDs are not reused: every record is found
under its own target RID, a LIST record has a path, and the path leads to it (`RidInv`).
-/

namespace DsaBroker

/-- A LIST record is registered under the target id. -/
def RidRegistry.ListRegistered (r : RidRegistry) (targetId : Int) : Prop :=
  ∃ record, r.callsByTargetId targetId = some record ∧ record.method = .list

theorem RidRegistry.listRegistered_addLookup (r : RidRegistry) (method : DSAMethod)
    (origin : Option Origin) (path : Option Str) (rid t : Int) :
    (r.addLookup method origin path rid).ListRegistered t ↔
      if t = rid then method = .list else r.ListRegistered t := by
  simp only [ListRegistered, callsByTargetId_addLookup]
  by_cases ht : t = rid <;> simp [ht]

theorem RidRegistry.listRegistered_internalRemoveLookup (r : RidRegistry)
    (record : LookupRecord) (t : Int) :
    (r.internalRemoveLookup record).ListRegistered t ↔
      r.ListRegistered t ∧ t ≠ record.targetId := by
  simp only [ListRegistered, callsByTargetId_internalRemoveLookup]
  by_cases ht : t = record.targetId <;> simp [ht]

structure RidInv (r : RidRegistry) : Prop where
  targetIds : ∀ t record, r.callsByTargetId t = some record → record.targetId = t
  lists : ∀ t record, r.callsByTargetId t = some record → record.method = .list →
    ∃ path, record.path = some path
  byPath : ∀ path record, r.callsByPath path = some record →
    record.method = .list ∧ record.path = some path ∧
      r.callsByTargetId record.targetId = some record

namespace RidInv

variable {r : RidRegistry}

theorem fresh : RidInv .fresh := by
  constructor
  · intro t record hrecord
    cases hrecord
  · intro t record hrecord
    cases hrecord
  · intro path record hrecord
    cases hrecord

/-- A call is registered; only LIST calls have a path. -/
theorem addLookup (h : RidInv r) {rid : Int} (hnot : ¬ r.ListRegistered rid)
    {method : DSAMethod} {origin : Option Origin} {path : Option Str}
    (hlist : method = .list ↔ ∃ p, path = some p) :
    RidInv (r.addLookup method origin path rid) := by
  constructor
  · intro t record hrecord
    rw [RidRegistry.callsByTargetId_addLookup] at hrecord
    split at hrecord
    case isTrue ht =>
      cases hrecord
      exact ht.symm
    case isFalse => exact h.targetIds t record hrecord
  · intro t record hrecord hmethod
    rw [RidRegistry.callsByTargetId_addLookup] at hrecord
    split at hrecord
    · cases hrecord
      exact hlist.mp hmethod
    · exact h.lists t record hrecord hmethod
  · intro p record hrecord
    rw [RidRegistry.callsByPath_addLookup] at hrecord
    split at hrecord
    case isTrue hp =>
      cases hrecord
      refine ⟨hlist.mpr ⟨p, hp⟩, hp, ?_⟩
      rw [RidRegistry.callsByTargetId_addLookup, if_pos rfl]
    case isFalse =>
      obtain ⟨hmethod, hpath, htarget⟩ := h.byPath p record hrecord
      refine ⟨hmethod, hpath, ?_⟩
      rw [RidRegistry.callsByTargetId_addLookup, if_neg ?_]
      · exact htarget
      · rintro rfl
        exact hnot ⟨record, htarget, hmethod⟩

theorem callsByTargetId_of_removed {record found : LookupRecord} {t : Int}
    (h : (r.internalRemoveLookup record).callsByTargetId t = some found) :
    r.callsByTargetId t = some found ∧ t ≠ record.targetId := by
  rw [RidRegistry.callsByTargetId_internalRemoveLookup] at h
  split at h
  · cases h
  case isFalse hne => exact ⟨h, hne⟩

/-- A call is removed, if it is still the one registered under its target RID. -/
theorem removeCall (h : RidInv r) {record : LookupRecord}
    (hcurrent : ∀ found, r.callsByTargetId record.targetId = some found → found = record) :
    RidInv (r.internalRemoveLookup record) := by
  constructor
  · intro t found hfound
    exact h.targetIds t found (callsByTargetId_of_removed hfound).1
  · intro t found hfound
    exact h.lists t found (callsByTargetId_of_removed hfound).1
  · intro path found hfound
    rw [RidRegistry.callsByPath_internalRemoveLookup] at hfound
    split at hfound
    · cases hfound
    case isFalse hne =>
      obtain ⟨hlist, hpath, htarget⟩ := h.byPath path found hfound
      refine ⟨hlist, hpath, ?_⟩
      rw [RidRegistry.callsByTargetId_internalRemoveLookup, if_neg ?_]
      · exact htarget
      · intro heq
        rw [heq] at htarget
        rw [hcurrent found htarget] at hpath
        exact hne hpath

theorem advance {s : ResponderState} (h : RidInv s.ridRegistry) (issues : Bool × Bool) :
    RidInv (s.advance issues).ridRegistry := by
  obtain ⟨issuesRid, issuesSid⟩ := issues
  cases issuesRid <;> cases issuesSid <;> exact ⟨h.targetIds, h.lists, h.byPath⟩

end RidInv

/-- A call that is registered after some handlers was registered before, or saved by one. -/
theorem callsByTargetId_performed {s : ResponderState} {calls : List PersistCall} {t : Int}
    {record : LookupRecord}
    (h : (s.performed calls).ridRegistry.callsByTargetId t = some record) :
    s.ridRegistry.callsByTargetId t = some record ∨
      ∃ method origin path, PersistCall.rid (.saved method origin path t) ∈ calls := by
  induction calls generalizing s with
  | nil => exact Or.inl h
  | cons call rest ih =>
    rcases ih h with hnext | ⟨method, origin, path, hsaved⟩
    · rcases call with (⟨method, origin, path, tgtId⟩ | removed) | event | _ | call
      · simp only [PersistCall.applied, RidRegistry.handle,
          RidRegistry.callsByTargetId_addLookup] at hnext
        split at hnext
        case isTrue ht =>
          subst ht
          exact Or.inr ⟨method, origin, path, List.mem_cons_self⟩
        case isFalse => exact Or.inl hnext
      · simp only [PersistCall.applied, RidRegistry.handle,
          RidRegistry.callsByTargetId_internalRemoveLookup] at hnext
        split at hnext
        · cases hnext
        · exact Or.inl hnext
      · exact Or.inl hnext
      · exact Or.inl hnext
      · simp only [PersistCall.applied] at hnext
        cases hreg : call.regTypeVal <;> rw [hreg] at hnext <;> exact Or.inl hnext
    · exact Or.inr ⟨method, origin, path, List.mem_cons_of_mem _ hsaved⟩

/-- A request saves a call only under the RID that it issues. -/
theorem Action.issues_of_saved {a : Action} {rid sid t : Int} {method : DSAMethod}
    {origin : Option Origin} {path : Option Str}
    (h : PersistCall.rid (.saved method origin path t) ∈ a.effects rid sid) :
    t = rid ∧ a.issues.1 = true := by
  cases a with
  | closeListLast closing targetId record =>
    cases record <;> simp [Action.effects] at h
  | _ => simp_all [Action.effects, Action.issues]

/-- The effects of a request keep the records, if a RID that is issued is not that of a LIST
call, and the call whose removal a CLOSE decides is still the one it found. -/
theorem RidInv.perform [ScanOrder Int] {present settled : ResponderState} {a : Action}
    (hpresent : RidInv present.ridRegistry) (h : RidInv settled.ridRegistry)
    (hcurrent : ∀ targetId, present.listRegistry.Bound targetId → ∀ before found,
      present.ridRegistry.callsByTargetId targetId = some before →
      settled.ridRegistry.callsByTargetId targetId = some found → found = before)
    (hfound : a.Found present) {rid sid : Int}
    (hfree : a.issues.1 = true → ¬ settled.ridRegistry.ListRegistered rid) :
    RidInv (settled.performed (a.effects rid sid)).ridRegistry := by
  cases a with
  | nothing => exact h
  | answer srcRid => exact h
  | saveAttribute srcRid nodePath name value => exact h
  | passthrough method origin forward =>
    apply h.addLookup (hfree rfl)
    rcases hfound with rfl | rfl | rfl <;> simp
  | listNew path origin tgtPath => exact h.addLookup (hfree rfl) (by simp)
  | listKnown targetId origin tgtPath => exact h
  | subscribeNew ridOrigin sidOrigin srcPath tgtPath =>
    exact h.addLookup (hfree rfl) (by simp)
  | subscribeKnown tgtSid sidOrigin srcPath tgtPath => exact h
  | unsubscribeLast ridOrigin sidOrigin targetSid => exact h.addLookup (hfree rfl) (by simp)
  | unsubscribeOther srcRid sidOrigin targetSid => exact h
  | closeCall targetId => exact h
  | closeListLast origin targetId record =>
    obtain ⟨hremoval, rfl⟩ := hfound
    obtain ⟨binding, hbinding, _⟩ := Bindings.removal_eq_some hremoval
    cases hrecord : present.ridRegistry.lookupByTargetId targetId with
    | none => exact h
    | some record =>
      have htarget := hpresent.targetIds targetId record hrecord
      subst htarget
      apply h.removeCall
      intro found hfound
      exact hcurrent record.targetId ⟨binding, hbinding⟩ record found hrecord hfound
  | closeListOther origin targetId => exact h

/-! ### A target RID that handlers leave alone -/

/-- The handler changes the call under the target RID, or binds it. -/
def PersistCall.Touches (t : Int) : PersistCall → Prop
  | .rid (.saved _ _ _ tgtId) => tgtId = t
  | .rid (.removed record) => record.targetId = t
  | .group (.addOrigin _ _ .subs) => False
  | .group (.addOrigin targetId _ _) => targetId = t
  | _ => False

theorem bound_of_applied {b : Bindings} {call : GroupCallPersist} {t : Int}
    (h : (call.applied b).Bound t) :
    b.Bound t ∨ ∃ origin regTypeVal, call = .addOrigin t origin regTypeVal := by
  rcases call with ⟨targetId, origin, regTypeVal⟩ | ⟨origin, regTypeVal, targetId, _ | _⟩ |
    ⟨targetId, regTypeVal⟩
  · rcases Bindings.bound_internalAddOrigin.mp h with rfl | hold
    · exact Or.inr ⟨origin, regTypeVal, rfl⟩
    · exact Or.inl hold
  · exact Or.inl (Bindings.bound_removeFrom.mp h)
  · exact Or.inl (Bindings.bound_removeFrom.mp (Bindings.bound_internalRemove.mp h).1)
  · exact Or.inl (Bindings.bound_internalRemove.mp h).1

/-- Effects that do not touch a target RID leave its call as it is and bind nothing under it. -/
theorem untouched_performed (s : ResponderState) {calls : List PersistCall} {t : Int}
    (hcalls : ∀ call ∈ calls, ¬ call.Touches t) :
    (s.performed calls).ridRegistry.callsByTargetId t = s.ridRegistry.callsByTargetId t ∧
      ((s.performed calls).listRegistry.Bound t → s.listRegistry.Bound t) := by
  induction calls generalizing s with
  | nil => exact ⟨rfl, id⟩
  | cons call rest ih =>
    rw [List.forall_mem_cons] at hcalls
    obtain ⟨hcall, hrest⟩ := hcalls
    obtain ⟨hsame, hbound⟩ := ih (call.applied s) hrest
    have hone : (call.applied s).ridRegistry.callsByTargetId t
        = s.ridRegistry.callsByTargetId t ∧
        ((call.applied s).listRegistry.Bound t → s.listRegistry.Bound t) := by
      rcases call with (⟨method, origin, path, tgtId⟩ | record) | event | _ | call
      · refine ⟨?_, id⟩
        simp only [PersistCall.applied, RidRegistry.handle,
          RidRegistry.callsByTargetId_addLookup]
        exact if_neg fun ht => hcall ht.symm
      · refine ⟨?_, id⟩
        simp only [PersistCall.applied, RidRegistry.handle,
          RidRegistry.callsByTargetId_internalRemoveLookup]
        exact if_neg fun ht => hcall ht.symm
      · exact ⟨rfl, id⟩
      · exact ⟨rfl, id⟩
      · have hbindings : ∀ regTypeVal, call.regTypeVal = regTypeVal → regTypeVal ≠ .subs →
            (call.applied s.listRegistry).Bound t → s.listRegistry.Bound t := by
          intro regTypeVal hreg hlist ht
          rcases bound_of_applied ht with hold | ⟨origin, added, rfl⟩
          · exact hold
          · cases hreg
            cases added
            · exact absurd rfl hcall
            · exact absurd rfl hlist
            · exact absurd rfl hcall
        simp only [PersistCall.applied]
        cases hreg : call.regTypeVal with
        | subs => exact ⟨rfl, id⟩
        | list => exact ⟨rfl, hbindings .list hreg (by decide)⟩
        | default => exact ⟨rfl, hbindings .default hreg (by decide)⟩
    exact ⟨hsame.trans hone.1, fun ht => hone.2 (hbound ht)⟩

/-- The effects of a request leave a target RID alone that it does not issue, join or close. -/
theorem Action.untouched {a : Action} {rid sid t : Int} (hissues : a.issues.1 = true → rid ≠ t)
    (hknown : ∀ targetId origin path, a = .listKnown targetId origin path → targetId ≠ t)
    (hclosed : ∀ origin targetId record, a = .closeListLast origin targetId (some record) →
      record.targetId ≠ t) :
    ∀ call ∈ a.effects rid sid, ¬ call.Touches t := by
  intro call hcall htouches
  cases a with
  | nothing => cases hcall
  | answer srcRid => cases hcall
  | closeCall targetId => cases hcall
  | saveAttribute srcRid nodePath name value =>
    rw [List.mem_singleton.mp hcall] at htouches
    exact htouches
  | passthrough method origin forward =>
    rw [List.mem_singleton.mp hcall] at htouches
    exact hissues rfl htouches
  | listNew path origin tgtPath =>
    rcases List.mem_cons.mp hcall with rfl | hcall
    · exact hissues rfl htouches
    · rw [List.mem_singleton.mp hcall] at htouches
      exact hissues rfl htouches
  | listKnown targetId origin tgtPath =>
    rw [List.mem_singleton.mp hcall] at htouches
    exact hknown targetId origin tgtPath rfl htouches
  | subscribeNew ridOrigin sidOrigin srcPath tgtPath =>
    rcases List.mem_cons.mp hcall with rfl | hcall
    · exact hissues rfl htouches
    · rcases List.mem_cons.mp hcall with rfl | hcall
      · exact htouches
      · rw [List.mem_singleton.mp hcall] at htouches
        exact htouches
  | subscribeKnown tgtSid sidOrigin srcPath tgtPath =>
    rw [List.mem_singleton.mp hcall] at htouches
    exact htouches
  | unsubscribeLast ridOrigin sidOrigin targetSid =>
    rcases List.mem_cons.mp hcall with rfl | hcall
    · exact htouches
    · rcases List.mem_cons.mp hcall with rfl | hcall
      · exact htouches
      · rw [List.mem_singleton.mp hcall] at htouches
        exact hissues rfl htouches
  | unsubscribeOther srcRid sidOrigin targetSid =>
    rw [List.mem_singleton.mp hcall] at htouches
    exact htouches
  | closeListLast origin targetId record =>
    rcases List.mem_cons.mp hcall with rfl | hcall
    · exact htouches
    · cases record with
      | none => cases hcall
      | some record =>
        rw [List.mem_singleton.mp hcall] at htouches
        exact hclosed origin targetId record rfl htouches
  | closeListOther origin targetId =>
    rw [List.mem_singleton.mp hcall] at htouches
    exact htouches

theorem performed_nextTargetId (s : ResponderState) (calls : List PersistCall) :
    (s.performed calls).ridRegistry.nextTargetId = s.ridRegistry.nextTargetId := by
  induction calls generalizing s with
  | nil => rfl
  | cons call rest ih =>
    apply (ih (call.applied s)).trans
    rcases call with event | event | _ | call
    · exact RidRegistry.handle_nextTargetId ..
    · rfl
    · rfl
    · simp only [PersistCall.applied]
      cases call.regTypeVal <;> rfl

end DsaBroker
