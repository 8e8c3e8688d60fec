import DsaBroker.ResponderRecovery
import Mathlib.Logic.Embedding.Basic
import Mathlib.Logic.Equiv.Basic

/-!
# Updating routees during recovery

After a cluster move a routee of the journal is not the one to use now, so recovery passes what
it reads through `OriginUpdater`.  It should come to the registries as they were, with the
source of every origin replaced.

The updater maps the origins of the events that add something, and those of the bindings in a
snapshot.  It leaves alone the events that remove something, which then do not find what was
added under the new routee, and the RID registry of a snapshot; and a record that it makes
starts without a last response.
-/

namespace DsaBroker

/-- `origin.copy(source = routeeUpdater(origin.source))`. -/
def Origin.update (f : Routee ↪ Routee) (origin : Origin) : Origin :=
  { origin with source := f origin.source }

def LookupRidRestoreProcess.update (f : Routee ↪ Routee) :
    LookupRidRestoreProcess → LookupRidRestoreProcess
  | .saved method origin path tgtId => .saved method (origin.map (Origin.update f)) path tgtId
  | .removed record => .removed record

def GroupCallRegistryRestoreProcess.update (f : Routee ↪ Routee) :
    GroupCallRegistryRestoreProcess → GroupCallRegistryRestoreProcess
  | .originAdded targetId origin regTypeVal => .originAdded targetId (origin.update f) regTypeVal
  | .originRemoved origin regTypeVal => .originRemoved origin regTypeVal
  | .recordRemoved targetId regTypeVal => .recordRemoved targetId regTypeVal

theorem Origin.update_injective (f : Routee ↪ Routee) : Function.Injective (Origin.update f) := by
  intro a b h
  have hsource : f a.source = f b.source := congrArg Origin.source h
  have hsourceId : (a.update f).sourceId = (b.update f).sourceId := congrArg Origin.sourceId h
  obtain ⟨source, sourceId⟩ := a
  obtain ⟨source', sourceId'⟩ := b
  rw [Origin.mk.injEq]
  exact ⟨f.injective hsource, hsourceId⟩

/-- The record with its origins updated. -/
def GroupCallRecord.mapOrigins (f : Routee ↪ Routee) (record : GroupCallRecord) :
    GroupCallRecord :=
  { record with
    origins := record.origins.map (Origin.update f)
    nodup_origins := record.nodup_origins.map (Origin.update_injective f) }

/-- `new GroupCallRecord(origins, lastResponse)`: the constructor does not use its second
argument. -/
def GroupCallRecord.updateOrigins (f : Routee ↪ Routee) (record : GroupCallRecord) :
    GroupCallRecord :=
  { record.mapOrigins f with lastResponse := none }

def ResponderEvent.update (f : Routee ↪ Routee) : ResponderEvent → ResponderEvent
  | .rid event => .rid (event.update f)
  | .group event => .group (event.update f)
  | .sid event => .sid event
  | .attributeSaved nodePath name value => .attributeSaved nodePath name value

/-- `responderRecover` and `simpleResponderRecover` for a snapshot: the main state is taken as
it is, the bindings are updated. -/
def ResponderState.offeredUpdated (f : Routee ↪ Routee) :
    Option ResponderBehaviorState → ResponderState
  | none => .initial
  | some snapshot =>
      { ridRegistry := snapshot.main.ridRegistry
        sidRegistry := snapshot.main.sidRegistry
        attributes := snapshot.main.attributes
        listRegistry := snapshot.listBindings.mapValues (GroupCallRecord.updateOrigins f)
        subsRegistry := snapshot.subsBindings.mapValues (GroupCallRecord.updateOrigins f) }

/-- What a snapshot holds, without any updating. -/
def ResponderState.offeredAsIs : Option ResponderBehaviorState → ResponderState
  | none => .initial
  | some snapshot =>
      { ridRegistry := snapshot.main.ridRegistry
        sidRegistry := snapshot.main.sidRegistry
        attributes := snapshot.main.attributes
        listRegistry := snapshot.listBindings
        subsRegistry := snapshot.subsBindings }

section

variable [ScanOrder Int]

/-- Recovery with the updater. -/
def recoverUpdated (f : Routee ↪ Routee)
    (store : EventStore ResponderBehaviorState ResponderEvent) : Option ResponderState :=
  store.recover (ResponderState.offeredUpdated f) fun s event => s.restore (event.update f)

/-- Recovery without updating. -/
def recoverAsIs (store : EventStore ResponderBehaviorState ResponderEvent) :
    Option ResponderState :=
  store.recover ResponderState.offeredAsIs ResponderState.restore

end

/-! ### Registries with other routees -/

def LookupRecord.update (f : Routee ↪ Routee) (record : LookupRecord) : LookupRecord :=
  { record with origin := record.origin.map (Origin.update f) }

/-- The second registry is the first one with the sources of all origins mapped, in the keys and
in the records. -/
structure RidRegistry.MappedBy (f : Routee ↪ Routee) (r r' : RidRegistry) : Prop where
  nextTargetId : r'.nextTargetId = r.nextTargetId
  callsByTargetId : ∀ t, r'.callsByTargetId t = (r.callsByTargetId t).map (LookupRecord.update f)
  callsByOrigin : ∀ o,
    r'.callsByOrigin (o.update f) = (r.callsByOrigin o).map (LookupRecord.update f)
  otherOrigins : ∀ k, (∀ o : Origin, o.update f ≠ k) → r'.callsByOrigin k = none
  callsByPath : ∀ p, r'.callsByPath p = (r.callsByPath p).map (LookupRecord.update f)

/-- The same for all registries; the last responses are kept. -/
structure ResponderState.MappedBy (f : Routee ↪ Routee) (s s' : ResponderState) : Prop where
  rids : s.ridRegistry.MappedBy f s'.ridRegistry
  sids : s'.sidRegistry = s.sidRegistry
  attributes : s'.attributes = s.attributes
  lists : s'.listRegistry = s.listRegistry.mapValues (GroupCallRecord.mapOrigins f)
  subscriptions : s'.subsRegistry = s.subsRegistry.mapValues (GroupCallRecord.mapOrigins f)

/-- Recovery from the store with the updater gives what recovery without it gives and an update of
all origins would make of it, or both fail. -/
def UpdateCommutes [ScanOrder Int] (f : Routee ↪ Routee)
    (store : EventStore ResponderBehaviorState ResponderEvent) : Prop :=
  Option.Rel (ResponderState.MappedBy f) (recoverAsIs store) (recoverUpdated f store)

/-! ### The condition -/

/-- The bindings have no last response. -/
def Bindings.Silent (b : Bindings) : Prop := ∀ t, b.getLastResponse t = none

/-- Mapping the sources leaves the RID registry of the snapshot as it is, and no binding in it
has a last response. -/
def SnapshotUnmoved (f : Routee ↪ Routee) : Option ResponderBehaviorState → Prop
  | none => True
  | some snapshot => snapshot.main.ridRegistry.MappedBy f snapshot.main.ridRegistry ∧
      snapshot.listBindings.Silent ∧ snapshot.subsBindings.Silent

/-- The origin is not moved; or it is not there, and no other origin is moved to it. -/
def OriginUnmoved (f : Routee ↪ Routee) (present : Origin → Prop) (origin : Origin) : Prop :=
  origin.update f = origin ∨
    ¬ present origin ∧ ∀ other : Origin, other.update f = origin → ¬ present other

/-- Events that remove something are about origins that are not moved. -/
def EventUnmoved (f : Routee ↪ Routee) (s : ResponderState) : ResponderEvent → Prop
  | .rid (.removed record) =>
      ∀ origin, record.origin = some origin →
        OriginUnmoved f (fun o => (s.ridRegistry.callsByOrigin o).isSome = true) origin
  | .group (.originRemoved origin .list) =>
      OriginUnmoved f (fun o => ∃ t, o ∈ s.listRegistry.getOrigins t) origin
  | .group (.originRemoved origin .subs) =>
      OriginUnmoved f (fun o => ∃ t, o ∈ s.subsRegistry.getOrigins t) origin
  | _ => True

/-! ### The RID registry -/

section

variable {f : Routee ↪ Routee}

theorem Origin.update_eq_iff {a b : Origin} : a.update f = b.update f ↔ a = b :=
  (Origin.update_injective f).eq_iff

theorem RidRegistry.MappedBy.addLookup {r r' : RidRegistry} (h : r.MappedBy f r')
    (method : DSAMethod) (origin : Option Origin) (path : Option Str) (tgtId : Int) :
    (r.addLookup method origin path tgtId).MappedBy f
      (r'.addLookup method (origin.map (Origin.update f)) path tgtId) := by
  refine ⟨h.nextTargetId, ?_, ?_, ?_, ?_⟩
  · intro t
    rw [callsByTargetId_addLookup, callsByTargetId_addLookup]
    split
    · rfl
    · exact h.callsByTargetId t
  · intro o
    have hsame : origin.map (Origin.update f) = some (o.update f) ↔ origin = some o := by
      rw [← Option.map_some, (Option.map_injective (Origin.update_injective f)).eq_iff]
    rw [callsByOrigin_addLookup, callsByOrigin_addLookup]
    by_cases ho : origin = some o
    · rw [if_pos (hsame.mpr ho), if_pos ho]
      rfl
    · rw [if_neg (mt hsame.mp ho), if_neg ho]
      exact h.callsByOrigin o
  · intro k hk
    have hnot : origin.map (Origin.update f) ≠ some k := by
      intro heq
      obtain ⟨o, -, ho⟩ := Option.map_eq_some_iff.mp heq
      exact hk o ho
    rw [callsByOrigin_addLookup, if_neg hnot]
    exact h.otherOrigins k hk
  · intro p
    rw [callsByPath_addLookup, callsByPath_addLookup]
    split
    · rfl
    · exact h.callsByPath p

/-- Removing the same record from both registries keeps them related just if its origin is not
moved. -/
theorem RidRegistry.MappedBy.internalRemoveLookup_iff {r r' : RidRegistry} (h : r.MappedBy f r')
    (record : LookupRecord) :
    (r.internalRemoveLookup record).MappedBy f (r'.internalRemoveLookup record) ↔
      ∀ origin, record.origin = some origin →
        OriginUnmoved f (fun o => (r.callsByOrigin o).isSome = true) origin := by
  constructor
  · intro hremoved origin horigin
    by_contra hmoved
    rw [OriginUnmoved, not_or] at hmoved
    obtain ⟨hne, hpresent⟩ := hmoved
    apply hpresent
    constructor
    · -- the origin is removed from the first registry, its image stays in the second
      intro hsome
      have hkey := hremoved.callsByOrigin origin
      rw [callsByOrigin_internalRemoveLookup, callsByOrigin_internalRemoveLookup, horigin,
        if_pos rfl, if_neg (by simpa using Ne.symm hne), h.callsByOrigin] at hkey
      rw [Option.map_eq_none_iff.mp hkey] at hsome
      cases hsome
    · -- the image of another origin is removed from the second registry
      intro other hother hsome
      have hkey := hremoved.callsByOrigin other
      have hself : other ≠ origin := by
        rintro rfl
        exact hne hother
      rw [callsByOrigin_internalRemoveLookup, callsByOrigin_internalRemoveLookup, horigin, hother,
        if_pos rfl, if_neg (by simpa using Ne.symm hself)] at hkey
      rw [Option.map_eq_none_iff.mp hkey.symm] at hsome
      cases hsome
  · intro hunmoved
    refine ⟨h.nextTargetId, ?_, ?_, ?_, ?_⟩
    · intro t
      rw [callsByTargetId_internalRemoveLookup, callsByTargetId_internalRemoveLookup]
      split
      · rfl
      · exact h.callsByTargetId t
    · -- `o` is removed on one side if it is the record's origin, on the other if its image is
      intro o
      rw [callsByOrigin_internalRemoveLookup, callsByOrigin_internalRemoveLookup]
      by_cases ho : record.origin = some o
      · rcases hunmoved o ho with hsame | ⟨habsent, -⟩
        · rw [hsame, if_pos ho, if_pos ho]
          rfl
        · have hnone : r.callsByOrigin o = none := by
            simpa using habsent
          rw [if_pos ho, h.callsByOrigin, hnone, Option.map_none, ite_self]
      · rw [if_neg ho]
        by_cases himage : record.origin = some (o.update f)
        · -- `o` is removed only after the update: unmoved means that no call of `o` was there
          rcases hunmoved _ himage with hsame | ⟨-, hothers⟩
          · rw [Origin.update_eq_iff.mp hsame] at himage
            exact absurd himage ho
          · have hnone : r.callsByOrigin o = none := by
              simpa using hothers o rfl
            rw [if_pos himage, hnone]
            rfl
        · rw [if_neg himage]
          exact h.callsByOrigin o
    · intro k hk
      rw [callsByOrigin_internalRemoveLookup, h.otherOrigins k hk, ite_self]
    · intro p
      rw [callsByPath_internalRemoveLookup, callsByPath_internalRemoveLookup]
      split
      · rfl
      · exact h.callsByPath p

/-! ### Bindings -/

theorem GroupCallRecord.mem_mapOrigins {record : GroupCallRecord} {o : Origin} :
    o.update f ∈ (record.mapOrigins f).origins ↔ o ∈ record.origins :=
  List.mem_map_of_injective (Origin.update_injective f)

theorem GroupCallRecord.addOrigin_mapOrigins (record : GroupCallRecord) (o : Origin) :
    (record.mapOrigins f).addOrigin (o.update f) = (record.addOrigin o).mapOrigins f := by
  rw [GroupCallRecord.addOrigin, GroupCallRecord.addOrigin]
  by_cases ho : o ∈ record.origins
  · rw [dif_pos (mem_mapOrigins.mpr ho), dif_pos ho]
  · rw [dif_neg (mt mem_mapOrigins.mp ho), dif_neg ho]
    refine GroupCallRecord.ext ?_ rfl
    show record.origins.map (Origin.update f) ++ [o.update f] =
      (record.origins ++ [o]).map (Origin.update f)
    rw [List.map_append]
    rfl

theorem GroupCallRecord.removeOrigin_mapOrigins (record : GroupCallRecord) (o : Origin) :
    (record.mapOrigins f).removeOrigin (o.update f) = (record.removeOrigin o).mapOrigins f := by
  refine GroupCallRecord.ext ?_ rfl
  show (record.origins.map (Origin.update f)).filter _ = (record.origins.filter _).map _
  rw [List.filter_map]
  congr 1
  apply List.filter_congr
  intro a _
  rw [Function.comp_apply, decide_eq_decide, Ne, Ne, Origin.update_eq_iff]

namespace Bindings

/-- The bindings with their origins updated. -/
def mapOrigins (f : Routee ↪ Routee) (b : Bindings) : Bindings :=
  b.mapValues (GroupCallRecord.mapOrigins f)

variable {b : Bindings}

theorem getOrInsert_mapOrigins (b : Bindings) (targetId : Int) :
    (b.mapOrigins f).getOrInsert targetId = (b.getOrInsert targetId).mapOrigins f := by
  rw [getOrInsert, getOrInsert, mapOrigins, ScanMap.get_mapValues]
  cases b.get targetId <;> rfl

theorem getOrigins_mapOrigins (b : Bindings) (targetId : Int) :
    (b.mapOrigins f).getOrigins targetId = (b.getOrigins targetId).map (Origin.update f) := by
  rw [getOrigins, getOrigins, mapOrigins, ScanMap.get_mapValues]
  cases b.get targetId <;> rfl

theorem internalAddOrigin_mapOrigins (b : Bindings) (targetId : Int) (o : Origin) :
    (b.mapOrigins f).internalAddOrigin targetId (o.update f) =
      (b.internalAddOrigin targetId o).mapOrigins f := by
  rw [internalAddOrigin, getOrInsert_mapOrigins, GroupCallRecord.addOrigin_mapOrigins]
  exact ScanMap.put_mapValues ..

theorem internalRemove_mapOrigins (b : Bindings) (targetId : Int) :
    (b.mapOrigins f).internalRemove targetId = (b.internalRemove targetId).mapOrigins f :=
  ScanMap.remove_mapValues ..

theorem removeFrom_mapOrigins (b : Bindings) (targetId : Int) (o : Origin) :
    (b.mapOrigins f).removeFrom targetId (o.update f) = (b.removeFrom targetId o).mapOrigins f := by
  have hget : (b.mapOrigins f).get targetId =
      (b.get targetId).map (GroupCallRecord.mapOrigins f) := rfl
  rw [removeFrom, removeFrom, hget]
  cases b.get targetId with
  | none => rfl
  | some record =>
    show (b.mapOrigins f).put targetId ((record.mapOrigins f).removeOrigin (o.update f)) = _
    rw [GroupCallRecord.removeOrigin_mapOrigins]
    exact ScanMap.put_mapValues ..

variable [ScanOrder Int]

theorem lookupTargetId_mapOrigins (b : Bindings) (o : Origin) :
    (b.mapOrigins f).lookupTargetId (o.update f) = b.lookupTargetId o := by
  rw [lookupTargetId, lookupTargetId, mapOrigins, ScanMap.find_mapValues]
  congr 1
  funext record
  rw [decide_eq_decide, GroupCallRecord.mem_mapOrigins]

theorem internalRemoveOrigin_mapOrigins (b : Bindings) (o : Origin) :
    (b.mapOrigins f).internalRemoveOrigin (o.update f) =
      (b.internalRemoveOrigin o).mapOrigins f := by
  rw [internalRemoveOrigin, internalRemoveOrigin, lookupTargetId_mapOrigins]
  cases b.lookupTargetId o with
  | none => rfl
  | some targetId =>
    simp only [removeFrom_mapOrigins, getOrigins_mapOrigins, List.map_eq_nil_iff,
      internalRemove_mapOrigins]
    split <;> rfl

theorem lookupTargetId_eq_none {o : Origin} :
    b.lookupTargetId o = none ↔ ∀ t, o ∉ b.getOrigins t := by
  rw [lookupTargetId, ScanMap.find_eq_none]
  simp only [mem_getOrigins, not_exists, not_and, decide_eq_false_iff_not]

theorem internalRemoveOrigin_of_absent {o : Origin} (h : ∀ t, o ∉ b.getOrigins t) :
    b.internalRemoveOrigin o = b := by
  rw [internalRemoveOrigin, lookupTargetId_eq_none.mpr h]

/-- Removing the same origin from bindings and from updated bindings keeps them related just if
the origin is not moved. -/
theorem internalRemoveOrigin_mapOrigins_iff (b : Bindings) (o : Origin) :
    (b.mapOrigins f).internalRemoveOrigin o = (b.internalRemoveOrigin o).mapOrigins f ↔
      OriginUnmoved f (fun o => ∃ t, o ∈ b.getOrigins t) o := by
  constructor
  · intro hremoved
    have horigins : ∀ t, ((b.mapOrigins f).internalRemoveOrigin o).getOrigins t =
        ((b.internalRemoveOrigin o).getOrigins t).map (Origin.update f) := by
      intro t
      rw [hremoved, getOrigins_mapOrigins]
    by_contra hmoved
    rw [OriginUnmoved, not_or] at hmoved
    obtain ⟨hne, hpresent⟩ := hmoved
    apply hpresent
    constructor
    · -- the origin is removed from the first bindings, its image stays in the second ones
      rintro ⟨t, ht⟩
      cases hfound : b.lookupTargetId o with
      | none => exact lookupTargetId_eq_none.mp hfound t ht
      | some found =>
        obtain ⟨record, hrecord, ho⟩ := ScanMap.get_of_find_eq_some hfound
        have hmem : o.update f ∈ ((b.mapOrigins f).internalRemoveOrigin o).getOrigins found := by
          rw [mem_getOrigins_internalRemoveOrigin_iff, getOrigins_mapOrigins]
          have hheld := mem_getOrigins.mpr ⟨record, hrecord, of_decide_eq_true ho⟩
          refine ⟨List.mem_map_of_mem hheld, ?_⟩
          rintro ⟨-, heq⟩
          exact hne heq
        rw [horigins, List.mem_map_of_injective (Origin.update_injective f),
          mem_getOrigins_internalRemoveOrigin_iff] at hmem
        exact hmem.2 ⟨hfound, rfl⟩
    · -- the image of another origin is removed from the second bindings
      rintro other hother ⟨t, ht⟩
      cases hfound : (b.mapOrigins f).lookupTargetId o with
      | none =>
        apply lookupTargetId_eq_none.mp hfound t
        rw [getOrigins_mapOrigins, ← hother]
        exact List.mem_map_of_mem ht
      | some found =>
        obtain ⟨record, hrecord, ho⟩ := ScanMap.get_of_find_eq_some hfound
        have hthere : other ∈ b.getOrigins found := by
          have hmem := mem_getOrigins.mpr ⟨record, hrecord, of_decide_eq_true ho⟩
          rwa [getOrigins_mapOrigins, ← hother,
            List.mem_map_of_injective (Origin.update_injective f)] at hmem
        have hkept : other ∈ (b.internalRemoveOrigin o).getOrigins found := by
          rw [mem_getOrigins_internalRemoveOrigin_iff]
          refine ⟨hthere, ?_⟩
          rintro ⟨-, rfl⟩
          exact hne hother
        have hgone := List.mem_map_of_mem (f := Origin.update f) hkept
        rw [← horigins, hother, mem_getOrigins_internalRemoveOrigin_iff] at hgone
        exact hgone.2 ⟨hfound, rfl⟩
  · rintro (hsame | ⟨habsent, hothers⟩)
    · -- an origin that stays what it is commutes with the update
      rw [← internalRemoveOrigin_mapOrigins, hsame]
    · -- else neither bindings hold the origin and nothing is removed
      rw [internalRemoveOrigin_of_absent fun t ht => habsent ⟨t, ht⟩]
      apply internalRemoveOrigin_of_absent
      intro t ht
      rw [getOrigins_mapOrigins] at ht
      obtain ⟨other, hother, heq⟩ := List.mem_map.mp ht
      exact hothers other heq ⟨t, hother⟩

end Bindings

/-! ### Recovery -/

/-- A record of the updater is the one wanted just if there is no last response to lose. -/
theorem Bindings.silent_iff {b : Bindings} :
    b.mapValues (GroupCallRecord.updateOrigins f) = b.mapValues (GroupCallRecord.mapOrigins f) ↔
      b.Silent := by
  constructor
  · intro h t
    have hget := congrArg (fun m : Bindings => m.get t) h
    simp only [ScanMap.get_mapValues] at hget
    rw [getLastResponse]
    cases hrecord : b.get t with
    | none => rfl
    | some record =>
      rw [hrecord, Option.map_some, Option.map_some, Option.some.injEq] at hget
      exact (congrArg GroupCallRecord.lastResponse hget).symm
  · intro h
    apply ScanMap.ext_of_get
    · intro t
      rw [ScanMap.get_mapValues, ScanMap.get_mapValues]
      cases hrecord : b.get t with
      | none => rfl
      | some record =>
        have hnone : record.lastResponse = none := by
          have hlast := h t
          rwa [getLastResponse, hrecord] at hlast
        rw [Option.map_some, Option.map_some, Option.some.injEq]
        exact GroupCallRecord.ext rfl hnone.symm
    · rfl

theorem mappedBy_offered_iff (snapshot : Option ResponderBehaviorState) :
    (ResponderState.offeredAsIs snapshot).MappedBy f (ResponderState.offeredUpdated f snapshot) ↔
      SnapshotUnmoved f snapshot := by
  cases snapshot with
  | none =>
    refine iff_of_true ⟨⟨rfl, fun _ => rfl, fun _ => rfl, fun _ _ => rfl, fun _ => rfl⟩, rfl, rfl,
      ?_, ?_⟩ trivial
    · exact ScanMap.ext_of_get (fun _ => rfl) rfl
    · exact ScanMap.ext_of_get (fun _ => rfl) rfl
  | some snapshot =>
    constructor
    · intro h
      exact ⟨h.rids, Bindings.silent_iff.mp h.lists, Bindings.silent_iff.mp h.subscriptions⟩
    · rintro ⟨hrids, hlists, hsubs⟩
      exact ⟨hrids, rfl, rfl, Bindings.silent_iff.mpr hlists, Bindings.silent_iff.mpr hsubs⟩

namespace ResponderState.MappedBy

variable {s s' : ResponderState}

theorem withLists_iff (h : s.MappedBy f s') (b b' : Bindings) :
    ({ s with listRegistry := b } : ResponderState).MappedBy f { s' with listRegistry := b' } ↔
      b' = b.mapOrigins f := by
  constructor
  · exact lists
  · intro heq
    exact ⟨h.rids, h.sids, h.attributes, heq, h.subscriptions⟩

theorem withSubscriptions_iff (h : s.MappedBy f s') (b b' : Bindings) :
    ({ s with subsRegistry := b } : ResponderState).MappedBy f { s' with subsRegistry := b' } ↔
      b' = b.mapOrigins f := by
  constructor
  · exact subscriptions
  · intro heq
    exact ⟨h.rids, h.sids, h.attributes, h.lists, heq⟩

variable [ScanOrder Int]

theorem restore_rid_iff (h : s.MappedBy f s') (event : LookupRidRestoreProcess) :
    Option.Rel (MappedBy f) (s.restore (.rid event)) (s'.restore (.rid (event.update f))) ↔
      EventUnmoved f s (.rid event) := by
  rw [restore, restore, rel_some_iff]
  cases event with
  | saved method origin path tgtId =>
    refine iff_of_true ?_ trivial
    have hcounter : { s.ridRegistry with
          nextTargetId := (s.ridRegistry.nextTargetId.incBy tgtId).2 }.MappedBy f
        { s'.ridRegistry with nextTargetId := (s'.ridRegistry.nextTargetId.incBy tgtId).2 } :=
      ⟨by rw [h.rids.nextTargetId], h.rids.callsByTargetId, h.rids.callsByOrigin,
        h.rids.otherOrigins, h.rids.callsByPath⟩
    exact ⟨hcounter.addLookup method origin path tgtId, h.sids, h.attributes, h.lists,
      h.subscriptions⟩
  | removed record =>
    refine Iff.trans ?_ (h.rids.internalRemoveLookup_iff record)
    constructor
    · exact rids
    · intro hrids
      exact ⟨hrids, h.sids, h.attributes, h.lists, h.subscriptions⟩

theorem restore_sid (h : s.MappedBy f s') (event : LookupSidRestoreProcess) :
    Option.Rel (MappedBy f) (s.restore (.sid event)) (s'.restore (.sid event)) := by
  rw [restore, restore, h.sids]
  cases s.sidRegistry.restoreSidRegistry event with
  | none => exact .none
  | some sids => exact .some ⟨h.rids, rfl, h.attributes, h.lists, h.subscriptions⟩

/-- Replay of a group event with updated origins keeps the states related just if the origin that
the event removes is not moved, since adding commutes with the update and removing looks the origin
up. -/
theorem restore_group_iff (h : s.MappedBy f s') (event : GroupCallRegistryRestoreProcess) :
    Option.Rel (MappedBy f) (s.restore (.group event)) (s'.restore (.group (event.update f))) ↔
      EventUnmoved f s (.group event) := by
  have hlists : s'.listRegistry = s.listRegistry.mapOrigins f := h.lists
  have hsubs : s'.subsRegistry = s.subsRegistry.mapOrigins f := h.subscriptions
  have hdefault : Option.Rel (MappedBy f) (some s) (some s') := .some h
  cases event with
  | originAdded targetId origin regTypeVal =>
    refine iff_of_true ?_ trivial
    cases regTypeVal with
    | list =>
      refine .some ((h.withLists_iff _ _).mpr ?_)
      rw [hlists]
      exact Bindings.internalAddOrigin_mapOrigins ..
    | subs =>
      refine .some ((h.withSubscriptions_iff _ _).mpr ?_)
      rw [hsubs]
      exact Bindings.internalAddOrigin_mapOrigins ..
    | default => exact hdefault
  -- removing looks the origin up, and this is where a moved one is missed
  | originRemoved origin regTypeVal =>
    cases regTypeVal with
    | list =>
      refine rel_some_iff.trans ((h.withLists_iff _ _).trans ?_)
      rw [hlists]
      exact Bindings.internalRemoveOrigin_mapOrigins_iff ..
    | subs =>
      refine rel_some_iff.trans ((h.withSubscriptions_iff _ _).trans ?_)
      rw [hsubs]
      exact Bindings.internalRemoveOrigin_mapOrigins_iff ..
    | default => exact iff_of_true hdefault trivial
  | recordRemoved targetId regTypeVal =>
    refine iff_of_true ?_ trivial
    cases regTypeVal with
    | list =>
      refine .some ((h.withLists_iff _ _).mpr ?_)
      rw [hlists]
      exact Bindings.internalRemove_mapOrigins ..
    | subs =>
      refine .some ((h.withSubscriptions_iff _ _).mpr ?_)
      rw [hsubs]
      exact Bindings.internalRemove_mapOrigins ..
    | default => exact hdefault

end ResponderState.MappedBy

variable [ScanOrder Int]

/-- One event keeps the two recoveries related just if it does not remove what is moved. -/
theorem ResponderState.MappedBy.restore_iff {s s' : ResponderState} (h : s.MappedBy f s')
    (event : ResponderEvent) :
    Option.Rel (MappedBy f) (s.restore event) (s'.restore (event.update f)) ↔
      EventUnmoved f s event := by
  cases event with
  | rid event => exact h.restore_rid_iff event
  | sid event => exact iff_of_true (h.restore_sid event) trivial
  | attributeSaved nodePath name value =>
    refine iff_of_true (.some ⟨h.rids, h.sids, ?_, h.lists, h.subscriptions⟩) trivial
    show addAttribute s'.attributes nodePath name value =
      addAttribute s.attributes nodePath name value
    rw [h.attributes]
  | group event => exact h.restore_group_iff event

/-- Updating commutes with recovery at every point of the journal just if the snapshot holds
nothing that is moved and no event removes something that is. -/
theorem updateCommutes_iff (f : Routee ↪ Routee)
    (store : EventStore ResponderBehaviorState ResponderEvent) :
    (∀ journal, journal <+: store.journal → UpdateCommutes f ⟨store.snapshot, journal⟩) ↔
      SnapshotUnmoved f store.snapshot ∧
        Admissible ResponderState.restore (EventUnmoved f)
          (ResponderState.offeredAsIs store.snapshot) store.journal := by
  have hstep : ∀ (s s' : ResponderState) event, s.MappedBy f s' →
      (Option.Rel (ResponderState.MappedBy f) (s.restore event) (s'.restore (event.update f)) ↔
        EventUnmoved f s event) := fun s s' event h => h.restore_iff event
  rw [← mappedBy_offered_iff]
  exact prefixes_related_iff hstep (ResponderState.offeredAsIs store.snapshot)
    (ResponderState.offeredUpdated f store.snapshot) store.journal

/-- Where updating commutes, the origins of a list are the updated ones. -/
theorem UpdateCommutes.getOrigins_list {f : Routee ↪ Routee}
    {store : EventStore ResponderBehaviorState ResponderEvent} (h : UpdateCommutes f store)
    (targetId : Int) :
    (recoverUpdated f store).map (fun s => s.listRegistry.getOrigins targetId) =
      (recoverAsIs store).map fun s =>
        (s.listRegistry.getOrigins targetId).map (Origin.update f) := by
  rw [UpdateCommutes] at h
  cases hplain : recoverAsIs store with
  | none =>
    rw [hplain] at h
    cases hupdated : recoverUpdated f store with
    | none => rfl
    | some s' =>
      rw [hupdated] at h
      cases h
  | some s =>
    rw [hplain] at h
    cases hupdated : recoverUpdated f store with
    | none =>
      rw [hupdated] at h
      cases h
    | some s' =>
      rw [hupdated] at h
      have hlists : s'.listRegistry = s.listRegistry.mapOrigins f := (rel_some_iff.mp h).lists
      rw [Option.map_some, Option.map_some, hlists, Bindings.getOrigins_mapOrigins]

end

/-! ### A subscriber that stays -/

/-- The routee of one requester in place of that of another. -/
def movedRoutees : Routee ↪ Routee := (Equiv.swap requesterA requesterB).toEmbedding

/-- A LIST and its CLOSE: with the routee updated, the subscriber is recovered. -/
theorem subscriber_stays :
    ∃ life : ResponderLife, Reachable (ResponderLife.step linkR) AnyStep .initial life ∧
      ¬ UpdateCommutes movedRoutees life.store := by
  have hrun : ∃ life : ResponderLife, Reachable (ResponderLife.step linkR) AnyStep .initial life ∧
      (recoverAsIs life.store).map (fun s => s.listRegistry.getOrigins 1) = some [] ∧
      (recoverUpdated movedRoutees life.store).map (fun s => s.listRegistry.getOrigins 1) =
        some [⟨requesterB, 1⟩] :=
    Reachable.exists_of_run
      [.message (.requestEnvelope requesterA [.list 1 blah]) fun _ => false,
        .message (.requestEnvelope requesterA [.close 1]) fun _ => false]
      (by decide +kernel)
  obtain ⟨life, hlife, hplain, hupdated⟩ := hrun
  refine ⟨life, hlife, ?_⟩
  intro hcommutes
  have horigins := hcommutes.getOrigins_list 1
  have hmapped : (recoverAsIs life.store).map (fun s =>
      (s.listRegistry.getOrigins 1).map (Origin.update movedRoutees)) = some [] := by
    have hboth := congrArg (Option.map (List.map (Origin.update movedRoutees))) hplain
    rwa [Option.map_map] at hboth
  rw [hupdated, hmapped] at horigins
  cases horigins

end DsaBroker
