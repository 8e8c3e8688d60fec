import DsaBroker.Messages
import Mathlib.Logic.Function.Basic

/-!
# The RID and SID registries

`IntCounter`, `RidRegistry` and `SidRegistry`.  A registry is given by its state: the
counter object of a registry works on the counter state inside the registry state, so the
two are one value here.  A mutable map is a lookup function.

A registry changes in two ways.  While the link runs, an event is persisted and its handler
changes the maps (`handle`); during recovery the event is replayed through `restore…`, which
changes the maps alike and moves the counter as well.
-/

namespace DsaBroker

/-! ### Counter -/

/-- `Int.MaxValue`. -/
def maxInt : Int := 2147483647

theorem toInt32_of_range {n : Int} (hlow : -2147483648 ≤ n) (hhigh : n ≤ maxInt) :
    toInt32 n = n := by
  simp only [toInt32, maxInt] at *
  omega

/-- The integers from `start` up to but not including `stop`. -/
def intsUntil (start stop : Int) : List Int :=
  (List.range (stop - start).toNat).map fun (i : Nat) => start + i

/-- Counter for rid/sid/msg. -/
structure IntCounter where
  init : Int
  value : Int
deriving DecidableEq, Repr

namespace IntCounter

/-- `inc`: the value before the step is the result. -/
def inc (c : IntCounter) : Int × IntCounter :=
  (c.value, { c with value := if c.value = maxInt then c.init else c.value + 1 })

/-- `inc(count)`, with 32-bit arithmetic. -/
def incBy (c : IntCounter) (count : Int) : List Int × IntCounter :=
  let start := c.value
  if toInt32 (maxInt - count) ≥ start then
    let value := toInt32 (c.value + count)
    (intsUntil start value, { c with value := value })
  else
    -- Avoiding overflow
    let value := toInt32 (count - 1 - (maxInt - start) + c.init)
    (intsUntil start (maxInt + 1) ++ intsUntil c.init value, { c with value := value })

@[simp] theorem inc_fst (c : IntCounter) : c.inc.1 = c.value := rfl

@[simp] theorem inc_snd_init (c : IntCounter) : c.inc.2.init = c.init := rfl

theorem inc_snd_value (c : IntCounter) :
    c.inc.2.value = if c.value = maxInt then c.init else c.value + 1 := rfl

@[simp] theorem incBy_snd_init (c : IntCounter) (count : Int) :
    (c.incBy count).2.init = c.init := by
  simp only [incBy]
  split <;> rfl

/-- Where the sum fits into 32 bits, `inc(count)` adds `count`. -/
theorem incBy_snd_value {c : IntCounter} {count : Int} (hcount : 0 ≤ count)
    (hvalue : 0 ≤ c.value) (hfits : c.value + count ≤ maxInt) :
    (c.incBy count).2.value = c.value + count := by
  have hroom : toInt32 (maxInt - count) = maxInt - count :=
    toInt32_of_range (by simp only [maxInt] at *; omega) (by omega)
  have hsum : toInt32 (c.value + count) = c.value + count :=
    toInt32_of_range (by omega) hfits
  have hstart : maxInt - count ≥ c.value := by omega
  simp only [incBy, hroom, hstart, if_true, hsum]

end IntCounter

/-- The counter of a new registry, `IntCounterState(1, 1)`. -/
def freshCounter : IntCounter := ⟨1, 1⟩

/-! ### RIDs -/

/-- Encapsulates request information for lookups. -/
structure LookupRecord where
  method : DSAMethod
  targetId : Int
  origin : Option Origin
  path : Option Str
deriving DecidableEq, Repr

inductive LookupRidRestoreProcess where
  | saved (method : DSAMethod) (origin : Option Origin) (path : Option Str) (tgtId : Int)
  | removed (record : LookupRecord)
deriving DecidableEq, Repr

/-- Request registry tied to RID. -/
structure RidRegistry where
  nextTargetId : IntCounter
  callsByTargetId : Int → Option LookupRecord
  callsByOrigin : Origin → Option LookupRecord
  callsByPath : Str → Option LookupRecord

namespace RidRegistry

def fresh : RidRegistry := ⟨freshCounter, fun _ => none, fun _ => none, fun _ => none⟩

/-- Returns the newly generated target RID before lookup saving. -/
def nextTgtId (r : RidRegistry) : Int × RidRegistry :=
  (r.nextTargetId.inc.1, { r with nextTargetId := r.nextTargetId.inc.2 })

def addLookup (r : RidRegistry) (method : DSAMethod) (origin : Option Origin)
    (path : Option Str) (tgtId : Int) : RidRegistry :=
  let record : LookupRecord := ⟨method, tgtId, origin, path⟩
  { r with
    callsByTargetId := Function.update r.callsByTargetId tgtId (some record)
    callsByOrigin := match origin with
      | some o => Function.update r.callsByOrigin o (some record)
      | none => r.callsByOrigin
    callsByPath := match path with
      | some p => Function.update r.callsByPath p (some record)
      | none => r.callsByPath }

/-- Locates the call record by target RID (used by response handlers). -/
def lookupByTargetId (r : RidRegistry) (targetId : Int) : Option LookupRecord :=
  r.callsByTargetId targetId

/-- Locates the call record by the request origin. -/
def lookupByOrigin (r : RidRegistry) (origin : Origin) : Option LookupRecord :=
  r.callsByOrigin origin

/-- Locates the call record by the path (applicable to LIST calls only). -/
def lookupByPath (r : RidRegistry) (path : Str) : Option LookupRecord :=
  r.callsByPath path

def internalRemoveLookup (r : RidRegistry) (record : LookupRecord) : RidRegistry :=
  { r with
    callsByOrigin := match record.origin with
      | some o => Function.update r.callsByOrigin o none
      | none => r.callsByOrigin
    callsByPath := match record.path with
      | some p => Function.update r.callsByPath p none
      | none => r.callsByPath
    callsByTargetId := Function.update r.callsByTargetId record.targetId none }

/-- The handlers of `saveLookup` and `removeLookup`. -/
def handle (r : RidRegistry) : LookupRidRestoreProcess → RidRegistry
  | .saved method origin path tgtId => r.addLookup method origin path tgtId
  | .removed record => r.internalRemoveLookup record

def restoreRidRegistry (r : RidRegistry) : LookupRidRestoreProcess → RidRegistry
  | .saved method origin path tgtId =>
      { r with nextTargetId := (r.nextTargetId.incBy tgtId).2 }.addLookup method origin path tgtId
  | .removed record => r.internalRemoveLookup record

theorem callsByTargetId_addLookup (r : RidRegistry) (method : DSAMethod)
    (origin : Option Origin) (path : Option Str) (tgtId t : Int) :
    (r.addLookup method origin path tgtId).callsByTargetId t =
      if t = tgtId then some ⟨method, tgtId, origin, path⟩ else r.callsByTargetId t := by
  simp only [addLookup, Function.update_apply]

theorem callsByTargetId_internalRemoveLookup (r : RidRegistry) (record : LookupRecord)
    (t : Int) :
    (r.internalRemoveLookup record).callsByTargetId t =
      if t = record.targetId then none else r.callsByTargetId t := by
  simp only [internalRemoveLookup, Function.update_apply]

theorem callsByPath_addLookup (r : RidRegistry) (method : DSAMethod) (origin : Option Origin)
    (path : Option Str) (tgtId : Int) (p : Str) :
    (r.addLookup method origin path tgtId).callsByPath p =
      if path = some p then some ⟨method, tgtId, origin, path⟩ else r.callsByPath p := by
  cases path with
  | none => rfl
  | some q => simp only [addLookup, Function.update_apply, Option.some.injEq, eq_comm]

theorem callsByPath_internalRemoveLookup (r : RidRegistry) (record : LookupRecord) (p : Str) :
    (r.internalRemoveLookup record).callsByPath p =
      if record.path = some p then none else r.callsByPath p := by
  obtain ⟨method, targetId, origin, path⟩ := record
  cases path with
  | none => rfl
  | some q => simp only [internalRemoveLookup, Function.update_apply, Option.some.injEq, eq_comm]

theorem callsByOrigin_addLookup (r : RidRegistry) (method : DSAMethod)
    (origin : Option Origin) (path : Option Str) (tgtId : Int) (o : Origin) :
    (r.addLookup method origin path tgtId).callsByOrigin o =
      if origin = some o then some ⟨method, tgtId, origin, path⟩ else r.callsByOrigin o := by
  cases origin with
  | none => rfl
  | some other => simp only [addLookup, Function.update_apply, Option.some.injEq, eq_comm]

theorem callsByOrigin_internalRemoveLookup (r : RidRegistry) (record : LookupRecord)
    (o : Origin) :
    (r.internalRemoveLookup record).callsByOrigin o =
      if record.origin = some o then none else r.callsByOrigin o := by
  obtain ⟨method, targetId, origin, path⟩ := record
  cases origin with
  | none => rfl
  | some other =>
    simp only [internalRemoveLookup, Function.update_apply, Option.some.injEq, eq_comm]

@[simp] theorem handle_nextTargetId (r : RidRegistry) (event : LookupRidRestoreProcess) :
    (r.handle event).nextTargetId = r.nextTargetId := by
  cases event <;> rfl

/-- Replay changes the maps as the live handler does. -/
theorem restoreRidRegistry_eq_handle (r : RidRegistry) (event : LookupRidRestoreProcess) :
    ∃ counter, r.restoreRidRegistry event =
      { r.handle event with nextTargetId := counter } := by
  cases event with
  | saved method origin path tgtId => exact ⟨(r.nextTargetId.incBy tgtId).2, rfl⟩
  | removed record => exact ⟨r.nextTargetId, rfl⟩

/-- Two registries with the same maps; their counters may differ. -/
structure SameMaps (r r' : RidRegistry) : Prop where
  callsByTargetId : r.callsByTargetId = r'.callsByTargetId
  callsByOrigin : r.callsByOrigin = r'.callsByOrigin
  callsByPath : r.callsByPath = r'.callsByPath

theorem SameMaps.restore {r live : RidRegistry} (h : r.SameMaps live)
    (event : LookupRidRestoreProcess) :
    (r.restoreRidRegistry event).SameMaps (live.handle event) := by
  obtain ⟨htarget, horigin, hpath⟩ := h
  obtain ⟨counter, hrestore⟩ := r.restoreRidRegistry_eq_handle event
  rw [hrestore]
  cases event with
  | saved method origin path tgtId =>
    constructor
    · simp only [handle, addLookup, htarget]
    · simp only [handle, addLookup, horigin]
    · simp only [handle, addLookup, hpath]
  | removed record =>
    constructor
    · simp only [handle, internalRemoveLookup, htarget]
    · simp only [handle, internalRemoveLookup, horigin]
    · simp only [handle, internalRemoveLookup, hpath]

end RidRegistry

/-! ### SIDs -/

inductive LookupSidRestoreProcess where
  | saved (path : Str) (tgtId : Int)
  | removed (tgtId : Int)
deriving DecidableEq, Repr

/-- Request registry tied to SID. -/
structure SidRegistry where
  targetSids : IntCounter
  pathBySid : Int → Option Str
  sidByPath : Str → Option Int

namespace SidRegistry

def fresh : SidRegistry := ⟨freshCounter, fun _ => none, fun _ => none⟩

/-- Returns the newly generated target SID before lookup saving. -/
def nextTgtId (r : SidRegistry) : Int × SidRegistry :=
  (r.targetSids.inc.1, { r with targetSids := r.targetSids.inc.2 })

def addLookup (r : SidRegistry) (path : Str) (tgtSid : Int) : SidRegistry :=
  { r with
    sidByPath := Function.update r.sidByPath path (some tgtSid)
    pathBySid := Function.update r.pathBySid tgtSid (some path) }

/-- Locates the SID by the path. -/
def lookupByPath (r : SidRegistry) (path : Str) : Option Int := r.sidByPath path

/-- `state.pathBySid(tgtId)` throws when the SID is not registered. -/
def internalRemoveLookup (r : SidRegistry) (tgtId : Int) : Option SidRegistry :=
  (r.pathBySid tgtId).map fun path =>
    { r with
      sidByPath := Function.update r.sidByPath path none
      pathBySid := Function.update r.pathBySid tgtId none }

/-- The handlers of `saveLookup` and `removeLookup`; `none` when the handler throws. -/
def handle (r : SidRegistry) : LookupSidRestoreProcess → Option SidRegistry
  | .saved path tgtId => some (r.addLookup path tgtId)
  | .removed tgtId => r.internalRemoveLookup tgtId

/-- `none` when recovery throws. -/
def restoreSidRegistry (r : SidRegistry) : LookupSidRestoreProcess → Option SidRegistry
  | .saved path tgtId =>
      some ({ r with targetSids := (r.targetSids.incBy tgtId).2 }.addLookup path tgtId)
  | .removed tgtId => r.internalRemoveLookup tgtId

theorem pathBySid_addLookup (r : SidRegistry) (path : Str) (tgtSid t : Int) :
    (r.addLookup path tgtSid).pathBySid t =
      if t = tgtSid then some path else r.pathBySid t := by
  simp only [addLookup, Function.update_apply]

theorem sidByPath_addLookup (r : SidRegistry) (path p : Str) (tgtSid : Int) :
    (r.addLookup path tgtSid).sidByPath p =
      if p = path then some tgtSid else r.sidByPath p := by
  simp only [addLookup, Function.update_apply]

/-- What a removal that does not throw has done. -/
theorem internalRemoveLookup_eq_some {r r' : SidRegistry} {tgtId : Int}
    (h : r.internalRemoveLookup tgtId = some r') :
    ∃ path, r.pathBySid tgtId = some path ∧ r'.targetSids = r.targetSids ∧
      (∀ t, r'.pathBySid t = if t = tgtId then none else r.pathBySid t) ∧
      (∀ p, r'.sidByPath p = if p = path then none else r.sidByPath p) := by
  simp only [internalRemoveLookup, Option.map_eq_some_iff] at h
  obtain ⟨path, hpath, rfl⟩ := h
  exact ⟨path, hpath, rfl, fun _ => Function.update_apply .., fun _ => Function.update_apply ..⟩

theorem internalRemoveLookup_isSome (r : SidRegistry) (tgtId : Int) :
    (r.internalRemoveLookup tgtId).isSome = (r.pathBySid tgtId).isSome := by
  simp only [internalRemoveLookup, Option.isSome_map]

/-- Two registries with the same maps; their counters may differ. -/
def SameMaps (r r' : SidRegistry) : Prop :=
  r.pathBySid = r'.pathBySid ∧ r.sidByPath = r'.sidByPath

/-- Replay does what the live handler has done. -/
theorem SameMaps.restore {r live live' : SidRegistry} (h : r.SameMaps live)
    {event : LookupSidRestoreProcess} (hlive : live.handle event = some live') :
    ∃ r', r.restoreSidRegistry event = some r' ∧ r'.SameMaps live' := by
  obtain ⟨hpath, hsid⟩ := h
  rcases event with ⟨path, sid⟩ | sid
  · cases hlive
    refine ⟨_, rfl, ?_, ?_⟩
    · simp only [addLookup, hpath]
    · simp only [addLookup, hsid]
  · obtain ⟨path, hregistered, rfl⟩ := Option.map_eq_some_iff.mp hlive
    refine ⟨_, Option.map_eq_some_iff.mpr ⟨path, ?_, rfl⟩, ?_, ?_⟩
    · rw [hpath, hregistered]
    · simp only [hpath]
    · simp only [hsid]

end SidRegistry

end DsaBroker
