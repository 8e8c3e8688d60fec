import DsaBroker.Messages
import DsaBroker.ScanMap

/-!
# Call bindings for multi-recipient responses

`GroupCallRegistry` with its two subclasses, the LIST and the SUBSCRIBE call registry.  A
registry is the map of its bindings; the operations of the source that return a value and
change the map return both here.  The origins of a record are a set in the source, so they
are a list without repetitions; its order is the order of insertion.

`removeOrigin` decides from the bindings as they are when it is called, and persists an event
whose handler applies what was decided.  That handler works on the record object found by the
call, the model on the record found under its target id.  The difference cannot be seen: a
record is detached from its id while the handler waits only if an earlier handler of the same
message removes the whole binding, and then all decisions of that message about this target
id were to remove it.
-/

namespace DsaBroker

inductive RegistryType where
  | list | subs | default
deriving DecidableEq, Repr

/-- Encapsulates information about a List or Subscribe call - the requesters assigned to it
and the last received response, if any. -/
@[ext] structure GroupCallRecord where
  origins : List Origin
  nodup_origins : origins.Nodup
  lastResponse : Option DSAResponse

namespace GroupCallRecord

def blank : GroupCallRecord := ⟨[], List.nodup_nil, none⟩

def setLastResponse (record : GroupCallRecord) (rsp : DSAResponse) : GroupCallRecord :=
  { record with lastResponse := some rsp }

def addOrigin (record : GroupCallRecord) (origin : Origin) : GroupCallRecord :=
  if h : origin ∈ record.origins then record
  else
    { record with
      origins := record.origins ++ [origin]
      nodup_origins := by
        refine List.nodup_append.mpr ⟨record.nodup_origins, by simp, ?_⟩
        intro a ha b hb hab
        rw [List.mem_singleton.mp hb] at hab
        exact h (hab ▸ ha) }

def removeOrigin (record : GroupCallRecord) (origin : Origin) : GroupCallRecord :=
  { record with
    origins := record.origins.filter (· ≠ origin)
    nodup_origins := record.nodup_origins.filter _ }

@[simp] theorem origins_blank : blank.origins = [] := rfl

@[simp] theorem origins_setLastResponse (record : GroupCallRecord) (rsp : DSAResponse) :
    (record.setLastResponse rsp).origins = record.origins := rfl

@[simp] theorem lastResponse_setLastResponse (record : GroupCallRecord) (rsp : DSAResponse) :
    (record.setLastResponse rsp).lastResponse = some rsp := rfl

@[simp] theorem lastResponse_addOrigin (record : GroupCallRecord) (origin : Origin) :
    (record.addOrigin origin).lastResponse = record.lastResponse := by
  unfold addOrigin
  split <;> rfl

@[simp] theorem lastResponse_removeOrigin (record : GroupCallRecord) (origin : Origin) :
    (record.removeOrigin origin).lastResponse = record.lastResponse := rfl

@[simp] theorem mem_origins_addOrigin (record : GroupCallRecord) (origin o : Origin) :
    o ∈ (record.addOrigin origin).origins ↔ o = origin ∨ o ∈ record.origins := by
  unfold addOrigin
  split
  case isTrue h =>
    constructor
    · exact Or.inr
    · rintro (rfl | ho)
      · exact h
      · exact ho
  case isFalse => simp [or_comm]

@[simp] theorem mem_origins_removeOrigin (record : GroupCallRecord) (origin o : Origin) :
    o ∈ (record.removeOrigin origin).origins ↔ o ∈ record.origins ∧ o ≠ origin := by
  simp [removeOrigin]

theorem removeOrigin_of_not_mem {record : GroupCallRecord} {origin : Origin}
    (h : origin ∉ record.origins) : record.removeOrigin origin = record := by
  refine GroupCallRecord.ext ?_ rfl
  show record.origins.filter (· ≠ origin) = record.origins
  rw [List.filter_eq_self]
  intro o ho
  have hne : o ≠ origin := fun heq => h (heq ▸ ho)
  simpa using hne

end GroupCallRecord

/-- The bindings of a registry. -/
abbrev Bindings := ScanMap Int GroupCallRecord

/-! ### Events and persist calls -/

inductive GroupCallRegistryRestoreProcess where
  | originAdded (targetId : Int) (origin : Origin) (regTypeVal : RegistryType)
  | originRemoved (origin : Origin) (regTypeVal : RegistryType)
  | recordRemoved (targetId : Int) (regTypeVal : RegistryType)
deriving DecidableEq, Repr

/-- A persist call: its event and what its handler has captured. -/
inductive GroupCallPersist where
  | addOrigin (targetId : Int) (origin : Origin) (regTypeVal : RegistryType)
  | removeOrigin (origin : Origin) (regTypeVal : RegistryType) (targetId : Int)
      (theLastOne : Bool)
  | remove (targetId : Int) (regTypeVal : RegistryType)
deriving DecidableEq, Repr

namespace GroupCallPersist

def event : GroupCallPersist → GroupCallRegistryRestoreProcess
  | addOrigin targetId origin regTypeVal => .originAdded targetId origin regTypeVal
  | removeOrigin origin regTypeVal _ _ => .originRemoved origin regTypeVal
  | remove targetId regTypeVal => .recordRemoved targetId regTypeVal

def regTypeVal : GroupCallPersist → RegistryType
  | addOrigin _ _ regTypeVal | removeOrigin _ regTypeVal _ _ | remove _ regTypeVal => regTypeVal

end GroupCallPersist

def GroupCallRegistryRestoreProcess.value : GroupCallRegistryRestoreProcess → RegistryType
  | originAdded _ _ regTypeVal | originRemoved _ regTypeVal
  | recordRemoved _ regTypeVal => regTypeVal

namespace Bindings

/-! ### Operations -/

/-- Retrieves a record by the key from the binding map, a new blank record if the key is not
found.  (The source also inserts the new record; here each caller puts the record back.) -/
def getOrInsert (b : Bindings) (targetId : Int) : GroupCallRecord :=
  (b.get targetId).getD .blank

def internalRemove (b : Bindings) (targetId : Int) : Bindings := b.remove targetId

def internalAddOrigin (b : Bindings) (targetId : Int) (origin : Origin) : Bindings :=
  b.put targetId ((getOrInsert b targetId).addOrigin origin)

/-- Removes the origin from the record under this target id, if there is one. -/
def removeFrom (b : Bindings) (targetId : Int) (origin : Origin) : Bindings :=
  match b.get targetId with
  | some record => b.put targetId (record.removeOrigin origin)
  | none => b

/-- Returns the origins for the specified target Id, or an empty set if the key is not
found. -/
def getOrigins (b : Bindings) (targetId : Int) : List Origin :=
  ((b.get targetId).map GroupCallRecord.origins).getD []

/-- Returns the last response for the specified target Id, or `none` if not found. -/
def getLastResponse (b : Bindings) (targetId : Int) : Option DSAResponse :=
  (b.get targetId).bind GroupCallRecord.lastResponse

/-- Sets the last response for the specified target Id. -/
def setLastResponse (b : Bindings) (targetId : Int) (response : DSAResponse) : Bindings :=
  b.put targetId ((getOrInsert b targetId).setLastResponse response)

section Scan

variable [ScanOrder Int]

/-- Looks for the call record containing the specified origin. -/
def lookupTargetId (b : Bindings) (origin : Origin) : Option Int :=
  b.find fun record => decide (origin ∈ record.origins)

def internalRemoveOrigin (b : Bindings) (origin : Origin) : Bindings :=
  match lookupTargetId b origin with
  | some targetId =>
      let rest := removeFrom b targetId origin
      if getOrigins rest targetId = [] then internalRemove rest targetId else rest
  | none => b

/-- What `removeOrigin` decides when it is called: the target id, and whether the origin is
the last one. -/
def removal (b : Bindings) (origin : Origin) : Option (Int × Bool) :=
  (lookupTargetId b origin).map fun targetId =>
    (targetId, decide ((getOrigins b targetId).length = 1))

def restoreGroupCallRegistry (b : Bindings) : GroupCallRegistryRestoreProcess → Bindings
  | .recordRemoved targetId _ => internalRemove b targetId
  | .originAdded targetId origin _ => internalAddOrigin b targetId origin
  | .originRemoved origin _ => internalRemoveOrigin b origin

end Scan

/-! ### Handlers of persisted events -/

/-- Sends the last call response (if any) to the new origin, LIST calls. -/
def onAddListOrigin (origin : Origin) (record : GroupCallRecord) : List Delivery :=
  record.lastResponse.toList.map fun response =>
    ⟨origin.source, [{ response with rid := origin.sourceId }]⟩

/-- The response with the SID of one row replaced, as a subscriber gets it. -/
def subscribeResponse (rsp : DSAResponse) (row : DSAVal) (origin : Origin) : DSAResponse where
  rid := 0
  stream := rsp.stream
  updates := some [replaceSid row origin.sourceId]
  columns := rsp.columns
  error := rsp.error

/-- Sends the last call response (if any) to the new origin, SUBSCRIBE calls; `none` when
`rsp.updates.get.head` throws. -/
def onAddSubscribeOrigin (origin : Origin) (record : GroupCallRecord) :
    Option (List Delivery) :=
  match record.lastResponse with
  | none => some []
  | some rsp =>
      match rsp.updates with
      | some (row :: _) => some [⟨origin.source, [subscribeResponse rsp row origin]⟩]
      | _ => none

/-- `onAddOrigin`. -/
def onAddOrigin (regTypeVal : RegistryType) (origin : Origin) (record : GroupCallRecord) :
    Option (List Delivery) :=
  match regTypeVal with
  | .subs => onAddSubscribeOrigin origin record
  | _ => some (onAddListOrigin origin record)

/-- The handlers of `addOrigin`, `removeOrigin` and `remove`; `none` when a handler throws. -/
def handle (b : Bindings) : GroupCallPersist → Option (Bindings × List Delivery)
  | .addOrigin targetId origin regTypeVal =>
      let b' := internalAddOrigin b targetId origin
      (onAddOrigin regTypeVal origin (getOrInsert b' targetId)).map fun sent => (b', sent)
  | .removeOrigin origin _ targetId theLastOne =>
      let b' := removeFrom b targetId origin
      some (if theLastOne then internalRemove b' targetId else b', [])
  | .remove targetId _ => some (internalRemove b targetId, [])

/-! ### Delivery of responses -/

/-- A response is delivered: the bindings after it, the persist calls it makes and the
responses it sends, each with its recipient. -/
structure Delivered where
  bindings : Bindings
  persisted : List GroupCallPersist := []
  sent : List (Routee × DSAResponse) := []

/-- Iterates over the origins from the call record and sends out the response to every one of
them. -/
def deliverListResponse (b : Bindings) (rsp : DSAResponse) : Delivered :=
  let record := (getOrInsert b rsp.rid).setLastResponse rsp
  { bindings := b.put rsp.rid record
    sent := record.origins.map fun origin =>
      (origin.source, { rsp with rid := origin.sourceId })
    persisted :=
      -- shouldn't normally happen w/o CLOSE
      if rsp.stream = some .closed then [.remove rsp.rid .list] else [] }

/-- `none` when `extractSid` throws. -/
def handleSubscribeResponseRow (rsp : DSAResponse) (b : Bindings) (row : DSAVal) :
    Option Delivered :=
  (extractSid row).map fun targetSid =>
    let record := (getOrInsert b targetSid).setLastResponse
      { rid := 0, stream := rsp.stream, updates := some [row], columns := rsp.columns,
        error := rsp.error }
    { bindings := b.put targetSid record
      sent := record.origins.map fun origin => (origin.source, subscribeResponse rsp row origin)
      persisted :=
        -- shouldn't normally happen w/o UNSUBSCRIBE
        if rsp.stream = some .closed then [.remove targetSid .subs] else [] }

/-- The rows of a SUBSCRIBE response, one after the other. -/
def deliverRows (rsp : DSAResponse) (b : Bindings) : List DSAVal → Option Delivered
  | [] => some { bindings := b }
  | row :: rest =>
      (handleSubscribeResponseRow rsp b row).bind fun first =>
        (deliverRows rsp first.bindings rest).map fun later =>
          { bindings := later.bindings
            persisted := first.persisted ++ later.persisted
            sent := first.sent ++ later.sent }

/-- `deliverResponse` of SUBSCRIBE calls; a response without rows is only logged. -/
def deliverSubscribeResponse (b : Bindings) (rsp : DSAResponse) : Option Delivered :=
  deliverRows rsp b (rsp.updates.getD [])

/-! ### Lookups after updates -/

theorem mem_getOrigins {b : Bindings} {targetId : Int} {o : Origin} :
    o ∈ getOrigins b targetId ↔ ∃ record, b.get targetId = some record ∧ o ∈ record.origins := by
  unfold getOrigins
  cases b.get targetId <;> simp

theorem origins_getOrInsert (b : Bindings) (targetId : Int) :
    (getOrInsert b targetId).origins = getOrigins b targetId := by
  unfold getOrInsert getOrigins
  cases b.get targetId <;> rfl

theorem lastResponse_getOrInsert (b : Bindings) (targetId : Int) :
    (getOrInsert b targetId).lastResponse = getLastResponse b targetId := by
  unfold getOrInsert getLastResponse
  cases b.get targetId <;> rfl

@[simp] theorem get_internalAddOrigin (b : Bindings) (targetId t : Int) (origin : Origin) :
    (internalAddOrigin b targetId origin).get t =
      if t = targetId then some ((getOrInsert b targetId).addOrigin origin) else b.get t :=
  ScanMap.get_put ..

@[simp] theorem get_internalRemove (b : Bindings) (targetId t : Int) :
    (internalRemove b targetId).get t = if t = targetId then none else b.get t :=
  ScanMap.get_remove ..

theorem get_removeFrom (b : Bindings) (targetId t : Int) (origin : Origin) :
    (removeFrom b targetId origin).get t =
      if t = targetId then (b.get t).map fun record => record.removeOrigin origin
      else b.get t := by
  unfold removeFrom
  cases hget : b.get targetId with
  | some record =>
    by_cases ht : t = targetId
    · simp [ht, hget]
    · simp [ScanMap.get_put, ht]
  | none =>
    by_cases ht : t = targetId
    · simp [ht, hget]
    · simp [ht]

/-- The target id has a binding. -/
def Bound (b : Bindings) (targetId : Int) : Prop := ∃ record, b.get targetId = some record

@[simp] theorem bound_internalAddOrigin {b : Bindings} {targetId t : Int} {origin : Origin} :
    (internalAddOrigin b targetId origin).Bound t ↔ t = targetId ∨ b.Bound t := by
  simp only [Bound, get_internalAddOrigin]
  by_cases ht : t = targetId <;> simp [ht]

@[simp] theorem bound_removeFrom {b : Bindings} {targetId t : Int} {origin : Origin} :
    (removeFrom b targetId origin).Bound t ↔ b.Bound t := by
  simp only [Bound, get_removeFrom]
  split
  · cases b.get t <;> simp
  · rfl

@[simp] theorem bound_internalRemove {b : Bindings} {targetId t : Int} :
    (internalRemove b targetId).Bound t ↔ b.Bound t ∧ t ≠ targetId := by
  simp only [Bound, get_internalRemove]
  by_cases ht : t = targetId <;> simp [ht]

theorem mem_getOrigins_internalAddOrigin {b : Bindings} {targetId t : Int} {origin o : Origin} :
    o ∈ getOrigins (internalAddOrigin b targetId origin) t ↔
      (t = targetId ∧ o = origin) ∨ o ∈ getOrigins b t := by
  simp only [getOrigins, get_internalAddOrigin]
  by_cases ht : t = targetId
  · subst ht
    simp only [if_true, Option.map_some, Option.getD_some, GroupCallRecord.mem_origins_addOrigin,
      getOrInsert, true_and]
    cases b.get t <;> rfl
  · simp only [ht, if_false, false_and, false_or]

theorem getLastResponse_internalAddOrigin (b : Bindings) (targetId t : Int) (origin : Origin) :
    getLastResponse (internalAddOrigin b targetId origin) t = getLastResponse b t := by
  simp only [getLastResponse, get_internalAddOrigin]
  by_cases ht : t = targetId
  · subst ht
    simp only [if_true, Option.bind_some, GroupCallRecord.lastResponse_addOrigin, getOrInsert]
    cases b.get t <;> rfl
  · simp only [ht, if_false]

theorem mem_getOrigins_removeFrom {b : Bindings} {targetId t : Int} {origin o : Origin} :
    o ∈ getOrigins (removeFrom b targetId origin) t ↔
      o ∈ getOrigins b t ∧ ¬ (t = targetId ∧ o = origin) := by
  simp only [getOrigins, get_removeFrom]
  by_cases ht : t = targetId
  · simp only [ht, if_true, true_and]
    cases b.get targetId <;> simp
  · simp only [ht, if_false, false_and, not_false_iff, and_true]

theorem getLastResponse_removeFrom (b : Bindings) (targetId t : Int) (origin : Origin) :
    getLastResponse (removeFrom b targetId origin) t = getLastResponse b t := by
  simp only [getLastResponse, get_removeFrom]
  split
  · cases b.get t <;> rfl
  · rfl

theorem mem_getOrigins_internalRemove {b : Bindings} {targetId t : Int} {o : Origin} :
    o ∈ getOrigins (internalRemove b targetId) t ↔ o ∈ getOrigins b t ∧ t ≠ targetId := by
  simp only [getOrigins, get_internalRemove]
  by_cases ht : t = targetId <;> simp [ht]

theorem getLastResponse_internalRemove (b : Bindings) (targetId t : Int) :
    getLastResponse (internalRemove b targetId) t =
      if t = targetId then none else getLastResponse b t := by
  simp only [getLastResponse, get_internalRemove]
  by_cases ht : t = targetId <;> simp [ht]

/-- What `removeOrigin` decides about is a binding that holds the origin. -/
theorem removal_eq_some [ScanOrder Int] {b : Bindings} {origin : Origin} {targetId : Int}
    {theLastOne : Bool} (h : removal b origin = some (targetId, theLastOne)) :
    ∃ record, b.get targetId = some record ∧ origin ∈ record.origins ∧
      (theLastOne = true ↔ record.origins.length = 1) := by
  obtain ⟨found, hfound, heq⟩ := Option.map_eq_some_iff.mp h
  cases heq
  obtain ⟨record, hrecord, horigin⟩ := ScanMap.get_of_find_eq_some hfound
  refine ⟨record, hrecord, of_decide_eq_true horigin, ?_⟩
  simp [getOrigins, hrecord]

/-- Removing an origin that no binding holds changes nothing. -/
theorem removeFrom_of_removal_none [ScanOrder Int] {b : Bindings} {origin : Origin}
    (h : removal b origin = none) (targetId : Int) : removeFrom b targetId origin = b := by
  have hnone := ScanMap.find_eq_none.mp (Option.map_eq_none_iff.mp h)
  unfold removeFrom
  cases hget : b.get targetId with
  | none => rfl
  | some record =>
    have hnot : origin ∉ record.origins := of_decide_eq_false (hnone targetId record hget)
    simp only [GroupCallRecord.removeOrigin_of_not_mem hnot]
    exact ScanMap.put_of_get hget

/-! ### What a delivery keeps -/

/-- Delivering sets the last response and leaves the origins alone. -/
theorem get_put_setLastResponse (b : Bindings) (targetId t : Int) (rsp : DSAResponse) :
    (b.put targetId ((getOrInsert b targetId).setLastResponse rsp)).get t =
      if t = targetId then some ((getOrInsert b targetId).setLastResponse rsp) else b.get t :=
  ScanMap.get_put ..

theorem getOrigins_put_setLastResponse (b : Bindings) (targetId t : Int) (rsp : DSAResponse) :
    getOrigins (b.put targetId ((getOrInsert b targetId).setLastResponse rsp)) t
      = getOrigins b t := by
  simp only [getOrigins, get_put_setLastResponse]
  split
  case isTrue ht =>
    subst ht
    simp only [getOrInsert]
    cases b.get t <;> rfl
  case isFalse => rfl

theorem getLastResponse_put_setLastResponse (b : Bindings) (targetId t : Int)
    (rsp : DSAResponse) :
    getLastResponse (b.put targetId ((getOrInsert b targetId).setLastResponse rsp)) t
      = if t = targetId then some rsp else getLastResponse b t := by
  simp only [getLastResponse, get_put_setLastResponse]
  split <;> rfl

@[simp] theorem bound_put_setLastResponse {b : Bindings} {targetId t : Int} {rsp : DSAResponse} :
    Bound (b.put targetId ((getOrInsert b targetId).setLastResponse rsp)) t ↔
      t = targetId ∨ b.Bound t := by
  simp only [Bound, get_put_setLastResponse]
  by_cases ht : t = targetId <;> simp [ht]

/-- What every row keeps, the rows of a response keep. -/
theorem deliverRows_invariant (Inv : Delivered → Prop) {rsp : DSAResponse} {rows : List DSAVal}
    (hrow : ∀ d row first, row ∈ rows → Inv d →
      handleSubscribeResponseRow rsp d.bindings row = some first →
      Inv ⟨first.bindings, d.persisted ++ first.persisted, d.sent ++ first.sent⟩)
    {b : Bindings} {persisted : List GroupCallPersist} {sent : List (Routee × DSAResponse)}
    {later : Delivered} (hb : Inv ⟨b, persisted, sent⟩) (h : deliverRows rsp b rows = some later) :
    Inv ⟨later.bindings, persisted ++ later.persisted, sent ++ later.sent⟩ := by
  induction rows generalizing b persisted sent later with
  | nil =>
    cases h
    simpa using hb
  | cons row rest ih =>
    simp only [deliverRows, Option.bind_eq_some_iff, Option.map_eq_some_iff] at h
    obtain ⟨first, hfirst, next, hnext, rfl⟩ := h
    have hinv := hrow _ row first List.mem_cons_self hb hfirst
    have hrest := ih (fun d r f hr => hrow d r f (List.mem_cons_of_mem _ hr)) hinv hnext
    rwa [← List.append_assoc, ← List.append_assoc]

theorem deliverSubscribeResponse_invariant (Inv : Delivered → Prop) {rsp : DSAResponse}
    (hrow : ∀ d row first, row ∈ rsp.updates.getD [] → Inv d →
      handleSubscribeResponseRow rsp d.bindings row = some first →
      Inv ⟨first.bindings, d.persisted ++ first.persisted, d.sent ++ first.sent⟩)
    {b : Bindings} {delivered : Delivered} (hb : Inv { bindings := b })
    (h : deliverSubscribeResponse b rsp = some delivered) : Inv delivered :=
  deliverRows_invariant Inv hrow hb h

/-- Delivering a SUBSCRIBE response binds the SIDs of its rows, and changes no origins. -/
theorem bound_deliverRows {rsp : DSAResponse} {rows : List DSAVal} {b : Bindings}
    {delivered : Delivered} (h : deliverRows rsp b rows = some delivered) (t : Int) :
    (Bound delivered.bindings t ↔ Bound b t ∨ ∃ row ∈ rows, extractSid row = some t) ∧
      getOrigins delivered.bindings t = getOrigins b t := by
  induction rows generalizing b delivered with
  | nil =>
    cases h
    simp
  | cons row rest ih =>
    simp only [deliverRows, Option.bind_eq_some_iff, Option.map_eq_some_iff] at h
    obtain ⟨first, hfirst, later, hlater, rfl⟩ := h
    obtain ⟨targetSid, hsid, rfl⟩ := Option.map_eq_some_iff.mp hfirst
    obtain ⟨hbound, horigins⟩ := ih hlater
    constructor
    · rw [hbound, bound_put_setLastResponse, List.exists_mem_cons_iff, hsid, Option.some.injEq]
      grind
    · rw [horigins, getOrigins_put_setLastResponse]

/-- The persist calls of a SUBSCRIBE response: one for each row, if the stream is closed. -/
theorem mem_persisted_deliverRows {rsp : DSAResponse} {rows : List DSAVal} {b : Bindings}
    {delivered : Delivered} (h : deliverRows rsp b rows = some delivered)
    (call : GroupCallPersist) :
    call ∈ delivered.persisted ↔
      rsp.stream = some .closed ∧
        ∃ row ∈ rows, ∃ sid, extractSid row = some sid ∧ call = .remove sid .subs := by
  induction rows generalizing b delivered with
  | nil =>
    cases h
    simp
  | cons row rest ih =>
    simp only [deliverRows, Option.bind_eq_some_iff, Option.map_eq_some_iff] at h
    obtain ⟨first, hfirst, later, hlater, rfl⟩ := h
    obtain ⟨targetSid, hsid, rfl⟩ := Option.map_eq_some_iff.mp hfirst
    rw [List.mem_append, ih hlater, List.exists_mem_cons_iff, hsid]
    by_cases hclosed : rsp.stream = some .closed <;> simp [hclosed]

end Bindings

end DsaBroker
