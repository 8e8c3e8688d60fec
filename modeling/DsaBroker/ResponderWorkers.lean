import DsaBroker.ResponderRuns
import Mathlib.Algebra.GroupWithZero.Nat

/-!
# Call registries whose persist handlers run at once, and pools of them

A worker of the pooled engine has a call registry whose `persist` is a stub that runs the
handler in place.  `GroupCallRegistry` are the operations of such a registry; what they send
is kept with the origin it is sent to.  A pool spreads the origins over workers: an origin is
added to and removed from the worker it is hashed to, and responses are broadcast.

`WorkerAgrees` relates one worker to the single table of the simple engine: the worker holds
just the origins that are hashed to it, and where both keep a last response it is the same.
Every operation preserves this (`PoolAgrees.addOrigin`, `PoolAgrees.removeOrigin`,
`PoolAgrees.broadcast`).
-/

namespace DsaBroker

/-- What a call of an operation comes to. -/
structure Called (σ : Type) where
  state : σ
  sent : List (Origin × DSAResponse) := []
  returned : Option Int := none

/-- What an origin is sent. -/
def received (origin : Origin) (sent : List (Origin × DSAResponse)) : List DSAResponse :=
  sent.filterMap fun s => if s.1 = origin then some s.2 else none

/-! ### A registry -/

namespace GroupCallRegistry

/-- `none` when `onAddOrigin` throws.  The registry type says which of the two subclasses the
registry is of. -/
def addOrigin (regTypeVal : RegistryType) (b : Bindings) (targetId : Int) (origin : Origin) :
    Option (Called Bindings) :=
  (b.handle (.addOrigin targetId origin regTypeVal)).map fun r =>
    { state := r.1
      sent := r.2.flatMap fun d => d.responses.map fun rsp => (origin, rsp) }

def removeOrigin [ScanOrder Int] (regTypeVal : RegistryType) (b : Bindings) (origin : Origin) :
    Called Bindings :=
  match b.removal origin with
  | some (targetId, theLastOne) =>
      { state := GroupCallPersist.applied b (.removeOrigin origin regTypeVal targetId theLastOne)
        returned := if theLastOne then some targetId else none }
  | none => { state := b }

/-- The bindings of a delivery with its persist handlers run. -/
def settle (delivered : Bindings.Delivered) : Bindings :=
  delivered.persisted.foldl GroupCallPersist.applied delivered.bindings

def deliverListResponse (b : Bindings) (rsp : DSAResponse) : Called Bindings where
  state := settle (b.deliverListResponse rsp)
  sent := (b.getOrigins rsp.rid).map fun origin => (origin, { rsp with rid := origin.sourceId })

/-- `none` when `extractSid` throws. -/
def handleSubscribeResponseRow (rsp : DSAResponse) (b : Bindings) (row : DSAVal) :
    Option (Called Bindings) :=
  (extractSid row).bind fun targetSid =>
    (b.handleSubscribeResponseRow rsp row).map fun delivered =>
      { state := settle delivered
        sent := (b.getOrigins targetSid).map fun origin =>
          (origin, Bindings.subscribeResponse rsp row origin) }

def deliverRows (rsp : DSAResponse) (b : Bindings) : List DSAVal → Option (Called Bindings)
  | [] => some { state := b }
  | row :: rest =>
      (handleSubscribeResponseRow rsp b row).bind fun first =>
        (deliverRows rsp first.state rest).map fun later =>
          { state := later.state
            sent := first.sent ++ later.sent }

def deliverSubscribeResponse (b : Bindings) (rsp : DSAResponse) : Option (Called Bindings) :=
  deliverRows rsp b (rsp.updates.getD [])

/-- The origins are those of the source's recipients. -/
theorem sent_deliverListResponse (b : Bindings) (rsp : DSAResponse) :
    (deliverListResponse b rsp).sent.map (fun s => (s.1.source, s.2))
      = (b.deliverListResponse rsp).sent := by
  simp only [deliverListResponse, Bindings.deliverListResponse, List.map_map,
    GroupCallRecord.origins_setLastResponse, Bindings.origins_getOrInsert]
  rfl

theorem sent_handleSubscribeResponseRow {rsp : DSAResponse} {b : Bindings} {row : DSAVal}
    {called : Called Bindings} (h : handleSubscribeResponseRow rsp b row = some called) :
    ∃ delivered, b.handleSubscribeResponseRow rsp row = some delivered ∧
      called.sent.map (fun s => (s.1.source, s.2)) = delivered.sent := by
  obtain ⟨targetSid, hsid, hrow⟩ := Option.bind_eq_some_iff.mp h
  obtain ⟨delivered, hdelivered, rfl⟩ := Option.map_eq_some_iff.mp hrow
  refine ⟨delivered, hdelivered, ?_⟩
  obtain ⟨found, hfound, rfl⟩ := Option.map_eq_some_iff.mp hdelivered
  rw [hsid] at hfound
  cases hfound
  simp only [List.map_map, GroupCallRecord.origins_setLastResponse, Bindings.origins_getOrInsert]
  rfl

end GroupCallRegistry

/-! ### A pool -/

/-- The tables of the workers of a pool. -/
abbrev Pool (n : Nat) := Fin n → Bindings

namespace Pool

variable {n : Nat}

def empty : Pool n := fun _ => ScanMap.empty

def addOrigin (hash : Origin → Fin n) (regTypeVal : RegistryType) (workers : Pool n)
    (targetId : Int) (origin : Origin) : Option (Called (Pool n)) :=
  (GroupCallRegistry.addOrigin regTypeVal (workers (hash origin)) targetId origin).map
    fun called =>
      { state := Function.update workers (hash origin) called.state
        sent := called.sent }

/-- The answers to `GetOriginCount`, summed up. -/
def originCount (workers : Pool n) (targetId : Int) : Nat :=
  ((List.finRange n).map fun w => ((workers w).getOrigins targetId).length).sum

/-- `LookupTargetId` and `RemoveOrigin` go to the worker of the origin, `GetOriginCount` to
all. -/
def removeOrigin [ScanOrder Int] (hash : Origin → Fin n) (regTypeVal : RegistryType)
    (workers : Pool n) (origin : Origin) : Called (Pool n) :=
  match (workers (hash origin)).lookupTargetId origin with
  | some targetId =>
      let rest := Function.update workers (hash origin)
        (GroupCallRegistry.removeOrigin regTypeVal (workers (hash origin)) origin).state
      { state := rest
        returned := if originCount rest targetId < 1 then some targetId else none }
  | none => { state := workers }

/-- `none` when a worker throws. -/
def broadcast (deliver : Bindings → Option (Called Bindings)) (workers : Pool n) :
    Option (Called (Pool n)) :=
  if ∀ w, (deliver (workers w)).isSome = true then
    some
      { state := fun w => ((deliver (workers w)).map Called.state).getD (workers w)
        sent := (List.finRange n).flatMap fun w =>
          ((deliver (workers w)).map Called.sent).getD [] }
  else none

/-- The list workers do not handle SUBSCRIBE responses. -/
def deliverListResponse (workers : Pool n) (rsp : DSAResponse) : Option (Called (Pool n)) :=
  if rsp.rid = 0 then some { state := workers }
  else broadcast (fun b => some (GroupCallRegistry.deliverListResponse b rsp)) workers

/-- The subscribe workers handle no other responses. -/
def deliverSubscribeResponse (workers : Pool n) (rsp : DSAResponse) :
    Option (Called (Pool n)) :=
  if rsp.rid = 0 then
    broadcast (fun b => GroupCallRegistry.deliverSubscribeResponse b rsp) workers
  else some { state := workers }

end Pool

/-! ### One worker and the single table -/

/-- The worker holds the origins that are hashed to it; and it does not keep another last
response than the single table. -/
structure WorkerAgrees {n : Nat} (hash : Origin → Fin n) (w : Fin n)
    (single worker : Bindings) : Prop where
  origins : ∀ t o, o ∈ worker.getOrigins t ↔ o ∈ single.getOrigins t ∧ hash o = w
  last : ∀ t rsp rsp', single.getLastResponse t = some rsp →
    worker.getLastResponse t = some rsp' → rsp = rsp'

def PoolAgrees {n : Nat} (hash : Origin → Fin n) (single : Bindings) (workers : Pool n) : Prop :=
  ∀ w, WorkerAgrees hash w single (workers w)

/-- What one worker sends is what the single table sends to the origins of the worker. -/
structure WorkerStep {n : Nat} (hash : Origin → Fin n) (w : Fin n)
    (single worker : Called Bindings) : Prop where
  agrees : WorkerAgrees hash w single.state worker.state
  sent : ∀ o, received o worker.sent = if hash o = w then received o single.sent else []

/-- Two calls end alike: both throw; or the states are related, every origin is sent the same
responses, and the same is returned. -/
def SameOutcome {σ τ : Type} (R : σ → τ → Prop) (single : Option (Called σ))
    (pooled : Option (Called τ)) : Prop :=
  (single = none ∧ pooled = none) ∨
    ∃ s p, single = some s ∧ pooled = some p ∧ R s.state p.state ∧
      (∀ o, received o p.sent = received o s.sent) ∧ p.returned = s.returned

/-! ### What an origin is sent -/

@[simp] theorem received_nil (o : Origin) : received o [] = [] := rfl

@[simp] theorem received_append (o : Origin) (sent later : List (Origin × DSAResponse)) :
    received o (sent ++ later) = received o sent ++ received o later :=
  List.filterMap_append ..

/-- A response that goes to every origin of a list reaches each of them once. -/
theorem received_map {origins : List Origin} (hnodup : origins.Nodup)
    (f : Origin → DSAResponse) (o : Origin) :
    received o (origins.map fun origin => (origin, f origin))
      = if o ∈ origins then [f o] else [] := by
  induction origins with
  | nil => rfl
  | cons origin rest ih =>
    obtain ⟨hnot, hrest⟩ := List.nodup_cons.mp hnodup
    have hcons : received o ((origin :: rest).map fun origin => (origin, f origin))
        = (if origin = o then [f origin] else []) ++
            received o (rest.map fun origin => (origin, f origin)) := by
      simp only [received, List.map_cons, List.filterMap_cons]
      split <;> simp_all
    rw [hcons, ih hrest]
    by_cases heq : origin = o
    · subst heq
      simp [hnot]
    · simp [heq, Ne.symm heq]

/-- What the workers send an origin is what its own worker does. -/
theorem received_flatMap {n : Nat} (sent : Fin n → List (Origin × DSAResponse)) (o : Origin)
    (own : Fin n) (hothers : ∀ w, w ≠ own → received o (sent w) = []) :
    received o ((List.finRange n).flatMap sent) = received o (sent own) := by
  have hlist : ∀ workers : List (Fin n), workers.Nodup →
      received o (workers.flatMap sent) = if own ∈ workers then received o (sent own) else [] := by
    intro workers hnodup
    induction workers with
    | nil => rfl
    | cons w rest ih =>
      obtain ⟨hnot, hrest⟩ := List.nodup_cons.mp hnodup
      rw [List.flatMap_cons, received_append, ih hrest]
      by_cases heq : w = own
      · subst heq
        simp [hnot]
      · simp [hothers w heq, Ne.symm heq]
  rw [hlist _ (List.nodup_finRange n), if_pos (List.mem_finRange own)]

theorem nodup_getOrigins (b : Bindings) (t : Int) : (b.getOrigins t).Nodup := by
  unfold Bindings.getOrigins
  cases b.get t with
  | none => exact List.nodup_nil
  | some record => exact record.nodup_origins

/-! ### Operations of one registry -/

namespace GroupCallRegistry

/-- Adding an origin sends it the last response; of the table it sees nothing else. -/
theorem addOrigin_eq (regTypeVal : RegistryType) (b : Bindings) (targetId : Int)
    (origin : Origin) :
    addOrigin regTypeVal b targetId origin =
      (Bindings.onAddOrigin regTypeVal origin
        ⟨[], List.nodup_nil, b.getLastResponse targetId⟩).map fun deliveries =>
          { state := b.internalAddOrigin targetId origin
            sent := deliveries.flatMap fun d => d.responses.map fun rsp => (origin, rsp) } := by
  have hlast : ∀ record : GroupCallRecord, record.lastResponse = b.getLastResponse targetId →
      Bindings.onAddOrigin regTypeVal origin record = Bindings.onAddOrigin regTypeVal origin
        ⟨[], List.nodup_nil, b.getLastResponse targetId⟩ := by
    intro record hrecord
    cases regTypeVal <;>
      simp only [Bindings.onAddOrigin, Bindings.onAddListOrigin, Bindings.onAddSubscribeOrigin,
        hrecord]
  rw [addOrigin, Bindings.handle, hlast _ ?_, Option.map_map]
  · rfl
  · rw [Bindings.lastResponse_getOrInsert, Bindings.getLastResponse_internalAddOrigin]

/-- An origin is removed from the binding that the scan finds, and no last response is put in
its place. -/
theorem removeOrigin_found [ScanOrder Int] (regTypeVal : RegistryType) {b : Bindings}
    {origin : Origin} {targetId : Int} (hfound : b.lookupTargetId origin = some targetId) :
    (∀ t o, o ∈ (removeOrigin regTypeVal b origin).state.getOrigins t ↔
        o ∈ b.getOrigins t ∧ ¬ (t = targetId ∧ o = origin)) ∧
      (∀ t rsp, (removeOrigin regTypeVal b origin).state.getLastResponse t = some rsp →
        b.getLastResponse t = some rsp) ∧
      ((removeOrigin regTypeVal b origin).returned = some targetId ∨
        (removeOrigin regTypeVal b origin).returned = none) ∧
      ((removeOrigin regTypeVal b origin).returned = some targetId ↔
        ∀ o ∈ b.getOrigins targetId, o = origin) := by
  obtain ⟨record, hrecord, horigin⟩ := ScanMap.get_of_find_eq_some hfound
  have horigin : origin ∈ b.getOrigins targetId :=
    Bindings.mem_getOrigins.mpr ⟨record, hrecord, of_decide_eq_true horigin⟩
  have hremoval : b.removal origin
      = some (targetId, decide ((b.getOrigins targetId).length = 1)) := by
    rw [Bindings.removal, hfound]
    rfl
  -- no origin is there twice, so a count of one means this one
  have hlength : (b.getOrigins targetId).length = 1 ↔ ∀ o ∈ b.getOrigins targetId, o = origin := by
    constructor
    · intro hone o ho
      obtain ⟨only, honly⟩ := List.length_eq_one_iff.mp hone
      rw [honly] at ho horigin
      rw [List.mem_singleton.mp ho, List.mem_singleton.mp horigin]
    · intro honly
      have hperm : (b.getOrigins targetId).Perm [origin] := by
        apply (List.perm_ext_iff_of_nodup (nodup_getOrigins b targetId) (by simp)).mpr
        intro o
        rw [List.mem_singleton]
        exact ⟨honly o, fun heq => heq ▸ horigin⟩
      rw [hperm.eq_singleton]
      rfl
  unfold removeOrigin
  rw [hremoval]
  by_cases hone : (b.getOrigins targetId).length = 1
  · -- the last origin takes the whole record along
    have honly := hlength.mp hone
    simp only [hone, decide_true, if_true, GroupCallPersist.applied,
      Bindings.mem_getOrigins_internalRemove, Bindings.mem_getOrigins_removeFrom,
      Bindings.getLastResponse_internalRemove, Bindings.getLastResponse_removeFrom]
    refine ⟨?_, ?_, Or.inl trivial, ?_⟩
    · intro t o
      constructor
      · exact And.left
      · rintro ⟨ho, hnot⟩
        refine ⟨⟨ho, hnot⟩, ?_⟩
        rintro rfl
        exact hnot ⟨rfl, honly o ho⟩
    · intro t rsp hrsp
      split at hrsp
      · cases hrsp
      · exact hrsp
    · exact ⟨fun _ => honly, fun _ => trivial⟩
  · simp only [hone, decide_false, Bool.false_eq_true, if_false, GroupCallPersist.applied]
    refine ⟨?_, ?_, Or.inr trivial, ?_⟩
    · intro t o
      exact Bindings.mem_getOrigins_removeFrom
    · intro t rsp hrsp
      rw [Bindings.getLastResponse_removeFrom] at hrsp
      exact hrsp
    · exact ⟨nofun, fun honly => absurd (hlength.mpr honly) hone⟩

/-- An origin that no binding holds is not removed. -/
theorem removeOrigin_none [ScanOrder Int] (regTypeVal : RegistryType) {b : Bindings}
    {origin : Origin} (hnone : b.lookupTargetId origin = none) :
    removeOrigin regTypeVal b origin = { state := b } := by
  have hremoval : b.removal origin = none := by
    rw [Bindings.removal, hnone]
    rfl
  rw [removeOrigin, hremoval]

end GroupCallRegistry

/-! ### The single table and one worker -/

namespace WorkerAgrees

variable {n : Nat} {hash : Origin → Fin n} {w : Fin n} {single worker : Bindings}

theorem initial (w : Fin n) : WorkerAgrees hash w .empty .empty where
  origins t o := by
    constructor
    · intro ho
      cases ho
    · rintro ⟨ho, _⟩
      cases ho
  last t rsp rsp' h := by cases h

theorem addOrigin (h : WorkerAgrees hash w single worker) (targetId : Int) {origin : Origin}
    (hown : hash origin = w) :
    WorkerAgrees hash w (single.internalAddOrigin targetId origin)
      (worker.internalAddOrigin targetId origin) where
  origins t o := by
    rw [Bindings.mem_getOrigins_internalAddOrigin, Bindings.mem_getOrigins_internalAddOrigin,
      h.origins t o]
    constructor
    · rintro (⟨rfl, rfl⟩ | ⟨ho, hw⟩)
      · exact ⟨Or.inl ⟨rfl, rfl⟩, hown⟩
      · exact ⟨Or.inr ho, hw⟩
    · rintro ⟨hnew | ho, hw⟩
      · exact Or.inl hnew
      · exact Or.inr ⟨ho, hw⟩
  last t rsp rsp' hsingle hworker := by
    rw [Bindings.getLastResponse_internalAddOrigin] at hsingle hworker
    exact h.last t rsp rsp' hsingle hworker

/-- The other workers do not see that an origin is added. -/
theorem addOther (h : WorkerAgrees hash w single worker) (targetId : Int) {origin : Origin}
    (hother : hash origin ≠ w) :
    WorkerAgrees hash w (single.internalAddOrigin targetId origin) worker where
  origins t o := by
    rw [Bindings.mem_getOrigins_internalAddOrigin, h.origins t o]
    constructor
    · rintro ⟨ho, hw⟩
      exact ⟨Or.inr ho, hw⟩
    · rintro ⟨⟨_, rfl⟩ | ho, hw⟩
      · exact absurd hw hother
      · exact ⟨ho, hw⟩
  last t rsp rsp' hsingle hworker := by
    rw [Bindings.getLastResponse_internalAddOrigin] at hsingle
    exact h.last t rsp rsp' hsingle hworker

section

variable [ScanOrder Int]

theorem removeOrigin (h : WorkerAgrees hash w single worker) (regTypeVal : RegistryType)
    {origin : Origin} {targetId : Int}
    (hsingle : single.lookupTargetId origin = some targetId)
    (hworker : worker.lookupTargetId origin = some targetId) :
    WorkerAgrees hash w (GroupCallRegistry.removeOrigin regTypeVal single origin).state
      (GroupCallRegistry.removeOrigin regTypeVal worker origin).state := by
  obtain ⟨hsingleOrigins, hsingleLast, _⟩ :=
    GroupCallRegistry.removeOrigin_found regTypeVal hsingle
  obtain ⟨hworkerOrigins, hworkerLast, _⟩ :=
    GroupCallRegistry.removeOrigin_found regTypeVal hworker
  constructor
  · intro t o
    rw [hsingleOrigins, hworkerOrigins, h.origins t o]
    tauto
  · intro t rsp rsp' hrsp hrsp'
    exact h.last t rsp rsp' (hsingleLast t rsp hrsp) (hworkerLast t rsp' hrsp')

/-- The other workers do not see that an origin is removed. -/
theorem removeOther (h : WorkerAgrees hash w single worker) (regTypeVal : RegistryType)
    {origin : Origin} (hother : hash origin ≠ w) {targetId : Int}
    (hsingle : single.lookupTargetId origin = some targetId) :
    WorkerAgrees hash w (GroupCallRegistry.removeOrigin regTypeVal single origin).state
      worker := by
  obtain ⟨hsingleOrigins, hsingleLast, _⟩ :=
    GroupCallRegistry.removeOrigin_found regTypeVal hsingle
  constructor
  · intro t o
    rw [hsingleOrigins, h.origins t o]
    constructor
    · rintro ⟨ho, hw⟩
      refine ⟨⟨ho, ?_⟩, hw⟩
      rintro ⟨_, rfl⟩
      exact hother hw
    · rintro ⟨⟨ho, _⟩, hw⟩
      exact ⟨ho, hw⟩
  · intro t rsp rsp' hrsp hrsp'
    exact h.last t rsp rsp' (hsingleLast t rsp hrsp) hrsp'

end

/-- A response is kept as the last one, or its binding is removed. -/
theorem deliver (h : WorkerAgrees hash w single worker) (targetId : Int) (rsp : DSAResponse)
    (closed : Prop) [Decidable closed] (regTypeVal : RegistryType) :
    WorkerAgrees hash w
      ((if closed then [.remove targetId regTypeVal] else []).foldl GroupCallPersist.applied
        (single.put targetId ((single.getOrInsert targetId).setLastResponse rsp)))
      ((if closed then [.remove targetId regTypeVal] else []).foldl GroupCallPersist.applied
        (worker.put targetId ((worker.getOrInsert targetId).setLastResponse rsp))) := by
  by_cases hclosed : closed
  · -- closed: the record just written is removed again, in both alike
    simp only [hclosed, if_true, List.foldl_cons, List.foldl_nil, GroupCallPersist.applied]
    constructor
    · intro t o
      rw [Bindings.mem_getOrigins_internalRemove, Bindings.mem_getOrigins_internalRemove,
        Bindings.getOrigins_put_setLastResponse, Bindings.getOrigins_put_setLastResponse,
        h.origins t o]
      tauto
    · intro t last last' hsingle hworker
      simp only [Bindings.getLastResponse_internalRemove,
        Bindings.getLastResponse_put_setLastResponse] at hsingle hworker
      by_cases ht : t = targetId
      · rw [if_pos ht] at hsingle
        cases hsingle
      · rw [if_neg ht, if_neg ht] at hsingle hworker
        exact h.last t last last' hsingle hworker
  · -- open: the new last response is the same in both
    simp only [hclosed, if_false, List.foldl_nil]
    constructor
    · intro t o
      rw [Bindings.getOrigins_put_setLastResponse, Bindings.getOrigins_put_setLastResponse,
        h.origins t o]
    · intro t last last' hsingle hworker
      simp only [Bindings.getLastResponse_put_setLastResponse] at hsingle hworker
      by_cases ht : t = targetId
      · rw [if_pos ht] at hsingle hworker
        exact Option.some.inj (hsingle.symm.trans hworker)
      · rw [if_neg ht] at hsingle hworker
        exact h.last t last last' hsingle hworker

/-- What goes to the origins of a binding. -/
theorem received_origins (h : WorkerAgrees hash w single worker) (targetId : Int)
    (f : Origin → DSAResponse) (o : Origin) :
    received o ((worker.getOrigins targetId).map fun origin => (origin, f origin)) =
      if hash o = w then
        received o ((single.getOrigins targetId).map fun origin => (origin, f origin))
      else [] := by
  rw [received_map (nodup_getOrigins worker targetId),
    received_map (nodup_getOrigins single targetId)]
  simp only [h.origins targetId o]
  by_cases hown : hash o = w <;> simp [hown]

theorem deliverListResponse (h : WorkerAgrees hash w single worker) (rsp : DSAResponse) :
    WorkerStep hash w (GroupCallRegistry.deliverListResponse single rsp)
      (GroupCallRegistry.deliverListResponse worker rsp) where
  agrees := h.deliver rsp.rid rsp (rsp.stream = some .closed) .list
  sent o := h.received_origins rsp.rid _ o

/-- Rows of subscriptions are delivered by a worker to its own origins; they throw for it just when
they throw for the single registry. -/
theorem deliverRows (h : WorkerAgrees hash w single worker) (rsp : DSAResponse)
    (rows : List DSAVal) :
    (GroupCallRegistry.deliverRows rsp single rows = none ∧
      GroupCallRegistry.deliverRows rsp worker rows = none) ∨
    ∃ s p, GroupCallRegistry.deliverRows rsp single rows = some s ∧
      GroupCallRegistry.deliverRows rsp worker rows = some p ∧ WorkerStep hash w s p := by
  induction rows generalizing single worker with
  | nil =>
    refine Or.inr ⟨_, _, rfl, rfl, h, ?_⟩
    intro o
    simp
  | cons row rest ih =>
    cases hsid : extractSid row with
    | none =>
      left
      simp only [GroupCallRegistry.deliverRows, GroupCallRegistry.handleSubscribeResponseRow,
        hsid, Option.bind_none, and_self]
    | some targetSid =>
      simp only [GroupCallRegistry.deliverRows, GroupCallRegistry.handleSubscribeResponseRow,
        Bindings.handleSubscribeResponseRow, hsid, Option.bind_some, Option.map_some]
      have hnext := h.deliver targetSid
        { rid := 0, stream := rsp.stream, updates := some [row], columns := rsp.columns,
          error := rsp.error } (rsp.stream = some .closed) .subs
      rcases ih hnext with ⟨hsingle, hworker⟩ | ⟨s, p, hsingle, hworker, hstep⟩
      · left
        simp only [GroupCallRegistry.settle, hsingle, hworker, Option.map_none, and_self]
      · right
        simp only [GroupCallRegistry.settle, hsingle, hworker, Option.map_some]
        refine ⟨_, _, rfl, rfl, hstep.agrees, ?_⟩
        intro o
        simp only [received_append, hstep.sent, h.received_origins targetSid _ o]
        split <;> rfl

end WorkerAgrees

/-! ### The single table and the pool -/

theorem Pool.originCount_lt_one {n : Nat} {workers : Pool n} {t : Int} :
    workers.originCount t < 1 ↔ ∀ w o, o ∉ (workers w).getOrigins t := by
  unfold Pool.originCount
  rw [Nat.lt_one_iff, List.sum_eq_zero_iff_forall_eq_nat]
  simp only [List.forall_mem_map, List.length_eq_zero_iff, List.eq_nil_iff_forall_not_mem,
    List.mem_finRange, true_imp_iff]

namespace PoolAgrees

variable {n : Nat} {hash : Origin → Fin n} {single : Bindings} {workers : Pool n}

theorem initial : PoolAgrees hash .empty Pool.empty := fun w => .initial w

/-- The table of one worker is changed with the single table, and the others do not see it. -/
theorem update (h : PoolAgrees hash single workers) {w : Fin n} {single' worker : Bindings}
    (hown : WorkerAgrees hash w single' worker)
    (hothers : ∀ w', w ≠ w' → WorkerAgrees hash w' single (workers w') →
      WorkerAgrees hash w' single' (workers w')) :
    PoolAgrees hash single' (Function.update workers w worker) := by
  intro w'
  by_cases hw : w' = w
  · subst hw
    rw [Function.update_self]
    exact hown
  · rw [Function.update_of_ne hw]
    exact hothers w' (Ne.symm hw) (h w')

/-- **An origin is added**, and sent the last response if the tables keep one alike. -/
theorem addOrigin (h : PoolAgrees hash single workers) (regTypeVal : RegistryType)
    (targetId : Int) (origin : Origin)
    (hkept : ((workers (hash origin)).getLastResponse targetId).isSome
      = (single.getLastResponse targetId).isSome) :
    SameOutcome (PoolAgrees hash)
      (GroupCallRegistry.addOrigin regTypeVal single targetId origin)
      (Pool.addOrigin hash regTypeVal workers targetId origin) := by
  have hlast : (workers (hash origin)).getLastResponse targetId
      = single.getLastResponse targetId := by
    cases hsingle : single.getLastResponse targetId with
    | none =>
      rw [hsingle, Option.isSome_none, Option.isSome_eq_false_iff] at hkept
      exact Option.isNone_iff_eq_none.mp hkept
    | some rsp =>
      rw [hsingle, Option.isSome_some, Option.isSome_iff_exists] at hkept
      obtain ⟨rsp', hworker⟩ := hkept
      rw [hworker, (h (hash origin)).last targetId rsp rsp' hsingle hworker]
  rw [Pool.addOrigin, GroupCallRegistry.addOrigin_eq, GroupCallRegistry.addOrigin_eq, hlast]
  cases Bindings.onAddOrigin regTypeVal origin
      ⟨[], List.nodup_nil, single.getLastResponse targetId⟩ with
  | none => exact Or.inl ⟨rfl, rfl⟩
  | some deliveries =>
    refine Or.inr ⟨_, _, rfl, rfl, ?_, fun _ => rfl, rfl⟩
    exact h.update ((h (hash origin)).addOrigin targetId rfl)
      (fun w hother hw => hw.addOther targetId hother)

/-- **An origin is removed** from the same binding. -/
theorem removeOrigin [ScanOrder Int] (h : PoolAgrees hash single workers)
    (regTypeVal : RegistryType) (origin : Origin)
    (hfound : (workers (hash origin)).lookupTargetId origin = single.lookupTargetId origin) :
    SameOutcome (PoolAgrees hash)
      (some (GroupCallRegistry.removeOrigin regTypeVal single origin))
      (some (Pool.removeOrigin hash regTypeVal workers origin)) := by
  refine Or.inr ⟨_, _, rfl, rfl, ?_⟩
  cases hsingle : single.lookupTargetId origin with
  | none =>
    rw [hsingle] at hfound
    rw [Pool.removeOrigin, hfound, GroupCallRegistry.removeOrigin_none regTypeVal hsingle]
    exact ⟨h, fun _ => rfl, rfl⟩
  | some targetId =>
    rw [hsingle] at hfound
    rw [Pool.removeOrigin, hfound]
    have hrest := h.update ((h (hash origin)).removeOrigin regTypeVal hsingle hfound)
      (fun w hother hw => hw.removeOther regTypeVal hother hsingle)
    obtain ⟨horigins, _, hreturned, hlast⟩ :=
      GroupCallRegistry.removeOrigin_found regTypeVal hsingle
    have hsent : (GroupCallRegistry.removeOrigin regTypeVal single origin).sent = [] := by
      unfold GroupCallRegistry.removeOrigin
      split <;> rfl
    refine ⟨hrest, fun o => by rw [hsent], ?_⟩
    -- all workers together have none left just if the single registry has removed its last
    have hcount : Pool.originCount (Function.update workers (hash origin)
          (GroupCallRegistry.removeOrigin regTypeVal (workers (hash origin)) origin).state) targetId
        < 1 ↔ ∀ o ∈ single.getOrigins targetId, o = origin := by
      rw [Pool.originCount_lt_one]
      constructor
      · intro hempty o ho
        by_contra hne
        refine hempty (hash o) o (((hrest (hash o)).origins targetId o).mpr ⟨?_, rfl⟩)
        exact (horigins targetId o).mpr ⟨ho, fun hsame => hne hsame.2⟩
      · intro honly w o ho
        obtain ⟨hleft, _⟩ := ((hrest w).origins targetId o).mp ho
        obtain ⟨ho, hnot⟩ := (horigins targetId o).mp hleft
        exact hnot ⟨rfl, honly o ho⟩
    by_cases honly : ∀ o ∈ single.getOrigins targetId, o = origin
    · rw [hlast.mpr honly]
      exact if_pos (hcount.mpr honly)
    · rcases hreturned with hsome | hnone
      · exact absurd (hlast.mp hsome) honly
      · rw [hnone]
        exact if_neg fun hless => honly (hcount.mp hless)

/-- **A response is broadcast**; every worker sends it to its own origins, so together they send
what the single registry would, each origin's part from one worker. -/
theorem broadcast (deliver : Bindings → Option (Called Bindings))
    (hreturns : ∀ b called, deliver b = some called → called.returned = none)
    (hdeliver : ∀ w, (deliver single = none ∧ deliver (workers w) = none) ∨
      ∃ s p, deliver single = some s ∧ deliver (workers w) = some p ∧ WorkerStep hash w s p) :
    SameOutcome (PoolAgrees hash) (deliver single) (Pool.broadcast deliver workers) := by
  cases hsingle : deliver single with
  | none =>
    -- if the single registry throws, so does every worker, and the broadcast with them
    refine Or.inl ⟨rfl, if_neg ?_⟩
    intro hall
    have hthrows := hall (hash ⟨requesterA, 0⟩)
    rcases hdeliver (hash ⟨requesterA, 0⟩) with ⟨_, hnone⟩ | ⟨s, _, hsome, _⟩
    · rw [hnone] at hthrows
      cases hthrows
    · cases hsingle.symm.trans hsome
  | some s =>
    have hworkers : ∀ w, ∃ p, deliver (workers w) = some p ∧ WorkerStep hash w s p := by
      intro w
      rcases hdeliver w with ⟨hnone, _⟩ | ⟨s', p, hs', hp, hstep⟩
      · cases hsingle.symm.trans hnone
      · cases hsingle.symm.trans hs'
        exact ⟨p, hp, hstep⟩
    have hall : ∀ w, (deliver (workers w)).isSome = true := by
      intro w
      obtain ⟨p, hp, _⟩ := hworkers w
      rw [hp]
      rfl
    refine Or.inr ⟨s, _, rfl, if_pos hall, ?_, ?_, (hreturns single s hsingle).symm⟩
    · intro w
      obtain ⟨p, hp, hstep⟩ := hworkers w
      simp only [hp, Option.map_some, Option.getD_some]
      exact hstep.agrees
    · intro o
      have hsent : ∀ w, received o (((deliver (workers w)).map Called.sent).getD [])
          = if hash o = w then received o s.sent else [] := by
        intro w
        obtain ⟨p, hp, hstep⟩ := hworkers w
        rw [hp]
        exact hstep.sent o
      -- only the worker of its hash holds an origin, so only that part of what is sent is for it
      refine (received_flatMap _ o (hash o) ?_).trans ?_
      · intro w hother
        rw [hsent, if_neg (Ne.symm hother)]
      · rw [hsent, if_pos rfl]

theorem deliverListResponse (h : PoolAgrees hash single workers) {rsp : DSAResponse}
    (hrid : rsp.rid ≠ 0) :
    SameOutcome (PoolAgrees hash) (some (GroupCallRegistry.deliverListResponse single rsp))
      (Pool.deliverListResponse workers rsp) := by
  rw [Pool.deliverListResponse, if_neg hrid]
  apply broadcast (fun b => some (GroupCallRegistry.deliverListResponse b rsp))
  · intro b called hcalled
    cases hcalled
    rfl
  · intro w
    exact Or.inr ⟨_, _, rfl, rfl, (h w).deliverListResponse rsp⟩

theorem deliverSubscribeResponse (h : PoolAgrees hash single workers) {rsp : DSAResponse}
    (hrid : rsp.rid = 0) :
    SameOutcome (PoolAgrees hash) (GroupCallRegistry.deliverSubscribeResponse single rsp)
      (Pool.deliverSubscribeResponse workers rsp) := by
  rw [Pool.deliverSubscribeResponse, if_pos hrid]
  apply broadcast (fun b => GroupCallRegistry.deliverSubscribeResponse b rsp)
  · intro b called hcalled
    unfold GroupCallRegistry.deliverSubscribeResponse at hcalled
    cases hrows : rsp.updates.getD [] with
    | nil =>
      rw [hrows] at hcalled
      cases hcalled
      rfl
    | cons row rest =>
      rw [hrows] at hcalled
      obtain ⟨first, _, hlater⟩ := Option.bind_eq_some_iff.mp hcalled
      obtain ⟨later, _, rfl⟩ := Option.map_eq_some_iff.mp hlater
      rfl
  · intro w
    exact (h w).deliverRows rsp (rsp.updates.getD [])

end PoolAgrees

end DsaBroker
