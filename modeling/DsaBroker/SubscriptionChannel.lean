import DsaBroker.HashTable
import DsaBroker.RequesterBehavior
import DsaBroker.Runs

/-!
# The subscription channel

`SubscriptionChannel`: a stream stage between the updates of a link and its socket.  It keeps one
queue of messages for each SID, and hands all queues over to the downstream when a batch arrives
while there is demand.

`pushNext` gives the emitter an iterator over the queues and clears the queues right after.  The
emitter reads on as the downstream pulls, and `mutable.HashMap` iterates over its live array with
one entry of look-ahead: of the queues cleared only those in the bucket of that entry are still
read.  `loses_nothing` says in which runs this goes well.

Demand without an emission in progress waits for the next batch, also when there are messages in
the queues; `withholds_nothing` says in which runs there are none.

The capacity and the hash function are parameters.  The end of the stream is left out.
-/

namespace DsaBroker

/-- The queue of a SID, which is never empty. -/
abbrev SidQueue := { q : List SubscriptionNotificationMessage // q ≠ [] }

abbrev SubscriptionsQueue (hashing : Hashing Int) := HashTable hashing SidQueue

/-- `EmittingIterator` over the messages of all queues, after `hasNext`. -/
structure Emission where
  upcoming : SubscriptionNotificationMessage
  /-- the rest of the queue of this message -/
  it : List SubscriptionNotificationMessage
  /-- the other queues -/
  its : Cursor Int SidQueue

inductive Outlet where
  /-- not pulled since the last push -/
  | idle
  | available
  | emitting (emission : Emission)

/-- The stage, with a record of the messages put, dropped, handed over by `pushNext` and
emitted. -/
structure SubscriptionChannel (hashing : Hashing Int) where
  subscriptionsQueue : SubscriptionsQueue hashing
  outlet : Outlet
  inPulled : Bool
  arrived : List SubscriptionNotificationMessage
  dropped : List SubscriptionNotificationMessage
  handed : List SubscriptionNotificationMessage
  emitted : List SubscriptionNotificationMessage

inductive ChannelInput where
  /-- by the upstream -/
  | push (batch : List SubscriptionNotificationMessage)
  /-- by the downstream -/
  | pull
  /-- by the requester, while the link is disconnected -/
  | putMessage (message : SubscriptionNotificationMessage)
  /-- The link has been connected again. -/
  | createLogic

/-! ### The hash function -/

namespace MutableHashMap

def reverseBytes (v : BitVec 32) : BitVec 32 :=
  v.extractLsb' 0 8 ++ v.extractLsb' 8 8 ++ v.extractLsb' 16 8 ++ v.extractLsb' 24 8

def byteswap32 (v : BitVec 32) : BitVec 32 := reverseBytes (v * 0x9e3775cd#32) * 0x9e3775cd#32

def improve (hcode : BitVec 32) (seed : Nat) : BitVec 32 := (byteswap32 hcode).rotateRight seed

/-- The leading bits of the hash code of an `Int`.  The seed comes from the initial length. -/
def hashing : Hashing Int where
  index length key :=
    (improve (BitVec.ofInt 32 key) 4 >>> (31 - (length - 1).log2)).toNat &&& (length - 1)
  index_lt := by
    intro length key h
    exact Nat.lt_of_le_of_lt Nat.and_le_right (by omega)

end MutableHashMap

/-! ### Emissions -/

namespace Emission

variable {hashing : Hashing Int}

/-- `elems.hasNext`, which finds the next message. -/
def hasNext (queues : SubscriptionsQueue hashing) (its : Cursor Int SidQueue) :
    List SubscriptionNotificationMessage → Option Emission
  | message :: it => some ⟨message, it, its⟩
  | [] => (its.next queues).map fun r => ⟨r.1.2.val.head r.1.2.property, r.1.2.val.tail, r.2⟩

/-- The outlet after the message has been pushed. -/
def pushed (queues : SubscriptionsQueue hashing) (emission : Emission) : Outlet :=
  match hasNext queues emission.its emission.it with
  | some emission => .emitting emission
  | none => .idle

end Emission

namespace Outlet

variable {hashing : Hashing Int}

def isAvailable : Outlet → Bool
  | .available => true
  | .idle | .emitting _ => false

def isEmitting : Outlet → Bool
  | .emitting _ => true
  | .idle | .available => false

/-- The effect of `subscriptionsQueue.clear()` on the iterator. -/
def clear (queues : SubscriptionsQueue hashing) : Outlet → Outlet
  | .emitting emission => .emitting { emission with its := emission.its.clear queues }
  | outlet => outlet

/-- The effect of `subscriptionsQueue += (sid -> queue)` on the iterator. -/
def put (queues : SubscriptionsQueue hashing) (sid : Int) (queue : SidQueue) : Outlet → Outlet
  | .emitting emission => .emitting { emission with its := emission.its.put queues sid queue }
  | outlet => outlet

end Outlet

namespace SubscriptionChannel

variable {hashing : Hashing Int}

def initial (hashing : Hashing Int) : SubscriptionChannel hashing where
  subscriptionsQueue := .empty 16 (by decide)
  outlet := .idle
  inPulled := false
  arrived := []
  dropped := []
  handed := []
  emitted := []

/-! ### Putting messages -/

/-- The queue of a SID. -/
def queueOf (s : SubscriptionChannel hashing) (sid : Int) : List SubscriptionNotificationMessage :=
  ((s.subscriptionsQueue.find sid).map Subtype.val).getD []

/-- What a message drops and what it keeps of the queue it joins. -/
def makeRoom (capacity : Nat) (queue : List SubscriptionNotificationMessage) :
    QoS → List SubscriptionNotificationMessage × List SubscriptionNotificationMessage
  | .default => (queue, [])
  | _ => if capacity < queue.length then (queue.take 1, queue.drop 1) else ([], queue)

def putMessage (capacity : Nat) (s : SubscriptionChannel hashing)
    (message : SubscriptionNotificationMessage) : SubscriptionChannel hashing :=
  let room := makeRoom capacity (s.queueOf message.sid) message.qos
  let queue : SidQueue := ⟨room.2 ++ [message], List.concat_ne_nil message room.2⟩
  { s with
    subscriptionsQueue := s.subscriptionsQueue.put message.sid queue
    outlet := s.outlet.put s.subscriptionsQueue message.sid queue
    arrived := s.arrived ++ [message]
    dropped := s.dropped ++ room.1 }

/-! ### Handlers of the stage -/

/-- The messages of some queues. -/
def contents (entries : List (Int × SidQueue)) : List SubscriptionNotificationMessage :=
  entries.flatMap fun e => e.2.val

/-- All messages, in the order of the iteration. -/
def queued (queues : SubscriptionsQueue hashing) : List SubscriptionNotificationMessage :=
  contents queues.entries

/-- `emitMultiple` pushes the first message and goes on later; the queues are cleared. -/
def pushNext (s : SubscriptionChannel hashing) : SubscriptionChannel hashing :=
  let queues := s.subscriptionsQueue
  let s := { s with
    subscriptionsQueue := queues.clear
    inPulled := true
    handed := s.handed ++ queued queues }
  match Emission.hasNext queues (.start queues) [] with
  | some emission =>
      { s with
        emitted := s.emitted ++ [emission.upcoming]
        outlet := (emission.pushed queues).clear queues }
  | none => s

/-- `grab(in)`. -/
def grab (s : SubscriptionChannel hashing) : SubscriptionChannel hashing :=
  { s with inPulled := false }

def onPush (capacity : Nat) (s : SubscriptionChannel hashing)
    (batch : List SubscriptionNotificationMessage) : SubscriptionChannel hashing :=
  let s := batch.foldl (putMessage capacity) s.grab
  if s.outlet.isAvailable then s.pushNext else s

/-- `onPull`, of the outlet's own handler or of the emitter. -/
def onPull (s : SubscriptionChannel hashing) : SubscriptionChannel hashing :=
  match s.outlet with
  | .emitting emission =>
      { s with
        emitted := s.emitted ++ [emission.upcoming]
        outlet := emission.pushed s.subscriptionsQueue }
  | _ => { s with outlet := .available, inPulled := true }

/-- One step.  The upstream pushes only when it has been pulled, and the downstream pulls only
when its last pull has been answered. -/
def step (capacity : Nat) (s : SubscriptionChannel hashing) :
    ChannelInput → Option (SubscriptionChannel hashing)
  | .push batch => if s.inPulled then some (s.onPush capacity batch) else none
  | .pull => if s.outlet.isAvailable then none else some s.onPull
  | .putMessage message => some (s.putMessage capacity message)
  | .createLogic => some { s with outlet := .idle, inPulled := false }

theorem isAvailable_pushed (queues : SubscriptionsQueue hashing) (emission : Emission) :
    (emission.pushed queues).isAvailable = false := by
  unfold Emission.pushed
  split <;> rfl

@[simp] theorem isAvailable_put (queues : SubscriptionsQueue hashing) (sid : Int)
    (queue : SidQueue) (outlet : Outlet) :
    (outlet.put queues sid queue).isAvailable = outlet.isAvailable := by
  cases outlet <;> rfl

theorem isEmitting_of_isAvailable {outlet : Outlet} (h : outlet.isAvailable = true) :
    outlet.isEmitting = false := by
  cases outlet with
  | available => rfl
  | idle => cases h
  | emitting emission => cases h

/-! ### What the queues hold -/

theorem makeRoom_append (capacity : Nat) (queue : List SubscriptionNotificationMessage)
    (qos : QoS) : (makeRoom capacity queue qos).1 ++ (makeRoom capacity queue qos).2 = queue := by
  unfold makeRoom
  split
  case h_1 => exact List.append_nil queue
  case h_2 =>
    split
    case isTrue => exact List.take_append_drop 1 queue
    case isFalse => rfl

theorem queueOf_putMessage (capacity : Nat) (s : SubscriptionChannel hashing)
    (message : SubscriptionNotificationMessage) (sid : Int) :
    (s.putMessage capacity message).queueOf sid =
      if sid = message.sid then
        (makeRoom capacity (s.queueOf message.sid) message.qos).2 ++ [message]
      else s.queueOf sid := by
  rw [queueOf, putMessage, HashTable.find_put]
  split <;> rfl

theorem contents_cons (e : Int × SidQueue) (entries : List (Int × SidQueue)) :
    contents (e :: entries) = e.2.val ++ contents entries := List.flatMap_cons ..

/-- The messages of a SID. -/
def ofSid (sid : Int) (messages : List SubscriptionNotificationMessage) :
    List SubscriptionNotificationMessage :=
  messages.filter fun message => message.sid = sid

theorem ofSid_append (sid : Int) (l₁ l₂ : List SubscriptionNotificationMessage) :
    ofSid sid (l₁ ++ l₂) = ofSid sid l₁ ++ ofSid sid l₂ := List.filter_append ..

theorem ofSid_eq_self {sid : Int} {messages : List SubscriptionNotificationMessage}
    (h : ∀ message ∈ messages, message.sid = sid) : ofSid sid messages = messages := by
  apply List.filter_eq_self.mpr
  intro message hmessage
  exact decide_eq_true (h message hmessage)

theorem ofSid_eq_nil {sid other : Int} {messages : List SubscriptionNotificationMessage}
    (h : ∀ message ∈ messages, message.sid = other) (hne : sid ≠ other) :
    ofSid sid messages = [] := by
  apply List.filter_eq_nil_iff.mpr
  intro message hmessage hsid
  exact hne ((of_decide_eq_true hsid).symm.trans (h message hmessage))

/-- Every message is in the queue of its SID. -/
def Keyed (queues : SubscriptionsQueue hashing) : Prop :=
  ∀ e ∈ queues.entries, ∀ message ∈ e.2.val, message.sid = e.1

theorem sid_of_mem_queueOf {s : SubscriptionChannel hashing} (h : Keyed s.subscriptionsQueue)
    {sid : Int} {message : SubscriptionNotificationMessage} (hmem : message ∈ s.queueOf sid) :
    message.sid = sid := by
  rw [queueOf] at hmem
  cases hfind : s.subscriptionsQueue.find sid with
  | none =>
    rw [hfind] at hmem
    exact absurd hmem List.not_mem_nil
  | some queue =>
    rw [hfind] at hmem
    exact h _ (HashTable.find_eq_some.mp hfind) message hmem

/-- What is handed over of a SID is its queue. -/
theorem ofSid_queued {s : SubscriptionChannel hashing} (h : Keyed s.subscriptionsQueue)
    (sid : Int) : ofSid sid (queued s.subscriptionsQueue) = s.queueOf sid := by
  have hentries : ∀ l : List (Int × SidQueue), (∀ e ∈ l, ∀ message ∈ e.2.val, message.sid = e.1) →
      ofSid sid (contents l) = contents (l.filter fun e => e.1 = sid) := by
    intro l hl
    induction l with
    | nil => rfl
    | cons e rest ih =>
      have hrest := ih fun e' he' => hl e' (List.mem_cons_of_mem e he')
      have hfirst := hl e List.mem_cons_self
      rw [contents_cons, ofSid_append, hrest, List.filter_cons]
      by_cases hkey : e.1 = sid
      · subst hkey
        rw [ofSid_eq_self hfirst, if_pos (decide_eq_true rfl), contents_cons]
      · rw [ofSid_eq_nil hfirst (Ne.symm hkey), if_neg (by simpa using hkey), List.nil_append]
  rw [queued, hentries _ h, HashTable.filter_entries, queueOf]
  cases s.subscriptionsQueue.find sid with
  | none => rfl
  | some queue => exact List.append_nil _

theorem keyed_putMessage {s : SubscriptionChannel hashing} (h : Keyed s.subscriptionsQueue)
    (capacity : Nat) (message : SubscriptionNotificationMessage) :
    Keyed (s.putMessage capacity message).subscriptionsQueue := by
  intro e he other hother
  rcases HashTable.mem_put.mp he with rfl | ⟨_, hbefore⟩
  · rcases List.mem_append.mp hother with hkept | hnew
    · apply sid_of_mem_queueOf h
      rw [← makeRoom_append capacity (s.queueOf message.sid) message.qos]
      exact List.mem_append_right _ hkept
    · rw [List.mem_singleton.mp hnew]
  · exact h e hbefore other hother

/-! ### The records -/

/-- The messages of each SID that are handed over or wait arrived in that order, and all others
were dropped. -/
structure Recorded (s : SubscriptionChannel hashing) : Prop where
  keyed : Keyed s.subscriptionsQueue
  order : ∀ sid, (ofSid sid s.handed ++ s.queueOf sid).Sublist (ofSid sid s.arrived)
  accounted : ∀ sid,
    (ofSid sid s.arrived).Perm (ofSid sid s.dropped ++ ofSid sid s.handed ++ s.queueOf sid)

theorem recorded_initial (hashing : Hashing Int) : (initial hashing).Recorded where
  keyed := by
    intro e he
    exact absurd (HashTable.mem_entries.mp he) List.not_mem_nil
  order _ := List.Sublist.refl _
  accounted _ := List.Perm.refl _

/-- What arrives is put at the end of its queue, what makes room for it leaves at the front and is
recorded as dropped; so order and account of every SID are kept. -/
theorem Recorded.putMessage {s : SubscriptionChannel hashing} (h : s.Recorded) (capacity : Nat)
    (message : SubscriptionNotificationMessage) : (s.putMessage capacity message).Recorded := by
  -- what has to make room goes from the front of the queue, the rest stays in order
  let room := makeRoom capacity (s.queueOf message.sid) message.qos
  have hroom : room.1 ++ room.2 = s.queueOf message.sid := makeRoom_append ..
  have hdropped : ∀ other ∈ room.1, other.sid = message.sid := by
    intro other hother
    apply sid_of_mem_queueOf h.keyed
    rw [← hroom]
    exact List.mem_append_left room.2 hother
  have hmessage : ∀ other ∈ [message], other.sid = message.sid := by
    intro other hother
    rw [List.mem_singleton.mp hother]
  constructor
  · exact keyed_putMessage h.keyed capacity message
  · intro sid
    have horder := h.order sid
    rw [queueOf_putMessage]
    show (ofSid sid s.handed ++ _).Sublist (ofSid sid (s.arrived ++ [message]))
    rw [ofSid_append]
    split
    -- the queue of the message loses its front and gains the message at its end
    case isTrue hsid =>
      subst hsid
      rw [← hroom] at horder
      rw [ofSid_eq_self hmessage, ← List.append_assoc]
      apply List.Sublist.append _ (List.Sublist.refl _)
      exact ((List.sublist_append_right room.1 room.2).append_left _).trans horder
    case isFalse hsid =>
      rw [ofSid_eq_nil hmessage hsid, List.append_nil]
      exact horder
  · intro sid
    have haccounted := h.accounted sid
    rw [queueOf_putMessage]
    show (ofSid sid (s.arrived ++ [message])).Perm
      (ofSid sid (s.dropped ++ room.1) ++ ofSid sid s.handed ++ _)
    rw [ofSid_append, ofSid_append]
    split
    -- what was dropped to make room is accounted for as dropped
    case isTrue hsid =>
      subst hsid
      rw [← hroom] at haccounted
      rw [ofSid_eq_self hmessage, ofSid_eq_self hdropped]
      apply (haccounted.append_right [message]).trans
      simp only [List.append_assoc]
      exact (List.perm_append_comm_assoc ..).append_left _
    case isFalse hsid =>
      rw [ofSid_eq_nil hmessage hsid, ofSid_eq_nil hdropped hsid, List.append_nil, List.append_nil]
      exact haccounted

/-- The queues are handed over and cleared. -/
theorem Recorded.pushNext {s : SubscriptionChannel hashing} (h : s.Recorded) :
    s.pushNext.Recorded := by
  have hqueues : s.pushNext.subscriptionsQueue = s.subscriptionsQueue.clear ∧
      s.pushNext.handed = s.handed ++ queued s.subscriptionsQueue ∧
      s.pushNext.arrived = s.arrived ∧ s.pushNext.dropped = s.dropped := by
    unfold SubscriptionChannel.pushNext
    simp only
    split <;> exact ⟨rfl, rfl, rfl, rfl⟩
  obtain ⟨hqueue, hhanded, harrived, hdropped⟩ := hqueues
  have hempty : ∀ sid, s.pushNext.queueOf sid = [] := by
    intro sid
    rw [queueOf, hqueue, HashTable.find_clear]
    rfl
  constructor
  · intro e he
    rw [hqueue, HashTable.entries_clear] at he
    exact absurd he List.not_mem_nil
  · intro sid
    rw [hempty, hhanded, harrived, ofSid_append, ofSid_queued h.keyed, List.append_nil]
    exact h.order sid
  · intro sid
    rw [hempty, hhanded, harrived, hdropped, ofSid_append, ofSid_queued h.keyed, List.append_nil,
      ← List.append_assoc]
    exact h.accounted sid

/-! ### What an emission still has to emit -/

/-- The messages of an iterator that reads no queue of the table any more. -/
def Pending (queues : SubscriptionsQueue hashing) (pending : List SubscriptionNotificationMessage) :
    Outlet → Prop
  | .emitting emission => ∃ rest, Cursor.Detached queues rest emission.its ∧
      pending = emission.upcoming :: emission.it ++ contents rest
  | .idle | .available => pending = []

/-- A message is pushed, and the others remain. -/
theorem Pending.pushed {queues : SubscriptionsQueue hashing} {emission : Emission}
    {pending : List SubscriptionNotificationMessage}
    (h : Pending queues pending (.emitting emission)) :
    ∃ rest, pending = emission.upcoming :: rest ∧ Pending queues rest (emission.pushed queues) := by
  obtain ⟨upcoming, it, its⟩ := emission
  obtain ⟨rest, hdetached, rfl⟩ := h
  refine ⟨it ++ contents rest, rfl, ?_⟩
  rw [Emission.pushed]
  cases it with
  | cons message it => exact ⟨rest, hdetached, rfl⟩
  | nil =>
    cases rest with
    | nil =>
      simp only [Emission.hasNext, hdetached.next_nil, Option.map_none]
      rfl
    | cons e rest =>
      obtain ⟨its', hnext, hdetached'⟩ := hdetached.next_cons
      simp only [Emission.hasNext, hnext, Option.map_some]
      refine ⟨rest, hdetached', ?_⟩
      rw [List.nil_append, contents_cons, List.cons_head_tail]

/-- The message goes to a bucket that the emission in progress has come to already, or to an
array that it does not read. -/
def PutBehind (s : SubscriptionChannel hashing) (message : SubscriptionNotificationMessage) :
    Prop :=
  match s.outlet with
  | .emitting emission =>
      emission.its.array.isNone = true →
        emission.its.idx ≤ s.subscriptionsQueue.indexOf message.sid
  | _ => True

instance (s : SubscriptionChannel hashing) (message : SubscriptionNotificationMessage) :
    Decidable (s.PutBehind message) :=
  match h : s.outlet with
  | .emitting emission =>
      decidable_of_iff (emission.its.array.isNone = true →
        emission.its.idx ≤ s.subscriptionsQueue.indexOf message.sid) (by rw [PutBehind, h])
  | .idle | .available => .isTrue (by rw [PutBehind, h]; trivial)

theorem Pending.putMessage {s : SubscriptionChannel hashing}
    {pending : List SubscriptionNotificationMessage}
    (h : Pending s.subscriptionsQueue pending s.outlet)
    {message : SubscriptionNotificationMessage} (hok : s.PutBehind message) (capacity : Nat) :
    Pending (s.putMessage capacity message).subscriptionsQueue pending
      (s.putMessage capacity message).outlet := by
  simp only [SubscriptionChannel.putMessage]
  cases houtlet : s.outlet with
  | idle =>
    rw [houtlet] at h
    exact h
  | available =>
    rw [houtlet] at h
    exact h
  | emitting emission =>
    rw [houtlet] at h
    rw [PutBehind, houtlet] at hok
    obtain ⟨rest, hdetached, hpending⟩ := h
    refine ⟨rest, hdetached.put _ ?_, hpending⟩
    intro hnone
    exact hok (Option.isNone_iff_eq_none.mpr hnone)

/-! ### What is read before the queues are cleared -/

/-- The entries from the one found when `pushNext` clears the queues: the second one, or the
third if the first queue has a single message. -/
def fromLookAhead : List (Int × SidQueue) → List (Int × SidQueue)
  | [] => []
  | first :: rest => if first.2.val.length = 1 then rest.tail else rest

/-- All entries after the one found are in its bucket. -/
def ReadsToTheEnd (queues : SubscriptionsQueue hashing) : Prop :=
  queues.InOneBucket (fromLookAhead queues.entries)

instance (queues : SubscriptionsQueue hashing) : Decidable (ReadsToTheEnd queues) :=
  inferInstanceAs (Decidable (queues.InOneBucket _))

theorem hasNext_eq_none {queues : SubscriptionsQueue hashing} {its : Cursor Int SidQueue}
    (h : Cursor.OnTable queues its) {it : List SubscriptionNotificationMessage}
    (hnext : Emission.hasNext queues its it = none) :
    it = [] ∧ Cursor.remaining queues its = [] := by
  cases it with
  | cons message it => cases hnext
  | nil => exact ⟨rfl, h.next_none (Option.map_eq_none_iff.mp hnext)⟩

/-- The first entry that remains is read. -/
theorem hasNext_eq_some {queues : SubscriptionsQueue hashing} {its : Cursor Int SidQueue}
    (h : Cursor.OnTable queues its) {emission : Emission}
    (hnext : Emission.hasNext queues its [] = some emission) :
    Cursor.OnTable queues emission.its ∧
      ∃ e, Cursor.remaining queues its = e :: Cursor.remaining queues emission.its ∧
        e.2.val = emission.upcoming :: emission.it := by
  obtain ⟨⟨e, its'⟩, hits, rfl⟩ := Option.map_eq_some_iff.mp hnext
  obtain ⟨hfound, hremaining⟩ := h.next_some hits
  exact ⟨hfound, e, hremaining, (List.cons_head_tail e.2.property).symm⟩

/-- What the iterator keeps when the queues are cleared after the first message is pushed. -/
theorem pending_clear {queues : SubscriptionsQueue hashing} (h : ReadsToTheEnd queues)
    {first : Emission} (hfound : Cursor.OnTable queues first.its) {e : Int × SidQueue}
    (hentries : queues.entries = e :: Cursor.remaining queues first.its)
    (hqueue : e.2.val = first.upcoming :: first.it) :
    Pending queues.clear (first.it ++ contents (Cursor.remaining queues first.its))
      ((first.pushed queues).clear queues) := by
  obtain ⟨upcoming, it, its⟩ := first
  rw [ReadsToTheEnd, hentries, fromLookAhead] at h
  rw [Emission.pushed]
  cases it with
  | cons message it =>
    -- the first queue is not read to its end yet
    have hlength : e.2.val.length ≠ 1 := by
      rw [hqueue, List.length_cons, List.length_cons]
      omega
    rw [if_neg hlength] at h
    have hchain := hfound.chain_eq_remaining h
    exact ⟨_, hfound.detached, by rw [hchain]⟩
  | nil =>
    have hlength : e.2.val.length = 1 := by
      rw [hqueue]
      rfl
    rw [if_pos hlength] at h
    cases hnext : Emission.hasNext queues its [] with
    | none =>
      obtain ⟨_, hnothing⟩ := hasNext_eq_none hfound hnext
      simp only [hnothing]
      rfl
    | some second =>
      obtain ⟨hfound', e', hremaining, hqueue'⟩ := hasNext_eq_some hfound hnext
      simp only [hremaining, List.tail_cons] at h ⊢
      have hchain := hfound'.chain_eq_remaining h
      refine ⟨_, hfound'.detached, ?_⟩
      rw [hchain, List.nil_append, contents_cons, hqueue']

theorem pushNext_of_none {s : SubscriptionChannel hashing}
    (h : Emission.hasNext s.subscriptionsQueue (.start s.subscriptionsQueue) [] = none) :
    s.pushNext = { s with
      subscriptionsQueue := s.subscriptionsQueue.clear
      inPulled := true
      handed := s.handed ++ queued s.subscriptionsQueue } := by
  simp only [SubscriptionChannel.pushNext, h]

theorem pushNext_of_some {s : SubscriptionChannel hashing} {first : Emission}
    (h : Emission.hasNext s.subscriptionsQueue (.start s.subscriptionsQueue) [] = some first) :
    s.pushNext = { s with
      subscriptionsQueue := s.subscriptionsQueue.clear
      inPulled := true
      handed := s.handed ++ queued s.subscriptionsQueue
      emitted := s.emitted ++ [first.upcoming]
      outlet := (first.pushed s.subscriptionsQueue).clear s.subscriptionsQueue } := by
  simp only [SubscriptionChannel.pushNext, h]

/-- If all entries after the one found are in its bucket, all messages handed over are emitted or
remain in the emission. -/
theorem pending_pushNext {s : SubscriptionChannel hashing} (h : ReadsToTheEnd s.subscriptionsQueue)
    (houtlet : s.outlet.isAvailable = true) (hemitted : s.handed = s.emitted) :
    ∃ pending, Pending s.pushNext.subscriptionsQueue pending s.pushNext.outlet ∧
      s.pushNext.handed = s.pushNext.emitted ++ pending := by
  have hstart := Cursor.onTable_start s.subscriptionsQueue
  have hentries := Cursor.remaining_start s.subscriptionsQueue
  cases hfirst : Emission.hasNext s.subscriptionsQueue (.start s.subscriptionsQueue) [] with
  | none =>
    have hnothing := (hasNext_eq_none hstart hfirst).2
    rw [hentries] at hnothing
    rw [pushNext_of_none hfirst, queued, hnothing, hemitted]
    refine ⟨[], ?_, rfl⟩
    cases hout : s.outlet with
    | available => rfl
    | idle => rfl
    | emitting emission =>
      rw [hout] at houtlet
      cases houtlet
  | some first =>
    obtain ⟨hfound, e, hremaining, hqueue⟩ := hasNext_eq_some hstart hfirst
    rw [hentries] at hremaining
    rw [pushNext_of_some hfirst]
    refine ⟨_, pending_clear h hfound hremaining hqueue, ?_⟩
    rw [queued, hremaining, contents_cons, hqueue, hemitted, List.append_assoc]
    rfl

/-! ### Runs that lose nothing -/

/-- **Nothing is lost.**  What `pushNext` hands over is emitted once, with the pulls that follow,
the messages of a SID in the order in which they arrived; what is neither handed over nor in the
queues was dropped. -/
structure LosesNothing (capacity : Nat) (s : SubscriptionChannel hashing) : Prop where
  emitted : s.emitted <+: s.handed
  settled : s.outlet.isEmitting = false → s.emitted = s.handed
  completed : ∃ n s', (List.replicate n ChannelInput.pull).foldlM (step capacity) s = some s' ∧
    s'.emitted = s.handed
  order : ∀ sid, (ofSid sid s.emitted).Sublist (ofSid sid s.arrived)
  accounted : ∀ sid,
    (ofSid sid s.arrived).Perm (ofSid sid s.dropped ++ ofSid sid s.handed ++ s.queueOf sid)

/-- When `pushNext` clears the queues, all entries after the one found are in its bucket; while
an emission is in progress messages are put behind it, and the link is not connected again. -/
def Careful (capacity : Nat) (s : SubscriptionChannel hashing) : ChannelInput → Prop
  | .push batch =>
      Along (putMessage capacity) PutBehind s.grab batch ∧
        (s.outlet.isAvailable = true →
          ReadsToTheEnd (batch.foldl (putMessage capacity) s.grab).subscriptionsQueue)
  | .pull => True
  | .putMessage message => s.PutBehind message
  | .createLogic => s.outlet.isEmitting = false

instance (capacity : Nat) (s : SubscriptionChannel hashing) :
    (input : ChannelInput) → Decidable (Careful capacity s input)
  | .push _ => inferInstanceAs (Decidable (_ ∧ _))
  | .putMessage _ => inferInstanceAs (Decidable (PutBehind _ _))
  | .createLogic => inferInstanceAs (Decidable (_ = _))
  | .pull => .isTrue trivial

/-- The messages handed over are emitted or remain in the emission. -/
structure ChannelInv (s : SubscriptionChannel hashing) : Prop where
  recorded : s.Recorded
  pending : ∃ pending, Pending s.subscriptionsQueue pending s.outlet ∧
    s.handed = s.emitted ++ pending

theorem channelInv_initial (hashing : Hashing Int) : (initial hashing).ChannelInv where
  recorded := recorded_initial hashing
  pending := ⟨[], rfl, rfl⟩

theorem Pending.eq_nil {queues : SubscriptionsQueue hashing} {outlet : Outlet}
    {pending : List SubscriptionNotificationMessage} (h : Pending queues pending outlet)
    (hidle : outlet.isEmitting = false) : pending = [] := by
  cases outlet with
  | idle => exact h
  | available => exact h
  | emitting emission => cases hidle

/-- Outside an emission everything that was handed over has been emitted. -/
theorem ChannelInv.handed_eq {s : SubscriptionChannel hashing} (h : s.ChannelInv)
    (hidle : s.outlet.isEmitting = false) : s.handed = s.emitted := by
  obtain ⟨pending, hpending, hhanded⟩ := h.pending
  rw [hhanded, hpending.eq_nil hidle, List.append_nil]

theorem ChannelInv.putMessage {s : SubscriptionChannel hashing} (h : s.ChannelInv)
    (capacity : Nat) {message : SubscriptionNotificationMessage} (hok : s.PutBehind message) :
    (s.putMessage capacity message).ChannelInv := by
  obtain ⟨pending, hpending, hhanded⟩ := h.pending
  constructor
  · exact h.recorded.putMessage capacity message
  · exact ⟨pending, hpending.putMessage hok capacity, hhanded⟩

/-- A batch keeps the invariant, and does not end or start an emission by itself. -/
theorem ChannelInv.foldl {s : SubscriptionChannel hashing} {capacity : Nat}
    {batch : List SubscriptionNotificationMessage} (h : s.ChannelInv)
    (hok : Along (SubscriptionChannel.putMessage capacity) PutBehind s batch) :
    (batch.foldl (SubscriptionChannel.putMessage capacity) s).ChannelInv := by
  apply Along.invariant _ h hok
  intro s message hinv hbehind
  exact hinv.putMessage capacity hbehind

theorem isAvailable_foldl (capacity : Nat) (s : SubscriptionChannel hashing)
    (batch : List SubscriptionNotificationMessage) :
    (batch.foldl (SubscriptionChannel.putMessage capacity) s).outlet.isAvailable =
      s.outlet.isAvailable := by
  induction batch generalizing s with
  | nil => rfl
  | cons message rest ih => exact (ih _).trans (isAvailable_put ..)

theorem ChannelInv.onPush {s : SubscriptionChannel hashing} {capacity : Nat}
    {batch : List SubscriptionNotificationMessage} (h : s.ChannelInv)
    (hok : Careful capacity s (.push batch)) : (s.onPush capacity batch).ChannelInv := by
  obtain ⟨hbehind, hreads⟩ := hok
  have hgrab : s.grab.ChannelInv :=
    ⟨⟨h.recorded.keyed, h.recorded.order, h.recorded.accounted⟩, h.pending⟩
  have hput := hgrab.foldl hbehind
  unfold SubscriptionChannel.onPush
  simp only
  split
  case isTrue havailable =>
    have hbefore : s.outlet.isAvailable = true :=
      (isAvailable_foldl capacity s.grab batch).symm.trans havailable
    constructor
    · exact hput.recorded.pushNext
    · apply pending_pushNext (hreads hbefore) havailable
      exact hput.handed_eq (isEmitting_of_isAvailable havailable)
  case isFalse => exact hput

theorem ChannelInv.onPull {s : SubscriptionChannel hashing} (h : s.ChannelInv) :
    s.onPull.ChannelInv := by
  obtain ⟨pending, hpending, hhanded⟩ := h.pending
  have hrecorded : s.onPull.Recorded := by
    unfold SubscriptionChannel.onPull
    split <;> exact ⟨h.recorded.keyed, h.recorded.order, h.recorded.accounted⟩
  refine ⟨hrecorded, ?_⟩
  cases houtlet : s.outlet with
  | emitting emission =>
    rw [houtlet] at hpending
    obtain ⟨rest, rfl, hrest⟩ := hpending.pushed
    simp only [SubscriptionChannel.onPull, houtlet]
    refine ⟨rest, hrest, ?_⟩
    rw [hhanded, List.append_assoc]
    rfl
  | idle =>
    rw [houtlet] at hpending
    simp only [SubscriptionChannel.onPull, houtlet]
    exact ⟨[], rfl, hhanded.trans (hpending ▸ rfl)⟩
  | available =>
    rw [houtlet] at hpending
    simp only [SubscriptionChannel.onPull, houtlet]
    exact ⟨[], rfl, hhanded.trans (hpending ▸ rfl)⟩

theorem ChannelInv.step {s s' : SubscriptionChannel hashing} {capacity : Nat}
    {input : ChannelInput} (h : s.ChannelInv) (hok : Careful capacity s input)
    (hstep : step capacity s input = some s') : s'.ChannelInv := by
  cases input with
  | push batch =>
    simp only [SubscriptionChannel.step] at hstep
    split at hstep
    case isTrue =>
      cases hstep
      exact h.onPush hok
    case isFalse => cases hstep
  | pull =>
    simp only [SubscriptionChannel.step] at hstep
    split at hstep
    case isTrue => cases hstep
    case isFalse =>
      cases hstep
      exact h.onPull
  | putMessage message =>
    cases hstep
    exact h.putMessage capacity hok
  | createLogic =>
    cases hstep
    refine ⟨⟨h.recorded.keyed, h.recorded.order, h.recorded.accounted⟩, [], rfl, ?_⟩
    rw [h.handed_eq hok, List.append_nil]

/-- An emission is completed by one pull for each message that remains. -/
theorem exists_completed {s : SubscriptionChannel hashing} (capacity : Nat)
    {pending : List SubscriptionNotificationMessage}
    (h : Pending s.subscriptionsQueue pending s.outlet) :
    ∃ n s', (List.replicate n ChannelInput.pull).foldlM (step capacity) s = some s' ∧
      s'.emitted = s.emitted ++ pending := by
  induction pending generalizing s with
  | nil => exact ⟨0, s, rfl, (List.append_nil _).symm⟩
  | cons message pending ih =>
    cases houtlet : s.outlet with
    | idle =>
      rw [houtlet] at h
      cases h
    | available =>
      rw [houtlet] at h
      cases h
    | emitting emission =>
      rw [houtlet] at h
      obtain ⟨rest, hpending, hrest⟩ := h.pushed
      obtain ⟨rfl, rfl⟩ := List.cons.inj hpending
      have hpull : step capacity s .pull = some s.onPull := by
        simp only [step, houtlet, Outlet.isAvailable, Bool.false_eq_true, if_false]
      have hafter : s.onPull.emitted = s.emitted ++ [emission.upcoming] ∧
          s.onPull.outlet = emission.pushed s.subscriptionsQueue ∧
          s.onPull.subscriptionsQueue = s.subscriptionsQueue := by
        simp only [onPull, houtlet, and_self]
      obtain ⟨hemitted, hout, hqueue⟩ := hafter
      obtain ⟨n, s', hrun, hs'⟩ := ih (by rw [hout, hqueue]; exact hrest)
      refine ⟨n + 1, s', ?_, ?_⟩
      · rw [List.replicate_succ, List.foldlM_cons, hpull]
        exact hrun
      · rw [hs', hemitted, List.append_assoc]
        rfl

/-- **The channel loses nothing it kept.**  In every run that clears the queues only when all
entries after the one found are in its bucket, puts messages behind an emission in progress, and
does not connect the link again during one, nothing is lost. -/
theorem loses_nothing {capacity : Nat} {s : SubscriptionChannel hashing}
    (h : Reachable (step capacity) (Careful capacity) (initial hashing) s) :
    s.LosesNothing capacity := by
  have hinv : s.ChannelInv := by
    apply h.invariant (channelInv_initial hashing)
    intro s input s' hinv hok hstep
    exact hinv.step hok hstep
  obtain ⟨pending, hpending, hhanded⟩ := hinv.pending
  have hprefix : s.emitted <+: s.handed := ⟨pending, hhanded.symm⟩
  constructor
  · exact hprefix
  · intro hidle
    exact (hinv.handed_eq hidle).symm
  · obtain ⟨n, s', hrun, hs'⟩ := exists_completed capacity hpending
    exact ⟨n, s', hrun, hs'.trans hhanded.symm⟩
  · intro sid
    have hemitted : (ofSid sid s.emitted).Sublist (ofSid sid s.handed) := hprefix.sublist.filter _
    exact (hemitted.trans (List.sublist_append_left ..)).trans (hinv.recorded.order sid)
  · exact hinv.recorded.accounted

/-- A message of a SID. -/
def durableMessage (sid : Int) : SubscriptionNotificationMessage :=
  ⟨⟨0, none, none, none, none⟩, sid, .durable⟩

/-- Three SIDs in one batch: the entry of the last one is found in time. -/
theorem loses_nothing_three_sids :
    ∃ s, Reachable (step 30) (Careful 30) (initial MutableHashMap.hashing) s ∧
      s.emitted = [durableMessage 2, durableMessage 1, durableMessage 3] ∧ s.LosesNothing 30 := by
  obtain ⟨s, hreached, hemitted⟩ :
      ∃ s, Reachable (step 30) (Careful 30) (initial MutableHashMap.hashing) s ∧
        s.emitted = [durableMessage 2, durableMessage 1, durableMessage 3] :=
    Reachable.exists_of_run
      [.pull, .push [durableMessage 1, durableMessage 2, durableMessage 3], .pull, .pull]
      (by decide +kernel)
  exact ⟨s, hreached, hemitted, loses_nothing hreached⟩

/-- Four SIDs in one batch: the entry of the last one is cleared before it is found. -/
theorem fourth_sid_lost :
    ∃ s, Reachable (step 30) AnyStep (initial MutableHashMap.hashing) s ∧
      s.handed = [durableMessage 2, durableMessage 4, durableMessage 1, durableMessage 3] ∧
      s.emitted = [durableMessage 2, durableMessage 4, durableMessage 1] ∧
      ¬ s.LosesNothing 30 := by
  obtain ⟨s, hreached, hhanded, hemitted, hidle⟩ :
      ∃ s, Reachable (step 30) AnyStep (initial MutableHashMap.hashing) s ∧
        s.handed = [durableMessage 2, durableMessage 4, durableMessage 1, durableMessage 3] ∧
        s.emitted = [durableMessage 2, durableMessage 4, durableMessage 1] ∧
        s.outlet.isEmitting = false :=
    Reachable.exists_of_run
      [.pull, .push [durableMessage 1, durableMessage 2, durableMessage 3, durableMessage 4], .pull,
        .pull] (by decide +kernel)
  refine ⟨s, hreached, hhanded, hemitted, ?_⟩
  intro h
  have hsettled := h.settled hidle
  rw [hemitted, hhanded] at hsettled
  exact absurd (congrArg List.length hsettled) (by decide)

/-! ### Demand -/

/-- **Nothing is withheld.**  If a pull waits to be answered, the queues are empty. -/
def WithholdsNothing (s : SubscriptionChannel hashing) : Prop :=
  s.outlet.isAvailable = true → s.subscriptionsQueue.entries = []

/-- The downstream pulls outside an emission only while the queues are empty, and the requester
puts messages only while no pull waits. -/
def DemandMeetsNothing (s : SubscriptionChannel hashing) : ChannelInput → Prop
  | .pull => s.outlet.isEmitting = false → s.subscriptionsQueue.entries = []
  | .putMessage _ => s.outlet.isAvailable = false
  | .push _ | .createLogic => True

instance (s : SubscriptionChannel hashing) :
    (input : ChannelInput) → Decidable (s.DemandMeetsNothing input)
  | .pull => inferInstanceAs (Decidable (_ → _))
  | .putMessage _ => inferInstanceAs (Decidable (_ = _))
  | .push _ | .createLogic => .isTrue trivial

/-- `pushNext` leaves the queues empty. -/
theorem entries_pushNext (s : SubscriptionChannel hashing) :
    s.pushNext.subscriptionsQueue.entries = [] := by
  unfold pushNext
  simp only
  split <;> exact HashTable.entries_clear _

theorem withholdsNothing_onPush (capacity : Nat) (s : SubscriptionChannel hashing)
    (batch : List SubscriptionNotificationMessage) :
    (s.onPush capacity batch).WithholdsNothing := by
  unfold onPush
  simp only
  split
  case isTrue =>
    intro _
    exact entries_pushNext _
  case isFalse hother =>
    intro havailable
    exact absurd havailable hother

theorem withholdsNothing_onPull {s : SubscriptionChannel hashing}
    (h : s.outlet.isEmitting = false → s.subscriptionsQueue.entries = []) :
    s.onPull.WithholdsNothing := by
  intro havailable
  cases houtlet : s.outlet with
  | emitting emission =>
    simp only [onPull, houtlet, isAvailable_pushed, Bool.false_eq_true] at havailable
  | idle =>
    simp only [onPull, houtlet]
    exact h (houtlet ▸ rfl)
  | available =>
    simp only [onPull, houtlet]
    exact h (houtlet ▸ rfl)

/-- **On demand.**  In every run in which the downstream pulls outside an emission only while the
queues are empty and the requester puts messages only while no pull waits, nothing is withheld. -/
theorem withholds_nothing {capacity : Nat} {s : SubscriptionChannel hashing}
    (h : Reachable (step capacity) DemandMeetsNothing (initial hashing) s) :
    s.WithholdsNothing := by
  apply h.invariant (fun havailable => Bool.noConfusion havailable)
  intro s input s' _ hok hstep
  cases input with
  | push batch =>
    simp only [step] at hstep
    split at hstep
    case isTrue =>
      cases hstep
      exact withholdsNothing_onPush capacity s batch
    case isFalse => cases hstep
  | pull =>
    simp only [step] at hstep
    split at hstep
    case isTrue => cases hstep
    case isFalse =>
      cases hstep
      exact withholdsNothing_onPull hok
  | putMessage message =>
    cases hstep
    intro havailable
    rw [putMessage, isAvailable_put] at havailable
    cases hok.symm.trans havailable
  | createLogic =>
    cases hstep
    intro havailable
    cases havailable

/-- A pull, its answer and the next pull, with nothing put in between. -/
theorem withholds_nothing_answered :
    ∃ s, Reachable (step 30) DemandMeetsNothing (initial MutableHashMap.hashing) s ∧
      s.emitted = [durableMessage 1] ∧ s.WithholdsNothing := by
  obtain ⟨s, hreached, hemitted⟩ :
      ∃ s, Reachable (step 30) DemandMeetsNothing (initial MutableHashMap.hashing) s ∧
        s.emitted = [durableMessage 1] :=
    Reachable.exists_of_run [.pull, .push [durableMessage 1], .pull] (by decide +kernel)
  exact ⟨s, hreached, hemitted, withholds_nothing hreached⟩

/-- A message stored for a client that connects again stays behind when the client pulls. -/
theorem stored_message_withheld :
    ∃ s, Reachable (step 30) AnyStep (initial MutableHashMap.hashing) s ∧
      s.queueOf 1 = [durableMessage 1] ∧ ¬ s.WithholdsNothing := by
  obtain ⟨s, hreached, hqueue, havailable, hentries⟩ :
      ∃ s, Reachable (step 30) AnyStep (initial MutableHashMap.hashing) s ∧
        s.queueOf 1 = [durableMessage 1] ∧ s.outlet.isAvailable = true ∧
        s.subscriptionsQueue.entries ≠ [] :=
    Reachable.exists_of_run [.putMessage (durableMessage 1), .createLogic, .pull]
      (by decide +kernel)
  refine ⟨s, hreached, hqueue, ?_⟩
  intro h
  exact hentries (h havailable)

end SubscriptionChannel

end DsaBroker
