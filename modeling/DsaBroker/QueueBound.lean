import DsaBroker.SubscriptionChannel
import Mathlib.Data.List.DropRight

/-!
# How long a queue grows

Between two drains a queue should hold the last messages of its SID, as many as the capacity
says.  `putMessage` makes room only when the queue is longer than the capacity, and appends after
that, so one message more is kept (`queueOf_foldl`).  The bound holds for the queues that are
never filled (`queue_bounded_iff`).
-/

namespace DsaBroker

namespace SubscriptionChannel

/-- A full queue drops its first message, and the others are the last of all that have come. -/
theorem makeRoom_rtake (capacity : Nat) (messages : List SubscriptionNotificationMessage)
    {qos : QoS} (hqos : qos ≠ .default) :
    (makeRoom capacity (messages.rtake (capacity + 1)) qos).2 = messages.rtake capacity := by
  have hroom : (makeRoom capacity (messages.rtake (capacity + 1)) qos).2 =
      if capacity < (messages.rtake (capacity + 1)).length
      then (messages.rtake (capacity + 1)).drop 1 else messages.rtake (capacity + 1) := by
    cases qos with
    | default => exact absurd rfl hqos
    | queued => simp only [makeRoom]; split <;> rfl
    | durable => simp only [makeRoom]; split <;> rfl
    | durableAndPersist => simp only [makeRoom]; split <;> rfl
  rw [hroom]
  simp only [List.rtake, List.length_drop, List.drop_drop]
  split
  case isTrue hfull => exact congrArg (fun n => messages.drop n) (by omega)
  case isFalse hfree => exact congrArg (fun n => messages.drop n) (by omega)

variable {hashing : Hashing Int}

/-- The queue of a SID that was drained: one message more than the capacity. -/
theorem queueOf_foldl (capacity : Nat) {s : SubscriptionChannel hashing} {sid : Int}
    (hdrained : s.queueOf sid = []) {messages : List SubscriptionNotificationMessage}
    (hqos : ∀ message ∈ messages, message.sid = sid → message.qos ≠ .default) :
    (messages.foldl (putMessage capacity) s).queueOf sid =
      (ofSid sid messages).rtake (capacity + 1) := by
  induction messages using List.reverseRecOn with
  | nil => exact hdrained.trans (List.rtake_nil _).symm
  | append_singleton before message ih =>
    have ih := ih fun other hother => hqos other (List.mem_append_left _ hother)
    rw [List.foldl_append, List.foldl_cons, List.foldl_nil, queueOf_putMessage, ofSid_append]
    by_cases hsid : sid = message.sid
    · have hself : ofSid sid [message] = [message] := ofSid_eq_self fun other hother => by
        rw [List.mem_singleton.mp hother, hsid]
      have habove : message.qos ≠ .default :=
        hqos message (List.mem_append_right _ (List.mem_singleton.mpr rfl)) hsid.symm
      rw [if_pos hsid, ← hsid, ih, makeRoom_rtake capacity _ habove, hself,
        List.rtake_concat_succ]
    · have hsame : ∀ other ∈ [message], other.sid = message.sid := fun other hother => by
        rw [List.mem_singleton.mp hother]
      have hnone : ofSid sid [message] = [] := ofSid_eq_nil hsame hsid
      rw [if_neg hsid, ih, hnone, List.append_nil]

/-- The last messages of a SID are kept, as many as the capacity says. -/
def KeepsLast (capacity : Nat) (s : SubscriptionChannel hashing) (sid : Int)
    (messages : List SubscriptionNotificationMessage) : Prop :=
  let n := (ofSid sid messages).length
  (messages.foldl (putMessage capacity) s).queueOf sid =
    (ofSid sid messages).rtake (min n capacity)

theorem keepsLast_iff (capacity : Nat) {s : SubscriptionChannel hashing} {sid : Int}
    (hdrained : s.queueOf sid = []) {messages : List SubscriptionNotificationMessage}
    (hqos : ∀ message ∈ messages, message.sid = sid → message.qos ≠ .default) :
    KeepsLast capacity s sid messages ↔ (ofSid sid messages).length ≤ capacity := by
  rw [KeepsLast, queueOf_foldl capacity hdrained hqos]
  constructor
  · intro h
    have hlength := congrArg List.length h
    simp only [List.rtake, List.length_drop] at hlength
    omega
  · intro h
    simp only [List.rtake]
    exact congrArg (fun n => (ofSid sid messages).drop n) (by omega)

/-- **The bound of the queues.**  Messages above QoS Default are kept up to the capacity, the last
of them, if and only if there are not more.  A message of QoS Default is alone in its queue, and
the queues of other SIDs never change. -/
theorem queue_bounded_iff (capacity : Nat) (s : SubscriptionChannel hashing) :
    (∀ sid messages, s.queueOf sid = [] →
      (∀ message ∈ messages, message.sid = sid → message.qos ≠ .default) →
      (KeepsLast capacity s sid messages ↔ (ofSid sid messages).length ≤ capacity)) ∧
    (∀ message, message.qos = .default →
      (s.putMessage capacity message).queueOf message.sid = [message]) ∧
    ∀ message sid, sid ≠ message.sid →
      (s.putMessage capacity message).queueOf sid = s.queueOf sid := by
  refine ⟨?_, ?_, ?_⟩
  · intro sid messages hdrained hqos
    exact keepsLast_iff capacity hdrained hqos
  · intro message hqos
    rw [queueOf_putMessage, if_pos rfl, hqos]
    rfl
  · intro message sid hsid
    rw [queueOf_putMessage, if_neg hsid]

def defaultMessage (sid : Int) : SubscriptionNotificationMessage :=
  ⟨⟨0, none, none, none, none⟩, sid, .default⟩

/-- Two messages for a SID fit into its queue, a third is for another one; a message of QoS Default
is alone. -/
theorem queue_bounded_two :
    KeepsLast 2 (initial MutableHashMap.hashing) 1
        [durableMessage 1, durableMessage 2, durableMessage 1] ∧
      ((initial MutableHashMap.hashing).putMessage 2 (defaultMessage 1)).queueOf 1 =
        [defaultMessage 1] ∧
      ((initial MutableHashMap.hashing).putMessage 2 (defaultMessage 1)).queueOf 2 = [] := by
  obtain ⟨hkeeps, halone, hothers⟩ := queue_bounded_iff 2 (initial MutableHashMap.hashing)
  refine ⟨?_, ?_, ?_⟩
  · exact (hkeeps 1 _ rfl (by decide)).mpr (by decide)
  · exact halone (defaultMessage 1) rfl
  · exact hothers (defaultMessage 1) 2 (by decide)

/-- The second of two messages finds one in a queue of capacity one, and both are kept. -/
theorem queue_exceeds_capacity : ¬ ∀ capacity, 1 ≤ capacity →
    ∀ (s : SubscriptionChannel MutableHashMap.hashing) sid messages, s.queueOf sid = [] →
      (∀ message ∈ messages, message.sid = sid → message.qos ≠ .default) →
      KeepsLast capacity s sid messages := by
  intro h
  have hqos : ∀ message ∈ [durableMessage 1, durableMessage 1], message.sid = 1 →
      message.qos ≠ .default := by decide
  have hkept := congrArg List.length
    (h 1 (Nat.le_refl 1) (initial MutableHashMap.hashing) 1 _ rfl hqos)
  revert hkept
  decide +kernel

end SubscriptionChannel

end DsaBroker
