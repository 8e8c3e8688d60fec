import DsaBroker.WebSocketActor

/-!
# What a socket carries

In every run of a socket actor, with its callbacks in any order: what it offers to the client, but
for the acks, is the greeting and then what the link had to send, numbered one after the other;
every message of the client is acknowledged once, and a ping after a link has answered it
(`socket_stream`).  Each message of the client is told to the link that the registry named when it
came, once and after the connection has been announced (`forwarded_once`).  The messages of one
future may change places.

The queue drops messages under load.  What the client gets it gets in order, and the numbers say
what is missing (`client_sees`).
-/

namespace DsaBroker

/-! ### What comes in and what goes out -/

/-- What an envelope holds. -/
inductive Payload where
  | requests (list : List DSARequest)
  | responses (list : List DSAResponse)

def Payload.message (id : Int) : Payload → DSAMessage
  | .requests list => .request id none list
  | .responses list => .response id none list

/-- The id that a message acknowledges. -/
def DSAMessage.pongOf : DSAMessage → Option Int
  | .pong ack => some ack
  | _ => none

namespace SocketEvent

/-- The id that is acknowledged at once. -/
def ack : SocketEvent → Option Int
  | .message (.request msg _ _) => some msg
  | .message (.response msg _ _) => some msg
  | _ => none

/-- What has to be sent to the client; an empty envelope does not count. -/
def payload : SocketEvent → Option Payload
  | .requestEnvelope requests => if requests.isEmpty then none else some (.requests requests)
  | .responseEnvelope responses => if responses.isEmpty then none else some (.responses responses)
  | _ => none

/-- What has to be passed on to the link. -/
def forwarded : SocketEvent → Option DSAMessage
  | .message (.ping msg ack) => some (.ping msg ack)
  | .message (.request msg ack requests) => some (.request msg ack requests)
  | .message (.response msg ack responses) => some (.response msg ack responses)
  | _ => none

end SocketEvent

/-- The id of a ping that a link was asked to answer. -/
def Told.ping (t : Told) : Option Int :=
  match t.message with
  | .message (.ping msg _) => some msg
  | _ => none

/-- What was told by way of the future. -/
def Told.byFuture (n : Nat) (t : Told) : Option (Routee × LinkMessage) :=
  if t.future = n then some (t.link, t.message) else none

/-- The messages with the ids that the counter gives. -/
def numbered (counter : IntCounter) (payloads : List Payload) : List DSAMessage :=
  List.zipWith Payload.message (counter.incs payloads.length).1 payloads

theorem length_incs (c : IntCounter) (n : Nat) : (c.incs n).1.length = n := by
  induction n generalizing c with
  | zero => rfl
  | succ n ih => rw [IntCounter.incs_succ, List.length_cons, ih]

theorem numbered_concat (c : IntCounter) (payloads : List Payload) (payload : Payload) :
    numbered c (payloads ++ [payload]) =
      numbered c payloads ++ [payload.message (c.incs payloads.length).2.value] := by
  rw [numbered, List.length_append, List.length_singleton, IntCounter.incs_add,
    List.zipWith_append (length_incs c payloads.length)]
  rfl

@[simp] theorem pongOf_pong (id : Int) : (DSAMessage.pong id).pongOf = some id := rfl

@[simp] theorem pongOf_message (id : Int) (payload : Payload) :
    (payload.message id).pongOf = none := by
  rcases payload with _ | _ <;> rfl

namespace WebSocketActor

variable {s s' : WebSocketActor}

def payloads (s : WebSocketActor) : List Payload := s.handled.filterMap fun e => e.2.payload

def acked (s : WebSocketActor) : List Int := s.handled.filterMap fun e => e.2.ack

def pongs (s : WebSocketActor) : List Int := s.offered.filterMap DSAMessage.pongOf

def toldPings (s : WebSocketActor) : List Int := s.told.filterMap Told.ping

/-- What came in for the link while `routee` was this future. -/
def arrived (s : WebSocketActor) (future : Nat) : List DSAMessage :=
  s.handled.filterMap fun e => if e.1 = future then e.2.forwarded else none

/-- What was told to the link that this future came to. -/
def toldBy (s : WebSocketActor) (future : Nat) : List (Routee × LinkMessage) :=
  s.told.filterMap (Told.byFuture future)

/-! ### Steps -/

/-- What is offered to the client when a message comes in. -/
def replies (s : WebSocketActor) (event : SocketEvent) : List DSAMessage :=
  (event.ack.map DSAMessage.pong).toList ++
    (event.payload.map fun p => p.message s.localMsgId.value).toList

/-- All that a message does. -/
theorem receive_spec (s : WebSocketActor) (event : SocketEvent) :
    (s.receive event).offered = s.offered ++ s.replies event ∧
      (s.receive event).localMsgId =
        (event.payload.elim s.localMsgId fun _ => s.localMsgId.inc.2) ∧
      (s.receive event).futures = (event.forwarded.elim s.futures fun m =>
        Function.update s.futures s.routee ((s.futures s.routee).register m)) ∧
      (s.receive event).out = (s.replies event).foldl SourceQueue.offer s.out := by
  have hnone : s.offered = s.offered ++ [] := (List.append_nil _).symm
  rcases event with message | requests | responses | _ | _ | _
  · rcases message with _ | _ | _ | _ | _ | _
    · exact ⟨hnone, rfl, rfl, rfl⟩
    · exact ⟨hnone, rfl, rfl, rfl⟩
    · exact ⟨hnone, rfl, rfl, rfl⟩
    · exact ⟨hnone, rfl, rfl, rfl⟩
    · exact ⟨rfl, rfl, rfl, rfl⟩
    · exact ⟨rfl, rfl, rfl, rfl⟩
  · rcases requests with _ | ⟨request, more⟩
    · exact ⟨hnone, rfl, rfl, rfl⟩
    · exact ⟨rfl, rfl, rfl, rfl⟩
  · rcases responses with _ | ⟨response, more⟩
    · exact ⟨hnone, rfl, rfl, rfl⟩
    · exact ⟨rfl, rfl, rfl, rfl⟩
  · exact ⟨hnone, rfl, rfl, rfl⟩
  · exact ⟨hnone, rfl, rfl, rfl⟩
  · exact ⟨hnone, rfl, rfl, rfl⟩

theorem receive_frame (s : WebSocketActor) (event : SocketEvent) :
    (s.receive event).told = s.told ∧ (s.receive event).pings = s.pings ∧
      (s.receive event).connInfo = s.connInfo ∧ (s.receive event).handled = s.handled := by
  rcases event with message | requests | responses | _ | _ | _
  · rcases message with _ | _ | _ | _ | _ | _ <;> exact ⟨rfl, rfl, rfl, rfl⟩
  · rcases requests with _ | _ <;> exact ⟨rfl, rfl, rfl, rfl⟩
  · rcases responses with _ | _ <;> exact ⟨rfl, rfl, rfl, rfl⟩
  · exact ⟨rfl, rfl, rfl, rfl⟩
  · exact ⟨rfl, rfl, rfl, rfl⟩
  · exact ⟨rfl, rfl, rfl, rfl⟩

/-- All that an input can do, each alternative with its condition: an event, the end, a future that
is completed, a callback that runs, a ping that is answered or not, a pull. -/
theorem step_cases {i : SocketInput} (h : s.step i = some s') :
    (∃ event, s' = s.handle event) ∨
      s' = { s with running := false } ∨
      (∃ n link, (s.futures n).outcome = none ∧
        s' = { s with
          futures := Function.update s.futures n ((s.futures n).complete link)
          told := s.told ++ (link.map fun r => ⟨n, r, .connectEndpoint s.connInfo⟩).toList }) ∨
      (∃ n j ran f, (s.futures n).turn j = some (ran, f) ∧
        s' = { s with
          futures := Function.update s.futures n f
          told := s.told ++ (ran.map fun r => ⟨n, r.1, .message r.2⟩).toList
          pings := s.pings ++ (ran.bind fun r => Told.ping ⟨n, r.1, .message r.2⟩).toList }) ∨
      (∃ j msg, s.pings[j]? = some msg ∧ (s' = { s with pings := s.pings.eraseIdx j } ∨
        s' = ({ s with pings := s.pings.eraseIdx j }).sendAck msg)) ∨
      s' = { s with out := s.out.pull } := by
  rcases i with event | _ | ⟨n, link⟩ | ⟨n, j⟩ | ⟨j, inTime⟩ | _
  · -- one alternative for each input, in the order of the inputs
    rw [step] at h
    split_ifs at h
    exact Or.inl ⟨event, (Option.some.inj h).symm⟩
  · rw [step] at h
    split_ifs at h
    exact Or.inr (Or.inl (Option.some.inj h).symm)
  · rw [step] at h
    split_ifs at h with hready
    refine Or.inr (Or.inr (Or.inl ⟨n, link, hready.2, ?_⟩))
    rw [← Option.some.inj h]
    rcases link with _ | r
    · simp
    · rfl
  · -- the callback that has run may have told the link something, a ping among it
    obtain ⟨⟨ran, f⟩, hturn, rfl⟩ := Option.map_eq_some_iff.mp h
    refine Or.inr (Or.inr (Or.inr (Or.inl ⟨n, j, ran, f, hturn, ?_⟩)))
    rcases ran with _ | ⟨r, m⟩
    · simp
    · rcases m with _ | _ | _ | _ | _ | _ <;> simp [execute, tell, Told.ping]
  · -- a ping is answered in time or forgotten
    obtain ⟨msg, hmsg, rfl⟩ := Option.map_eq_some_iff.mp h
    refine Or.inr (Or.inr (Or.inr (Or.inr (Or.inl ⟨j, msg, hmsg, ?_⟩))))
    rcases inTime with _ | _
    · exact Or.inl rfl
    · exact Or.inr rfl
  · exact Or.inr (Or.inr (Or.inr (Or.inr (Or.inr (Option.some.inj h).symm))))

/-! ### The stream to the client -/

/-- What has been offered, and which pings wait for an answer. -/
structure StreamInv (salt : Int) (s : WebSocketActor) : Prop where
  numbered : s.offered.filter (fun m => m.pongOf.isNone) =
    .allowed true salt :: numbered ⟨1, 1⟩ s.payloads
  counter : s.localMsgId = (IntCounter.incs ⟨1, 1⟩ s.payloads.length).2
  inOrder : s.acked.Sublist s.pongs
  answered : ∃ answered, s.pongs.Perm (s.acked ++ answered) ∧
    (answered ++ s.pings).Subperm s.toldPings

theorem pongs_replies (s : WebSocketActor) (event : SocketEvent) :
    (s.replies event).filterMap DSAMessage.pongOf = event.ack.toList := by
  rw [replies, List.filterMap_append]
  rcases event.ack with _ | id <;> rcases event.payload with _ | p <;> simp

theorem numbered_replies (s : WebSocketActor) (event : SocketEvent) :
    (s.replies event).filter (fun m => m.pongOf.isNone) =
      (event.payload.map fun p => p.message s.localMsgId.value).toList := by
  rw [replies, List.filter_append]
  rcases event.ack with _ | id <;> rcases event.payload with _ | p <;> simp

theorem payloads_handle (s : WebSocketActor) (event : SocketEvent) :
    (s.handle event).payloads = s.payloads ++ event.payload.toList := filterMap_concat _ _ _

theorem acked_handle (s : WebSocketActor) (event : SocketEvent) :
    (s.handle event).acked = s.acked ++ event.ack.toList := filterMap_concat _ _ _

theorem offered_handle (s : WebSocketActor) (event : SocketEvent) :
    (s.handle event).offered = s.offered ++ s.replies event := (s.receive_spec event).1

theorem pongs_handle (s : WebSocketActor) (event : SocketEvent) :
    (s.handle event).pongs = s.pongs ++ event.ack.toList := by
  rw [pongs, offered_handle, List.filterMap_append, pongs_replies, pongs]

theorem StreamInv.handle {salt : Int} (h : StreamInv salt s) (event : SocketEvent) :
    StreamInv salt (s.handle event) := by
  obtain ⟨-, hcounter, -, -⟩ := s.receive_spec event
  obtain ⟨htold, hpings, -, -⟩ := s.receive_frame event
  obtain ⟨answered, hperm, hopen⟩ := h.answered
  refine ⟨?_, ?_, ?_, answered, ?_, ?_⟩
  · rw [offered_handle, List.filter_append, numbered_replies, h.numbered, payloads_handle]
    rcases event.payload with _ | p
    · simp
    · rw [Option.toList_some, numbered_concat, ← h.counter]
      rfl
  · rw [payloads_handle, WebSocketActor.handle, hcounter]
    rcases event.payload with _ | p
    · simpa using h.counter
    · rw [Option.toList_some, List.length_append, List.length_singleton, IntCounter.incs_add,
        ← h.counter]
      rfl
  · rw [acked_handle, pongs_handle]
    exact h.inOrder.append_right _
  · rw [acked_handle, pongs_handle]
    have hswap : (s.acked ++ answered ++ event.ack.toList).Perm
        (s.acked ++ event.ack.toList ++ answered) := by
      rw [List.append_assoc, List.append_assoc]
      exact List.perm_append_comm.append_left s.acked
    exact (hperm.append_right _).trans hswap
  · simp only [toldPings, WebSocketActor.handle, htold, hpings]
    exact hopen

theorem StreamInv.initial (ci : ConnectionInfo) (salt : Int) (overflow : OverflowStrategy) :
    StreamInv salt (initial ci salt overflow) where
  numbered := rfl
  counter := rfl
  inOrder := List.Sublist.refl _
  answered := ⟨[], List.Perm.refl _, List.Subperm.refl _⟩

/-- Each input keeps it that the stream offers the greeting and then the messages with their
numbers, that acknowledgements go out in the order of the messages, and that no ping is answered
twice. -/
theorem StreamInv.step {salt : Int} (h : StreamInv salt s) {i : SocketInput}
    (hstep : s.step i = some s') : StreamInv salt s' := by
  obtain ⟨answered, hperm, hopen⟩ := h.answered
  rcases step_cases hstep with ⟨event, rfl⟩ | rfl | ⟨n, link, -, rfl⟩ | ⟨n, j, ran, f, -, rfl⟩ |
    ⟨j, msg, hmsg, hanswer⟩ | rfl
  · exact h.handle event
  · exact ⟨h.numbered, h.counter, h.inOrder, answered, hperm, hopen⟩
  · refine ⟨h.numbered, h.counter, h.inOrder, answered, hperm, ?_⟩
    simp only [toldPings, List.filterMap_append]
    exact hopen.trans (List.sublist_append_left _ _).subperm
  · refine ⟨h.numbered, h.counter, h.inOrder, answered, hperm, ?_⟩
    have htold : ((ran.map fun r => (⟨n, r.1, .message r.2⟩ : Told)).toList).filterMap Told.ping =
        (ran.bind fun r => Told.ping ⟨n, r.1, .message r.2⟩).toList := by
      rcases ran with _ | r
      · rfl
      · exact filterMap_concat Told.ping [] _
    simp only [toldPings, List.filterMap_append, htold, ← List.append_assoc]
    exact (List.subperm_append_right _).mpr hopen
  · -- an answered ping counts as answered, and one without an answer is forgotten
    obtain ⟨hj, rfl⟩ := List.getElem?_eq_some_iff.mp hmsg
    have hpings := List.getElem_cons_eraseIdx_perm hj
    rcases hanswer with rfl | rfl
    · refine ⟨h.numbered, h.counter, h.inOrder, answered, hperm, ?_⟩
      exact ((List.eraseIdx_sublist _ _).append_left _).subperm.trans hopen
    · refine ⟨?_, h.counter, ?_, answered ++ [s.pings[j]], ?_, ?_⟩
      · simp only [sendAck, sendToSocket, List.filter_append]
        exact (List.append_nil _).trans h.numbered
      · exact h.inOrder.trans ((List.sublist_append_left s.offered _).filterMap _)
      · simp only [pongs, sendAck, sendToSocket, filterMap_concat, ← List.append_assoc]
        exact hperm.append_right _
      · rw [List.append_assoc]
        exact (hpings.append_left answered).subperm.trans hopen
  · exact ⟨h.numbered, h.counter, h.inOrder, answered, hperm, hopen⟩

/-! ### The way to the link -/

/-- What was told by way of each future. -/
structure ForwardInv (ci : ConnectionInfo) (s : WebSocketActor) : Prop where
  connInfo : s.connInfo = ci
  accounted : ∀ n, ∃ ran, (s.futures n).Accounted (s.arrived n) ran ∧
    s.toldBy n = ((s.futures n).value.map fun r => (r, .connectEndpoint ci)).toList ++
      ran.map fun r => (r.1, .message r.2)

theorem filterMap_told {β : Type} (told : List Told) (x : Option β) (link : β → Routee)
    (message : β → LinkMessage) (n m : Nat) :
    (told ++ (x.map fun b => (⟨n, link b, message b⟩ : Told)).toList).filterMap
        (Told.byFuture m) =
      told.filterMap (Told.byFuture m) ++
        if n = m then (x.map fun b => (link b, message b)).toList else [] := by
  rcases x with _ | b
  · simp
  · rw [Option.map_some, Option.toList_some, filterMap_concat, Told.byFuture]
    split_ifs <;> rfl

theorem arrived_handle (s : WebSocketActor) (event : SocketEvent) (n : Nat) :
    (s.handle event).arrived n =
      s.arrived n ++ if s.routee = n then event.forwarded.toList else [] := by
  refine (filterMap_concat _ _ _).trans ?_
  split_ifs <;> rfl

theorem ForwardInv.handle {ci : ConnectionInfo} (h : ForwardInv ci s) (event : SocketEvent) :
    ForwardInv ci (s.handle event) := by
  obtain ⟨-, -, hfutures, -⟩ := s.receive_spec event
  obtain ⟨htold, -, hci, -⟩ := s.receive_frame event
  have htoldBy : ∀ n, (s.handle event).toldBy n = s.toldBy n := by
    intro n
    rw [toldBy, toldBy, WebSocketActor.handle, htold]
  refine ⟨hci.trans h.connInfo, fun n => ?_⟩
  obtain ⟨ran, haccounted, htoldn⟩ := h.accounted n
  refine ⟨ran, ?_⟩
  rw [arrived_handle, htoldBy, htoldn, WebSocketActor.handle, hfutures]
  rcases event.forwarded with _ | m
  · simpa using haccounted
  · by_cases hn : s.routee = n
    · subst hn
      simp only [Option.elim_some, Function.update_self, if_pos, Option.toList_some]
      exact ⟨haccounted.register m, rfl⟩
    · simp only [Option.elim_some, Function.update_of_ne (Ne.symm hn), if_neg hn, List.append_nil]
      exact ⟨haccounted, trivial⟩

theorem ForwardInv.initial (ci : ConnectionInfo) (salt : Int) (overflow : OverflowStrategy) :
    ForwardInv ci (initial ci salt overflow) where
  connInfo := rfl
  accounted _ := ⟨[], Awaited.Accounted.start, rfl⟩

/-- Each future accounts for the messages that wait for it, whatever happens: they are told in order
once the link is known, and nothing is told twice. -/
theorem ForwardInv.step {ci : ConnectionInfo} (h : ForwardInv ci s) {i : SocketInput}
    (hstep : s.step i = some s') : ForwardInv ci s' := by
  rcases step_cases hstep with ⟨event, rfl⟩ | rfl | ⟨n, link, hnone, rfl⟩ |
    ⟨n, j, ran, f, hturn, rfl⟩ | ⟨j, msg, -, rfl | rfl⟩ | rfl
  · exact h.handle event
  · exact ⟨h.connInfo, h.accounted⟩
  · -- the link becomes known: it is told its endpoint, and the callbacks may run
    refine ⟨h.connInfo, fun m => ?_⟩
    obtain ⟨ran, haccounted, htold⟩ := h.accounted m
    simp only [toldBy, arrived, filterMap_told]
    rw [toldBy] at htold
    by_cases hm : m = n
    · -- nothing was told before the link was known
      subst hm
      obtain rfl := haccounted.ran_eq_nil hnone
      refine ⟨[], ?_, ?_⟩
      · rw [Function.update_self]
        exact haccounted.complete hnone link
      · rw [htold, Function.update_self, if_pos rfl, Awaited.value, Awaited.value, hnone,
          h.connInfo, List.map_nil, List.append_nil]
        exact (List.append_nil _).symm
    · refine ⟨ran, ?_, ?_⟩
      · rw [Function.update_of_ne hm]
        exact haccounted
      · rw [Function.update_of_ne hm, htold, if_neg (Ne.symm hm), List.append_nil]
  · -- a callback runs: its message leaves the waiting ones and is told
    refine ⟨h.connInfo, fun m => ?_⟩
    obtain ⟨old, haccounted, htold⟩ := h.accounted m
    simp only [toldBy, arrived, filterMap_told]
    rw [toldBy] at htold
    by_cases hm : m = n
    · subst hm
      refine ⟨old ++ ran.toList, ?_, ?_⟩
      · rw [Function.update_self]
        exact haccounted.turn hturn
      · rw [htold, Function.update_self, if_pos rfl, Awaited.value_of_turn hturn, List.map_append,
          List.append_assoc]
        rcases ran with _ | r <;> rfl
    · refine ⟨old, ?_, ?_⟩
      · rw [Function.update_of_ne hm]
        exact haccounted
      · rw [Function.update_of_ne hm, htold, if_neg (Ne.symm hm), List.append_nil]
  · exact ⟨h.connInfo, h.accounted⟩
  · exact ⟨h.connInfo, h.accounted⟩
  · exact ⟨h.connInfo, h.accounted⟩

/-! ### What the client gets -/

/-- What is kept of the messages that were offered, and the greeting in front of it where the
strategy spares it. -/
structure QueueInv (greeting : DSAMessage) (overflow : OverflowStrategy)
    (q : SourceQueue DSAMessage) (offered : List DSAMessage) : Prop where
  maxBuffer : q.maxBuffer = bufferSize
  strategy : q.strategy = overflow
  kept : q.kept.Sublist offered
  greeted : overflow = .dropNew ∨ overflow = .dropTail → q.kept.head? = some greeting

variable {greeting : DSAMessage} {overflow : OverflowStrategy} {q : SourceQueue DSAMessage}
  {offered : List DSAMessage}

theorem QueueInv.offer (h : QueueInv greeting overflow q offered) (msg : DSAMessage) :
    QueueInv greeting overflow (q.offer msg) (offered ++ [msg]) where
  maxBuffer := (SourceQueue.maxBuffer_offer _ _).trans h.maxBuffer
  strategy := (SourceQueue.strategy_offer _ _).trans h.strategy
  kept := SourceQueue.kept_offer_sublist h.kept msg
  greeted hspared := by
    apply SourceQueue.head?_kept_offer _ (h.greeted hspared)
    rw [SourceQueue.KeepsFirst, h.strategy, h.maxBuffer]
    exact hspared.imp id fun htail => ⟨htail, by decide⟩

theorem QueueInv.offers (h : QueueInv greeting overflow q offered) (messages : List DSAMessage) :
    QueueInv greeting overflow (messages.foldl SourceQueue.offer q) (offered ++ messages) := by
  induction messages generalizing q offered with
  | nil => rwa [List.append_nil]
  | cons msg rest ih =>
    rw [List.append_cons]
    exact ih (h.offer msg)

theorem QueueInv.pull (h : QueueInv greeting overflow q offered) :
    QueueInv greeting overflow q.pull offered where
  maxBuffer := (SourceQueue.maxBuffer_pull _).trans h.maxBuffer
  strategy := (SourceQueue.strategy_pull _).trans h.strategy
  kept := by
    rw [SourceQueue.kept_pull]
    exact h.kept
  greeted := by
    rw [SourceQueue.kept_pull]
    exact h.greeted

theorem queueInv_initial (ci : ConnectionInfo) (salt : Int) (overflow : OverflowStrategy) :
    QueueInv (.allowed true salt) overflow (initial ci salt overflow).out
      (initial ci salt overflow).offered where
  maxBuffer := rfl
  strategy := rfl
  kept := List.Sublist.refl _
  greeted _ := rfl

theorem QueueInv.step (h : QueueInv greeting overflow s.out s.offered) {i : SocketInput}
    (hstep : s.step i = some s') : QueueInv greeting overflow s'.out s'.offered := by
  rcases step_cases hstep with ⟨event, rfl⟩ | rfl | ⟨_, _, -, rfl⟩ | ⟨_, _, _, _, -, rfl⟩ |
    ⟨_, msg, -, rfl | rfl⟩ | rfl
  · obtain ⟨hoffered, -, -, hout⟩ := s.receive_spec event
    rw [WebSocketActor.handle, hoffered, hout]
    exact h.offers _
  · exact h
  · exact h
  · exact h
  · exact h
  · exact h.offer _
  · exact h.pull

theorem replies_cases (s : WebSocketActor) (event : SocketEvent) :
    s.replies event = [] ∨ ∃ msg, s.replies event = [msg] := by
  rcases event with message | requests | responses | _ | _ | _
  · rcases message with _ | _ | _ | _ | _ | _
    · exact Or.inl rfl
    · exact Or.inl rfl
    · exact Or.inl rfl
    · exact Or.inl rfl
    · exact Or.inr ⟨_, rfl⟩
    · exact Or.inr ⟨_, rfl⟩
  · rcases requests with _ | ⟨request, more⟩
    · exact Or.inl rfl
    · exact Or.inr ⟨_, rfl⟩
  · rcases responses with _ | ⟨response, more⟩
    · exact Or.inl rfl
    · exact Or.inr ⟨_, rfl⟩
  · exact Or.inl rfl
  · exact Or.inl rfl
  · exact Or.inl rfl

/-- There is room for one more message in the queue to the client, so whatever is offered by this
input is taken. -/
def Roomy (s : WebSocketActor) (_ : SocketInput) : Prop := s.out.buffer.length < s.out.maxBuffer

/-- In a run that always finds room in the queue nothing is lost. -/
theorem nothing_dropped {ci : ConnectionInfo} {salt : Int} {overflow : OverflowStrategy}
    (h : Reachable step Roomy (initial ci salt overflow) s) : s.out.kept = s.offered := by
  refine @Reachable.invariant _ _ _ _ _ _ (fun s => s.out.kept = s.offered) rfl ?_ h
  intro s i s' hs hroom hstep
  rcases step_cases hstep with ⟨event, rfl⟩ | rfl | ⟨_, _, -, rfl⟩ | ⟨_, _, _, _, -, rfl⟩ |
    ⟨_, msg, -, rfl | rfl⟩ | rfl
  · obtain ⟨hoffered, -, -, hout⟩ := s.receive_spec event
    rw [WebSocketActor.handle, hoffered, hout, ← hs]
    rcases s.replies_cases event with hnone | ⟨msg, hone⟩
    · rw [hnone, List.append_nil, List.foldl_nil]
    · rw [hone]
      exact SourceQueue.kept_offer_of_room hroom msg
  · exact hs
  · exact hs
  · exact hs
  · exact hs
  · exact (SourceQueue.kept_offer_of_room hroom _).trans (congrArg (· ++ _) hs)
  · exact (SourceQueue.kept_pull _).trans hs

end WebSocketActor

/-- The id of a message that the broker numbers. -/
def DSAMessage.msgId : DSAMessage → Option Int
  | .request msg _ _ => some msg
  | .response msg _ _ => some msg
  | _ => none

@[simp] theorem msgId_message (id : Int) (payload : Payload) :
    (payload.message id).msgId = some id := by
  rcases payload with _ | _ <;> rfl

/-- The message that has the id, as long as the counter has not come round. -/
def messageAt (payloads : List Payload) (id : Int) : Option DSAMessage :=
  payloads[(id - 1).toNat]?.map (Payload.message id)

section Numbers

variable {payloads : List Payload}

theorem incs_one (h : (payloads.length : Int) < maxInt) :
    (IntCounter.incs ⟨1, 1⟩ payloads.length).1 = intsUntil 1 (1 + payloads.length) := by
  rw [IntCounter.incs_of_le]
  simp only
  omega

theorem messageAt_of_mem (h : (payloads.length : Int) < maxInt) {m : DSAMessage}
    (hm : m ∈ numbered ⟨1, 1⟩ payloads) : m.msgId.bind (messageAt payloads) = some m := by
  obtain ⟨k, hk⟩ := List.mem_iff_getElem?.mp hm
  rw [numbered, incs_one h, List.getElem?_zipWith_eq_some] at hk
  obtain ⟨id, payload, hid, hpayload, rfl⟩ := hk
  have hvalue : id = 1 + (k : Int) := by
    rw [intsUntil, List.getElem?_map, Option.map_eq_some_iff] at hid
    obtain ⟨j, hj, rfl⟩ := hid
    obtain ⟨hlt, hvalue⟩ := List.getElem?_eq_some_iff.mp hj
    rw [List.getElem_range] at hvalue
    rw [hvalue]
  have hplace : (id - 1).toNat = k := by omega
  rw [msgId_message, Option.bind_some, messageAt, hplace, hpayload]
  rfl

theorem ids_zipWith {ids : List Int} (h : ids.length = payloads.length) :
    (List.zipWith Payload.message ids payloads).filterMap DSAMessage.msgId = ids := by
  induction ids generalizing payloads with
  | nil => rfl
  | cons id rest ih =>
    rcases payloads with _ | ⟨payload, more⟩
    · simp at h
    · rw [List.zipWith_cons_cons, List.filterMap_cons_some (msgId_message id payload),
        ih (Nat.succ.inj h)]

theorem pairwise_intsUntil (start stop : Int) : (intsUntil start stop).Pairwise (· < ·) := by
  rw [intsUntil, List.pairwise_map]
  exact List.pairwise_lt_range.imp fun h => by omega

/-- What is left of the numbered messages is told apart by ids. -/
theorem filter_eq_of_sublist (h : (payloads.length : Int) < maxInt) {seen : List DSAMessage}
    (hseen : seen.Sublist (numbered ⟨1, 1⟩ payloads)) :
    (seen.filterMap DSAMessage.msgId).Pairwise (· < ·) ∧
      seen = (seen.filterMap DSAMessage.msgId).filterMap (messageAt payloads) := by
  constructor
  · have hids := hseen.filterMap DSAMessage.msgId
    rw [numbered, ids_zipWith (length_incs _ _), incs_one h] at hids
    exact (pairwise_intsUntil _ _).sublist hids
  · rw [List.filterMap_filterMap]
    have hsame : ∀ m ∈ seen, m.msgId.bind (messageAt payloads) = some m := fun m hm =>
      messageAt_of_mem h (hseen.subset hm)
    rw [List.filterMap_congr hsame]
    exact List.filterMap_some.symm

/-- The greeting and the acks have no ids. -/
theorem filter_msgId_of_stream (h : (payloads.length : Int) < maxInt) {offered : List DSAMessage}
    {salt : Int} (hstream : offered.filter (fun m => m.pongOf.isNone) =
      .allowed true salt :: numbered ⟨1, 1⟩ payloads) :
    offered.filter (fun m => m.msgId.isSome) = numbered ⟨1, 1⟩ payloads := by
  have hnumbered : ∀ m ∈ numbered ⟨1, 1⟩ payloads, m.msgId.isSome = true := by
    intro m hm
    obtain ⟨id, hid, -⟩ := Option.bind_eq_some_iff.mp (messageAt_of_mem h hm)
    rw [hid]
    rfl
  have hboth : offered.filter (fun m => m.msgId.isSome) =
      (offered.filter fun m => m.pongOf.isNone).filter fun m => m.msgId.isSome := by
    rw [List.filter_filter]
    apply List.filter_congr
    intro m _
    rcases m with _ | _ | _ | _ | _ | _ <;> rfl
  rw [hboth, hstream]
  exact List.filter_eq_self.mpr hnumbered

end Numbers

/-- **The stream to the client.**  In every run, what the actor has offered is the greeting and the
contents of all envelopes, with the ids of the counter, and acks between them: each request and
response message is acknowledged once, in the order in which they came, and beside that only pings
that a link was told and has answered. -/
theorem socket_stream {ci : ConnectionInfo} {salt : Int} {overflow : OverflowStrategy}
    {s : WebSocketActor}
    (h : Reachable WebSocketActor.step AnyStep (WebSocketActor.initial ci salt overflow) s) :
    s.offered.filter (fun m => m.pongOf.isNone) =
        .allowed true salt :: numbered ⟨1, 1⟩ s.payloads ∧
      s.acked.Sublist s.pongs ∧
      ∃ answered, s.pongs.Perm (s.acked ++ answered) ∧ answered.Subperm s.toldPings := by
  have hinv : s.StreamInv salt := h.invariant (WebSocketActor.StreamInv.initial ci salt overflow)
    fun s i s' hs _ hstep => hs.step hstep
  obtain ⟨answered, hperm, hopen⟩ := hinv.answered
  refine ⟨hinv.numbered, hinv.inOrder, answered, hperm, ?_⟩
  exact (List.sublist_append_left _ _).subperm.trans hopen

/-- A run of the actor: a request and a ping that overtakes it, and one envelope for the client. -/
def greetedRun : List SocketInput :=
  [.event (.message (.request 7 none [.list 1 (str "/")])), .event (.message (.ping 8 none)),
    .routeeArrived 0 (some (.actorRef (str "/user/downstream/A"))), .callback 0 1, .callback 0 0,
    .pingAnswered 0 true, .event (.responseEnvelope []), .event (.requestEnvelope [.close 1]),
    .pull, .pull]

/-- Both messages are acknowledged, and the ping that the link has answered is, too. -/
theorem socket_stream_greeted :
    ∃ s : WebSocketActor, s.pongs = [7, 8] ∧ s.payloads.length = 1 ∧
      s.offered.filter (fun m => m.pongOf.isNone) =
        .allowed true 5 :: numbered ⟨1, 1⟩ s.payloads ∧
      s.acked.Sublist s.pongs ∧
      ∃ answered, s.pongs.Perm (s.acked ++ answered) ∧ answered.Subperm s.toldPings := by
  obtain ⟨s, hs, hpongs, hpayloads⟩ := @Reachable.exists_of_run _ _ WebSocketActor.step AnyStep
    (WebSocketActor.initial (.initially []) 5 .dropHead) _ greetedRun
    (fun s => s.pongs = [7, 8] ∧ s.payloads.length = 1) _ (by decide)
  exact ⟨s, hpongs, hpayloads, socket_stream hs⟩

/-- **Forwarding.**  In every run and for every answer of the registry, what was told to the link
is first the connection and then the messages that came while that answer was awaited or current,
each at most once; those that were not told yet wait.  Nothing is told without an answer. -/
theorem forwarded_once {ci : ConnectionInfo} {salt : Int} {overflow : OverflowStrategy}
    {s : WebSocketActor}
    (h : Reachable WebSocketActor.step AnyStep (WebSocketActor.initial ci salt overflow) s)
    (n : Nat) :
    ∃ turns, (turns ++ (s.futures n).callbacks).Perm (s.arrived n) ∧
      ((s.futures n).outcome = none → turns = []) ∧
      s.toldBy n = (s.futures n).value.toList.flatMap fun link =>
        (link, .connectEndpoint ci) :: turns.map fun m => (link, .message m) := by
  have hinv : s.ForwardInv ci := h.invariant (WebSocketActor.ForwardInv.initial ci salt overflow)
    fun s i s' hs _ hstep => hs.step hstep
  obtain ⟨ran, ⟨turns, hperm, hnone, rfl⟩, htold⟩ := hinv.accounted n
  refine ⟨turns, hperm, hnone, ?_⟩
  rw [htold]
  rcases (s.futures n).value with _ | link
  · simp
  · simp

/-- The link is told of the connection, then the two messages. -/
theorem forwarded_once_greeted :
    ∃ s : WebSocketActor, (s.toldBy 0).length = 3 ∧
      ∃ turns, (turns ++ (s.futures 0).callbacks).Perm (s.arrived 0) ∧
        ((s.futures 0).outcome = none → turns = []) ∧
        s.toldBy 0 = (s.futures 0).value.toList.flatMap fun link =>
          (link, .connectEndpoint (.initially [])) :: turns.map fun m => (link, .message m) := by
  obtain ⟨s, hs, hlength⟩ := @Reachable.exists_of_run _ _ WebSocketActor.step AnyStep
    (WebSocketActor.initial (.initially []) 5 .dropHead) _ greetedRun
    (fun s => (s.toldBy 0).length = 3) _ (by decide)
  exact ⟨s, hlength, forwarded_once hs 0⟩

/-- **What the client sees.**  In every run, whatever the strategy of the queue: the client gets
messages that were offered, in that order, and the greeting first if the strategy drops younger
messages.  As long as the counter has not come round, the ids that the client sees ascend, and each
of them stands for one payload, so that ids without a gap mean that nothing is missing. -/
theorem client_sees {ci : ConnectionInfo} {salt : Int} {overflow : OverflowStrategy}
    {s : WebSocketActor}
    (h : Reachable WebSocketActor.step AnyStep (WebSocketActor.initial ci salt overflow) s) :
    s.out.pushed.Sublist s.offered ∧
      (overflow = .dropNew ∨ overflow = .dropTail →
        s.out.pushed = [] ∨ s.out.pushed.head? = some (.allowed true salt)) ∧
      ((s.payloads.length : Int) < maxInt →
        (s.out.pushed.filterMap DSAMessage.msgId).Pairwise (· < ·) ∧
        s.out.pushed.filter (fun m => m.msgId.isSome) =
          (s.out.pushed.filterMap DSAMessage.msgId).filterMap (messageAt s.payloads)) := by
  have hstream : s.StreamInv salt := h.invariant
    (WebSocketActor.StreamInv.initial ci salt overflow) fun s i s' hs _ hstep => hs.step hstep
  have hqueue : WebSocketActor.QueueInv (.allowed true salt) overflow s.out s.offered :=
    @Reachable.invariant _ _ _ _ _ _
      (fun s => WebSocketActor.QueueInv (.allowed true salt) overflow s.out s.offered)
      (WebSocketActor.queueInv_initial ci salt overflow)
      (fun s i s' hs _ hstep => hs.step hstep) h
  have hpushed : s.out.pushed.Sublist s.offered :=
    (List.sublist_append_left _ _).trans hqueue.kept
  refine ⟨hpushed, ?_, ?_⟩
  · -- what the strategy keeps begins with the greeting, and so does what was pushed of it
    intro hspared
    have hgreeted := hqueue.greeted hspared
    rw [SourceQueue.kept] at hgreeted
    rcases hpushed : s.out.pushed with _ | ⟨first, rest⟩
    · exact Or.inl rfl
    · rw [hpushed] at hgreeted
      exact Or.inr hgreeted
  · intro hfew
    have hseen := hpushed.filter fun m => m.msgId.isSome
    rw [filter_msgId_of_stream hfew hstream.numbered] at hseen
    have hids : (s.out.pushed.filter fun m => m.msgId.isSome).filterMap DSAMessage.msgId =
        s.out.pushed.filterMap DSAMessage.msgId := by
      rw [List.filterMap_filter]
      apply List.filterMap_congr
      intro m _
      rcases m.msgId with _ | id <;> rfl
    rw [← hids]
    exact filter_eq_of_sublist hfew hseen

/-- Of a queue that drops younger messages the client has got the greeting and one message more. -/
theorem client_sees_greeted :
    ∃ s : WebSocketActor, s.out.pushed.length = 2 ∧ s.out.pushed.Sublist s.offered ∧
      (s.out.pushed = [] ∨ s.out.pushed.head? = some (.allowed true 5)) ∧
      (s.out.pushed.filterMap DSAMessage.msgId).Pairwise (· < ·) ∧
      s.out.pushed.filter (fun m => m.msgId.isSome) =
        (s.out.pushed.filterMap DSAMessage.msgId).filterMap (messageAt s.payloads) := by
  obtain ⟨s, hs, hlength, hpayloads⟩ := @Reachable.exists_of_run _ _ WebSocketActor.step AnyStep
    (WebSocketActor.initial (.initially []) 5 .dropNew) _ greetedRun
    (fun s => s.out.pushed.length = 2 ∧ (s.payloads.length : Int) < maxInt) _ (by decide)
  obtain ⟨hpushed, hgreeted, hids⟩ := client_sees hs
  exact ⟨s, hlength, hpushed, hgreeted (Or.inl rfl), hids hpayloads⟩

end DsaBroker
