import DsaBroker.InMemoryDSANode
import DsaBroker.Runs

/-!
# Clients of a broker node and their ids

A client chooses its SIDs and RIDs by itself, so two clients use the same ones.  The node's
tables have one entry for each number, whoever uses it: a SUBSCRIBE takes over the entry of
another client and an UNSUBSCRIBE deletes it, LIST and CLOSE likewise.

What a client should be told is defined from its own requests only (`ownNotifications`).  It
is told exactly that in every run in which no request meets an entry of another client.
-/

namespace DsaBroker

namespace InMemoryDSANode

/-! ### What a message does to a listener -/

/-- The entry that a request writes or deletes: who sends it, the entry's key, and whether
the entry is there afterwards. -/
def entryRequest : NodeInput → Option (ActorRef × ListenerKey × Bool)
  | .request sender (.subscribe _ paths) =>
      (onlyElement paths).map fun path => (sender, .sid path.sid, true)
  | .request sender (.unsubscribe _ sids) =>
      (onlyElement sids).map fun sid => (sender, .sid sid, false)
  | .request sender (.list rid _) => some (sender, .rid rid, true)
  | .request sender (.close rid) => some (sender, .rid rid, false)
  | _ => none

/-- The value a message sets. -/
def valueChange : NodeInput → Option DSAVal
  | .setValue v => some v
  | .request _ (.set _ p v _) =>
      (split p).getLast?.bind fun name =>
        if startsWith name [dollar] || startsWith name [atSign] then none else some v
  | _ => none

/-- The rows of configs, attributes and children that a message changes. -/
def listChange : NodeInput → Option (List DSAVal)
  | .addConfigs configs => some (rowsOf (prefixed dollar configs))
  | .addAttributes attributes => some (rowsOf (prefixed atSign attributes))
  | .removeConfig name | .removeAttribute name | .removeChild name => some [removedRow name]
  | .addChild name => some [.array [.string name, .map [(str "$is", .string (str "node"))]]]
  | .request _ (.set _ p v _) =>
      (split p).getLast?.bind fun name =>
        if startsWith name [dollar] then some (rowsOf (prefixed dollar [(name, v)]))
        else if startsWith name [atSign] then some (rowsOf (prefixed atSign [(name, v)]))
        else none
  | .request _ (.remove _ p) =>
      (split p).getLast?.bind fun name =>
        if startsWith name [dollar] || startsWith name [atSign] then some [removedRow name]
        else none
  | _ => none

/-- What a listener is to be told about a message, tagged with its own SID or RID. -/
def reported (message : Surroundings × NodeInput) : ListenerKey → Option DSAResponse
  | .sid sid => (valueChange message.2).map fun v => valueUpdate v message.1.now sid
  | .rid rid => (listChange message.2).map fun updates => listUpdate updates rid

/-- Whether the subscription (LIST) of `client` under `key` is open after a message.  Only
its own requests count. -/
def openAfter (client : ActorRef) (key : ListenerKey) (isOpen : Bool) (input : NodeInput) : Bool :=
  match entryRequest input with
  | some (sender, touched, opens) => if sender = client ∧ touched = key then opens else isOpen
  | none => isOpen

/-- The notifications for the changes made while the client's own subscription is open. -/
def ownNotifications (client : ActorRef) (key : ListenerKey) :
    Bool → List (Surroundings × NodeInput) → List DSAResponse
  | _, [] => []
  | isOpen, message :: rest =>
      (if isOpen then (reported message key).toList else []) ++
        ownNotifications client key (openAfter client key isOpen message.2) rest

/-- What a client received under one of its ids, out of all notifications of a run. -/
def streamOf (client : ActorRef) (key : ListenerKey) (notifications : List Notification) :
    List DSAResponse :=
  notifications.filterMap fun n =>
    if n.key = key ∧ n.listener = client then some n.response else none

/-- The table entry under a key. -/
def listenerOf (n : InMemoryDSANode) : ListenerKey → Option ActorRef
  | .sid sid => n.sids.get sid
  | .rid rid => n.rids.get rid

/-- The request, if it is one that touches an entry, does not meet one of another client. -/
def MeetsOwnEntry (n : InMemoryDSANode) (message : Surroundings × NodeInput) : Prop :=
  ∀ sender key opens, entryRequest message.2 = some (sender, key, opens) →
    ∀ other, n.listenerOf key = some other → other = sender

/-! ### Notifications -/

theorem streamOf_append (client : ActorRef) (key : ListenerKey) (xs ys : List Notification) :
    streamOf client key (xs ++ ys) = streamOf client key xs ++ streamOf client key ys :=
  List.filterMap_append

@[simp] theorem streamOf_nil (client : ActorRef) (key : ListenerKey) :
    streamOf client key [] = [] := rfl

section

variable [ScanOrder Int]

/-- Sending something to every listener of a table sends it once to the listener under a
given number. -/
theorem streamOf_entries (table : ScanMap Int ActorRef) (mkKey : Int → ListenerKey)
    (hinj : Function.Injective mkKey) (response : Int → DSAResponse) (client : ActorRef)
    (number : Int) :
    streamOf client (mkKey number)
        (table.entries.map fun entry => ⟨mkKey entry.1, entry.2, response entry.1⟩) =
      if table.get number = some client then [response number] else [] := by
  unfold streamOf
  rw [List.filterMap_map]
  have hentries := table.filterMap_entries number
    (fun entry => if mkKey entry.1 = mkKey number ∧ entry.2 = client then
      some (response entry.1) else none)
    (fun j _ hj => if_neg fun hboth => hj (hinj hboth.1))
  apply Eq.trans hentries
  cases table.get number with
  | none => rfl
  | some ref => by_cases href : ref = client <;> simp [href]

theorem streamOf_entries_of_ne (table : ScanMap Int ActorRef) (mkKey : Int → ListenerKey)
    (response : Int → DSAResponse) (client : ActorRef) {key : ListenerKey}
    (hne : ∀ number, mkKey number ≠ key) :
    streamOf client key
        (table.entries.map fun entry => ⟨mkKey entry.1, entry.2, response entry.1⟩) = [] := by
  unfold streamOf
  rw [List.filterMap_map, List.filterMap_eq_nil_iff]
  intro entry _
  exact if_neg fun hboth => hne _ hboth.1

theorem streamOf_notifySubscribeActors (n : InMemoryDSANode) (value : DSAVal) (ts : Str)
    (client : ActorRef) (key : ListenerKey) :
    streamOf client key (n.notifySubscribeActors value ts) =
      if n.listenerOf key = some client then
        (match key with
          | .sid sid => [valueUpdate value ts sid]
          | .rid _ => [])
      else [] := by
  cases key with
  | sid sid =>
    exact streamOf_entries n.sids .sid (fun _ _ h => by cases h; rfl) (valueUpdate value ts) ..
  | rid rid =>
    rw [ite_self]
    exact streamOf_entries_of_ne n.sids .sid (valueUpdate value ts) client
      (fun _ h => by cases h)

theorem streamOf_notifyListActors (n : InMemoryDSANode) (updates : List DSAVal)
    (client : ActorRef) (key : ListenerKey) :
    streamOf client key (n.notifyListActors updates) =
      if n.listenerOf key = some client then
        (match key with
          | .sid _ => []
          | .rid rid => [listUpdate updates rid])
      else [] := by
  cases key with
  | rid rid =>
    exact streamOf_entries n.rids .rid (fun _ _ h => by cases h; rfl) (listUpdate updates) ..
  | sid sid =>
    rw [ite_self]
    exact streamOf_entries_of_ne n.rids .rid (listUpdate updates) client
      (fun _ h => by cases h)

/-- A request handler that came through, given what it does with the one element or the last
segment it needs. -/
theorem streamOf_set {n : InMemoryDSANode} {o : Surroundings} {sender : ActorRef} {rid : Int}
    {p : Str} {v : DSAVal} {permit : Option Str} {outcome : NodeOutcome}
    (h : n.handleRequest o sender (.set rid p v permit) = some outcome) (client : ActorRef)
    (key : ListenerKey) :
    streamOf client key outcome.notifications =
      if n.listenerOf key = some client then
        (reported (o, .request sender (.set rid p v permit)) key).toList else [] := by
  simp only [handleRequest, Option.map_eq_some_iff] at h
  obtain ⟨name, hname, rfl⟩ := h
  cases hdollar : startsWith name [dollar] with
  | true =>
    simp only [if_true, addConfigs, streamOf_notifyListActors]
    cases key <;> simp [reported, valueChange, listChange, hname, hdollar]
  | false =>
    cases hat : startsWith name [atSign] with
    | true =>
      simp only [Bool.false_eq_true, if_false, if_true, addAttributes,
        streamOf_notifyListActors]
      cases key <;> simp [reported, valueChange, listChange, hname, hdollar, hat]
    | false =>
      simp only [Bool.false_eq_true, if_false, setValue, streamOf_notifySubscribeActors]
      cases key <;> simp [reported, valueChange, listChange, hname, hdollar, hat]

theorem streamOf_remove {n : InMemoryDSANode} {o : Surroundings} {sender : ActorRef} {rid : Int}
    {p : Str} {outcome : NodeOutcome}
    (h : n.handleRequest o sender (.remove rid p) = some outcome) (client : ActorRef)
    (key : ListenerKey) :
    streamOf client key outcome.notifications =
      if n.listenerOf key = some client then
        (reported (o, .request sender (.remove rid p)) key).toList else [] := by
  simp only [handleRequest, Option.map_eq_some_iff] at h
  obtain ⟨name, hname, rfl⟩ := h
  cases hdollar : startsWith name [dollar] with
  | true =>
    simp only [if_true, removeConfig, streamOf_notifyListActors]
    cases key <;> simp [reported, valueChange, listChange, hname, hdollar]
  | false =>
    cases hat : startsWith name [atSign] with
    | true =>
      simp only [Bool.false_eq_true, if_false, if_true, removeAttribute,
        streamOf_notifyListActors]
      cases key <;> simp [reported, valueChange, listChange, hname, hdollar, hat]
    | false =>
      simp only [Bool.false_eq_true, if_false, streamOf_nil]
      cases key <;> simp [reported, valueChange, listChange, hname, hdollar, hat]

/-- What a client is told by one message: what the message reports, if the entry under the
key is the client's. -/
theorem streamOf_receive {n : InMemoryDSANode} {message : Surroundings × NodeInput}
    {outcome : NodeOutcome} (h : n.receive message = some outcome) (client : ActorRef)
    (key : ListenerKey) :
    streamOf client key outcome.notifications =
      if n.listenerOf key = some client then (reported message key).toList else [] := by
  obtain ⟨o, input⟩ := message
  cases input with
  | request sender request =>
    cases request with
    | set rid p v permit => exact streamOf_set h client key
    | remove rid p => exact streamOf_remove h client key
    | invoke rid path params permit =>
      simp only [receive, handleRequest] at h
      cases hresult : o.invoke params with
      | none =>
        rw [hresult] at h
        cases h
        cases key <;> simp [reported, valueChange, listChange]
      | some token =>
        rw [hresult] at h
        cases h
        cases key <;> simp [reported, valueChange, listChange]
    | subscribe rid paths =>
      simp only [receive, handleRequest, Option.map_eq_some_iff] at h
      obtain ⟨path, _, rfl⟩ := h
      cases key <;> simp [reported, valueChange, listChange]
    | unsubscribe rid sids =>
      simp only [receive, handleRequest, Option.map_eq_some_iff] at h
      obtain ⟨sid, _, rfl⟩ := h
      cases key <;> simp [reported, valueChange, listChange]
    | list rid path =>
      cases h
      cases key <;> simp [reported, valueChange, listChange]
    | close rid =>
      cases h
      cases key <;> simp [reported, valueChange, listChange]
  | setValue v =>
    cases h
    simp only [setValue, streamOf_notifySubscribeActors]
    cases key <;> rfl
  | addConfigs configs =>
    cases h
    simp only [addConfigs, streamOf_notifyListActors]
    cases key <;> rfl
  | removeConfig name =>
    cases h
    simp only [removeConfig, streamOf_notifyListActors]
    cases key <;> rfl
  | addAttributes attributes =>
    cases h
    simp only [addAttributes, streamOf_notifyListActors]
    cases key <;> rfl
  | removeAttribute name =>
    cases h
    simp only [removeAttribute, streamOf_notifyListActors]
    cases key <;> rfl
  | addChild name =>
    cases h
    simp only [addChild, streamOf_notifyListActors]
    cases key <;> rfl
  | removeChild name =>
    cases h
    simp only [removeChild, streamOf_notifyListActors]
    cases key <;> rfl

/-- What a message does to the tables: it changes the entry of its request, if any. -/
theorem listenerOf_receive {n : InMemoryDSANode} {message : Surroundings × NodeInput}
    {outcome : NodeOutcome} (h : n.receive message = some outcome) (key : ListenerKey) :
    outcome.node.listenerOf key =
      match entryRequest message.2 with
      | some (sender, touched, opens) =>
          if key = touched then (if opens then some sender else none) else n.listenerOf key
      | none => n.listenerOf key := by
  obtain ⟨o, input⟩ := message
  cases input with
  | request sender request =>
    cases request with
    | set rid p v permit =>
      simp only [receive, handleRequest, Option.map_eq_some_iff] at h
      obtain ⟨name, _, rfl⟩ := h
      dsimp only [entryRequest]
      split
      · cases key <;> rfl
      · split <;> cases key <;> rfl
    | remove rid p =>
      simp only [receive, handleRequest, Option.map_eq_some_iff] at h
      obtain ⟨name, _, rfl⟩ := h
      dsimp only [entryRequest]
      split
      · cases key <;> rfl
      · split <;> cases key <;> rfl
    | invoke rid path params permit =>
      simp only [receive, handleRequest] at h
      split at h <;> cases h <;> rfl
    | subscribe rid paths =>
      simp only [receive, handleRequest, Option.map_eq_some_iff] at h
      obtain ⟨path, hpath, rfl⟩ := h
      simp only [entryRequest, hpath, Option.map_some, if_true]
      -- SUBSCRIBE and UNSUBSCRIBE touch the table by SID, LIST and CLOSE the one by RID
      cases key with
      | sid sid => simp [listenerOf, subscribe, ScanMap.get_put]
      | rid _ => simp [listenerOf, subscribe]
    | unsubscribe rid sids =>
      simp only [receive, handleRequest, Option.map_eq_some_iff] at h
      obtain ⟨sid, hsid, rfl⟩ := h
      simp only [entryRequest, hsid, Option.map_some]
      cases key with
      | sid sid => simp [listenerOf, unsubscribe, ScanMap.get_remove]
      | rid _ => simp [listenerOf, unsubscribe]
    | list rid path =>
      cases h
      cases key with
      | sid _ => simp [listenerOf, list, entryRequest]
      | rid _ => simp [listenerOf, list, entryRequest, ScanMap.get_put]
    | close rid =>
      cases h
      cases key with
      | sid _ => simp [listenerOf, unlist, entryRequest]
      | rid _ => simp [listenerOf, unlist, entryRequest, ScanMap.get_remove]
  | setValue v => cases h; cases key <;> rfl
  | addConfigs configs => cases h; cases key <;> rfl
  | removeConfig name => cases h; cases key <;> rfl
  | addAttributes attributes => cases h; cases key <;> rfl
  | removeAttribute name => cases h; cases key <;> rfl
  | addChild name => cases h; cases key <;> rfl
  | removeChild name => cases h; cases key <;> rfl

/-- Whether a message comes through depends on the message alone. -/
theorem receive_isSome (n n' : InMemoryDSANode) (message : Surroundings × NodeInput) :
    (n.receive message).isSome = (n'.receive message).isSome := by
  obtain ⟨o, input⟩ := message
  cases input with
  | request sender request =>
    cases request with
    | set rid p v permit => simp only [receive, handleRequest, Option.isSome_map]
    | remove rid p => simp only [receive, handleRequest, Option.isSome_map]
    | invoke rid path params permit =>
      simp only [receive, handleRequest]
      split <;> rfl
    | subscribe rid paths => simp only [receive, handleRequest, Option.isSome_map]
    | unsubscribe rid sids => simp only [receive, handleRequest, Option.isSome_map]
    | list rid path => rfl
    | close rid => rfl
  | setValue v => rfl
  | addConfigs configs => rfl
  | removeConfig name => rfl
  | addAttributes attributes => rfl
  | removeAttribute name => rfl
  | addChild name => rfl
  | removeChild name => rfl

/-! ### Runs -/

/-- The state after a message. -/
def receiveStep (n : InMemoryDSANode) (message : Surroundings × NodeInput) :
    Option InMemoryDSANode := (n.receive message).map NodeOutcome.node

/-- One message: a client's own bookkeeping keeps up with the table, since the entry that a
request changes belongs to its sender or to nobody. -/
theorem openAfter_iff {n : InMemoryDSANode} {message : Surroundings × NodeInput}
    {outcome : NodeOutcome} (h : n.receive message = some outcome)
    (hown : n.MeetsOwnEntry message) {client : ActorRef} {key : ListenerKey} {isOpen : Bool}
    (hopen : isOpen = true ↔ n.listenerOf key = some client) :
    openAfter client key isOpen message.2 = true ↔
      outcome.node.listenerOf key = some client := by
  rw [listenerOf_receive h key]
  unfold openAfter
  cases hentry : entryRequest message.2 with
  | none => exact hopen
  | some touched =>
    obtain ⟨sender, touchedKey, opens⟩ := touched
    by_cases hkey : touchedKey = key
    · subst hkey
      by_cases hsender : sender = client
      · cases opens <;> simp [hsender]
      · -- another client's request: the entry under this key is not the client's
        have hnot : n.listenerOf touchedKey ≠ some client := fun hlistener =>
          hsender (hown sender touchedKey opens hentry client hlistener).symm
        have hclosed : isOpen = false := by
          cases isOpen with
          | false => rfl
          | true => exact absurd (hopen.mp rfl) hnot
        cases opens <;> simp [hsender, hclosed]
    · simp only [hkey, and_false, if_false, Ne.symm hkey]
      exact hopen

/-- **A client is told what concerns it.**  In a run in which no request meets an entry of
another client, a client receives under each of its ids the notifications for the changes
made while its own subscription is open, and no others. -/
theorem streamOf_receiveAll {messages : List (Surroundings × NodeInput)}
    {n n' : InMemoryDSANode} {notifications : List Notification}
    (hrun : n.receiveAll messages = some (n', notifications))
    (hown : Admissible receiveStep MeetsOwnEntry n messages) {client : ActorRef}
    {key : ListenerKey} {isOpen : Bool}
    (hopen : isOpen = true ↔ n.listenerOf key = some client) :
    streamOf client key notifications = ownNotifications client key isOpen messages := by
  induction messages generalizing n notifications isOpen with
  | nil =>
    cases hrun
    rfl
  | cons message rest ih =>
    simp only [receiveAll, Option.bind_eq_some_iff, Option.map_eq_some_iff] at hrun
    obtain ⟨outcome, houtcome, ⟨final, later⟩, hlater, heq⟩ := hrun
    cases heq
    obtain ⟨hmeets, hrest⟩ := hown
    have hstep : receiveStep n message = some outcome.node := by
      rw [receiveStep, houtcome]
      rfl
    have htail := ih hlater (hrest _ hstep) (openAfter_iff houtcome hmeets hopen)
    rw [streamOf_append, htail, streamOf_receive houtcome]
    simp only [ownNotifications, hopen]

end

/-! ### Deleting the requests of the other clients -/

/-- Everything but the Subscribe, Unsubscribe, List and Close requests of other clients. -/
def keptFor (client : ActorRef) : NodeInput → Bool
  | .request sender (.subscribe ..) | .request sender (.unsubscribe ..)
  | .request sender (.list ..) | .request sender (.close ..) => decide (sender = client)
  | _ => true

theorem sender_of_keptFor {client : ActorRef} {input : NodeInput}
    (hkept : keptFor client input = true) {sender : ActorRef} {key : ListenerKey} {opens : Bool}
    (hentry : entryRequest input = some (sender, key, opens)) : sender = client := by
  cases input with
  | request from_ request =>
    cases request <;> simp [entryRequest, keptFor] at hentry hkept <;> grind
  | _ => cases hentry

/-- A deleted request reports nothing and leaves the client's bookkeeping alone. -/
theorem reported_of_not_keptFor {client : ActorRef} {message : Surroundings × NodeInput}
    (h : keptFor client message.2 = false) (key : ListenerKey) (isOpen : Bool) :
    reported message key = none ∧ openAfter client key isOpen message.2 = isOpen := by
  obtain ⟨o, input⟩ := message
  cases input with
  | request sender request =>
    cases request with
    | set rid p v permit => cases h
    | remove rid p => cases h
    | invoke rid path params permit => cases h
    | subscribe rid paths =>
      have hsender : sender ≠ client := of_decide_eq_false h
      refine ⟨by cases key <;> rfl, ?_⟩
      unfold openAfter
      cases hpath : onlyElement paths <;> simp [entryRequest, hpath, hsender]
    | unsubscribe rid sids =>
      have hsender : sender ≠ client := of_decide_eq_false h
      refine ⟨by cases key <;> rfl, ?_⟩
      unfold openAfter
      cases hsid : onlyElement sids <;> simp [entryRequest, hsid, hsender]
    | list rid path =>
      have hsender : sender ≠ client := of_decide_eq_false h
      refine ⟨by cases key <;> rfl, ?_⟩
      simp [openAfter, entryRequest, hsender]
    | close rid =>
      have hsender : sender ≠ client := of_decide_eq_false h
      refine ⟨by cases key <;> rfl, ?_⟩
      simp [openAfter, entryRequest, hsender]
  | _ => cases h

theorem ownNotifications_filter (client : ActorRef) (key : ListenerKey)
    (messages : List (Surroundings × NodeInput)) (isOpen : Bool) :
    ownNotifications client key isOpen (messages.filter fun m => keptFor client m.2) =
      ownNotifications client key isOpen messages := by
  induction messages generalizing isOpen with
  | nil => rfl
  | cons message rest ih =>
    cases hkept : keptFor client message.2 with
    | true =>
      simp only [List.filter_cons, hkept, if_true, ownNotifications, ih]
    | false =>
      obtain ⟨hreported, hopen⟩ := reported_of_not_keptFor hkept key isOpen
      simp only [List.filter_cons, hkept, ih, ownNotifications, hreported, hopen,
        Option.toList_none, ite_self, List.nil_append, Bool.false_eq_true, if_false]

section

variable [ScanOrder Int]

/-- A run without some of its messages comes through as well. -/
theorem receiveAll_filter_isSome (p : Surroundings × NodeInput → Bool)
    {messages : List (Surroundings × NodeInput)} {n : InMemoryDSANode} (n₁ : InMemoryDSANode)
    (h : (n.receiveAll messages).isSome = true) :
    (n₁.receiveAll (messages.filter p)).isSome = true := by
  induction messages generalizing n n₁ with
  | nil => rfl
  | cons message rest ih =>
    simp only [receiveAll, Option.isSome_bind, Option.any_eq_true, Option.isSome_map] at h
    obtain ⟨outcome, houtcome, hrest⟩ := h
    cases hp : p message with
    | false =>
      rw [List.filter_cons_of_neg (by simp [hp])]
      exact ih n₁ hrest
    | true =>
      rw [List.filter_cons_of_pos hp]
      have hsome : (n₁.receive message).isSome = true := by
        rw [receive_isSome n₁ n, houtcome]
        rfl
      obtain ⟨outcome₁, houtcome₁⟩ := Option.isSome_iff_exists.mp hsome
      simp only [receiveAll, houtcome₁, Option.bind_some, Option.isSome_map]
      exact ih outcome₁.node hrest

/-- Every entry belongs to one client. -/
def AllOwnedBy (client : ActorRef) (n : InMemoryDSANode) : Prop :=
  ∀ key other, n.listenerOf key = some other → other = client

/-- Where only one client is heard, no request meets an entry of another. -/
theorem admissible_of_keptFor {client : ActorRef} {messages : List (Surroundings × NodeInput)}
    (hkept : ∀ m ∈ messages, keptFor client m.2 = true) {n : InMemoryDSANode}
    (hn : AllOwnedBy client n) : Admissible receiveStep MeetsOwnEntry n messages := by
  refine Admissible.of_invariant ?_ ?_ hn
  · intro n message hmessage hinv sender key opens hentry other hother
    rw [hinv key other hother, sender_of_keptFor (hkept message hmessage) hentry]
  · intro n message n' hmessage hinv hstep key other hother
    obtain ⟨outcome, houtcome, rfl⟩ := Option.map_eq_some_iff.mp hstep
    rw [listenerOf_receive houtcome key] at hother
    cases hentry : entryRequest message.2 with
    | none =>
      rw [hentry] at hother
      exact hinv key other hother
    | some touched =>
      obtain ⟨sender, touchedKey, opens⟩ := touched
      have hsender := sender_of_keptFor (hkept message hmessage) hentry
      rw [hentry] at hother
      by_cases hkey : key = touchedKey
      · cases opens <;> simp_all
      · simp only [hkey, if_false] at hother
        exact hinv key other hother

end

/-- **Client isolation on a node.**  In every run in which no Subscribe, Unsubscribe, List or
Close request meets a table entry of another client, each client receives under each of its
ids exactly the notifications for the changes made while its own subscription (LIST) is open;
and the run without those requests of the other clients comes through too and brings the
client the same notifications. -/
theorem node_isolates_clients [ScanOrder Int] (messages : List (Surroundings × NodeInput))
    (n : InMemoryDSANode) (notifications : List Notification)
    (hrun : initial.receiveAll messages = some (n, notifications))
    (hown : Admissible receiveStep MeetsOwnEntry initial messages) (client : ActorRef) :
    (∀ key, streamOf client key notifications = ownNotifications client key false messages) ∧
      ∃ n' notifications',
        initial.receiveAll (messages.filter fun m => keptFor client m.2)
            = some (n', notifications') ∧
          ∀ key, streamOf client key notifications' = streamOf client key notifications := by
  have hnone : ∀ key, (false = true ↔ initial.listenerOf key = some client) := by
    intro key
    cases key <;> simp [listenerOf, initial]
  have hall : ∀ key, streamOf client key notifications =
      ownNotifications client key false messages :=
    fun key => streamOf_receiveAll hrun hown (hnone key)
  refine ⟨hall, ?_⟩
  have hsome := receiveAll_filter_isSome (fun m => keptFor client m.2) initial
    (show (initial.receiveAll messages).isSome = true by rw [hrun]; rfl)
  obtain ⟨⟨n', notifications'⟩, hrun'⟩ := Option.isSome_iff_exists.mp hsome
  refine ⟨n', notifications', hrun', ?_⟩
  intro key
  have hkept : ∀ m ∈ messages.filter (fun m => keptFor client m.2), keptFor client m.2 = true :=
    fun m hm => (List.mem_filter.mp hm).2
  have hinitial : AllOwnedBy client initial := by
    intro key other hother
    cases key <;> cases hother
  have hfiltered := streamOf_receiveAll hrun' (admissible_of_keptFor hkept hinitial) (hnone key)
  rw [hfiltered, ownNotifications_filter, hall]

/-! ### Two clients -/

def clientA : ActorRef := str "/user/downstream/A"

def clientB : ActorRef := str "/user/downstream/B"

def noSurroundings : Surroundings := ⟨str "2018-10-01T00:00:00.000Z", fun _ => [], fun _ => none⟩

/-- Both clients subscribe to the node, under the given SIDs, and the value changes. -/
def twoSubscribers (sidA sidB : Int) : List (Surroundings × NodeInput) :=
  [(noSurroundings, .request clientA (.subscribe 1 [⟨str "/data/x", sidA, none⟩])),
    (noSurroundings, .request clientB (.subscribe 1 [⟨str "/data/x", sidB, none⟩])),
    (noSurroundings, .setValue (.boolean true))]

/-- Two clients with different SIDs are both told about the new value. -/
theorem node_isolates_two_clients :
    ∃ n notifications, initial.receiveAll (twoSubscribers 1 2) = some (n, notifications) ∧
      streamOf clientA (.sid 1) notifications
          = [valueUpdate (.boolean true) noSurroundings.now 1] ∧
        streamOf clientB (.sid 2) notifications
          = [valueUpdate (.boolean true) noSurroundings.now 2] := by
  have hown : Admissible receiveStep MeetsOwnEntry initial (twoSubscribers 1 2) := by
    refine ⟨?_, fun n₁ h₁ => ⟨?_, fun n₂ h₂ => ⟨?_, fun _ _ => trivial⟩⟩⟩
    · intro sender key opens hentry other hother
      cases hentry
      cases hother
    · cases h₁
      intro sender key opens hentry other hother
      cases hentry
      cases hother
    · intro sender key opens hentry
      cases hentry
  refine ⟨_, _, rfl, ?_, ?_⟩
  · rw [(node_isolates_clients (twoSubscribers 1 2) _ _ rfl hown clientA).1]
    decide
  · rw [(node_isolates_clients (twoSubscribers 1 2) _ _ rfl hown clientB).1]
    decide

/-- Two clients that use the same SID: the second takes over the entry of the first, which is
told nothing about the new value.  Without the second it is told. -/
theorem node_mixes_up_clients :
    ∃ n notifications, initial.receiveAll (twoSubscribers 1 1) = some (n, notifications) ∧
      streamOf clientA (.sid 1) notifications = [] ∧
        ownNotifications clientA (.sid 1) false (twoSubscribers 1 1)
          = [valueUpdate (.boolean true) noSurroundings.now 1] ∧
        ∃ n' notifications',
          initial.receiveAll ((twoSubscribers 1 1).filter fun m => keptFor clientA m.2)
              = some (n', notifications') ∧
            streamOf clientA (.sid 1) notifications'
              = [valueUpdate (.boolean true) noSurroundings.now 1] :=
  ⟨_, _, rfl, by decide, by decide, _, _, rfl, by decide⟩

end InMemoryDSANode

end DsaBroker
