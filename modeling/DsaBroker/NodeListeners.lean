import DsaBroker.LateListings
import DsaBroker.NodeIsolation
import DsaBroker.TokenNodes

/-!
# What the listeners of a node are told

A client reads the rows that it is sent under a SID or a RID.  The SID tells of the value of a node,
the RID of its configs, attributes and children: each is a slot, and a row says what becomes of one
of them.

What a message tells under a number is what it changes (`contents_receive`).  That needs children
without a mark, and marks on the configs and attributes that the typed API removes: a row has only
the name to go by.
-/

namespace DsaBroker

namespace InMemoryDSANode

/-! ### Envelopes -/

/-- Responses, with the actors that they are sent to. -/
abbrev Sent := List (ActorRef × DSAResponse)

/-- A call of the typed API. -/
structure TypedCall where
  input : NodeInput
  typed : ∀ sender request, input ≠ .request sender request

/-- What a node receives.  Time goes on between the requests of an envelope. -/
inductive NodeMessage where
  | requestEnvelope (sender : ActorRef) (requests : List (Surroundings × DSARequest))
  | call (surroundings : Surroundings) (call : TypedCall)
  | appendDsId2Token (name value : Str)

def notified (notifications : List Notification) : Sent :=
  notifications.map fun n => (n.listener, n.response)

theorem notified_append (notifications later : List Notification) :
    notified (notifications ++ later) = notified notifications ++ notified later :=
  List.map_append

section Receive

variable [ScanOrder Int]

/-- `requests flatMap handleRequest(sender)`. -/
def handleRequests (n : InMemoryDSANode) (sender : ActorRef) :
    List (Surroundings × DSARequest) → Option NodeOutcome
  | [] => some { node := n }
  | (o, request) :: rest =>
      (n.handleRequest o sender request).bind fun outcome =>
        (handleRequests outcome.node sender rest).map fun result =>
          { node := result.node
            notifications := outcome.notifications ++ result.notifications
            replies := outcome.replies ++ result.replies }

/-- One message, and what is sent for it; `none` when it throws. -/
def onReceive (n : InMemoryDSANode) : NodeMessage → Option (InMemoryDSANode × Sent)
  | .requestEnvelope sender requests =>
      (n.handleRequests sender requests).map fun outcome =>
        (outcome.node, notified outcome.notifications ++ outcome.replies.map (sender, ·))
  | .call surroundings call =>
      (n.receive (surroundings, call.input)).map fun outcome =>
        (outcome.node, notified outcome.notifications)
  | .appendDsId2Token name value => (n.appendDsId2Token name value).map (·, [])

/-- A run, and all that is sent in it. -/
def onReceiveAll (n : InMemoryDSANode) : List NodeMessage → Option (InMemoryDSANode × Sent)
  | [] => some (n, [])
  | message :: rest =>
      (n.onReceive message).bind fun result =>
        (onReceiveAll result.1 rest).map fun later => (later.1, result.2 ++ later.2)

/-- The state after a message. -/
def messageStep (n : InMemoryDSANode) (message : NodeMessage) : Option InMemoryDSANode :=
  (n.onReceive message).map Prod.fst

end Receive

/-! ### Entries -/

/-- The value of a node (`none`), or the config, attribute or child of this name. -/
abbrev Slot := Option Str

/-- What is in a slot; of a child, only that it is there. -/
inductive NodeEntry where
  | value (v : DSAVal)
  | child
deriving DecidableEq

def isMarked (name : Str) : Bool := startsWith name [dollar] || startsWith name [atSign]

def valueEntry (v : DSAVal) : Option NodeEntry := if v = .null then none else some (.value v)

def contents (n : InMemoryDSANode) : Slot → Option NodeEntry
  | none => valueEntry n.value
  | some name =>
      if startsWith name [dollar] then (n.configs.get name).map .value
      else if startsWith name [atSign] then (n.attributes.get name).map .value
      else if n.children.contains name then some .child
      else none

/-- What a row of a LIST response says about a slot. -/
def rowChange : DSAVal → Option (Slot × Option NodeEntry)
  | .array [.string name, v] => some (some name, some (if isMarked name then .value v else .child))
  | .map fields =>
      match DSAMap.get fields (str "name"), DSAMap.get fields (str "change") with
      | some (.string name), some (.string change) =>
          if change = str "remove" then some (some name, none) else none
      | _, _ => none
  | _ => none

/-- What a row of a response to SUBSCRIBE says about the value. -/
def valueRowChange (sid : Int) : DSAVal → Option (Slot × Option NodeEntry)
  | .map fields =>
      if DSAMap.get fields (str "sid") = some (.numeric sid) then
        (DSAMap.get fields (str "value")).map fun v => (none, valueEntry v)
      else none
  | _ => none

/-- What a listener reads in a response. -/
def changesUnder (key : ListenerKey) (response : DSAResponse) : List (Slot × Option NodeEntry) :=
  match key with
  | .rid rid =>
      if response.rid = rid then (response.updates.getD []).filterMap rowChange else []
  | .sid sid =>
      if response.rid = 0 then (response.updates.getD []).filterMap (valueRowChange sid) else []

def changesFor (client : ActorRef) (key : ListenerKey) (sent : Sent) :
    List (Slot × Option NodeEntry) :=
  sent.flatMap fun message => if message.1 = client then changesUnder key message.2 else []

/-- What the client sees under one of its numbers. -/
def view (client : ActorRef) (key : ListenerKey) (sent : Sent) : Slot → Option NodeEntry :=
  changed (fun _ => none) (changesFor client key sent)

/-- The slots that are told of under a number: all but the value, or the value. -/
def Follows : ListenerKey → Slot → Prop
  | .rid _, slot => slot ≠ none
  | .sid _, slot => slot = none

/-! ### What is told -/

/-- What an input tells under a number. -/
def inputChanges (key : ListenerKey) (message : Surroundings × NodeInput) :
    List (Slot × Option NodeEntry) :=
  (reported message key).toList.flatMap (changesUnder key)

namespace NodeMessage

/-- What a message tells under a number. -/
def changes (key : ListenerKey) : NodeMessage → List (Slot × Option NodeEntry)
  | .requestEnvelope sender requests =>
      requests.flatMap fun r => inputChanges key (r.1, .request sender r.2)
  | .call surroundings typed => inputChanges key (surroundings, typed.input)
  | .appendDsId2Token _ _ => []

/-- The message changes the slot, and tells nobody. -/
def Appends (slot : Slot) : NodeMessage → Prop
  | .appendDsId2Token name _ => slot = some name
  | _ => False

end NodeMessage

/-- Configs and attributes are removed by names with their marks, and children have names without
one. -/
def WellNamed : NodeInput → Prop
  | .removeConfig name => startsWith name [dollar] = true
  | .removeAttribute name => startsWith name [atSign] = true
  | .addChild name | .removeChild name => isMarked name = false
  | _ => True

def NodeMessage.WellNamed : NodeMessage → Prop
  | .call _ typed => InMemoryDSANode.WellNamed typed.input
  | _ => True

/-- The request leaves the entry under the number alone, and does not use a RID of the client's. -/
def Leaves (client : ActorRef) (key : ListenerKey) (sender : ActorRef) (request : DSARequest) :
    Prop :=
  (∀ ref touched opens, entryRequest (.request sender request) = some (ref, touched, opens) →
    touched ≠ key) ∧
  (sender = client → ∀ rid, key = .rid rid → request.rid ≠ rid)

def NodeMessage.Leaves (client : ActorRef) (key : ListenerKey) : NodeMessage → Prop
  | .requestEnvelope sender requests =>
      ∀ r ∈ requests, InMemoryDSANode.Leaves client key sender r.2
  | _ => True

/-! ### Rows -/

theorem rowChange_rowsOf (entries : DSAMap) :
    (rowsOf entries).filterMap rowChange =
      entries.map fun e => (some e.1, some (if isMarked e.1 then .value e.2 else .child)) := by
  rw [rowsOf, List.filterMap_map]
  induction entries with
  | nil => rfl
  | cons e rest ih =>
    rw [List.map_cons, ← ih]
    rfl

theorem valueRowChange_valueUpdate (key : Int) (v : DSAVal) (ts : Str) (sid : Int) :
    valueRowChange key
        (.map [(str "sid", .numeric sid), (str "value", v), (str "ts", .string ts)]) =
      if sid = key then some (none, valueEntry v) else none := by
  have hsid : DSAMap.get [(str "sid", .numeric sid), (str "value", v), (str "ts", .string ts)]
      (str "sid") = some (.numeric (sid : Rat)) := rfl
  rw [valueRowChange, hsid]
  by_cases h : sid = key
  · rw [if_pos (by rw [h]), if_pos h]
    rfl
  · rw [if_neg, if_neg h]
    intro heq
    exact h (by exact_mod_cast DSAVal.numeric.inj (Option.some.inj heq))

/-- Rows of a listing say nothing about a value. -/
theorem valueRowChange_rowsOf (sid : Int) (entries : DSAMap) :
    (rowsOf entries).filterMap (valueRowChange sid) = [] := by
  rw [rowsOf, List.filterMap_map, List.filterMap_eq_nil_iff]
  exact fun _ _ => rfl

theorem changesUnder_valueUpdate_rid (rid : Int) (v : DSAVal) (ts : Str) (sid : Int) :
    changesUnder (.rid rid) (valueUpdate v ts sid) = [] := by
  rw [changesUnder]
  split_ifs
  · rfl
  · rfl

theorem changesUnder_valueUpdate_sid (key : Int) (v : DSAVal) (ts : Str) (sid : Int) :
    changesUnder (.sid key) (valueUpdate v ts sid) =
      if sid = key then [(none, valueEntry v)] else [] := by
  have hrow := valueRowChange_valueUpdate key v ts sid
  have hrid : (valueUpdate v ts sid).rid = 0 := rfl
  rw [changesUnder, if_pos hrid, valueUpdate, Option.getD_some]
  split_ifs at hrow ⊢
  · rw [List.filterMap_cons_some hrow, List.filterMap_nil]
  · rw [List.filterMap_cons_none hrow, List.filterMap_nil]

/-! ### Notifications -/

/-- Only the listener's own number makes something of the response. -/
def IsReport (n : Notification) : Prop := ∀ key, key ≠ n.key → changesUnder key n.response = []

section Notifications

variable [ScanOrder Int]

theorem isReport_notifySubscribeActors (n : InMemoryDSANode) (v : DSAVal) (ts : Str) :
    ∀ x ∈ n.notifySubscribeActors v ts, IsReport x := by
  intro x hx
  obtain ⟨entry, -, rfl⟩ := List.mem_map.mp hx
  intro key hkey
  cases key with
  | rid rid =>
    exact changesUnder_valueUpdate_rid rid v ts entry.1
  | sid sid =>
    have hne : entry.1 ≠ sid := fun h => hkey (by rw [← h])
    show changesUnder (.sid sid) (valueUpdate v ts entry.1) = []
    rw [changesUnder_valueUpdate_sid, if_neg hne]

theorem isReport_notifyListActors (n : InMemoryDSANode) {updates : List DSAVal}
    (h : ∀ sid, updates.filterMap (valueRowChange sid) = []) :
    ∀ x ∈ n.notifyListActors updates, IsReport x := by
  intro x hx
  obtain ⟨entry, -, rfl⟩ := List.mem_map.mp hx
  intro key hkey
  cases key with
  | rid rid =>
    have hne : entry.1 ≠ rid := fun h => hkey (by rw [← h])
    exact if_neg hne
  | sid sid =>
    show (if entry.1 = 0 then updates.filterMap (valueRowChange sid) else []) = []
    rw [h sid, ite_self]

/-- Every notification of a message is a report: rows go under a RID to those who list, the value
goes under a SID to those who have subscribed, and neither is read as the other. -/
theorem isReport_receive {n : InMemoryDSANode} {message : Surroundings × NodeInput}
    {outcome : NodeOutcome} (h : n.receive message = some outcome) :
    ∀ x ∈ outcome.notifications, IsReport x := by
  -- only a changed value tells the subscribers; all else tells rows, and no row is a value row
  have hnone : ∀ x ∈ ([] : List Notification), IsReport x := fun _ hx => absurd hx List.not_mem_nil
  have hrows : ∀ m entries, ∀ x ∈ n.notifyListActors (rowsOf (prefixed m entries)), IsReport x :=
    fun m entries => isReport_notifyListActors n fun sid => valueRowChange_rowsOf sid _
  have hremoved : ∀ name, ∀ x ∈ n.notifyListActors [removedRow name], IsReport x :=
    fun name => isReport_notifyListActors n fun sid => rfl
  obtain ⟨o, input⟩ := message
  cases input with
  | request sender request =>
    cases request with
    | set rid p v permit =>
      simp only [receive, handleRequest, Option.map_eq_some_iff] at h
      obtain ⟨name, -, rfl⟩ := h
      dsimp only
      split_ifs
      · exact hrows _ _
      · exact hrows _ _
      · exact isReport_notifySubscribeActors n _ _
    | remove rid p =>
      simp only [receive, handleRequest, Option.map_eq_some_iff] at h
      obtain ⟨name, -, rfl⟩ := h
      dsimp only
      split_ifs
      · -- a name without a mark is no config and no attribute: the request changes nothing
        exact hremoved _
      · exact hremoved _
      · exact hnone
    | invoke rid path params permit =>
      simp only [receive, handleRequest] at h
      split at h
      · obtain rfl := Option.some.inj h
        exact hnone
      · obtain rfl := Option.some.inj h
        exact hnone
    | subscribe rid paths =>
      simp only [receive, handleRequest, Option.map_eq_some_iff] at h
      obtain ⟨path, -, rfl⟩ := h
      exact hnone
    | unsubscribe rid sids =>
      simp only [receive, handleRequest, Option.map_eq_some_iff] at h
      obtain ⟨sid, -, rfl⟩ := h
      exact hnone
    | list | close =>
      obtain rfl := Option.some.inj h
      exact hnone
  | setValue v =>
    obtain rfl := Option.some.inj h
    exact isReport_notifySubscribeActors n _ _
  | addConfigs | addAttributes =>
    obtain rfl := Option.some.inj h
    exact hrows _ _
  | removeConfig | removeAttribute | removeChild =>
    obtain rfl := Option.some.inj h
    exact hremoved _
  | addChild name =>
    obtain rfl := Option.some.inj h
    exact isReport_notifyListActors n fun sid => rfl

omit [ScanOrder Int] in
theorem changesFor_append (client : ActorRef) (key : ListenerKey) (sent later : Sent) :
    changesFor client key (sent ++ later) =
      changesFor client key sent ++ changesFor client key later := List.flatMap_append

omit [ScanOrder Int] in
theorem changesFor_notified {notifications : List Notification} (client : ActorRef)
    (key : ListenerKey) (h : ∀ x ∈ notifications, IsReport x) :
    changesFor client key (notified notifications) =
      (streamOf client key notifications).flatMap (changesUnder key) := by
  induction notifications with
  | nil => rfl
  | cons x rest ih =>
    obtain ⟨hx, hrest⟩ := List.forall_mem_cons.mp h
    have hhead : changesFor client key (notified [x]) =
        (streamOf client key [x]).flatMap (changesUnder key) := by
      by_cases hclient : x.listener = client
      · by_cases hkey : x.key = key
        · simp [changesFor, notified, streamOf, hclient, hkey]
        · simp [changesFor, notified, streamOf, hclient, hkey, hx key (Ne.symm hkey)]
      · simp [changesFor, notified, streamOf, hclient]
    have hsplit := streamOf_append client key [x] rest
    rw [List.singleton_append] at hsplit
    rw [hsplit, List.flatMap_append, ← hhead, ← ih hrest, ← changesFor_append]
    rfl

/-- What the client reads in the notifications for an input: what the input tells, if the entry
under the number is the client's. -/
theorem changesFor_receive {n : InMemoryDSANode} {message : Surroundings × NodeInput}
    {outcome : NodeOutcome} (h : n.receive message = some outcome) (client : ActorRef)
    (key : ListenerKey) :
    changesFor client key (notified outcome.notifications) =
      if n.listenerOf key = some client then inputChanges key message else [] := by
  rw [changesFor_notified client key (isReport_receive h), streamOf_receive h client key]
  split_ifs
  · rfl
  · rfl

end Notifications

/-! ### What an input changes -/

theorem startsWith_mark {name : Str} (h : startsWith name [atSign] = true) :
    startsWith name [dollar] = false := by
  cases name with
  | nil => rfl
  | cons c rest =>
    simp only [startsWith, List.isPrefixOf, Bool.and_true, beq_iff_eq] at h ⊢
    rw [← h]
    decide

theorem startsWith_of_mem_prefixed {mark : UInt16} {entries : DSAMap} {e : Str × DSAVal}
    (h : e ∈ prefixed mark entries) : startsWith e.1 [mark] = true := by
  obtain ⟨entry, -, rfl⟩ := List.mem_map.mp h
  dsimp only
  split_ifs with hmark
  · exact hmark
  · simp [startsWith]

/-- A change of one slot. -/
theorem contents_update {n n' : InMemoryDSANode} {name : Str} {entry : Option NodeEntry}
    (hvalue : n'.contents none = n.contents none)
    (hother : ∀ k, k ≠ name → n'.contents (some k) = n.contents (some k))
    (hname : n'.contents (some name) = entry) :
    n'.contents = Function.update n.contents (some name) entry := by
  funext slot
  rw [Function.update_apply]
  split_ifs with hslot
  · rw [hslot, hname]
  · rcases slot with _ | k
    · exact hvalue
    · exact hother k fun h => hslot (by rw [h])

theorem contents_putConfig (n : InMemoryDSANode) {name : Str}
    (hname : startsWith name [dollar] = true) (v : DSAVal) :
    contents { n with configs := n.configs.updated name v } =
      Function.update n.contents (some name) (some (.value v)) := by
  apply contents_update
  · rfl
  · intro k hk
    simp only [contents, DSAMap.get_updated, if_neg hk]
  · simp only [contents, hname, if_true, DSAMap.get_updated, Option.map_some]

theorem contents_putAttribute (n : InMemoryDSANode) {name : Str}
    (hname : startsWith name [atSign] = true) (v : DSAVal) :
    contents { n with attributes := n.attributes.updated name v } =
      Function.update n.contents (some name) (some (.value v)) := by
  apply contents_update
  · rfl
  · intro k hk
    simp only [contents, DSAMap.get_updated, if_neg hk]
  · simp only [contents, startsWith_mark hname, hname, if_true, if_false, Bool.false_eq_true,
      DSAMap.get_updated, Option.map_some]

theorem contents_addConfigs [ScanOrder Int] (n : InMemoryDSANode) (configs : DSAMap) :
    (n.addConfigs configs).node.contents =
      changed n.contents ((rowsOf (prefixed dollar configs)).filterMap rowChange) := by
  rw [rowChange_rowsOf, addConfigs]
  have hmarked : ∀ e ∈ prefixed dollar configs, startsWith e.1 [dollar] = true :=
    fun e he => startsWith_of_mem_prefixed he
  generalize prefixed dollar configs = cfg at hmarked ⊢
  dsimp only
  induction cfg generalizing n with
  | nil => rfl
  | cons e rest ih =>
    obtain ⟨he, hrest⟩ := List.forall_mem_cons.mp hmarked
    have hput := contents_putConfig n he e.2
    rw [List.map_cons, changed_cons, List.foldl_cons, isMarked, he, Bool.true_or, if_pos rfl,
      ← hput]
    exact ih { n with configs := n.configs.updated e.1 e.2 } hrest

theorem contents_addAttributes [ScanOrder Int] (n : InMemoryDSANode) (attributes : DSAMap) :
    (n.addAttributes attributes).node.contents =
      changed n.contents ((rowsOf (prefixed atSign attributes)).filterMap rowChange) := by
  rw [rowChange_rowsOf, addAttributes]
  have hmarked : ∀ e ∈ prefixed atSign attributes, startsWith e.1 [atSign] = true :=
    fun e he => startsWith_of_mem_prefixed he
  generalize prefixed atSign attributes = attrs at hmarked ⊢
  dsimp only
  induction attrs generalizing n with
  | nil => rfl
  | cons e rest ih =>
    obtain ⟨he, hrest⟩ := List.forall_mem_cons.mp hmarked
    have hput := contents_putAttribute n he e.2
    rw [List.map_cons, changed_cons, List.foldl_cons, isMarked, he, Bool.or_true, if_pos rfl,
      ← hput]
    exact ih { n with attributes := n.attributes.updated e.1 e.2 } hrest

theorem contents_removeConfig [ScanOrder Int] (n : InMemoryDSANode) {name : Str}
    (hname : startsWith name [dollar] = true) :
    (n.removeConfig name).node.contents =
      changed n.contents ([removedRow name].filterMap rowChange) := by
  apply contents_update
  · rfl
  · intro k hk
    have hget := DSAMap.get_removed n.configs name k
    rw [if_neg hk] at hget
    simp only [contents, removeConfig, hget]
    rfl
  · simp only [contents, removeConfig, hname, if_true, DSAMap.get_removed, Option.map_none]

theorem contents_removeAttribute [ScanOrder Int] (n : InMemoryDSANode) {name : Str}
    (hname : startsWith name [atSign] = true) :
    (n.removeAttribute name).node.contents =
      changed n.contents ([removedRow name].filterMap rowChange) := by
  apply contents_update
  · rfl
  · intro k hk
    have hget := DSAMap.get_removed n.attributes name k
    rw [if_neg hk] at hget
    simp only [contents, removeAttribute, hget]
    rfl
  · simp only [contents, removeAttribute, startsWith_mark hname, hname, if_true, if_false,
      Bool.false_eq_true, DSAMap.get_removed, Option.map_none]

theorem not_marked {name : Str} (h : isMarked name = false) :
    startsWith name [dollar] = false ∧ startsWith name [atSign] = false :=
  Bool.or_eq_false_iff.mp h

theorem contents_removeChild [ScanOrder Int] (n : InMemoryDSANode) {name : Str}
    (hname : isMarked name = false) :
    (n.removeChild name).node.contents =
      changed n.contents ([removedRow name].filterMap rowChange) := by
  obtain ⟨hdollar, hat⟩ := not_marked hname
  apply contents_update
  · rfl
  · intro k hk
    simp [contents, removeChild, hk]
  · simp [contents, removeChild, hdollar, hat]

theorem contents_addChild [ScanOrder Int] (n : InMemoryDSANode) {name : Str}
    (hname : isMarked name = false) :
    (n.addChild name).node.contents = changed n.contents [(some name, some .child)] := by
  obtain ⟨hdollar, hat⟩ := not_marked hname
  apply contents_update
  · rfl
  · intro k hk
    by_cases hmem : name ∈ n.children
    · simp [contents, addChild, hmem]
    · simp [contents, addChild, hmem, hk]
  · by_cases hmem : name ∈ n.children
    · simp [contents, addChild, hdollar, hat, hmem]
    · simp [contents, addChild, hdollar, hat, hmem]

section Contents

variable [ScanOrder Int] {n : InMemoryDSANode} {message : Surroundings × NodeInput}
  {outcome : NodeOutcome}

theorem value_receive (h : n.receive message = some outcome) :
    outcome.node.value = (valueChange message.2).getD n.value := by
  obtain ⟨o, input⟩ := message
  cases input with
  | request sender request =>
    cases request with
    | set rid p v permit =>
      simp only [receive, handleRequest, Option.map_eq_some_iff] at h
      obtain ⟨name, hname, rfl⟩ := h
      simp only [valueChange, hname, Option.bind_some]
      rcases hdollar : startsWith name [dollar] with _ | _
      · rcases hat : startsWith name [atSign] with _ | _
        · rfl
        · rfl
      · rfl
    | remove rid p =>
      simp only [receive, handleRequest, Option.map_eq_some_iff] at h
      obtain ⟨name, -, rfl⟩ := h
      dsimp only
      split_ifs
      · rfl
      · rfl
      · rfl
    | invoke rid path params permit =>
      simp only [receive, handleRequest] at h
      split at h
      · obtain rfl := Option.some.inj h
        rfl
      · obtain rfl := Option.some.inj h
        rfl
    | subscribe | unsubscribe =>
      simp only [receive, handleRequest, Option.map_eq_some_iff] at h
      obtain ⟨_, -, rfl⟩ := h
      rfl
    | list | close =>
      obtain rfl := Option.some.inj h
      rfl
  | setValue | addConfigs | removeConfig | addAttributes | removeAttribute | addChild
  | removeChild =>
    obtain rfl := Option.some.inj h
    rfl

/-- A slot of the listing after a message holds what the rows told of it say, and what it held
before if they say nothing of it. -/
theorem contents_receive_some (h : n.receive message = some outcome)
    (hnamed : WellNamed message.2) (k : Str) :
    outcome.node.contents (some k) =
      changed n.contents (((listChange message.2).getD []).filterMap rowChange) (some k) := by
  obtain ⟨o, input⟩ := message
  cases input with
  | request sender request =>
    cases request with
    | set rid p v permit =>
      simp only [receive, handleRequest, Option.map_eq_some_iff] at h
      obtain ⟨name, hname, rfl⟩ := h
      simp only [listChange, hname, Option.bind_some]
      split_ifs
      · exact congrFun (contents_addConfigs n [(name, v)]) _
      · exact congrFun (contents_addAttributes n [(name, v)]) _
      · rfl
    | remove rid p =>
      simp only [receive, handleRequest, Option.map_eq_some_iff] at h
      obtain ⟨name, hname, rfl⟩ := h
      simp only [listChange, hname, Option.bind_some]
      rcases hdollar : startsWith name [dollar] with _ | _
      · rcases hat : startsWith name [atSign] with _ | _
        · rfl
        · exact congrFun (contents_removeAttribute n hat) _
      · exact congrFun (contents_removeConfig n hdollar) _
    | invoke rid path params permit =>
      simp only [receive, handleRequest] at h
      split at h
      · obtain rfl := Option.some.inj h
        rfl
      · obtain rfl := Option.some.inj h
        rfl
    | subscribe | unsubscribe =>
      simp only [receive, handleRequest, Option.map_eq_some_iff] at h
      obtain ⟨_, -, rfl⟩ := h
      rfl
    | list | close =>
      obtain rfl := Option.some.inj h
      rfl
  | setValue v =>
    obtain rfl := Option.some.inj h
    rfl
  | addConfigs configs =>
    obtain rfl := Option.some.inj h
    exact congrFun (contents_addConfigs n configs) _
  | removeConfig name =>
    obtain rfl := Option.some.inj h
    exact congrFun (contents_removeConfig n hnamed) _
  | addAttributes attributes =>
    obtain rfl := Option.some.inj h
    exact congrFun (contents_addAttributes n attributes) _
  | removeAttribute name =>
    obtain rfl := Option.some.inj h
    exact congrFun (contents_removeAttribute n hnamed) _
  | addChild name =>
    obtain rfl := Option.some.inj h
    -- a new child's row has the shape of a profile row, but its name carries no mark
    have hrow : rowChange (.array [.string name, .map [(str "$is", .string (str "node"))]]) =
        some (some name, some .child) := by
      have hunmarked : isMarked name = false := hnamed
      rw [rowChange, hunmarked, if_neg Bool.false_ne_true]
    rw [contents_addChild n hnamed, listChange, Option.getD_some,
      List.filterMap_cons_some hrow, List.filterMap_nil]
  | removeChild name =>
    obtain rfl := Option.some.inj h
    exact congrFun (contents_removeChild n hnamed) _

/-- What the listeners under a number are told is what has changed of their slots. -/
theorem contents_receive (h : n.receive message = some outcome) (hnamed : WellNamed message.2)
    {key : ListenerKey} {slot : Slot} (hslot : Follows key slot) :
    outcome.node.contents slot = changed n.contents (inputChanges key message) slot := by
  cases key with
  | rid rid =>
    obtain ⟨k, rfl⟩ := Option.ne_none_iff_exists'.mp hslot
    rw [contents_receive_some h hnamed]
    rcases hlist : listChange message.2 with _ | rows
    · rw [inputChanges, reported, hlist]
      rfl
    · have hread : changesUnder (.rid rid) (listUpdate rows rid) = rows.filterMap rowChange :=
        if_pos rfl
      rw [inputChanges, reported, hlist, Option.map_some, Option.toList_some,
        List.flatMap_singleton, hread, Option.getD_some]
  | sid sid =>
    obtain rfl : slot = none := hslot
    show valueEntry outcome.node.value = _
    rw [value_receive h]
    rcases hvalue : valueChange message.2 with _ | v
    · rw [inputChanges, reported, hvalue]
      rfl
    · rw [inputChanges, reported, hvalue, Option.map_some, Option.toList_some,
        List.flatMap_singleton, changesUnder_valueUpdate_sid, if_pos rfl, changed_cons,
        changed_nil, Function.update_self, Option.getD_some]

end Contents

end InMemoryDSANode

end DsaBroker
