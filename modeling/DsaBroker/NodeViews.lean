import DsaBroker.NodeListeners

/-!
# What the listeners of a node see

A client that lists a node, or subscribes to its value, puts together what it is told: the listing
or the value in the reply, and one notification for every change.

The replies to the requests of an envelope are sent together, after all of them have been handled,
but notifications are sent at once.  So a change in the same envelope is told before the listing
that does not know of it, and the client is left with the old entry until it changes again.
`listener_view` says exactly which entries the client sees as they are.
-/

namespace DsaBroker

namespace InMemoryDSANode

/-! ### Listings -/

/-- What a reply shows in a slot: a config `$is` that has been removed is listed all the same. -/
def shown (n : InMemoryDSANode) : Slot → Option NodeEntry
  | none => n.contents none
  | some k =>
      if k = str "$is" ∧ n.configs.get (str "$is") = none then some (.value (.string []))
      else n.contents (some k)

theorem contents_of_shown_eq_none {n : InMemoryDSANode} {slot : Slot} (h : n.shown slot = none) :
    n.contents slot = none := by
  rcases slot with _ | k
  · exact h
  · rw [shown] at h
    split_ifs at h
    exact h

/-- A key comes once, and begins with the mark. -/
structure MarkedMap (mark : UInt16) (m : DSAMap) : Prop where
  nodup : (m.map Prod.fst).Nodup
  marked : ∀ k v, m.get k = some v → startsWith k [mark] = true

namespace MarkedMap

variable {mark : UInt16} {m : DSAMap}

theorem updated (h : MarkedMap mark m) {name : Str} (hname : startsWith name [mark] = true)
    (v : DSAVal) : MarkedMap mark (m.updated name v) := by
  constructor
  · exact DSAMap.nodup_updated h.nodup name v
  · intro k w hk
    rw [DSAMap.get_updated] at hk
    split_ifs at hk with heq
    · rw [heq]
      exact hname
    · exact h.marked k w hk

theorem foldl_updated (h : MarkedMap mark m) {entries : DSAMap}
    (hentries : ∀ e ∈ entries, startsWith e.1 [mark] = true) :
    MarkedMap mark (entries.foldl (fun m e => m.updated e.1 e.2) m) := by
  induction entries generalizing m with
  | nil => exact h
  | cons e rest ih =>
    obtain ⟨he, hrest⟩ := List.forall_mem_cons.mp hentries
    exact ih (h.updated he e.2) hrest

theorem removed (h : MarkedMap mark m) (name : Str) : MarkedMap mark (m.removed name) := by
  constructor
  · exact h.nodup.sublist (List.filter_sublist.map Prod.fst)
  · intro k w hk
    rw [DSAMap.get_removed] at hk
    split_ifs at hk
    exact h.marked k w hk

end MarkedMap

/-- What every message keeps. -/
structure Marked (n : InMemoryDSANode) : Prop where
  configs : MarkedMap dollar n.configs
  attributes : MarkedMap atSign n.attributes
  children : ∀ name ∈ n.children, isMarked name = false

theorem marked_initial : Marked initial := by
  refine ⟨⟨by decide, ?_⟩, ⟨List.nodup_nil, ?_⟩, ?_⟩
  · intro k v hk
    rw [initial, DSAMap.get] at hk
    split_ifs at hk with heq
    · rw [← heq]
      decide
    · cases hk
  · intro k v hk
    cases hk
  · intro name hname
    cases hname

section Listing

variable [ScanOrder Int] {n : InMemoryDSANode}

theorem Marked.addConfigs (h : Marked n) (configs : DSAMap) :
    Marked (n.addConfigs configs).node :=
  ⟨h.configs.foldl_updated fun _ he => startsWith_of_mem_prefixed he, h.attributes, h.children⟩

theorem Marked.addAttributes (h : Marked n) (attributes : DSAMap) :
    Marked (n.addAttributes attributes).node :=
  ⟨h.configs, h.attributes.foldl_updated fun _ he => startsWith_of_mem_prefixed he, h.children⟩

theorem Marked.removeConfig (h : Marked n) (name : Str) : Marked (n.removeConfig name).node :=
  ⟨h.configs.removed name, h.attributes, h.children⟩

theorem Marked.removeAttribute (h : Marked n) (name : Str) :
    Marked (n.removeAttribute name).node :=
  ⟨h.configs, h.attributes.removed name, h.children⟩

/-- Every message keeps the names apart: configs begin with one mark, attributes with the other,
children with none, and no map has a name twice. -/
theorem Marked.receive (h : Marked n) {message : Surroundings × NodeInput} {outcome : NodeOutcome}
    (hreceive : n.receive message = some outcome) (hnamed : WellNamed message.2) :
    Marked outcome.node := by
  obtain ⟨o, input⟩ := message
  cases input with
  | request sender request =>
    cases request with
    | set rid p v permit =>
      simp only [InMemoryDSANode.receive, handleRequest, Option.map_eq_some_iff] at hreceive
      obtain ⟨name, -, rfl⟩ := hreceive
      dsimp only
      split_ifs
      · exact h.addConfigs _
      · exact h.addAttributes _
      · exact ⟨h.configs, h.attributes, h.children⟩
    | remove rid p =>
      simp only [InMemoryDSANode.receive, handleRequest, Option.map_eq_some_iff] at hreceive
      obtain ⟨name, -, rfl⟩ := hreceive
      dsimp only
      split_ifs
      · exact h.removeConfig _
      · exact h.removeAttribute _
      · exact h
    | invoke rid path params permit =>
      simp only [InMemoryDSANode.receive, handleRequest] at hreceive
      split at hreceive
      · obtain rfl := Option.some.inj hreceive
        exact h
      · obtain rfl := Option.some.inj hreceive
        exact h
    | subscribe | unsubscribe =>
      simp only [InMemoryDSANode.receive, handleRequest, Option.map_eq_some_iff] at hreceive
      obtain ⟨_, -, rfl⟩ := hreceive
      exact ⟨h.configs, h.attributes, h.children⟩
    | list | close =>
      obtain rfl := Option.some.inj hreceive
      exact ⟨h.configs, h.attributes, h.children⟩
  | setValue v =>
    obtain rfl := Option.some.inj hreceive
    exact ⟨h.configs, h.attributes, h.children⟩
  | addConfigs configs =>
    obtain rfl := Option.some.inj hreceive
    exact h.addConfigs configs
  | removeConfig name =>
    obtain rfl := Option.some.inj hreceive
    exact h.removeConfig name
  | addAttributes attributes =>
    obtain rfl := Option.some.inj hreceive
    exact h.addAttributes attributes
  | removeAttribute name =>
    obtain rfl := Option.some.inj hreceive
    exact h.removeAttribute name
  | addChild name =>
    obtain rfl := Option.some.inj hreceive
    refine ⟨h.configs, h.attributes, ?_⟩
    -- the new child is named without a mark, which is what the condition says of the call
    intro child hchild
    rw [addChild] at hchild
    dsimp only at hchild
    split_ifs at hchild
    · exact h.children child hchild
    · rcases List.mem_append.mp hchild with hold | hnew
      · exact h.children child hold
      · rw [List.mem_singleton.mp hnew]
        exact hnamed
  | removeChild name =>
    obtain rfl := Option.some.inj hreceive
    exact ⟨h.configs, h.attributes, fun child hchild => h.children child
      (List.mem_of_mem_filter hchild)⟩

omit [ScanOrder Int] in
theorem listed_eq (o : Surroundings) (n : InMemoryDSANode) :
    (listRows o n).filterMap rowChange =
      (some (str "$is"), some (.value ((n.configs.get (str "$is")).getD (.string [])))) ::
        (n.configs.removed (str "$is")).map (fun e =>
          (some e.1, some (if isMarked e.1 then .value e.2 else .child))) ++
        n.attributes.map (fun e =>
          (some e.1, some (if isMarked e.1 then .value e.2 else .child))) ++
        n.children.map fun name =>
          (some name, some (if isMarked name then .value (.map (o.childConfigs name)) else .child))
    := by
  have hchildren := rowChange_rowsOf (n.children.map fun name => (name, .map (o.childConfigs name)))
  rw [rowsOf, List.map_map, List.map_map] at hchildren
  have hfirst : ∀ v, rowChange (.array [.string (str "$is"), v]) =
      some (some (str "$is"), some (.value v)) := by
    intro v
    rw [rowChange, if_pos (by decide)]
  rw [listRows, List.filterMap_append, List.filterMap_append, List.filterMap_cons_some (hfirst _),
    rowChange_rowsOf, rowChange_rowsOf]
  exact congrArg _ hchildren

omit [ScanOrder Int] in
/-- The changes that a listing tells are the slots that it shows. -/
theorem Marked.mem_listed (h : Marked n) (o : Surroundings) (c : Slot × Option NodeEntry) :
    c ∈ (listRows o n).filterMap rowChange ↔
      ∃ k entry, c = (some k, some entry) ∧ n.shown (some k) = some entry := by
  have his : startsWith (str "$is") [dollar] = true := by decide
  -- configs, attributes and children are told apart by their marks, so an entry is in one place
  have hconfig : ∀ k v, n.configs.get k = some v → isMarked k = true ∧
      n.contents (some k) = some (.value v) := by
    intro k v hk
    have hmark := h.configs.marked k v hk
    simp [isMarked, contents, hmark, hk]
  have hattribute : ∀ k v, n.attributes.get k = some v → isMarked k = true ∧
      n.contents (some k) = some (.value v) := by
    intro k v hk
    have hmark := h.attributes.marked k v hk
    simp [isMarked, contents, hmark, startsWith_mark hmark, hk]
  have hshown : ∀ k entry, n.contents (some k) = some entry → n.shown (some k) = some entry := by
    intro k entry hk
    rw [shown, if_neg, hk]
    rintro ⟨rfl, hnone⟩
    rw [contents, if_pos his, hnone] at hk
    cases hk
  rw [listed_eq, List.mem_append, List.mem_append, List.mem_cons, List.mem_map, List.mem_map,
    List.mem_map]
  constructor
  · rintro (((rfl | ⟨e, he, rfl⟩) | ⟨e, he, rfl⟩) | ⟨name, hname, rfl⟩)
    · -- the first row is the one of `$is`, which is there even if the config is not
      refine ⟨_, _, rfl, ?_⟩
      rcases hget : n.configs.get (str "$is") with _ | v
      · exact if_pos ⟨rfl, hget⟩
      · exact hshown _ _ (hconfig _ v hget).2
    · -- the other configs are listed without `$is`
      have hget := (DSAMap.get_eq_some_iff (h.configs.removed (str "$is")).nodup).mpr he
      rw [DSAMap.get_removed] at hget
      split_ifs at hget
      obtain ⟨hmark, hcontents⟩ := hconfig e.1 e.2 hget
      exact ⟨_, _, by rw [if_pos hmark], hshown _ _ hcontents⟩
    · have hget := (DSAMap.get_eq_some_iff h.attributes.nodup).mpr he
      obtain ⟨hmark, hcontents⟩ := hattribute e.1 e.2 hget
      exact ⟨_, _, by rw [if_pos hmark], hshown _ _ hcontents⟩
    · have hplain := h.children name hname
      obtain ⟨hdollar, hat⟩ := not_marked hplain
      refine ⟨name, .child, by rw [hplain, if_neg Bool.false_ne_true], hshown _ _ ?_⟩
      simp [contents, hdollar, hat, hname]
  · rintro ⟨k, entry, rfl, hk⟩
    rw [shown] at hk
    -- an entry that is only shown is the `$is` that is missing
    split_ifs at hk with hmissing
    · obtain ⟨rfl, hnone⟩ := hmissing
      rw [hnone, ← Option.some.inj hk]
      exact Or.inl (Or.inl (Or.inl rfl))
    · rw [contents] at hk
      split_ifs at hk with hdollar hat hchild
      · obtain ⟨v, hv, rfl⟩ := Option.map_eq_some_iff.mp hk
        by_cases heq : k = str "$is"
        · subst heq
          rw [hv]
          exact Or.inl (Or.inl (Or.inl rfl))
        · refine Or.inl (Or.inl (Or.inr ⟨(k, v), ?_, ?_⟩))
          · rw [← DSAMap.get_eq_some_iff (h.configs.removed _).nodup, DSAMap.get_removed,
              if_neg heq, hv]
          · rw [if_pos (hconfig k v hv).1]
      · obtain ⟨v, hv, rfl⟩ := Option.map_eq_some_iff.mp hk
        refine Or.inl (Or.inr ⟨(k, v), (DSAMap.get_eq_some_iff h.attributes.nodup).mp hv, ?_⟩)
        rw [if_pos (hattribute k v hv).1]
      · have hmem := List.contains_iff_mem.mp hchild
        refine Or.inr ⟨k, hmem, ?_⟩
        rw [h.children k hmem, if_neg Bool.false_ne_true, ← Option.some.inj hk]

end Listing

/-! ### Replies -/

theorem changesUnder_of_no_updates (key : ListenerKey) {response : DSAResponse}
    (h : response.updates = none) : changesUnder key response = [] := by
  cases key with
  | rid rid =>
    rw [changesUnder, h, Option.getD_none, List.filterMap_nil, ite_self]
  | sid sid =>
    rw [changesUnder, h, Option.getD_none, List.filterMap_nil, ite_self]

theorem valueRowChange_listRows (sid : Int) (o : Surroundings) (n : InMemoryDSANode) :
    (listRows o n).filterMap (valueRowChange sid) = [] := by
  rw [listRows, List.filterMap_append, List.filterMap_append, List.filterMap_cons_none rfl,
    valueRowChange_rowsOf, valueRowChange_rowsOf, List.filterMap_map, List.append_nil,
    List.nil_append, List.filterMap_eq_nil_iff]
  exact fun _ _ => rfl

theorem changesFor_replies {client sender : ActorRef} {key : ListenerKey}
    {replies : List DSAResponse}
    (h : sender = client → ∀ reply ∈ replies, changesUnder key reply = []) :
    changesFor client key (replies.map (sender, ·)) = [] := by
  rw [changesFor, List.flatMap_eq_nil_iff]
  intro message hmessage
  obtain ⟨reply, hreply, rfl⟩ := List.mem_map.mp hmessage
  split_ifs with hclient
  · exact h hclient reply hreply
  · rfl

section Replies

variable [ScanOrder Int] {n : InMemoryDSANode} {o : Surroundings} {client : ActorRef}
  {key : ListenerKey}

/-- The replies to other requests tell nothing under the number. -/
theorem changesFor_leaves {sender : ActorRef} {request : DSARequest} {outcome : NodeOutcome}
    (h : n.handleRequest o sender request = some outcome)
    (hleaves : Leaves client key sender request) :
    changesFor client key (outcome.replies.map (sender, ·)) = [] := by
  obtain ⟨hentry, hrid⟩ := hleaves
  -- a reply that closes has no rows, so it tells nothing whatever the number is
  have hclosed : ∀ rid, ∀ reply ∈ [closed rid], changesUnder key reply = [] := by
    intro rid reply hreply
    rw [List.mem_singleton.mp hreply]
    exact changesUnder_of_no_updates key rfl
  apply changesFor_replies
  intro hsender reply hreply
  cases request with
  | set rid p v permit =>
    simp only [handleRequest, Option.map_eq_some_iff] at h
    obtain ⟨name, -, rfl⟩ := h
    exact hclosed rid reply hreply
  | remove rid p =>
    simp only [handleRequest, Option.map_eq_some_iff] at h
    obtain ⟨name, -, rfl⟩ := h
    exact hclosed rid reply hreply
  | invoke rid path params permit =>
    simp only [handleRequest] at h
    split at h
    · obtain rfl := Option.some.inj h
      rw [List.mem_singleton.mp hreply]
      cases key with
      | rid own => exact if_neg (hrid hsender own rfl)
      | sid sid => exact ite_self _
    · obtain rfl := Option.some.inj h
      rw [List.mem_singleton.mp hreply]
      exact changesUnder_of_no_updates key rfl
  | subscribe rid paths =>
    simp only [handleRequest, Option.map_eq_some_iff] at h
    obtain ⟨path, hpath, rfl⟩ := h
    -- of the two replies only the second has a row, and that row names the SID of its path
    rcases List.mem_cons.mp hreply with rfl | hvalue
    · exact changesUnder_of_no_updates key rfl
    · split_ifs at hvalue
      · cases hvalue
      · rw [List.mem_singleton.mp hvalue]
        cases key with
        | rid own => exact changesUnder_valueUpdate_rid own _ _ _
        | sid sid =>
          have hne : path.sid ≠ sid := by
            rintro rfl
            exact hentry sender (.sid path.sid) true (by rw [entryRequest, hpath]; rfl) rfl
          rw [changesUnder_valueUpdate_sid, if_neg hne]
  | unsubscribe rid sids =>
    simp only [handleRequest, Option.map_eq_some_iff] at h
    obtain ⟨sid, -, rfl⟩ := h
    exact hclosed rid reply hreply
  | list rid path =>
    obtain rfl := Option.some.inj h
    rw [List.mem_singleton.mp hreply]
    cases key with
    | rid own => exact if_neg (hrid hsender own rfl)
    | sid sid =>
      -- a listing under RID `0` would be read as values, but none of its rows names a SID
      show (if rid = 0 then (listRows o n).filterMap (valueRowChange sid) else []) = []
      rw [valueRowChange_listRows, ite_self]
  | close rid =>
    obtain rfl := Option.some.inj h
    exact hclosed rid reply hreply

/-- A LIST or a SUBSCRIBE under the number, of the client. -/
def Opens (client : ActorRef) (key : ListenerKey) (request : DSARequest) : Prop :=
  entryRequest (.request client request) = some (client, key, true)

/-- The reply shows the slots as they are, and the request itself changes and tells nothing. -/
structure Opened (n : InMemoryDSANode) (client : ActorRef) (key : ListenerKey)
    (outcome : NodeOutcome) : Prop where
  contents : outcome.node.contents = n.contents
  silent : outcome.notifications = []
  mem : ∀ slot, Follows key slot →
    (slot ∈ (changesFor client key (outcome.replies.map (client, ·))).map Prod.fst ↔
      (n.shown slot).isSome)
  listed : ∀ c ∈ changesFor client key (outcome.replies.map (client, ·)), c.2 = n.shown c.1

omit [ScanOrder Int] in
theorem changesFor_own (client : ActorRef) (key : ListenerKey) (response : DSAResponse) :
    changesFor client key [(client, response)] = changesUnder key response := by
  simp [changesFor]

/-- The request that opens a number, a LIST or a SUBSCRIBE, is answered with the slots as they are,
all of them and nothing else, and it changes nothing and tells no listener. -/
theorem opened_of_opens {request : DSARequest} {outcome : NodeOutcome} (hmarked : Marked n)
    (h : n.handleRequest o client request = some outcome) (hopens : Opens client key request) :
    Opened n client key outcome := by
  cases request with
  | list rid path =>
    obtain rfl := Option.some.inj h
    obtain rfl : ListenerKey.rid rid = key := by
      simp only [Opens, entryRequest, Option.some.injEq, Prod.mk.injEq] at hopens
      exact hopens.2.1
    -- what the client reads in the reply is the listing, row by row
    have hread : changesFor client (.rid rid)
        ([listUpdate (listRows o n) rid].map (client, ·)) =
          (listRows o n).filterMap rowChange := by
      rw [List.map_singleton, changesFor_own]
      exact if_pos rfl
    refine ⟨rfl, rfl, ?_, ?_⟩
    · intro slot hslot
      obtain ⟨k, rfl⟩ := Option.ne_none_iff_exists'.mp hslot
      rw [hread, List.mem_map]
      constructor
      · rintro ⟨c, hc, hck⟩
        obtain ⟨k', entry, rfl, hentry⟩ := (hmarked.mem_listed o c).mp hc
        obtain rfl := Option.some.inj hck
        rw [hentry]
        rfl
      · intro hsome
        obtain ⟨entry, hentry⟩ := Option.isSome_iff_exists.mp hsome
        exact ⟨_, (hmarked.mem_listed o _).mpr ⟨k, entry, rfl, hentry⟩, rfl⟩
    · intro c hc
      rw [hread] at hc
      obtain ⟨k, entry, rfl, hentry⟩ := (hmarked.mem_listed o c).mp hc
      exact hentry.symm
  | subscribe rid paths =>
    simp only [handleRequest, Option.map_eq_some_iff] at h
    obtain ⟨path, hpath, rfl⟩ := h
    obtain rfl : ListenerKey.sid path.sid = key := by
      simp only [Opens, entryRequest, hpath, Option.map_some, Option.some.injEq,
        Prod.mk.injEq] at hopens
      exact hopens.2.1
    -- the value comes with its SID behind the reply that closes; a `null` is not sent
    have hread : changesFor client (.sid path.sid) ((closed rid :: if n.value = .null then [] else
        [valueUpdate n.value o.now path.sid]).map (client, ·)) =
          if n.value = .null then [] else [(none, valueEntry n.value)] := by
      have hclosed := changesUnder_of_no_updates (.sid path.sid) (show (closed rid).updates = none
        from rfl)
      rw [List.map_cons, ← List.singleton_append, changesFor_append, changesFor_own, hclosed,
        List.nil_append]
      split_ifs
      · rfl
      · rw [List.map_singleton, changesFor_own, changesUnder_valueUpdate_sid, if_pos rfl]
    refine ⟨rfl, rfl, ?_, ?_⟩
    · intro slot hslot
      obtain rfl : slot = none := hslot
      rw [hread, shown, contents, valueEntry]
      split_ifs
      · simp
      · simp
    · intro c hc
      rw [hread] at hc
      split_ifs at hc
      · cases hc
      · rw [List.mem_singleton.mp hc]
        rfl
  | set | remove | invoke | unsubscribe | close =>
    simp [Opens, entryRequest] at hopens

end Replies

/-! ### Runs -/

section Runs

variable [ScanOrder Int] {n n' : InMemoryDSANode} {client : ActorRef} {key : ListenerKey}

theorem handleRequests_cons_eq_some {sender : ActorRef} {r : Surroundings × DSARequest}
    {rest : List (Surroundings × DSARequest)} {outcome : NodeOutcome} :
    n.handleRequests sender (r :: rest) = some outcome ↔
      ∃ first result, n.handleRequest r.1 sender r.2 = some first ∧
        first.node.handleRequests sender rest = some result ∧
        outcome = ⟨result.node, first.notifications ++ result.notifications,
          first.replies ++ result.replies⟩ := by
  obtain ⟨o, request⟩ := r
  simp only [handleRequests, Option.bind_eq_some_iff, Option.map_eq_some_iff]
  constructor
  · rintro ⟨first, hfirst, result, hresult, rfl⟩
    exact ⟨first, result, hfirst, hresult, rfl⟩
  · rintro ⟨first, result, hfirst, hresult, rfl⟩
    exact ⟨first, hfirst, result, hresult, rfl⟩

theorem handleRequests_append_eq_some {sender : ActorRef}
    {before after : List (Surroundings × DSARequest)} {outcome : NodeOutcome}
    (h : n.handleRequests sender (before ++ after) = some outcome) :
    ∃ first result, n.handleRequests sender before = some first ∧
      first.node.handleRequests sender after = some result ∧
      outcome = ⟨result.node, first.notifications ++ result.notifications,
        first.replies ++ result.replies⟩ := by
  induction before generalizing n outcome with
  | nil => exact ⟨{ node := n }, outcome, rfl, h, rfl⟩
  | cons r rest ih =>
    obtain ⟨head, tail, hhead, htail, rfl⟩ := handleRequests_cons_eq_some.mp h
    obtain ⟨first, result, hfirst, hresult, rfl⟩ := ih htail
    refine ⟨_, result, handleRequests_cons_eq_some.mpr ⟨head, first, hhead, hfirst, rfl⟩, hresult,
      ?_⟩
    rw [List.append_assoc, List.append_assoc]

/-- What a part of a run does to a client's number: the entry stays, and what is told under it is
what has changed of its slots. -/
structure Tracks (n n' : InMemoryDSANode) (client : ActorRef) (key : ListenerKey)
    (changes : List (Slot × Option NodeEntry)) : Prop where
  listener : n'.listenerOf key = n.listenerOf key
  contents : ∀ slot, Follows key slot → n'.contents slot = changed n.contents changes slot

omit [ScanOrder Int] in
theorem Tracks.refl (n : InMemoryDSANode) (client : ActorRef) (key : ListenerKey) :
    Tracks n n client key [] := ⟨rfl, fun _ _ => rfl⟩

omit [ScanOrder Int] in
theorem Tracks.trans {n'' : InMemoryDSANode} {changes later : List (Slot × Option NodeEntry)}
    (h : Tracks n n' client key changes) (h' : Tracks n' n'' client key later) :
    Tracks n n'' client key (changes ++ later) := by
  refine ⟨h'.listener.trans h.listener, ?_⟩
  intro slot hslot
  rw [h'.contents slot hslot, changed_append]
  exact changed_congr (h.contents slot hslot) later

theorem tracks_receive {message : Surroundings × NodeInput} {outcome : NodeOutcome}
    (h : n.receive message = some outcome) (hnamed : WellNamed message.2)
    (hentry : ∀ ref touched opens, entryRequest message.2 = some (ref, touched, opens) →
      touched ≠ key) : Tracks n outcome.node client key (inputChanges key message) := by
  refine ⟨?_, fun slot => contents_receive h hnamed⟩
  rw [listenerOf_receive h key]
  rcases hrequest : entryRequest message.2 with _ | ⟨ref, touched, opens⟩
  · rfl
  · exact if_neg (hentry ref touched opens hrequest).symm

/-- What is sent for the requests of an envelope that leave the number alone. -/
theorem handleRequests_tracks {sender : ActorRef} {requests : List (Surroundings × DSARequest)}
    {outcome : NodeOutcome} (h : n.handleRequests sender requests = some outcome)
    (hleaves : ∀ r ∈ requests, Leaves client key sender r.2) :
    let changes := requests.flatMap fun r => inputChanges key (r.1, .request sender r.2)
    Tracks n outcome.node client key changes ∧
      changesFor client key (notified outcome.notifications) =
        (if n.listenerOf key = some client then changes else []) ∧
      changesFor client key (outcome.replies.map (sender, ·)) = [] := by
  induction requests generalizing n outcome with
  | nil =>
    obtain rfl := Option.some.inj h
    refine ⟨.refl n client key, ?_, rfl⟩
    rw [List.flatMap_nil, ite_self]
    rfl
  | cons r rest ih =>
    obtain ⟨hr, hrest⟩ := List.forall_mem_cons.mp hleaves
    obtain ⟨first, result, hfirst, hresult, rfl⟩ := handleRequests_cons_eq_some.mp h
    obtain ⟨htracks, hnotified, hreplies⟩ := ih hresult hrest
    have hreceive : n.receive (r.1, .request sender r.2) = some first := hfirst
    have hhead : Tracks n first.node client key _ := tracks_receive hreceive trivial hr.1
    refine ⟨hhead.trans htracks, ?_, ?_⟩
    · rw [notified_append, changesFor_append, hnotified,
        changesFor_receive hreceive, hhead.listener]
      split_ifs
      · rfl
      · rfl
    · rw [List.map_append, changesFor_append, hreplies, changesFor_leaves hfirst hr,
        List.append_nil]

omit [ScanOrder Int] in
theorem appendDsId2Token_cases {name value : Str}
    (h : n.appendDsId2Token name value = some n') :
    n' = n ∨ startsWith name [dollar] = true ∧
      ∃ ids, n' = { n with configs := n.configs.updated name ids } := by
  change ConfigStore.appendDsId inMemoryConfigs name n value = some n' at h
  rw [ConfigStore.appendDsId] at h
  split_ifs at h with hname
  · obtain ⟨ids, -, rfl⟩ := Option.map_eq_some_iff.mp h
    exact Or.inr ⟨hname, ids, rfl⟩
  · exact Or.inl (Option.some.inj h).symm

/-- A message that leaves the number to its listener changes each slot as its changes say, those it
appends to apart, and the listener is told exactly these changes. -/
theorem onReceive_tracks {message : NodeMessage} {sent : Sent}
    (h : n.onReceive message = some (n', sent)) (hnamed : message.WellNamed)
    (hleaves : message.Leaves client key) :
    n'.listenerOf key = n.listenerOf key ∧
      (∀ slot, Follows key slot → ¬ message.Appends slot →
        n'.contents slot = changed n.contents (message.changes key) slot) ∧
      changesFor client key sent =
        (if n.listenerOf key = some client then message.changes key else []) := by
  cases message with
  | requestEnvelope sender requests =>
    obtain ⟨outcome, houtcome, heq⟩ := Option.map_eq_some_iff.mp h
    obtain ⟨rfl, rfl⟩ := Prod.mk.inj heq
    obtain ⟨htracks, hnotified, hreplies⟩ := handleRequests_tracks houtcome hleaves
    -- replies tell nothing, so all that is told are the notifications of the requests
    refine ⟨htracks.listener, fun slot hslot _ => htracks.contents slot hslot, ?_⟩
    rw [changesFor_append, hnotified, hreplies, List.append_nil]
    rfl
  | call surroundings typed =>
    obtain ⟨outcome, houtcome, heq⟩ := Option.map_eq_some_iff.mp h
    obtain ⟨rfl, rfl⟩ := Prod.mk.inj heq
    -- a typed call has no number, and so touches no entry
    have hnone : ∀ ref touched opens, entryRequest typed.input = some (ref, touched, opens) →
        touched ≠ key := by
      intro ref touched opens hentry
      obtain ⟨input, htyped⟩ := typed
      cases input with
      | request sender request => exact absurd rfl (htyped sender request)
      | _ => cases hentry
    have htracks := @tracks_receive _ _ client key _ _ houtcome hnamed hnone
    exact ⟨htracks.listener, fun slot hslot _ => htracks.contents slot hslot,
      changesFor_receive houtcome client key⟩
  | appendDsId2Token name value =>
    obtain ⟨next, hnext, heq⟩ := Option.map_eq_some_iff.mp h
    obtain ⟨rfl, rfl⟩ := Prod.mk.inj heq
    have hnothing : changesFor client key [] =
        (if n.listenerOf key = some client then [] else []) := (ite_self _).symm
    -- the config is written, or the name is none of a config; in both cases nobody is told
    rcases appendDsId2Token_cases hnext with rfl | ⟨hname, ids, rfl⟩
    · exact ⟨rfl, fun _ _ _ => rfl, hnothing⟩
    · refine ⟨?_, ?_, hnothing⟩
      · rcases key with sid | rid
        · rfl
        · rfl
      · intro slot _ hslot
        rw [contents_putConfig n hname, Function.update_of_ne hslot]
        rfl

/-- What is sent in a run that leaves the number alone. -/
theorem onReceiveAll_tracks {messages : List NodeMessage} {sent : Sent}
    (h : n.onReceiveAll messages = some (n', sent)) (hnamed : ∀ m ∈ messages, m.WellNamed)
    (hleaves : ∀ m ∈ messages, m.Leaves client key) (hown : n.listenerOf key = some client)
    {slot : Slot} (hslot : Follows key slot) (happends : ∀ m ∈ messages, ¬ m.Appends slot) :
    n'.contents slot = changed n.contents (messages.flatMap (NodeMessage.changes key)) slot ∧
      changesFor client key sent = messages.flatMap (NodeMessage.changes key) := by
  induction messages generalizing n sent with
  | nil =>
    obtain ⟨rfl, rfl⟩ := Prod.mk.inj (Option.some.inj h)
    exact ⟨rfl, rfl⟩
  | cons message rest ih =>
    obtain ⟨⟨next, first⟩, hfirst, hrest⟩ := Option.bind_eq_some_iff.mp h
    obtain ⟨⟨last, later⟩, hlast, heq⟩ := Option.map_eq_some_iff.mp hrest
    obtain ⟨rfl, rfl⟩ := Prod.mk.inj heq
    obtain ⟨hnamed, hnamed'⟩ := List.forall_mem_cons.mp hnamed
    obtain ⟨hleaves, hleaves'⟩ := List.forall_mem_cons.mp hleaves
    obtain ⟨happend, happends'⟩ := List.forall_mem_cons.mp happends
    obtain ⟨hlistener, hcontents, hsent⟩ := onReceive_tracks hfirst hnamed hleaves
    obtain ⟨hcontents', hsent'⟩ := ih hlast hnamed' hleaves' (hlistener.trans hown) happends'
    constructor
    · rw [hcontents', List.flatMap_cons, changed_append]
      exact changed_congr (hcontents slot hslot happend) _
    · rw [changesFor_append, hsent, hsent', if_pos hown, List.flatMap_cons]

theorem Marked.handleRequests (h : Marked n) {sender : ActorRef}
    {requests : List (Surroundings × DSARequest)} {outcome : NodeOutcome}
    (hrequests : n.handleRequests sender requests = some outcome) : Marked outcome.node := by
  induction requests generalizing n outcome with
  | nil =>
    obtain rfl := Option.some.inj hrequests
    exact h
  | cons r rest ih =>
    obtain ⟨first, result, hfirst, hresult, rfl⟩ := handleRequests_cons_eq_some.mp hrequests
    have hreceive : n.receive (r.1, .request sender r.2) = some first := hfirst
    have hrest : Marked result.node := ih (h.receive hreceive trivial) hresult
    exact hrest

theorem Marked.messageStep (h : Marked n) {message : NodeMessage} (hnamed : message.WellNamed)
    (hstep : n.messageStep message = some n') : Marked n' := by
  obtain ⟨⟨next, sent⟩, hreceive, rfl⟩ := Option.map_eq_some_iff.mp hstep
  cases message with
  | requestEnvelope sender requests =>
    obtain ⟨outcome, houtcome, heq⟩ := Option.map_eq_some_iff.mp hreceive
    obtain ⟨rfl, -⟩ := Prod.mk.inj heq
    exact h.handleRequests houtcome
  | call surroundings typed =>
    obtain ⟨outcome, houtcome, heq⟩ := Option.map_eq_some_iff.mp hreceive
    obtain ⟨rfl, -⟩ := Prod.mk.inj heq
    exact h.receive houtcome hnamed
  | appendDsId2Token name value =>
    obtain ⟨last, hlast, heq⟩ := Option.map_eq_some_iff.mp hreceive
    obtain ⟨rfl, -⟩ := Prod.mk.inj heq
    rcases appendDsId2Token_cases hlast with rfl | ⟨hname, ids, rfl⟩
    · exact h
    · exact ⟨h.configs.updated hname ids, h.attributes, h.children⟩

/-- **What a listener sees.**  In a run of a node, a client opens a LIST or a subscription by a
request of an envelope, and its number is left alone from then on.  It sees a slot as it is just if
the slot has been told of since the envelope, or was shown to be empty when the request was handled,
or is, when the envelope has been worked off, as it was shown.

Two things are left out: a typed call with a name that is not of its kind, as of a config without
its mark, which is told of under that name all the same; and `AppendDsId2Token` on the slot, which
tells nobody.  A config `$is` that has been removed is shown as an empty text, so it is not seen as
it is until it is set again. -/
theorem listener_view {n₀ n₁ n₂ : InMemoryDSANode} {opened : NodeOutcome}
    {o : Surroundings} {request : DSARequest} {before after : List (Surroundings × DSARequest)}
    {later : List NodeMessage} {sent sent' : Sent}
    (hreached : Reachable messageStep (fun _ message => message.WellNamed) initial n₀)
    (hnew : n₀.listenerOf key ≠ some client) (hopens : Opens client key request)
    (hopened : n₀.handleRequests client before = some opened)
    (henvelope : n₀.onReceive (.requestEnvelope client (before ++ (o, request) :: after)) =
      some (n₁, sent))
    (hleaves : ∀ r ∈ before ++ after, Leaves client key client r.2)
    (hlater : n₁.onReceiveAll later = some (n₂, sent'))
    (hnamed : ∀ message ∈ later, message.WellNamed)
    (hleaves' : ∀ message ∈ later, message.Leaves client key)
    {slot : Slot} (hslot : Follows key slot)
    (happends : ∀ message ∈ later, ¬ message.Appends slot) :
    view client key (sent ++ sent') slot = n₂.contents slot ↔
      slot ∈ (later.flatMap (NodeMessage.changes key)).map Prod.fst ∨
        opened.node.shown slot = none ∨ opened.node.shown slot = n₁.contents slot := by
  have hmarked₀ : Marked n₀ :=
    hreached.invariant marked_initial fun _ _ _ hmarked hok hstep => hmarked.messageStep hok hstep
  have hmarked := hmarked₀.handleRequests hopened
  obtain ⟨outcome, houtcome, heq⟩ := Option.map_eq_some_iff.mp henvelope
  obtain ⟨rfl, rfl⟩ := Prod.mk.inj heq
  obtain ⟨first, rest, hfirst, hrest, rfl⟩ := handleRequests_append_eq_some houtcome
  obtain rfl := Option.some.inj (hfirst.symm.trans hopened)
  obtain ⟨listing, tail, hlisting, htail, rfl⟩ := handleRequests_cons_eq_some.mp hrest
  -- what the client is told: nothing before its request, then the changes, and last the listing
  obtain ⟨hsame, hsilent, hmem, hshown⟩ := opened_of_opens hmarked hlisting hopens
  have hown : listing.node.listenerOf key = some client := by
    have hreceive : first.node.receive (o, .request client request) = some listing := hlisting
    have hentry : entryRequest (.request client request) = some (client, key, true) := hopens
    rw [listenerOf_receive hreceive key, hentry]
    simp
  obtain ⟨-, hquiet, hreplies⟩ := handleRequests_tracks hfirst fun r hr =>
    hleaves r (List.mem_append_left _ hr)
  obtain ⟨hafter, hearly, hreplies'⟩ := handleRequests_tracks htail fun r hr =>
    hleaves r (List.mem_append_right _ hr)
  rw [if_neg hnew] at hquiet
  rw [if_pos hown] at hearly
  generalize after.flatMap (fun r => inputChanges key (r.1, .request client r.2)) = early at *
  generalize hlisted : changesFor client key (listing.replies.map (client, ·)) = listed at *
  have hsent : changesFor client key
      (notified (first.notifications ++ (listing.notifications ++ tail.notifications)) ++
        (first.replies ++ (listing.replies ++ tail.replies)).map (client, ·)) =
      early ++ listed := by
    simp only [notified_append, List.map_append, changesFor_append, hquiet, hsilent, hearly,
      hreplies, hreplies', hlisted, List.append_nil, List.nil_append]
  have hafter' : tail.node.contents slot = changed first.node.contents early slot := by
    rw [hafter.contents slot hslot, hsame]
  obtain ⟨hcontents, htold⟩ := onReceiveAll_tracks hlater hnamed hleaves'
    (hafter.listener.trans hown) hslot happends
  have hnow : n₂.contents slot = changed first.node.contents
      (early ++ later.flatMap (NodeMessage.changes key)) slot := by
    rw [hcontents, changed_append]
    exact changed_congr hafter' _
  rw [view, changesFor_append, hsent, htold, hnow, hafter']
  apply late_listing
  · exact hmem slot hslot
  · rintro c hc rfl
    exact hshown c hc
  · exact contents_of_shown_eq_none

end Runs

/-- A client lists a node and changes its profile in one envelope. -/
def listAndSet : NodeMessage :=
  .requestEnvelope clientA [(noSurroundings, .list 1 (str "/data")),
    (noSurroundings, .set 2 (str "/data/$is") (.string (str "static")) none)]

/-- The listing it gets has the profile as it was before the envelope. -/
theorem listener_view_overtaken :
    ∃ n₁ sent, initial.onReceive listAndSet = some (n₁, sent) ∧
      view clientA (.rid 1) (sent ++ []) (some (str "$is")) ≠ n₁.contents (some (str "$is")) ∧
      (view clientA (.rid 1) (sent ++ []) (some (str "$is")) = n₁.contents (some (str "$is")) ↔
        (some (str "$is")) ∈ ([].flatMap (NodeMessage.changes (.rid 1))).map Prod.fst ∨
          initial.shown (some (str "$is")) = none ∨
          initial.shown (some (str "$is")) = n₁.contents (some (str "$is"))) := by
  have hold : (initial.onReceive listAndSet).any (fun result =>
      view clientA (.rid 1) (result.2 ++ []) (some (str "$is")) ≠
        result.1.contents (some (str "$is"))) = true := by
    decide +kernel
  obtain ⟨⟨n₁, sent⟩, henvelope, hdiffers⟩ := (Option.any_eq_true _ _).mp hold
  refine ⟨n₁, sent, henvelope, of_decide_eq_true hdiffers, ?_⟩
  have hleaves : ∀ r ∈ [(noSurroundings, DSARequest.set 2 (str "/data/$is")
      (.string (str "static")) none)], Leaves clientA (.rid 1) clientA r.2 := by
    intro r hr
    rw [List.mem_singleton.mp hr]
    constructor
    · intro _ _ _ h
      cases h
    · rintro - rid hrid
      obtain rfl := ListenerKey.rid.inj hrid
      decide
  apply @listener_view _ clientA (.rid 1) initial n₁ n₁ { node := initial } noSurroundings
    (.list 1 (str "/data")) [] _ [] sent [] .start
  · decide
  · rfl
  · rfl
  · exact henvelope
  · exact hleaves
  · rfl
  · exact fun _ h => absurd h List.not_mem_nil
  · exact fun _ h => absurd h List.not_mem_nil
  · exact Option.some_ne_none _
  · exact fun _ h => absurd h List.not_mem_nil

end InMemoryDSANode

end DsaBroker
