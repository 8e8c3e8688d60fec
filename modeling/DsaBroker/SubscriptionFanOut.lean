import DsaBroker.RequesterBehavior
import DsaBroker.ResponderResponses

/-!
# The fan-out of a subscription update

A rid-0 response of a responder carries update rows for many target SIDs.  Its way to the
subscribers leads through `SubscribeCallRegistry.deliverResponse`, which gives every origin of
a row a response of its own and sends each requester its responses in one envelope, and through
the requester link there, which offers the channel one notification for every row.

`due` lists what one requester should get: the rows in their order, each with the origins of
this requester that are bound to it.  The responses sent and the notifications offered are this
list, mapped (`subscription_fan_out`).
-/

namespace DsaBroker

/-! ### Rows with another SID -/

/-- The values of the JVM's `int`. -/
def IsInt (n : Int) : Prop := -2147483648 ≤ n ∧ n ≤ maxInt

theorem intValue_intCast {n : Int} (h : IsInt n) : intValue n = n := by
  show toInt32 (n.tdiv 1) = n
  rw [Int.tdiv_one]
  exact toInt32_of_range h.1 h.2

/-- `replaced` is the row with its SID replaced and everything else unchanged. -/
inductive SidReplaced (sid : Int) : DSAVal → DSAVal → Prop where
  | array (old : DSAVal) (rest : List DSAVal) :
      SidReplaced sid (.array (old :: rest)) (.array (.numeric sid :: rest))
  | map {row replaced : DSAMap} (hsid : replaced.get sidKey = some (.numeric sid))
      (hother : ∀ name, name ≠ sidKey → replaced.get name = row.get name) :
      SidReplaced sid (.map row) (.map replaced)

theorem sidReplaced_replaceSid {row : DSAVal} {t : Int} (h : extractSid row = some t) (sid : Int) :
    SidReplaced sid row (replaceSid row sid) := by
  cases row with
  | array value =>
    cases value with
    | nil => cases h
    | cons old rest => exact .array old rest
  | map value =>
    apply SidReplaced.map
    · rw [DSAMap.get_updated, if_pos rfl]
    · intro name hname
      rw [DSAMap.get_updated, if_neg hname]
  | null => cases h
  | numeric _ => cases h
  | string _ => cases h
  | boolean _ => cases h
  | binary _ => cases h

theorem extractSid_of_sidReplaced {row replaced : DSAVal} {sid : Int} (hsid : IsInt sid)
    (h : SidReplaced sid row replaced) : extractSid replaced = some sid := by
  cases h with
  | array old rest => exact congrArg some (intValue_intCast hsid)
  | map hget _ =>
    rw [extractSid, hget]
    exact congrArg some (intValue_intCast hsid)

/-! ### The responder -/

namespace Bindings

/-- The origins bound to the target SID of a row. -/
def subscribers (b : Bindings) (row : DSAVal) : List Origin :=
  ((extractSid row).map b.getOrigins).getD []

theorem nodup_subscribers (b : Bindings) (row : DSAVal) : (b.subscribers row).Nodup := by
  unfold subscribers
  cases extractSid row with
  | none => exact List.nodup_nil
  | some t =>
    rw [Option.map_some, Option.getD_some, getOrigins]
    cases b.get t with
    | none => exact List.nodup_nil
    | some record => exact record.nodup_origins

/-- The rows that a requester should get and the origins it should get them for. -/
def due (b : Bindings) (rows : List DSAVal) (source : Routee) : List (DSAVal × Origin) :=
  rows.flatMap fun row =>
    ((b.subscribers row).filter fun origin => origin.source = source).map fun origin =>
      (row, origin)

theorem mem_due {b : Bindings} {rows : List DSAVal} {source : Routee} {row : DSAVal}
    {origin : Origin} : (row, origin) ∈ b.due rows source ↔
      row ∈ rows ∧ origin.source = source ∧ origin ∈ b.subscribers row := by
  simp only [due, List.mem_flatMap, List.mem_map, List.mem_filter, decide_eq_true_eq,
    Prod.mk.injEq]
  constructor
  · rintro ⟨found, hrow, o, ⟨ho, hsource⟩, rfl, rfl⟩
    exact ⟨hrow, hsource, ho⟩
  · rintro ⟨hrow, hsource, ho⟩
    exact ⟨row, hrow, origin, ⟨ho, hsource⟩, rfl, rfl⟩

/-- Delivering rows that all name their target SID comes through, and sends every row to its
subscribers as they are before the delivery. -/
theorem sent_deliverRows {rsp : DSAResponse} {rows : List DSAVal}
    (hrows : ∀ row ∈ rows, (extractSid row).isSome) (b : Bindings) :
    ∃ delivered, b.deliverRows rsp rows = some delivered ∧
      delivered.sent = rows.flatMap fun row => (b.subscribers row).map fun origin =>
        (origin.source, subscribeResponse rsp row origin) := by
  induction rows generalizing b with
  | nil => exact ⟨_, rfl, rfl⟩
  | cons row rest ih =>
    obtain ⟨t, ht⟩ := Option.isSome_iff_exists.mp (hrows row List.mem_cons_self)
    have hfirst : ∃ first, b.handleSubscribeResponseRow rsp row = some first ∧
        first.sent = (b.subscribers row).map (fun origin =>
          (origin.source, subscribeResponse rsp row origin)) ∧
        ∀ other, first.bindings.subscribers other = b.subscribers other := by
      refine ⟨_, by rw [handleSubscribeResponseRow, ht, Option.map_some], ?_, ?_⟩
      · rw [subscribers, ht, Option.map_some, Option.getD_some, ← origins_getOrInsert]
        rfl
      · intro other
        simp only [subscribers]
        cases extractSid other with
        | none => rfl
        | some u => exact getOrigins_put_setLastResponse b t u _
    obtain ⟨first, hrun, hsent, hsame⟩ := hfirst
    obtain ⟨later, hlater, hrest⟩ :=
      ih (fun row' hrow' => hrows row' (List.mem_cons_of_mem row hrow')) first.bindings
    refine ⟨⟨later.bindings, first.persisted ++ later.persisted, first.sent ++ later.sent⟩, ?_, ?_⟩
    · rw [deliverRows, hrun, Option.bind_some, hlater, Option.map_some]
    · simp only [List.flatMap_cons, hsent, hrest, hsame]

/-- Rows are delivered without an exception just when all of them name their target SID. -/
theorem isSome_deliverRows_iff (rsp : DSAResponse) (b : Bindings) (rows : List DSAVal) :
    (b.deliverRows rsp rows).isSome = true ↔ ∀ row ∈ rows, (extractSid row).isSome = true := by
  constructor
  · induction rows generalizing b with
    | nil => simp
    | cons row rest ih =>
      intro h
      obtain ⟨delivered, hdelivered⟩ := Option.isSome_iff_exists.mp h
      simp only [deliverRows, Option.bind_eq_some_iff, Option.map_eq_some_iff]
        at hdelivered
      obtain ⟨first, hfirst, later, hlater, -⟩ := hdelivered
      obtain ⟨sid, hsid, -⟩ := Option.map_eq_some_iff.mp hfirst
      rw [List.forall_mem_cons]
      exact ⟨Option.isSome_of_eq_some hsid, ih _ (Option.isSome_of_eq_some hlater)⟩
  · intro h
    obtain ⟨delivered, hdelivered, -⟩ := sent_deliverRows h b
    exact Option.isSome_of_eq_some hdelivered

end Bindings

/-- The responses that envelopes carry to a routee. -/
def responsesTo (source : Routee) (sent : List Delivery) : List DSAResponse :=
  (sent.filter fun delivery => delivery.target = source).flatMap Delivery.responses

theorem nodup_targets_groupByTarget (results : List (Routee × DSAResponse)) :
    ((groupByTarget results).map Delivery.target).Nodup := by
  have hkeys : (groupByTarget results).map Delivery.target =
      (Grouping.groupBy results).map Prod.fst := by
    rw [groupByTarget_eq, List.map_map]
    rfl
  rw [hkeys, Grouping.keys_groupBy]
  exact Grouping.nodup_distinctKeys results

theorem responsesTo_groupByTarget (source : Routee) (results : List (Routee × DSAResponse)) :
    responsesTo source (groupByTarget results) = Grouping.valuesOf source results := by
  rw [← Grouping.flatten_valuesOf_groupBy, responsesTo, groupByTarget_eq, List.filter_map,
    List.flatMap_map, Grouping.valuesOf, ← List.flatMap_def]
  rfl

theorem valuesOf_fanOut (b : Bindings) (rsp : DSAResponse) (rows : List DSAVal)
    (source : Routee) :
    Grouping.valuesOf source (rows.flatMap fun row => (b.subscribers row).map fun origin =>
        (origin.source, Bindings.subscribeResponse rsp row origin)) =
      (b.due rows source).map fun d => Bindings.subscribeResponse rsp d.1 d.2 := by
  rw [Grouping.valuesOf_flatMap, Bindings.due, List.map_flatMap]
  congr 1
  funext row
  rw [Grouping.valuesOf, List.filter_map, List.map_map, List.map_map]
  rfl

/-! ### The requester -/

/-- A response as `subscribeResponse` makes it: for subscribers, with one row that names its
SID. -/
def IsUpdateFor (sid : Int) (response : DSAResponse) : Prop :=
  response.rid = 0 ∧ ∃ row, response.updates = some [row] ∧ extractSid row = some sid

theorem isUpdateFor_subscribeResponse {rsp : DSAResponse} {row : DSAVal} {origin : Origin}
    (hrow : (extractSid row).isSome) (hsid : IsInt origin.sourceId) :
    IsUpdateFor origin.sourceId (Bindings.subscribeResponse rsp row origin) := by
  obtain ⟨t, ht⟩ := Option.isSome_iff_exists.mp hrow
  exact ⟨rfl, _, rfl, extractSid_of_sidReplaced hsid (sidReplaced_replaceSid ht origin.sourceId)⟩

namespace RequesterState

theorem wellFormed_of_isUpdateFor {sid : Int} {response : DSAResponse}
    (h : IsUpdateFor sid response) : WellFormed response := by
  obtain ⟨_, row, hupdates, hsid⟩ := h
  intro _
  rw [hupdates, Option.getD_some]
  refine ⟨fun _ => rfl, fun found hfound => ?_⟩
  rw [List.mem_singleton.mp hfound, hsid]
  rfl

/-- **The requester's part.**  A connected link offers one notification for every update. -/
theorem offered_updates (s : RequesterState) {α : Type} {items : List α}
    (response : α → DSAResponse) (sid : α → Int)
    (h : ∀ item ∈ items, IsUpdateFor (sid item) (response item)) :
    ∃ outcome, s.requesterBehavior (.responseEnvelope (items.map response)) = some outcome ∧
      outcome.offered = items.map fun item => ⟨response item, sid item, s.qosOf (sid item)⟩ := by
  have hwellFormed : ∀ r ∈ items.map response, WellFormed r := by
    intro r hr
    obtain ⟨item, hitem, rfl⟩ := List.mem_map.mp hr
    exact wellFormed_of_isUpdateFor (h item hitem)
  obtain ⟨persisted, hrun⟩ := s.requesterBehavior_envelope hwellFormed
  refine ⟨_, hrun, ?_⟩
  have hupdates : ∀ items : List α, (∀ item ∈ items, IsUpdateFor (sid item) (response item)) →
      s.updates (items.map response) =
        items.map fun item => ⟨response item, sid item, s.qosOf (sid item)⟩ := by
    intro items h
    induction items with
    | nil => rfl
    | cons item rest ih =>
      obtain ⟨hrid, row, hrow, hsid⟩ := h item List.mem_cons_self
      have hsubscription : isSubscription (response item) = true := decide_eq_true hrid
      rw [List.map_cons, updates, List.filter_cons_of_pos hsubscription, List.flatMap_cons, hrow,
        Option.getD_some, List.filterMap_cons, hsid, List.map_cons,
        ← ih fun other hother => h other (List.mem_cons_of_mem item hother)]
      rfl
  exact hupdates items h

end RequesterState

/-! ### The whole way -/

/-- **Fan-out of subscription updates.** For a response whose rows all name their target SID: every
requester gets at most one envelope, in it the responses for exactly the rows and origins that are
due to it, in the order of the rows and once each, and every response is the one that came in with
one row whose SID is replaced; and the requester link, connected, offers exactly one notification
for each of them, with the origin's SID and the QoS recorded for that SID. -/
theorem subscription_fan_out (p : Processing) (rsp : DSAResponse) {rows : List DSAVal}
    (hrid : rsp.rid = 0) (hupdates : rsp.updates = some rows)
    (hrows : ∀ row ∈ rows, (extractSid row).isSome)
    (hints : ∀ t, ∀ origin ∈ p.state.subsRegistry.getOrigins t, IsInt origin.sourceId) :
    ∃ p' sent, (deliverSubscribe rsp).run p = (.ok (), p') ∧ p'.sent = p.sent ++ sent ∧
      (sent.map Delivery.target).Nodup ∧
      (∀ row, (p.state.subsRegistry.subscribers row).Nodup) ∧
      ∀ source, let due := p.state.subsRegistry.due rows source
        responsesTo source sent = due.map (fun d => Bindings.subscribeResponse rsp d.1 d.2) ∧
        (∀ d ∈ due, ∃ row, SidReplaced d.2.sourceId d.1 row ∧
          Bindings.subscribeResponse rsp d.1 d.2 = { rsp with updates := some [row] }) ∧
        ∀ s : RequesterState, ∃ outcome,
          s.requesterBehavior (.responseEnvelope (responsesTo source sent)) = some outcome ∧
          outcome.offered = due.map fun d =>
            ⟨Bindings.subscribeResponse rsp d.1 d.2, d.2.sourceId, s.qosOf d.2.sourceId⟩ := by
  obtain ⟨delivered, hdelivered, hsent⟩ := Bindings.sent_deliverRows hrows p.state.subsRegistry
  have hdeliver : p.state.subsRegistry.deliverSubscribeResponse rsp = some delivered := by
    rw [Bindings.deliverSubscribeResponse, hupdates]
    exact hdelivered
  -- rows that are due have a SID and origins with whole SIDs, which `isUpdateFor` needs
  have hvalid : ∀ source, ∀ d ∈ p.state.subsRegistry.due rows source,
      (extractSid d.1).isSome ∧ IsInt d.2.sourceId := by
    rintro source ⟨row, origin⟩ hd
    obtain ⟨hrow, _, horigin⟩ := Bindings.mem_due.mp hd
    obtain ⟨t, ht⟩ := Option.isSome_iff_exists.mp (hrows row hrow)
    rw [Bindings.subscribers, ht, Option.map_some, Option.getD_some] at horigin
    exact ⟨hrows row hrow, hints t origin horigin⟩
  have hrun : (deliverSubscribe rsp).run p =
      (.ok (),
        { state := { p.state with subsRegistry := delivered.bindings }
          persisted := p.persisted ++ delivered.persisted.map PersistCall.group
          sent := p.sent ++ groupByTarget delivered.sent }) := by
    rw [run_deliverSubscribe, hdeliver]
  refine ⟨_, groupByTarget delivered.sent, hrun, rfl, nodup_targets_groupByTarget _,
    Bindings.nodup_subscribers _, ?_⟩
  intro source
  have hresponses : responsesTo source (groupByTarget delivered.sent) =
      (p.state.subsRegistry.due rows source).map
        fun d => Bindings.subscribeResponse rsp d.1 d.2 := by
    rw [responsesTo_groupByTarget, hsent, valuesOf_fanOut]
  refine ⟨hresponses, ?_, ?_⟩
  · intro d hd
    obtain ⟨t, ht⟩ := Option.isSome_iff_exists.mp (hvalid source d hd).1
    refine ⟨_, sidReplaced_replaceSid ht d.2.sourceId, ?_⟩
    rw [Bindings.subscribeResponse, ← hrid]
  · intro s
    rw [hresponses]
    apply s.offered_updates (fun d => Bindings.subscribeResponse rsp d.1 d.2)
      fun d : DSAVal × Origin => d.2.sourceId
    intro d hd
    exact isUpdateFor_subscribeResponse (hvalid source d hd).1 (hvalid source d hd).2

/-- A requester has subscribed to one target SID twice and to another once. -/
def twoTargets : Bindings :=
  ((Bindings.internalAddOrigin .empty 1 ⟨requesterA, 101⟩).internalAddOrigin 1
    ⟨requesterA, 102⟩).internalAddOrigin 2 ⟨requesterA, 103⟩

/-- Three rows of both shapes, the first and the last for one SID. -/
def threeRows : List DSAVal :=
  [.array [.numeric 1, .string (str "x")], .map [(sidKey, .numeric 2), (str "value", .null)],
    .array [.numeric 1, .string (str "y")]]

theorem subscription_fan_out_three_rows :
    ∃ p' sent, (deliverSubscribe { rid := 0, updates := some threeRows }).run
        { state := { ResponderState.initial with subsRegistry := twoTargets } } = (.ok (), p') ∧
      p'.sent = sent ∧
      responsesTo requesterA sent =
        [[.numeric 101, .string (str "x")], [.numeric 102, .string (str "x")]].map (fun row =>
          { rid := 0, updates := some [.array row] }) ++
        { rid := 0, updates := some [.map [(sidKey, .numeric 103), (str "value", .null)]] } ::
        [[.numeric 101, .string (str "y")], [.numeric 102, .string (str "y")]].map (fun row =>
          { rid := 0, updates := some [.array row] }) := by
  have hints : ∀ t, ∀ origin ∈ twoTargets.getOrigins t, IsInt origin.sourceId := by
    intro t origin horigin
    simp only [twoTargets, Bindings.mem_getOrigins_internalAddOrigin] at horigin
    rcases horigin with ⟨_, rfl⟩ | ⟨_, rfl⟩ | ⟨_, rfl⟩ | hempty
    · exact ⟨by decide, by decide⟩
    · exact ⟨by decide, by decide⟩
    · exact ⟨by decide, by decide⟩
    · cases hempty
  obtain ⟨p', sent, hrun, hsent, _, _, heach⟩ := subscription_fan_out
    { state := { ResponderState.initial with subsRegistry := twoTargets } }
    { rid := 0, updates := some threeRows } rfl rfl (by decide) hints
  refine ⟨p', sent, hrun, hsent, ?_⟩
  rw [(heach requesterA).1]
  decide +kernel

end DsaBroker
