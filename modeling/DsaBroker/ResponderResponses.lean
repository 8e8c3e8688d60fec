import DsaBroker.Grouping
import DsaBroker.ResponderActions

/-!
# What a response makes the responder do

The response handlers in closed form, as the handlers of requests in `ResponderActions`: one
response has one of four effects (`Responds`), and what each of them keeps, the processing of
a response message keeps (`processResponses_invariant`).
-/

namespace DsaBroker

/-! ### Rows with a `$base` -/

/-- The row that `adjustBase` makes; `none` when it throws. -/
def adjustedRow (link : Link) : DSAVal → Option DSAVal
  | .array (.string name :: rest) =>
      if name = baseConfig then
        (rest.head?.bind (textOf link)).map fun text =>
          .array [.string baseConfig, .string (link.linkPath ++ text)]
      else some (.array (.string name :: rest))
  | .map value =>
      match DSAMap.get value baseConfig with
      | some base =>
          (textOf link base).map fun text =>
            .map (DSAMap.updated value baseConfig (.string (link.linkPath ++ text)))
      | none => some (.map value)
  | row => some row

theorem run_adjustBase (link : Link) (row : DSAVal) (p : Processing) :
    ∃ thrown, (adjustBase link row).run p =
      match adjustedRow link row with
      | some adjusted => (.ok adjusted, p)
      | none => (.error thrown, p) := by
  cases row with
  | array items =>
    rcases items with _ | ⟨item, rest⟩
    · exact ⟨.noSuchElement, rfl⟩
    · cases item with
      | string name =>
        simp only [adjustBase, adjustedRow]
        by_cases hname : name = baseConfig
        · simp only [hname, if_true]
          cases rest with
          | nil => exact ⟨.noSuchElement, rfl⟩
          | cons value more =>
            refine ⟨.nullPointer, ?_⟩
            simp only [List.head?_cons, run_bind, run_getOrThrow_some, underLink, run_toText,
              Option.bind_some]
            cases textOf link value <;> rfl
        · simp only [hname, if_false]
          exact ⟨.noSuchElement, rfl⟩
      | _ => exact ⟨.noSuchElement, rfl⟩
  | map value =>
    refine ⟨.nullPointer, ?_⟩
    simp only [adjustBase, adjustedRow]
    cases DSAMap.get value baseConfig with
    | none => rfl
    | some base =>
      simp only [run_bind, underLink, run_toText]
      cases textOf link base <;> rfl
  | _ => exact ⟨.noSuchElement, rfl⟩

theorem run_adjustRows (link : Link) (rows : List DSAVal) (p : Processing) :
    ∃ thrown, (rows.mapM (adjustBase link)).run p =
      match rows.mapM (adjustedRow link) with
      | some adjusted => (.ok adjusted, p)
      | none => (.error thrown, p) := by
  induction rows with
  | nil => exact ⟨.noSuchElement, rfl⟩
  | cons row rest ih =>
    obtain ⟨thrown, hrow⟩ := run_adjustBase link row p
    obtain ⟨thrownRest, hrest⟩ := ih
    simp only [List.mapM_cons, run_bind, hrow]
    cases adjustedRow link row with
    | none => exact ⟨thrown, rfl⟩
    | some adjusted =>
      refine ⟨thrownRest, ?_⟩
      simp only [hrest]
      cases rest.mapM (adjustedRow link) <;> rfl

/-! ### The effect of one response -/

/-- The rows of the attributes stored for a path. -/
def attributeRows (s : ResponderState) (path : Str) : List DSAVal :=
  ((s.attributes path).getD []).map fun entry => .array [.string entry.1, entry.2]

/-- A record that `handleNonSubscribeResponse` takes for a LIST call. -/
def LookupRecord.IsListCall (record : LookupRecord) (path : Str) : Prop :=
  record.method = .list ∧ record.path = some path

/-- What a response does to the processing of its message. -/
inductive Responds (link : Link) (p : Processing) (rsp : DSAResponse) :
    List (Routee × DSAResponse) → Processing → Prop where
  | subscribe {delivered : Bindings.Delivered} (hrid : rsp.rid = 0)
      (hdelivered : p.state.subsRegistry.deliverSubscribeResponse rsp = some delivered) :
      Responds link p rsp []
        { state := { p.state with subsRegistry := delivered.bindings }
          persisted := p.persisted ++ delivered.persisted.map PersistCall.group
          sent := p.sent ++ groupByTarget delivered.sent }
  | list {record : LookupRecord} {path : Str} {oldUpdates : List DSAVal}
      {delivered : Bindings.Delivered} (hrid : rsp.rid ≠ 0)
      (hrecord : p.state.ridRegistry.lookupByTargetId rsp.rid = some record)
      (hlist : record.IsListCall path)
      (hrows : (rsp.updates.getD []).mapM (adjustedRow link) = some oldUpdates)
      (hdelivered : delivered = p.state.listRegistry.deliverListResponse
        { rsp with updates := some (oldUpdates ++ attributeRows p.state path) }) :
      Responds link p rsp []
        { state := { p.state with listRegistry := delivered.bindings }
          persisted := p.persisted ++ delivered.persisted.map PersistCall.group
          sent := p.sent ++ delivered.sent.map fun result => ⟨result.1, [result.2]⟩ }
  | call {record : LookupRecord} {origin : Origin} (hrid : rsp.rid ≠ 0)
      (hrecord : p.state.ridRegistry.lookupByTargetId rsp.rid = some record)
      (hcall : ∀ path, ¬ record.IsListCall path) (horigin : record.origin = some origin) :
      Responds link p rsp [(origin.source, { rsp with rid := origin.sourceId })]
        { p with
          persisted := p.persisted ++
            if rsp.stream = some .closed then [.rid (.removed record)] else [] }
  | unknown (hrid : rsp.rid ≠ 0)
      (hnone : ∀ record, p.state.ridRegistry.lookupByTargetId rsp.rid = some record →
        (∀ path, ¬ record.IsListCall path) ∧ record.origin = none) :
      Responds link p rsp [] p

/-- A response to a LIST call, if its rows can be adjusted. -/
theorem run_handleNonSubscribeResponse_list (link : Link) {p : Processing} {rsp : DSAResponse}
    {record : LookupRecord} {path : Str} {oldUpdates : List DSAVal}
    (hrecord : p.state.ridRegistry.lookupByTargetId rsp.rid = some record)
    (hlist : record.IsListCall path)
    (hrows : (rsp.updates.getD []).mapM (adjustedRow link) = some oldUpdates) :
    (handleNonSubscribeResponse link rsp).run p =
      let delivered := p.state.listRegistry.deliverListResponse
        { rsp with updates := some (oldUpdates ++ attributeRows p.state path) }
      (.ok [],
        { state := { p.state with listRegistry := delivered.bindings }
          persisted := p.persisted ++ delivered.persisted.map PersistCall.group
          sent := p.sent ++ delivered.sent.map fun result => ⟨result.1, [result.2]⟩ }) := by
  obtain ⟨method, targetId, origin, recordPath⟩ := record
  obtain ⟨rfl, rfl⟩ := hlist
  obtain ⟨thrown, hadjust⟩ := run_adjustRows link (rsp.updates.getD []) p
  rw [hrows] at hadjust
  simp only [handleNonSubscribeResponse, run_bind, run_registries, hrecord, hadjust]
  rfl

/-- If a row cannot be adjusted, the handler throws before it has done anything. -/
theorem run_handleNonSubscribeResponse_throws (link : Link) {p : Processing} {rsp : DSAResponse}
    {record : LookupRecord} {path : Str}
    (hrecord : p.state.ridRegistry.lookupByTargetId rsp.rid = some record)
    (hlist : record.IsListCall path)
    (hrows : (rsp.updates.getD []).mapM (adjustedRow link) = none) :
    ∃ thrown, (handleNonSubscribeResponse link rsp).run p = (.error thrown, p) := by
  obtain ⟨method, targetId, origin, recordPath⟩ := record
  obtain ⟨rfl, rfl⟩ := hlist
  obtain ⟨thrown, hadjust⟩ := run_adjustRows link (rsp.updates.getD []) p
  rw [hrows] at hadjust
  refine ⟨thrown, ?_⟩
  simp only [handleNonSubscribeResponse, run_bind, run_registries, hrecord, hadjust]

theorem responds_of_list {link : Link} {p p' : Processing} {rsp : DSAResponse}
    {results : List (Routee × DSAResponse)} {record : LookupRecord} {path : Str}
    (hrid : rsp.rid ≠ 0)
    (hrecord : p.state.ridRegistry.lookupByTargetId rsp.rid = some record)
    (hlist : record.IsListCall path)
    (h : (handleNonSubscribeResponse link rsp).run p = (.ok results, p')) :
    Responds link p rsp results p' := by
  cases hold : (rsp.updates.getD []).mapM (adjustedRow link) with
  | some oldUpdates =>
    rw [run_handleNonSubscribeResponse_list link hrecord hlist hold] at h
    cases h
    exact .list hrid hrecord hlist hold rfl
  | none =>
    obtain ⟨thrown, hrun⟩ := run_handleNonSubscribeResponse_throws link hrecord hlist hold
    rw [hrun] at h
    cases h

theorem run_handleNonSubscribeResponse_call (link : Link) {p : Processing} {rsp : DSAResponse}
    {record : LookupRecord} {origin : Origin}
    (hrecord : p.state.ridRegistry.lookupByTargetId rsp.rid = some record)
    (hcall : ∀ path, ¬ record.IsListCall path) (horigin : record.origin = some origin) :
    (handleNonSubscribeResponse link rsp).run p =
      (.ok [(origin.source, { rsp with rid := origin.sourceId })],
        { p with
          persisted := p.persisted ++
            if rsp.stream = some .closed then [.rid (.removed record)] else [] }) := by
  obtain ⟨method, targetId, recordOrigin, recordPath⟩ := record
  cases horigin
  simp only [handleNonSubscribeResponse, run_bind, run_registries, hrecord]
  split
  case h_1 path hmatch =>
    cases hmatch
    exact absurd ⟨rfl, rfl⟩ (hcall path)
  case h_2 hmatch =>
    cases hmatch
    by_cases hclosed : rsp.stream = some .closed
    · simp only [hclosed, if_true, removeLookup, run_bind, run_persist, run_pure]
    · simp only [hclosed, if_false, run_pure, List.append_nil]
  case h_3 hnone => exact absurd rfl (hnone method targetId origin recordPath)

theorem responds_of_call {link : Link} {p p' : Processing} {rsp : DSAResponse}
    {results : List (Routee × DSAResponse)} {record : LookupRecord} {origin : Origin}
    (hrid : rsp.rid ≠ 0)
    (hrecord : p.state.ridRegistry.lookupByTargetId rsp.rid = some record)
    (hcall : ∀ path, ¬ record.IsListCall path) (horigin : record.origin = some origin)
    (h : (handleNonSubscribeResponse link rsp).run p = (.ok results, p')) :
    Responds link p rsp results p' := by
  rw [run_handleNonSubscribeResponse_call link hrecord hcall horigin] at h
  cases h
  exact .call hrid hrecord hcall horigin

theorem run_deliverSubscribe (rsp : DSAResponse) (p : Processing) :
    (deliverSubscribe rsp).run p =
      match p.state.subsRegistry.deliverSubscribeResponse rsp with
      | some delivered =>
          (.ok (),
            { state := { p.state with subsRegistry := delivered.bindings }
              persisted := p.persisted ++ delivered.persisted.map PersistCall.group
              sent := p.sent ++ groupByTarget delivered.sent })
      | none => (.error .matchError, p) := by
  have hget : (get : Handling Processing).run p = (.ok p, p) := rfl
  simp only [deliverSubscribe, run_bind, hget]
  cases p.state.subsRegistry.deliverSubscribeResponse rsp <;> rfl

/-- What the lookup of a target RID can give: a LIST call, a call of one origin, or nothing that
a response can be sent to. -/
theorem lookup_cases (rids : RidRegistry) (rid : Int) :
    (∃ record path, rids.lookupByTargetId rid = some record ∧ record.IsListCall path) ∨
      (∃ record origin, rids.lookupByTargetId rid = some record ∧
        (∀ path, ¬ record.IsListCall path) ∧ record.origin = some origin) ∨
      ∀ record, rids.lookupByTargetId rid = some record →
        (∀ path, ¬ record.IsListCall path) ∧ record.origin = none := by
  cases hrecord : rids.lookupByTargetId rid with
  | none => exact Or.inr (Or.inr fun record hsome => nomatch hsome)
  | some record =>
    by_cases hlist : ∃ path, record.IsListCall path
    · obtain ⟨path, hlist⟩ := hlist
      exact Or.inl ⟨record, path, rfl, hlist⟩
    · have hcall : ∀ path, ¬ record.IsListCall path := fun path hpath => hlist ⟨path, hpath⟩
      right
      cases horigin : record.origin with
      | some origin => exact Or.inl ⟨record, origin, rfl, hcall, horigin⟩
      | none =>
        right
        intro found hfound
        cases hfound
        exact ⟨hcall, horigin⟩

theorem run_handleNonSubscribeResponse_unknown (link : Link) {p : Processing} {rsp : DSAResponse}
    (hnone : ∀ record, p.state.ridRegistry.lookupByTargetId rsp.rid = some record →
      (∀ path, ¬ record.IsListCall path) ∧ record.origin = none) :
    (handleNonSubscribeResponse link rsp).run p = (.ok [], p) := by
  simp only [handleNonSubscribeResponse, run_bind, run_registries]
  split
  case h_1 targetId origin path hmatch => exact absurd ⟨rfl, rfl⟩ ((hnone _ hmatch).1 path)
  case h_2 hmatch => exact nomatch (hnone _ hmatch).2
  case h_3 => exact run_pure [] p

/-- A response whose processing comes through has one of the four effects. -/
theorem responds_of_run {link : Link} {p p' : Processing} {rsp : DSAResponse}
    {results : List (Routee × DSAResponse)}
    (h : (responseHandler link rsp).run p = (.ok results, p')) :
    Responds link p rsp results p' := by
  unfold responseHandler at h
  split at h
  case isTrue hrid =>
    simp only [handleSubscribeResponse, run_bind, run_deliverSubscribe] at h
    cases hdelivered : p.state.subsRegistry.deliverSubscribeResponse rsp with
    | none =>
      rw [hdelivered] at h
      cases h
    | some delivered =>
      rw [hdelivered] at h
      cases h
      exact .subscribe hrid hdelivered
  case isFalse hrid =>
    rcases lookup_cases p.state.ridRegistry rsp.rid with ⟨record, path, hrecord, hlist⟩ |
      ⟨record, origin, hrecord, hcall, horigin⟩ | hnone
    · exact responds_of_list hrid hrecord hlist h
    · exact responds_of_call hrid hrecord hcall horigin h
    · rw [run_handleNonSubscribeResponse_unknown link hnone] at h
      cases h
      exact .unknown hrid hnone

/-! ### A whole response message -/

theorem processResponses_cons {link : Link} {p p' : Processing} {rsp : DSAResponse}
    {rest : List DSAResponse} {results : List (Routee × DSAResponse)}
    (h : (processResponses link (rsp :: rest)).run p = (.ok results, p')) :
    ∃ first p₁ later, (responseHandler link rsp).run p = (.ok first, p₁) ∧
      (processResponses link rest).run p₁ = (.ok later, p') ∧ results = first ++ later := by
  simp only [processResponses, run_bind] at h
  rcases hfirst : (responseHandler link rsp).run p with ⟨_ | first, p₁⟩
  · rw [hfirst] at h
    cases h
  · rw [hfirst] at h
    rcases hlater : (processResponses link rest).run p₁ with ⟨_ | later, p₂⟩
    · simp only [hlater] at h
      cases h
    · simp only [hlater, run_pure] at h
      cases h
      exact ⟨first, p₁, later, rfl, hlater, rfl⟩

/-- What every response keeps, whatever its effect, a response message keeps; `Inv` may speak
of the responses that have been processed. -/
theorem processResponses_invariant
    (Inv : List DSAResponse → Processing → List (Routee × DSAResponse) → Prop) {link : Link}
    {responses : List DSAResponse}
    (hstep : ∀ handled p rsp results p' before, rsp ∈ responses → Inv handled p before →
      Responds link p rsp results p' → Inv (handled ++ [rsp]) p' (before ++ results))
    {p p' : Processing} {results : List (Routee × DSAResponse)}
    (hp : Inv [] p []) (h : (processResponses link responses).run p = (.ok results, p')) :
    Inv responses p' results := by
  suffices hrest : ∀ later handled p before results, later ⊆ responses → Inv handled p before →
      (processResponses link later).run p = (.ok results, p') →
      Inv (handled ++ later) p' (before ++ results) from
    hrest responses [] p [] results (List.Subset.refl _) hp h
  intro later
  induction later with
  | nil =>
    intro handled p before results _ hp h
    cases h
    rwa [List.append_nil, List.append_nil]
  | cons rsp rest ih =>
    intro handled p before results hsubset hp h
    rw [List.cons_subset] at hsubset
    obtain ⟨first, p₁, later, hfirst, hlater, rfl⟩ := processResponses_cons h
    have hnext := hstep handled p rsp first p₁ before hsubset.1 hp (responds_of_run hfirst)
    rw [← List.append_assoc, List.append_cons]
    exact ih _ p₁ _ later hsubset.2 hnext hlater

/-! ### What is sent -/

theorem groupByTarget_eq (results : List (Routee × DSAResponse)) :
    groupByTarget results =
      (Grouping.groupBy results).map fun group => ⟨group.1, group.2⟩ := by
  rw [Grouping.groupBy, List.map_map]
  rfl

/-- Grouping by recipient neither loses nor adds a response. -/
theorem mem_groupByTarget {results : List (Routee × DSAResponse)} {target : Routee}
    {rsp : DSAResponse} :
    (∃ d ∈ groupByTarget results, d.target = target ∧ rsp ∈ d.responses) ↔
      (target, rsp) ∈ results := by
  rw [groupByTarget_eq, ← Grouping.mem_valuesOf]
  constructor
  · rintro ⟨d, hd, rfl, hrsp⟩
    obtain ⟨⟨key, values⟩, hgroup, rfl⟩ := List.mem_map.mp hd
    rw [← (Grouping.mem_groupBy.mp hgroup).1]
    exact hrsp
  · intro hrsp
    have hgroup := Grouping.mem_groupBy.mpr ⟨rfl, List.ne_nil_of_mem hrsp⟩
    exact ⟨_, List.mem_map.mpr ⟨_, hgroup, rfl⟩, rfl, hrsp⟩

theorem mem_each_groupByTarget {results : List (Routee × DSAResponse)}
    {sent : Routee × DSAResponse} :
    sent ∈ (groupByTarget results).flatMap Delivery.each ↔ sent ∈ results := by
  obtain ⟨target, rsp⟩ := sent
  rw [List.mem_flatMap]
  refine Iff.trans ?_ mem_groupByTarget
  constructor
  · rintro ⟨d, hd, hsent⟩
    obtain ⟨found, hfound, heq⟩ := List.mem_map.mp hsent
    obtain ⟨htarget, hrsp⟩ := Prod.mk.inj heq
    exact ⟨d, hd, htarget, hrsp ▸ hfound⟩
  · rintro ⟨d, hd, rfl, hrsp⟩
    exact ⟨d, hd, List.mem_map.mpr ⟨rsp, hrsp, rfl⟩⟩

theorem flatMap_each_alone (results : List (Routee × DSAResponse)) :
    (results.map fun result => (⟨result.1, [result.2]⟩ : Delivery)).flatMap Delivery.each
      = results := by
  induction results with
  | nil => rfl
  | cons result rest ih =>
    rw [List.map_cons, List.flatMap_cons, ih]
    rfl

end DsaBroker
