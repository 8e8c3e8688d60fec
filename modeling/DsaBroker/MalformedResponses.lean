import DsaBroker.CrossRegistry
import DsaBroker.ResponseDelivery
import DsaBroker.WireFormat

/-!
# Malformed responses

The rows of a response are values of any shape.  A row for subscribers is to name its SID by a
number, and a `$base` row of a LIST response is to have a value: `extractSid` and `adjustBase`
throw on other rows.  Requests are handled in a `try` one by one; responses are not, so such a row
ends the whole message, and the actor with it.

A message comes through, and everything in it is sent to those it is for, just when none of its
rows is of this kind (`responses_delivered_iff`).
-/

namespace DsaBroker

/-! ### Rows -/

/-- The row names a SID by a number, first in an array or under the key of a map. -/
def NamesSid : DSAVal → Prop
  | .array (.numeric _ :: _) => True
  | .map value => ∃ sid, DSAMap.get value sidKey = some (.numeric sid)
  | _ => False

/-- If the row is about `$base`, it has a value, other than `null`. -/
def BaseHasValue : DSAVal → Prop
  | .array (.string name :: rest) =>
      name = baseConfig → ∃ value more, rest = value :: more ∧ value ≠ .null
  | .map value => DSAMap.get value baseConfig ≠ some .null
  | _ => True

theorem isSome_intValue?_iff (value : DSAVal) :
    value.intValue?.isSome = true ↔ ∃ sid, value = .numeric sid := by
  cases value <;> simp [DSAVal.intValue?]

theorem isSome_extractSid_iff (row : DSAVal) : (extractSid row).isSome = true ↔ NamesSid row := by
  cases row with
  | array items =>
    rcases items with _ | ⟨item, rest⟩
    · simp [extractSid, NamesSid]
    · show item.intValue?.isSome = true ↔ _
      cases item <;> simp [DSAVal.intValue?, NamesSid]
  | map value =>
    simp only [extractSid, NamesSid]
    cases DSAMap.get value sidKey with
    | none => simp
    | some sid => simp [isSome_intValue?_iff]
  | _ => simp [extractSid, NamesSid]

theorem isSome_textOf_iff (link : Link) (value : DSAVal) :
    (textOf link value).isSome = true ↔ value ≠ .null := by
  cases value <;> simp [textOf]

theorem isSome_adjustedRow_iff (link : Link) (row : DSAVal) :
    (adjustedRow link row).isSome = true ↔ BaseHasValue row := by
  cases row with
  | array items =>
    rcases items with _ | ⟨item, rest⟩
    · simp [adjustedRow, BaseHasValue]
    · cases item with
      | string name =>
        simp only [adjustedRow, BaseHasValue]
        by_cases hname : name = baseConfig
        · rw [if_pos hname, Option.isSome_map]
          rcases rest with _ | ⟨value, more⟩
          · simp [hname]
          · rw [List.head?_cons, Option.bind_some, isSome_textOf_iff]
            simp [hname]
        · simp [hname]
      | _ => simp [adjustedRow, BaseHasValue]
  | map value =>
    simp only [adjustedRow, BaseHasValue]
    cases DSAMap.get value baseConfig with
    | none => simp
    | some base =>
      rw [Option.isSome_map, isSome_textOf_iff]
      simp
  | _ => simp [adjustedRow, BaseHasValue]

/-! ### When a response is handled -/

/-- The rows of the response are as its handling needs them. -/
structure RowsUsable (rids : RidRegistry) (rsp : DSAResponse) : Prop where
  subscribe : rsp.rid = 0 → ∀ row ∈ rsp.updates.getD [], NamesSid row
  list : rsp.rid ≠ 0 → rids.AnswersList rsp → ∀ row ∈ rsp.updates.getD [], BaseHasValue row

theorem isSome_mapM_iff {α β : Type} (f : α → Option β) (items : List α) :
    (items.mapM f).isSome = true ↔ ∀ a ∈ items, (f a).isSome = true := by
  induction items with
  | nil => simp
  | cons a rest ih =>
    rw [List.mapM_cons, List.forall_mem_cons, ← ih]
    cases f a <;> cases rest.mapM f <;> simp

theorem Responds.rowsUsable {link : Link} {p p' : Processing} {rsp : DSAResponse}
    {results : List (Routee × DSAResponse)} (h : Responds link p rsp results p') :
    RowsUsable p.state.ridRegistry rsp := by
  constructor
  · intro hrid row hrow
    cases h with
    | subscribe _ hdelivered =>
      have hrows := (Bindings.isSome_deliverRows_iff rsp _ _).mp
        (Option.isSome_of_eq_some hdelivered)
      exact (isSome_extractSid_iff row).mp (hrows row hrow)
    | list hne => exact absurd hrid hne
    | call hne => exact absurd hrid hne
    | unknown hne => exact absurd hrid hne
  · rintro hrid ⟨record, path, hrecord, hlist⟩ row hrow
    cases h with
    | subscribe hzero => exact absurd hzero hrid
    | list _ _ _ hrows _ =>
      have hrows := (isSome_mapM_iff (adjustedRow link) _).mp (Option.isSome_of_eq_some hrows)
      exact (isSome_adjustedRow_iff link row).mp (hrows row hrow)
    | call _ hfound hcall =>
      cases hrecord.symm.trans hfound
      exact absurd hlist (hcall path)
    | unknown _ hnone => exact absurd hlist ((hnone record hrecord).1 path)

theorem RowsUsable.subscribe_ok {p : Processing} {rsp : DSAResponse}
    (h : RowsUsable p.state.ridRegistry rsp) (hrid : rsp.rid = 0) :
    ∃ results p', (handleSubscribeResponse rsp).run p = (.ok results, p') := by
  have hrows : ∀ row ∈ rsp.updates.getD [], (extractSid row).isSome = true := fun row hrow =>
    (isSome_extractSid_iff row).mpr (h.subscribe hrid row hrow)
  obtain ⟨delivered, hdelivered⟩ := Option.isSome_iff_exists.mp
    ((Bindings.isSome_deliverRows_iff rsp p.state.subsRegistry _).mpr hrows)
  have hdeliver : p.state.subsRegistry.deliverSubscribeResponse rsp = some delivered := hdelivered
  simp only [handleSubscribeResponse, run_bind, run_deliverSubscribe, hdeliver, run_pure]
  exact ⟨_, _, rfl⟩

theorem RowsUsable.nonSubscribe_ok {link : Link} {p : Processing} {rsp : DSAResponse}
    (h : RowsUsable p.state.ridRegistry rsp) (hrid : rsp.rid ≠ 0) :
    ∃ results p', (handleNonSubscribeResponse link rsp).run p = (.ok results, p') := by
  rcases lookup_cases p.state.ridRegistry rsp.rid with ⟨record, path, hrecord, hlist⟩ |
    ⟨record, origin, hrecord, hcall, horigin⟩ | hnone
  · have hrows : ∀ row ∈ rsp.updates.getD [], (adjustedRow link row).isSome = true :=
      fun row hrow => (isSome_adjustedRow_iff link row).mpr
        (h.list hrid ⟨record, path, hrecord, hlist⟩ row hrow)
    obtain ⟨oldUpdates, hold⟩ :=
      Option.isSome_iff_exists.mp ((isSome_mapM_iff (adjustedRow link) _).mpr hrows)
    exact ⟨_, _, run_handleNonSubscribeResponse_list link hrecord hlist hold⟩
  · exact ⟨_, _, run_handleNonSubscribeResponse_call link hrecord hcall horigin⟩
  · exact ⟨_, _, run_handleNonSubscribeResponse_unknown link hnone⟩

/-- **One response.**  It is handled without an exception just when its rows are usable. -/
theorem responseHandler_ok_iff (link : Link) (p : Processing) (rsp : DSAResponse) :
    (∃ results p', (responseHandler link rsp).run p = (.ok results, p')) ↔
      RowsUsable p.state.ridRegistry rsp := by
  constructor
  · rintro ⟨results, p', hrun⟩
    exact (responds_of_run hrun).rowsUsable
  · intro h
    unfold responseHandler
    split
    case isTrue hrid => exact h.subscribe_ok hrid
    case isFalse hrid => exact h.nonSubscribe_ok hrid

/-- The rids of the calls do not change while responses are processed, so the condition is one on
the state before the message. -/
theorem processResponses_ok_iff (link : Link) (p : Processing) (responses : List DSAResponse) :
    (∃ results p', (processResponses link responses).run p = (.ok results, p')) ↔
      ∀ rsp ∈ responses, RowsUsable p.state.ridRegistry rsp := by
  induction responses generalizing p with
  | nil =>
    constructor
    · intro _ rsp hrsp
      cases hrsp
    · intro _
      exact ⟨[], p, rfl⟩
  | cons rsp rest ih =>
    rw [List.forall_mem_cons, ← responseHandler_ok_iff link p rsp]
    constructor
    · rintro ⟨results, p', hrun⟩
      obtain ⟨first, p₁, later, hfirst, hlater, -⟩ := processResponses_cons hrun
      rw [← (responds_of_run hfirst).ridRegistry]
      exact ⟨⟨first, p₁, hfirst⟩, (ih p₁).mp ⟨later, p', hlater⟩⟩
    · rintro ⟨⟨first, p₁, hfirst⟩, hrest⟩
      rw [← (responds_of_run hfirst).ridRegistry] at hrest
      obtain ⟨later, p', hlater⟩ := (ih p₁).mpr hrest
      simp only [processResponses, run_bind, hfirst, hlater, run_pure]
      exact ⟨_, _, rfl⟩

/-! ### Whole messages and runs -/

section

variable [ScanOrder Int]

/-- `processResponses` finishes, and after the message all that is well formed in it has been
sent to those it is for. -/
def ResponsesDelivered (link : Link) (s : ResponderState) (responses : List DSAResponse) : Prop :=
  (∃ results p, (processResponses link responses).run { state := s } = (.ok results, p)) ∧
    ∃ outcome, receive link s (.responseMessage responses) = some outcome ∧
      ∀ rsp ∈ responses, Delivers link s rsp (outcome.sent.flatMap Delivery.each)

/-- **One message.** -/
theorem responsesDelivered_iff (link : Link) (s : ResponderState) (responses : List DSAResponse) :
    ResponsesDelivered link s responses ↔ ∀ rsp ∈ responses, RowsUsable s.ridRegistry rsp := by
  refine Iff.trans ⟨And.left, ?_⟩ (processResponses_ok_iff link { state := s } responses)
  rintro ⟨results, p, hrun⟩
  have hreceive : receive link s (.responseMessage responses) =
      complete p [] (groupByTarget results) := by
    rw [receive, hrun]
  have hhandlers := runHandlers_of_isRemoval p.state (isRemoval_of_processResponses hrun)
  rw [complete, hhandlers, Option.map_some] at hreceive
  exact ⟨⟨results, p, hrun⟩, _, hreceive, delivers_of_receive hreceive⟩

/-- A message is no response message, or its responses are handled as they should be. -/
def HandledWell (link : Link) (s : ResponderState) : ResponderMessage → Prop
  | .requestEnvelope _ _ => True
  | .responseMessage responses => ResponsesDelivered link s responses

end

/-- A message is no response message, or the rows of its responses are usable. -/
def MessageUsable (s : ResponderState) : ResponderMessage → Prop
  | .requestEnvelope _ _ => True
  | .responseMessage responses => ∀ rsp ∈ responses, RowsUsable s.ridRegistry rsp

/-- **Response messages.**  In a run from any state, every response message comes through and
has all that is well formed in it delivered, just when every response message, at its turn, has
usable rows only. -/
theorem responses_delivered_iff [ScanOrder Int] (link : Link) (s : ResponderState)
    (messages : List ResponderMessage) :
    Admissible (nextState link) (HandledWell link) s messages ↔
      Admissible (nextState link) MessageUsable s messages := by
  apply Admissible.congr
  intro s msg
  cases msg with
  | requestEnvelope sender requests => exact Iff.rfl
  | responseMessage responses => exact responsesDelivered_iff link s responses

/-- An update with an empty row, before the response to the call with target RID 1. -/
def emptyRowMessage : Json :=
  .object [(str "msg", .number 5), (str "responses", .array [
    .object [(str "rid", .number 0), (str "updates", .array [.array []])],
    .object [(str "rid", .number 1), (str "stream", .string (str "closed"))]])]

def emptyRowResponses : List DSAResponse :=
  [{ rid := 0, updates := some [.array []] }, { rid := 1, stream := some .closed }]

def setForwarded : ResponderMessage := .requestEnvelope requesterA [.set 101 blah (.numeric 7) none]

/-- A SET is forwarded with target RID 1.  The message can be decoded, and stops the actor: the
response to the SET is lost. -/
theorem empty_row_stops_message :
    ∃ s, Reachable (nextState linkR) AnyStep .initial s ∧
      dsaMessageFormat.reads emptyRowMessage = some (.response 5 none emptyRowResponses) ∧
      receive linkR s (.responseMessage emptyRowResponses) = none ∧
      ¬ ResponsesDelivered linkR s emptyRowResponses ∧
      ResponsesDelivered linkR s emptyRowResponses.tail := by
  refine ⟨_, .next setForwarded .start trivial rfl, by decide +kernel, rfl, ?_, ?_⟩
  · intro h
    have husable := (responsesDelivered_iff linkR _ _).mp h _ List.mem_cons_self
    exact husable.subscribe rfl _ List.mem_cons_self
  · rw [responsesDelivered_iff]
    intro rsp hrsp
    rw [List.mem_singleton.mp hrsp]
    refine ⟨fun hzero => absurd hzero (by decide), ?_⟩
    intro _ _ row hrow
    cases hrow

end DsaBroker
