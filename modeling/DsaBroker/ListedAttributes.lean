import DsaBroker.Histories
import DsaBroker.MalformedResponses
import DsaBroker.PathSplitting

/-!
# Attributes in LIST responses

An attribute is written by a SET of its path or by the action `addAttribute` of its node; the value
is stored under the path of the node when the handler of the event runs.  After a run from the start
the responder holds, for every node and name, the value that was written last
(`storesLatest_of_run`), and a response to a LIST of the node carries these values, one row each,
to every origin of the call.

That is so unless a row of the response, or of one before it in the same message, makes its handler
throw; and a `$base` row keeps only its name and its value (`list_responses_carry_attributes_iff`).
-/

namespace DsaBroker

/-! ### What the requests write -/

/-- The value that a request writes for the attribute of a node: a SET of the attribute, whose name
is the last segment of its path, or `addAttribute` with its name. -/
def writtenValue (link : Link) (node name : Str) : DSARequest → Option DSAVal
  | .set _ path value _ =>
      if isAttribute path ∧ path = node ++ slash :: name ∧ slash ∉ name then some value else none
  | .invoke _ path params _ =>
      if path = node ++ slash :: addAttributeAction ∧
          (params.get (str "name")).bind (textOf link) = some name then
        params.get (str "value")
      else none
  | _ => none

def ResponderMessage.requests : ResponderMessage → List DSARequest
  | .requestEnvelope _ requests => requests
  | .responseMessage _ => []

def latestValue (link : Link) (node name : Str) (log : List DSARequest) : Option DSAVal :=
  Histories.latest (fun request => (writtenValue link node name request).map some) log

/-- The latest request that writes the attribute writes this value. -/
def WrittenLast (link : Link) (node name : Str) (log : List DSARequest) (value : DSAVal) : Prop :=
  ∃ before request after, log = before ++ request :: after ∧
    writtenValue link node name request = some value ∧
    ∀ later ∈ after, writtenValue link node name later = none

theorem latestValue_eq_some_iff {link : Link} {node name : Str} {log : List DSARequest}
    {value : DSAVal} :
    latestValue link node name log = some value ↔ WrittenLast link node name log value := by
  rw [latestValue, Histories.latest_eq_some_iff, Histories.LastSet, WrittenLast]
  simp only [Option.map_eq_some_iff, Option.some.injEq, exists_eq_right, Option.map_eq_none_iff]

theorem latestValue_snoc (link : Link) (node name : Str) (log : List DSARequest)
    (request : DSARequest) :
    latestValue link node name (log ++ [request]) =
      (writtenValue link node name request).or (latestValue link node name log) := by
  rw [latestValue, Histories.latest_append, List.foldl_cons, List.foldl_nil, Histories.settle]
  cases writtenValue link node name request <;> rfl

/-! ### The attribute that an action stores -/

/-- What an action stores for the attribute of a node. -/
def Action.stored (node name : Str) : Action → Option DSAVal
  | .saveAttribute _ nodePath attrName value =>
      if node = nodePath ∧ name = attrName then some value else none
  | _ => none

theorem append_slash_inj {node node' last last' : Str} (h : slash ∉ last) (h' : slash ∉ last')
    (heq : node ++ slash :: last = node' ++ slash :: last') : node = node' ∧ last = last' := by
  have hfields := congrArg fields heq
  rw [fields_append, fields_append, fields_of_no_slash h, fields_of_no_slash h'] at hfields
  obtain rfl : last = last' := by simpa using (List.append_inj' hfields rfl).2
  exact ⟨List.append_cancel_right heq, rfl⟩

theorem endsWith_iff {path tail : Str} :
    endsWith path tail = true ↔ ∃ front, path = front ++ tail := by
  rw [endsWith, List.isSuffixOf_iff_suffix]
  exact exists_congr fun _ => eq_comm

theorem stored_set (link : Link) (sender : Routee) (l : Lookups) (node name : Str) (rid : Int)
    (path : Str) (value : DSAVal) (permit : Option Str) :
    (actionOf link sender l (.set rid path value permit)).stored node name =
      writtenValue link node name (.set rid path value permit) := by
  rw [actionOf, writtenValue]
  by_cases hattribute : isAttribute path = true
  · obtain ⟨nodePath, tail, hsplit, hname, rfl⟩ := isAttribute_splitPath hattribute
    simp only [hattribute, if_true, hsplit, Action.stored, true_and]
    congr 1
    rw [eq_iff_iff]
    constructor
    · rintro ⟨rfl, rfl⟩
      exact ⟨rfl, hname⟩
    · rintro ⟨heq, hother⟩
      obtain ⟨rfl, rfl⟩ := append_slash_inj hname hother heq
      exact ⟨rfl, rfl⟩
  · rw [if_neg hattribute, if_neg fun h => hattribute h.1]
    rfl

theorem stored_invoke (link : Link) (sender : Routee) (l : Lookups) (node name : Str) (rid : Int)
    (path : Str) (params : DSAMap) (permit : Option Str) :
    (actionOf link sender l (.invoke rid path params permit)).stored node name =
      writtenValue link node name (.invoke rid path params permit) := by
  rw [actionOf, writtenValue]
  by_cases hadd : endsWith path (slash :: addAttributeAction) = true
  · obtain ⟨nodePath, rfl⟩ := endsWith_iff.mp hadd
    have hdrop : dropRight (nodePath ++ slash :: addAttributeAction)
        (addAttributeAction.length + 1) = nodePath := by
      rw [dropRight, List.length_append, List.length_cons, Nat.add_sub_cancel, List.take_left]
    simp only [if_pos hadd, hdrop, List.append_left_inj]
    cases hname : (params.get (str "name")).bind (textOf link) with
    | none =>
      rw [if_neg fun h => Option.some_ne_none name h.2.symm]
      rfl
    | some attrName =>
      cases hvalue : params.get (str "value") with
      | none =>
        split_ifs <;> rfl
      | some value =>
        simp only [Action.stored, Option.some.injEq]
        congr 1
        rw [eq_iff_iff, eq_comm, @eq_comm _ name]
  · have hpath : path ≠ node ++ slash :: addAttributeAction :=
      fun h => hadd (endsWith_iff.mpr ⟨node, h⟩)
    rw [if_neg hadd]
    refine Eq.trans ?_ (if_neg fun h => hpath h.1).symm
    split_ifs
    · cases params.get (str "value") <;> rfl
    · rfl

/-- **One request.**  What its action stores is what it writes. -/
theorem stored_actionOf (link : Link) (sender : Routee) (l : Lookups) (node name : Str)
    (request : DSARequest) :
    (actionOf link sender l request).stored node name = writtenValue link node name request := by
  cases request with
  | set rid path value permit => exact stored_set link sender l node name rid path value permit
  | invoke rid path params permit =>
    exact stored_invoke link sender l node name rid path params permit
  | remove rid path => rfl
  | list rid path =>
    rw [actionOf]
    split <;> rfl
  | subscribe rid paths =>
    rw [actionOf]
    split
    · rfl
    · split <;> rfl
  | unsubscribe rid sids =>
    rw [actionOf]
    split
    · rfl
    · split <;> rfl
  | close rid =>
    rw [actionOf]
    split
    · rfl
    · split <;> rfl

/-! ### What a responder has stored -/

/-- The attributes are those written last in the requests of the log. -/
structure StoresLatest (link : Link) (log : List DSARequest) (s : ResponderState) : Prop where
  nodup : ∀ node, (((s.attributes node).getD []).map Prod.fst).Nodup
  get : ∀ node name,
    DSAMap.get ((s.attributes node).getD []) name = latestValue link node name log

theorem StoresLatest.congr {link : Link} {log : List DSARequest} {s s' : ResponderState}
    (h : StoresLatest link log s) (hsame : s'.attributes = s.attributes) :
    StoresLatest link log s' := by
  constructor
  · rw [hsame]
    exact h.nodup
  · rw [hsame]
    exact h.get

theorem attributes_advance (issues : Bool × Bool) (s : ResponderState) :
    (s.advance issues).attributes = s.attributes := by
  rcases issues with ⟨_ | _, _ | _⟩ <;> rfl

theorem attributes_performed {s : ResponderState} {calls : List PersistCall}
    (h : ∀ call ∈ calls, ∀ node name value, call ≠ .saveAttribute node name value) :
    (s.performed calls).attributes = s.attributes := by
  induction calls generalizing s with
  | nil => rfl
  | cons call rest ih =>
    rw [List.forall_mem_cons] at h
    have hone : (call.applied s).attributes = s.attributes := by
      rcases call with event | event | ⟨node, name, value⟩ | call
      · rfl
      · rfl
      · exact absurd rfl (h.1 node name value)
      · rw [PersistCall.applied]
        cases call.regTypeVal <;> rfl
    exact (ih h.2).trans hone

/-- What the action of a request stores comes on top of what is stored. -/
theorem StoresLatest.request {link : Link} {log : List DSARequest} {s : ResponderState}
    (h : StoresLatest link log s) {a : Action} {request : DSARequest}
    (ha : ∀ node name, a.stored node name = writtenValue link node name request) (rid sid : Int) :
    StoresLatest link (log ++ [request]) (s.performed (a.effects rid sid)) := by
  have hother : (∀ node name, a.stored node name = none) →
      (s.performed (a.effects rid sid)).attributes = s.attributes →
        StoresLatest link (log ++ [request]) (s.performed (a.effects rid sid)) := by
    intro hnone hsame
    constructor
    · rw [hsame]
      exact h.nodup
    · intro node name
      rw [hsame, latestValue_snoc, ← ha, hnone, Option.none_or]
      exact h.get node name
  cases a with
  | saveAttribute srcRid nodePath attrName value =>
    have hattributes : (s.performed (Action.effects rid sid
        (.saveAttribute srcRid nodePath attrName value))).attributes =
          addAttribute s.attributes nodePath attrName value := rfl
    constructor
    · intro node
      rw [hattributes, addAttribute]
      -- of the stored attributes only this node's change, and of these only the one of this name
      by_cases hnode : node = nodePath
      · subst hnode
        rw [Function.update_self]
        exact DSAMap.nodup_updated (h.nodup node) attrName value
      · rw [Function.update_of_ne hnode]
        exact h.nodup node
    · intro node name
      rw [hattributes, addAttribute, latestValue_snoc, ← ha, Action.stored, ← h.get]
      by_cases hnode : node = nodePath
      · subst hnode
        rw [Function.update_self, Option.getD_some, DSAMap.get_updated]
        by_cases hname : name = attrName
        · rw [if_pos hname, if_pos ⟨rfl, hname⟩]
          rfl
        · rw [if_neg hname, if_neg fun hboth => hname hboth.2]
          rfl
      · rw [Function.update_of_ne hnode, if_neg fun hboth => hnode hboth.1]
        rfl
  | closeListLast origin targetId record =>
    apply hother fun _ _ => rfl
    apply attributes_performed
    cases record <;> simp [Action.effects]
  | _ =>
    apply hother fun _ _ => rfl
    apply attributes_performed
    simp [Action.effects]

theorem Responds.attributes {link : Link} {p p' : Processing} {rsp : DSAResponse}
    {results : List (Routee × DSAResponse)} (h : Responds link p rsp results p') :
    p'.state.attributes = p.state.attributes := by
  cases h <;> rfl

/-- **One message.**  The requests of an envelope write in their order, and responses nothing. -/
theorem StoresLatest.next [ScanOrder Int] {link : Link} {log : List DSARequest}
    {s s' : ResponderState} (h : StoresLatest link log s) {msg : ResponderMessage}
    (hnext : nextState link s msg = some s') : StoresLatest link (log ++ msg.requests) s' := by
  obtain ⟨outcome, hreceive, rfl⟩ := Option.map_eq_some_iff.mp hnext
  cases msg with
  | requestEnvelope sender requests =>
    rw [receive_requestEnvelope_state hreceive]
    -- the envelope is walked with what it will have stored, not with what it sees
    have hturns : ∀ (requests : List DSARequest) (log : List DSARequest) (t : EnvelopeTurn),
        StoresLatest link log t.settled → StoresLatest link (log ++ requests)
          (EnvelopeTurn.settled (requests.foldl (EnvelopeTurn.take link sender) t)) := by
      intro requests
      induction requests with
      | nil =>
        intro log t ht
        rw [List.append_nil]
        exact ht
      | cons request rest ih =>
        intro log t ht
        rw [List.append_cons]
        apply ih
        rw [EnvelopeTurn.settled_take]
        apply (ht.congr (attributes_advance _ _)).request
        exact fun node name => stored_actionOf link sender _ node name request
    exact hturns requests log { present := s } h
  | responseMessage responses =>
    obtain ⟨p, results, r, ⟨hremovals, hsame⟩, hrun, hstate, -⟩ := responseMessage_invariant
      (fun _ p _ => (∀ call ∈ p.persisted, call.IsRemoval) ∧ p.state.attributes = s.attributes)
      (fun _ p rsp results p' before _ hp hresponds =>
        ⟨hresponds.isRemoval hp.1, hresponds.attributes.trans hp.2⟩)
      ⟨fun call hcall => absurd hcall List.not_mem_nil, rfl⟩ hreceive
    rw [runHandlers_of_isRemoval p.state hremovals, Option.some.injEq] at hrun
    have hperformed : r.1 = p.state.performed p.persisted := by rw [← hrun]
    rw [hstate, hperformed, ResponderMessage.requests, List.append_nil]
    refine h.congr (Eq.trans (attributes_performed ?_) hsame)
    rintro call hcall node name value rfl
    exact hremovals _ hcall

/-- **Whole runs.**  Every attribute has the value that was written last. -/
theorem storesLatest_of_run [ScanOrder Int] {link : Link} {messages : List ResponderMessage}
    {s : ResponderState} (hrun : messages.foldlM (nextState link) .initial = some s) :
    StoresLatest link (messages.flatMap ResponderMessage.requests) s := by
  have hfrom : ∀ (messages : List ResponderMessage) (log : List DSARequest) (s₀ : ResponderState),
      StoresLatest link log s₀ → messages.foldlM (nextState link) s₀ = some s →
        StoresLatest link (log ++ messages.flatMap ResponderMessage.requests) s := by
    intro messages
    induction messages with
    | nil =>
      intro log s₀ h hs
      cases hs
      rw [List.flatMap_nil, List.append_nil]
      exact h
    | cons msg rest ih =>
      intro log s₀ h hs
      obtain ⟨s₁, hnext, hrest⟩ := Option.bind_eq_some_iff.mp hs
      rw [List.flatMap_cons, ← List.append_assoc]
      exact ih _ s₁ (h.next hnext) hrest
  exact hfrom messages [] .initial ⟨fun _ => List.nodup_nil, fun _ _ => rfl⟩ hrun

/-! ### What is sent while responses are processed -/

/-- What the responses have sent to the origins of their calls, also if one of them throws. -/
def sentBy (link : Link) (s : ResponderState) (responses : List DSAResponse) : List Delivery :=
  ((processResponses link responses).run { state := s }).2.sent

/-- A response whose handler throws has done nothing. -/
theorem run_responseHandler_of_throws {link : Link} {p p' : Processing} {rsp : DSAResponse}
    {thrown : Thrown} (h : (responseHandler link rsp).run p = (.error thrown, p')) : p' = p := by
  unfold responseHandler at h
  split at h
  case isTrue hrid =>
    simp only [handleSubscribeResponse, run_bind, run_deliverSubscribe] at h
    cases hdelivered : p.state.subsRegistry.deliverSubscribeResponse rsp with
    | none =>
      rw [hdelivered] at h
      exact (congrArg Prod.snd h).symm
    | some delivered =>
      rw [hdelivered] at h
      cases h
  case isFalse hrid =>
    rcases lookup_cases p.state.ridRegistry rsp.rid with ⟨record, path, hrecord, hlist⟩ |
      ⟨record, origin, hrecord, hcall, horigin⟩ | hnone
    · cases hold : (rsp.updates.getD []).mapM (adjustedRow link) with
      | some oldUpdates =>
        rw [run_handleNonSubscribeResponse_list link hrecord hlist hold] at h
        cases h
      | none =>
        obtain ⟨other, hrun⟩ := run_handleNonSubscribeResponse_throws link hrecord hlist hold
        rw [hrun] at h
        exact (congrArg Prod.snd h).symm
    · rw [run_handleNonSubscribeResponse_call link hrecord hcall horigin] at h
      cases h
    · rw [run_handleNonSubscribeResponse_unknown link hnone] at h
      cases h

theorem Responds.sent_grows {link : Link} {p p' : Processing} {rsp : DSAResponse}
    {results : List (Routee × DSAResponse)} (h : Responds link p rsp results p') :
    p.sent <+: p'.sent := by
  cases h with
  | subscribe _ _ => exact List.prefix_append _ _
  | list _ _ _ _ _ => exact List.prefix_append _ _
  | call _ _ _ _ => exact List.prefix_refl _
  | unknown _ _ => exact List.prefix_refl _

/-- The rest of a message goes on from where a response has come through, and is not looked at
where one has thrown. -/
theorem run_processResponses_cons (link : Link) (rsp : DSAResponse) (p : Processing) :
    (∃ results p', (responseHandler link rsp).run p = (.ok results, p') ∧ ∀ rest,
      ((processResponses link (rsp :: rest)).run p).2 = ((processResponses link rest).run p').2) ∨
    (∃ thrown, (responseHandler link rsp).run p = (.error thrown, p) ∧ ∀ rest,
      (processResponses link (rsp :: rest)).run p = (.error thrown, p)) := by
  rcases hfirst : (responseHandler link rsp).run p with ⟨thrown | results, p'⟩
  · obtain rfl := run_responseHandler_of_throws hfirst
    right
    refine ⟨thrown, rfl, ?_⟩
    intro rest
    simp only [processResponses, run_bind, hfirst]
  · left
    refine ⟨results, p', rfl, ?_⟩
    intro rest
    simp only [processResponses, run_bind, hfirst]
    rcases (processResponses link rest).run p' with ⟨_ | _, _⟩ <;> rfl

theorem sent_prefix_processResponses (link : Link) (responses : List DSAResponse)
    (p : Processing) : p.sent <+: ((processResponses link responses).run p).2.sent := by
  induction responses generalizing p with
  | nil => exact List.prefix_refl _
  | cons rsp rest ih =>
    rcases run_processResponses_cons link rsp p with ⟨results, p', hfirst, hrest⟩ |
      ⟨thrown, -, hrest⟩
    · rw [hrest]
      exact (responds_of_run hfirst).sent_grows.trans (ih p')
    · simp only [hrest, List.prefix_rfl]

/-- What is sent before a response, if the responses before it come through; otherwise nothing is
sent from there on. -/
theorem processResponses_append (link : Link) (earlier later : List DSAResponse) (p : Processing) :
    (∃ results p', (processResponses link earlier).run p = (.ok results, p') ∧
      ((processResponses link (earlier ++ later)).run p).2 =
        ((processResponses link later).run p').2) ∨
    ((∀ results p', (processResponses link earlier).run p ≠ (.ok results, p')) ∧
      ((processResponses link (earlier ++ later)).run p).2 =
        ((processResponses link earlier).run p).2) := by
  induction earlier generalizing p with
  | nil => exact Or.inl ⟨[], p, rfl, rfl⟩
  | cons rsp rest ih =>
    rw [List.cons_append]
    rcases run_processResponses_cons link rsp p with ⟨results, p', hfirst, hrest⟩ |
      ⟨thrown, -, hrest⟩
    · rw [hrest, hrest]
      rcases ih p' with ⟨more, p'', hmore, hsame⟩ | ⟨hnot, hsame⟩
      · refine Or.inl ⟨results ++ more, p'', ?_, hsame⟩
        simp only [processResponses, run_bind, hfirst, hmore, run_pure]
      · refine Or.inr ⟨?_, hsame⟩
        intro all q hall
        obtain ⟨first, p₁, more, hone, hmore, -⟩ := processResponses_cons hall
        rw [hfirst] at hone
        cases hone
        exact hnot more q hmore
    · rw [hrest, hrest]
      refine Or.inr ⟨?_, rfl⟩
      intro all q hall
      cases hall

/-! ### The rows of a LIST response -/

/-- The row with the path of the link before the base, and everything else unchanged; `none` if the
base is `null`. -/
def rebasedRow (link : Link) : DSAVal → Option DSAVal
  | .array (.string name :: base :: rest) =>
      if name = baseConfig then
        (textOf link base).map fun text =>
          .array (.string name :: .string (link.linkPath ++ text) :: rest)
      else some (.array (.string name :: base :: rest))
  | .map value =>
      match DSAMap.get value baseConfig with
      | some base =>
          (textOf link base).map fun text =>
            .map (DSAMap.updated value baseConfig (.string (link.linkPath ++ text)))
      | none => some (.map value)
  | row => some row

/-- If the row is an array with `$base` and a value, there is nothing behind the value. -/
def BaseIsPair (row : DSAVal) : Prop :=
  ∀ base rest, row = .array (.string baseConfig :: base :: rest) → rest = []

def attributeRow (entry : Str × DSAVal) : DSAVal := .array [.string entry.1, entry.2]

/-- The delivery carries to the origin the rows of the response, with the path of the link before
the base, and then one row for each attribute of the node, with the value written last. -/
structure CarriesAttributes (link : Link) (log : List DSARequest) (node : Str) (rsp : DSAResponse)
    (origin : Origin) (delivery : Delivery) : Prop where
  target : delivery.target = origin.source
  response : ∃ (rows : List DSAVal) (entries : DSAMap),
    List.Forall₂ (fun row rebased => rebasedRow link row = some rebased) (rsp.updates.getD [])
      rows ∧
    (entries.map Prod.fst).Nodup ∧
    (∀ name value, (name, value) ∈ entries ↔ WrittenLast link node name log value) ∧
    delivery.responses = [{ rsp with
      rid := origin.sourceId
      updates := some (rows ++ entries.map attributeRow) }]

/-- After what was sent before the response, each origin bound to its target RID is sent one
delivery that carries the attributes. -/
def ListAnswered (link : Link) (log : List DSARequest) (s : ResponderState) (node : Str)
    (earlier : List DSAResponse) (rsp : DSAResponse) (later : List DSAResponse) : Prop :=
  ∃ sent after, sentBy link s (earlier ++ rsp :: later) = sentBy link s earlier ++ sent ++ after ∧
    List.Forall₂ (CarriesAttributes link log node rsp) (s.listRegistry.getOrigins rsp.rid) sent

/-- What the handlers of a message need to get past a response to a LIST call, and to keep its
`$base` rows. -/
structure ListUsable (rids : RidRegistry) (earlier : List DSAResponse) (rsp : DSAResponse) :
    Prop where
  earlier : ∀ before ∈ earlier, RowsUsable rids before
  base : ∀ row ∈ rsp.updates.getD [], BaseHasValue row
  pair : ∀ row ∈ rsp.updates.getD [], BaseIsPair row

theorem rebasedRow_iff {link : Link} {row adjusted : DSAVal}
    (h : adjustedRow link row = some adjusted) :
    rebasedRow link row = some adjusted ↔ BaseIsPair row := by
  cases row with
  | array items =>
    rcases items with _ | ⟨item, _ | ⟨base, rest⟩⟩
    · exact iff_of_true h fun _ _ heq => by simp at heq
    · refine iff_of_true ?_ fun _ _ heq => by simp at heq
      cases item <;> simp_all [adjustedRow, rebasedRow]
    · cases item with
      | string name =>
        by_cases hname : name = baseConfig
        · subst hname
          simp only [adjustedRow, rebasedRow, if_true, List.head?_cons, Option.bind_some,
            Option.map_eq_some_iff] at h ⊢
          obtain ⟨text, htext, rfl⟩ := h
          simp [htext, BaseIsPair]
        · rw [adjustedRow, if_neg hname] at h
          rw [rebasedRow, if_neg hname]
          refine iff_of_true h ?_
          intro _ _ heq
          simp only [DSAVal.array.injEq, List.cons.injEq, DSAVal.string.injEq] at heq
          exact absurd heq.1 hname
      | _ => exact iff_of_true h fun _ _ heq => by simp at heq
  | _ => exact iff_of_true h fun _ _ heq => by simp at heq

/-! ### Delivery -/

theorem attributes_of_processResponses {link : Link} {responses : List DSAResponse}
    {s : ResponderState} {p : Processing} {results : List (Routee × DSAResponse)}
    (h : (processResponses link responses).run { state := s } = (.ok results, p)) :
    SameRecipients s p.state ∧ p.state.attributes = s.attributes := by
  refine processResponses_invariant (fun _ p _ => SameRecipients s p.state ∧
    p.state.attributes = s.attributes) ?_ ⟨⟨rfl, fun _ => rfl, fun _ => rfl⟩, rfl⟩ h
  rintro _ p rsp results p' _ _ ⟨hsame, hattributes⟩ hresponds
  exact ⟨hsame.trans hresponds.sameRecipients, hresponds.attributes.trans hattributes⟩

/-- The deliveries of a response to a LIST call, with the rows that its handler makes. -/
def listDeliveries (s : ResponderState) (node : Str) (rsp : DSAResponse) (rows : List DSAVal) :
    List Delivery :=
  (s.listRegistry.getOrigins rsp.rid).map fun origin =>
    ⟨origin.source, [{ rsp with
      rid := origin.sourceId
      updates := some (rows ++ attributeRows s node) }]⟩

theorem rowsUsable_iff {rids : RidRegistry} {rsp : DSAResponse} (hrid : rsp.rid ≠ 0)
    (hlist : rids.AnswersList rsp) :
    RowsUsable rids rsp ↔ ∀ row ∈ rsp.updates.getD [], BaseHasValue row :=
  ⟨fun h => h.list hrid hlist, fun h => ⟨fun hzero => absurd hzero hrid, fun _ _ => h⟩⟩

/-- A response to a LIST call that comes through, at its turn. -/
theorem Responds.sent_list {link : Link} {s : ResponderState} {p p' : Processing}
    {rsp : DSAResponse} {results : List (Routee × DSAResponse)} {record : LookupRecord} {node : Str}
    (h : Responds link p rsp results p') (hrecipients : SameRecipients s p.state)
    (hattributes : p.state.attributes = s.attributes) (hrid : rsp.rid ≠ 0)
    (hrecord : s.ridRegistry.lookupByTargetId rsp.rid = some record)
    (hlist : record.IsListCall node) :
    ∃ rows, (rsp.updates.getD []).mapM (adjustedRow link) = some rows ∧
      p'.sent = p.sent ++ listDeliveries s node rsp rows := by
  rw [← hrecipients.rids] at hrecord
  cases h with
  | subscribe hzero => exact absurd hzero hrid
  | call _ hfound hcall =>
    obtain rfl := Option.some.inj (hrecord.symm.trans hfound)
    exact absurd hlist (hcall node)
  | unknown _ hnone => exact absurd hlist ((hnone record hrecord).1 node)
  | @list found path rows delivered _ hfound hpath hrows hdelivered =>
    obtain rfl := Option.some.inj (hrecord.symm.trans hfound)
    obtain rfl : node = path := Option.some.inj (hlist.2.symm.trans hpath.2)
    refine ⟨rows, hrows, ?_⟩
    rw [hdelivered, listDeliveries, ← hrecipients.list, ← Bindings.origins_getOrInsert]
    simp only [Bindings.deliverListResponse, GroupCallRecord.origins_setLastResponse,
      List.map_map, attributeRows, hattributes]
    rfl

/-- What a message sends from the turn of a response to a LIST call on: the response to its origins
and what comes after, if nothing up to it throws, and otherwise nothing. -/
theorem sentBy_list {link : Link} {s : ResponderState} {earlier : List DSAResponse}
    {rsp : DSAResponse} {record : LookupRecord} {node : Str} (hrid : rsp.rid ≠ 0)
    (hrecord : s.ridRegistry.lookupByTargetId rsp.rid = some record)
    (hlist : record.IsListCall node) (later : List DSAResponse) :
    (∃ rows after, (∀ before ∈ earlier, RowsUsable s.ridRegistry before) ∧
      (rsp.updates.getD []).mapM (adjustedRow link) = some rows ∧
      sentBy link s (earlier ++ rsp :: later) =
        sentBy link s earlier ++ listDeliveries s node rsp rows ++ after) ∨
    (¬ ((∀ before ∈ earlier, RowsUsable s.ridRegistry before) ∧
        ∀ row ∈ rsp.updates.getD [], BaseHasValue row) ∧
      sentBy link s (earlier ++ rsp :: later) = sentBy link s earlier) := by
  rcases processResponses_append link earlier (rsp :: later) { state := s } with
    ⟨results, p, hearlier, hsame⟩ | ⟨hnot, hsame⟩
  · -- nothing threw before this response, so the LIST call is still there for it
    have husable := (processResponses_ok_iff link _ _).mp ⟨results, p, hearlier⟩
    obtain ⟨hrecipients, hattributes⟩ := attributes_of_processResponses hearlier
    have hsent : sentBy link s earlier = p.sent := by rw [sentBy, hearlier]
    rw [sentBy, hsame, hsent]
    rcases run_processResponses_cons link rsp p with ⟨more, p', hfirst, hrest⟩ |
      ⟨thrown, hfirst, hrest⟩
    · left
      obtain ⟨rows, hrows, hlisted⟩ :=
        (responds_of_run hfirst).sent_list hrecipients hattributes hrid hrecord hlist
      obtain ⟨after, hafter⟩ := sent_prefix_processResponses link later p'
      exact ⟨rows, after, husable, hrows, by rw [hrest, ← hafter, hlisted]⟩
    · right
      rw [hrest]
      refine ⟨?_, rfl⟩
      rintro ⟨-, hbase⟩
      have hanswers : p.state.ridRegistry.AnswersList rsp := by
        rw [hrecipients.rids]
        exact ⟨record, node, hrecord, hlist⟩
      obtain ⟨more, p', hok⟩ := (responseHandler_ok_iff link p rsp).mpr
        ((rowsUsable_iff hrid hanswers).mpr hbase)
      rw [hfirst] at hok
      cases hok
  · right
    refine ⟨?_, congrArg Processing.sent hsame⟩
    rintro ⟨husable, -⟩
    obtain ⟨results, p, hok⟩ := (processResponses_ok_iff link { state := s } earlier).mpr husable
    exact hnot results p hok

theorem mapM_eq_some_iff_forall₂ {α β : Type} {f : α → Option β} {items : List α}
    {results : List β} :
    items.mapM f = some results ↔ List.Forall₂ (fun a b => f a = some b) items results := by
  induction items generalizing results with
  | nil => simp [eq_comm]
  | cons a rest ih =>
    simp only [List.mapM_cons, Option.bind_eq_bind, Option.bind_eq_some_iff, Option.pure_def,
      Option.some.injEq, List.forall₂_cons_left_iff, ih]
    constructor
    · rintro ⟨b, hb, bs, hbs, rfl⟩
      exact ⟨b, bs, hb, hbs, rfl⟩
    · rintro ⟨b, bs, hb, hbs, rfl⟩
      exact ⟨b, hb, bs, hbs, rfl⟩

theorem eq_of_mapM_eq {α β : Type} {f g : α → Option β} {items : List α} {results : List β}
    (hf : items.mapM f = some results) (hg : items.mapM g = some results) {a : α}
    (ha : a ∈ items) : ∃ b, f a = some b ∧ g a = some b := by
  rw [mapM_eq_some_iff_forall₂] at hf hg
  induction hf with
  | nil => cases ha
  | cons hfirst hrest ih =>
    obtain ⟨hgfirst, hgrest⟩ := List.forall₂_cons.mp hg
    rcases List.mem_cons.mp ha with rfl | ha
    · exact ⟨_, hfirst, hgfirst⟩
    · exact ih hgrest ha

/-- A delivery with the stored attributes carries them just if the rows before them are rebased. -/
theorem carriesAttributes_iff {link : Link} {log : List DSARequest} {s : ResponderState}
    (h : StoresLatest link log s) {node : Str} {rsp : DSAResponse} {rows : List DSAVal}
    (hrows : (rsp.updates.getD []).mapM (adjustedRow link) = some rows) (origin : Origin) :
    CarriesAttributes link log node rsp origin
        ⟨origin.source, [{ rsp with
          rid := origin.sourceId
          updates := some (rows ++ attributeRows s node) }]⟩ ↔
      ∀ row ∈ rsp.updates.getD [], BaseIsPair row := by
  constructor
  · rintro ⟨-, others, entries, hothers, -, -, hresponse⟩ row hrow
    have hupdates : rows ++ attributeRows s node = others ++ entries.map attributeRow := by
      simpa using hresponse
    -- both have as many rows before the attributes, so they agree row by row
    have hlength : rows.length = others.length := by
      rw [← hothers.length_eq, ← (mapM_eq_some_iff_forall₂.mp hrows).length_eq]
    obtain ⟨rfl, -⟩ := List.append_inj hupdates hlength
    obtain ⟨adjusted, hadjusted, hrebased⟩ :=
      eq_of_mapM_eq hrows (mapM_eq_some_iff_forall₂.mpr hothers) hrow
    exact (rebasedRow_iff hadjusted).mp hrebased
  · intro hpair
    refine ⟨rfl, rows, (s.attributes node).getD [], ?_, h.nodup node, ?_, rfl⟩
    · have hadjusted := mapM_eq_some_iff_forall₂.mp hrows
      have hboth := (List.forall₂_and_left _ _).mpr ⟨hpair, hadjusted⟩
      exact hboth.imp fun row adjusted hrow => (rebasedRow_iff hrow.2).mpr hrow.1
    · intro name value
      rw [← DSAMap.get_eq_some_iff (h.nodup node), h.get, latestValue_eq_some_iff]

/-- **LIST responses carry the stored attributes.**  After any run from the start, each origin bound
to the target RID of a LIST call receives one delivery that carries the attributes of the node, just
if the call has no origin, or nothing in the message up to the response throws and the `$base` rows
of the response have nothing behind their values. -/
theorem list_responses_carry_attributes_iff [ScanOrder Int] {link : Link}
    {messages : List ResponderMessage} {s : ResponderState}
    (hrun : messages.foldlM (nextState link) .initial = some s) {earlier later : List DSAResponse}
    {rsp : DSAResponse} {record : LookupRecord} {node : Str} (hrid : rsp.rid ≠ 0)
    (hrecord : s.ridRegistry.lookupByTargetId rsp.rid = some record)
    (hlist : record.IsListCall node) :
    ListAnswered link (messages.flatMap ResponderMessage.requests) s node earlier rsp later ↔
      s.listRegistry.getOrigins rsp.rid = [] ∨ ListUsable s.ridRegistry earlier rsp := by
  have hstored := storesLatest_of_run hrun
  rcases @sentBy_list link s earlier rsp record node hrid hrecord hlist later with
    ⟨rows, rest, hearlier, hrows, hsent⟩ | ⟨hnot, hsent⟩
  · constructor
    · rintro ⟨sent, after, heq, hcarries⟩
      refine or_iff_not_imp_left.mpr ?_
      intro horigins
      have hbase : ∀ row ∈ rsp.updates.getD [], BaseHasValue row := by
        intro row hrow
        rw [← isSome_adjustedRow_iff link]
        exact (isSome_mapM_iff _ _).mp (Option.isSome_of_eq_some hrows) row hrow
      have hdeliveries : sent = listDeliveries s node rsp rows := by
        -- between what was sent before and after there is room for the deliveries only
        rw [hsent, List.append_assoc, List.append_assoc] at heq
        apply (List.append_inj (List.append_cancel_left heq).symm _).1
        rw [← hcarries.length_eq, listDeliveries, List.length_map]
      obtain ⟨origin, origins, hcons⟩ := List.exists_cons_of_ne_nil horigins
      rw [hdeliveries, listDeliveries, hcons, List.map_cons, List.forall₂_cons] at hcarries
      exact ⟨hearlier, hbase, (carriesAttributes_iff hstored hrows origin).mp hcarries.1⟩
    · intro h
      refine ⟨listDeliveries s node rsp rows, rest, hsent, ?_⟩
      rw [listDeliveries, List.forall₂_map_right_iff, List.forall₂_same]
      intro origin horigin
      rcases h with hnil | husable
      · rw [hnil] at horigin
        cases horigin
      · exact (carriesAttributes_iff hstored hrows origin).mpr husable.pair
  · -- something throws, and the message sends no more
    constructor
    · rintro ⟨sent, after, heq, hcarries⟩
      rw [hsent, List.append_assoc, List.self_eq_append_right, List.append_eq_nil_iff] at heq
      rw [heq.1, List.forall₂_nil_right_iff] at hcarries
      exact Or.inl hcarries
    · rintro (hnil | husable)
      · refine ⟨[], [], by rw [hsent, List.append_nil, List.append_nil], ?_⟩
        rw [hnil]
        exact List.Forall₂.nil
      · exact absurd ⟨husable.earlier, husable.base⟩ hnot

/-- B stores a unit at the node, twice, and A lists the node. -/
def unitStoredAndListed : List ResponderMessage :=
  [.requestEnvelope requesterB [.set 100 (blah ++ str "/@unit") (.string (str "kW")) none],
    .requestEnvelope requesterB [.invoke 101 (blah ++ slash :: addAttributeAction)
      [(str "name", .string (str "@unit")), (str "value", .string (str "W"))] none],
    .requestEnvelope requesterA [.list 7 blah]]

def unitListed : ResponderState :=
  (unitStoredAndListed.foldlM (nextState linkR) .initial).getD .initial

def baseResponse (row : DSAVal) : DSAResponse := { rid := 1, updates := some [row] }

/-- A is sent the `$base` row and the unit stored last. -/
theorem list_responses_carry_attributes_unit :
    unitStoredAndListed.foldlM (nextState linkR) .initial = some unitListed ∧
      unitListed.listRegistry.getOrigins 1 = [⟨requesterA, 7⟩] ∧
      ListAnswered linkR (unitStoredAndListed.flatMap ResponderMessage.requests) unitListed blah []
        (baseResponse (.array [.string baseConfig, .string (str "/b")])) [] := by
  refine ⟨rfl, by decide +kernel, ?_⟩
  refine (list_responses_carry_attributes_iff rfl (by decide) rfl ⟨rfl, rfl⟩).mpr (Or.inr ?_)
  refine ⟨fun before hbefore => absurd hbefore List.not_mem_nil, ?_, ?_⟩
  · intro row hrow
    obtain rfl := List.mem_singleton.mp hrow
    exact fun _ => ⟨_, [], rfl, by decide⟩
  · intro row hrow base rest heq
    obtain rfl := List.mem_singleton.mp hrow
    have hparts : base = .string (str "/b") ∧ rest = [] := by simpa using heq.symm
    exact hparts.2

/-- A map with `null` under `$base` throws, and the origin is sent nothing. -/
theorem null_base_not_delivered :
    unitStoredAndListed.foldlM (nextState linkR) .initial = some unitListed ∧
      (∃ record, unitListed.ridRegistry.lookupByTargetId 1 = some record ∧
        record.IsListCall blah) ∧
      unitListed.listRegistry.getOrigins 1 = [⟨requesterA, 7⟩] ∧
      ¬ ListAnswered linkR (unitStoredAndListed.flatMap ResponderMessage.requests) unitListed
        blah [] (baseResponse (.map [(baseConfig, .null)])) [] := by
  have horigins : unitListed.listRegistry.getOrigins 1 = [⟨requesterA, 7⟩] := by decide +kernel
  have hnothing : sentBy linkR unitListed [baseResponse (.map [(baseConfig, .null)])] = [] := by
    decide +kernel
  refine ⟨rfl, ⟨_, rfl, rfl, rfl⟩, horigins, ?_⟩
  rintro ⟨sent, after, heq, hcarries⟩
  rw [List.nil_append, hnothing, List.append_assoc] at heq
  have hsent := (List.append_eq_nil_iff.mp (List.append_eq_nil_iff.mp heq.symm).2).1
  rw [hsent, List.forall₂_nil_right_iff] at hcarries
  exact absurd (horigins.symm.trans hcarries) (List.cons_ne_nil _ _)

end DsaBroker
