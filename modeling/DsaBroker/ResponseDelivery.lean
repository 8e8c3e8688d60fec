import DsaBroker.ResponderRuns
import DsaBroker.SubscriptionFanOut

/-!
# What a response message delivers

A message that comes through has sent every row for subscribers to the origins of its SID, every
response to a LIST call to the origins of the call, and every other response to the origin of its
call (`delivers_of_receive`).  The recipients are those before the message: responses change what
was sent last, and remove bindings only when the message is done.
-/

namespace DsaBroker

/-- The response is taken for one to a LIST call. -/
def RidRegistry.AnswersList (rids : RidRegistry) (rsp : DSAResponse) : Prop :=
  ∃ record path, rids.lookupByTargetId rsp.rid = some record ∧ record.IsListCall path

/-- What is well formed in a response is among the responses sent: a row that names a SID, to
every origin of that SID; a row that can be adjusted, in a response to every origin of the LIST
call; a response to another call, to its origin. -/
structure Delivers (link : Link) (s : ResponderState) (rsp : DSAResponse)
    (sent : List (Routee × DSAResponse)) : Prop where
  row : rsp.rid = 0 → ∀ row ∈ rsp.updates.getD [], ∀ sid, extractSid row = some sid →
    ∀ origin ∈ s.subsRegistry.getOrigins sid,
      (origin.source, Bindings.subscribeResponse rsp row origin) ∈ sent
  list : rsp.rid ≠ 0 → s.ridRegistry.AnswersList rsp →
    ∀ origin ∈ s.listRegistry.getOrigins rsp.rid, ∃ updates,
      (origin.source, { rsp with rid := origin.sourceId, updates := some updates }) ∈ sent ∧
        ∀ row ∈ rsp.updates.getD [], ∀ adjusted, adjustedRow link row = some adjusted →
          adjusted ∈ updates
  call : rsp.rid ≠ 0 → ∀ record origin, s.ridRegistry.lookupByTargetId rsp.rid = some record →
    (∀ path, ¬ record.IsListCall path) → record.origin = some origin →
      (origin.source, { rsp with rid := origin.sourceId }) ∈ sent

theorem Delivers.mono {link : Link} {s : ResponderState} {rsp : DSAResponse}
    {sent sent' : List (Routee × DSAResponse)} (h : Delivers link s rsp sent)
    (hsent : sent ⊆ sent') : Delivers link s rsp sent' where
  row hrid row hrow sid hsid origin horigin := hsent (h.row hrid row hrow sid hsid origin horigin)
  list hrid hlist origin horigin := by
    obtain ⟨updates, hmem, hrows⟩ := h.list hrid hlist origin horigin
    exact ⟨updates, hsent hmem, hrows⟩
  call hrid record origin hrecord hcall horigin :=
    hsent (h.call hrid record origin hrecord hcall horigin)

/-- The registries name the same recipients: the same calls are registered, and the same origins
bound to every RID and SID. -/
structure SameRecipients (s s' : ResponderState) : Prop where
  rids : s'.ridRegistry = s.ridRegistry
  list : ∀ t, s'.listRegistry.getOrigins t = s.listRegistry.getOrigins t
  subs : ∀ t, s'.subsRegistry.getOrigins t = s.subsRegistry.getOrigins t

theorem SameRecipients.trans {s₁ s₂ s₃ : ResponderState} (h : SameRecipients s₁ s₂)
    (h' : SameRecipients s₂ s₃) : SameRecipients s₁ s₃ where
  rids := h'.rids.trans h.rids
  list t := (h'.list t).trans (h.list t)
  subs t := (h'.subs t).trans (h.subs t)

theorem Delivers.congr {link : Link} {s s' : ResponderState} {rsp : DSAResponse}
    {sent : List (Routee × DSAResponse)} (hsame : SameRecipients s s')
    (h : Delivers link s' rsp sent) : Delivers link s rsp sent where
  row hrid row hrow sid hsid origin horigin := by
    rw [← hsame.subs] at horigin
    exact h.row hrid row hrow sid hsid origin horigin
  list hrid hlist origin horigin := by
    rw [← hsame.list] at horigin
    rw [← hsame.rids] at hlist
    exact h.list hrid hlist origin horigin
  call hrid record origin hrecord hcall horigin := by
    rw [← hsame.rids] at hrecord
    exact h.call hrid record origin hrecord hcall horigin

theorem Responds.sameRecipients {link : Link} {p p' : Processing} {rsp : DSAResponse}
    {results : List (Routee × DSAResponse)} (h : Responds link p rsp results p') :
    SameRecipients p.state p'.state where
  rids := h.ridRegistry
  list t := by
    cases h with
    | subscribe _ _ => rfl
    | list _ _ _ _ hdelivered =>
      subst hdelivered
      exact Bindings.getOrigins_put_setLastResponse ..
    | call _ _ _ _ => rfl
    | unknown _ _ => rfl
  subs t := by
    cases h with
    | subscribe _ hdelivered => exact (Bindings.bound_deliverRows hdelivered t).2
    | list _ _ _ _ _ => rfl
    | call _ _ _ _ => rfl
    | unknown _ _ => rfl

/-- What has been sent, and what is returned to be sent. -/
def Processing.outgoing (p : Processing) (results : List (Routee × DSAResponse)) :
    List (Routee × DSAResponse) :=
  p.sent.flatMap Delivery.each ++ results

theorem mem_of_mapM_eq_some {α β : Type} {f : α → Option β} {items : List α} {results : List β}
    (h : items.mapM f = some results) {a : α} (ha : a ∈ items) {b : β} (hb : f a = some b) :
    b ∈ results := by
  induction items generalizing results with
  | nil => cases ha
  | cons first rest ih =>
    rw [List.mapM_cons] at h
    obtain ⟨head, hhead, h⟩ := Option.bind_eq_some_iff.mp h
    obtain ⟨tail, htail, h⟩ := Option.bind_eq_some_iff.mp h
    cases h
    rcases List.mem_cons.mp ha with rfl | hrest
    · cases hhead.symm.trans hb
      exact List.mem_cons_self
    · exact List.mem_cons_of_mem head (ih htail hrest)

/-- The rows of a rid-0 response, each with every origin of its SID. -/
theorem mem_sent_of_row {b : Bindings} {rsp : DSAResponse} {delivered : Bindings.Delivered}
    (h : b.deliverSubscribeResponse rsp = some delivered) {row : DSAVal}
    (hrow : row ∈ rsp.updates.getD []) {sid : Int} (hsid : extractSid row = some sid)
    {origin : Origin} (horigin : origin ∈ b.getOrigins sid) :
    (origin.source, Bindings.subscribeResponse rsp row origin) ∈ delivered.sent := by
  have hrows := (Bindings.isSome_deliverRows_iff rsp b _).mp (Option.isSome_of_eq_some h)
  obtain ⟨_, hsame, hsent⟩ := Bindings.sent_deliverRows hrows b
  cases hsame.symm.trans h
  rw [hsent]
  refine List.mem_flatMap.mpr ⟨row, hrow, List.mem_map.mpr ⟨origin, ?_, rfl⟩⟩
  rw [Bindings.subscribers, hsid]
  exact horigin

/-- A response to a LIST call, for every origin of the call. -/
theorem mem_sent_of_list {b : Bindings} {rsp : DSAResponse} {origin : Origin}
    (horigin : origin ∈ b.getOrigins rsp.rid) :
    (origin.source, { rsp with rid := origin.sourceId }) ∈ (b.deliverListResponse rsp).sent := by
  rw [← Bindings.origins_getOrInsert] at horigin
  exact List.mem_map.mpr ⟨origin, horigin, rfl⟩

/-- **One response.**  What is well formed in it is on its way. -/
theorem Responds.delivers {link : Link} {p p' : Processing} {rsp : DSAResponse}
    {results : List (Routee × DSAResponse)} (h : Responds link p rsp results p') :
    Delivers link p.state rsp (p'.outgoing results) := by
  cases h with
  | subscribe hrid hdelivered =>
    refine ⟨?_, fun hne => absurd hrid hne, fun hne => absurd hrid hne⟩
    intro _ row hrow sid hsid origin horigin
    have hmem := mem_sent_of_row hdelivered hrow hsid horigin
    simp only [Processing.outgoing, List.flatMap_append, List.append_nil]
    exact List.mem_append_right _ (mem_each_groupByTarget.mpr hmem)
  | @list record path oldUpdates delivered hrid hrecord hlist hrows hdelivered =>
    refine ⟨fun hzero => absurd hzero hrid, ?_, ?_⟩
    · intro _ _ origin horigin
      refine ⟨oldUpdates ++ attributeRows p.state path, ?_, ?_⟩
      · simp only [Processing.outgoing, List.flatMap_append, flatMap_each_alone, List.append_nil]
        rw [hdelivered]
        exact List.mem_append_right _ (mem_sent_of_list horigin)
      · intro row hrow adjusted hadjusted
        exact List.mem_append_left _ (mem_of_mapM_eq_some hrows hrow hadjusted)
    · intro _ found origin hfound hcall
      cases hrecord.symm.trans hfound
      exact absurd hlist (hcall path)
  | call hrid hrecord hcall horigin =>
    refine ⟨fun hzero => absurd hzero hrid, ?_, ?_⟩
    · rintro _ ⟨found, path, hfound, hlist⟩
      cases hrecord.symm.trans hfound
      exact absurd hlist (hcall path)
    · intro _ found source hfound _ hsource
      cases hrecord.symm.trans hfound
      cases horigin.symm.trans hsource
      exact List.mem_append_right _ (List.mem_singleton.mpr rfl)
  | unknown hrid hnone =>
    refine ⟨fun hzero => absurd hzero hrid, ?_, ?_⟩
    · rintro _ ⟨found, path, hfound, hlist⟩
      exact absurd hlist ((hnone found hfound).1 path)
    · intro _ found origin hfound _ horigin
      rw [(hnone found hfound).2] at horigin
      cases horigin

theorem Processing.outgoing_mono {p p' : Processing} {before results : List (Routee × DSAResponse)}
    (h : p.sent ⊆ p'.sent) : p.outgoing before ⊆ p'.outgoing (before ++ results) := by
  intro sent hsent
  rcases List.mem_append.mp hsent with hsent | hsent
  · obtain ⟨d, hd, hsent⟩ := List.mem_flatMap.mp hsent
    exact List.mem_append_left _ (List.mem_flatMap.mpr ⟨d, h hd, hsent⟩)
  · exact List.mem_append_right _ (List.mem_append_left _ hsent)

theorem Responds.sent_subset {link : Link} {p p' : Processing} {rsp : DSAResponse}
    {results : List (Routee × DSAResponse)} (h : Responds link p rsp results p') :
    p.sent ⊆ p'.sent := by
  cases h with
  | subscribe _ _ => exact List.subset_append_left ..
  | list _ _ _ _ _ => exact List.subset_append_left ..
  | call _ _ _ _ => exact List.Subset.refl _
  | unknown _ _ => exact List.Subset.refl _

/-- A message that comes through delivers what is well formed in each of its responses. -/
theorem delivers_of_processResponses {link : Link} {s : ResponderState}
    {responses : List DSAResponse} {p : Processing} {results : List (Routee × DSAResponse)}
    (h : (processResponses link responses).run { state := s } = (.ok results, p)) :
    ∀ rsp ∈ responses, Delivers link s rsp (p.outgoing results) := by
  refine (processResponses_invariant (fun handled p results => SameRecipients s p.state ∧
    ∀ rsp ∈ handled, Delivers link s rsp (p.outgoing results)) ?_ ?_ h).2
  · rintro handled p rsp results p' before _ ⟨hsame, hbefore⟩ hresponds
    refine ⟨hsame.trans hresponds.sameRecipients, ?_⟩
    intro other hother
    rcases List.mem_append.mp hother with hold | hnew
    · exact (hbefore other hold).mono (Processing.outgoing_mono hresponds.sent_subset)
    · rw [List.mem_singleton.mp hnew]
      refine (hresponds.delivers.congr hsame).mono ?_
      intro sent hsent
      rcases List.mem_append.mp hsent with hsent | hsent
      · exact List.mem_append_left _ hsent
      · exact List.mem_append_right _ (List.mem_append_right _ hsent)
  · refine ⟨⟨rfl, fun _ => rfl, fun _ => rfl⟩, ?_⟩
    intro rsp hrsp
    cases hrsp

/-- **One message.**  When it has been received, what is well formed in it has been sent. -/
theorem delivers_of_receive [ScanOrder Int] {link : Link} {s : ResponderState}
    {responses : List DSAResponse} {outcome : Outcome}
    (h : receive link s (.responseMessage responses) = some outcome) :
    ∀ rsp ∈ responses, Delivers link s rsp (outcome.sent.flatMap Delivery.each) := by
  simp only [receive] at h
  split at h
  case h_1 results p hrun =>
    obtain ⟨later, -, rfl⟩ := Option.map_eq_some_iff.mp h
    intro rsp hrsp
    refine (delivers_of_processResponses hrun rsp hrsp).mono ?_
    intro sent hsent
    rw [List.flatMap_append, List.flatMap_append]
    refine List.mem_append_left _ ?_
    rcases List.mem_append.mp hsent with hsent | hsent
    · exact List.mem_append_left _ hsent
    · exact List.mem_append_right _ (mem_each_groupByTarget.mpr hsent)
  case h_2 => cases h

end DsaBroker
