import DsaBroker.WireFormat

/-!
# Reading what was written

Each format of the wire reads back what it wrote, as long as no string value begins with the
prefix of binary values; and then it does not.  The formats are put together from fields with
different keys, so this is settled field by field; what remains is that a request is found
again under its method, and a message by the keys that it has.
-/

namespace DsaBroker

/-! ### Where values occur -/

/-- No string value in the request begins with the prefix of binary values. -/
def DSARequest.Unreserved : DSARequest → Prop
  | .set _ _ value _ => value.Unreserved
  | .invoke _ _ params _ => ∀ param ∈ params, param.2.Unreserved
  | _ => True

def DSAResponse.Unreserved (response : DSAResponse) : Prop :=
  ∀ updates ∈ response.updates, ∀ row ∈ updates, row.Unreserved

def DSAMessage.Unreserved : DSAMessage → Prop
  | .request _ _ requests => ∀ request ∈ requests, request.Unreserved
  | .response _ _ responses => ∀ response ∈ responses, response.Unreserved
  | _ => True

/-! ### Fields -/

theorem ridField_exactOn : ridField.ExactOn fun _ => True :=
  ObjectFormat.field_exactOn intFormat_exactOn

theorem pathField_exactOn : pathField.ExactOn fun _ => True :=
  ObjectFormat.field_exactOn JsonFormat.string_exactOn

theorem textField_exactOn (key : Str) : (textField key).ExactOn fun _ => True := by
  have h : (textField key).ExactOn fun value => ∀ a ∈ value, True :=
    ObjectFormat.fieldNullable_exactOn JsonFormat.string_exactOn JsonFormat.string_neverNull
  exact h.congr (by simp)

theorem permitField_exactOn : permitField.ExactOn fun _ => True := textField_exactOn _

theorem optionalIntField_exactOn (key : Str) :
    (ObjectFormat.fieldNullable key intFormat).ExactOn fun _ => True := by
  have h := ObjectFormat.fieldNullable_exactOn (k := key) intFormat_exactOn
    (JsonFormat.number_neverNull _ _)
  exact h.congr (by simp)

/-- An empty map is not written, and what is not written is read as an empty map. -/
theorem paramsField_exactOn :
    paramsField.ExactOn fun params => ∀ param ∈ params, param.2.Unreserved := by
  intro params
  have hentries := JsonFormat.entries_exactOn dsaValueFormat_exactOn params
  by_cases h : params = []
  · subst h
    simp [paramsField, ObjectFormat.inmap, noneIfEmpty, emptyIfNone, ObjectFormat.fieldNullable,
      JsFields.get]
  · have hsome : noneIfEmpty params = some params := if_neg (by simpa using h)
    have hread : paramsField.reads (paramsField.writes params) =
        dsaValueFormat.entries.reads (dsaValueFormat.entries.writes params) := by
      simp only [paramsField, ObjectFormat.inmap, hsome]
      rw [ObjectFormat.reads_writes_fieldNullable (JsonFormat.entries_neverNull _)]
      rcases dsaValueFormat.entries.reads (dsaValueFormat.entries.writes params) with _ | value
      · rfl
      · rfl
    rw [hread]
    exact hentries

/-! ### Requests -/

theorem subscriptionPathFormat_exactOn : subscriptionPathFormat.ExactOn fun _ => True := by
  have hsid := ObjectFormat.field_exactOn (k := str "sid") intFormat_exactOn
  have hrest := ObjectFormat.and_exactOn hsid (optionalIntField_exactOn (str "qos")) (by decide)
  have hall := ObjectFormat.and_exactOn pathField_exactOn hrest (by decide)
  apply JsonFormat.ExactOn.congr (ObjectFormat.toJson_exactOn (ObjectFormat.inmap_exactOn hall
    (fun _ => rfl) fun _ => rfl))
  simp

theorem listRequestFormat_exactOn : listRequestFormat.ExactOn fun _ => True := by
  have h := ObjectFormat.and_exactOn ridField_exactOn pathField_exactOn (by decide)
  exact h.congr (by simp)

theorem setRequestFormat_exactOn : setRequestFormat.ExactOn fun p => p.2.2.1.Unreserved := by
  have hvalue := ObjectFormat.field_exactOn (k := str "value") dsaValueFormat_exactOn
  have hpermit := ObjectFormat.and_exactOn hvalue permitField_exactOn (by decide)
  have hpath := ObjectFormat.and_exactOn pathField_exactOn hpermit (by decide)
  have hall := ObjectFormat.and_exactOn ridField_exactOn hpath (by decide)
  exact hall.congr (by simp)

theorem invokeRequestFormat_exactOn :
    invokeRequestFormat.ExactOn fun p => ∀ param ∈ p.2.2.1, param.2.Unreserved := by
  have hpermit := ObjectFormat.and_exactOn paramsField_exactOn permitField_exactOn (by decide)
  have hpath := ObjectFormat.and_exactOn pathField_exactOn hpermit (by decide)
  have hall := ObjectFormat.and_exactOn ridField_exactOn hpath (by decide)
  exact hall.congr (by simp)

theorem subscribeRequestFormat_exactOn : subscribeRequestFormat.ExactOn fun _ => True := by
  have hpaths := ObjectFormat.field_exactOn (k := str "paths")
    (JsonFormat.list_exactOn subscriptionPathFormat_exactOn)
  have hall := ObjectFormat.and_exactOn ridField_exactOn hpaths (by decide)
  exact hall.congr (by simp)

theorem unsubscribeRequestFormat_exactOn : unsubscribeRequestFormat.ExactOn fun _ => True := by
  have hsids := ObjectFormat.field_exactOn (k := str "sids")
    (JsonFormat.list_exactOn intFormat_exactOn)
  have hall := ObjectFormat.and_exactOn ridField_exactOn hsids (by decide)
  exact hall.congr (by simp)

theorem dsaMethodFormat_exactOn : dsaMethodFormat.ExactOn fun _ => True := by
  apply enumFormat_exactOn
  · intro method
    cases method <;> decide
  · intro method method' h
    cases method <;> cases method' <;> first | rfl | exact absurd h (by decide)

theorem get_rid_fields (req : DSARequest) : (req.fields.get (str "rid")).isSome := by
  cases req <;> rfl

/-- The base of a request has nothing that its own fields would not replace, except for the
method, which no format of a request reads. -/
theorem reads_merge_baseJson {α : Type} (F : WireFields α) (req : DSARequest)
    (hmethod : str "method" ∉ F.keys) :
    F.reads ((baseJson req).merge req.fields) = F.reads req.fields := by
  apply F.reads_congr
  intro k hk
  rw [JsFields.get_merge]
  by_cases hrid : k = str "rid"
  · obtain ⟨json, hjson⟩ := Option.isSome_iff_exists.mp (get_rid_fields req)
    rw [hrid, hjson, Option.some_or]
  · have hne : k ≠ str "method" := fun h => hmethod (h ▸ hk)
    have hbase : (baseJson req).get k = none := by
      apply JsFields.get_eq_none_of_forall
      intro field hfield
      simp only [baseJson, List.mem_cons, List.not_mem_nil, or_false] at hfield
      rcases hfield with rfl | rfl
      · exact Ne.symm hrid
      · exact Ne.symm hne
    rw [hbase, Option.or_none]

theorem get_method_fields (req : DSARequest) : req.fields.get (str "method") = none := by
  cases req with
  | list rid path => exact listRequestFormat.get_writes_eq_none _ (by decide)
  | set rid path value permit => exact setRequestFormat.get_writes_eq_none _ (by decide)
  | remove rid path => exact removeRequestFormat.get_writes_eq_none _ (by decide)
  | invoke rid path params permit => exact invokeRequestFormat.get_writes_eq_none _ (by decide)
  | subscribe rid paths => exact subscribeRequestFormat.get_writes_eq_none _ (by decide)
  | unsubscribe rid sids => exact unsubscribeRequestFormat.get_writes_eq_none _ (by decide)
  | close rid => exact closeRequestFormat.get_writes_eq_none _ (by decide)

theorem readsRequest_merge (req : DSARequest) :
    readsRequest ((baseJson req).merge req.fields) req.method =
      readsRequest req.fields req.method := by
  cases req with
  | list rid path =>
    simp only [DSARequest.method, readsRequest]
    rw [reads_merge_baseJson listRequestFormat _ (by decide)]
  | set rid path value permit =>
    simp only [DSARequest.method, readsRequest]
    rw [reads_merge_baseJson setRequestFormat _ (by decide)]
  | remove rid path =>
    simp only [DSARequest.method, readsRequest]
    rw [reads_merge_baseJson removeRequestFormat _ (by decide)]
  | invoke rid path params permit =>
    simp only [DSARequest.method, readsRequest]
    rw [reads_merge_baseJson invokeRequestFormat _ (by decide)]
  | subscribe rid paths =>
    simp only [DSARequest.method, readsRequest]
    rw [reads_merge_baseJson subscribeRequestFormat _ (by decide)]
  | unsubscribe rid sids =>
    simp only [DSARequest.method, readsRequest]
    rw [reads_merge_baseJson unsubscribeRequestFormat _ (by decide)]
  | close rid =>
    simp only [DSARequest.method, readsRequest]
    rw [reads_merge_baseJson closeRequestFormat _ (by decide)]

/-- A value made from what was read is the one that was written just when the parts are. -/
theorem map_reads_iff {α β : Type} {F : WireFields α} {good : α → Prop} (h : F.ExactOn good)
    {f : α → β} (hf : Function.Injective f) (a : α) :
    (F.reads (F.writes a)).map f = some (f a) ↔ good a := by
  rw [← h a, ← (Option.map_injective hf).eq_iff, Option.map_some]

theorem readsRequest_fields_iff (req : DSARequest) :
    readsRequest req.fields req.method = some req ↔ req.Unreserved := by
  cases req with
  -- the format of the fields is exact on them; the constructor puts them together injectively
  | list rid path =>
    refine map_reads_iff listRequestFormat_exactOn
      (f := fun p => DSARequest.list p.1 p.2) ?_ (rid, path)
    intro p q h
    simpa [Prod.ext_iff] using h
  | set rid path value permit =>
    refine map_reads_iff setRequestFormat_exactOn
      (f := fun p => DSARequest.set p.1 p.2.1 p.2.2.1 p.2.2.2) ?_ (rid, path, value, permit)
    intro p q h
    simpa [Prod.ext_iff] using h
  | remove rid path =>
    refine map_reads_iff listRequestFormat_exactOn
      (f := fun p => DSARequest.remove p.1 p.2) ?_ (rid, path)
    intro p q h
    simpa [Prod.ext_iff] using h
  | invoke rid path params permit =>
    refine map_reads_iff invokeRequestFormat_exactOn
      (f := fun p => DSARequest.invoke p.1 p.2.1 p.2.2.1 p.2.2.2) ?_ (rid, path, params, permit)
    intro p q h
    simpa [Prod.ext_iff] using h
  | subscribe rid paths =>
    refine map_reads_iff subscribeRequestFormat_exactOn
      (f := fun p => DSARequest.subscribe p.1 p.2) ?_ (rid, paths)
    intro p q h
    simpa [Prod.ext_iff] using h
  | unsubscribe rid sids =>
    refine map_reads_iff unsubscribeRequestFormat_exactOn
      (f := fun p => DSARequest.unsubscribe p.1 p.2) ?_ (rid, sids)
    intro p q h
    simpa [Prod.ext_iff] using h
  | close rid =>
    refine map_reads_iff ridField_exactOn (f := fun p => DSARequest.close p) ?_ rid
    intro p q h
    simpa [Prod.ext_iff] using h

theorem dsaRequestFormat_exactOn : dsaRequestFormat.ExactOn DSARequest.Unreserved := by
  intro req
  have hmethod : ((baseJson req).merge req.fields).get (str "method") =
      some (dsaMethodFormat.writes req.method) := by
    rw [JsFields.get_merge, get_method_fields, Option.none_or]
    rfl
  have hread : dsaRequestFormat.reads (dsaRequestFormat.writes req) =
      readsRequest req.fields req.method := by
    simp only [dsaRequestFormat, hmethod, Option.bind_eq_bind, Option.bind_some,
      (dsaMethodFormat_exactOn req.method).mpr trivial]
    exact readsRequest_merge req
  rw [hread, readsRequest_fields_iff]

/-! ### Responses -/

theorem streamStateFormat_exactOn : streamStateFormat.ExactOn fun _ => True := by
  apply enumFormat_exactOn
  · intro state
    cases state <;> decide
  · intro state state' h
    cases state <;> cases state' <;> first | rfl | exact absurd h (by decide)

theorem dsaErrorFormat_exactOn : dsaErrorFormat.ExactOn fun _ => True := by
  have h₄ := ObjectFormat.and_exactOn (textField_exactOn (str "path"))
    (textField_exactOn (str "detail")) (by decide)
  have h₃ := ObjectFormat.and_exactOn (textField_exactOn (str "phase")) h₄ (by decide)
  have h₂ := ObjectFormat.and_exactOn (textField_exactOn (str "type")) h₃ (by decide)
  have h₁ := ObjectFormat.and_exactOn (textField_exactOn (str "msg")) h₂ (by decide)
  apply JsonFormat.ExactOn.congr (ObjectFormat.toJson_exactOn (ObjectFormat.inmap_exactOn h₁
    (fun _ => rfl) fun _ => rfl))
  simp

theorem columnInfoFormat_exactOn : columnInfoFormat.ExactOn fun _ => True := by
  have hname := ObjectFormat.field_exactOn (k := str "name")
    (JsonFormat.string_exactOn : (JsonFormat.string : WireFormat Str).ExactOn _)
  have htype := ObjectFormat.field_exactOn (k := str "type")
    (JsonFormat.string_exactOn : (JsonFormat.string : WireFormat Str).ExactOn _)
  have hall := ObjectFormat.and_exactOn hname htype (by decide)
  apply JsonFormat.ExactOn.congr (ObjectFormat.toJson_exactOn (ObjectFormat.inmap_exactOn hall
    (fun _ => rfl) fun _ => rfl))
  simp

theorem dsaResponseFormat_exactOn : dsaResponseFormat.ExactOn DSAResponse.Unreserved := by
  have herror := ObjectFormat.fieldNullable_exactOn (k := str "error") dsaErrorFormat_exactOn
    (ObjectFormat.toJson_neverNull _)
  have hcolumns := ObjectFormat.fieldNullable_exactOn (k := str "columns")
    (JsonFormat.list_exactOn columnInfoFormat_exactOn) (JsonFormat.list_neverNull _)
  have hupdates := ObjectFormat.fieldNullable_exactOn (k := str "updates")
    (JsonFormat.list_exactOn dsaValueFormat_exactOn) (JsonFormat.list_neverNull _)
  have hstream := ObjectFormat.fieldNullable_exactOn (k := str "stream") streamStateFormat_exactOn
    (JsonFormat.named_neverNull _ _)
  have h₄ := ObjectFormat.and_exactOn hcolumns herror (by decide)
  have h₃ := ObjectFormat.and_exactOn hupdates h₄ (by decide)
  have h₂ := ObjectFormat.and_exactOn hstream h₃ (by decide)
  have h₁ := ObjectFormat.and_exactOn ridField_exactOn h₂ (by decide)
  apply JsonFormat.ExactOn.congr (ObjectFormat.toJson_exactOn (ObjectFormat.inmap_exactOn h₁
    (fun _ => rfl) fun _ => rfl))
  intro response
  simp [DSAResponse.Unreserved]

/-! ### Messages -/

theorem msgField_exactOn : msgField.ExactOn fun _ => True :=
  ObjectFormat.field_exactOn intFormat_exactOn

theorem ackField_exactOn : ackField.ExactOn fun _ => True := optionalIntField_exactOn _

theorem allowedMessageFormat_exactOn : allowedMessageFormat.ExactOn fun _ => True := by
  have hallowed := ObjectFormat.field_exactOn (k := str "allowed")
    (JsonFormat.boolean_exactOn : (JsonFormat.boolean : WireFormat Bool).ExactOn _)
  have hsalt := ObjectFormat.field_exactOn (k := str "salt") intFormat_exactOn
  exact (ObjectFormat.and_exactOn hallowed hsalt (by decide)).congr (by simp)

theorem pingMessageFormat_exactOn : pingMessageFormat.ExactOn fun _ => True :=
  (ObjectFormat.and_exactOn msgField_exactOn ackField_exactOn (by decide)).congr (by simp)

theorem pongMessageFormat_exactOn : pongMessageFormat.ExactOn fun _ => True :=
  ObjectFormat.field_exactOn intFormat_exactOn

theorem requestMessageFormat_exactOn :
    requestMessageFormat.ExactOn fun p => ∀ request ∈ p.2.2, request.Unreserved := by
  have hrequests := ObjectFormat.field_exactOn (k := str "requests")
    (JsonFormat.list_exactOn dsaRequestFormat_exactOn)
  have hack := ObjectFormat.and_exactOn ackField_exactOn hrequests (by decide)
  exact (ObjectFormat.and_exactOn msgField_exactOn hack (by decide)).congr (by simp)

theorem responseMessageFormat_exactOn :
    responseMessageFormat.ExactOn fun p => ∀ response ∈ p.2.2, response.Unreserved := by
  have hresponses := ObjectFormat.field_exactOn (k := str "responses")
    (JsonFormat.list_exactOn dsaResponseFormat_exactOn)
  have hack := ObjectFormat.and_exactOn ackField_exactOn hresponses (by decide)
  exact (ObjectFormat.and_exactOn msgField_exactOn hack (by decide)).congr (by simp)

/-- A field that is not written is not found. -/
theorem not_isSome_get {α : Type} (F : WireFields α) (a : α) {k : Str} (h : k ∉ F.keys) :
    ¬((F.writes a).get k).isSome := by
  rw [F.get_writes_eq_none a h]
  exact Bool.false_ne_true

/-- A message comes back just when no string value in it begins with the prefix of binary
values. -/
theorem wireRoundTrip_iff (m : DSAMessage) :
    dsaMessageFormat.reads (dsaMessageFormat.writes m) = some m ↔ m.Unreserved := by
  cases m with
  | empty => simp [dsaMessageFormat, DSAMessage.Unreserved]
  | allowed allowed salt =>
    -- the kinds are tried in a fixed order, and told by a key that only the right one has
    have hne : ¬List.isEmpty (allowedMessageFormat.writes (allowed, salt)) = true :=
      Bool.false_ne_true
    have hallowed : ((allowedMessageFormat.writes (allowed, salt)).get
        (str "allowed")).isSome := rfl
    simp only [dsaMessageFormat]
    rw [if_neg hne, if_pos hallowed]
    refine map_reads_iff allowedMessageFormat_exactOn
      (f := fun p => DSAMessage.allowed p.1 p.2) ?_ (allowed, salt)
    intro p q h
    simpa [Prod.ext_iff] using h
  | ping msg ack =>
    have hne : ¬List.isEmpty (pingMessageFormat.writes (msg, ack)) = true := Bool.false_ne_true
    have hmsg : ((pingMessageFormat.writes (msg, ack)).get (str "msg")).isSome := rfl
    simp only [dsaMessageFormat]
    rw [if_neg hne, if_neg (not_isSome_get pingMessageFormat _ (by decide)),
      if_neg (not_isSome_get pingMessageFormat _ (by decide)),
      if_neg (not_isSome_get pingMessageFormat _ (by decide)), if_pos hmsg]
    refine map_reads_iff pingMessageFormat_exactOn
      (f := fun p => DSAMessage.ping p.1 p.2) ?_ (msg, ack)
    intro p q h
    simpa [Prod.ext_iff] using h
  | pong ack =>
    have hne : ¬List.isEmpty (pongMessageFormat.writes ack) = true := Bool.false_ne_true
    have hack : ((pongMessageFormat.writes ack).get (str "ack")).isSome := rfl
    simp only [dsaMessageFormat]
    rw [if_neg hne, if_neg (not_isSome_get pongMessageFormat _ (by decide)),
      if_neg (not_isSome_get pongMessageFormat _ (by decide)),
      if_neg (not_isSome_get pongMessageFormat _ (by decide)),
      if_neg (not_isSome_get pongMessageFormat _ (by decide)), if_pos hack]
    refine map_reads_iff pongMessageFormat_exactOn (f := DSAMessage.pong) ?_ ack
    intro p q h
    simpa using h
  | request msg ack requests =>
    have hrequests : ((requestMessageFormat.writes (msg, ack, requests)).get
        (str "requests")).isSome := by
      cases ack <;> rfl
    have hne : ¬List.isEmpty (requestMessageFormat.writes (msg, ack, requests)) = true :=
      Bool.false_ne_true
    simp only [dsaMessageFormat]
    rw [if_neg hne, if_neg (not_isSome_get requestMessageFormat _ (by decide)),
      if_pos hrequests]
    refine map_reads_iff requestMessageFormat_exactOn
      (f := fun p => DSAMessage.request p.1 p.2.1 p.2.2) ?_ (msg, ack, requests)
    intro p q h
    simpa [Prod.ext_iff] using h
  | response msg ack responses =>
    have hresponses : ((responseMessageFormat.writes (msg, ack, responses)).get
        (str "responses")).isSome := by
      cases ack <;> rfl
    have hne : ¬List.isEmpty (responseMessageFormat.writes (msg, ack, responses)) = true :=
      Bool.false_ne_true
    simp only [dsaMessageFormat]
    rw [if_neg hne, if_neg (not_isSome_get responseMessageFormat _ (by decide)),
      if_neg (not_isSome_get responseMessageFormat _ (by decide)), if_pos hresponses]
    refine map_reads_iff responseMessageFormat_exactOn
      (f := fun p => DSAMessage.response p.1 p.2.1 p.2.2) ?_ (msg, ack, responses)
    intro p q h
    simpa [Prod.ext_iff] using h

/-- A text that reads like a binary value arrives as one. -/
theorem text_becomes_binary :
    ¬∀ m : DSAMessage, dsaMessageFormat.reads (dsaMessageFormat.writes m) = some m := by
  intro h
  have hset := h (.request 1 none
    [.set 1 (str "/data/note") (.string (BinaryPrefix ++ str "aGk=")) none])
  exact absurd hset (by decide +kernel)

end DsaBroker
