import DsaBroker.JsonAgreement
import DsaBroker.MsgpackRoundTrip

/-!
# Messages over a binary socket

A client may ask for msgpack in place of JSON text.  The broker reads the same messages then
(`binary_agrees`): a JSON value that is packed and unpacked is refused as a message just when it
would have been refused as it was, and otherwise read as the same message.  Same is what Scala calls
equal, for which maps have no order.
-/

namespace DsaBroker

/-! ### Equal as Scala compares -/

mutual

/-- `==`, which does not look at the order of a map. -/
def DSAVal.Same : DSAVal → DSAVal → Prop
  | .map value, other =>
      ∃ between value', other = .map value' ∧ DSAVal.SameFields value between ∧
        between.Perm value'
  | .array value, other => ∃ value', other = .array value' ∧ DSAVal.SameItems value value'
  | v, other => other = v

def DSAVal.SameFields : List (Str × DSAVal) → List (Str × DSAVal) → Prop
  | [], other => other = []
  | (k, v) :: rest, other =>
      ∃ v' rest', other = (k, v') :: rest' ∧ DSAVal.Same v v' ∧ DSAVal.SameFields rest rest'

def DSAVal.SameItems : List DSAVal → List DSAVal → Prop
  | [], other => other = []
  | v :: rest, other =>
      ∃ v' rest', other = v' :: rest' ∧ DSAVal.Same v v' ∧ DSAVal.SameItems rest rest'

end

def DSAMap.Same : DSAMap → DSAMap → Prop := SameEntries DSAVal.Same

def DSARequest.Same : DSARequest → DSARequest → Prop
  | .set rid path value permit, other =>
      ∃ value', other = .set rid path value' permit ∧ value.Same value'
  | .invoke rid path params permit, other =>
      ∃ params', other = .invoke rid path params' permit ∧ params.Same params'
  | request, other => other = request

structure DSAResponse.Same (response other : DSAResponse) : Prop where
  rid : other.rid = response.rid
  stream : other.stream = response.stream
  updates : Option.Rel (List.Forall₂ DSAVal.Same) response.updates other.updates
  columns : other.columns = response.columns
  error : other.error = response.error

def DSAMessage.Same : DSAMessage → DSAMessage → Prop
  | .request msg ack requests, other =>
      ∃ requests', other = .request msg ack requests' ∧
        List.Forall₂ DSARequest.Same requests requests'
  | .response msg ack responses, other =>
      ∃ responses', other = .response msg ack responses' ∧
        List.Forall₂ DSAResponse.Same responses responses'
  | message, other => other = message

theorem sameFields_iff {fields fields' : List (Str × DSAVal)} :
    DSAVal.SameFields fields fields' ↔
      List.Forall₂ (fun e e' => e'.1 = e.1 ∧ e.2.Same e'.2) fields fields' := by
  induction fields generalizing fields' with
  | nil => rw [DSAVal.SameFields, List.forall₂_nil_left_iff]
  | cons field rest ih =>
    obtain ⟨k, v⟩ := field
    rw [DSAVal.SameFields, List.forall₂_cons_left_iff]
    constructor
    · rintro ⟨v', rest', rfl, hv, hrest⟩
      exact ⟨(k, v'), rest', ⟨rfl, hv⟩, ih.mp hrest, rfl⟩
    · rintro ⟨⟨k', v'⟩, rest', ⟨rfl, hv⟩, hrest, rfl⟩
      exact ⟨v', rest', rfl, hv, ih.mpr hrest⟩

theorem sameItems_iff {items items' : List DSAVal} :
    DSAVal.SameItems items items' ↔ List.Forall₂ DSAVal.Same items items' := by
  induction items generalizing items' with
  | nil => rw [DSAVal.SameItems, List.forall₂_nil_left_iff]
  | cons v rest ih =>
    rw [DSAVal.SameItems, List.forall₂_cons_left_iff]
    constructor
    · rintro ⟨v', rest', rfl, hv, hrest⟩
      exact ⟨v', rest', hv, ih.mp hrest, rfl⟩
    · rintro ⟨v', rest', hv, hrest, rfl⟩
      exact ⟨v', rest', rfl, hv, ih.mpr hrest⟩

/-! ### Values that were packed -/

/-- A value that Java holds, and what can arrive in its place. -/
def Arrives (v v' : Json) : Prop := Fits v ∧ Alike v v'

theorem arrives_items : ∀ {items items' : List Json}, FitItems items → AlikeItems items items' →
    List.Forall₂ Arrives items items'
  | [], _, _, h => by
      rw [show _ = [] from h]
      exact .nil
  | item :: rest, _, hfits, h => by
      obtain ⟨item', rest', rfl, hitem, hrest⟩ := h
      exact .cons ⟨hfits.1, hitem⟩ (arrives_items hfits.2 hrest)

theorem arrives_fields : ∀ {fields fields' : List (Str × Json)}, FitFields fields →
    AlikeFields fields fields' →
      List.Forall₂ (fun e e' => e'.1 = e.1 ∧ Arrives e.2 e'.2) fields fields'
  | [], _, _, h => by
      rw [show _ = [] from h]
      exact .nil
  | (key, value) :: rest, _, hfits, h => by
      obtain ⟨value', rest', rfl, hvalue, hrest⟩ := h
      exact .cons ⟨rfl, hfits.2.1, hvalue⟩ (arrives_fields hfits.2.2 hrest)

theorem bisimulation_arrives : JsValue.Bisimulation Arrives := by
  rintro v v' ⟨hfits, halike⟩
  cases v with
  | array items =>
    obtain ⟨items', rfl, hitems⟩ := halike
    exact ⟨items', rfl, arrives_items hfits.2 hitems⟩
  | object fields =>
    obtain ⟨fields', entries, rfl, hfields, hperm⟩ := halike
    exact ⟨hfits.2.1, entries, rfl, fields', arrives_fields hfits.2.2 hfields, hperm⟩
  | null | boolean | number | string => exact halike

theorem jsonMapToValues_eq_mapM (fields : List (Str × Json)) :
    jsonMapToValues fields = fields.mapM fun field => (json2dsa field.2).map fun v => (field.1, v)
    := by
  induction fields with
  | nil => rfl
  | cons field rest ih =>
    obtain ⟨k, json⟩ := field
    rw [jsonMapToValues, List.mapM_cons, ih]
    rcases json2dsa json with _ | v
    · rfl
    · rfl

mutual

theorem json2dsa_alike : ∀ {v v' : Json}, Alike v v' →
    Option.Rel DSAVal.Same (json2dsa v) (json2dsa v')
  | .null, _, h => by
      rw [show _ = JsValue.null from h]
      exact .some rfl
  | .boolean value, _, h => by
      rw [show _ = JsValue.boolean value from h]
      exact .some rfl
  | .number value, _, h => by
      rw [show _ = JsValue.number value from h]
      exact .some rfl
  | .string value, _, h => by
      rw [show _ = JsValue.string value from h, json2dsa]
      split_ifs
      · rcases stringToBinary value with _ | data
        · exact .none
        · exact .some rfl
      · exact .some rfl
  | .array items, _, h => by
      obtain ⟨items', rfl, hitems⟩ := h
      rw [json2dsa, json2dsa]
      exact rel_map (jsonListToValues_alike hitems) fun _ _ hsame =>
        ⟨_, rfl, sameItems_iff.mpr hsame⟩
  | .object fields, _, h => by
      obtain ⟨fields', entries, rfl, hfields, hperm⟩ := h
      have hread := jsonMapToValues_alike hfields
      have horder := rel_mapM_perm (f := fun field : Str × Json =>
        (json2dsa field.2).map fun v => (field.1, v)) hperm
      rw [← jsonMapToValues_eq_mapM, ← jsonMapToValues_eq_mapM] at horder
      rw [json2dsa, json2dsa]
      apply rel_map (rel_trans hread horder fun values between values' hsame hperm' =>
        (⟨between, hsame, hperm'⟩ : DSAMap.Same values values'))
      rintro values values' ⟨between, hsame, hperm'⟩
      exact ⟨between, values', rfl, sameFields_iff.mpr hsame, hperm'⟩

theorem jsonMapToValues_alike : ∀ {fields fields' : List (Str × Json)},
    AlikeFields fields fields' →
      Option.Rel (List.Forall₂ fun e e' => e'.1 = e.1 ∧ e.2.Same e'.2)
        (jsonMapToValues fields) (jsonMapToValues fields')
  | [], _, h => by
      rw [show _ = [] from h]
      exact .some .nil
  | (key, value) :: rest, _, h => by
      obtain ⟨value', rest', rfl, hvalue, hrest⟩ := h
      rw [jsonMapToValues, jsonMapToValues]
      exact rel_bind (json2dsa_alike hvalue) fun v v' hv =>
        rel_bind (jsonMapToValues_alike hrest) fun more more' hmore => .some (.cons ⟨rfl, hv⟩ hmore)

theorem jsonListToValues_alike : ∀ {items items' : List Json}, AlikeItems items items' →
    Option.Rel (List.Forall₂ DSAVal.Same) (jsonListToValues items) (jsonListToValues items')
  | [], _, h => by
      rw [show _ = [] from h]
      exact .some .nil
  | item :: rest, _, h => by
      obtain ⟨item', rest', rfl, hitem, hrest⟩ := h
      rw [jsonListToValues, jsonListToValues]
      exact rel_bind (json2dsa_alike hitem) fun v v' hv =>
        rel_bind (jsonListToValues_alike hrest) fun more more' hmore => .some (.cons hv hmore)

end

theorem dsaValueFormat_respects : dsaValueFormat.Respects Arrives DSAVal.Same :=
  fun _ _ h => json2dsa_alike h.2

/-! ### Requests -/

section Formats

open ObjectFormat JsonFormat

theorem text_respects : (string : WireFormat Str).Respects Arrives Eq :=
  string_respects bisimulation_arrives

theorem intFormat_respects : intFormat.Respects Arrives Eq :=
  number_respects bisimulation_arrives _ _

theorem optionalInt_respects (key : Str) :
    (fieldNullable key intFormat).Respects Arrives (Option.Rel Eq) :=
  fieldNullable_respects bisimulation_arrives intFormat_respects key

theorem ridField_respects : ridField.Respects Arrives Eq := field_respects intFormat_respects _

theorem pathField_respects : pathField.Respects Arrives Eq := field_respects text_respects _

theorem textField_respects (key : Str) : (textField key).Respects Arrives (Option.Rel Eq) :=
  fieldNullable_respects bisimulation_arrives text_respects key

theorem paramsField_respects : paramsField.Respects Arrives DSAMap.Same := by
  have hentries := entries_respects bisimulation_arrives dsaValueFormat_respects
  apply inmap_respects (fieldNullable_respects bisimulation_arrives hentries _)
  intro params params' h
  rcases h with hsame | _
  · exact hsame
  · exact ⟨[], .nil, List.Perm.refl _⟩

theorem subscriptionPathFormat_respects : subscriptionPathFormat.Respects Arrives Eq := by
  apply toJson_respects bisimulation_arrives
  apply inmap_respects (and_respects pathField_respects (and_respects
    (field_respects intFormat_respects (str "sid")) (optionalInt_respects (str "qos"))))
  rintro ⟨path, sid, qos⟩ ⟨path', sid', qos'⟩ ⟨hpath, hsid, hqos⟩
  obtain rfl : path = path' := hpath
  obtain rfl : sid = sid' := hsid
  obtain rfl := rel_eq.mp hqos
  rfl

/-- The fields of a request of any method can be read before and after the way through msgpack
alike, up to the values that arrive. -/
theorem readsRequest_respects (method : DSAMethod) {fields fields' : JsFields Str Rat}
    (h : JsFields.Alike Arrives fields fields') :
    Option.Rel DSARequest.Same (readsRequest fields method) (readsRequest fields' method) := by
  -- fields that respect arrival are put together, where all but values must be equal
  cases method with
  | list =>
    apply rel_map (and_respects ridField_respects pathField_respects _ _ h)
    rintro ⟨rid, path⟩ _ ⟨rfl, rfl⟩
    rfl
  | set =>
    apply rel_map (and_respects ridField_respects (and_respects pathField_respects (and_respects
      (field_respects dsaValueFormat_respects _) (textField_respects _))) _ _ h)
    rintro ⟨rid, path, value, permit⟩ ⟨rid', path', value', permit'⟩ ⟨hrid, hpath, hvalue, hpermit⟩
    obtain rfl : rid = rid' := hrid
    obtain rfl : path = path' := hpath
    obtain rfl := rel_eq.mp hpermit
    exact ⟨value', rfl, hvalue⟩
  | remove =>
    apply rel_map (and_respects ridField_respects pathField_respects _ _ h)
    rintro ⟨rid, path⟩ _ ⟨rfl, rfl⟩
    rfl
  | invoke =>
    apply rel_map (and_respects ridField_respects (and_respects pathField_respects (and_respects
      paramsField_respects (textField_respects _))) _ _ h)
    rintro ⟨rid, path, params, permit⟩ ⟨rid', path', params', permit'⟩
      ⟨hrid, hpath, hparams, hpermit⟩
    obtain rfl : rid = rid' := hrid
    obtain rfl : path = path' := hpath
    obtain rfl := rel_eq.mp hpermit
    exact ⟨params', rfl, hparams⟩
  | subscribe =>
    apply rel_map (and_respects ridField_respects (field_respects
      (list_respects bisimulation_arrives subscriptionPathFormat_respects) _) _ _ h)
    rintro ⟨rid, paths⟩ ⟨rid', paths'⟩ ⟨hrid, hpaths⟩
    obtain rfl : rid = rid' := hrid
    obtain rfl := List.forall₂_eq_eq_eq ▸ hpaths
    rfl
  | unsubscribe =>
    apply rel_map (and_respects ridField_respects (field_respects
      (list_respects bisimulation_arrives intFormat_respects) _) _ _ h)
    rintro ⟨rid, sids⟩ ⟨rid', sids'⟩ ⟨hrid, hsids⟩
    obtain rfl : rid = rid' := hrid
    obtain rfl := List.forall₂_eq_eq_eq ▸ hsids
    rfl
  | close =>
    apply rel_map (ridField_respects _ _ h)
    rintro rid _ rfl
    rfl

theorem dsaRequestFormat_respects : dsaRequestFormat.Respects Arrives DSARequest.Same := by
  have hnone : ∀ v : Json, (∀ fields, v ≠ .object fields) → dsaRequestFormat.reads v = none := by
    intro v hv
    cases v with
    | object fields => exact absurd rfl (hv fields)
    | _ => rfl
  have hmethod : dsaMethodFormat.Respects Arrives Eq := named_respects bisimulation_arrives _ _
  intro v v' hv
  rcases bisimulation_arrives.object_cases hv with ⟨fields, fields', rfl, rfl, h⟩ | ⟨hnot, hnot'⟩
  · apply rel_bind (h.rel_get (str "method"))
    intro json json' hjson
    apply rel_bind (hmethod json json' hjson)
    rintro method _ rfl
    exact readsRequest_respects method h
  · rw [hnone v hnot, hnone v' hnot']
    exact .none

/-! ### Responses -/

theorem dsaErrorFormat_respects : dsaErrorFormat.Respects Arrives Eq := by
  apply toJson_respects bisimulation_arrives
  apply inmap_respects (and_respects (textField_respects _) (and_respects (textField_respects _)
    (and_respects (textField_respects _) (and_respects (textField_respects _)
      (textField_respects _)))))
  rintro ⟨msg, errType, phase, path, detail⟩ ⟨msg', errType', phase', path', detail'⟩
    ⟨hmsg, herrType, hphase, hpath, hdetail⟩
  obtain rfl := rel_eq.mp hmsg
  obtain rfl := rel_eq.mp herrType
  obtain rfl := rel_eq.mp hphase
  obtain rfl := rel_eq.mp hpath
  obtain rfl := rel_eq.mp hdetail
  rfl

theorem columnInfoFormat_respects : columnInfoFormat.Respects Arrives Eq := by
  apply toJson_respects bisimulation_arrives
  apply inmap_respects (and_respects (field_respects text_respects _)
    (field_respects text_respects _))
  rintro ⟨colName, colType⟩ _ ⟨rfl, rfl⟩
  rfl

theorem dsaResponseFormat_respects : dsaResponseFormat.Respects Arrives DSAResponse.Same := by
  have hstream : streamStateFormat.Respects Arrives Eq := named_respects bisimulation_arrives _ _
  have hupdates := list_respects bisimulation_arrives dsaValueFormat_respects
  have hcolumns := list_respects bisimulation_arrives columnInfoFormat_respects
  apply toJson_respects bisimulation_arrives
  apply inmap_respects (and_respects ridField_respects (and_respects
    (fieldNullable_respects bisimulation_arrives hstream _) (and_respects
      (fieldNullable_respects bisimulation_arrives hupdates _) (and_respects
        (fieldNullable_respects bisimulation_arrives hcolumns _)
        (fieldNullable_respects bisimulation_arrives dsaErrorFormat_respects _)))))
  rintro ⟨rid, stream, updates, columns, error⟩ ⟨rid', stream', updates', columns', error'⟩
    ⟨hrid, hstream, hupdates, hcolumns, herror⟩
  rw [List.forall₂_eq_eq_eq] at hcolumns
  exact ⟨Eq.symm hrid, rel_eq.mp hstream, hupdates, rel_eq.mp hcolumns, rel_eq.mp herror⟩

/-! ### Messages -/

theorem dsaMessageFormat_respects : dsaMessageFormat.Respects Arrives DSAMessage.Same := by
  have hnone : ∀ v : Json, (∀ fields, v ≠ .object fields) → dsaMessageFormat.reads v = none := by
    intro v hv
    cases v with
    | object fields => exact absurd rfl (hv fields)
    | _ => rfl
  have hmsg : msgField.Respects Arrives Eq := field_respects intFormat_respects _
  have hack : ackField.Respects Arrives (Option.Rel Eq) := optionalInt_respects _
  intro v v' hv
  rcases bisimulation_arrives.object_cases hv with ⟨fields, fields', rfl, rfl, h⟩ | ⟨hnot, hnot'⟩
  · simp only [dsaMessageFormat, h.isEmpty_eq, rel_isSome (h.rel_get _)]
    split_ifs
    · exact .some rfl
    · apply rel_map (and_respects (field_respects (boolean_respects bisimulation_arrives) _)
        (field_respects intFormat_respects _) _ _ h)
      rintro ⟨allowed, salt⟩ _ ⟨rfl, rfl⟩
      rfl
    · apply rel_map (and_respects hmsg (and_respects hack (field_respects
        (list_respects bisimulation_arrives dsaRequestFormat_respects) _)) _ _ h)
      rintro ⟨msg, ack, requests⟩ ⟨msg', ack', requests'⟩ ⟨hmsg, hack, hrequests⟩
      obtain rfl : msg = msg' := hmsg
      obtain rfl := rel_eq.mp hack
      exact ⟨requests', rfl, hrequests⟩
    · apply rel_map (and_respects hmsg (and_respects hack (field_respects
        (list_respects bisimulation_arrives dsaResponseFormat_respects) _)) _ _ h)
      rintro ⟨msg, ack, responses⟩ ⟨msg', ack', responses'⟩ ⟨hmsg, hack, hresponses⟩
      obtain rfl : msg = msg' := hmsg
      obtain rfl := rel_eq.mp hack
      exact ⟨responses', rfl, hresponses⟩
    · apply rel_map (and_respects hmsg hack _ _ h)
      rintro ⟨msg, ack⟩ ⟨msg', ack'⟩ ⟨hmsg, hack⟩
      obtain rfl : msg = msg' := hmsg
      obtain rfl := rel_eq.mp hack
      rfl
    · apply rel_map (field_respects intFormat_respects _ _ _ h)
      rintro ack _ rfl
      rfl
    · exact .none
  · -- anything else is refused before and after
    rw [hnone v hnot, hnone v' hnot']
    exact .none

end Formats

/-- **Both transports carry the same messages.**  A JSON value whose surrogates have their partners
and whose numbers are read as they were written can be packed and unpacked, whatever follows it,
before it is read as a message.  It is refused then just when the value itself is, and otherwise the
same message is read. -/
theorem binary_agrees [ScanOrder Str] (rt : JavaRuntime) {v : Json} (hfits : Fits v)
    (hportable : Portable rt v) (rest : List UInt8) :
    ∃ v', unpack rt (packJson rt v ++ rest) = .ok v' ∧
      Option.Rel DSAMessage.Same (dsaMessageFormat.reads v) (dsaMessageFormat.reads v') := by
  obtain ⟨v', hv', halike⟩ := (alike_delivered_iff rt v hfits).mpr hportable
  rw [unpack_packJson rt hfits rest]
  exact ⟨v', hv', dsaMessageFormat_respects v v' ⟨hfits, halike⟩⟩

/-- `{"msg": 2, "requests": [{"rid": 5, "method": "invoke", "path": "/a", "params": {"x": 7}}]}`.
-/
def invocation : Json :=
  .object [(str "msg", .number 2), (str "requests", .array [.object [(str "rid", .number 5),
    (str "method", .string (str "invoke")), (str "path", .string (str "/a")),
    (str "params", .object [(str "x", .number 7)])]])]

theorem binary_agrees_invocation :
    ∃ v', unpack fewNumbers (packJson fewNumbers invocation ++ [0xC1]) = .ok v' ∧
      Option.Rel DSAMessage.Same (dsaMessageFormat.reads invocation)
        (dsaMessageFormat.reads v') := by
  apply binary_agrees fewNumbers
  · simp only [invocation, Fits, FitFields, FitItems, and_true, true_and]
    decide +kernel
  · simp only [invocation, Portable, PortableFields, PortableItems, and_true]
    refine ⟨?_, rfl, ?_, ?_, rfl, ?_, ?_, ?_, ?_, ?_, ?_, rfl⟩
    all_goals decide +kernel

end DsaBroker
