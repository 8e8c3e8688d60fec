import DsaBroker.JsonReads
import DsaBroker.WireFormat

/-!
# Decoding and exceptions

The `reads` of the formats of `models.rpc`, with the exceptions they throw.  A value is read in a
`try`, and so is the name of a constant; what is invalid in them becomes an error.  The method of a
request is looked up with `as`, which throws, and nothing around it catches: a request without a
known method makes `DSAMessageFormat.reads` throw, whatever else is in the message
(`decoding_total_iff`).

Of play-json it is assumed that its readers return an error on a value of another kind, that
those of collections and of several fields read every part, and that none of them catches
anything.  Where the readers here succeed, they agree with the wire format (`wireFormat_sound`).
-/

namespace DsaBroker

abbrev WireReads (α : Type) := Reads Str Rat α

/-! ### Values -/

namespace DSAValueFormat

mutual

/-- `json2dsa`; the elements are read with `as`, which throws on an error. -/
def json2dsa : Json → ReadOutcome DSAVal
  | .null => .success .null
  | .number x => .success (.numeric x)
  | .string x =>
      if BinaryPrefix.isPrefixOf x then (ReadOutcome.orThrow (stringToBinary x)).map .binary
      else .success (.string x)
  | .boolean x => .success (.boolean x)
  | .object fields => (jsonMapToValues fields).map .map
  | .array items => (jsonListToValues items).map .array

def jsonMapToValues : List (Str × Json) → ReadOutcome (List (Str × DSAVal))
  | [] => .success []
  | (k, json) :: rest =>
      (json2dsa json).caught.get.bind fun v =>
        (jsonMapToValues rest).map fun more => (k, v) :: more

def jsonListToValues : List Json → ReadOutcome (List DSAVal)
  | [] => .success []
  | json :: rest =>
      (json2dsa json).caught.get.bind fun v => (jsonListToValues rest).map fun more => v :: more

end

def reads : WireReads DSAVal := fun json => (json2dsa json).caught

theorem neverThrows_reads : reads.NeverThrows := fun json => (json2dsa json).caught_ne_thrown

mutual

theorem json2dsa_eq : ∀ json : Json,
    json2dsa json = (DsaBroker.json2dsa json).elim .thrown .success
  | .null => rfl
  | .number x => rfl
  | .string x => by
      rw [json2dsa, DsaBroker.json2dsa]
      split
      · cases stringToBinary x <;> rfl
      · rfl
  | .boolean x => rfl
  | .object fields => by
      rw [json2dsa, DsaBroker.json2dsa, jsonMapToValues_eq fields]
      cases DsaBroker.jsonMapToValues fields <;> rfl
  | .array items => by
      rw [json2dsa, DsaBroker.json2dsa, jsonListToValues_eq items]
      cases DsaBroker.jsonListToValues items <;> rfl

theorem jsonMapToValues_eq : ∀ fields : List (Str × Json),
    jsonMapToValues fields = (DsaBroker.jsonMapToValues fields).elim .thrown .success
  | [] => rfl
  | (k, json) :: rest => by
      rw [jsonMapToValues, DsaBroker.jsonMapToValues, json2dsa_eq json, jsonMapToValues_eq rest]
      cases DsaBroker.json2dsa json <;> cases DsaBroker.jsonMapToValues rest <;> rfl

theorem jsonListToValues_eq : ∀ items : List Json,
    jsonListToValues items = (DsaBroker.jsonListToValues items).elim .thrown .success
  | [] => rfl
  | json :: rest => by
      rw [jsonListToValues, DsaBroker.jsonListToValues, json2dsa_eq json, jsonListToValues_eq rest]
      cases DsaBroker.json2dsa json <;> cases DsaBroker.jsonListToValues rest <;> rfl

end

theorem sound_reads : reads.Sound dsaValueFormat := by
  intro json v h
  rw [reads, json2dsa_eq] at h
  show DsaBroker.json2dsa json = some v
  cases hread : DsaBroker.json2dsa json with
  | none =>
    rw [hread] at h
    cases h
  | some w =>
    rw [hread] at h
    cases h
    rfl

end DSAValueFormat

/-! ### Fields -/

/-- `isValidInt` and `isValidLong`. -/
def wholeBetween (low high : Int) (q : Rat) : Option Int :=
  if q.den = 1 ∧ low ≤ q.num ∧ q.num ≤ high then some q.num else none

def intReads : WireReads Int := .number (wholeBetween (-2147483648) 2147483647)

def longReads : WireReads Int :=
  .number (wholeBetween (-9223372036854775808) 9223372036854775807)

/-- `withName` throws when there is no constant of this name; `enumReads` catches that. -/
def enumReads {ε : Type} (constants : List ε) (name : ε → Str) : WireReads ε :=
  .named fun s => constants.find? fun c => name c = s

def ridReads : WireReads Int := intReads.field (str "rid")

def pathReads : WireReads Str := Reads.string.field (str "path")

def permitReads : WireReads (Option Str) := Reads.string.fieldNullable (str "permit")

theorem sound_wholeBetween (low high : Int) :
    (Reads.number (wholeBetween low high) : WireReads Int).Sound intFormat := by
  apply Reads.sound_number
  intro q n h
  unfold wholeBetween at h
  split at h
  case isTrue hq =>
    cases h
    exact if_pos hq.1
  case isFalse => cases h

theorem sound_intReads : intReads.Sound intFormat := sound_wholeBetween _ _

theorem sound_ridReads : ridReads.Sound ridField.toJson := sound_intReads.field _

theorem sound_pathReads : pathReads.Sound pathField.toJson := Reads.sound_string.field _

theorem sound_permitReads : permitReads.Sound permitField.toJson :=
  Reads.sound_string.fieldNullable _

theorem neverThrows_intReads : intReads.NeverThrows := Reads.neverThrows_number _

theorem neverThrows_ridReads : ridReads.NeverThrows := neverThrows_intReads.field _

theorem neverThrows_pathReads : pathReads.NeverThrows := Reads.neverThrows_string.field _

theorem neverThrows_permitReads : permitReads.NeverThrows :=
  Reads.neverThrows_string.fieldNullable _

/-! ### Requests -/

namespace DSARequestFormat

def subscriptionPathReads : WireReads SubscriptionPath :=
  (pathReads.and ((intReads.field (str "sid")).and (intReads.fieldNullable (str "qos")))).map
    fun p => ⟨p.1, p.2.1, p.2.2⟩

def dsaMethodReads : WireReads DSAMethod := enumReads DSAMethod.constants DSAMethod.name

def paramsReads : WireReads DSAMap :=
  (DSAValueFormat.reads.entries.fieldNullable (str "params")).map emptyIfNone

def listRequestReads : WireReads (Int × Str) := ridReads.and pathReads

def setRequestReads : WireReads (Int × Str × DSAVal × Option Str) :=
  ridReads.and (pathReads.and ((DSAValueFormat.reads.field (str "value")).and permitReads))

def removeRequestReads : WireReads (Int × Str) := ridReads.and pathReads

def invokeRequestReads : WireReads (Int × Str × DSAMap × Option Str) :=
  ridReads.and (pathReads.and (paramsReads.and permitReads))

def subscribeRequestReads : WireReads (Int × List SubscriptionPath) :=
  ridReads.and (subscriptionPathReads.list.field (str "paths"))

def unsubscribeRequestReads : WireReads (Int × List Int) :=
  ridReads.and (intReads.list.field (str "sids"))

def closeRequestReads : WireReads Int := ridReads

/-- Reading of the request that has this method. -/
def readsMethod : DSAMethod → WireReads DSARequest
  | .list => listRequestReads.map fun p => .list p.1 p.2
  | .set => setRequestReads.map fun p => .set p.1 p.2.1 p.2.2.1 p.2.2.2
  | .remove => removeRequestReads.map fun p => .remove p.1 p.2
  | .invoke => invokeRequestReads.map fun p => .invoke p.1 p.2.1 p.2.2.1 p.2.2.2
  | .subscribe => subscribeRequestReads.map fun p => .subscribe p.1 p.2
  | .unsubscribe => unsubscribeRequestReads.map fun p => .unsubscribe p.1 p.2
  | .close => closeRequestReads.map .close

/-- `(json \ "method").as[DSAMethod] match`. -/
def reads : WireReads DSARequest := fun json =>
  (dsaMethodReads.field (str "method") json).get.bind fun method => readsMethod method json

theorem neverThrows_subscriptionPathReads : subscriptionPathReads.NeverThrows :=
  (neverThrows_pathReads.and ((neverThrows_intReads.field _).and
    (neverThrows_intReads.fieldNullable _))).map _

theorem neverThrows_paramsReads : paramsReads.NeverThrows :=
  (DSAValueFormat.neverThrows_reads.entries.fieldNullable _).map _

/-- Once the method is known, reading a request does not throw. -/
theorem neverThrows_readsMethod (method : DSAMethod) : (readsMethod method).NeverThrows := by
  cases method with
  | list => exact (neverThrows_ridReads.and neverThrows_pathReads).map _
  | set =>
    exact (neverThrows_ridReads.and (neverThrows_pathReads.and
      ((DSAValueFormat.neverThrows_reads.field _).and neverThrows_permitReads))).map _
  | remove => exact (neverThrows_ridReads.and neverThrows_pathReads).map _
  | invoke =>
    exact (neverThrows_ridReads.and (neverThrows_pathReads.and
      (neverThrows_paramsReads.and neverThrows_permitReads))).map _
  | subscribe =>
    exact (neverThrows_ridReads.and (neverThrows_subscriptionPathReads.list.field _)).map _
  | unsubscribe => exact (neverThrows_ridReads.and (neverThrows_intReads.list.field _)).map _
  | close => exact neverThrows_ridReads.map _

/-- The value is an object that has the name of a method under `method`. -/
def NamesMethod (json : Json) : Prop :=
  ∃ method : DSAMethod, json.fields.get (str "method") = some (.string method.name)

theorem mem_constants (method : DSAMethod) : method ∈ DSAMethod.constants := by
  cases method <;> decide

/-- The lookup of the method is an error where it does not find the name of one. -/
theorem method_eq_error_iff (json : Json) :
    dsaMethodReads.field (str "method") json = .error ↔ ¬ NamesMethod json := by
  unfold NamesMethod Reads.field
  cases json.fields.get (str "method") with
  | none => simp
  | some value =>
    cases value with
    | string name =>
      simp only [dsaMethodReads, enumReads, Reads.named, Option.some.injEq, JsValue.string.injEq,
        not_exists]
      cases hfind : DSAMethod.constants.find? fun method => decide (method.name = name) with
      | none =>
        refine iff_of_true rfl ?_
        intro method hmethod
        have hname := List.find?_eq_none.mp hfind method (mem_constants method)
        exact hname (decide_eq_true hmethod.symm)
      | some method =>
        refine iff_of_false ?_ ?_
        · intro h
          cases h
        · intro hnone
          have hname := List.find?_some hfind
          exact hnone method (of_decide_eq_true hname).symm
    | _ => simp [dsaMethodReads, enumReads, Reads.named]

theorem reads_eq_thrown_iff (json : Json) : reads json = .thrown ↔ ¬ NamesMethod json := by
  rw [← method_eq_error_iff, reads]
  have hmethod : dsaMethodReads.field (str "method") json ≠ .thrown :=
    (Reads.neverThrows_named _).field _ json
  cases hread : dsaMethodReads.field (str "method") json with
  | success method =>
    refine iff_of_false ?_ fun h => nomatch h
    exact neverThrows_readsMethod method json
  | error => exact iff_of_true rfl rfl
  | thrown => exact absurd hread hmethod

end DSARequestFormat

/-! ### Responses -/

def textReads (key : Str) : WireReads (Option Str) := Reads.string.fieldNullable key

def dsaErrorReads : WireReads DSAError :=
  ((textReads (str "msg")).and ((textReads (str "type")).and ((textReads (str "phase")).and
    ((textReads (str "path")).and (textReads (str "detail")))))).map
      fun p => ⟨p.1, p.2.1, p.2.2.1, p.2.2.2.1, p.2.2.2.2⟩

def columnInfoReads : WireReads ColumnInfo :=
  ((Reads.string.field (str "name")).and (Reads.string.field (str "type"))).map
    fun p => ⟨p.1, p.2⟩

def streamStateReads : WireReads StreamState := enumReads StreamState.constants StreamState.name

def dsaResponseReads : WireReads DSAResponse :=
  (ridReads.and ((streamStateReads.fieldNullable (str "stream")).and
    ((DSAValueFormat.reads.list.fieldNullable (str "updates")).and
      ((columnInfoReads.list.fieldNullable (str "columns")).and
        (dsaErrorReads.fieldNullable (str "error")))))).map
          fun p => ⟨p.1, p.2.1, p.2.2.1, p.2.2.2.1, p.2.2.2.2⟩

theorem neverThrows_textReads (key : Str) : (textReads key).NeverThrows :=
  Reads.neverThrows_string.fieldNullable key

theorem neverThrows_dsaErrorReads : dsaErrorReads.NeverThrows :=
  ((neverThrows_textReads _).and ((neverThrows_textReads _).and ((neverThrows_textReads _).and
    ((neverThrows_textReads _).and (neverThrows_textReads _))))).map _

theorem neverThrows_columnInfoReads : columnInfoReads.NeverThrows :=
  ((Reads.neverThrows_string.field _).and (Reads.neverThrows_string.field _)).map _

theorem neverThrows_streamStateReads : streamStateReads.NeverThrows := Reads.neverThrows_named _

theorem neverThrows_dsaResponseReads : dsaResponseReads.NeverThrows :=
  (neverThrows_ridReads.and ((neverThrows_streamStateReads.fieldNullable _).and
    ((DSAValueFormat.neverThrows_reads.list.fieldNullable _).and
      ((neverThrows_columnInfoReads.list.fieldNullable _).and
        (neverThrows_dsaErrorReads.fieldNullable _))))).map _

/-! ### Messages -/

namespace DSAMessageFormat

def msgReads : WireReads Int := intReads.field (str "msg")

def ackReads : WireReads (Option Int) := intReads.fieldNullable (str "ack")

def allowedMessageReads : WireReads (Bool × Int) :=
  (Reads.boolean.field (str "allowed")).and (longReads.field (str "salt"))

def pingMessageReads : WireReads (Int × Option Int) := msgReads.and ackReads

def pongMessageReads : WireReads Int := intReads.field (str "ack")

def requestMessageReads : WireReads (Int × Option Int × List DSARequest) :=
  msgReads.and (ackReads.and (DSARequestFormat.reads.list.field (str "requests")))

def responseMessageReads : WireReads (Int × Option Int × List DSAResponse) :=
  msgReads.and (ackReads.and (dsaResponseReads.list.field (str "responses")))

def reads : WireReads DSAMessage
  | .object fields =>
      if fields.isEmpty then .success .empty
      else if (JsFields.get fields (str "allowed")).isSome then
        (allowedMessageReads (.object fields)).map fun p => .allowed p.1 p.2
      else if (JsFields.get fields (str "requests")).isSome then
        (requestMessageReads (.object fields)).map fun p => .request p.1 p.2.1 p.2.2
      else if (JsFields.get fields (str "responses")).isSome then
        (responseMessageReads (.object fields)).map fun p => .response p.1 p.2.1 p.2.2
      else if (JsFields.get fields (str "msg")).isSome then
        (pingMessageReads (.object fields)).map fun p => .ping p.1 p.2
      else if (JsFields.get fields (str "ack")).isSome then
        (pongMessageReads (.object fields)).map .pong
      else .error
  | _ => .error

theorem neverThrows_allowedMessageReads : allowedMessageReads.NeverThrows :=
  (Reads.neverThrows_boolean.field _).and ((Reads.neverThrows_number _).field _)

theorem neverThrows_pingMessageReads : pingMessageReads.NeverThrows :=
  (neverThrows_intReads.field _).and (neverThrows_intReads.fieldNullable _)

theorem neverThrows_pongMessageReads : pongMessageReads.NeverThrows := neverThrows_intReads.field _

theorem neverThrows_responseMessageReads : responseMessageReads.NeverThrows :=
  (neverThrows_intReads.field _).and ((neverThrows_intReads.fieldNullable _).and
    (neverThrows_dsaResponseReads.list.field _))

/-- The requests of a message that is read as a request message name their methods. -/
def MethodsNamed (json : Json) : Prop :=
  json.fields.get (str "allowed") = none →
    ∀ items, json.fields.get (str "requests") = some (.array items) →
      ∀ item ∈ items, DSARequestFormat.NamesMethod item

theorem requestMessageReads_eq_thrown_iff (json : Json) :
    requestMessageReads json = .thrown ↔
      ∃ items, json.fields.get (str "requests") = some (.array items) ∧
        ∃ item ∈ items, ¬ DSARequestFormat.NamesMethod item := by
  have hmsg : msgReads json ≠ .thrown := neverThrows_intReads.field _ json
  have hack : ackReads json ≠ .thrown := neverThrows_intReads.fieldNullable _ json
  simp only [requestMessageReads, Reads.and, ReadOutcome.both_eq_thrown_iff, hmsg, hack,
    false_or, Reads.field_eq_thrown_iff, Reads.list_eq_thrown_iff,
    DSARequestFormat.reads_eq_thrown_iff]
  constructor
  · rintro ⟨_, hget, items, rfl, hitem⟩
    exact ⟨items, hget, hitem⟩
  · rintro ⟨items, hget, hitem⟩
    exact ⟨_, hget, items, rfl, hitem⟩

theorem reads_eq_thrown_iff (json : Json) : reads json = .thrown ↔ ¬ MethodsNamed json := by
  cases json with
  | object fields =>
    simp only [reads, MethodsNamed, JsValue.fields]
    split
    case isTrue hempty =>
      rw [List.isEmpty_iff.mp hempty]
      simp [JsFields.get]
    split
    case isTrue hallowed =>
      obtain ⟨value, hvalue⟩ := Option.isSome_iff_exists.mp hallowed
      have hread := neverThrows_allowedMessageReads (.object fields)
      simp [ReadOutcome.map_eq_thrown_iff, hread, hvalue]
    case isFalse hallowed =>
    have hnone : JsFields.get fields (str "allowed") = none := by simpa using hallowed
    split
    case isTrue =>
      rw [ReadOutcome.map_eq_thrown_iff, requestMessageReads_eq_thrown_iff]
      simp only [hnone, true_imp_iff, not_forall, JsValue.fields, exists_prop]
    case isFalse hrequests =>
    have hnone : JsFields.get fields (str "requests") = none := by simpa using hrequests
    have hpong := neverThrows_pongMessageReads (.object fields)
    have hping := neverThrows_pingMessageReads (.object fields)
    have hresponse := neverThrows_responseMessageReads (.object fields)
    refine iff_of_false ?_ (by simp [hnone])
    split
    · rwa [ReadOutcome.map_eq_thrown_iff]
    split
    · rwa [ReadOutcome.map_eq_thrown_iff]
    split
    · rwa [ReadOutcome.map_eq_thrown_iff]
    · simp
  | _ => simp [reads, MethodsNamed, JsValue.fields, JsFields.get]

end DSAMessageFormat

/-! ### The wire format -/

namespace DSARequestFormat

theorem sound_subscriptionPathReads : subscriptionPathReads.Sound subscriptionPathFormat :=
  (sound_pathReads.and ((sound_intReads.field _).and (sound_intReads.fieldNullable _))).map _ _

theorem sound_paramsReads : paramsReads.Sound paramsField.toJson :=
  (DSAValueFormat.sound_reads.entries.fieldNullable _).map _ _

theorem sound_setRequestReads : setRequestReads.Sound setRequestFormat.toJson :=
  sound_ridReads.and (sound_pathReads.and
    ((DSAValueFormat.sound_reads.field _).and sound_permitReads))

theorem sound_invokeRequestReads : invokeRequestReads.Sound invokeRequestFormat.toJson :=
  sound_ridReads.and (sound_pathReads.and (sound_paramsReads.and sound_permitReads))

theorem sound_subscribeRequestReads : subscribeRequestReads.Sound subscribeRequestFormat.toJson :=
  sound_ridReads.and (sound_subscriptionPathReads.list.field _)

theorem sound_unsubscribeRequestReads :
    unsubscribeRequestReads.Sound unsubscribeRequestFormat.toJson :=
  sound_ridReads.and (sound_intReads.list.field _)

theorem readsRequest_of_readsMethod {method : DSAMethod} {json : Json} {req : DSARequest}
    (h : readsMethod method json = .success req) :
    readsRequest json.fields method = some req := by
  cases method with
  | list => exact (sound_ridReads.and sound_pathReads).map_reads h
  | set => exact sound_setRequestReads.map_reads h
  | remove => exact (sound_ridReads.and sound_pathReads).map_reads h
  | invoke => exact sound_invokeRequestReads.map_reads h
  | subscribe => exact sound_subscribeRequestReads.map_reads h
  | unsubscribe => exact sound_unsubscribeRequestReads.map_reads h
  | close => exact sound_ridReads.map_reads h

theorem sound_dsaMethodReads : dsaMethodReads.Sound dsaMethodFormat := Reads.sound_named

theorem sound_reads : reads.Sound dsaRequestFormat := by
  intro json req h
  unfold reads at h
  cases hread : dsaMethodReads.field (str "method") json with
  | success method =>
    rw [hread] at h
    have hmethod := sound_dsaMethodReads.field (str "method") json method hread
    have hreq := readsRequest_of_readsMethod h
    cases json with
    | object fields =>
      obtain ⟨value, hvalue, hname⟩ := Option.bind_eq_some_iff.mp hmethod
      exact Option.bind_eq_some_iff.mpr
        ⟨value, hvalue, Option.bind_eq_some_iff.mpr ⟨method, hname, hreq⟩⟩
    | _ => cases hread
  | error =>
    rw [hread] at h
    cases h
  | thrown =>
    rw [hread] at h
    cases h

end DSARequestFormat

theorem sound_textReads (key : Str) : (textReads key).Sound (textField key).toJson :=
  Reads.sound_string.fieldNullable key

theorem sound_dsaErrorReads : dsaErrorReads.Sound dsaErrorFormat :=
  ((sound_textReads _).and ((sound_textReads _).and ((sound_textReads _).and
    ((sound_textReads _).and (sound_textReads _))))).map _ _

theorem sound_columnInfoReads : columnInfoReads.Sound columnInfoFormat :=
  ((Reads.sound_string.field _).and (Reads.sound_string.field _)).map _ _

theorem sound_streamStateReads : streamStateReads.Sound streamStateFormat := Reads.sound_named

theorem sound_dsaResponseReads : dsaResponseReads.Sound dsaResponseFormat :=
  (sound_ridReads.and ((sound_streamStateReads.fieldNullable _).and
    ((DSAValueFormat.sound_reads.list.fieldNullable _).and
      ((sound_columnInfoReads.list.fieldNullable _).and
        (sound_dsaErrorReads.fieldNullable _))))).map _ _

namespace DSAMessageFormat

theorem sound_allowedMessageReads : allowedMessageReads.Sound allowedMessageFormat.toJson :=
  (Reads.sound_boolean.field _).and ((sound_wholeBetween _ _).field _)

theorem sound_pingMessageReads : pingMessageReads.Sound pingMessageFormat.toJson :=
  (sound_intReads.field _).and (sound_intReads.fieldNullable _)

theorem sound_pongMessageReads : pongMessageReads.Sound pongMessageFormat.toJson :=
  sound_intReads.field _

theorem sound_requestMessageReads : requestMessageReads.Sound requestMessageFormat.toJson :=
  (sound_intReads.field _).and ((sound_intReads.fieldNullable _).and
    (DSARequestFormat.sound_reads.list.field _))

theorem sound_responseMessageReads : responseMessageReads.Sound responseMessageFormat.toJson :=
  (sound_intReads.field _).and ((sound_intReads.fieldNullable _).and
    (sound_dsaResponseReads.list.field _))

/-- **The wire format.**  A message that is decoded is the one that the wire format reads. -/
theorem wireFormat_sound : reads.Sound dsaMessageFormat := by
  intro json msg h
  cases json with
  | object fields =>
    simp only [reads] at h
    simp only [dsaMessageFormat]
    split at h
    case isTrue hempty =>
      cases h
      rw [if_pos hempty]
    case isFalse hempty =>
    rw [if_neg hempty]
    split at h
    case isTrue hallowed =>
      rw [if_pos hallowed]
      exact sound_allowedMessageReads.map_reads h
    case isFalse hallowed =>
    rw [if_neg hallowed]
    split at h
    case isTrue hrequests =>
      rw [if_pos hrequests]
      exact sound_requestMessageReads.map_reads h
    case isFalse hrequests =>
    rw [if_neg hrequests]
    split at h
    case isTrue hresponses =>
      rw [if_pos hresponses]
      exact sound_responseMessageReads.map_reads h
    case isFalse hresponses =>
    rw [if_neg hresponses]
    split at h
    case isTrue hmsg =>
      rw [if_pos hmsg]
      exact sound_pingMessageReads.map_reads h
    case isFalse hmsg =>
    rw [if_neg hmsg]
    split at h
    case isTrue hack =>
      rw [if_pos hack]
      exact sound_pongMessageReads.map_reads h
    case isFalse => cases h
  | _ => cases h

end DSAMessageFormat

/-! ### The socket -/

/-- What the transformer of a socket makes of an incoming value. -/
inductive Incoming where
  | message (msg : DSAMessage)
  /-- the socket is closed with the error -/
  | close
  /-- the stream fails -/
  | failure

def msaMessageFlowTransformer (json : Json) : Incoming :=
  match DSAMessageFormat.reads json with
  | .success msg => .message msg
  | .error => .close
  | .thrown => .failure

/-- The value is decoded, or it is an error and closes the socket. -/
def DecodesTotally (json : Json) : Prop :=
  (∃ msg, DSAMessageFormat.reads json = .success msg ∧
      msaMessageFlowTransformer json = .message msg) ∨
    (DSAMessageFormat.reads json = .error ∧ msaMessageFlowTransformer json = .close)

/-- **Decoding.**  A value is decoded or rejected, without an exception, just when every request
in it, if it is read as a request message, has the name of a method. -/
theorem decoding_total_iff (json : Json) :
    DecodesTotally json ↔ DSAMessageFormat.MethodsNamed json := by
  have hthrown := DSAMessageFormat.reads_eq_thrown_iff json
  unfold DecodesTotally msaMessageFlowTransformer
  cases hread : DSAMessageFormat.reads json with
  | success msg =>
    have hnamed := not_not.mp fun h => nomatch hread.symm.trans (hthrown.mpr h)
    exact iff_of_true (Or.inl ⟨msg, rfl, rfl⟩) hnamed
  | error =>
    have hnamed := not_not.mp fun h => nomatch hread.symm.trans (hthrown.mpr h)
    exact iff_of_true (Or.inr ⟨rfl, rfl⟩) hnamed
  | thrown =>
    refine iff_of_false ?_ (hthrown.mp hread)
    rintro (⟨_, h, _⟩ | ⟨h, _⟩)
    · cases h
    · cases h

/-- A request message with one request that has only a rid. -/
def withoutMethod : Json :=
  .object [(str "msg", .number 1), (str "requests", .array [.object [(str "rid", .number 1)]])]

/-- The method is missing: `reads` throws, and the stream of the socket fails. -/
theorem missing_method_throws :
    DSAMessageFormat.reads withoutMethod = .thrown ∧
      msaMessageFlowTransformer withoutMethod = .failure ∧ ¬ ∀ json, DecodesTotally json := by
  have hread : DSAMessageFormat.reads withoutMethod = .thrown := by decide +kernel
  refine ⟨hread, by rw [msaMessageFlowTransformer, hread], ?_⟩
  intro h
  rcases h withoutMethod with ⟨_, hsuccess, _⟩ | ⟨herror, _⟩
  · cases hread.symm.trans hsuccess
  · cases hread.symm.trans herror

end DsaBroker
