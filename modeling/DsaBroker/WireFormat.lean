import DsaBroker.Base64
import DsaBroker.JsonFormats
import DsaBroker.Messages

/-!
# The wire format

The JSON formats of `models.rpc`: values, the seven requests, responses and the six messages.
A binary value has no shape of its own in JSON; it is written as a string with a prefix in
front, and a string with this prefix is read as a binary value.  Apart from that every message
can be told from every other one, by the keys of its object and by the method of a request.
-/

namespace DsaBroker

abbrev Json := JsValue Str Rat

abbrev WireFormat (α : Type) := JsonFormat Str Rat α

abbrev WireFields (α : Type) := ObjectFormat Str Rat α

/-! ### Values -/

/-- The alphabet of `java.util.Base64.getEncoder`; its decoder reads text without padding too. -/
def javaBase64 : Base64Alphabet UInt16 :=
  .ofTable (str "ABCDEFGHIJKLMNOPQRSTUVWXYZabcdefghijklmnopqrstuvwxyz0123456789+/") 61
    (by decide +kernel) (by decide +kernel) (by decide +kernel)

def BinaryPrefix : Str := 0x1B :: str "bytes:"

def binaryToString (data : List UInt8) : Str := BinaryPrefix ++ javaBase64.encode data

def stringToBinary (s : Str) : Option (List UInt8) :=
  javaBase64.decode (s.drop BinaryPrefix.length)

mutual

/-- `DSAValueFormat.writes`. -/
def dsa2json : DSAVal → Json
  | .null => .null
  | .numeric value => .number value
  | .string value => .string value
  | .boolean value => .boolean value
  | .binary value => .string (binaryToString value)
  | .map value => .object (valueMapToJson value)
  | .array value => .array (valueListToJson value)

def valueMapToJson : List (Str × DSAVal) → List (Str × Json)
  | [] => []
  | (k, v) :: rest => (k, dsa2json v) :: valueMapToJson rest

def valueListToJson : List DSAVal → List Json
  | [] => []
  | v :: rest => dsa2json v :: valueListToJson rest

end

mutual

/-- `json2dsa`; `none` where the exception of the base64 decoder becomes an error. -/
def json2dsa : Json → Option DSAVal
  | .null => some .null
  | .number x => some (.numeric x)
  | .string x =>
      if BinaryPrefix.isPrefixOf x then (stringToBinary x).map .binary else some (.string x)
  | .boolean x => some (.boolean x)
  | .object fields => (jsonMapToValues fields).map .map
  | .array items => (jsonListToValues items).map .array

def jsonMapToValues : List (Str × Json) → Option (List (Str × DSAVal))
  | [] => some []
  | (k, json) :: rest => do
      let v ← json2dsa json
      let more ← jsonMapToValues rest
      some ((k, v) :: more)

def jsonListToValues : List Json → Option (List DSAVal)
  | [] => some []
  | json :: rest => do
      let v ← json2dsa json
      let more ← jsonListToValues rest
      some (v :: more)

end

def dsaValueFormat : WireFormat DSAVal := ⟨json2dsa, dsa2json⟩

mutual

/-- No string in the value begins with the prefix of binary values. -/
def DSAVal.Unreserved : DSAVal → Prop
  | .string value => ¬BinaryPrefix <+: value
  | .map value => DSAVal.UnreservedFields value
  | .array value => DSAVal.UnreservedItems value
  | _ => True

def DSAVal.UnreservedFields : List (Str × DSAVal) → Prop
  | [] => True
  | (_, v) :: rest => v.Unreserved ∧ DSAVal.UnreservedFields rest

def DSAVal.UnreservedItems : List DSAVal → Prop
  | [] => True
  | v :: rest => v.Unreserved ∧ DSAVal.UnreservedItems rest

end

theorem stringToBinary_binaryToString (data : List UInt8) :
    stringToBinary (binaryToString data) = some data := by
  rw [stringToBinary, binaryToString, List.drop_left, javaBase64.decode_encode]

theorem json2dsa_binaryToString (data : List UInt8) :
    json2dsa (.string (binaryToString data)) = some (.binary data) := by
  have hprefix : BinaryPrefix.isPrefixOf (binaryToString data) = true :=
    List.isPrefixOf_iff_prefix.mpr (List.prefix_append _ _)
  rw [json2dsa, if_pos hprefix, stringToBinary_binaryToString, Option.map_some]

theorem json2dsa_string_iff (value : Str) :
    json2dsa (.string value) = some (.string value) ↔ ¬BinaryPrefix <+: value := by
  rw [json2dsa, ← List.isPrefixOf_iff_prefix]
  by_cases h : BinaryPrefix.isPrefixOf value = true
  · rw [if_pos h]
    simp [h]
  · rw [if_neg h]
    simp [h]

mutual

theorem json2dsa_dsa2json_iff : ∀ v : DSAVal, json2dsa (dsa2json v) = some v ↔ v.Unreserved
  | .null => by simp [dsa2json, json2dsa, DSAVal.Unreserved]
  | .numeric value => by simp [dsa2json, json2dsa, DSAVal.Unreserved]
  | .string value => by rw [dsa2json, json2dsa_string_iff, DSAVal.Unreserved]
  | .boolean value => by simp [dsa2json, json2dsa, DSAVal.Unreserved]
  | .binary value => by simp [dsa2json, json2dsa_binaryToString, DSAVal.Unreserved]
  | .map value => by
      simp [dsa2json, json2dsa, DSAVal.Unreserved, jsonMapToValues_valueMapToJson_iff value]
  | .array value => by
      simp [dsa2json, json2dsa, DSAVal.Unreserved, jsonListToValues_valueListToJson_iff value]

theorem jsonMapToValues_valueMapToJson_iff : ∀ fields : List (Str × DSAVal),
    jsonMapToValues (valueMapToJson fields) = some fields ↔ DSAVal.UnreservedFields fields
  | [] => by simp [valueMapToJson, jsonMapToValues, DSAVal.UnreservedFields]
  | (k, v) :: rest => by
      rw [valueMapToJson, jsonMapToValues, DSAVal.UnreservedFields, ← json2dsa_dsa2json_iff v,
        ← jsonMapToValues_valueMapToJson_iff rest]
      constructor
      · intro h
        obtain ⟨w, hw, h⟩ := Option.bind_eq_some_iff.mp h
        obtain ⟨more, hmore, h⟩ := Option.bind_eq_some_iff.mp h
        obtain ⟨hhead, rfl⟩ := List.cons.inj (Option.some.inj h)
        obtain ⟨-, rfl⟩ := Prod.mk.inj hhead
        exact ⟨hw, hmore⟩
      · rintro ⟨hv, hrest⟩
        rw [hv, hrest]
        rfl

theorem jsonListToValues_valueListToJson_iff : ∀ items : List DSAVal,
    jsonListToValues (valueListToJson items) = some items ↔ DSAVal.UnreservedItems items
  | [] => by simp [valueListToJson, jsonListToValues, DSAVal.UnreservedItems]
  | v :: rest => by
      rw [valueListToJson, jsonListToValues, DSAVal.UnreservedItems, ← json2dsa_dsa2json_iff v,
        ← jsonListToValues_valueListToJson_iff rest]
      constructor
      · intro h
        obtain ⟨w, hw, h⟩ := Option.bind_eq_some_iff.mp h
        obtain ⟨more, hmore, h⟩ := Option.bind_eq_some_iff.mp h
        obtain ⟨rfl, rfl⟩ := List.cons.inj (Option.some.inj h)
        exact ⟨hw, hmore⟩
      · rintro ⟨hv, hrest⟩
        rw [hv, hrest]
        rfl

end

theorem dsaValueFormat_exactOn : dsaValueFormat.ExactOn DSAVal.Unreserved :=
  json2dsa_dsa2json_iff

/-! ### Fields -/

/-- `Int` and `Long`: whole numbers.  The bounds are those of the type that is written. -/
def intFormat : WireFormat Int :=
  .number (fun n => (n : Rat)) fun q => if q.den = 1 then some q.num else none

/-- `enumReads` and `enumWrites` for an enumeration with these constants. -/
def enumFormat {ε : Type} (constants : List ε) (name : ε → Str) : WireFormat ε :=
  .named name fun s => constants.find? fun c => name c = s

theorem intFormat_exactOn : intFormat.ExactOn fun _ => True := by
  apply JsonFormat.number_exactOn
  intro n
  simp

theorem enumFormat_exactOn {ε : Type} {constants : List ε} {name : ε → Str}
    (hall : ∀ c, c ∈ constants) (hname : Function.Injective name) :
    (enumFormat constants name).ExactOn fun _ => True := by
  apply JsonFormat.named_exactOn
  intro c
  have hfound : (constants.find? fun d => decide (name d = name c)).isSome := by
    rw [List.find?_isSome]
    exact ⟨c, hall c, decide_eq_true rfl⟩
  obtain ⟨d, hd⟩ := Option.isSome_iff_exists.mp hfound
  have hsame := List.find?_some hd
  have heq : d = c := hname (of_decide_eq_true hsame)
  rw [← heq] at hd ⊢
  exact hd

/-! ### Requests -/

def DSAMethod.constants : List DSAMethod :=
  [.list, .set, .remove, .invoke, .subscribe, .unsubscribe, .close]

def DSAMethod.name : DSAMethod → Str
  | .list => str "list"
  | .set => str "set"
  | .remove => str "remove"
  | .invoke => str "invoke"
  | .subscribe => str "subscribe"
  | .unsubscribe => str "unsubscribe"
  | .close => str "close"

def dsaMethodFormat : WireFormat DSAMethod := enumFormat DSAMethod.constants DSAMethod.name

def subscriptionPathFormat : WireFormat SubscriptionPath :=
  (((ObjectFormat.field (str "path") .string).and ((ObjectFormat.field (str "sid") intFormat).and
    (ObjectFormat.fieldNullable (str "qos") intFormat))).inmap
      (fun p => ⟨p.1, p.2.1, p.2.2⟩) fun p => (p.path, p.sid, p.qos)).toJson

def ridField : WireFields Int := .field (str "rid") intFormat

def pathField : WireFields Str := .field (str "path") .string

def permitField : WireFields (Option Str) := .fieldNullable (str "permit") .string

def noneIfEmpty (map : DSAMap) : Option DSAMap := if map.isEmpty then none else some map

def emptyIfNone (opt : Option DSAMap) : DSAMap := opt.getD []

/-- `(__ \ 'params).formatNullable[DSAMap].inmap(emptyIfNone, noneIfEmpty)`. -/
def paramsField : WireFields DSAMap :=
  (ObjectFormat.fieldNullable (str "params") dsaValueFormat.entries).inmap emptyIfNone noneIfEmpty

def listRequestFormat : WireFields (Int × Str) := ridField.and pathField

def setRequestFormat : WireFields (Int × Str × DSAVal × Option Str) :=
  ridField.and (pathField.and ((ObjectFormat.field (str "value") dsaValueFormat).and permitField))

def removeRequestFormat : WireFields (Int × Str) := ridField.and pathField

def invokeRequestFormat : WireFields (Int × Str × DSAMap × Option Str) :=
  ridField.and (pathField.and (paramsField.and permitField))

def subscribeRequestFormat : WireFields (Int × List SubscriptionPath) :=
  ridField.and (.field (str "paths") subscriptionPathFormat.list)

def unsubscribeRequestFormat : WireFields (Int × List Int) :=
  ridField.and (.field (str "sids") intFormat.list)

def closeRequestFormat : WireFields Int := ridField

/-- The fields of the request as its own format writes them. -/
def DSARequest.fields : DSARequest → JsFields Str Rat
  | .list rid path => listRequestFormat.writes (rid, path)
  | .set rid path value permit => setRequestFormat.writes (rid, path, value, permit)
  | .remove rid path => removeRequestFormat.writes (rid, path)
  | .invoke rid path params permit => invokeRequestFormat.writes (rid, path, params, permit)
  | .subscribe rid paths => subscribeRequestFormat.writes (rid, paths)
  | .unsubscribe rid sids => unsubscribeRequestFormat.writes (rid, sids)
  | .close rid => closeRequestFormat.writes rid

/-- `Json.obj("rid" -> req.rid, "method" -> req.method)`. -/
def baseJson (req : DSARequest) : JsFields Str Rat :=
  [(str "rid", intFormat.writes req.rid), (str "method", dsaMethodFormat.writes req.method)]

/-- Reading of the request that has this method. -/
def readsRequest (fields : JsFields Str Rat) : DSAMethod → Option DSARequest
  | .list => (listRequestFormat.reads fields).map fun p => .list p.1 p.2
  | .set => (setRequestFormat.reads fields).map fun p => .set p.1 p.2.1 p.2.2.1 p.2.2.2
  | .remove => (removeRequestFormat.reads fields).map fun p => .remove p.1 p.2
  | .invoke => (invokeRequestFormat.reads fields).map fun p => .invoke p.1 p.2.1 p.2.2.1 p.2.2.2
  | .subscribe => (subscribeRequestFormat.reads fields).map fun p => .subscribe p.1 p.2
  | .unsubscribe => (unsubscribeRequestFormat.reads fields).map fun p => .unsubscribe p.1 p.2
  | .close => (closeRequestFormat.reads fields).map .close

def dsaRequestFormat : WireFormat DSARequest where
  reads := fun
    | .object fields => do
        let json ← JsFields.get fields (str "method")
        let method ← dsaMethodFormat.reads json
        readsRequest fields method
    | _ => none
  writes := fun req => .object ((baseJson req).merge req.fields)

/-! ### Responses -/

def StreamState.constants : List StreamState := [.initialized, .opened, .closed]

def StreamState.name : StreamState → Str
  | .initialized => str "initialize"
  | .opened => str "open"
  | .closed => str "closed"

def streamStateFormat : WireFormat StreamState := enumFormat StreamState.constants StreamState.name

def textField (key : Str) : WireFields (Option Str) := .fieldNullable key .string

def dsaErrorFormat : WireFormat DSAError :=
  (((textField (str "msg")).and ((textField (str "type")).and ((textField (str "phase")).and
    ((textField (str "path")).and (textField (str "detail")))))).inmap
      (fun p => ⟨p.1, p.2.1, p.2.2.1, p.2.2.2.1, p.2.2.2.2⟩)
      fun e => (e.msg, e.errType, e.phase, e.path, e.detail)).toJson

def columnInfoFormat : WireFormat ColumnInfo :=
  (((ObjectFormat.field (str "name") .string).and (ObjectFormat.field (str "type") .string)).inmap
    (fun p => ⟨p.1, p.2⟩) fun c => (c.colName, c.colType)).toJson

def dsaResponseFormat : WireFormat DSAResponse :=
  ((ridField.and ((ObjectFormat.fieldNullable (str "stream") streamStateFormat).and
    ((ObjectFormat.fieldNullable (str "updates") dsaValueFormat.list).and
      ((ObjectFormat.fieldNullable (str "columns") columnInfoFormat.list).and
        (ObjectFormat.fieldNullable (str "error") dsaErrorFormat))))).inmap
          (fun p => ⟨p.1, p.2.1, p.2.2.1, p.2.2.2.1, p.2.2.2.2⟩)
          fun r => (r.rid, r.stream, r.updates, r.columns, r.error)).toJson

/-! ### Messages -/

inductive DSAMessage where
  | empty
  | allowed (allowed : Bool) (salt : Int)
  | ping (msg : Int) (ack : Option Int)
  | pong (ack : Int)
  | request (msg : Int) (ack : Option Int) (requests : List DSARequest)
  | response (msg : Int) (ack : Option Int) (responses : List DSAResponse)
deriving DecidableEq

def msgField : WireFields Int := .field (str "msg") intFormat

def ackField : WireFields (Option Int) := .fieldNullable (str "ack") intFormat

def allowedMessageFormat : WireFields (Bool × Int) :=
  (ObjectFormat.field (str "allowed") .boolean).and (.field (str "salt") intFormat)

def pingMessageFormat : WireFields (Int × Option Int) := msgField.and ackField

def pongMessageFormat : WireFields Int := .field (str "ack") intFormat

def requestMessageFormat : WireFields (Int × Option Int × List DSARequest) :=
  msgField.and (ackField.and (.field (str "requests") dsaRequestFormat.list))

def responseMessageFormat : WireFields (Int × Option Int × List DSAResponse) :=
  msgField.and (ackField.and (.field (str "responses") dsaResponseFormat.list))

def dsaMessageFormat : WireFormat DSAMessage where
  reads := fun
    | .object fields =>
        if fields.isEmpty then some .empty
        else if (JsFields.get fields (str "allowed")).isSome then
          (allowedMessageFormat.reads fields).map fun p => .allowed p.1 p.2
        else if (JsFields.get fields (str "requests")).isSome then
          (requestMessageFormat.reads fields).map fun p => .request p.1 p.2.1 p.2.2
        else if (JsFields.get fields (str "responses")).isSome then
          (responseMessageFormat.reads fields).map fun p => .response p.1 p.2.1 p.2.2
        else if (JsFields.get fields (str "msg")).isSome then
          (pingMessageFormat.reads fields).map fun p => .ping p.1 p.2
        else if (JsFields.get fields (str "ack")).isSome then
          (pongMessageFormat.reads fields).map .pong
        else none
    | _ => none
  writes := fun
    | .empty => .object []
    | .allowed allowed salt => .object (allowedMessageFormat.writes (allowed, salt))
    | .ping msg ack => .object (pingMessageFormat.writes (msg, ack))
    | .pong ack => .object (pongMessageFormat.writes ack)
    | .request msg ack requests => .object (requestMessageFormat.writes (msg, ack, requests))
    | .response msg ack responses => .object (responseMessageFormat.writes (msg, ack, responses))

end DsaBroker
