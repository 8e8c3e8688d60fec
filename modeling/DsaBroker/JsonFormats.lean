import Mathlib.Data.List.Basic
import Mathlib.Data.Option.Basic

/-!
# Formats of JSON values

Readers and writers of JSON, built from formats of fields.  A format of an object knows the keys
it uses: it writes no others, and what it reads does not depend on others.  So two formats with
different keys can be put side by side in one object, and reading what was written is a matter of
each field alone.

A format is exact on some values when it reads back what it wrote for these values and for no
others.
-/

namespace DsaBroker

/-- JSON over strings `σ` and numbers `ν`; the keys of an object come in the order in which they
are written. -/
inductive JsValue (σ ν : Type) where
  | null
  | boolean (value : Bool)
  | number (value : ν)
  | string (value : σ)
  | array (items : List (JsValue σ ν))
  | object (fields : List (σ × JsValue σ ν))

abbrev JsFields (σ ν : Type) := List (σ × JsValue σ ν)

/-- The fields that a path can lead to; a value that is no object has none. -/
def JsValue.fields {σ ν : Type} : JsValue σ ν → JsFields σ ν
  | .object fields => fields
  | _ => []

/-- A reader, `none` when it reports an error, and a writer. -/
structure JsonFormat (σ ν α : Type) where
  reads : JsValue σ ν → Option α
  writes : α → JsValue σ ν

/-- Reading back what was written succeeds for the good values, and for these only. -/
def JsonFormat.ExactOn {σ ν α : Type} (F : JsonFormat σ ν α) (good : α → Prop) : Prop :=
  ∀ a, F.reads (F.writes a) = some a ↔ good a

/-- Writing never yields `null`, which an optional field could not tell from an absent one. -/
def JsonFormat.NeverNull {σ ν α : Type} (F : JsonFormat σ ν α) : Prop := ∀ a, F.writes a ≠ .null

variable {σ ν α β : Type}

/-! ### Values -/

namespace JsonFormat

def string : JsonFormat σ ν σ where
  reads := fun
    | .string value => some value
    | _ => none
  writes := .string

def boolean : JsonFormat σ ν Bool where
  reads := fun
    | .boolean value => some value
    | _ => none
  writes := .boolean

/-- Numbers of a kind that is part of `ν`. -/
def number (embed : α → ν) (project : ν → Option α) : JsonFormat σ ν α where
  reads := fun
    | .number value => project value
    | _ => none
  writes := fun a => .number (embed a)

/-- A value written as a string, such as a constant of an enumeration. -/
def named (name : α → σ) (withName : σ → Option α) : JsonFormat σ ν α where
  reads := fun
    | .string value => withName value
    | _ => none
  writes := fun a => .string (name a)

def list (F : JsonFormat σ ν α) : JsonFormat σ ν (List α) where
  reads := fun
    | .array items => items.mapM F.reads
    | _ => none
  writes := fun items => .array (items.map F.writes)

/-- A map from strings, as an object. -/
def entries (F : JsonFormat σ ν α) : JsonFormat σ ν (List (σ × α)) where
  reads := fun
    | .object fields => fields.mapM fun field => (F.reads field.2).map fun a => (field.1, a)
    | _ => none
  writes := fun items => .object (items.map fun item => (item.1, F.writes item.2))

theorem string_exactOn : (string : JsonFormat σ ν σ).ExactOn fun _ => True := by
  intro a
  simp [string]

theorem boolean_exactOn : (boolean : JsonFormat σ ν Bool).ExactOn fun _ => True := by
  intro a
  simp [boolean]

theorem number_exactOn {embed : α → ν} {project : ν → Option α}
    (h : ∀ a, project (embed a) = some a) :
    (number embed project : JsonFormat σ ν α).ExactOn fun _ => True := by
  intro a
  simp [number, h]

theorem named_exactOn {name : α → σ} {withName : σ → Option α}
    (h : ∀ a, withName (name a) = some a) :
    (named name withName : JsonFormat σ ν α).ExactOn fun _ => True := by
  intro a
  simp [named, h]

/-- Reading the elements of a list one after the other gives the list back just when each element
comes back. -/
theorem mapM_map_eq_some_iff {γ : Type} {f : γ → Option α} {g : α → γ} (items : List α) :
    (items.map g).mapM f = some items ↔ ∀ a ∈ items, f (g a) = some a := by
  induction items with
  | nil => simp
  | cons a rest ih =>
    rw [List.map_cons, List.mapM_cons, List.forall_mem_cons]
    constructor
    · intro h
      obtain ⟨b, hb, h⟩ := Option.bind_eq_some_iff.mp h
      obtain ⟨more, hmore, h⟩ := Option.bind_eq_some_iff.mp h
      obtain ⟨rfl, rfl⟩ := List.cons.inj (Option.some.inj h)
      exact ⟨hb, ih.mp hmore⟩
    · rintro ⟨ha, hrest⟩
      simp only [ha, ih.mpr hrest, Option.bind_eq_bind, Option.bind_some, Option.pure_def]

theorem list_exactOn {F : JsonFormat σ ν α} {good : α → Prop} (h : F.ExactOn good) :
    F.list.ExactOn fun items => ∀ a ∈ items, good a := by
  intro items
  simp only [list, mapM_map_eq_some_iff]
  exact forall₂_congr fun a _ => h a

theorem entries_exactOn {F : JsonFormat σ ν α} {good : α → Prop} (h : F.ExactOn good) :
    F.entries.ExactOn fun items => ∀ item ∈ items, good item.2 := by
  intro items
  simp only [entries, mapM_map_eq_some_iff]
  refine forall₂_congr fun item _ => ?_
  rw [← h item.2]
  constructor
  · intro hread
    obtain ⟨a, ha, heq⟩ := Option.map_eq_some_iff.mp hread
    rw [ha, ← heq]
  · intro hread
    rw [hread, Option.map_some]

theorem string_neverNull : (string : JsonFormat σ ν σ).NeverNull := by
  intro a h
  cases h

theorem number_neverNull (embed : α → ν) (project : ν → Option α) :
    (number embed project : JsonFormat σ ν α).NeverNull := by
  intro a h
  cases h

theorem named_neverNull (name : α → σ) (withName : σ → Option α) :
    (named name withName : JsonFormat σ ν α).NeverNull := by
  intro a h
  cases h

theorem list_neverNull (F : JsonFormat σ ν α) : F.list.NeverNull := by
  intro a h
  cases h

theorem entries_neverNull (F : JsonFormat σ ν α) : F.entries.NeverNull := by
  intro a h
  cases h

/-- The same values, described in another way. -/
theorem ExactOn.congr {F : JsonFormat σ ν α} {good good' : α → Prop} (h : F.ExactOn good)
    (hgood : ∀ a, good a ↔ good' a) : F.ExactOn good' := by
  intro a
  rw [h a, hgood a]

end JsonFormat

/-! ### Fields of an object -/

variable [DecidableEq σ]

/-- `fields \\ k`. -/
def JsFields.get : JsFields σ ν → σ → Option (JsValue σ ν)
  | [], _ => none
  | (l, v) :: rest, k => if k = l then some v else JsFields.get rest k

/-- `a ++ b` of objects: where both have a key, the value of `b` counts. -/
def JsFields.merge (a b : JsFields σ ν) : JsFields σ ν :=
  a.map (fun field => (field.1, (JsFields.get b field.1).getD field.2)) ++
    b.filter fun field => (JsFields.get a field.1).isNone

namespace JsFields

theorem get_eq_none_of_forall {fields : JsFields σ ν} {k : σ} (h : ∀ f ∈ fields, f.1 ≠ k) :
    fields.get k = none := by
  induction fields with
  | nil => rfl
  | cons field rest ih =>
    obtain ⟨l, v⟩ := field
    obtain ⟨hhead, hrest⟩ := List.forall_mem_cons.mp h
    rw [get, if_neg hhead.symm, ih hrest]

theorem get_append (a b : JsFields σ ν) (k : σ) :
    JsFields.get (a ++ b) k = (a.get k).or (b.get k) := by
  induction a with
  | nil => rfl
  | cons field rest ih =>
    obtain ⟨l, v⟩ := field
    by_cases h : k = l
    · simp only [List.cons_append, get, if_pos h, Option.some_or]
    · simp only [List.cons_append, get, if_neg h, ih]

theorem get_map_snd (a : JsFields σ ν) (f : σ → JsValue σ ν → JsValue σ ν) (k : σ) :
    JsFields.get (a.map fun field => (field.1, f field.1 field.2)) k = (a.get k).map (f k) := by
  induction a with
  | nil => rfl
  | cons field rest ih =>
    obtain ⟨l, v⟩ := field
    by_cases h : k = l
    · subst h
      simp only [List.map_cons, get, if_true, Option.map_some]
    · simp only [List.map_cons, get, if_neg h, ih]

theorem get_filter_fst (b : JsFields σ ν) (p : σ → Bool) (k : σ) :
    JsFields.get (b.filter fun field => p field.1) k = if p k then b.get k else none := by
  induction b with
  | nil => simp [get]
  | cons field rest ih =>
    obtain ⟨l, v⟩ := field
    by_cases h : k = l
    · subst h
      by_cases hp : p k = true
      · simp only [List.filter_cons, hp, if_true, get]
      · simp only [List.filter_cons, hp, ih, if_false, Bool.false_eq_true]
    · by_cases hp : p l = true
      · simp only [List.filter_cons, hp, if_true, get, if_neg h, ih]
      · simp only [List.filter_cons, hp, get, if_neg h, ih, if_false, Bool.false_eq_true]

theorem get_merge (a b : JsFields σ ν) (k : σ) :
    (a.merge b).get k = (b.get k).or (a.get k) := by
  rw [merge, get_append, get_map_snd a fun key v => (b.get key).getD v,
    get_filter_fst b fun key => (a.get key).isNone]
  rcases a.get k with _ | v
  · simp
  · rcases b.get k with _ | w
    · rfl
    · rfl

end JsFields

/-! ### Objects -/

/-- A format of some fields of an object. -/
structure ObjectFormat (σ ν α : Type) [DecidableEq σ] where
  keys : List σ
  reads : JsFields σ ν → Option α
  writes : α → JsFields σ ν
  writes_keys : ∀ a, ∀ field ∈ writes a, field.1 ∈ keys
  reads_congr : ∀ fields fields' : JsFields σ ν,
    (∀ k ∈ keys, fields.get k = fields'.get k) → reads fields = reads fields'

namespace ObjectFormat

/-- Reading back what was written succeeds for the good values, and for these only. -/
def ExactOn (F : ObjectFormat σ ν α) (good : α → Prop) : Prop :=
  ∀ a, F.reads (F.writes a) = some a ↔ good a

theorem ExactOn.congr {F : ObjectFormat σ ν α} {good good' : α → Prop} (h : F.ExactOn good)
    (hgood : ∀ a, good a ↔ good' a) : F.ExactOn good' := by
  intro a
  rw [h a, hgood a]

theorem get_writes_eq_none (F : ObjectFormat σ ν α) (a : α) {k : σ} (h : k ∉ F.keys) :
    (F.writes a).get k = none := by
  apply JsFields.get_eq_none_of_forall
  rintro field hfield rfl
  exact h (F.writes_keys a field hfield)

/-- A field that is always written. -/
def field (k : σ) (F : JsonFormat σ ν α) : ObjectFormat σ ν α where
  keys := [k]
  reads := fun fields => (fields.get k).bind F.reads
  writes := fun a => [(k, F.writes a)]
  writes_keys := by
    intro a field h
    rw [List.mem_singleton.mp h]
    exact List.mem_singleton_self k
  reads_congr := by
    intro fields fields' h
    rw [h k (List.mem_singleton_self k)]

/-- A field that is written when there is something to write; `null` is read as nothing. -/
def fieldNullable (k : σ) (F : JsonFormat σ ν α) : ObjectFormat σ ν (Option α) where
  keys := [k]
  reads := fun fields =>
    match fields.get k with
    | none => some none
    | some .null => some none
    | some value => (F.reads value).map some
  writes := fun
    | none => []
    | some a => [(k, F.writes a)]
  writes_keys := by
    intro a field h
    cases a with
    | none => exact absurd h List.not_mem_nil
    | some a =>
      rw [List.mem_singleton.mp h]
      exact List.mem_singleton_self k
  reads_congr := by
    intro fields fields' h
    rw [h k (List.mem_singleton_self k)]

/-- Two formats side by side. -/
def and (F : ObjectFormat σ ν α) (G : ObjectFormat σ ν β) : ObjectFormat σ ν (α × β) where
  keys := F.keys ++ G.keys
  reads := fun fields => do
    let a ← F.reads fields
    let b ← G.reads fields
    some (a, b)
  writes := fun p => F.writes p.1 ++ G.writes p.2
  writes_keys := by
    intro p field h
    rcases List.mem_append.mp h with h | h
    · exact List.mem_append_left _ (F.writes_keys p.1 field h)
    · exact List.mem_append_right _ (G.writes_keys p.2 field h)
  reads_congr := by
    intro fields fields' h
    rw [F.reads_congr fields fields' fun k hk => h k (List.mem_append_left _ hk),
      G.reads_congr fields fields' fun k hk => h k (List.mem_append_right _ hk)]

/-- The same fields, for another type. -/
def inmap (F : ObjectFormat σ ν α) (f : α → β) (g : β → α) : ObjectFormat σ ν β where
  keys := F.keys
  reads := fun fields => (F.reads fields).map f
  writes := fun b => F.writes (g b)
  writes_keys := fun b => F.writes_keys (g b)
  reads_congr := by
    intro fields fields' h
    rw [F.reads_congr fields fields' h]

/-- The format of the object that has these fields. -/
def toJson (F : ObjectFormat σ ν α) : JsonFormat σ ν α where
  reads := fun json => F.reads json.fields
  writes := fun a => .object (F.writes a)

theorem field_exactOn {k : σ} {F : JsonFormat σ ν α} {good : α → Prop} (h : F.ExactOn good) :
    (field k F).ExactOn good := by
  intro a
  rw [← h a]
  simp [field, JsFields.get]

theorem reads_writes_fieldNullable {k : σ} {F : JsonFormat σ ν α} (hnull : F.NeverNull)
    (a : α) : (fieldNullable k F).reads ((fieldNullable k F).writes (some a)) =
      (F.reads (F.writes a)).map some := by
  simp only [fieldNullable, JsFields.get, if_true]
  split
  · rename_i h
    cases h
  · rename_i h
    exact absurd (Option.some.inj h) (hnull a)
  · rename_i h
    rw [Option.some.inj h]

theorem fieldNullable_exactOn {k : σ} {F : JsonFormat σ ν α} {good : α → Prop}
    (h : F.ExactOn good) (hnull : F.NeverNull) :
    (fieldNullable k F).ExactOn fun value => ∀ a ∈ value, good a := by
  intro value
  cases value with
  | none => simp [fieldNullable, JsFields.get]
  | some a =>
    rw [reads_writes_fieldNullable hnull, Option.map_eq_some_iff]
    constructor
    · rintro ⟨b, hb, hbeq⟩ c hc
      rw [← Option.some.inj hc, ← h a, hb]
      exact hbeq
    · intro hgood
      exact ⟨a, (h a).mpr (hgood a rfl), rfl⟩

/-- What one format wrote is not seen by another one with different keys. -/
theorem reads_append_left (F : ObjectFormat σ ν α) (fields more : JsFields σ ν)
    (h : ∀ k ∈ F.keys, more.get k = none) : F.reads (fields ++ more) = F.reads fields := by
  apply F.reads_congr
  intro k hk
  rw [JsFields.get_append, h k hk, Option.or_none]

theorem reads_append_right (F : ObjectFormat σ ν α) (fields more : JsFields σ ν)
    (h : ∀ k ∈ F.keys, fields.get k = none) : F.reads (fields ++ more) = F.reads more := by
  apply F.reads_congr
  intro k hk
  rw [JsFields.get_append, h k hk, Option.none_or]

theorem and_exactOn {F : ObjectFormat σ ν α} {G : ObjectFormat σ ν β} {good : α → Prop}
    {good' : β → Prop} (hF : F.ExactOn good) (hG : G.ExactOn good')
    (hdisjoint : ∀ k ∈ F.keys, k ∉ G.keys) :
    (F.and G).ExactOn fun p => good p.1 ∧ good' p.2 := by
  rintro ⟨a, b⟩
  have hleft : F.reads (F.writes a ++ G.writes b) = F.reads (F.writes a) :=
    F.reads_append_left _ _ fun k hk => G.get_writes_eq_none b (hdisjoint k hk)
  have hright : G.reads (F.writes a ++ G.writes b) = G.reads (G.writes b) :=
    G.reads_append_right _ _ fun k hk => F.get_writes_eq_none a fun h => hdisjoint k h hk
  simp only [and, hleft, hright]
  rw [← hF a, ← hG b]
  constructor
  · intro h
    obtain ⟨a', ha, h⟩ := Option.bind_eq_some_iff.mp h
    obtain ⟨b', hb, h⟩ := Option.bind_eq_some_iff.mp h
    obtain ⟨rfl, rfl⟩ := Prod.mk.inj (Option.some.inj h)
    exact ⟨ha, hb⟩
  · rintro ⟨ha, hb⟩
    rw [ha, hb]
    rfl

theorem inmap_exactOn {F : ObjectFormat σ ν α} {good : α → Prop} (h : F.ExactOn good)
    {f : α → β} {g : β → α} (hfg : ∀ b, f (g b) = b) (hgf : ∀ a, g (f a) = a) :
    (F.inmap f g).ExactOn fun b => good (g b) := by
  intro b
  show (F.reads (F.writes (g b))).map f = some b ↔ good (g b)
  rw [← h (g b), Option.map_eq_some_iff]
  constructor
  · rintro ⟨a, ha, hab⟩
    rw [ha, ← hab, hgf]
  · intro hread
    exact ⟨g b, hread, hfg b⟩

theorem toJson_exactOn {F : ObjectFormat σ ν α} {good : α → Prop} (h : F.ExactOn good) :
    F.toJson.ExactOn good := h

theorem toJson_neverNull (F : ObjectFormat σ ν α) : F.toJson.NeverNull := by
  intro a h
  cases h

end ObjectFormat

end DsaBroker
