import DsaBroker.JsonFormats

/-!
# Readers that may throw

A reader of JSON answers with a value or with an error, and code in it may throw instead.  The
readers that are put together from others read all of their parts, since the errors of the parts
are collected, and they catch nothing: they throw when one of their parts does.  A reader that
stands in a `try` does not throw, and `get` throws on an error.

`Sound` connects a reader with a format: what is read is what the format reads.
-/

namespace DsaBroker

/-- What comes of reading a value. -/
inductive ReadOutcome (α : Type) where
  | success (value : α)
  | error
  | thrown
deriving DecidableEq

variable {σ ν α β γ : Type}

namespace ReadOutcome

def map (f : α → β) : ReadOutcome α → ReadOutcome β
  | success a => success (f a)
  | error => error
  | thrown => thrown

def bind (f : α → ReadOutcome β) : ReadOutcome α → ReadOutcome β
  | success a => f a
  | error => error
  | thrown => thrown

/-- Two parts, both of which are read. -/
def both : ReadOutcome α → ReadOutcome β → ReadOutcome (α × β)
  | thrown, _ => thrown
  | _, thrown => thrown
  | success a, success b => success (a, b)
  | _, _ => error

/-- Any number of parts, all of which are read. -/
def collect : List (ReadOutcome α) → ReadOutcome (List α)
  | [] => success []
  | outcome :: rest => (outcome.both (collect rest)).map fun p => p.1 :: p.2

/-- `try` with a handler that returns an error. -/
def caught : ReadOutcome α → ReadOutcome α
  | thrown => error
  | outcome => outcome

/-- The value of a success; throws on an error. -/
def get : ReadOutcome α → ReadOutcome α
  | error => thrown
  | outcome => outcome

/-- A lookup that throws when it finds nothing. -/
def orThrow : Option α → ReadOutcome α
  | some a => success a
  | none => thrown

theorem map_eq_success {f : α → β} {outcome : ReadOutcome α} {b : β}
    (h : outcome.map f = success b) : ∃ a, outcome = success a ∧ f a = b := by
  cases outcome with
  | success a =>
    cases h
    exact ⟨a, rfl, rfl⟩
  | error => cases h
  | thrown => cases h

theorem map_eq_thrown_iff (f : α → β) (outcome : ReadOutcome α) :
    outcome.map f = thrown ↔ outcome = thrown := by
  cases outcome <;> simp [map]

theorem both_eq_success {first : ReadOutcome α} {second : ReadOutcome β} {p : α × β}
    (h : first.both second = success p) : first = success p.1 ∧ second = success p.2 := by
  cases first <;> cases second <;> simp_all [both, Prod.ext_iff]

theorem both_eq_thrown_iff (first : ReadOutcome α) (second : ReadOutcome β) :
    first.both second = thrown ↔ first = thrown ∨ second = thrown := by
  cases first <;> cases second <;> simp [both]

theorem collect_eq_thrown_iff (outcomes : List (ReadOutcome α)) :
    collect outcomes = thrown ↔ thrown ∈ outcomes := by
  induction outcomes with
  | nil => simp [collect]
  | cons outcome rest ih =>
    rw [collect, map_eq_thrown_iff, both_eq_thrown_iff, ih, List.mem_cons, eq_comm]

theorem caught_ne_thrown (outcome : ReadOutcome α) : outcome.caught ≠ thrown := by
  cases outcome <;> simp [caught]

end ReadOutcome

/-! ### Readers -/

abbrev Reads (σ ν α : Type) := JsValue σ ν → ReadOutcome α

namespace Reads

def NeverThrows (r : Reads σ ν α) : Prop := ∀ json, r json ≠ .thrown

/-- What is read is what the format reads. -/
def Sound (r : Reads σ ν α) (F : JsonFormat σ ν α) : Prop :=
  ∀ json a, r json = .success a → F.reads json = some a

def string : Reads σ ν σ
  | .string value => .success value
  | _ => .error

def boolean : Reads σ ν Bool
  | .boolean value => .success value
  | _ => .error

/-- Numbers of a kind that is part of `ν`. -/
def number (project : ν → Option α) : Reads σ ν α
  | .number value => (project value).elim .error .success
  | _ => .error

/-- A value looked up by its name, in a `try`. -/
def named (withName : σ → Option α) : Reads σ ν α
  | .string value => (ReadOutcome.orThrow (withName value)).caught
  | _ => .error

def map (f : α → β) (r : Reads σ ν α) : Reads σ ν β := fun json => (r json).map f

def and (r : Reads σ ν α) (s : Reads σ ν β) : Reads σ ν (α × β) :=
  fun json => (r json).both (s json)

def list (r : Reads σ ν α) : Reads σ ν (List α)
  | .array items => .collect (items.map r)
  | _ => .error

/-- A map from strings, read from an object. -/
def entries (r : Reads σ ν α) : Reads σ ν (List (σ × α))
  | .object fields => .collect (fields.map fun field => (r field.2).map (Prod.mk field.1))
  | _ => .error

/-- `(__ \ k).read`. -/
def field [DecidableEq σ] (k : σ) (r : Reads σ ν α) : Reads σ ν α := fun json =>
  match json.fields.get k with
  | some value => r value
  | none => .error

/-- `(__ \ k).readNullable`. -/
def fieldNullable [DecidableEq σ] (k : σ) (r : Reads σ ν α) : Reads σ ν (Option α) := fun json =>
  match json.fields.get k with
  | none => .success none
  | some .null => .success none
  | some value => (r value).map some

/-! ### Readers that do not throw -/

theorem neverThrows_string : (string : Reads σ ν σ).NeverThrows := by
  intro json
  cases json <;> simp [string]

theorem neverThrows_boolean : (boolean : Reads σ ν Bool).NeverThrows := by
  intro json
  cases json <;> simp [boolean]

theorem neverThrows_number (project : ν → Option α) :
    (number project : Reads σ ν α).NeverThrows := by
  intro json
  cases json with
  | number value =>
    rw [number]
    cases project value <;> simp
  | _ => simp [number]

theorem neverThrows_named (withName : σ → Option α) :
    (named withName : Reads σ ν α).NeverThrows := by
  intro json
  cases json <;> simp [named, ReadOutcome.caught_ne_thrown]

theorem NeverThrows.map {r : Reads σ ν α} (h : r.NeverThrows) (f : α → β) :
    (r.map f).NeverThrows := by
  intro json hthrown
  exact h json ((ReadOutcome.map_eq_thrown_iff f _).mp hthrown)

theorem NeverThrows.and {r : Reads σ ν α} {s : Reads σ ν β} (hr : r.NeverThrows)
    (hs : s.NeverThrows) : (r.and s).NeverThrows := by
  intro json hthrown
  rcases (ReadOutcome.both_eq_thrown_iff _ _).mp hthrown with hfirst | hsecond
  · exact hr json hfirst
  · exact hs json hsecond

/-- A list is not read without an exception just when an element is not. -/
theorem list_eq_thrown_iff (r : Reads σ ν α) (json : JsValue σ ν) :
    r.list json = .thrown ↔ ∃ items, json = .array items ∧ ∃ item ∈ items, r item = .thrown := by
  cases json with
  | array items =>
    rw [list, ReadOutcome.collect_eq_thrown_iff, List.mem_map]
    constructor
    · intro h
      exact ⟨items, rfl, h⟩
    · rintro ⟨_, heq, h⟩
      cases heq
      exact h
  | _ => simp [list]

theorem NeverThrows.list {r : Reads σ ν α} (h : r.NeverThrows) : r.list.NeverThrows := by
  intro json hthrown
  obtain ⟨_, _, item, _, hitem⟩ := (list_eq_thrown_iff r json).mp hthrown
  exact h item hitem

theorem NeverThrows.entries {r : Reads σ ν α} (h : r.NeverThrows) : r.entries.NeverThrows := by
  intro json
  cases json with
  | object fields =>
    intro hthrown
    have hmem := (ReadOutcome.collect_eq_thrown_iff _).mp hthrown
    obtain ⟨field, _, hfield⟩ := List.mem_map.mp hmem
    exact h field.2 ((ReadOutcome.map_eq_thrown_iff _ _).mp hfield)
  | _ => simp [Reads.entries]

section

variable [DecidableEq σ]

theorem field_eq_thrown_iff (k : σ) (r : Reads σ ν α) (json : JsValue σ ν) :
    r.field k json = .thrown ↔ ∃ value, json.fields.get k = some value ∧ r value = .thrown := by
  unfold Reads.field
  cases json.fields.get k <;> simp

theorem NeverThrows.field {r : Reads σ ν α} (h : r.NeverThrows) (k : σ) :
    (r.field k).NeverThrows := by
  intro json hthrown
  obtain ⟨value, _, hvalue⟩ := (field_eq_thrown_iff k r json).mp hthrown
  exact h value hvalue

theorem NeverThrows.fieldNullable {r : Reads σ ν α} (h : r.NeverThrows) (k : σ) :
    (r.fieldNullable k).NeverThrows := by
  intro json
  unfold Reads.fieldNullable
  split
  · simp
  · simp
  case h_3 value _ _ =>
    intro hthrown
    exact h value ((ReadOutcome.map_eq_thrown_iff some _).mp hthrown)

end

/-! ### Readers and formats -/

theorem sound_string : (string : Reads σ ν σ).Sound .string := by
  intro json a h
  cases json with
  | string value =>
    cases h
    rfl
  | _ => cases h

theorem sound_boolean : (boolean : Reads σ ν Bool).Sound .boolean := by
  intro json a h
  cases json with
  | boolean value =>
    cases h
    rfl
  | _ => cases h

/-- The reader may accept fewer numbers than the format. -/
theorem sound_number {embed : α → ν} {project project' : ν → Option α}
    (hproject : ∀ value a, project value = some a → project' value = some a) :
    (number project : Reads σ ν α).Sound (.number embed project') := by
  intro json a h
  cases json with
  | number value =>
    rw [number] at h
    cases hvalue : project value with
    | none =>
      rw [hvalue] at h
      cases h
    | some b =>
      rw [hvalue] at h
      cases h
      exact hproject value a hvalue
  | _ => cases h

theorem sound_named {name : α → σ} {withName : σ → Option α} :
    (named withName : Reads σ ν α).Sound (.named name withName) := by
  intro json a h
  cases json with
  | string value =>
    rw [named] at h
    cases hvalue : withName value with
    | none =>
      rw [hvalue] at h
      cases h
    | some b =>
      rw [hvalue] at h
      cases h
      exact hvalue
  | _ => cases h

/-- Parts that are all read in this way are read so one after the other. -/
theorem mapM_of_collect {f : γ → ReadOutcome α} {g : γ → Option α}
    (hread : ∀ c a, f c = .success a → g c = some a) {items : List γ} {results : List α}
    (h : ReadOutcome.collect (items.map f) = .success results) : items.mapM g = some results := by
  induction items generalizing results with
  | nil =>
    cases h
    rfl
  | cons item rest ih =>
    obtain ⟨p, hboth, rfl⟩ := ReadOutcome.map_eq_success h
    obtain ⟨hitem, hrest⟩ := ReadOutcome.both_eq_success hboth
    simp only [List.mapM_cons, hread item p.1 hitem, ih hrest, Option.bind_eq_bind,
      Option.bind_some, Option.pure_def]

theorem Sound.list {r : Reads σ ν α} {F : JsonFormat σ ν α} (h : r.Sound F) :
    r.list.Sound F.list := by
  intro json a hread
  cases json with
  | array items => exact mapM_of_collect h hread
  | _ => cases hread

theorem Sound.entries {r : Reads σ ν α} {F : JsonFormat σ ν α} (h : r.Sound F) :
    r.entries.Sound F.entries := by
  intro json a hread
  cases json with
  | object fields =>
    refine mapM_of_collect (fun field entry hentry => ?_) hread
    obtain ⟨value, hvalue, rfl⟩ := ReadOutcome.map_eq_success hentry
    rw [h field.2 value hvalue, Option.map_some]
  | _ => cases hread

variable [DecidableEq σ]

theorem Sound.field {r : Reads σ ν α} {F : JsonFormat σ ν α} (h : r.Sound F) (k : σ) :
    (r.field k).Sound (ObjectFormat.field k F).toJson := by
  intro json a hread
  show (json.fields.get k).bind F.reads = some a
  unfold Reads.field at hread
  cases hget : json.fields.get k with
  | none =>
    rw [hget] at hread
    cases hread
  | some value =>
    rw [hget] at hread
    exact h value a hread

theorem Sound.fieldNullable {r : Reads σ ν α} {F : JsonFormat σ ν α} (h : r.Sound F) (k : σ) :
    (r.fieldNullable k).Sound (ObjectFormat.fieldNullable k F).toJson := by
  intro json a hread
  unfold Reads.fieldNullable at hread
  have hvalue : ∀ value, (r value).map some = .success a → (F.reads value).map some = some a := by
    intro value hmap
    obtain ⟨b, hb, rfl⟩ := ReadOutcome.map_eq_success hmap
    rw [h value b hb, Option.map_some]
  have hnone : (.success none : ReadOutcome (Option α)) = .success a → some none = some a := by
    intro heq
    cases heq
    rfl
  simp only [ObjectFormat.toJson, ObjectFormat.fieldNullable]
  cases hget : json.fields.get k with
  | none =>
    rw [hget] at hread
    exact hnone hread
  | some value =>
    rw [hget] at hread
    cases value with
    | null => exact hnone hread
    | _ => exact hvalue _ hread

theorem Sound.and {r : Reads σ ν α} {s : Reads σ ν β} {F : ObjectFormat σ ν α}
    {G : ObjectFormat σ ν β} (hr : r.Sound F.toJson) (hs : s.Sound G.toJson) :
    (r.and s).Sound (F.and G).toJson := by
  intro json p hread
  obtain ⟨hfirst, hsecond⟩ := ReadOutcome.both_eq_success hread
  have hF : F.reads json.fields = some p.1 := hr json p.1 hfirst
  have hG : G.reads json.fields = some p.2 := hs json p.2 hsecond
  simp only [ObjectFormat.toJson, ObjectFormat.and, hF, hG, Option.bind_eq_bind, Option.bind_some]

/-- A reader of fields and the format of these fields, both followed by a function. -/
theorem Sound.map_reads {r : Reads σ ν α} {F : ObjectFormat σ ν α} (h : r.Sound F.toJson)
    {f : α → β} {json : JsValue σ ν} {b : β} (hread : (r json).map f = .success b) :
    (F.reads json.fields).map f = some b := by
  obtain ⟨a, ha, rfl⟩ := ReadOutcome.map_eq_success hread
  have hF : F.reads json.fields = some a := h json a ha
  rw [hF, Option.map_some]

theorem Sound.map {r : Reads σ ν α} {F : ObjectFormat σ ν α} (h : r.Sound F.toJson) (f : α → β)
    (g : β → α) : (r.map f).Sound (F.inmap f g).toJson := by
  intro json b hread
  exact h.map_reads hread

end Reads

end DsaBroker
