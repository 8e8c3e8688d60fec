import Mathlib.Data.List.Forall2
import Mathlib.Data.List.Nodup
import DsaBroker.JsonFormats

/-!
# Formats and the order of fields

Two JSON values that only differ in the order of the fields of their objects are read alike: both
are refused, or what is read from the one is what is read from the other, but for the order of maps.
No format has to be looked at for this.  It follows from how formats are put together, and holds for
every relation of values that goes down into arrays and objects.
-/

namespace DsaBroker

variable {α β γ δ σ ν : Type}

/-! ### Results of readers -/

theorem rel_bind {S : α → β → Prop} {T : γ → δ → Prop} {a : Option α} {b : Option β}
    {f : α → Option γ} {g : β → Option δ} (h : Option.Rel S a b)
    (hfg : ∀ x y, S x y → Option.Rel T (f x) (g y)) : Option.Rel T (a >>= f) (b >>= g) := by
  rcases h with hxy | _
  · exact hfg _ _ hxy
  · exact .none

theorem rel_map {S : α → β → Prop} {T : γ → δ → Prop} {a : Option α} {b : Option β} {f : α → γ}
    {g : β → δ} (h : Option.Rel S a b) (hfg : ∀ x y, S x y → T (f x) (g y)) :
    Option.Rel T (a.map f) (b.map g) := by
  rcases h with hxy | _
  · exact .some (hfg _ _ hxy)
  · exact .none

theorem rel_isSome {S : α → β → Prop} {a : Option α} {b : Option β} (h : Option.Rel S a b) :
    b.isSome = a.isSome := by
  rcases h with _ | _
  · rfl
  · rfl

theorem rel_eq {a b : Option α} : Option.Rel Eq a b ↔ b = a := by
  constructor
  · intro h
    rcases h with hxy | _
    · rw [hxy]
    · rfl
  · rintro rfl
    rcases b with _ | x
    · exact .none
    · exact .some rfl

theorem rel_mapM {S : α → β → Prop} {f : γ → Option α} {g : δ → Option β} {items : List γ}
    {items' : List δ} (h : List.Forall₂ (fun a b => Option.Rel S (f a) (g b)) items items') :
    Option.Rel (List.Forall₂ S) (items.mapM f) (items'.mapM g) := by
  induction h with
  | nil => exact .some .nil
  | cons hhead _ ih =>
    rw [List.mapM_cons, List.mapM_cons]
    exact rel_bind hhead fun x y hxy => rel_bind ih fun xs ys hrest => .some (.cons hxy hrest)

theorem rel_trans {S : α → β → Prop} {T : β → γ → Prop} {U : α → γ → Prop} {a : Option α}
    {b : Option β} {c : Option γ} (hab : Option.Rel S a b) (hbc : Option.Rel T b c)
    (h : ∀ x y z, S x y → T y z → U x z) : Option.Rel U a c := by
  cases hab with
  | some hxy =>
    cases hbc with
    | some hyz => exact .some (h _ _ _ hxy hyz)
  | none =>
    cases hbc with
    | none => exact .none

/-- A list that is read in another order gives the same, in that order. -/
theorem rel_mapM_perm {f : γ → Option α} {items items' : List γ} (h : items.Perm items') :
    Option.Rel List.Perm (items.mapM f) (items'.mapM f) := by
  induction h with
  | nil => exact .some (List.Perm.refl _)
  | @cons a rest rest' _ ih =>
    rw [List.mapM_cons, List.mapM_cons]
    rcases f a with _ | x
    · exact .none
    · show Option.Rel List.Perm (rest.mapM f >>= fun xs => some (x :: xs))
        (rest'.mapM f >>= fun xs => some (x :: xs))
      exact rel_bind ih fun xs ys hperm => .some (hperm.cons x)
  | swap a b rest =>
    simp only [List.mapM_cons]
    rcases f a with _ | x
    · rcases f b with _ | y
      · exact .none
      · exact .none
    · rcases f b with _ | y
      · exact .none
      · rcases rest.mapM f with _ | xs
        · exact .none
        · exact .some (List.Perm.swap x y xs)
  | trans _ _ ih ih' => exact rel_trans ih ih' fun _ _ _ => List.Perm.trans

/-! ### Values that differ in the order of fields -/

/-- Entries with the same keys and with related values, in any order. -/
def SameEntries (R : α → β → Prop) (entries : List (σ × α)) (entries' : List (σ × β)) : Prop :=
  ∃ between, List.Forall₂ (fun e e' => e'.1 = e.1 ∧ R e.2 e'.2) entries between ∧
    between.Perm entries'

theorem forall₂_keys_eq {entries : List (σ × α)} {between : List (σ × β)} {R : α → β → Prop}
    (h : List.Forall₂ (fun e e' => e'.1 = e.1 ∧ R e.2 e'.2) entries between) :
    between.map Prod.fst = entries.map Prod.fst := by
  induction h with
  | nil => rfl
  | cons hhead _ ih => rw [List.map_cons, List.map_cons, hhead.1, ih]

/-- Values of one kind, with related parts. -/
def JsValue.Matches (R : JsValue σ ν → JsValue σ ν → Prop) :
    JsValue σ ν → JsValue σ ν → Prop
  | .array items, other => ∃ items', other = .array items' ∧ List.Forall₂ R items items'
  | .object fields, other => (fields.map Prod.fst).Nodup ∧
      ∃ fields', other = .object fields' ∧ SameEntries R fields fields'
  | v, other => other = v

/-- Related values are of one kind, and so are their parts. -/
def JsValue.Bisimulation (R : JsValue σ ν → JsValue σ ν → Prop) : Prop :=
  ∀ v v', R v v' → JsValue.Matches R v v'

/-- Objects that are read alike. -/
def JsFields.Alike (R : JsValue σ ν → JsValue σ ν → Prop) (fields fields' : JsFields σ ν) : Prop :=
  (fields.map Prod.fst).Nodup ∧ SameEntries R fields fields'

/-- Related values are both refused, or related results are read from them. -/
def JsonFormat.Respects (F : JsonFormat σ ν α) (R : JsValue σ ν → JsValue σ ν → Prop)
    (S : α → α → Prop) : Prop :=
  ∀ v v', R v v' → Option.Rel S (F.reads v) (F.reads v')

variable {R : JsValue σ ν → JsValue σ ν → Prop} {S : α → α → Prop}

namespace JsValue.Bisimulation

variable {v v' : JsValue σ ν}

theorem array_cases (hR : JsValue.Bisimulation R) (h : R v v') :
    (∃ items items', v = .array items ∧ v' = .array items' ∧ List.Forall₂ R items items') ∨
      ((∀ items, v ≠ .array items) ∧ ∀ items, v' ≠ .array items) := by
  have hmatch := hR v v' h
  cases v with
  | array items =>
    obtain ⟨items', rfl, hitems⟩ := hmatch
    exact Or.inl ⟨items, items', rfl, rfl, hitems⟩
  | object fields =>
    obtain ⟨-, fields', rfl, -⟩ := hmatch
    simp
  | null | boolean | number | string =>
    obtain rfl : v' = _ := hmatch
    simp

theorem object_cases (hR : JsValue.Bisimulation R) (h : R v v') :
    (∃ fields fields', v = .object fields ∧ v' = .object fields' ∧
        JsFields.Alike R fields fields') ∨
      ((∀ fields, v ≠ .object fields) ∧ ∀ fields, v' ≠ .object fields) := by
  have hmatch := hR v v' h
  cases v with
  | object fields =>
    obtain ⟨hnodup, fields', rfl, hfields⟩ := hmatch
    exact Or.inl ⟨fields, fields', rfl, rfl, hnodup, hfields⟩
  | array items =>
    obtain ⟨items', rfl, -⟩ := hmatch
    simp
  | null | boolean | number | string =>
    obtain rfl : v' = _ := hmatch
    simp

theorem eq_null_iff (hR : JsValue.Bisimulation R) (h : R v v') : v' = .null ↔ v = .null := by
  have hmatch := hR v v' h
  cases v with
  | object fields =>
    obtain ⟨-, fields', rfl, -⟩ := hmatch
    simp
  | array items =>
    obtain ⟨items', rfl, -⟩ := hmatch
    simp
  | null | boolean | number | string =>
    obtain rfl : v' = _ := hmatch
    simp

end JsValue.Bisimulation

namespace JsonFormat

/-- A format that only reads values without parts reads the same. -/
theorem respects_of_leaf {F : JsonFormat σ ν α} (hR : JsValue.Bisimulation R)
    (harray : ∀ items, F.reads (.array items) = none)
    (hobject : ∀ fields, F.reads (.object fields) = none) : F.Respects R Eq := by
  intro v v' hv
  have hmatch := hR v v' hv
  rw [rel_eq]
  cases v with
  | array items =>
    obtain ⟨items', rfl, -⟩ := hmatch
    rw [harray, harray]
  | object fields =>
    obtain ⟨-, fields', rfl, -⟩ := hmatch
    rw [hobject, hobject]
  | null => rw [show v' = .null from hmatch]
  | boolean value => rw [show v' = .boolean value from hmatch]
  | number value => rw [show v' = .number value from hmatch]
  | string value => rw [show v' = .string value from hmatch]

theorem string_respects (hR : JsValue.Bisimulation R) :
    (string : JsonFormat σ ν σ).Respects R Eq :=
  respects_of_leaf hR (fun _ => rfl) fun _ => rfl

theorem boolean_respects (hR : JsValue.Bisimulation R) :
    (boolean : JsonFormat σ ν Bool).Respects R Eq :=
  respects_of_leaf hR (fun _ => rfl) fun _ => rfl

theorem number_respects (hR : JsValue.Bisimulation R) (embed : α → ν) (project : ν → Option α) :
    (number embed project : JsonFormat σ ν α).Respects R Eq :=
  respects_of_leaf hR (fun _ => rfl) fun _ => rfl

theorem named_respects (hR : JsValue.Bisimulation R) (name : α → σ) (withName : σ → Option α) :
    (named name withName : JsonFormat σ ν α).Respects R Eq :=
  respects_of_leaf hR (fun _ => rfl) fun _ => rfl

theorem list_respects {F : JsonFormat σ ν α} (hR : JsValue.Bisimulation R) (h : F.Respects R S) :
    F.list.Respects R (List.Forall₂ S) := by
  have hnone : ∀ v : JsValue σ ν, (∀ items, v ≠ .array items) → F.list.reads v = none := by
    intro v hv
    cases v with
    | array items => exact absurd rfl (hv items)
    | _ => rfl
  intro v v' hv
  rcases hR.array_cases hv with ⟨items, items', rfl, rfl, hitems⟩ | ⟨hnot, hnot'⟩
  · exact rel_mapM (hitems.imp fun a b hab => h a b hab)
  · rw [hnone v hnot, hnone v' hnot']
    exact .none

/-- The values of an object are read where they are, and arrive in the order of its fields. -/
theorem rel_mapM_entries {f : JsValue σ ν → Option α} {fields fields' : JsFields σ ν}
    (h : SameEntries (fun v v' => Option.Rel S (f v) (f v')) fields fields') :
    Option.Rel (SameEntries S)
      (fields.mapM fun field => (f field.2).map fun a => (field.1, a))
      (fields'.mapM fun field => (f field.2).map fun a => (field.1, a)) := by
  obtain ⟨between, hbetween, hperm⟩ := h
  have hread : List.Forall₂ (fun e e' => Option.Rel (fun r r' => r'.1 = r.1 ∧ S r.2 r'.2)
      ((f e.2).map fun a => (e.1, a)) ((f e'.2).map fun a => (e'.1, a))) fields between := by
    apply hbetween.imp
    intro e e' hee
    exact rel_map hee.2 fun a b hab => ⟨hee.1, hab⟩
  apply rel_trans (rel_mapM hread) (rel_mapM_perm hperm)
  exact fun entries between' entries' hbetween' hperm' => ⟨between', hbetween', hperm'⟩

theorem entries_respects {F : JsonFormat σ ν α} (hR : JsValue.Bisimulation R)
    (h : F.Respects R S) : F.entries.Respects R (SameEntries S) := by
  have hnone : ∀ v : JsValue σ ν, (∀ fields, v ≠ .object fields) → F.entries.reads v = none := by
    intro v hv
    cases v with
    | object fields => exact absurd rfl (hv fields)
    | _ => rfl
  intro v v' hv
  rcases hR.object_cases hv with ⟨fields, fields', rfl, rfl, -, hfields⟩ | ⟨hnot, hnot'⟩
  · obtain ⟨between, hbetween, hperm⟩ := hfields
    apply rel_mapM_entries
    exact ⟨between, hbetween.imp fun e e' hee => ⟨hee.1, h _ _ hee.2⟩, hperm⟩
  · rw [hnone v hnot, hnone v' hnot']
    exact .none

end JsonFormat

/-! ### Objects -/

section Objects

variable [DecidableEq σ]

namespace JsFields

theorem mem_of_get {fields : JsFields σ ν} {k : σ} {v : JsValue σ ν}
    (h : fields.get k = some v) : (k, v) ∈ fields := by
  induction fields with
  | nil => cases h
  | cons field rest ih =>
    obtain ⟨l, w⟩ := field
    rw [JsFields.get] at h
    split_ifs at h with hkl
    · rw [hkl, ← Option.some.inj h]
      exact List.mem_cons_self
    · exact List.mem_cons_of_mem _ (ih h)

/-- Where a key comes once, its field is found wherever it stands. -/
theorem get_of_mem {fields : JsFields σ ν} (hnodup : (fields.map Prod.fst).Nodup) {k : σ}
    {v : JsValue σ ν} (h : (k, v) ∈ fields) : fields.get k = some v := by
  induction fields with
  | nil => exact absurd h List.not_mem_nil
  | cons field rest ih =>
    obtain ⟨l, w⟩ := field
    obtain ⟨hl, hrest⟩ := List.nodup_cons.mp hnodup
    rw [JsFields.get]
    rcases List.mem_cons.mp h with heq | hmem
    · obtain ⟨rfl, rfl⟩ := Prod.mk.inj heq
      rw [if_pos rfl]
    · have hne : k ≠ l := by
        rintro rfl
        exact hl (List.mem_map.mpr ⟨_, hmem, rfl⟩)
      rw [if_neg hne, ih hrest hmem]

theorem get_perm {fields fields' : JsFields σ ν} (hnodup : (fields.map Prod.fst).Nodup)
    (h : fields.Perm fields') (k : σ) : fields'.get k = fields.get k := by
  have hnodup' : (fields'.map Prod.fst).Nodup := (h.map Prod.fst).nodup_iff.mp hnodup
  rcases hget : fields.get k with _ | v
  · rcases hget' : fields'.get k with _ | v'
    · rfl
    · rw [get_of_mem hnodup (h.mem_iff.mpr (mem_of_get hget'))] at hget
      cases hget
  · exact get_of_mem hnodup' (h.mem_iff.mp (mem_of_get hget))

theorem rel_get {fields between : JsFields σ ν}
    (h : List.Forall₂ (fun e e' => e'.1 = e.1 ∧ R e.2 e'.2) fields between) (k : σ) :
    Option.Rel R (fields.get k) (between.get k) := by
  induction h with
  | nil => exact .none
  | @cons e e' _ _ hhead _ ih =>
    obtain ⟨l, v⟩ := e
    obtain ⟨l', v'⟩ := e'
    obtain ⟨rfl, hv⟩ := hhead
    rw [JsFields.get, JsFields.get]
    by_cases hkl : k = l'
    · rw [if_pos hkl, if_pos hkl]
      exact .some hv
    · rw [if_neg hkl, if_neg hkl]
      exact ih

theorem Alike.rel_get {fields fields' : JsFields σ ν} (h : JsFields.Alike R fields fields')
    (k : σ) : Option.Rel R (fields.get k) (fields'.get k) := by
  obtain ⟨hnodup, between, hbetween, hperm⟩ := h
  rw [get_perm (by rw [forall₂_keys_eq hbetween]; exact hnodup) hperm]
  exact JsFields.rel_get hbetween k

omit [DecidableEq σ] in
theorem Alike.isEmpty_eq {fields fields' : JsFields σ ν} (h : JsFields.Alike R fields fields') :
    fields'.isEmpty = fields.isEmpty := by
  obtain ⟨-, between, hbetween, hperm⟩ := h
  rw [Bool.eq_iff_iff, List.isEmpty_iff_length_eq_zero, List.isEmpty_iff_length_eq_zero,
    hbetween.length_eq, hperm.length_eq]

end JsFields

namespace ObjectFormat

/-- Objects that are alike are both refused, or related results are read from them. -/
def Respects (F : ObjectFormat σ ν α) (R : JsValue σ ν → JsValue σ ν → Prop)
    (S : α → α → Prop) : Prop :=
  ∀ fields fields', JsFields.Alike R fields fields' →
    Option.Rel S (F.reads fields) (F.reads fields')

theorem field_respects {F : JsonFormat σ ν α} (h : F.Respects R S) (k : σ) :
    (field k F).Respects R S :=
  fun _ _ hfields => rel_bind (hfields.rel_get k) h

theorem fieldNullable_of_null (F : JsonFormat σ ν α) {fields : JsFields σ ν} {k : σ}
    (h : fields.get k = some .null) : (fieldNullable k F).reads fields = some none := by
  simp only [fieldNullable, h]

theorem fieldNullable_of_ne_null (F : JsonFormat σ ν α) {fields : JsFields σ ν} {k : σ}
    {v : JsValue σ ν} (h : fields.get k = some v) (hne : v ≠ .null) :
    (fieldNullable k F).reads fields = (F.reads v).map some := by
  simp only [fieldNullable, h]

theorem fieldNullable_respects {F : JsonFormat σ ν α} (hR : JsValue.Bisimulation R)
    (h : F.Respects R S) (k : σ) : (fieldNullable k F).Respects R (Option.Rel S) := by
  intro fields fields' hfields
  have hget := hfields.rel_get k
  rcases hv : fields.get k with _ | v
  · rcases hv' : fields'.get k with _ | v'
    · simp only [fieldNullable, hv, hv']
      exact .some .none
    · rw [hv, hv'] at hget
      cases hget
  · rcases hv' : fields'.get k with _ | v'
    · rw [hv, hv'] at hget
      cases hget
    · rw [hv, hv', Option.rel_some_some] at hget
      by_cases hnull : v = .null
      · obtain rfl := (hR.eq_null_iff hget).mpr hnull
        subst hnull
        rw [fieldNullable_of_null F hv, fieldNullable_of_null F hv']
        exact .some .none
      · have hnull' : v' ≠ .null := fun h' => hnull ((hR.eq_null_iff hget).mp h')
        rw [fieldNullable_of_ne_null F hv hnull, fieldNullable_of_ne_null F hv' hnull']
        exact rel_map (h v v' hget) fun _ _ hab => .some hab

theorem and_respects {F : ObjectFormat σ ν α} {G : ObjectFormat σ ν β} {T : β → β → Prop}
    (hF : F.Respects R S) (hG : G.Respects R T) :
    (F.and G).Respects R fun p q => S p.1 q.1 ∧ T p.2 q.2 :=
  fun fields fields' hfields => rel_bind (hF fields fields' hfields) fun _ _ hab =>
    rel_bind (hG fields fields' hfields) fun _ _ hcd => .some ⟨hab, hcd⟩

theorem inmap_respects {F : ObjectFormat σ ν α} {T : β → β → Prop} (h : F.Respects R S)
    {f : α → β} (g : β → α) (hf : ∀ a b, S a b → T (f a) (f b)) : (F.inmap f g).Respects R T :=
  fun fields fields' hfields => rel_map (h fields fields' hfields) hf

theorem toJson_respects {F : ObjectFormat σ ν α} (hR : JsValue.Bisimulation R)
    (h : F.Respects R S) : F.toJson.Respects R S := by
  have hempty : ∀ v : JsValue σ ν, (∀ fields, v ≠ .object fields) → v.fields = [] := by
    intro v hv
    cases v with
    | object fields => exact absurd rfl (hv fields)
    | _ => rfl
  intro v v' hv
  apply h
  rcases hR.object_cases hv with ⟨fields, fields', rfl, rfl, hfields⟩ | ⟨hnot, hnot'⟩
  · exact hfields
  · rw [hempty v hnot, hempty v' hnot']
    exact ⟨List.nodup_nil, [], .nil, List.Perm.refl _⟩

end ObjectFormat

end Objects

end DsaBroker
