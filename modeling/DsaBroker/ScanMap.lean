import Mathlib.Logic.Function.Basic
import Mathlib.Data.List.Basic
import Mathlib.Data.List.Nodup
import Mathlib.Data.List.Perm.Subperm

/-!
# Finite maps that are scanned as well as looked up

A hash map offers two ways in: by key, where only the stored value matters, and by
scanning it for an entry with some property, where the iteration order decides which
of several entries is found.  `ScanMap` keeps both views: a lookup function, so that
updates are `Function.update`, and the list of keys in order of insertion.

The order of a scan is left open.  `ScanOrder` gives it as an arbitrary function of the
keys present; its only law is that every key is visited once and no other.  A theorem over
`[ScanOrder κ]` therefore holds for insertion order, for hash order, and for a map that
switches from one to the other when it grows.
-/

/-- The order in which a map with the given keys (in order of insertion) is scanned. -/
class ScanOrder (κ : Type) where
  order : List κ → List κ
  perm_order : ∀ keys : List κ, (order keys).Perm keys

/-- Scanning in order of insertion. -/
instance (priority := low) ScanOrder.insertion (κ : Type) : ScanOrder κ where
  order keys := keys
  perm_order _ := List.Perm.refl _

theorem ScanOrder.mem_order [ScanOrder κ] (keys : List κ) (k : κ) :
    k ∈ ScanOrder.order keys ↔ k ∈ keys := (ScanOrder.perm_order keys).mem_iff

/-- A finite map: lookup by key, and the keys that are present in order of insertion. -/
structure ScanMap (κ α : Type) where
  get : κ → Option α
  keys : List κ
  nodup_keys : keys.Nodup
  mem_keys : ∀ k, k ∈ keys ↔ (get k).isSome

namespace ScanMap

variable {κ α : Type}

def empty : ScanMap κ α where
  get _ := none
  keys := []
  nodup_keys := List.nodup_nil
  mem_keys _ := by simp

@[simp] theorem get_empty (k : κ) : (empty : ScanMap κ α).get k = none := rfl

/-- The same keys, in the same order, with other values. -/
def mapValues (m : ScanMap κ α) (f : α → α) : ScanMap κ α where
  get k := (m.get k).map f
  keys := m.keys
  nodup_keys := m.nodup_keys
  mem_keys k := by rw [m.mem_keys, Option.isSome_map]

@[simp] theorem get_mapValues (m : ScanMap κ α) (f : α → α) (k : κ) :
    (m.mapValues f).get k = (m.get k).map f := rfl

/-- The entries that a partial function takes, with what it makes of them. -/
def select {β : Type} (m : ScanMap κ α) (f : κ → α → Option β) : ScanMap κ β where
  get k := (m.get k).bind (f k)
  keys := m.keys.filter fun k => ((m.get k).bind (f k)).isSome
  nodup_keys := m.nodup_keys.filter _
  mem_keys k := by
    simp only [List.mem_filter, m.mem_keys, and_iff_right_iff_imp]
    intro hsome
    obtain ⟨w, hw⟩ := Option.isSome_iff_exists.mp hsome
    obtain ⟨v, hv, _⟩ := Option.bind_eq_some_iff.mp hw
    rw [hv]
    rfl

@[simp] theorem get_select {β : Type} (m : ScanMap κ α) (f : κ → α → Option β) (k : κ) :
    (m.select f).get k = (m.get k).bind (f k) := rfl

/-! ### Scanning -/

section Scan

variable [ScanOrder κ]

/-- The first key, in scan order, whose value satisfies `p`. -/
def find (m : ScanMap κ α) (p : α → Bool) : Option κ :=
  (ScanOrder.order m.keys).find? fun k => (m.get k).any p

/-- What a successful scan returns is present and satisfies the predicate. -/
theorem get_of_find_eq_some {m : ScanMap κ α} {p : α → Bool} {k : κ}
    (h : m.find p = some k) : ∃ v, m.get k = some v ∧ p v = true := by
  have hany := List.find?_some h
  simpa [Option.any_eq_true] using hany

/-- A scan comes back empty only if no entry satisfies the predicate. -/
theorem find_eq_none {m : ScanMap κ α} {p : α → Bool} :
    m.find p = none ↔ ∀ k v, m.get k = some v → p v = false := by
  simp only [find, List.find?_eq_none, ScanOrder.mem_order, m.mem_keys, Option.any_eq_true,
    not_exists, not_and, Bool.not_eq_true]
  constructor
  · intro h k v hk
    exact h k (by simp [hk]) v hk
  · intro h k _ v hk
    exact h k v hk

/-! ### Going through all entries -/

/-- The entries, in scan order. -/
def entries (m : ScanMap κ α) : List (κ × α) :=
  (ScanOrder.order m.keys).filterMap fun k => (m.get k).map fun v => (k, v)

theorem mem_entries {m : ScanMap κ α} {entry : κ × α} :
    entry ∈ m.entries ↔ m.get entry.1 = some entry.2 := by
  rw [entries, List.mem_filterMap]
  constructor
  · rintro ⟨k, -, hk⟩
    obtain ⟨v, hv, rfl⟩ := Option.map_eq_some_iff.mp hk
    exact hv
  · intro h
    refine ⟨entry.1, ?_, by rw [h, Option.map_some]⟩
    rw [ScanOrder.mem_order, m.mem_keys, h, Option.isSome_some]

/-- Collecting from the entries what only the entry of `k` contributes gives what that entry
contributes, once. -/
theorem filterMap_entries [DecidableEq κ] {β : Type} (m : ScanMap κ α) (k : κ)
    (f : κ × α → Option β) (hf : ∀ j v, j ≠ k → f (j, v) = none) :
    m.entries.filterMap f = ((m.get k).bind fun v => f (k, v)).toList := by
  have hlist : ∀ keys : List κ, keys.Nodup →
      (keys.filterMap fun j => (m.get j).map fun v => (j, v)).filterMap f =
        if k ∈ keys then ((m.get k).bind fun v => f (k, v)).toList else [] := by
    intro keys hnodup
    induction keys with
    | nil => rfl
    | cons j rest ih =>
      obtain ⟨hj, hrest⟩ := List.nodup_cons.mp hnodup
      have ih := ih hrest
      by_cases hjk : j = k
      · subst hjk
        rw [if_neg hj] at ih
        cases hget : m.get j with
        | none => simp [hget, ih]
        | some v => cases hfv : f (j, v) <;> simp [hget, hfv, ih]
      · cases hget : m.get j with
        | none => simp [hget, ih, Ne.symm hjk]
        | some v => simp [hget, hf j v hjk, ih, Ne.symm hjk]
  rw [entries, hlist _ ((ScanOrder.perm_order m.keys).nodup_iff.mpr m.nodup_keys)]
  by_cases hk : k ∈ m.keys
  · rw [if_pos ((ScanOrder.mem_order _ _).mpr hk)]
  · have hnone : m.get k = none := by
      cases hget : m.get k with
      | none => rfl
      | some v => exact absurd ((m.mem_keys k).mpr (by rw [hget]; rfl)) hk
    rw [if_neg (fun hmem => hk ((ScanOrder.mem_order _ _).mp hmem)), hnone]
    rfl

end Scan

/-! ### Updates -/

section Updates

variable [DecidableEq κ]

/-- Insert or overwrite; a key that is present keeps its place in the order. -/
def put (m : ScanMap κ α) (k : κ) (v : α) : ScanMap κ α where
  get := Function.update m.get k (some v)
  keys := if k ∈ m.keys then m.keys else m.keys ++ [k]
  nodup_keys := by
    split
    · exact m.nodup_keys
    case isFalse hk =>
      refine List.nodup_append.mpr ⟨m.nodup_keys, by simp, ?_⟩
      intro a ha b hb hab
      rw [List.mem_singleton.mp hb] at hab
      exact hk (hab ▸ ha)
  mem_keys j := by
    by_cases hj : j = k
    · subst hj
      by_cases hmem : j ∈ m.keys <;> simp [hmem]
    · by_cases hmem : k ∈ m.keys <;> simp [hmem, hj, m.mem_keys]

def remove (m : ScanMap κ α) (k : κ) : ScanMap κ α where
  get := Function.update m.get k none
  keys := m.keys.filter (· ≠ k)
  nodup_keys := m.nodup_keys.filter _
  mem_keys j := by
    by_cases hj : j = k
    · subst hj; simp
    · simp [hj, m.mem_keys]

theorem get_put (m : ScanMap κ α) (k j : κ) (v : α) :
    (m.put k v).get j = if j = k then some v else m.get j := by
  simp only [put, Function.update_apply]

@[simp] theorem get_put_self (m : ScanMap κ α) (k : κ) (v : α) :
    (m.put k v).get k = some v := by simp [get_put]

/-- Writing back what is there changes nothing. -/
theorem put_of_get {m : ScanMap κ α} {k : κ} {v : α} (h : m.get k = some v) : m.put k v = m := by
  have hkey : k ∈ m.keys := (m.mem_keys k).mpr (by rw [h]; rfl)
  obtain ⟨get, keys, nodup, mem⟩ := m
  simp only [put, mk.injEq]
  refine ⟨?_, if_pos hkey⟩
  rw [← h]
  exact Function.update_eq_self k get

theorem get_remove (m : ScanMap κ α) (k j : κ) :
    (m.remove k).get j = if j = k then none else m.get j := by
  simp only [remove, Function.update_apply]

@[simp] theorem get_remove_self (m : ScanMap κ α) (k : κ) : (m.remove k).get k = none := by
  simp [get_remove]

theorem mem_keys_put (m : ScanMap κ α) (k j : κ) (v : α) :
    j ∈ (m.put k v).keys ↔ j = k ∨ j ∈ m.keys := by
  rw [mem_keys, mem_keys, get_put]
  by_cases hj : j = k <;> simp [hj]

theorem mem_keys_remove (m : ScanMap κ α) (k j : κ) :
    j ∈ (m.remove k).keys ↔ j ∈ m.keys ∧ j ≠ k := by
  rw [mem_keys, mem_keys, get_remove]
  by_cases hj : j = k <;> simp [hj]

end Updates

/-! ### Maps with other values -/

theorem ext_of_get {m m' : ScanMap κ α} (hget : ∀ k, m.get k = m'.get k)
    (hkeys : m.keys = m'.keys) : m = m' := by
  obtain ⟨get, keys, nodup, mem⟩ := m
  obtain ⟨get', keys', nodup', mem'⟩ := m'
  rw [mk.injEq]
  exact ⟨funext hget, hkeys⟩

theorem find_mapValues [ScanOrder κ] (m : ScanMap κ α) (f : α → α) (p : α → Bool) :
    (m.mapValues f).find p = m.find fun v => p (f v) := by
  rw [find, find]
  congr 1
  funext k
  rw [get_mapValues, Option.any_map]

theorem put_mapValues [DecidableEq κ] (m : ScanMap κ α) (f : α → α) (k : κ) (v : α) :
    (m.mapValues f).put k (f v) = (m.put k v).mapValues f := by
  apply ext_of_get
  · intro j
    rw [get_put, get_mapValues, get_mapValues, get_put]
    split <;> rfl
  · rfl

theorem remove_mapValues [DecidableEq κ] (m : ScanMap κ α) (f : α → α) (k : κ) :
    (m.mapValues f).remove k = (m.remove k).mapValues f := by
  apply ext_of_get
  · intro j
    rw [get_remove, get_mapValues, get_mapValues, get_remove]
    split <;> rfl
  · rfl

/-! ### Maps of given entries -/

/-- The entries in order of insertion. -/
def listing (m : ScanMap κ α) : List (κ × α) :=
  m.keys.filterMap fun k => (m.get k).map fun v => (k, v)

theorem entries_perm_listing [ScanOrder κ] (m : ScanMap κ α) :
    m.entries.Perm m.listing := (ScanOrder.perm_order m.keys).filterMap _

theorem mem_keys_of_mem_entries [ScanOrder κ] {m : ScanMap κ α} {entry : κ × α}
    (h : entry ∈ m.entries) : entry.1 ∈ m.keys := by
  obtain ⟨k, hk, hentry⟩ := List.mem_filterMap.mp h
  obtain ⟨v, -, rfl⟩ := Option.map_eq_some_iff.mp hentry
  exact (ScanOrder.mem_order _ _).mp hk

section Entries

variable [DecidableEq κ]

theorem listing_put {m : ScanMap κ α} {k : κ} (hk : k ∉ m.keys)
    (v : α) : (m.put k v).listing = m.listing ++ [(k, v)] := by
  have hkeys : (m.put k v).keys = m.keys ++ [k] := if_neg hk
  have hold : ∀ j ∈ m.keys, (m.put k v).get j = m.get j := by
    intro j hj
    rw [get_put, if_neg]
    rintro rfl
    exact hk hj
  rw [listing, hkeys, List.filterMap_append, listing]
  congr 1
  · apply List.filterMap_congr
    intro j hj
    rw [hold j hj]
  · simp

/-- The map that a builder makes of the entries; where a key comes twice, the later one counts. -/
def ofEntries (entries : List (κ × α)) : ScanMap κ α :=
  entries.foldl (fun map entry => map.put entry.1 entry.2) empty

theorem listing_ofEntries {entries : List (κ × α)}
    (h : (entries.map Prod.fst).Nodup) : (ofEntries entries).listing = entries := by
  have hfold : ∀ (m : ScanMap κ α) (rest : List (κ × α)), (rest.map Prod.fst).Nodup →
      (∀ entry ∈ rest, entry.1 ∉ m.keys) →
        (rest.foldl (fun map entry => map.put entry.1 entry.2) m).listing = m.listing ++ rest := by
    intro m rest hnodup hnew
    induction rest generalizing m with
    | nil => exact (List.append_nil _).symm
    | cons entry rest ih =>
      obtain ⟨hentry, hrest⟩ := List.nodup_cons.mp hnodup
      obtain ⟨hhead, htail⟩ := List.forall_mem_cons.mp hnew
      rw [List.foldl_cons, ih _ hrest, listing_put hhead, List.append_assoc,
        List.singleton_append]
      intro other hother hmem
      rcases (mem_keys_put m entry.1 other.1 entry.2).mp hmem with heq | hold
      · exact hentry (heq ▸ List.mem_map_of_mem hother)
      · exact htail other hother hold
  exact (hfold empty entries h fun entry _ => List.not_mem_nil).trans (List.nil_append _)

/-- A map has no keys but those of the entries that were put. -/
theorem mem_keys_ofEntries {entries : List (κ × α)} {k : κ}
    (h : k ∈ (ofEntries entries).keys) : k ∈ entries.map Prod.fst := by
  have hfold : ∀ (m : ScanMap κ α) (rest : List (κ × α)),
      k ∈ (rest.foldl (fun map entry => map.put entry.1 entry.2) m).keys →
        k ∈ m.keys ∨ k ∈ rest.map Prod.fst := by
    intro m rest
    induction rest generalizing m with
    | nil => exact Or.inl
    | cons entry rest ih =>
      intro hk
      rcases ih _ hk with hput | hrest
      · rcases (mem_keys_put m entry.1 k entry.2).mp hput with rfl | hold
        · exact Or.inr List.mem_cons_self
        · exact Or.inl hold
      · exact Or.inr (List.mem_cons_of_mem _ hrest)
  exact (hfold empty entries h).resolve_left List.not_mem_nil

theorem mem_of_get_ofEntries {entries : List (κ × α)} {k : κ} {v : α}
    (h : (ofEntries entries).get k = some v) : (k, v) ∈ entries := by
  have hfold : ∀ (m : ScanMap κ α) (rest : List (κ × α)),
      (rest.foldl (fun map entry => map.put entry.1 entry.2) m).get k = some v →
        m.get k = some v ∨ (k, v) ∈ rest := by
    intro m rest
    induction rest generalizing m with
    | nil => exact Or.inl
    | cons entry rest ih =>
      intro hget
      rcases ih _ hget with hput | hrest
      · rw [get_put] at hput
        split_ifs at hput with heq
        · rw [heq, ← Option.some.inj hput]
          exact Or.inr List.mem_cons_self
        · exact Or.inl hput
      · exact Or.inr (List.mem_cons_of_mem _ hrest)
  exact (hfold empty entries h).resolve_left (by simp)

/-- What a builder makes of the entries is some of them, in another order. -/
theorem entries_ofEntries_subperm [ScanOrder κ] (entries : List (κ × α)) :
    (ofEntries entries).entries.Subperm entries := by
  apply List.subperm_of_subset
  · apply ((ScanOrder.perm_order _).nodup_iff.mpr (ofEntries entries).nodup_keys).filterMap
    intro j k entry hj hk
    obtain ⟨v, -, rfl⟩ := Option.map_eq_some_iff.mp (Option.mem_def.mp hj)
    obtain ⟨w, -, heq⟩ := Option.map_eq_some_iff.mp (Option.mem_def.mp hk)
    exact (Prod.mk.inj heq).1.symm
  · intro entry hentry
    obtain ⟨k, -, hk⟩ := List.mem_filterMap.mp hentry
    obtain ⟨v, hv, rfl⟩ := Option.map_eq_some_iff.mp hk
    exact mem_of_get_ofEntries hv

end Entries

/-- Permuted lists of entries with the same keys, each once, are the same. -/
theorem eq_of_perm_of_keys {xs ys : List (κ × α)} (hperm : xs.Perm ys)
    (hkeys : xs.map Prod.fst = ys.map Prod.fst) (hnodup : (xs.map Prod.fst).Nodup) : xs = ys := by
  induction xs generalizing ys with
  | nil => exact hperm.nil_eq
  | cons x xs ih =>
    rcases ys with _ | ⟨y, ys⟩
    · exact absurd hperm.symm.nil_eq (List.cons_ne_nil x xs).symm
    · obtain ⟨hhead, htail⟩ := List.cons.inj hkeys
      obtain ⟨hx, hxs⟩ := List.nodup_cons.mp hnodup
      rcases List.mem_cons.mp (hperm.subset List.mem_cons_self) with rfl | hmem
      · rw [ih (List.Perm.cons_inv hperm) htail hxs]
      · exact absurd (htail ▸ List.mem_map_of_mem hmem) hx

end ScanMap
