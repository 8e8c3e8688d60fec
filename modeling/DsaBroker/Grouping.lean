import Mathlib.Data.List.Nodup

/-!
# Grouping by key

`groupBy` collects the values of a list of entries by their key.  The keys are all different,
and what a key gets are the values entered under it, in the order of the entries.  `grouped`
cuts a list into groups of a fixed size, where the last one may be smaller.
-/

namespace Grouping

variable {κ α : Type} [DecidableEq κ]

/-- Adds a key that is not there yet. -/
def insertKey (keys : List κ) (key : κ) : List κ := if key ∈ keys then keys else keys ++ [key]

/-- The keys that occur, each where it occurs first. -/
def distinctKeys (entries : List (κ × α)) : List κ :=
  entries.foldl (fun keys entry => insertKey keys entry.1) []

/-- The values entered under a key. -/
def valuesOf (key : κ) (entries : List (κ × α)) : List α :=
  (entries.filter fun entry => entry.1 = key).map Prod.snd

/-- `entries groupBy (_._1) mapValues (_.map(_._2))`. -/
def groupBy (entries : List (κ × α)) : List (κ × List α) :=
  (distinctKeys entries).map fun key => (key, valuesOf key entries)

theorem valuesOf_append (key : κ) (entries later : List (κ × α)) :
    valuesOf key (entries ++ later) = valuesOf key entries ++ valuesOf key later := by
  simp only [valuesOf, List.filter_append, List.map_append]

theorem valuesOf_flatMap {β : Type} (key : κ) (items : List β) (f : β → List (κ × α)) :
    valuesOf key (items.flatMap f) = items.flatMap fun item => valuesOf key (f item) := by
  induction items with
  | nil => rfl
  | cons item rest ih => rw [List.flatMap_cons, valuesOf_append, ih, List.flatMap_cons]

theorem mem_valuesOf {entries : List (κ × α)} {key : κ} {value : α} :
    value ∈ valuesOf key entries ↔ (key, value) ∈ entries := by
  rw [valuesOf, List.mem_map]
  constructor
  · rintro ⟨entry, hentry, rfl⟩
    obtain ⟨hmem, hkey⟩ := List.mem_filter.mp hentry
    exact of_decide_eq_true hkey ▸ hmem
  · intro hmem
    exact ⟨(key, value), List.mem_filter.mpr ⟨hmem, decide_eq_true rfl⟩, rfl⟩

/-! ### The keys -/

theorem mem_insertKey {keys : List κ} {key k : κ} :
    k ∈ insertKey keys key ↔ k ∈ keys ∨ k = key := by
  unfold insertKey
  split
  case isTrue hkey =>
    constructor
    · exact Or.inl
    · rintro (hk | rfl)
      · exact hk
      · exact hkey
  case isFalse => rw [List.mem_append, List.mem_singleton]

theorem nodup_insertKey {keys : List κ} (hkeys : keys.Nodup) (key : κ) :
    (insertKey keys key).Nodup := by
  unfold insertKey
  split
  case isTrue => exact hkeys
  case isFalse hkey => exact List.nodup_append_comm.mp (List.nodup_cons.mpr ⟨hkey, hkeys⟩)

theorem nodup_distinctKeys (entries : List (κ × α)) : (distinctKeys entries).Nodup := by
  have hfold : ∀ keys : List κ, keys.Nodup →
      (entries.foldl (fun keys entry => insertKey keys entry.1) keys).Nodup := by
    induction entries with
    | nil => exact fun _ hkeys => hkeys
    | cons entry rest ih => exact fun keys hkeys => ih _ (nodup_insertKey hkeys entry.1)
  exact hfold [] List.nodup_nil

theorem mem_distinctKeys {entries : List (κ × α)} {key : κ} :
    key ∈ distinctKeys entries ↔ ∃ entry ∈ entries, entry.1 = key := by
  have hfold : ∀ keys : List κ,
      key ∈ entries.foldl (fun keys entry => insertKey keys entry.1) keys ↔
        key ∈ keys ∨ ∃ entry ∈ entries, entry.1 = key := by
    induction entries with
    | nil => simp only [List.foldl_nil, List.not_mem_nil, false_and, exists_false, or_false,
        implies_true]
    | cons entry rest ih =>
      intro keys
      rw [List.foldl_cons, ih, mem_insertKey, List.exists_mem_cons_iff, or_assoc, @eq_comm _ key]
  simpa only [List.not_mem_nil, false_or, distinctKeys] using hfold []

theorem valuesOf_eq_nil_iff {entries : List (κ × α)} {key : κ} :
    valuesOf key entries = [] ↔ key ∉ distinctKeys entries := by
  rw [mem_distinctKeys, valuesOf, List.map_eq_nil_iff, List.filter_eq_nil_iff]
  simp only [decide_eq_true_eq, not_exists, not_and]

/-! ### The groups -/

theorem keys_groupBy (entries : List (κ × α)) :
    (groupBy entries).map Prod.fst = distinctKeys entries := by
  rw [groupBy, List.map_map]
  exact List.map_id _

/-- There is one group for every key that occurs, with the values of that key. -/
theorem mem_groupBy {entries : List (κ × α)} {key : κ} {values : List α} :
    (key, values) ∈ groupBy entries ↔ values = valuesOf key entries ∧ values ≠ [] := by
  rw [groupBy, List.mem_map]
  constructor
  · rintro ⟨found, hfound, heq⟩
    cases heq
    exact ⟨rfl, fun hnil => valuesOf_eq_nil_iff.mp hnil hfound⟩
  · rintro ⟨rfl, hvalues⟩
    exact ⟨key, not_not.mp fun hkey => hvalues (valuesOf_eq_nil_iff.mpr hkey), rfl⟩

/-- Grouping neither loses nor adds nor reorders what a key gets. -/
theorem flatten_valuesOf_groupBy (key : κ) (entries : List (κ × α)) :
    (valuesOf key (groupBy entries)).flatten = valuesOf key entries := by
  have hfilter : (groupBy entries).filter (fun group => group.1 = key)
      = ((distinctKeys entries).filter (· = key)).map fun k => (k, valuesOf k entries) := by
    rw [groupBy, List.filter_map]
    rfl
  rw [valuesOf, hfilter, List.filter_eq, (nodup_distinctKeys entries).count]
  split
  case isTrue => exact List.append_nil _
  case isFalse hkey => exact (valuesOf_eq_nil_iff.mpr hkey).symm

/-! ### Groups of a fixed size -/

/-- The groups, when the first of them has been begun. -/
def groupedFrom (size : Nat) (begun : List α) : List α → List (List α)
  | [] => if begun.isEmpty then [] else [begun]
  | a :: rest =>
      if begun.length + 1 = size then (begun ++ [a]) :: groupedFrom size [] rest
      else groupedFrom size (begun ++ [a]) rest

/-- `items grouped size`. -/
def grouped (size : Nat) (items : List α) : List (List α) := groupedFrom size [] items

theorem flatten_groupedFrom (size : Nat) (begun items : List α) :
    (groupedFrom size begun items).flatten = begun ++ items := by
  induction items generalizing begun with
  | nil =>
    cases begun with
    | nil => rfl
    | cons a rest => simp [groupedFrom]
  | cons a rest ih =>
    rw [groupedFrom]
    split
    · rw [List.flatten_cons, ih, List.nil_append, List.append_assoc, List.singleton_append]
    · rw [ih, List.append_assoc, List.singleton_append]

/-- Grouping keeps every item and their order. -/
theorem flatten_grouped (size : Nat) (items : List α) : (grouped size items).flatten = items :=
  flatten_groupedFrom size [] items

end Grouping
