import Mathlib.Data.List.Nodup
import Mathlib.Logic.Function.Basic

/-!
# Chained hash tables and their iterators

A table is an array of buckets, each a chain of entries with the newest at the head.  The bucket
of a key depends on the length of the array only.  When there are too many entries they move to
an array of twice the length.

A `Cursor` iterates over the entries from the last bucket down, and has always found the entry
that it returns next.  It reads the live array: `clear` leaves it nothing but the rest of the
chain that it is in, and entries put into buckets that it has not come to are returned.  When the
table moves to another array, the cursor stays in the old one.
-/

/-- Where the keys go, for every length of the array. -/
structure Hashing (κ : Type) where
  index : Nat → κ → Nat
  index_lt : ∀ {length : Nat} (key : κ), 0 < length → index length key < length

/-- Every entry is in the bucket of its key, and no key has two entries. -/
structure HashTable {κ : Type} (hashing : Hashing κ) (ν : Type) where
  length : Nat
  bucket : Nat → List (κ × ν)
  length_pos : 0 < length
  placed : ∀ i, ∀ e ∈ bucket i, hashing.index length e.1 = i
  nodup : ∀ i, ((bucket i).map Prod.fst).Nodup

namespace HashTable

variable {κ ν : Type} {hashing : Hashing κ}

/-- The entries of the buckets below `n`, from the last one down. -/
def entriesBelow (bucket : Nat → List (κ × ν)) : Nat → List (κ × ν)
  | 0 => []
  | i + 1 => bucket i ++ entriesBelow bucket i

def entries (t : HashTable hashing ν) : List (κ × ν) := entriesBelow t.bucket t.length

/-- The bucket of a key. -/
def indexOf (t : HashTable hashing ν) (key : κ) : Nat := hashing.index t.length key

theorem indexOf_lt (t : HashTable hashing ν) (key : κ) : t.indexOf key < t.length :=
  hashing.index_lt key t.length_pos

theorem mem_entriesBelow {bucket : Nat → List (κ × ν)} {n : Nat} {e : κ × ν} :
    e ∈ entriesBelow bucket n ↔ ∃ i < n, e ∈ bucket i := by
  induction n with
  | zero => simp only [entriesBelow, List.not_mem_nil, Nat.not_lt_zero, false_and, exists_false]
  | succ n ih =>
    rw [entriesBelow, List.mem_append, ih]
    constructor
    · rintro (hn | ⟨i, hi, hmem⟩)
      · exact ⟨n, Nat.lt_succ_self n, hn⟩
      · exact ⟨i, Nat.lt_succ_of_lt hi, hmem⟩
    · rintro ⟨i, hi, hmem⟩
      rcases Nat.lt_succ_iff_lt_or_eq.mp hi with hlt | rfl
      · exact Or.inr ⟨i, hlt, hmem⟩
      · exact Or.inl hmem

theorem mem_entries {t : HashTable hashing ν} {e : κ × ν} :
    e ∈ t.entries ↔ e ∈ t.bucket (t.indexOf e.1) := by
  rw [entries, mem_entriesBelow]
  constructor
  · rintro ⟨i, _, hmem⟩
    have hi : t.indexOf e.1 = i := t.placed i e hmem
    exact hi ▸ hmem
  · intro hmem
    exact ⟨_, t.indexOf_lt e.1, hmem⟩

theorem nodup_entriesBelow (t : HashTable hashing ν) (n : Nat) :
    ((entriesBelow t.bucket n).map Prod.fst).Nodup := by
  induction n with
  | zero => exact List.nodup_nil
  | succ n ih =>
    rw [entriesBelow, List.map_append, List.nodup_append]
    refine ⟨t.nodup n, ih, ?_⟩
    -- the two keys are in different buckets
    intro key hkey key' hkey' heq
    obtain ⟨e, he, rfl⟩ := List.mem_map.mp hkey
    obtain ⟨e', he', rfl⟩ := List.mem_map.mp hkey'
    obtain ⟨i, hi, hmem⟩ := mem_entriesBelow.mp he'
    have hn := t.placed n e he
    have hi' := t.placed i e' hmem
    rw [heq] at hn
    omega

theorem nodup_entries (t : HashTable hashing ν) : (t.entries.map Prod.fst).Nodup :=
  t.nodup_entriesBelow t.length

/-- A list in which no key has two entries, cut at one of them. -/
theorem exists_append_of_mem {l : List (κ × ν)} (h : (l.map Prod.fst).Nodup) {key : κ} {v : ν}
    (hmem : (key, v) ∈ l) :
    ∃ l₁ l₂, l = l₁ ++ (key, v) :: l₂ ∧ (∀ e ∈ l₁, e.1 ≠ key) ∧ ∀ e ∈ l₂, e.1 ≠ key := by
  obtain ⟨l₁, l₂, rfl⟩ := List.append_of_mem hmem
  rw [List.map_append, List.map_cons, List.nodup_append, List.nodup_cons] at h
  obtain ⟨_, ⟨hafter, _⟩, hbefore⟩ := h
  refine ⟨l₁, l₂, rfl, ?_, ?_⟩
  · intro e he
    exact hbefore e.1 (List.mem_map_of_mem he) key List.mem_cons_self
  · intro e he heq
    exact hafter (List.mem_map.mpr ⟨e, he, heq⟩)

/-- The entries are in one bucket. -/
def InOneBucket (t : HashTable hashing ν) : List (κ × ν) → Prop
  | [] => True
  | e :: rest => ∀ e' ∈ rest, t.indexOf e'.1 = t.indexOf e.1

instance (t : HashTable hashing ν) : (l : List (κ × ν)) → Decidable (t.InOneBucket l)
  | [] => .isTrue trivial
  | e :: rest => inferInstanceAs (Decidable (∀ e' ∈ rest, t.indexOf e'.1 = t.indexOf e.1))

/-! ### The array -/

/-- The key of the first entry in a bucket. -/
def heads (t : HashTable hashing ν) (i : Nat) : Option κ := (t.bucket i).head?.map Prod.fst

theorem heads_eq_none {t : HashTable hashing ν} {i : Nat} :
    t.heads i = none ↔ t.bucket i = [] := by
  rw [heads, Option.map_eq_none_iff, List.head?_eq_none_iff]

def empty (length : Nat) (h : 0 < length) : HashTable hashing ν where
  length := length
  bucket := fun _ => []
  length_pos := h
  placed := by
    intro i e he
    exact absurd he List.not_mem_nil
  nodup _ := List.nodup_nil

/-- The array stays, its buckets are emptied. -/
def clear (t : HashTable hashing ν) : HashTable hashing ν := empty t.length t.length_pos

/-- An entry moves to the head of its bucket in an array of another length. -/
def moveTo (hashing : Hashing κ) (length : Nat) (bucket : Nat → List (κ × ν)) (e : κ × ν) :
    Nat → List (κ × ν) :=
  Function.update bucket (hashing.index length e.1) (e :: bucket (hashing.index length e.1))

theorem foldl_moveTo (length : Nat) (l : List (κ × ν)) (bucket : Nat → List (κ × ν)) (i : Nat) :
    l.foldl (moveTo hashing length) bucket i =
      (l.filter fun e => hashing.index length e.1 = i).reverse ++ bucket i := by
  induction l generalizing bucket with
  | nil => rfl
  | cons e rest ih =>
    rw [List.foldl_cons, ih, moveTo, List.filter_cons]
    by_cases hi : hashing.index length e.1 = i
    · subst hi
      rw [if_pos (decide_eq_true rfl), Function.update_self, List.reverse_cons, List.append_assoc]
      rfl
    · rw [if_neg (by simpa using hi), Function.update_of_ne (Ne.symm hi)]

def resize (t : HashTable hashing ν) (length : Nat) (h : 0 < length) : HashTable hashing ν where
  length := length
  bucket := t.entries.foldl (moveTo hashing length) fun _ => []
  length_pos := h
  placed := by
    intro i e he
    rw [foldl_moveTo, List.append_nil, List.mem_reverse, List.mem_filter] at he
    exact of_decide_eq_true he.2
  nodup := by
    intro i
    rw [foldl_moveTo, List.append_nil, List.map_reverse, List.nodup_reverse]
    exact t.nodup_entries.sublist (List.filter_sublist.map Prod.fst)

/-- The array is doubled when there are more than three entries to four buckets. -/
def grown (t : HashTable hashing ν) : HashTable hashing ν :=
  if t.length * 750 / 1000 < t.entries.length then
    t.resize (2 * t.length) (Nat.mul_pos Nat.two_pos t.length_pos)
  else t

theorem mem_resize {t : HashTable hashing ν} {length : Nat} (h : 0 < length) {e : κ × ν} :
    e ∈ (t.resize length h).entries ↔ e ∈ t.entries := by
  rw [mem_entries]
  simp only [resize, indexOf]
  rw [foldl_moveTo, List.append_nil, List.mem_reverse, List.mem_filter]
  exact and_iff_left (decide_eq_true rfl)

theorem mem_grown {t : HashTable hashing ν} {e : κ × ν} : e ∈ t.grown.entries ↔ e ∈ t.entries := by
  unfold grown
  split
  case isTrue => exact mem_resize _
  case isFalse => exact Iff.rfl

@[simp] theorem entries_clear (t : HashTable hashing ν) : t.clear.entries = [] := by
  rw [List.eq_nil_iff_forall_not_mem]
  intro e he
  exact absurd (mem_entries.mp he) List.not_mem_nil

/-! ### Entries by key -/

variable [DecidableEq κ]

def find (t : HashTable hashing ν) (key : κ) : Option ν :=
  (t.bucket (t.indexOf key)).lookup key

theorem lookup_eq_some_iff_mem {l : List (κ × ν)} (h : (l.map Prod.fst).Nodup) {key : κ} {v : ν} :
    l.lookup key = some v ↔ (key, v) ∈ l := by
  rw [List.lookup_eq_some_iff]
  constructor
  · rintro ⟨l₁, l₂, rfl, _⟩
    exact List.mem_append_right l₁ List.mem_cons_self
  · intro hmem
    obtain ⟨l₁, l₂, rfl, hbefore, _⟩ := exists_append_of_mem h hmem
    refine ⟨l₁, l₂, rfl, ?_⟩
    intro e he
    exact bne_iff_ne.mpr (Ne.symm (hbefore e he))

theorem find_eq_some {t : HashTable hashing ν} {key : κ} {v : ν} :
    t.find key = some v ↔ (key, v) ∈ t.entries := by
  rw [find, lookup_eq_some_iff_mem (t.nodup _), mem_entries]

/-- The entry of a key is all that the entries have of it. -/
theorem filter_entries (t : HashTable hashing ν) (key : κ) :
    t.entries.filter (fun e => e.1 = key) = ((t.find key).map (Prod.mk key)).toList := by
  cases hfind : t.find key with
  | none =>
    rw [Option.map_none, Option.toList_none, List.filter_eq_nil_iff]
    intro e he heq
    obtain rfl : e.1 = key := of_decide_eq_true heq
    cases hfind.symm.trans (find_eq_some.mpr he)
  | some v =>
    obtain ⟨l₁, l₂, hentries, hbefore, hafter⟩ :=
      exists_append_of_mem t.nodup_entries (find_eq_some.mp hfind)
    have hnone : ∀ l : List (κ × ν), (∀ e ∈ l, e.1 ≠ key) → l.filter (fun e => e.1 = key) = [] := by
      intro l hl
      rw [List.filter_eq_nil_iff]
      intro e he
      simpa using hl e he
    rw [hentries, List.filter_append, hnone l₁ hbefore, List.filter_cons, hnone l₂ hafter,
      if_pos (decide_eq_true rfl)]
    rfl

/-- The value of a key that has an entry is replaced. -/
def replaced (t : HashTable hashing ν) (key : κ) (v : ν) : HashTable hashing ν where
  length := t.length
  bucket i := (t.bucket i).map fun e => if e.1 = key then (key, v) else e
  length_pos := t.length_pos
  placed := by
    intro i e he
    obtain ⟨old, hold, rfl⟩ := List.mem_map.mp he
    split
    case isTrue hkey => exact hkey ▸ t.placed i old hold
    case isFalse => exact t.placed i old hold
  nodup := by
    intro i
    have hkeys : ((t.bucket i).map fun e => if e.1 = key then (key, v) else e).map Prod.fst =
        (t.bucket i).map Prod.fst := by
      rw [List.map_map]
      apply List.map_congr_left
      intro e _
      rw [Function.comp_apply]
      split
      case isTrue hkey => exact hkey.symm
      case isFalse => rfl
    exact hkeys.symm ▸ t.nodup i

/-- A new entry at the head of its bucket. -/
def added (t : HashTable hashing ν) (key : κ) (v : ν) (h : t.find key = none) :
    HashTable hashing ν where
  length := t.length
  bucket := Function.update t.bucket (t.indexOf key) ((key, v) :: t.bucket (t.indexOf key))
  length_pos := t.length_pos
  placed := by
    intro i e he
    by_cases hi : i = t.indexOf key
    · subst hi
      rw [Function.update_self, List.mem_cons] at he
      rcases he with rfl | hold
      · rfl
      · exact t.placed _ e hold
    · rw [Function.update_of_ne hi] at he
      exact t.placed i e he
  nodup := by
    intro i
    by_cases hi : i = t.indexOf key
    · subst hi
      rw [Function.update_self, List.map_cons, List.nodup_cons]
      refine ⟨?_, t.nodup _⟩
      intro hmem
      obtain ⟨e, he, rfl⟩ := List.mem_map.mp hmem
      cases h.symm.trans (find_eq_some.mpr (mem_entries.mpr he))
    · rw [Function.update_of_ne hi]
      exact t.nodup i

/-- The table when an entry has been put in and it has not grown yet. -/
def inserted (t : HashTable hashing ν) (key : κ) (v : ν) : HashTable hashing ν :=
  match h : t.find key with
  | some _ => t.replaced key v
  | none => t.added key v h

def put (t : HashTable hashing ν) (key : κ) (v : ν) : HashTable hashing ν :=
  if (t.find key).isSome then t.inserted key v else (t.inserted key v).grown

theorem mem_replaced {t : HashTable hashing ν} {key : κ} {v old : ν} (h : t.find key = some old)
    {e : κ × ν} : e ∈ (t.replaced key v).entries ↔ e = (key, v) ∨ e.1 ≠ key ∧ e ∈ t.entries := by
  have hold := mem_entries.mp (find_eq_some.mp h)
  rw [mem_entries, mem_entries]
  show e ∈ (t.bucket (t.indexOf e.1)).map _ ↔ _
  rw [List.mem_map]
  constructor
  · rintro ⟨before, hbefore, rfl⟩
    by_cases hkey : before.1 = key
    · exact Or.inl (if_pos hkey)
    · rw [if_neg hkey] at hbefore ⊢
      exact Or.inr ⟨hkey, hbefore⟩
  · rintro (rfl | ⟨hkey, hmem⟩)
    · exact ⟨(key, old), hold, if_pos rfl⟩
    · exact ⟨e, hmem, if_neg hkey⟩

theorem mem_added {t : HashTable hashing ν} {key : κ} {v : ν} (h : t.find key = none)
    {e : κ × ν} : e ∈ (t.added key v h).entries ↔ e = (key, v) ∨ e.1 ≠ key ∧ e ∈ t.entries := by
  have hne : e ∈ t.entries → e.1 ≠ key := by
    rintro hmem rfl
    cases h.symm.trans (find_eq_some.mpr hmem)
  rw [and_iff_right_of_imp hne, mem_entries, mem_entries]
  show e ∈ Function.update t.bucket (t.indexOf key) ((key, v) :: t.bucket (t.indexOf key))
    (t.indexOf e.1) ↔ _
  by_cases hindex : t.indexOf e.1 = t.indexOf key
  · rw [hindex, Function.update_self, List.mem_cons]
  · rw [Function.update_of_ne hindex]
    constructor
    · exact Or.inr
    · rintro (rfl | hmem)
      · exact absurd rfl hindex
      · exact hmem

theorem mem_inserted {t : HashTable hashing ν} {key : κ} {v : ν} {e : κ × ν} :
    e ∈ (t.inserted key v).entries ↔ e = (key, v) ∨ e.1 ≠ key ∧ e ∈ t.entries := by
  unfold inserted
  split
  case h_1 old h => exact mem_replaced h
  case h_2 h => exact mem_added h

theorem mem_put {t : HashTable hashing ν} {key : κ} {v : ν} {e : κ × ν} :
    e ∈ (t.put key v).entries ↔ e = (key, v) ∨ e.1 ≠ key ∧ e ∈ t.entries := by
  unfold put
  split
  case isTrue => exact mem_inserted
  case isFalse => exact mem_grown.trans mem_inserted

theorem find_put (t : HashTable hashing ν) (key other : κ) (v : ν) :
    (t.put key v).find other = if other = key then some v else t.find other := by
  apply Option.ext
  intro w
  rw [find_eq_some, mem_put, Prod.mk.injEq]
  split
  case isTrue hkey => simp only [hkey, true_and, ne_eq, not_true_eq_false, false_and, or_false,
    Option.some.injEq, eq_comm]
  case isFalse hkey => simp only [hkey, false_and, false_or, ne_eq, not_false_eq_true, true_and,
    find_eq_some]

theorem find_clear (t : HashTable hashing ν) (key : κ) : t.clear.find key = none := rfl

theorem put_eq_inserted {t : HashTable hashing ν} {key : κ} {v : ν}
    (h : (t.put key v).length = t.length) : t.put key v = t.inserted key v := by
  have hlength : (t.inserted key v).length = t.length := by
    unfold inserted
    split <;> rfl
  unfold put at h ⊢
  split
  case isTrue => rfl
  case isFalse hfind =>
    rw [if_neg hfind] at h
    unfold grown at h ⊢
    split
    case isTrue hfull =>
      rw [if_pos hfull] at h
      have hdouble : 2 * (t.inserted key v).length = t.length := h
      have hpos := t.length_pos
      omega
    case isFalse => rfl

/-- Only the chain of the key gets another head. -/
theorem heads_inserted (t : HashTable hashing ν) {key : κ} (v : ν) {i : Nat}
    (h : i ≠ t.indexOf key) : (t.inserted key v).heads i = t.heads i := by
  unfold inserted
  split
  case h_1 =>
    show ((t.bucket i).map fun e => if e.1 = key then (key, v) else e).head?.map Prod.fst = _
    rw [heads]
    cases t.bucket i with
    | nil => rfl
    | cons e rest =>
      simp only [List.map_cons, List.head?_cons, Option.map_some, Option.some.injEq]
      split
      case isTrue hkey => exact hkey.symm
      case isFalse => rfl
  case h_2 =>
    show ((Function.update t.bucket _ _) i).head?.map Prod.fst = _
    rw [Function.update_of_ne h, heads]

end HashTable

/-! ### Iterators -/

/-- The entry that an iterator has found: an entry of the table, by its key, or the first one of a
chain that is in no array any more. -/
inductive LookAhead (κ ν : Type) where
  | live (key : κ)
  | cleared (chain : List (κ × ν))

structure Cursor (κ ν : Type) where
  es : LookAhead κ ν
  idx : Nat
  /-- the heads of the chains in its array, when the table has moved to another -/
  array : Option (Nat → Option κ)

namespace Cursor

variable {κ ν : Type} {hashing : Hashing κ}

/-- Finds the head of the last chain below bucket `n`. -/
def settle (heads : Nat → Option κ) (array : Option (Nat → Option κ)) : Nat → Cursor κ ν
  | 0 => ⟨.cleared [], 0, array⟩
  | i + 1 =>
    match heads i with
    | some key => ⟨.live key, i, array⟩
    | none => settle heads array i

theorem settle_none {heads : Nat → Option κ} {array : Option (Nat → Option κ)} {n : Nat}
    (h : ∀ i < n, heads i = none) :
    settle heads array n = (⟨.cleared [], 0, array⟩ : Cursor κ ν) := by
  induction n with
  | zero => rfl
  | succ i ih =>
    rw [settle, h i (Nat.lt_succ_self i)]
    exact ih fun j hj => h j (Nat.lt_succ_of_lt hj)

variable [DecidableEq κ]

/-- The entries from the one found to the end of its chain. -/
def chain (t : HashTable hashing ν) : LookAhead κ ν → List (κ × ν)
  | .live key => (t.bucket (t.indexOf key)).dropWhile fun e => e.1 ≠ key
  | .cleared chain => chain

def start (t : HashTable hashing ν) : Cursor κ ν := settle t.heads none t.length

/-- Finds the next entry, where `rest` is what follows the last one in its chain. -/
def advance (t : HashTable hashing ν) (c : Cursor κ ν) : List (κ × ν) → Cursor κ ν
  | [] => settle (c.array.getD t.heads) c.array c.idx
  | e :: rest =>
    match c.es with
    | .live _ => { c with es := .live e.1 }
    | .cleared _ => { c with es := .cleared (e :: rest) }

def next (t : HashTable hashing ν) (c : Cursor κ ν) : Option ((κ × ν) × Cursor κ ν) :=
  match chain t c.es with
  | [] => none
  | e :: rest => some (e, c.advance t rest)

/-- The cursor when the table is cleared: the entry found keeps the rest of its chain. -/
def clear (t : HashTable hashing ν) (c : Cursor κ ν) : Cursor κ ν :=
  { c with es := .cleared (chain t c.es) }

/-- The cursor when a value is put: if the table moves to another array, this one is left as it
is. -/
def put (t : HashTable hashing ν) (key : κ) (v : ν) (c : Cursor κ ν) : Cursor κ ν :=
  if (t.put key v).length = t.length then c
  else { c with array := some (c.array.getD (t.inserted key v).heads) }

/-- What the cursor returns if the table stays as it is. -/
def remaining (t : HashTable hashing ν) (c : Cursor κ ν) : List (κ × ν) :=
  chain t c.es ++ HashTable.entriesBelow t.bucket c.idx

/-! ### While the table stays as it is -/

/-- The cursor has found an entry of the table, or there are no more. -/
inductive OnTable (t : HashTable hashing ν) : Cursor κ ν → Prop where
  | finished : OnTable t ⟨.cleared [], 0, none⟩
  | found {key : κ} {v : ν} {idx : Nat} (h : (key, v) ∈ t.bucket idx) :
      OnTable t ⟨.live key, idx, none⟩

theorem chain_live {t : HashTable hashing ν} {idx : Nat} {l₁ l₂ : List (κ × ν)} {e : κ × ν}
    (h : t.bucket idx = l₁ ++ e :: l₂) : chain t (.live e.1) = e :: l₂ := by
  have hindex : t.indexOf e.1 = idx := by
    apply t.placed
    rw [h]
    exact List.mem_append_right l₁ List.mem_cons_self
  have hbefore : ∀ x ∈ l₁, x.1 ≠ e.1 := by
    have hnodup := t.nodup idx
    rw [h, List.map_append, List.map_cons, List.nodup_append] at hnodup
    intro x hx
    exact hnodup.2.2 x.1 (List.mem_map_of_mem hx) e.1 List.mem_cons_self
  rw [chain, hindex, h, List.dropWhile_append_of_pos, List.dropWhile_cons_of_neg]
  · simp only [ne_eq, not_true_eq_false, decide_false, Bool.false_eq_true, not_false_eq_true]
  · intro x hx
    exact decide_eq_true (hbefore x hx)

/-- Settling below `n` leaves the entries below `n`. -/
theorem settle_heads (t : HashTable hashing ν) (n : Nat) :
    OnTable t (settle t.heads none n) ∧
      remaining t (settle t.heads none n) = HashTable.entriesBelow t.bucket n := by
  induction n with
  | zero => exact ⟨.finished, rfl⟩
  | succ i ih =>
    rw [settle, HashTable.entriesBelow]
    cases hbucket : t.bucket i with
    | nil =>
      rw [HashTable.heads_eq_none.mpr hbucket]
      exact ih
    | cons e rest =>
      have hhead : t.heads i = some e.1 := by rw [HashTable.heads, hbucket]; rfl
      rw [hhead]
      constructor
      · apply OnTable.found
        rw [hbucket]
        exact List.mem_cons_self
      · have hfirst : t.bucket i = [] ++ e :: rest := hbucket
        rw [remaining, chain_live hfirst]

theorem onTable_start (t : HashTable hashing ν) : OnTable t (start t) :=
  (settle_heads t t.length).1

theorem remaining_start (t : HashTable hashing ν) : remaining t (start t) = t.entries :=
  (settle_heads t t.length).2

theorem OnTable.next_none {t : HashTable hashing ν} {c : Cursor κ ν} (h : OnTable t c)
    (hnext : next t c = none) : remaining t c = [] := by
  cases h with
  | finished => rfl
  | found hmem =>
    obtain ⟨l₁, l₂, hbucket⟩ := List.append_of_mem hmem
    rw [next, chain_live hbucket] at hnext
    cases hnext

/-- An entry is returned, and the cursor goes on with the others. -/
theorem OnTable.next_some {t : HashTable hashing ν} {c c' : Cursor κ ν} {e : κ × ν}
    (h : OnTable t c) (hnext : next t c = some (e, c')) :
    OnTable t c' ∧ remaining t c = e :: remaining t c' := by
  cases h with
  | finished => cases hnext
  | @found key v idx hmem =>
    obtain ⟨l₁, l₂, hbucket⟩ := List.append_of_mem hmem
    rw [next, chain_live hbucket] at hnext
    rw [remaining, chain_live hbucket]
    cases l₂ with
    | nil =>
      cases hnext
      obtain ⟨hfound, hremaining⟩ := settle_heads t idx
      exact ⟨hfound, congrArg (List.cons _) hremaining.symm⟩
    | cons e' rest =>
      cases hnext
      have hsplit : t.bucket idx = (l₁ ++ [(key, v)]) ++ e' :: rest := by
        rw [hbucket, List.append_assoc]
        rfl
      constructor
      · apply OnTable.found
        rw [hsplit]
        exact List.mem_append_right _ List.mem_cons_self
      · rw [remaining]
        simp only [advance]
        rw [chain_live hsplit]
        rfl

/-- All that remains is in the chain of the entry found, if it is in one bucket. -/
theorem OnTable.chain_eq_remaining {t : HashTable hashing ν} {c : Cursor κ ν} (h : OnTable t c)
    (hbucket : t.InOneBucket (remaining t c)) : chain t c.es = remaining t c := by
  cases h with
  | finished => rfl
  | @found key v idx hmem =>
    obtain ⟨l₁, l₂, hsplit⟩ := List.append_of_mem hmem
    rw [remaining, chain_live hsplit] at hbucket ⊢
    have hbelow : HashTable.entriesBelow t.bucket idx = [] := by
      rw [List.eq_nil_iff_forall_not_mem]
      intro e he
      have hsame : t.indexOf e.1 = t.indexOf key :=
        hbucket e (List.mem_append_right l₂ he)
      obtain ⟨i, hi, hin⟩ := HashTable.mem_entriesBelow.mp he
      have he' : t.indexOf e.1 = i := t.placed i e hin
      have hkey : t.indexOf key = idx := t.placed idx _ hmem
      omega
    rw [hbelow, List.append_nil]

/-! ### When the table has been cleared -/

/-- All that is left to return is `rest`, none of it in the table any more. -/
inductive Detached (t : HashTable hashing ν) (rest : List (κ × ν)) : Cursor κ ν → Prop where
  | mk {idx : Nat} {array : Option (Nat → Option κ)}
      (below : ∀ i < idx, array.getD t.heads i = none) : Detached t rest ⟨.cleared rest, idx, array⟩

/-- What is left is the rest of the chain: the entries below are not returned. -/
theorem OnTable.detached {t : HashTable hashing ν} {c : Cursor κ ν} (h : OnTable t c) :
    Detached t.clear (chain t c.es) (c.clear t) := by
  cases h with
  | finished => exact .mk fun i _ => rfl
  | found hmem => exact .mk fun i _ => rfl

theorem Detached.next_nil {t : HashTable hashing ν} {c : Cursor κ ν} (h : Detached t [] c) :
    next t c = none := by
  cases h
  rfl

theorem Detached.next_cons {t : HashTable hashing ν} {c : Cursor κ ν} {e : κ × ν}
    {rest : List (κ × ν)} (h : Detached t (e :: rest) c) :
    ∃ c', next t c = some (e, c') ∧ Detached t rest c' := by
  obtain ⟨below⟩ := h
  refine ⟨_, rfl, ?_⟩
  cases rest with
  | nil =>
    simp only [advance, settle_none below]
    exact .mk fun i hi => absurd hi (Nat.not_lt_zero i)
  | cons e' rest => exact .mk below

/-- A value that is put where the cursor has been already does not concern it. -/
theorem Detached.put {t : HashTable hashing ν} {c : Cursor κ ν} {rest : List (κ × ν)}
    {key : κ} (v : ν) (h : Detached t rest c) (hindex : c.array = none → c.idx ≤ t.indexOf key) :
    Detached (t.put key v) rest (c.put t key v) := by
  obtain @⟨idx, array, below⟩ := h
  have hinserted : array = none → ∀ i < idx, (t.inserted key v).heads i = none := by
    rintro rfl i hi
    rw [t.heads_inserted v (by have := hindex rfl; simp only at this; omega)]
    exact below i hi
  unfold Cursor.put
  split
  case isTrue hlength =>
    apply Detached.mk
    rw [HashTable.put_eq_inserted hlength]
    cases array with
    | none => exact hinserted rfl
    | some heads => exact below
  case isFalse =>
    apply Detached.mk
    cases array with
    | none => exact hinserted rfl
    | some heads => exact below

end Cursor
