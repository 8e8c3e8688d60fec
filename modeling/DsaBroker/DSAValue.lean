import Mathlib.Data.List.Nodup
import Mathlib.Data.Rat.Defs

/-!
# DSA values

The values that travel in requests and responses, `models.rpc.DSAValue`.  A Scala
reference to a `DSAVal` may be `null`, and JSON `null` is read as that reference, so
`null` is a constructor here.  A `BigDecimal` is a rational number, a Scala string is the
list of its UTF-16 code units and an immutable `Map` is the list of its entries.
-/

namespace DsaBroker

/-- A Scala string: its UTF-16 code units, which `size`, `drop` and `split` count. -/
abbrev Str := List UInt16

/-- A string literal of the source (all of them are ASCII). -/
def str (literal : String) : Str := literal.toList.map fun c => c.toNat.toUInt16

inductive DSAVal where
  | null
  | numeric (value : Rat)
  | string (value : Str)
  | boolean (value : Bool)
  | binary (value : List UInt8)
  | map (value : List (Str × DSAVal))
  | array (value : List DSAVal)

abbrev DSAMap := List (Str × DSAVal)

/-! ### Equality of values is decidable -/

mutual

def DSAVal.beq : DSAVal → DSAVal → Bool
  | .null, .null => true
  | .numeric a, .numeric b => decide (a = b)
  | .string a, .string b => decide (a = b)
  | .boolean a, .boolean b => decide (a = b)
  | .binary a, .binary b => decide (a = b)
  | .map a, .map b => DSAVal.beqFields a b
  | .array a, .array b => DSAVal.beqItems a b
  | _, _ => false

def DSAVal.beqFields : List (Str × DSAVal) → List (Str × DSAVal) → Bool
  | [], [] => true
  | (k, v) :: xs, (l, w) :: ys => decide (k = l) && DSAVal.beq v w && DSAVal.beqFields xs ys
  | _, _ => false

def DSAVal.beqItems : List DSAVal → List DSAVal → Bool
  | [], [] => true
  | v :: xs, w :: ys => DSAVal.beq v w && DSAVal.beqItems xs ys
  | _, _ => false

end

mutual

theorem DSAVal.beq_iff : ∀ a b : DSAVal, DSAVal.beq a b = true ↔ a = b
  | .null, b => by cases b <;> simp [DSAVal.beq]
  | .numeric a, b => by cases b <;> simp [DSAVal.beq]
  | .string a, b => by cases b <;> simp [DSAVal.beq]
  | .boolean a, b => by cases b <;> simp [DSAVal.beq]
  | .binary a, b => by cases b <;> simp [DSAVal.beq]
  | .map a, b => by cases b <;> simp [DSAVal.beq, DSAVal.beqFields_iff a]
  | .array a, b => by cases b <;> simp [DSAVal.beq, DSAVal.beqItems_iff a]

theorem DSAVal.beqFields_iff :
    ∀ a b : List (Str × DSAVal), DSAVal.beqFields a b = true ↔ a = b
  | [], b => by cases b <;> simp [DSAVal.beqFields]
  | (k, v) :: xs, b => by
      cases b with
      | nil => simp [DSAVal.beqFields]
      | cons head ys =>
          obtain ⟨l, w⟩ := head
          simp [DSAVal.beqFields, DSAVal.beq_iff v, DSAVal.beqFields_iff xs]

theorem DSAVal.beqItems_iff : ∀ a b : List DSAVal, DSAVal.beqItems a b = true ↔ a = b
  | [], b => by cases b <;> simp [DSAVal.beqItems]
  | v :: xs, b => by
      cases b with
      | nil => simp [DSAVal.beqItems]
      | cons w ys => simp [DSAVal.beqItems, DSAVal.beq_iff v, DSAVal.beqItems_iff xs]

end

instance : DecidableEq DSAVal := fun a b => decidable_of_iff _ (DSAVal.beq_iff a b)

/-! ### Maps -/

/-- `map.get(name)`. -/
def DSAMap.get : DSAMap → Str → Option DSAVal
  | [], _ => none
  | (k, v) :: rest, name => if k = name then some v else DSAMap.get rest name

/-- `map + (name -> value)`: an entry that exists keeps its place. -/
def DSAMap.updated : DSAMap → Str → DSAVal → DSAMap
  | [], name, value => [(name, value)]
  | (k, v) :: rest, name, value =>
      if k = name then (k, value) :: rest else (k, v) :: DSAMap.updated rest name value

/-- `map - name`. -/
def DSAMap.removed (m : DSAMap) (name : Str) : DSAMap := m.filter fun entry => entry.1 ≠ name

theorem DSAMap.get_updated (m : DSAMap) (name other : Str) (value : DSAVal) :
    (m.updated name value).get other = if other = name then some value else m.get other := by
  induction m with
  | nil => simp [DSAMap.updated, DSAMap.get, eq_comm]
  | cons head rest ih =>
    obtain ⟨k, v⟩ := head
    by_cases hk : k = name
    · subst hk
      by_cases h : other = k
      · simp [DSAMap.updated, DSAMap.get, h]
      · simp [DSAMap.updated, DSAMap.get, h, Ne.symm h]
    · by_cases h : other = name
      · subst h
        simpa [DSAMap.updated, DSAMap.get, hk] using ih
      · simp [DSAMap.updated, DSAMap.get, hk, h, ih]

theorem DSAMap.get_removed (m : DSAMap) (name other : Str) :
    (m.removed name).get other = if other = name then none else m.get other := by
  induction m with
  | nil => simp [DSAMap.removed, DSAMap.get]
  | cons head rest ih =>
    obtain ⟨k, v⟩ := head
    rw [DSAMap.removed] at ih ⊢
    by_cases hk : k = name
    · rw [List.filter_cons_of_neg (by simp [hk]), ih]
      split_ifs with h
      · rfl
      · rw [DSAMap.get, if_neg (by rw [hk]; exact Ne.symm h)]
    · rw [List.filter_cons_of_pos (by simp [hk]), DSAMap.get, DSAMap.get, ih]
      by_cases h : k = other
      · rw [if_pos h, if_pos h, if_neg (h ▸ hk)]
      · rw [if_neg h, if_neg h]

theorem DSAMap.nodup_updated {m : DSAMap} (h : (m.map Prod.fst).Nodup) (name : Str)
    (value : DSAVal) : ((m.updated name value).map Prod.fst).Nodup := by
  have hmem : ∀ (m : DSAMap) (k : Str), k ∈ (m.updated name value).map Prod.fst →
      k = name ∨ k ∈ m.map Prod.fst := by
    intro m k hk
    induction m with
    | nil => exact Or.inl (List.mem_singleton.mp hk)
    | cons head rest ih =>
      rw [DSAMap.updated] at hk
      split_ifs at hk
      · exact Or.inr hk
      · rcases List.mem_cons.mp hk with rfl | hk
        · exact Or.inr List.mem_cons_self
        · exact (ih hk).imp_right (List.mem_cons_of_mem _)
  induction m with
  | nil => exact List.nodup_singleton name
  | cons head rest ih =>
    obtain ⟨hhead, hrest⟩ := List.nodup_cons.mp h
    rw [DSAMap.updated]
    split_ifs with hname
    · exact h
    · refine List.nodup_cons.mpr ⟨?_, ih hrest⟩
      intro hk
      exact (hmem rest head.1 hk).elim hname hhead

theorem DSAMap.get_eq_some_iff {m : DSAMap} (h : (m.map Prod.fst).Nodup) {name : Str}
    {value : DSAVal} : m.get name = some value ↔ (name, value) ∈ m := by
  induction m with
  | nil => simp [DSAMap.get]
  | cons head rest ih =>
    obtain ⟨k, v⟩ := head
    obtain ⟨hhead, hrest⟩ := List.nodup_cons.mp h
    rw [DSAMap.get, List.mem_cons, Prod.mk.injEq]
    split_ifs with hk
    · subst hk
      rw [Option.some.injEq]
      constructor
      · rintro rfl
        exact Or.inl ⟨rfl, rfl⟩
      · rintro (⟨-, rfl⟩ | hmem)
        · rfl
        · exact absurd (List.mem_map_of_mem (f := Prod.fst) hmem) hhead
    · rw [ih hrest]
      exact ⟨Or.inr, fun hor => hor.resolve_left fun heq => hk heq.1.symm⟩

/-! ### SIDs in update rows -/

/-- Reduction to a signed 32-bit integer, as JVM narrowing conversions do it. -/
def toInt32 (n : Int) : Int := (n + 2147483648) % 4294967296 - 2147483648

/-- `BigDecimal.intValue`: the fraction is dropped, then the low 32 bits are kept. -/
def intValue (q : Rat) : Int := toInt32 (q.num.tdiv q.den)

/-- `value.asInstanceOf[NumericValue].value.intValue`; `none` when the cast throws. -/
def DSAVal.intValue? : DSAVal → Option Int
  | .numeric value => some (intValue value)
  | _ => none

/-- The text of a string value. -/
def DSAVal.string? : DSAVal → Option Str
  | .string value => some value
  | _ => none

def sidKey : Str := str "sid"

/-- Extracts SID from an update row; `none` when the partial function is not defined or
throws on the row. -/
def extractSid : DSAVal → Option Int
  | .array value => value.head?.bind DSAVal.intValue?
  | .map value => (DSAMap.get value sidKey).bind DSAVal.intValue?
  | _ => none

/-- Replaces SID in an update row. -/
def replaceSid (row : DSAVal) (sid : Int) : DSAVal :=
  match row with
  | .array value => .array (.numeric sid :: value.tail)
  | .map value => .map (DSAMap.updated value sidKey (.numeric sid))
  | row => row

end DsaBroker
