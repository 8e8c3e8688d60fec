import Mathlib.Data.List.Perm.Basic

/-!
# Patches that are applied later

A patch says for every key what becomes of it: it is set, it is removed, or it is left alone.  A
view follows a target by patches: when the target changes, a patch is computed against the view
as it then is, and is applied to it later, in whatever order.

A pending patch that has been overtaken by a change of the target puts an old entry in place of
the new one.  If none has, the view settles: every pending patch agrees with the target, and what
differs from the target will be set by one (`Settling`).  An announcement keeps this if the
pending patches agree with it, and so does the application of any pending patch; and a view that
settles and waits for no patch is the target.
-/

/-- What becomes of every key: `none` leaves it, `some none` removes it. -/
abbrev Patch (κ ν : Type) := κ → Option (Option ν)

variable {κ ν : Type}

namespace Patch

def apply (p : Patch κ ν) (m : κ → Option ν) : κ → Option ν := fun k => (p k).getD (m k)

/-- The patch for the same keys with other values. -/
def map {μ : Type} (f : ν → μ) (p : Patch κ ν) : Patch κ μ := fun k => (p k).map (Option.map f)

theorem apply_some {p : Patch κ ν} {k : κ} {w : Option ν} (h : p k = some w)
    (m : κ → Option ν) : p.apply m k = w := by
  rw [apply, h]
  rfl

theorem apply_none {p : Patch κ ν} {k : κ} (h : p k = none) (m : κ → Option ν) :
    p.apply m k = m k := by
  rw [apply, h]
  rfl

theorem map_apply {μ : Type} (f : ν → μ) (p : Patch κ ν) (m : κ → Option ν) (k : κ) :
    (p.map f).apply (fun k => (m k).map f) k = (p.apply m k).map f := by
  cases h : p k with
  | some w => rw [apply_some h, apply_some (show p.map f k = some (w.map f) by rw [map, h]; rfl)]
  | none => rw [apply_none h, apply_none (show p.map f k = none by rw [map, h]; rfl)]

/-- A later patch with at least the same keys makes an earlier one forgotten. -/
theorem apply_apply {p q : Patch κ ν} (h : ∀ k, (p k).isSome = true → (q k).isSome = true)
    (m : κ → Option ν) : q.apply (p.apply m) = q.apply m := by
  funext k
  cases hq : q k with
  | some w => rw [apply_some hq, apply_some hq]
  | none =>
    have hp : p k = none := by
      cases hp : p k with
      | none => rfl
      | some w =>
        have hsome := h k (by rw [hp]; rfl)
        rw [hq] at hsome
        cases hsome
    rw [apply_none hq, apply_none hq, apply_none hp]

/-- Every key of the first patch is one of the second. -/
def Grows (p q : Patch κ ν) : Prop := ∀ k, (p k).isSome = true → (q k).isSome = true

/-- Of patches that are applied in turn, only the last remains if it has all their keys. -/
theorem foldl_apply_last {last : Patch κ ν} {patches : List (Patch κ ν)}
    (h : ∀ p ∈ patches, p.Grows last) (m : κ → Option ν) :
    (patches ++ [last]).foldl (fun m p => p.apply m) m = last.apply m := by
  induction patches generalizing m with
  | nil => rfl
  | cons p rest ih =>
    have hrest : ∀ q ∈ rest, q.Grows last := fun q hq => h q (List.mem_cons_of_mem _ hq)
    rw [List.cons_append, List.foldl_cons, ih hrest]
    exact apply_apply (h p List.mem_cons_self) m

/-- Where both patches have something to say, they say the same. -/
def Agrees (p q : Patch κ ν) : Prop := ∀ k v w, p k = some v → q k = some w → v = w

/-- The patch makes what the announced one makes of the view. -/
structure IsDiff (d s : Patch κ ν) (view : κ → Option ν) : Prop where
  announced : ∀ k w, d k = some w → s k = some w
  current : ∀ k w, s k = some w → d k = none → view k = w

theorem IsDiff.apply {d s : Patch κ ν} {view : κ → Option ν} (h : d.IsDiff s view) :
    d.apply view = s.apply view := by
  funext k
  cases hd : d k with
  | some w => rw [apply_some hd, apply_some (h.announced k w hd)]
  | none =>
    rw [apply_none hd]
    cases hs : s k with
    | some w => rw [apply_some hs, h.current k w hs hd]
    | none => rw [apply_none hs]

theorem IsDiff.map {μ : Type} {d s : Patch κ ν} {view : κ → Option ν} (h : d.IsDiff s view)
    (f : ν → μ) : (d.map f).IsDiff (s.map f) fun k => (view k).map f := by
  constructor
  · intro k w hw
    obtain ⟨v, hv, rfl⟩ := Option.map_eq_some_iff.mp hw
    rw [Patch.map, h.announced k v hv]
    rfl
  · intro k w hw hnone
    obtain ⟨v, hv, rfl⟩ := Option.map_eq_some_iff.mp hw
    rw [h.current k v hv (Option.map_eq_none_iff.mp hnone)]

end Patch

/-- The view comes to the target when the pending patches are applied, in any order. -/
structure Settling (view target : κ → Option ν) (pending : List (Patch κ ν)) : Prop where
  agree : ∀ p ∈ pending, ∀ k w, p k = some w → w = target k
  covered : ∀ k, view k = target k ∨ ∃ p ∈ pending, p k = some (target k)

namespace Settling

variable {view target : κ → Option ν} {pending : List (Patch κ ν)}

theorem start (view : κ → Option ν) : Settling view view [] := by
  constructor
  · intro p hp
    cases hp
  · exact fun k => Or.inl rfl

/-- The target changes, and a patch waits that is computed against the view. -/
theorem announce (h : Settling view target pending) {d s : Patch κ ν} (hd : d.IsDiff s view)
    (hagree : ∀ p ∈ pending, p.Agrees s) : Settling view (s.apply target) (pending ++ [d]) := by
  have hmem : d ∈ pending ++ [d] := List.mem_append_right _ (List.mem_singleton.mpr rfl)
  constructor
  · intro p hp k w hw
    rcases List.mem_append.mp hp with hold | hnew
    · cases hs : s k with
      | some v => rw [Patch.apply_some hs, hagree p hold k w v hw hs]
      | none => rw [Patch.apply_none hs, h.agree p hold k w hw]
    · rw [List.mem_singleton.mp hnew] at hw
      rw [Patch.apply_some (hd.announced k w hw)]
  · intro k
    cases hs : s k with
    | some v =>
      rw [Patch.apply_some hs]
      cases hdk : d k with
      | some w =>
        obtain rfl : v = w := Option.some.inj (hs.symm.trans (hd.announced k w hdk))
        exact Or.inr ⟨d, hmem, hdk⟩
      | none => exact Or.inl (hd.current k v hs hdk)
    | none =>
      rw [Patch.apply_none hs]
      rcases h.covered k with hview | ⟨p, hp, hset⟩
      · exact Or.inl hview
      · exact Or.inr ⟨p, List.mem_append_left _ hp, hset⟩

/-- One of the pending patches is applied. -/
theorem perform (h : Settling view target pending) {p : Patch κ ν} {rest : List (Patch κ ν)}
    (hperm : (p :: rest).Perm pending) : Settling (p.apply view) target rest := by
  have hmem : ∀ q, q ∈ pending ↔ q = p ∨ q ∈ rest := by
    intro q
    rw [← hperm.mem_iff, List.mem_cons]
  constructor
  · exact fun q hq => h.agree q ((hmem q).mpr (Or.inr hq))
  · intro k
    cases hset : p k with
    | some w =>
      rw [Patch.apply_some hset]
      exact Or.inl (h.agree p ((hmem p).mpr (Or.inl rfl)) k w hset)
    | none =>
      rw [Patch.apply_none hset]
      rcases h.covered k with hview | ⟨q, hq, hcover⟩
      · exact Or.inl hview
      · rcases (hmem q).mp hq with rfl | hrest
        · cases hset.symm.trans hcover
        · exact Or.inr ⟨q, hrest, hcover⟩

theorem settled (h : Settling view target []) : view = target := by
  funext k
  rcases h.covered k with hview | ⟨p, hp, _⟩
  · exact hview
  · cases hp

end Settling

/-- A patch that disagrees with an announcement leaves something else if it comes last. -/
theorem Patch.overtaken {p s : Patch κ ν} (h : ¬ p.Agrees s) (view target : κ → Option ν) :
    p.apply view ≠ s.apply target := by
  intro heq
  apply h
  intro k v w hv hw
  rw [← Patch.apply_some hv view, heq, Patch.apply_some hw]
