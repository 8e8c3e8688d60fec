import Mathlib.Data.List.Basic

/-!
# Drawing at random until enough is accepted

What is drawn comes from a source, a list that may end.  `drawn` takes what passes a test, until it
has a given number; `retried` draws anew until the result is good.

Together they take the accepted part of the source in blocks, and give the first block that is good
(`retried_drawn_iff`).
-/

variable {α σ : Type}

/-- The first `k` elements of the source that pass the test, and the rest of it. -/
def drawn (p : α → Bool) : Nat → List α → Option (List α × List α)
  | 0, source => some ([], source)
  | _ + 1, [] => none
  | k + 1, x :: source =>
      if p x then (drawn p k source).map fun r => (x :: r.1, r.2) else drawn p (k + 1) source

/-- Draws again while the result is not good. -/
def retried (next : σ → Option (α × σ)) (good : α → Bool) : Nat → σ → Option (α × σ)
  | 0, _ => none
  | fuel + 1, s =>
      (next s).bind fun r => if good r.1 then some r else retried next good fuel r.2

section

variable {p : α → Bool}

theorem drawn_eq_some {k : Nat} {source taken rest : List α}
    (h : drawn p k source = some (taken, rest)) :
    taken.length = k ∧ source.filter p = taken ++ rest.filter p := by
  induction source generalizing k taken with
  | nil =>
    rcases k with _ | k
    · obtain ⟨rfl, rfl⟩ := Prod.mk.inj (Option.some.inj h)
      exact ⟨rfl, rfl⟩
    · simp [drawn] at h
  | cons x source ih =>
    rcases k with _ | k
    · obtain ⟨rfl, rfl⟩ := Prod.mk.inj (Option.some.inj h)
      exact ⟨rfl, rfl⟩
    · rw [drawn] at h
      split_ifs at h with hx
      · obtain ⟨r, hr, heq⟩ := Option.map_eq_some_iff.mp h
        obtain ⟨rfl, rfl⟩ := Prod.mk.inj heq
        obtain ⟨hlength, hfilter⟩ := ih hr
        exact ⟨congrArg (· + 1) hlength, by rw [List.filter_cons_of_pos hx, hfilter]; rfl⟩
      · rw [List.filter_cons_of_neg hx]
        exact ih h

/-- What passes the test is drawn from the front. -/
theorem drawn_of_filter {source taken more : List α} (h : source.filter p = taken ++ more) :
    ∃ rest, drawn p taken.length source = some (taken, rest) ∧ rest.filter p = more := by
  induction source generalizing taken with
  | nil =>
    obtain ⟨rfl, rfl⟩ := List.append_eq_nil_iff.mp h.symm
    exact ⟨[], rfl, rfl⟩
  | cons x source ih =>
    rcases taken with _ | ⟨y, taken⟩
    · exact ⟨x :: source, rfl, h⟩
    · by_cases hx : p x = true
      · rw [List.filter_cons_of_pos hx, List.cons_append] at h
        obtain ⟨rfl, hrest⟩ := List.cons.inj h
        obtain ⟨rest, hdrawn, hmore⟩ := ih hrest
        refine ⟨rest, ?_, hmore⟩
        rw [List.length_cons, drawn, if_pos hx, hdrawn, Option.map_some]
      · rw [List.filter_cons_of_neg hx] at h
        obtain ⟨rest, hdrawn, hmore⟩ := ih h
        refine ⟨rest, ?_, hmore⟩
        rw [List.length_cons, drawn, if_neg hx]
        exact hdrawn

end

/-- What is made of each result can as well be made of the last one. -/
theorem retried_map {β : Type} (next : σ → Option (α × σ)) (f : α → β) (good : β → Bool)
    (fuel : Nat) (s : σ) :
    retried (fun s => (next s).map fun r => (f r.1, r.2)) good fuel s =
      (retried next (fun a => good (f a)) fuel s).map fun r => (f r.1, r.2) := by
  induction fuel generalizing s with
  | zero => rfl
  | succ fuel ih =>
    rw [retried, retried]
    rcases next s with _ | r
    · rfl
    · simp only [Option.map_some, Option.bind_some]
      split_ifs
      · rfl
      · exact ih r.2

theorem good_of_retried {next : σ → Option (α × σ)} {good : α → Bool} {fuel : Nat} {s s' : σ}
    {a : α} (h : retried next good fuel s = some (a, s')) :
    good a = true ∧ ∃ before, next before = some (a, s') := by
  induction fuel generalizing s with
  | zero => simp [retried] at h
  | succ fuel ih =>
    obtain ⟨r, hr, hgood⟩ := Option.bind_eq_some_iff.mp h
    split_ifs at hgood with hok
    · obtain rfl := Option.some.inj hgood
      exact ⟨hok, s, hr⟩
    · exact ih hgood

theorem length_le_length_flatten {blocks : List (List α)} {k : Nat}
    (h : ∀ block ∈ blocks, block.length = k + 1) : blocks.length ≤ blocks.flatten.length := by
  induction blocks with
  | nil => exact Nat.le_refl _
  | cons block rest ih =>
    obtain ⟨hblock, hrest⟩ := List.forall_mem_cons.mp h
    rw [List.flatten_cons, List.length_append, List.length_cons, hblock]
    have := ih hrest
    omega

/-- **The first good block.**  Of the accepted part of the source, blocks of `k` are passed over as
long as they are not good. -/
theorem retried_drawn_iff {p : α → Bool} {k fuel : Nat} {good : List α → Bool} {source : List α}
    {taken : List α} :
    (retried (drawn p k) good fuel source).map Prod.fst = some taken ↔
      ∃ (blocks : List (List α)) (more : List α), blocks.length < fuel ∧
        source.filter p = blocks.flatten ++ (taken ++ more) ∧
        (∀ block ∈ blocks, block.length = k ∧ good block = false) ∧
        taken.length = k ∧ good taken = true := by
  induction fuel generalizing source with
  | zero => simp [retried]
  | succ fuel ih =>
    rw [retried]
    constructor
    · intro h
      obtain ⟨⟨result, rest⟩, hresult, rfl⟩ := Option.map_eq_some_iff.mp h
      obtain ⟨⟨first, left⟩, hfirst, hgood⟩ := Option.bind_eq_some_iff.mp hresult
      obtain ⟨hlength, hfilter⟩ := drawn_eq_some hfirst
      split_ifs at hgood with hok
      · obtain ⟨rfl, rfl⟩ := Prod.mk.inj (Option.some.inj hgood)
        refine ⟨[], left.filter p, Nat.succ_pos _, hfilter, ?_, hlength, hok⟩
        exact fun _ hmem => absurd hmem List.not_mem_nil
      · obtain ⟨blocks, more, hfuel, hleft, hbad, htaken⟩ :=
          ih.mp (Option.map_eq_some_iff.mpr ⟨_, hgood, rfl⟩)
        refine ⟨first :: blocks, more, Nat.succ_lt_succ hfuel, ?_, ?_, htaken⟩
        · rw [hfilter, hleft, List.flatten_cons, List.append_assoc]
        · exact List.forall_mem_cons.mpr ⟨⟨hlength, Bool.eq_false_iff.mpr hok⟩, hbad⟩
    · rintro ⟨blocks, more, hfuel, hfilter, hbad, rfl, hgood⟩
      rcases blocks with _ | ⟨first, blocks⟩
      · have hfront : source.filter p = taken ++ more := hfilter
        obtain ⟨rest, hdrawn, -⟩ := drawn_of_filter hfront
        rw [hdrawn, Option.bind_some, if_pos hgood, Option.map_some]
      · obtain ⟨⟨hlength, hfirst⟩, hbad⟩ := List.forall_mem_cons.mp hbad
        rw [List.flatten_cons, List.append_assoc] at hfilter
        obtain ⟨rest, hdrawn, hrest⟩ := drawn_of_filter hfilter
        rw [hlength] at hdrawn
        rw [hdrawn, Option.bind_some, if_neg (by rw [hfirst]; exact Bool.false_ne_true)]
        exact ih.mpr ⟨blocks, more, Nat.lt_of_succ_lt_succ hfuel, hrest, hbad, rfl, hgood⟩
