import Mathlib.Data.List.Basic
import Mathlib.Data.List.Infix
import Mathlib.Data.List.TakeDrop

/-!
# Readers of streams

A reader takes symbols from the front of its input and gives a value and what is left, or refuses
the input.  A framed reader goes by the symbols that it takes alone: whatever follows them, it
takes the same ones, and it refuses an input that ends before they do.  Readers that run one after
the other are framed if each of them is, so no value's code goes on where another's ends.

`cut` says how an input that ends too early is refused; it may look at where the input ends, but
not at where it begins.
-/

namespace DsaBroker

/-- Takes symbols `β` from the front of the input, or refuses it with an error `ε`. -/
abbrev StreamReader (ε β : Type) := StateT (List β) (Except ε)

variable {ε β α γ : Type}

namespace StreamReader

/-- Refuse whatever comes. -/
def refuse (e : ε) : StreamReader ε β α := fun _ => .error e

/-- The next symbol. -/
def next (e : ε) : StreamReader ε β β
  | [] => .error e
  | b :: rest => .ok (b, rest)

/-- The next `n` symbols. -/
def taking (e : ε) (n : Nat) : StreamReader ε β (List β) := fun input =>
  if n ≤ input.length then .ok (input.take n, input.drop n) else .error e

/-- The same reader `n` times. -/
def repeated (r : StreamReader ε β α) : Nat → StreamReader ε β (List α)
  | 0 => pure []
  | n + 1 => do
      let a ← r
      let more ← r.repeated n
      pure (a :: more)

theorem run_bind_ok {r : StreamReader ε β α} {input rest : List β} {a : α}
    (h : r input = .ok (a, rest)) (f : α → StreamReader ε β γ) : (r >>= f) input = f a rest := by
  change Except.bind (r input) _ = _
  rw [h]
  rfl

theorem run_bind_error {r : StreamReader ε β α} {input : List β} {e : ε}
    (h : r input = .error e) (f : α → StreamReader ε β γ) : (r >>= f) input = .error e := by
  change Except.bind (r input) _ = _
  rw [h]
  rfl

/-- A result of two readers comes from a result of the first. -/
theorem run_bind_eq_ok {r : StreamReader ε β α} {f : α → StreamReader ε β γ}
    {input rest : List β} {c : γ} (h : (r >>= f) input = .ok (c, rest)) :
    ∃ a middle, r input = .ok (a, middle) ∧ f a middle = .ok (c, rest) := by
  rcases hr : r input with e | ⟨a, middle⟩
  · rw [run_bind_error hr f] at h
    simp only [reduceCtorEq] at h
  · rw [run_bind_ok hr f] at h
    exact ⟨a, middle, rfl, h⟩

theorem run_pure (a : α) (input : List β) :
    (pure a : StreamReader ε β α) input = .ok (a, input) := rfl

theorem map_eq_bind (g : α → γ) (r : StreamReader ε β α) :
    g <$> r = r >>= fun a => pure (g a) := (bind_pure_comp g r).symm

/-! ### Framed readers -/

/-- What is accepted is accepted for its first symbols, and cut short it is refused. -/
structure Framed (cut : List β → ε → Prop) (r : StreamReader ε β α) : Prop where
  takes : ∀ {input a rest}, r input = .ok (a, rest) →
    ∃ taken, input = taken ++ rest ∧ ∀ other, r (taken ++ other) = .ok (a, other)
  refuses : ∀ {taken a}, r taken = .ok (a, []) → ∀ {initial}, initial <+: taken →
    initial ≠ taken → ∃ e, r initial = .error e ∧ cut initial e

/-- How an input is refused depends on its end only: what was read in front of it makes no
difference. -/
def EndsOnly (cut : List β → ε → Prop) : Prop :=
  ∀ front initial e, cut initial e → cut (front ++ initial) e

section Framed

variable {cut : List β → ε → Prop}

theorem framed_refuse (e : ε) : Framed cut (refuse e : StreamReader ε β α) where
  takes := by
    intro input a rest h
    simp only [refuse, reduceCtorEq] at h
  refuses := by
    intro taken a h
    simp only [refuse, reduceCtorEq] at h

theorem framed_pure (a : α) : Framed cut (pure a : StreamReader ε β α) where
  takes := by
    intro input b rest h
    obtain ⟨rfl, rfl⟩ := Prod.mk.inj (Except.ok.inj h)
    exact ⟨[], rfl, fun other => rfl⟩
  refuses := by
    intro taken b h initial hinitial hne
    obtain ⟨-, rfl⟩ := Prod.mk.inj (Except.ok.inj h)
    exact absurd (List.prefix_nil.mp hinitial) hne

theorem framed_taking {e : ε} (hcut : ∀ initial, cut initial e) (n : Nat) :
    Framed cut (taking e n : StreamReader ε β (List β)) where
  takes := by
    intro input a rest h
    rw [taking] at h
    split_ifs at h with hn
    obtain ⟨rfl, rfl⟩ := Prod.mk.inj (Except.ok.inj h)
    have hlength : (input.take n).length = n := List.length_take_of_le hn
    refine ⟨input.take n, (List.take_append_drop n input).symm, fun other => ?_⟩
    rw [taking, if_pos (by rw [List.length_append, hlength]; exact Nat.le_add_right _ _),
      List.take_left' hlength, List.drop_left' hlength]
  refuses := by
    intro taken a h initial hinitial hne
    rw [taking] at h
    split_ifs at h with hn
    have hdrop : taken.drop n = [] := (Prod.mk.inj (Except.ok.inj h)).2
    refine ⟨e, ?_, hcut initial⟩
    have hlt : initial.length < taken.length :=
      lt_of_le_of_ne hinitial.length_le fun heq => hne (hinitial.eq_of_length heq)
    have hle : taken.length ≤ n := List.drop_eq_nil_iff.mp hdrop
    rw [taking, if_neg (by omega)]

theorem framed_next {e : ε} (hcut : cut [] e) : Framed cut (next e : StreamReader ε β β) where
  takes := by
    intro input a rest h
    rcases input with _ | ⟨b, more⟩
    · simp only [next, reduceCtorEq] at h
    · obtain ⟨rfl, rfl⟩ := Prod.mk.inj (Except.ok.inj h)
      exact ⟨[b], rfl, fun other => rfl⟩
  refuses := by
    intro taken a h initial hinitial hne
    rcases taken with _ | ⟨b, more⟩
    · simp only [next, reduceCtorEq] at h
    · obtain ⟨-, rfl⟩ := Prod.mk.inj (Except.ok.inj h)
      rcases initial with _ | ⟨c, others⟩
      · exact ⟨e, rfl, hcut⟩
      · obtain ⟨rfl, hothers⟩ := List.cons_prefix_cons.mp hinitial
        rw [List.prefix_nil.mp hothers] at hne
        exact absurd rfl hne

theorem Framed.mono {cut' : List β → ε → Prop} (h : ∀ initial e, cut initial e → cut' initial e)
    {r : StreamReader ε β α} (hr : Framed cut r) : Framed cut' r where
  takes := hr.takes
  refuses := by
    intro taken a htaken initial hinitial hne
    obtain ⟨e, herror, hcut⟩ := hr.refuses htaken hinitial hne
    exact ⟨e, herror, h initial e hcut⟩

/-- One framed reader after the other: cut in the middle, an input is refused by the reader that
it is cut in, after what the first one has taken. -/
theorem Framed.bind_after {r : StreamReader ε β α} (hr : Framed cut r)
    {f : α → StreamReader ε β γ} (hf : ∀ a front, r front = .ok (a, []) →
      Framed (fun initial e => cut (front ++ initial) e) (f a)) : Framed cut (r >>= f) := by
  have halone : ∀ {front a}, (∀ other, r (front ++ other) = .ok (a, other)) →
      r front = .ok (a, []) := by
    intro front a hfront
    rw [← hfront [], List.append_nil]
  constructor
  · intro input c rest h
    obtain ⟨a, middle, hfirst, hsecond⟩ := run_bind_eq_ok h
    obtain ⟨front, rfl, hfront⟩ := hr.takes hfirst
    obtain ⟨back, rfl, hback⟩ := (hf a front (halone hfront)).takes hsecond
    refine ⟨front ++ back, (List.append_assoc _ _ _).symm, fun other => ?_⟩
    rw [List.append_assoc, run_bind_ok (hfront _) f, hback other]
  · intro taken c h initial hinitial hne
    obtain ⟨a, middle, hfirst, hsecond⟩ := run_bind_eq_ok h
    obtain ⟨front, rfl, hfront⟩ := hr.takes hfirst
    have hlater := hf a front (halone hfront)
    rcases List.prefix_or_prefix_of_prefix hinitial (List.prefix_append front middle)
      with hshort | ⟨back, rfl⟩
    · by_cases hwhole : initial = front
      · subst hwhole
        have hback : ([] : List β) ≠ middle := by
          rintro rfl
          exact hne (List.append_nil _).symm
        obtain ⟨e, herror, hcut⟩ := hlater.refuses hsecond List.nil_prefix hback
        rw [List.append_nil] at hcut
        exact ⟨e, by rw [run_bind_ok (halone hfront) f, herror], hcut⟩
      · obtain ⟨e, herror, hcut⟩ := hr.refuses (halone hfront) hshort hwhole
        exact ⟨e, run_bind_error herror f, hcut⟩
    · have hback : back <+: middle := (List.prefix_append_right_inj front).mp hinitial
      obtain ⟨e, herror, hcut⟩ := hlater.refuses hsecond hback fun heq => hne (by rw [heq])
      exact ⟨e, by rw [run_bind_ok (hfront back) f, herror], hcut⟩

theorem Framed.bind (hends : EndsOnly cut) {r : StreamReader ε β α} (hr : Framed cut r)
    {f : α → StreamReader ε β γ} (hf : ∀ a, Framed cut (f a)) : Framed cut (r >>= f) :=
  hr.bind_after fun a front _ => (hf a).mono fun initial e => hends front initial e

theorem Framed.map {r : StreamReader ε β α} (hr : Framed cut r) (g : α → γ) :
    Framed cut (g <$> r) := by
  rw [map_eq_bind]
  exact hr.bind_after fun a _ _ => framed_pure (g a)

theorem Framed.repeated (hends : EndsOnly cut) {r : StreamReader ε β α} (hr : Framed cut r) :
    ∀ n, Framed cut (r.repeated n)
  | 0 => framed_pure []
  | n + 1 => hr.bind hends fun a =>
      (Framed.repeated hends hr n).bind hends fun more => framed_pure (a :: more)

end Framed

/-! ### Reading back -/

/-- In front of any rest, the code gives the outcome and leaves the rest. -/
def Yields (r : StreamReader ε β α) (code : List β) (outcome : Except ε α) : Prop :=
  ∀ rest, r (code ++ rest) = outcome.map fun a => (a, rest)

theorem yields_pure (a : α) : Yields (pure a : StreamReader ε β α) [] (.ok a) := fun _ => rfl

theorem yields_taking (e : ε) (code : List β) :
    Yields (taking e code.length) code (.ok code) := by
  intro rest
  rw [taking, if_pos (by rw [List.length_append]; exact Nat.le_add_right _ _), List.take_left,
    List.drop_left]
  rfl

theorem Yields.bind {r : StreamReader ε β α} {code back : List β} {a : α}
    (hr : r.Yields code (.ok a)) {f : α → StreamReader ε β γ} {outcome : Except ε γ}
    (hf : (f a).Yields back outcome) : (r >>= f).Yields (code ++ back) outcome := by
  intro rest
  rw [List.append_assoc, run_bind_ok (hr (back ++ rest)) f, hf rest]

/-- The second reader does not run when the first one refuses. -/
theorem Yields.bind_outcome {r : StreamReader ε β α} {code back : List β} {outcome : Except ε α}
    (hr : r.Yields code outcome) {f : α → StreamReader ε β γ} {g : α → Except ε γ}
    (hf : ∀ a, (f a).Yields back (g a)) : (r >>= f).Yields (code ++ back) (outcome >>= g) := by
  intro rest
  have hrun := hr (back ++ rest)
  rw [List.append_assoc]
  rcases outcome with e | a
  · exact run_bind_error hrun f
  · rw [run_bind_ok hrun f, hf a rest]
    rfl

theorem Yields.map {r : StreamReader ε β α} {code : List β} {outcome : Except ε α}
    (hr : r.Yields code outcome) (g : α → γ) : (g <$> r).Yields code (outcome.map g) := by
  rw [map_eq_bind]
  intro rest
  have hrun := hr rest
  rcases outcome with e | a
  · exact run_bind_error hrun _
  · exact run_bind_ok hrun _

theorem Yields.repeated_succ {r : StreamReader ε β α} {code back : List β}
    {outcome : Except ε α} (hr : r.Yields code outcome) {n : Nat} {more : Except ε (List α)}
    (hmore : (r.repeated n).Yields back more) :
    (r.repeated (n + 1)).Yields (code ++ back) (do
      let a ← outcome
      let rest ← more
      pure (a :: rest)) := by
  rw [StreamReader.repeated]
  apply hr.bind_outcome
  intro a
  rw [← List.append_nil back]
  exact hmore.bind_outcome fun rest => yields_pure (a :: rest)

/-! ### What a reader accepts -/

/-- What is read as `a` is a code of `a`, and the code is all that is taken. -/
def ReadsOnly (r : StreamReader ε β α) (L : α → List β → Prop) : Prop :=
  ∀ input a rest, r input = .ok (a, rest) → ∃ code, input = code ++ rest ∧ L a code

theorem ReadsOnly.mono {r : StreamReader ε β α} {L M : α → List β → Prop} (hr : ReadsOnly r L)
    (h : ∀ a code, L a code → M a code) : ReadsOnly r M := by
  intro input a rest hrun
  obtain ⟨code, hinput, hcode⟩ := hr input a rest hrun
  exact ⟨code, hinput, h a code hcode⟩

theorem reads_refuse (e : ε) (L : α → List β → Prop) : ReadsOnly (refuse e) L := by
  intro input a rest h
  simp only [refuse, reduceCtorEq] at h

theorem reads_pure {a : α} {L : α → List β → Prop} (h : L a []) :
    ReadsOnly (pure a : StreamReader ε β α) L := by
  intro input b rest hrun
  obtain ⟨rfl, rfl⟩ := Prod.mk.inj (Except.ok.inj hrun)
  exact ⟨[], rfl, h⟩

theorem reads_next (e : ε) : ReadsOnly (next e) fun (b : β) code => code = [b] := by
  intro input b rest h
  rcases input with _ | ⟨c, more⟩
  · simp only [next, reduceCtorEq] at h
  · obtain ⟨rfl, rfl⟩ := Prod.mk.inj (Except.ok.inj h)
    exact ⟨[c], rfl, rfl⟩

theorem reads_taking (e : ε) (n : Nat) :
    ReadsOnly (taking e n) fun (a : List β) code => code = a ∧ a.length = n := by
  intro input a rest h
  rw [taking] at h
  split_ifs at h with hn
  obtain ⟨rfl, rfl⟩ := Prod.mk.inj (Except.ok.inj h)
  exact ⟨_, (List.take_append_drop n input).symm, rfl, List.length_take_of_le hn⟩

theorem ReadsOnly.bind {r : StreamReader ε β α} {L : α → List β → Prop} (hr : ReadsOnly r L)
    {f : α → StreamReader ε β γ} {M : γ → List β → Prop}
    (hf : ∀ a front, L a front → ReadsOnly (f a) fun c back => M c (front ++ back)) :
    ReadsOnly (r >>= f) M := by
  intro input c rest h
  obtain ⟨a, middle, hfirst, hsecond⟩ := run_bind_eq_ok h
  obtain ⟨front, rfl, hfront⟩ := hr _ _ _ hfirst
  obtain ⟨back, rfl, hback⟩ := hf a front hfront _ _ _ hsecond
  exact ⟨front ++ back, (List.append_assoc _ _ _).symm, hback⟩

theorem ReadsOnly.map {r : StreamReader ε β α} {L : α → List β → Prop} (hr : ReadsOnly r L)
    {g : α → γ} {M : γ → List β → Prop} (hg : ∀ a code, L a code → M (g a) code) :
    ReadsOnly (g <$> r) M := by
  rw [map_eq_bind]
  apply hr.bind
  intro a front hfront
  apply reads_pure
  rw [List.append_nil]
  exact hg a front hfront

/-! ### Readers that agree on short inputs -/

/-- The readers do the same with every input that is no longer than `n`. -/
def AgreeUpTo (n : Nat) (r r' : StreamReader ε β α) : Prop :=
  ∀ input, input.length ≤ n → r input = r' input

/-- What is left is no longer than the input. -/
def Shrinks (r : StreamReader ε β α) : Prop :=
  ∀ {input a rest}, r input = .ok (a, rest) → rest.length ≤ input.length

theorem Framed.shrinks {cut : List β → ε → Prop} {r : StreamReader ε β α} (hr : Framed cut r) :
    r.Shrinks := by
  intro input a rest h
  obtain ⟨taken, rfl, -⟩ := hr.takes h
  rw [List.length_append]
  exact Nat.le_add_left _ _

theorem agreeUpTo_refl (n : Nat) (r : StreamReader ε β α) : AgreeUpTo n r r := fun _ _ => rfl

theorem AgreeUpTo.bind {n : Nat} {r r' : StreamReader ε β α} (hr : AgreeUpTo n r r')
    (hshrinks : r.Shrinks) {f f' : α → StreamReader ε β γ} (hf : ∀ a, AgreeUpTo n (f a) (f' a)) :
    AgreeUpTo n (r >>= f) (r' >>= f') := by
  intro input hinput
  have hsame := hr input hinput
  rcases hrun : r input with e | ⟨a, rest⟩
  · rw [run_bind_error hrun f, run_bind_error (hsame.symm.trans hrun) f']
  · rw [run_bind_ok hrun f, run_bind_ok (hsame.symm.trans hrun) f']
    exact hf a rest (Nat.le_trans (hshrinks hrun) hinput)

theorem AgreeUpTo.map {n : Nat} {r r' : StreamReader ε β α} (hr : AgreeUpTo n r r')
    (hshrinks : r.Shrinks) (g : α → γ) : AgreeUpTo n (g <$> r) (g <$> r') := by
  rw [map_eq_bind, map_eq_bind]
  exact hr.bind hshrinks fun a => agreeUpTo_refl n _

theorem AgreeUpTo.repeated {n : Nat} {r r' : StreamReader ε β α} (hr : AgreeUpTo n r r')
    (hshrinks : r.Shrinks) : ∀ count, AgreeUpTo n (r.repeated count) (r'.repeated count)
  | 0 => agreeUpTo_refl n _
  | count + 1 => hr.bind hshrinks fun a => by
      intro input hinput
      have hmore := AgreeUpTo.repeated hr hshrinks count input hinput
      rcases hrun : r.repeated count input with e | ⟨more, rest⟩
      · rw [run_bind_error hrun, run_bind_error (hmore.symm.trans hrun)]
      · rw [run_bind_ok hrun, run_bind_ok (hmore.symm.trans hrun)]

end StreamReader

end DsaBroker
