import Mathlib.Data.List.Basic

/-!
# Channels between peers

What one node tells another arrives in order, if it arrives; what different nodes tell has no order.
A node tells a message to several receivers at a time, itself among them.

`Complete` says that a node misses nothing of what was told so far: it has heard it, or it is still
on the way.  Messages of a kind that only one sender tells reach all such nodes in the order in
which they were told.
-/

structure PeerChannels (ν μ : Type) where
  inFlight : ν → ν → List μ
  /-- what a node has heard, with the senders -/
  heard : ν → List (ν × μ)

namespace PeerChannels

variable {ν μ : Type}

def empty : PeerChannels ν μ := ⟨fun _ _ => [], fun _ => []⟩

/-- The messages of one sender. -/
def ofSender [DecidableEq ν] (a : ν) (messages : List (ν × μ)) : List μ :=
  messages.filterMap fun e => if e.1 = a then some e.2 else none

section Send

variable [DecidableEq ν]

def tell (c : PeerChannels ν μ) (sender : ν) (receivers : ν → Bool) (m : μ) :
    PeerChannels ν μ where
  inFlight a b :=
    if a = sender ∧ receivers b = true then c.inFlight a b ++ [m] else c.inFlight a b
  heard := c.heard

/-- The first message on the way from `a` to `b` arrives. -/
def deliver (c : PeerChannels ν μ) (a b : ν) : Option (μ × PeerChannels ν μ) :=
  match c.inFlight a b with
  | [] => none
  | m :: rest =>
      some (m, {
        inFlight := fun x y => if x = a ∧ y = b then rest else c.inFlight x y
        heard := fun y => if y = b then c.heard y ++ [(a, m)] else c.heard y })

/-- The first message on the way from `a` to `b` is lost. -/
def lose (c : PeerChannels ν μ) (a b : ν) : PeerChannels ν μ where
  inFlight x y := if x = a ∧ y = b then (c.inFlight x y).tail else c.inFlight x y
  heard := c.heard

theorem deliver_eq_some {c c' : PeerChannels ν μ} {a b : ν} {m : μ}
    (h : c.deliver a b = some (m, c')) :
    c.inFlight a b = m :: c'.inFlight a b ∧
      (∀ x y, ¬ (x = a ∧ y = b) → c'.inFlight x y = c.inFlight x y) ∧
      c'.heard b = c.heard b ++ [(a, m)] ∧ ∀ y, y ≠ b → c'.heard y = c.heard y := by
  rw [deliver] at h
  split at h
  · simp at h
  · rename_i first rest hrest
    obtain ⟨rfl, rfl⟩ := Prod.mk.inj (Option.some.inj h)
    refine ⟨?_, ?_, if_pos rfl, fun y hy => if_neg hy⟩
    · rw [hrest]
      simp
    · intro x y hxy
      exact if_neg hxy

/-- Other messages of the sender change nothing among those of a kind. -/
theorem filter_tell {p : μ → Bool} {m : μ} (hm : p m = false) (c : PeerChannels ν μ) (sender : ν)
    (receivers : ν → Bool) (x y : ν) :
    ((c.tell sender receivers m).inFlight x y).filter p = (c.inFlight x y).filter p := by
  simp only [tell]
  split_ifs
  · rw [List.filter_append, List.filter_cons, if_neg (by rw [hm]; exact Bool.false_ne_true),
      List.filter_nil, List.append_nil]
  · rfl

theorem filter_deliver {p : μ → Bool} {m : μ} (hm : p m = false) {c c' : PeerChannels ν μ}
    {a b : ν} (h : c.deliver a b = some (m, c')) (x y : ν) :
    (c'.inFlight x y).filter p = (c.inFlight x y).filter p := by
  obtain ⟨hfirst, hothers, -, -⟩ := deliver_eq_some h
  by_cases hxy : x = a ∧ y = b
  · obtain ⟨rfl, rfl⟩ := hxy
    rw [hfirst, List.filter_cons, if_neg (by rw [hm]; exact Bool.false_ne_true)]
  · rw [hothers x y hxy]

/-- The node has heard what was told, or will. -/
def Complete (c : PeerChannels ν μ) (history : List (ν × μ)) (b : ν) : Prop :=
  ∀ a, ofSender a (c.heard b) ++ c.inFlight a b = ofSender a history

theorem ofSender_concat (a : ν) (messages : List (ν × μ)) (e : ν × μ) :
    ofSender a (messages ++ [e]) = ofSender a messages ++ if e.1 = a then [e.2] else [] := by
  rw [ofSender, List.filterMap_append, ofSender]
  congr 1
  split_ifs with h
  · exact List.filterMap_cons_some (by rw [if_pos h])
  · exact List.filterMap_cons_none (by rw [if_neg h])

theorem complete_empty (b : ν) : (empty : PeerChannels ν μ).Complete [] b := fun _ => rfl

theorem Complete.tell {c : PeerChannels ν μ} {history : List (ν × μ)} {b : ν}
    (h : c.Complete history b) {sender : ν} {receivers : ν → Bool} (hb : receivers b = true)
    (m : μ) : (c.tell sender receivers m).Complete (history ++ [(sender, m)]) b := by
  intro a
  rw [ofSender_concat, ← h a, PeerChannels.tell]
  by_cases ha : a = sender
  · simp only [ha, hb, and_self, if_true, List.append_assoc]
  · simp only [ha, Ne.symm ha, false_and, if_false, List.append_nil]

theorem Complete.deliver {c c' : PeerChannels ν μ} {history : List (ν × μ)} {b : ν}
    (h : c.Complete history b) {x y : ν} {m : μ} (hdeliver : c.deliver x y = some (m, c')) :
    c'.Complete history b := by
  obtain ⟨hfirst, hothers, hheard, hdeaf⟩ := deliver_eq_some hdeliver
  intro a
  rw [← h a]
  by_cases hb : b = y
  · subst hb
    rw [hheard, ofSender_concat]
    by_cases ha : a = x
    · subst ha
      rw [hfirst, if_pos rfl, List.append_assoc, List.singleton_append]
    · rw [hothers a b fun hab => ha hab.1, if_neg (Ne.symm ha), List.append_nil]
  · rw [hdeaf b hb, hothers a b fun hab => hb hab.2]

/-- What another node does not get is not missed. -/
theorem Complete.lose {c : PeerChannels ν μ} {history : List (ν × μ)} {b : ν}
    (h : c.Complete history b) (x : ν) {y : ν} (hb : b ≠ y) : (c.lose x y).Complete history b := by
  intro a
  have hkept : (c.lose x y).inFlight a b = c.inFlight a b := if_neg fun hab => hb hab.2
  rw [hkept]
  exact h a

theorem mem_ofSender {a : ν} {messages : List (ν × μ)} {m : μ} :
    m ∈ ofSender a messages ↔ (a, m) ∈ messages := by
  rw [ofSender, List.mem_filterMap]
  constructor
  · rintro ⟨⟨x, n⟩, he, hm⟩
    split_ifs at hm with hx
    obtain rfl := Option.some.inj hm
    exact hx ▸ he
  · intro hm
    exact ⟨(a, m), hm, if_pos rfl⟩

/-- A kind of messages that only one sender tells. -/
theorem filter_ofSender {a : ν} {p : μ → Bool} {messages : List (ν × μ)}
    (h : ∀ e ∈ messages, p e.2 = true → e.1 = a) :
    (ofSender a messages).filter p = (messages.map Prod.snd).filter p := by
  induction messages with
  | nil => rfl
  | cons e rest ih =>
    obtain ⟨he, hrest⟩ := List.forall_mem_cons.mp h
    have ih := ih hrest
    rw [ofSender] at ih ⊢
    by_cases ha : e.1 = a
    · rw [List.filterMap_cons_some (by rw [if_pos ha]), List.map_cons, List.filter_cons,
        List.filter_cons, ih]
    · rw [List.filterMap_cons_none (by rw [if_neg ha]), List.map_cons,
        List.filter_cons_of_neg (mt he ha), ih]

/-- **Order.**  Messages of a kind that only one sender tells are heard in the order in which they
were told. -/
theorem Complete.filter {c : PeerChannels ν μ} {history : List (ν × μ)} {b : ν}
    (h : c.Complete history b) {a : ν} {p : μ → Bool}
    (hkind : ∀ e ∈ history, p e.2 = true → e.1 = a) :
    ((c.heard b).map Prod.snd).filter p ++ (c.inFlight a b).filter p =
      (history.map Prod.snd).filter p := by
  have hheard : ∀ e ∈ c.heard b, p e.2 = true → e.1 = a := by
    intro e he hp
    have hmem : e.2 ∈ ofSender e.1 history := by
      rw [← h e.1]
      exact List.mem_append_left _ (mem_ofSender.mpr he)
    exact hkind _ (mem_ofSender.mp hmem) hp
  rw [← filter_ofSender hheard, ← List.filter_append, h a, filter_ofSender hkind]

end Send

end PeerChannels
