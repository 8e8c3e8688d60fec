import Mathlib.Data.Set.Basic

/-!
# A tree that is kept twice

The nodes of a tree are kept under their paths, and every node lists the names of its children.
A name gets into the list by a message, so there are names that are promised to a node and not
yet listed.

A path can be spelled in more than one way, and then only one spelling is put together again from
what it is taken apart into.  Such a path should be there just if its name is listed by its
parent.  `Consistent` is what holds while messages are on their way, and the rules say what keeps
it: a path is inserted under its parent, a part of the tree is pruned, and the names of a node
change as far as no path depends on them.
-/

variable {κ ν : Type}

/-- How a path is taken apart into that of its parent and a name, and put together again. -/
structure PathScheme (κ ν : Type) where
  parent : κ → Option (κ × ν)
  child : κ → ν → κ

/-- The path that is put together is taken apart again. -/
def PathScheme.Proper (S : PathScheme κ ν) (p : κ) (x : ν) : Prop :=
  S.parent (S.child p x) = some (p, x)

structure TreeIndex (κ ν : Type) where
  members : Set κ
  listed : κ → Set ν
  promised : κ → Set ν

namespace TreeIndex

variable {S : PathScheme κ ν} {t t' : TreeIndex κ ν}

/-- A name under a node that is listed there, or that will be, since it is on its way. -/
def Names (t : TreeIndex κ ν) (p : κ) (x : ν) : Prop := x ∈ t.listed p ∨ x ∈ t.promised p

structure Consistent (S : PathScheme κ ν) (t : TreeIndex κ ν) : Prop where
  closed : ∀ q ∈ t.members, ∀ p x, S.parent q = some (p, x) → p ∈ t.members
  complete : ∀ p x, S.Proper p x → S.child p x ∈ t.members → t.Names p x
  faithful : ∀ p ∈ t.members, ∀ x, S.Proper p x → t.Names p x → S.child p x ∈ t.members

namespace Consistent

theorem start (hmembers : t.members = ∅) : Consistent S t := by
  constructor
  · intro q hq
    rw [hmembers] at hq
    cases hq
  · intro p x _ hchild
    rw [hmembers] at hchild
    cases hchild
  · intro p hp
    rw [hmembers] at hp
    cases hp

/-- A path comes in whose parent is there, and its name is promised to the parent. -/
theorem insert (h : Consistent S t) {q : κ}
    (hmembers : ∀ k, k ∈ t'.members ↔ k = q ∨ k ∈ t.members)
    (hparent : ∀ p x, S.parent q = some (p, x) →
      p ∈ t.members ∧ (S.child p x = q ∨ S.child p x ∈ t.members))
    (hold : ∀ k ∈ t.members, ∀ x, t'.Names k x ↔ t.Names k x ∨ S.parent q = some (k, x))
    (hnew : ∀ x, ¬ t'.Names q x) : Consistent S t' := by
  constructor
  · intro k hk p x hkp
    rw [hmembers]
    rcases (hmembers k).mp hk with rfl | hkold
    · exact Or.inr (hparent p x hkp).1
    · exact Or.inr (h.closed k hkold p x hkp)
  · intro p x hproper hchild
    rcases (hmembers _).mp hchild with hq | hcold
    · have hqp : S.parent q = some (p, x) := hq ▸ hproper
      exact (hold p (hparent p x hqp).1 x).mpr (Or.inr hqp)
    · have hp := h.closed _ hcold p x hproper
      exact (hold p hp x).mpr (Or.inl (h.complete p x hproper hcold))
  · intro p hp x hproper hnames
    rw [hmembers]
    rcases (hmembers p).mp hp with rfl | hpold
    · exact absurd hnames (hnew x)
    · rcases (hold p hpold x).mp hnames with hbefore | hqp
      · exact Or.inr (h.faithful p hpold x hproper hbefore)
      · exact (hparent p x hqp).2

/-- Paths go, and none that stays has its parent go or is the parent of one that goes. -/
theorem prune (h : Consistent S t) (hmembers : ∀ k ∈ t'.members, k ∈ t.members)
    (hparent : ∀ q ∈ t'.members, ∀ p x, S.parent q = some (p, x) → p ∈ t'.members)
    (hchild : ∀ p ∈ t'.members, ∀ x, S.Proper p x → S.child p x ∈ t.members →
      S.child p x ∈ t'.members)
    (hnames : ∀ p ∈ t'.members, ∀ x, t'.Names p x ↔ t.Names p x) : Consistent S t' := by
  constructor
  · exact hparent
  · intro p x hproper hq
    have hp := hparent _ hq p x hproper
    exact (hnames p hp x).mpr (h.complete p x hproper (hmembers _ hq))
  · intro p hp x hproper hname
    apply hchild p hp x hproper
    exact h.faithful p (hmembers p hp) x hproper ((hnames p hp x).mp hname)

/-- Names come and go, but none comes without its path and none goes with its path there. -/
theorem rename (h : Consistent S t) (hmembers : t'.members = t.members)
    (hcome : ∀ p ∈ t.members, ∀ x, S.Proper p x → t'.Names p x →
      t.Names p x ∨ S.child p x ∈ t.members)
    (hgo : ∀ p ∈ t.members, ∀ x, S.Proper p x → S.child p x ∈ t.members → t.Names p x →
      t'.Names p x) : Consistent S t' := by
  constructor
  · rw [hmembers]
    exact h.closed
  · rw [hmembers]
    intro p x hproper hq
    exact hgo p (h.closed _ hq p x hproper) x hproper hq (h.complete p x hproper hq)
  · rw [hmembers]
    intro p hp x hproper hname
    rcases hcome p hp x hproper hname with hbefore | hq
    · exact h.faithful p hp x hproper hbefore
    · exact hq

/-- When nothing is promised, the paths are there whose names are listed. -/
theorem settled (h : Consistent S t) {p : κ} (hp : p ∈ t.members) {x : ν} (hproper : S.Proper p x)
    (hquiet : t.promised p = ∅) : S.child p x ∈ t.members ↔ x ∈ t.listed p := by
  constructor
  · intro hq
    rcases h.complete p x hproper hq with hlisted | hpromised
    · exact hlisted
    · rw [hquiet] at hpromised
      cases hpromised
  · intro hlisted
    exact h.faithful p hp x hproper (Or.inl hlisted)

end Consistent
end TreeIndex
