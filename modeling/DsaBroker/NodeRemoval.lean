import DsaBroker.TreeAgreement

/-!
# Removing a node with its subtree

`RemoveNode` should take the subtree of a path out of the registry and out of the replicated map,
return the paths it has removed, and stop their actors.

It takes every path that contains the given one, wherever, and it gives the paths to `poisonPill`,
not the nodes.  A path is no typed actor, so no actor is ever stopped, and the removal is exact
just if there is nothing to remove (`removal_exact_iff`).  The keys alone are right when every
registered path that contains the given one is in its subtree (`removedKeys_iff`).
-/

namespace DsaBroker

/-- What `TypedActor.poisonPill` is given. -/
inductive AnyRef where
  | string (value : Str)
  | node (ref : DSANodeRef)

/-- The actor that is stopped, for a typed proxy. -/
def poisonPill : AnyRef → Option Nat
  | .string _ => none
  | .node ref => some ref.id

/-- The registry after a removal, the paths that are returned, and the actors that are stopped. -/
structure NodeRemoval where
  after : DistributedNodesRegistry
  removed : List Str
  stopped : List Nat

namespace DistributedNodesRegistry

/-! ### A removal and its effects -/

/-- `removeNode` with all its effects. -/
def removal (s : DistributedNodesRegistry) (path : Str) : NodeRemoval where
  after := s.removeNode path
  removed := s.pathAndChildren path
  stopped := (s.pathAndChildren path).filterMap fun key => poisonPill (.string key)

/-- One removal after the other. -/
def removals (s : DistributedNodesRegistry) : List Str → NodeRemoval
  | [] => ⟨s, [], []⟩
  | path :: rest =>
      let first := s.removal path
      let others := first.after.removals rest
      ⟨others.after, first.removed ++ others.removed, first.stopped ++ others.stopped⟩

/-- The registry when a `Changed` has added what is new. -/
def changedAdded [ScanOrder Str] (s : DistributedNodesRegistry)
    (entries : ScanMap Str DSANodeDescription) : DistributedNodesRegistry :=
  let toAdd := (entries.entries.filter fun entry => (s.registry.get entry.1).isNone).insertionSort
    fun entry other => entry.1.length ≤ other.1.length
  toAdd.foldl (fun s entry => (s.getOrCreateNode entry.2).1) s

/-- The paths that a `Changed` removes. -/
def toRemove [ScanOrder Str] (s : DistributedNodesRegistry)
    (entries : ScanMap Str DSANodeDescription) : List Str :=
  (ScanOrder.order s.registry.keys).filter fun key => (entries.get key).isNone

/-- What a `Changed` removes. -/
def changedRemoval [ScanOrder Str] (s : DistributedNodesRegistry)
    (entries : ScanMap Str DSANodeDescription) : NodeRemoval :=
  (s.changedAdded entries).removals (s.toRemove entries)

/-! ### What it should do -/

/-- The path itself, and what is below it. -/
def InSubtree (path key : Str) : Prop :=
  key = validPath path ∨ startsWith key (validPath path ++ [slash]) = true

def InSubtrees (paths : List Str) (key : Str) : Prop := ∃ path ∈ paths, InSubtree path key

/-- The subtrees of the paths are removed and returned, their actors are stopped, and everything
else stays. -/
structure RemovesExactly (s : DistributedNodesRegistry) (paths : List Str) (r : NodeRemoval) :
    Prop where
  gone : ∀ key, InSubtrees paths key → r.after.registry.get key = none
  kept : ∀ key, ¬ InSubtrees paths key → r.after.registry.get key = s.registry.get key
  replicatedGone : ∀ key, InSubtrees paths key → r.after.replicatedNodes.get key = none
  replicatedKept : ∀ key, ¬ InSubtrees paths key →
    r.after.replicatedNodes.get key = s.replicatedNodes.get key
  returned : ∀ key, key ∈ r.removed ↔ s.registered key = true ∧ InSubtrees paths key
  stopped : ∀ id, id ∈ r.stopped ↔
    ∃ key ref, InSubtrees paths key ∧ s.registry.get key = some ref ∧ ref.id = id

/-- No path contains one of the paths, and nothing below them is left in the replicated map. -/
structure NothingToRemove (s : DistributedNodesRegistry) (paths : List Str) : Prop where
  registered : ∀ path ∈ paths, ∀ key, s.registered key = true → ¬ validPath path <:+: key
  replicated : ∀ path ∈ paths, ∀ key, (s.replicatedNodes.get key).isSome = true →
    ¬ InSubtree path key

/-! ### What it does -/

theorem InSubtree.contains {path key : Str} (h : InSubtree path key) : validPath path <:+: key := by
  rcases h with rfl | hbelow
  · exact List.infix_refl _
  · rw [startsWith, List.isPrefixOf_iff_prefix] at hbelow
    exact ((List.prefix_append _ _).trans hbelow).isInfix

theorem after_removals (s : DistributedNodesRegistry) (paths : List Str) :
    (s.removals paths).after = paths.foldl removeNode s := by
  induction paths generalizing s with
  | nil => rfl
  | cons path rest ih => exact ih _

theorem changedRegistry_eq [ScanOrder Str] (s : DistributedNodesRegistry)
    (entries : ScanMap Str DSANodeDescription) :
    s.changedRegistry entries = (s.changedRemoval entries).after := by
  rw [changedRemoval, after_removals]
  rfl

/-- No actor is ever stopped. -/
theorem stopped_removals (s : DistributedNodesRegistry) (paths : List Str) :
    (s.removals paths).stopped = [] := by
  induction paths generalizing s with
  | nil => rfl
  | cons path rest ih =>
    have hnone : (s.removal path).stopped = [] := List.filterMap_eq_nil_iff.mpr fun _ _ => rfl
    rw [removals, hnone, ih]
    rfl

/-- What stays registered contains none of the paths. -/
theorem registered_removals (s : DistributedNodesRegistry) (paths : List Str) (key : Str) :
    (s.removals paths).after.registered key = true ↔
      s.registered key = true ∧ ∀ path ∈ paths, ¬ validPath path <:+: key := by
  rw [after_removals]
  induction paths generalizing s with
  | nil => simp
  | cons path rest ih => rw [List.foldl_cons, ih, registered_removeNode, List.forall_mem_cons,
      and_assoc]

variable {s : DistributedNodesRegistry} {paths : List Str}

theorem removals_of_nothing (h : ∀ path ∈ paths, ∀ key, s.registered key = true →
    ¬ validPath path <:+: key) : s.removals paths = ⟨s, [], []⟩ := by
  induction paths with
  | nil => rfl
  | cons path rest ih =>
    have hnone : s.pathAndChildren path = [] := by
      rw [pathAndChildren, List.filter_eq_nil_iff]
      intro key hkey hwithin
      exact h path List.mem_cons_self key (mem_keys_iff.mp hkey) (of_decide_eq_true hwithin)
    have hfirst : s.removal path = ⟨s, [], []⟩ := by
      rw [removal, hnone, removeNode, hnone]
      rfl
    rw [removals, hfirst, ih fun other hother => h other (List.mem_cons_of_mem _ hother)]
    rfl

theorem removesExactly_of_nothing (h : s.NothingToRemove paths) :
    s.RemovesExactly paths (s.removals paths) := by
  rw [removals_of_nothing h.registered]
  have hregistered : ∀ key, InSubtrees paths key → s.registered key = false := by
    rintro key ⟨path, hpath, hsub⟩
    rw [Bool.eq_false_iff]
    exact fun hkey => h.registered path hpath key hkey hsub.contains
  have hget : ∀ key, InSubtrees paths key → s.registry.get key = none := by
    intro key hsub
    exact Option.not_isSome_iff_eq_none.mp (Bool.eq_false_iff.mp (hregistered key hsub))
  constructor
  · exact hget
  · exact fun _ _ => rfl
  · rintro key ⟨path, hpath, hsub⟩
    exact Option.not_isSome_iff_eq_none.mp fun hkey => h.replicated path hpath key hkey hsub
  · exact fun _ _ => rfl
  · intro key
    constructor
    · exact fun hmem => absurd hmem List.not_mem_nil
    · rintro ⟨hkey, hsub⟩
      rw [hregistered key hsub] at hkey
      cases hkey
  · intro id
    constructor
    · exact fun hmem => absurd hmem List.not_mem_nil
    · rintro ⟨key, ref, hsub, href, _⟩
      rw [hget key hsub] at href
      cases href

/-- Whatever is removed is removed without its actor being stopped. -/
theorem nothing_of_removesExactly (h : s.RemovesExactly paths (s.removals paths)) :
    s.NothingToRemove paths := by
  have hsub : ∀ key, s.registered key = true → ¬ InSubtrees paths key := by
    intro key hkey hsub
    obtain ⟨ref, href⟩ := registered_iff.mp hkey
    have hstopped := (h.stopped ref.id).mpr ⟨key, ref, hsub, href, rfl⟩
    rw [stopped_removals] at hstopped
    exact List.not_mem_nil hstopped
  have hregistered : ∀ path ∈ paths, ∀ key, s.registered key = true →
      ¬ validPath path <:+: key := by
    intro path hpath key hkey hwithin
    have hkept : (s.removals paths).after.registered key = true := by
      rw [registered, h.kept key (hsub key hkey)]
      exact hkey
    exact ((registered_removals s paths key).mp hkept).2 path hpath hwithin
  constructor
  · exact hregistered
  · intro path hpath key hkey hwithin
    have hgone := h.replicatedGone key ⟨path, hpath, hwithin⟩
    rw [removals_of_nothing hregistered] at hgone
    rw [hgone] at hkey
    cases hkey

theorem removals_singleton (s : DistributedNodesRegistry) (path : Str) :
    s.removals [path] = s.removal path := by
  simp only [removals, List.append_nil]

/-- A `RemoveNode` or a `Changed` removes just the subtrees and stops their actors, if and only if
there is nothing to remove. -/
theorem removal_exact_iff [ScanOrder Str] (s : DistributedNodesRegistry) :
    (∀ path, s.RemovesExactly [path] (s.removal path) ↔ s.NothingToRemove [path]) ∧
      ∀ entries, (s.changedAdded entries).RemovesExactly (s.toRemove entries)
          (s.changedRemoval entries) ↔
        (s.changedAdded entries).NothingToRemove (s.toRemove entries) := by
  constructor
  · intro path
    rw [← removals_singleton]
    exact ⟨nothing_of_removesExactly, removesExactly_of_nothing⟩
  · intro entries
    exact ⟨nothing_of_removesExactly, removesExactly_of_nothing⟩

/-- The paths that stay are the right ones if and only if every registered path that contains the
given one is in its subtree. -/
theorem removedKeys_iff (s : DistributedNodesRegistry) (path : Str) :
    (∀ key, (s.removeNode path).registered key = true ↔
        s.registered key = true ∧ ¬ InSubtree path key) ↔
      ∀ key, s.registered key = true → validPath path <:+: key → InSubtree path key := by
  constructor
  · intro h key hkey hwithin
    by_contra hsub
    exact ((registered_removeNode path key).mp ((h key).mpr ⟨hkey, hsub⟩)).2 hwithin
  · intro h key
    rw [registered_removeNode]
    constructor
    · rintro ⟨hkey, hwithin⟩
      exact ⟨hkey, fun hsub => hwithin hsub.contains⟩
    · rintro ⟨hkey, hsub⟩
      exact ⟨hkey, fun hwithin => hsub (h key hkey hwithin)⟩

/-! ### A path that another one contains -/

def pathA : Str := str "/a"

def pathBA : Str := str "/b/a"

/-- The nodes `/a` and `/b/a`, and with it `/b`. -/
def nestedNames : DistributedNodesRegistry :=
  ((initial.getOrCreateNode (.init pathA none none)).1.getOrCreateNode (.init pathBA none none)).1

/-- With `/a` goes `/b/a`, which is not below it, and the actor of `/a` goes on. -/
theorem removal_of_contained : ¬ ∀ s path, RemovesExactly s [path] (s.removal path) := by
  intro h
  have hexact := h nestedNames pathA
  have hother : ¬ InSubtrees [pathA] pathBA := by
    rintro ⟨path, hpath, hsub⟩
    rw [List.mem_singleton.mp hpath] at hsub
    rcases hsub with hsame | hbelow
    · exact absurd hsame (by decide)
    · exact absurd hbelow (by decide)
  have hkept := congrArg Option.isSome (hexact.kept pathBA hother)
  revert hkept
  decide +kernel

end DistributedNodesRegistry

end DsaBroker
