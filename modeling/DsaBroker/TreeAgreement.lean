import DsaBroker.NodeCreation
import DsaBroker.Runs

/-!
# The registry and the tree of nodes agree

When every message of an operation has been processed, a path should be registered just if its
parent lists its name, and the parent of a registered path should be registered (`tree_agrees`).

Nothing repairs the other side when something is removed.  A `RemoveNode` takes paths out of the
registry and leaves their names with the parents, `removeChild` takes a name off the list and
leaves the path registered, and a `Changed` that is older than the registry removes what has come
in meanwhile.  `TreeCondition` says when a step does no harm.
-/

namespace DsaBroker

/-- The message brings a child of this name to the node. -/
def NodeMessage.brings (id : Nat) (name : Str) : NodeMessage → Bool
  | .addChildNode id' name' _ => id' = id ∧ name' = name
  | _ => false

namespace DistributedNodesRegistry

/-- A child of a registered path is registered just if the node of the path lists its name, and the
parent of every registered path is registered. -/
structure Agrees (s : DistributedNodesRegistry) : Prop where
  child : ∀ names name, names ≠ [] → (∀ other ∈ names, IsName other) → IsName name →
    s.registered (pathOf names) = true →
    (s.registered (pathOf names ++ slash :: name) = true ↔ s.lists (pathOf names) name = true)
  parent : ∀ path parent name, s.registered path = true → parentPath path = (some parent, name) →
    s.registered parent = true

/-! ### When a step does no harm -/

/-- What is removed with a path is a child if and only if it is removed with its parent: nothing
is left without its parent, and of a path that is spelled properly the parent goes as well. -/
def RemovesSubtrees (s : DistributedNodesRegistry) (path : Str) : Prop :=
  ∀ key ∈ s.registry.keys, ∀ parent ∈ nodePaths.parent key,
    (validPath path <:+: parent.1 → validPath path <:+: key) ∧
      (nodePaths.child parent.1 parent.2 = key → validPath path <:+: key →
        validPath path <:+: parent.1)

/-- The children that a callback takes out are not registered, or will be added again. -/
def KeepsRegistered (s : DistributedNodesRegistry) (id : Nat)
    (diff : DiffSet Str DSANodeDescription) : Prop :=
  ∀ key ∈ s.registry.keys, ∀ parent ∈ nodePaths.parent key,
    nodePaths.child parent.1 parent.2 = key → diff.deleted parent.2 = true →
    ∀ node ∈ s.registry.get parent.1, node.id = id →
    s.pending.any (NodeMessage.brings id parent.2) = true

/-- The registry has the paths that it learns about, and no others. -/
def UpToDate (s : DistributedNodesRegistry) (entries : ScanMap Str DSANodeDescription) : Prop :=
  (∀ key ∈ entries.keys, s.registered key = true) ∧
    ∀ key ∈ s.registry.keys, (entries.get key).isSome = true

def MessageCondition [ScanOrder Str] (s : DistributedNodesRegistry) : NodeMessage → Prop
  | .addNode nodeDescription _ _ => s.Spelled nodeDescription
  | .getNodesByDescription _ descriptions _ =>
      Along (fun s child => (s.getOrCreateNode child).1) Spelled s descriptions
  | .callback id diff => s.KeepsRegistered id diff
  | .changedRegistry entries => s.UpToDate entries
  | _ => True

def OperationCondition (s : DistributedNodesRegistry) : NodeOperation → Prop
  | .addNode nodeDescription => s.Spelled nodeDescription
  | .removeNode path => s.RemovesSubtrees path
  | .addChildNode id name _ => s.Expects id name
  | .addChild .. | .removeChild .. => True

/-- Paths are spelled properly, a `RemoveNode` takes whole subtrees, a callback takes out no child
that is registered, a node is given only children that are registered, and the registry learns
about replicated descriptions only while they are up to date. -/
def TreeCondition [ScanOrder Str] (s : DistributedNodesRegistry) : TreeInput → Prop
  | .operation operation => s.OperationCondition operation
  | .message i => ∀ message ∈ s.pending[i]?,
      ({ s with pending := s.pending.eraseIdx i } : DistributedNodesRegistry).MessageCondition
        message

theorem mem_keys_iff {s : DistributedNodesRegistry} {key : Str} :
    key ∈ s.registry.keys ↔ s.registered key = true :=
  s.registry.mem_keys key

section

variable (s : DistributedNodesRegistry)

instance Spelled.decidable (nodeDescription : DSANodeDescription) :
    Decidable (s.Spelled nodeDescription) :=
  decidable_of_iff (∀ parent ∈ nodePaths.parent (validPath nodeDescription.path),
      nodePaths.child parent.1 parent.2 = validPath nodeDescription.path ∨
        s.registered (nodePaths.child parent.1 parent.2) = true)
    ⟨fun h parent name => h (parent, name), fun h parent => h parent.1 parent.2⟩

instance Proper.decidable (path name : Str) : Decidable (nodePaths.Proper path name) :=
  inferInstanceAs (Decidable (nodePaths.parent (nodePaths.child path name) = some (path, name)))

instance Expects.decidable (id : Nat) (name : Str) : Decidable (s.Expects id name) :=
  decidable_of_iff (∀ path ∈ s.registry.keys, ∀ ref ∈ s.registry.get path, ref.id = id →
      nodePaths.Proper path name → s.registered (nodePaths.child path name) = true)
    ⟨fun h path ref href => h path (mem_keys_iff.mpr (registered_iff.mpr ⟨ref, href⟩)) ref href,
      fun h path _ ref href => h path ref href⟩

instance RemovesSubtrees.decidable (path : Str) : Decidable (s.RemovesSubtrees path) :=
  inferInstanceAs (Decidable (∀ key ∈ s.registry.keys, ∀ parent ∈ nodePaths.parent key,
    (validPath path <:+: parent.1 → validPath path <:+: key) ∧
      (nodePaths.child parent.1 parent.2 = key → validPath path <:+: key →
        validPath path <:+: parent.1)))

instance KeepsRegistered.decidable (id : Nat) (diff : DiffSet Str DSANodeDescription) :
    Decidable (s.KeepsRegistered id diff) :=
  inferInstanceAs (Decidable (∀ key ∈ s.registry.keys, ∀ parent ∈ nodePaths.parent key,
    nodePaths.child parent.1 parent.2 = key → diff.deleted parent.2 = true →
    ∀ node ∈ s.registry.get parent.1, node.id = id →
    s.pending.any (NodeMessage.brings id parent.2) = true))

instance MessageCondition.decidable [ScanOrder Str] :
    (message : NodeMessage) → Decidable (s.MessageCondition message)
  | .addNode nodeDescription _ _ => inferInstanceAs (Decidable (s.Spelled nodeDescription))
  | .getNodesByDescription _ descriptions _ => inferInstanceAs (Decidable
      (Along (fun s child => (s.getOrCreateNode child).1) Spelled s descriptions))
  | .callback id diff => inferInstanceAs (Decidable (s.KeepsRegistered id diff))
  | .changedRegistry entries => inferInstanceAs (Decidable
      ((∀ key ∈ entries.keys, s.registered key = true) ∧
        ∀ key ∈ s.registry.keys, (entries.get key).isSome = true))
  | .get _ | .initMe .. | .flush _ | .changed .. | .addChild .. | .addChildNode ..
  | .flushRegistry => .isTrue trivial

instance OperationCondition.decidable :
    (operation : NodeOperation) → Decidable (s.OperationCondition operation)
  | .addNode nodeDescription => inferInstanceAs (Decidable (s.Spelled nodeDescription))
  | .removeNode path => inferInstanceAs (Decidable (s.RemovesSubtrees path))
  | .addChildNode id name _ => inferInstanceAs (Decidable (s.Expects id name))
  | .addChild .. | .removeChild .. => .isTrue trivial

instance TreeCondition.decidable [ScanOrder Str] :
    (input : TreeInput) → Decidable (s.TreeCondition input)
  | .operation operation => inferInstanceAs (Decidable (s.OperationCondition operation))
  | .message i => inferInstanceAs (Decidable (∀ message ∈ s.pending[i]?,
      ({ s with pending := s.pending.eraseIdx i } : DistributedNodesRegistry).MessageCondition
        message))

end

/-! ### Removing nodes -/

theorem get_foldl_remove {α : Type} (m : ScanMap Str α) (keys : List Str) (key : Str) :
    (keys.foldl ScanMap.remove m).get key = if key ∈ keys then none else m.get key := by
  induction keys generalizing m with
  | nil => rfl
  | cons first rest ih =>
    rw [List.foldl_cons, ih, ScanMap.get_remove]
    by_cases hfirst : key = first
    · simp [hfirst]
    · simp [hfirst]

variable {s : DistributedNodesRegistry}

theorem get_removed (path key : Str) :
    ((s.pathAndChildren path).foldl ScanMap.remove s.registry).get key =
      if validPath path <:+: key then none else s.registry.get key := by
  rw [get_foldl_remove]
  have hmem : key ∈ s.pathAndChildren path ↔ s.registered key = true ∧ validPath path <:+: key := by
    rw [pathAndChildren, List.mem_filter, mem_keys_iff, decide_eq_true_iff]
  by_cases hwithin : validPath path <:+: key
  · rw [if_pos hwithin]
    split_ifs with hkey
    · rfl
    · cases hget : s.registry.get key with
      | none => rfl
      | some node =>
        exact absurd (hmem.mpr ⟨registered_iff.mpr ⟨node, hget⟩, hwithin⟩) hkey
  · rw [if_neg hwithin, if_neg fun hkey => hwithin (hmem.mp hkey).2]

/-- With nothing on its way, the subtrees of a path are removed: whatever contains the path goes
from the registry, and the condition makes that a subtree with all that is below it. -/
theorem TreeInv.removeNode (h : TreeInv s) (hquiet : s.pending = []) {path : Str}
    (hok : s.RemovesSubtrees path) : TreeInv (s.removeNode path) := by
  rw [DistributedNodesRegistry.removeNode]
  split
  · exact h
  · have hget := get_removed (s := s) path
    generalize (s.pathAndChildren path).foldl ScanMap.remove s.registry = registry at hget
    generalize (s.pathAndChildren path).foldl ScanMap.remove s.replicatedNodes = replicated
    let removed : DistributedNodesRegistry :=
      { s with registry := registry, replicatedNodes := replicated }
    suffices hinv : TreeInv removed from hinv.sameTree SameTree.announceRegistry
    have hold : ∀ key node, removed.registry.get key = some node →
        s.registry.get key = some node ∧ ¬ validPath path <:+: key := by
      intro key node hnode
      rw [hget] at hnode
      split_ifs at hnode with hwithin
      exact ⟨hnode, hwithin⟩
    -- a key is removed just if it contains the path, wherever in it
    have hregistered : ∀ key, removed.registered key = true ↔
        s.registered key = true ∧ ¬ validPath path <:+: key := by
      intro key
      rw [registered, hget]
      split_ifs with hwithin
      · simp [hwithin]
      · simp [hwithin, registered]
    constructor
    · intro key node hnode
      exact h.alive key node (hold key node hnode).1
    · exact h.fresh
    · exact h.listers
    · intro nodeDescription id name hm key node hnode
      exact h.requests nodeDescription id name hm key node (hold key node hnode).1
    · -- the rest of a tree after pruning whole subtrees is a tree
      apply h.tree.prune
      · exact fun key hkey => ((hregistered key).mp hkey).1
      · intro key hkey parent name hparent
        obtain ⟨hreg, hstays⟩ := (hregistered key).mp hkey
        have hsubtree := hok key (mem_keys_iff.mpr hreg) (parent, name) hparent
        refine (hregistered parent).mpr ⟨h.tree.closed key hreg parent name hparent, ?_⟩
        exact fun hgoes => hstays (hsubtree.1 hgoes)
      · intro parent hparent name hproper hreg
        obtain ⟨_, hstays⟩ := (hregistered parent).mp hparent
        have hsubtree := hok _ (mem_keys_iff.mpr hreg) (parent, name) hproper
        exact (hregistered _).mpr ⟨hreg, fun hgoes => hstays (hsubtree.2 rfl hgoes)⟩
      · -- nodes that stay keep their children, and nothing is promised
        intro parent hparent name
        obtain ⟨node, hnode⟩ := registered_iff.mp hparent
        have hbefore := (hold parent node hnode).1
        apply or_congr
        · show removed.lists parent name = true ↔ s.lists parent name = true
          rw [lists, lists, hnode, hbefore]
        · show removed.Promised parent name ↔ s.Promised parent name
          have hnone : removed.pending = [] := hquiet
          simp only [Promised, hquiet, hnone, List.not_mem_nil, and_false, exists_false]

/-- When no child is on its way, the two agree. -/
theorem TreeInv.agrees (h : TreeInv s) (hquiet : ∀ m ∈ s.pending, m.lister = none) :
    s.Agrees := by
  constructor
  · intro names name hne hnames hname hregistered
    apply h.tree.settled hregistered (proper_pathOf hne hnames hname)
    apply Set.eq_empty_of_forall_notMem
    rintro other ⟨node, child, _, hm⟩
    cases hquiet _ hm
  · intro path parent name hregistered hparent
    exact h.tree.closed path hregistered parent name (parent_eq_some.mpr hparent)

theorem registered_removeNode (path key : Str) : (s.removeNode path).registered key = true ↔
    s.registered key = true ∧ ¬ validPath path <:+: key := by
  rw [removeNode]
  split
  case isTrue hnone =>
    rw [pathAndChildren, List.isEmpty_iff, List.filter_eq_nil_iff] at hnone
    refine (and_iff_left_of_imp ?_).symm
    intro hkey hwithin
    exact hnone key (mem_keys_iff.mpr hkey) (decide_eq_true hwithin)
  case isFalse =>
    rw [registered, SameTree.announceRegistry.registry, get_removed]
    split_ifs with hwithin
    · simp [hwithin]
    · simp [hwithin, registered]

/-- A node that stays lists what it has listed. -/
theorem lists_removeNode {path key name : Str} (hkey : (s.removeNode path).registered key = true)
    (h : s.lists key name = true) : (s.removeNode path).lists key name = true := by
  have hstays := ((registered_removeNode path key).mp hkey).2
  rw [removeNode]
  split
  · exact h
  · obtain ⟨ref, node, href, hnode, hname⟩ := lists_iff.mp h
    refine lists_iff.mpr ⟨ref, node, ?_, ?_, hname⟩
    · rw [SameTree.announceRegistry.registry, get_removed, if_neg hstays, href]
    · rw [SameTree.announceRegistry.children]
      exact hnode

theorem lister_removeNode (hquiet : s.pending = []) (path : Str) :
    ∀ m ∈ (s.removeNode path).pending, m.lister = none := by
  intro m hm
  rw [removeNode] at hm
  split at hm
  · rw [hquiet] at hm
    cases hm
  · by_contra hlister
    have hsome : m.lister.isSome = true := Option.isSome_iff_ne_none.mpr hlister
    rw [SameTree.announceRegistry.pending m hsome, hquiet] at hm
    cases hm

/-- With nothing on its way, a `RemoveNode` keeps the agreement exactly if it takes whole
subtrees. -/
theorem removeNode_agrees_iff (h : TreeInv s) (hquiet : s.pending = []) (path : Str) :
    (s.removeNode path).Agrees ↔ s.RemovesSubtrees path := by
  constructor
  · -- agreement gives the two directions for each key and its parent
    intro hagrees key hkey parent hparent
    have hreg := mem_keys_iff.mp hkey
    have hpreg := h.tree.closed key hreg parent.1 parent.2 hparent
    have hpath := parent_eq_some.mp hparent
    constructor
    · -- a child that stays has its parent in the registry
      intro hgoes
      by_contra hstays
      have hleft := hagrees.parent key parent.1 parent.2
        ((registered_removeNode path key).mpr ⟨hreg, hstays⟩) hpath
      exact ((registered_removeNode path parent.1).mp hleft).2 hgoes
    · intro hchild hgoes
      by_contra hstays
      -- the parent stays and lists the child, which goes
      have hleft := (registered_removeNode path parent.1).mpr ⟨hpreg, hstays⟩
      obtain ⟨names, hne, hsegments, hnames⟩ := exists_names_of_parentPath hpath
      have hsegment : ∀ other ∈ names ++ [parent.2], IsName other :=
        fun other hother => isName_of_mem_segments (hsegments ▸ hother)
      have hfront : ∀ other ∈ names, IsName other :=
        fun other hother => hsegment other (List.mem_append_left _ hother)
      have hlast : IsName parent.2 :=
        hsegment _ (List.mem_append_right _ (List.mem_singleton.mpr rfl))
      rw [hnames] at hleft hpreg hchild
      have hlisted : s.lists (pathOf names) parent.2 = true := by
        have hbefore := h.agrees fun m hm => absurd (hquiet ▸ hm) List.not_mem_nil
        apply (hbefore.child names parent.2 hne hfront hlast hpreg).mp
        exact (congrArg s.registered hchild).trans hreg
      have hregchild := (hagrees.child names parent.2 hne hfront hlast hleft).mpr
        (lists_removeNode hleft hlisted)
      rw [← hchild] at hgoes
      exact ((registered_removeNode path _).mp hregchild).2 hgoes
  · intro hok
    exact (h.removeNode hquiet hok).agrees (lister_removeNode hquiet path)

/-! ### Messages -/

theorem brings_of_any {id : Nat} {name : Str}
    (h : s.pending.any (NodeMessage.brings id name) = true) :
    ∃ child, .addChildNode id name child ∈ s.pending := by
  obtain ⟨m, hm, hbrings⟩ := List.any_eq_true.mp h
  unfold NodeMessage.brings at hbrings
  split at hbrings
  case h_1 id' name' child =>
    obtain ⟨rfl, rfl⟩ := of_decide_eq_true hbrings
    exact ⟨child, hm⟩
  case h_2 => cases hbrings

theorem childrenAt_callback (id : Nat) (diff : DiffSet Str DSANodeDescription) (other : Nat) :
    (s.callback id diff).childrenAt other =
      if other = id then
        (s.childrenAt id).map fun node =>
          (node.1, fun name => if diff.deleted name then none else node.2 name)
      else s.childrenAt other := by
  rw [callback]
  cases hnode : s.nodes id with
  | none =>
    split_ifs with hother
    · rw [hother, childrenAt, hnode]
      rfl
    · rfl
  | some node =>
    rw [childrenAt_of_nodes hnode]
    exact childrenAt_setNode s id _ other

theorem callback_frame (id : Nat) (diff : DiffSet Str DSANodeDescription) :
    (s.callback id diff).registry = s.registry ∧ (s.callback id diff).nextId = s.nextId ∧
      (s.callback id diff).pending = s.pending := by
  rw [callback]
  cases s.nodes id with
  | none => exact ⟨rfl, rfl, rfl⟩
  | some node => exact ⟨rfl, rfl, rfl⟩

theorem lists_callback {id : Nat} {diff : DiffSet Str DSANodeDescription} {path name : Str} :
    (s.callback id diff).lists path name = true ↔ s.lists path name = true ∧
      ∀ node, s.registry.get path = some node → node.id = id → diff.deleted name = false := by
  have hregistry := (callback_frame (s := s) id diff).1
  simp only [lists_iff, hregistry, childrenAt_callback]
  constructor
  · rintro ⟨ref, node', href, hnode', hname⟩
    by_cases hid : ref.id = id
    · rw [if_pos hid] at hnode'
      obtain ⟨node, hnode, rfl⟩ := Option.map_eq_some_iff.mp hnode'
      dsimp only at hname
      split_ifs at hname with hdeleted
      · cases hname
      refine ⟨⟨ref, node, href, hid ▸ hnode, hname⟩, ?_⟩
      exact fun _ _ _ => Bool.eq_false_iff.mpr hdeleted
    · rw [if_neg hid] at hnode'
      refine ⟨⟨ref, node', href, hnode', hname⟩, ?_⟩
      intro other hother hid'
      cases href.symm.trans hother
      exact absurd hid' hid
  · rintro ⟨⟨ref, node, href, hnode, hname⟩, hstays⟩
    by_cases hid : ref.id = id
    · refine ⟨ref, _, href, by rw [if_pos hid, ← hid, hnode]; rfl, ?_⟩
      simpa [hstays ref href hid] using hname
    · exact ⟨ref, node, href, by rw [if_neg hid, hnode], hname⟩

/-- A callback takes out only children that are not registered or will be added again. -/
theorem TreeInv.callback (h : TreeInv s) {id : Nat} {diff : DiffSet Str DSANodeDescription}
    (hok : s.KeepsRegistered id diff) : TreeInv (s.callback id diff) := by
  obtain ⟨hregistry, hnextId, hpending⟩ := callback_frame (s := s) id diff
  apply h.rename hregistry hnextId
  · intro other
    rw [childrenAt_callback]
    split_ifs with hother
    · rw [hother, Option.map_map]
      rfl
    · rfl
  · rw [hpending]
    exact h.listers
  · rw [hpending]
    exact h.requests
  · rintro path name _ (hlisted | ⟨node, child, hnode, hm⟩)
    · exact Or.inl (Or.inl (lists_callback.mp hlisted).1)
    · rw [hregistry] at hnode
      rw [hpending] at hm
      exact Or.inl (Or.inr ⟨node, child, hnode, hm⟩)
  · rintro path name hproper hchild (hlisted | ⟨node, child, hnode, hm⟩)
    · by_cases hdeleted : ∀ node, s.registry.get path = some node → node.id = id →
          diff.deleted name = false
      · exact Or.inl (lists_callback.mpr ⟨hlisted, hdeleted⟩)
      · push Not at hdeleted
        obtain ⟨node, hnode, hid, hdeleted⟩ := hdeleted
        have hbrings := hok _ (mem_keys_iff.mpr hchild) (path, name) hproper rfl
          (Bool.eq_true_of_not_eq_false hdeleted) node hnode hid
        obtain ⟨child, hm⟩ := brings_of_any hbrings
        refine Or.inr ⟨node, child, by rw [hregistry]; exact hnode, ?_⟩
        rw [hpending, hid]
        exact hm
    · exact Or.inr ⟨node, child, by rw [hregistry]; exact hnode, by rw [hpending]; exact hm⟩

/-- An operation begins when nothing is on its way. -/
theorem TreeInv.operate (h : TreeInv s) (hquiet : s.pending = []) {operation : NodeOperation}
    (hok : s.OperationCondition operation) : TreeInv (s.operate operation) := by
  cases operation with
  | addNode nodeDescription => exact (getOrCreateNode_spec h hok).inv
  | removeNode path => exact h.removeNode hquiet hok
  | addChild id name configs => exact h.addChild id name configs
  | addChildNode id name child =>
    exact h.addChildNode hok (fun m hm => hm) (fun m hm => Or.inl hm) child
  | removeChild id name => exact h.sameTree (SameTree.editChild id name none)

/-- A callback keeps what holds of the tree exactly if it does so. -/
theorem callback_consistent_iff (h : TreeInv s) (id : Nat)
    (diff : DiffSet Str DSANodeDescription) :
    (s.callback id diff).index.Consistent nodePaths ↔ s.KeepsRegistered id diff := by
  constructor
  · intro hconsistent key hkey parent hparent hchild hdeleted node hnode hid
    obtain ⟨hregistry, _, hpending⟩ := callback_frame (s := s) id diff
    have hproper : nodePaths.Proper parent.1 parent.2 := by
      rw [PathScheme.Proper, hchild]
      exact hparent
    have hmember : (s.callback id diff).registered (nodePaths.child parent.1 parent.2) = true := by
      rw [hchild, registered, hregistry]
      exact mem_keys_iff.mp hkey
    rcases hconsistent.complete _ _ hproper hmember with hlisted | ⟨ref, child, href, hm⟩
    · have hstays := (lists_callback.mp hlisted).2 node hnode hid
      rw [hdeleted] at hstays
      cases hstays
    · rw [hregistry] at href
      cases (Option.mem_def.mp hnode).symm.trans href
      rw [hpending] at hm
      refine List.any_eq_true.mpr ⟨_, hm, ?_⟩
      exact decide_eq_true ⟨hid, rfl⟩
  · exact fun hok => (h.callback hok).tree

section

variable [ScanOrder Str]

/-- Nothing is added or removed when the replicated descriptions are up to date. -/
theorem changedRegistry_upToDate {entries : ScanMap Str DSANodeDescription}
    (h : s.UpToDate entries) : s.changedRegistry entries = s := by
  have htoAdd : (entries.entries.filter fun entry => (s.registry.get entry.1).isNone) = [] := by
    rw [List.filter_eq_nil_iff]
    intro entry hentry hnone
    obtain ⟨key, hkey, hvalue⟩ := List.mem_filterMap.mp hentry
    obtain ⟨value, _, rfl⟩ := Option.map_eq_some_iff.mp hvalue
    obtain ⟨node, hnode⟩ :=
      registered_iff.mp (h.1 key ((ScanOrder.mem_order entries.keys key).mp hkey))
    rw [hnode] at hnone
    cases hnone
  have htoRemove : ((ScanOrder.order s.registry.keys).filter
      fun key => (entries.get key).isNone) = [] := by
    rw [List.filter_eq_nil_iff]
    intro key hkey hnone
    have hsome := h.2 key ((ScanOrder.mem_order s.registry.keys key).mp hkey)
    rw [Option.isNone_iff_eq_none.mp hnone] at hsome
    cases hsome
  rw [changedRegistry, htoAdd, htoRemove]
  rfl

/-- A message that leaves the tree alone, or whose condition makes it harmless: the registry's own
news must be up to date, and a callback may take out no registered child. -/
theorem TreeInv.process (h : TreeInv s) {message : NodeMessage} (hsound : s.Sound message)
    (hbrings : ∀ id name child, message ≠ .addChildNode id name child)
    (hok : s.MessageCondition message) : TreeInv (s.process message) := by
  cases message with
  | get id =>
    rw [DistributedNodesRegistry.process]
    cases s.nodes id with
    | none => exact h
    | some node => exact h.sameTree (SameTree.send_one rfl)
  | initMe id state => exact h.sameTree (SameTree.initMe id state)
  | flush path =>
    rw [DistributedNodesRegistry.process]
    cases s.replicatedChildren path with
    | none => exact h
    | some state =>
      apply h.sameTree
      apply SameTree.send
      intro m hm
      obtain ⟨id, _, rfl⟩ := List.mem_map.mp hm
      rfl
  | changed id state => exact h.sameTree (SameTree.updateLocalState id state)
  | getNodesByDescription id descriptions diff =>
    have hcreated :
        TreeInv (descriptions.foldl (fun s child => (s.getOrCreateNode child).1) s) := by
      apply Along.invariant ?_ h hok
      intro s child hs hspelled
      exact (getOrCreateNode_spec hs hspelled).inv
    exact hcreated.sameTree (SameTree.send_one rfl)
  | callback id diff => exact h.callback hok
  | addChild id name configs => exact h.addChild id name configs
  | addNode nodeDescription id name =>
    -- the child that is sent back is in the registry by now
    have hgrown := getOrCreateNode_spec h hok
    apply hgrown.inv.send
    obtain ⟨hid, hrequest⟩ := hsound
    refine ⟨lt_of_lt_of_le hid hgrown.nextId, ?_⟩
    intro path node hnode hnodeId hproper
    -- the asking node was there before: its id is below all new ones
    rcases hgrown.come path node hnode with hold | ⟨hnew, _⟩
    · have hpath := hrequest path node hold hnodeId hproper
      rw [← hpath]
      exact registered_iff.mpr ⟨_, hgrown.found⟩
    · omega
  | addChildNode id name child => exact absurd rfl (hbrings id name child)
  | flushRegistry => exact h.sameTree (SameTree.send_one rfl)
  | changedRegistry entries =>
    have hsame := changedRegistry_upToDate hok
    rw [DistributedNodesRegistry.process, hsame]
    exact h

/-- The next message is processed. -/
theorem TreeInv.message (h : TreeInv s) {i : Nat} {m : NodeMessage} (hm : s.pending[i]? = some m)
    (hok : ({ s with pending := s.pending.eraseIdx i } : DistributedNodesRegistry).MessageCondition
      m) :
    TreeInv
      (({ s with pending := s.pending.eraseIdx i } : DistributedNodesRegistry).process m) := by
  obtain ⟨hlt, hget⟩ := List.getElem?_eq_some_iff.mp hm
  have hperm := List.getElem_cons_eraseIdx_perm hlt
  rw [hget] at hperm
  have hmem : ∀ other, other ∈ s.pending ↔ other = m ∨ other ∈ s.pending.eraseIdx i := by
    intro other
    rw [← hperm.mem_iff, List.mem_cons]
  have hsub : ∀ other ∈ s.pending.eraseIdx i, other ∈ s.pending :=
    fun other hother => (hmem other).mpr (Or.inr hother)
  have hthis : m ∈ s.pending := (hmem m).mpr (Or.inl rfl)
  by_cases hbrings : ∃ id name child, m = .addChildNode id name child
  · obtain ⟨id, name, child, rfl⟩ := hbrings
    apply h.addChildNode _ hsub
    · intro other hother
      rcases (hmem other).mp hother with rfl | hrest
      · exact Or.inr ⟨child, rfl⟩
      · exact Or.inl hrest
    · intro path node hnode hid hproper
      apply h.tree.faithful path (registered_iff.mpr ⟨node, hnode⟩) name hproper
      exact Or.inr ⟨node, child, hnode, hid ▸ hthis⟩
  · push Not at hbrings
    have herased : TreeInv { s with pending := s.pending.eraseIdx i } := by
      apply h.erase hsub
      intro other hother
      rcases (hmem other).mp hother with rfl | hrest
      · exact Or.inr hbrings
      · exact Or.inl hrest
    apply herased.process _ hbrings hok
    cases m with
    | addNode nodeDescription id name =>
      exact ⟨h.listers _ hthis id rfl, h.requests nodeDescription id name hthis⟩
    | addChildNode id name child => exact absurd rfl (hbrings id name child)
    | _ => trivial

theorem TreeInv.receive (h : TreeInv s) {input : TreeInput} (hok : s.TreeCondition input)
    {s' : DistributedNodesRegistry} (hreceive : s.receive input = some s') : TreeInv s' := by
  cases input with
  | operation operation =>
    rw [DistributedNodesRegistry.receive] at hreceive
    split_ifs at hreceive with hquiet
    cases hreceive
    exact h.operate (List.isEmpty_iff.mp hquiet) hok
  | message i =>
    obtain ⟨m, hm, rfl⟩ := Option.map_eq_some_iff.mp hreceive
    exact h.message hm (hok m hm)

/-- **The registry and the tree agree.**  In every run whose steps meet the condition, they do
whenever every message has been processed. -/
theorem tree_agrees (h : Reachable receive TreeCondition .initial s) (hquiet : s.pending = []) :
    s.Agrees := by
  have hinv : TreeInv s := by
    apply h.invariant
    · exact TreeInv.initial
    · intro s input s' hs hok hreceive
      exact hs.receive hok hreceive
  apply hinv.agrees
  intro m hm
  rw [hquiet] at hm
  cases hm

end

/-! ### A node that is removed, and removed with its parent -/

/-- The names are those of actions, so that the nodes get no actions of their own. -/
def parentOfRemoved : Str := str "/add"

def removedName : Str := str "remove"

def removedChild : Str := str "/add/remove"

def addRemovedChild : TreeInput := .operation (.addNode (.init removedChild none none))

/-- The parent is removed with its child, and then both are created anew. -/
theorem tree_agrees_recreated :
    ∃ s : DistributedNodesRegistry, s.registered removedChild = true ∧ s.Agrees := by
  obtain ⟨s, hs, hquiet, hregistered⟩ :
      ∃ s, Reachable receive TreeCondition .initial s ∧ s.pending.isEmpty = true ∧
        s.registered removedChild = true :=
    Reachable.exists_of_run
      (addRemovedChild :: List.replicate 13 (.message 0)
        ++ .operation (.removeNode parentOfRemoved) :: List.replicate 2 (.message 0)
        ++ addRemovedChild :: List.replicate 21 (.message 0))
      (by decide +kernel)
  exact ⟨s, hregistered, tree_agrees hs (List.isEmpty_iff.mp hquiet)⟩

/-- The child alone is removed: it is no longer registered, but its parent goes on listing it. -/
theorem removed_child_listed :
    ¬ ∀ s, Reachable receive AnyStep .initial s → s.pending = [] → s.Agrees := by
  intro hall
  obtain ⟨s, hs, hquiet, hparent, hremoved, hlisted⟩ :
      ∃ s, Reachable receive AnyStep .initial s ∧ s.pending.isEmpty = true ∧
        s.registered parentOfRemoved = true ∧ s.registered removedChild = false ∧
        s.lists parentOfRemoved removedName = true :=
    Reachable.exists_of_run
      (addRemovedChild :: List.replicate 13 (.message 0)
        ++ .operation (.removeNode removedChild) :: List.replicate 2 (.message 0))
      (by decide +kernel)
  have hnames : ∀ other ∈ [str "add"], IsName other := by
    intro other hother
    rw [List.mem_singleton.mp hother]
    exact ⟨by decide, by decide⟩
  have hagree := (hall s hs (List.isEmpty_iff.mp hquiet)).child [str "add"] removedName
    (List.cons_ne_nil _ _) hnames ⟨by decide, by decide⟩ hparent
  have hregistered : s.registered removedChild = true := hagree.mpr hlisted
  rw [hremoved] at hregistered
  cases hregistered

end DistributedNodesRegistry
end DsaBroker
