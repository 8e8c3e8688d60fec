import DsaBroker.DistributedNodesRegistry
import DsaBroker.TreeIndex

/-!
# The registry and the children of its nodes

A node is registered under its path, and its parent lists its name.  `TreeInv` says how the two
agree while messages are on their way: what is registered is listed by its parent, or a message
that adds it is on its way, and what is listed or on its way is registered.

Most steps leave the tree alone (`SameTree`).  What is left are messages that come and go, and a
child that is added to a node.
-/

namespace DsaBroker

/-- The node to whose children a message will add one. -/
def NodeMessage.lister : NodeMessage → Option Nat
  | .addNode _ id _ | .addChildNode id _ _ => some id
  | _ => none

namespace DistributedNodesRegistry

/-! ### Paths -/

/-- A name that a path can have: it is not empty, and has no slash. -/
def IsName (name : Str) : Prop := name ≠ [] ∧ slash ∉ name

theorem isName_of_mem_segments {path name : Str} (h : name ∈ segments path) : IsName name := by
  obtain ⟨hfield, hne⟩ := List.mem_filter.mp h
  constructor
  · rintro rfl
    cases hne
  · exact slash_notMem_field hfield

theorem pathOf_concat (names : List Str) (name : Str) :
    pathOf (names ++ [name]) = pathOf names ++ slash :: name := by
  simp only [pathOf, List.flatMap_append, List.flatMap_cons, List.flatMap_nil, List.append_nil]

theorem segments_pathOf {names : List Str} (h : ∀ name ∈ names, IsName name) :
    segments (pathOf names) = names := by
  induction names using List.reverseRecOn with
  | nil => rfl
  | append_singleton names name ih =>
    have hname := h name (List.mem_append_right _ (List.mem_singleton.mpr rfl))
    rw [pathOf_concat, segments_append, segments_of_no_slash hname.2 hname.1,
      ih fun other hother => h other (List.mem_append_left _ hother)]

theorem parentPath_eq (path : Str) : parentPath path = aggregateParent none (segments path) := by
  rw [parentPath, filter_split]

theorem aggregateParent_concat (p : Option Str) (names : List Str) (name : Str) :
    aggregateParent p (names ++ [name]) =
      (if names.isEmpty then p else some (p.getD [] ++ pathOf names), name) := by
  induction names generalizing p with
  | nil => rfl
  | cons head tail ih =>
    have hstep : aggregateParent p (head :: tail ++ [name]) =
        aggregateParent (some (p.getD [] ++ slash :: head)) (tail ++ [name]) := by
      cases tail <;> rfl
    rw [hstep, ih]
    cases tail with
    | nil => simp [pathOf]
    | cons next rest => simp [pathOf]

/-- The parent has all names of the path but the last one. -/
theorem parentPath_of_segments {path : Str} {names : List Str} {name : Str}
    (h : segments path = names ++ [name]) :
    parentPath path = (if names.isEmpty then none else some (pathOf names), name) := by
  rw [parentPath_eq, h, aggregateParent_concat]
  simp

theorem exists_names_of_parentPath {path parent name : Str}
    (h : parentPath path = (some parent, name)) :
    ∃ names, names ≠ [] ∧ segments path = names ++ [name] ∧ parent = pathOf names := by
  rcases List.eq_nil_or_concat (segments path) with hnil | ⟨names, last, hconcat⟩
  · rw [parentPath_eq, hnil] at h
    cases h
  · rw [List.concat_eq_append] at hconcat
    rw [parentPath_of_segments hconcat] at h
    cases names with
    | nil => cases h
    | cons head tail =>
      obtain ⟨hparent, hname⟩ := Prod.mk.inj h
      exact ⟨head :: tail, List.cons_ne_nil _ _, hname ▸ hconcat, (Option.some.inj hparent).symm⟩

/-- `getOrCreateNode` for a path without a parent. -/
theorem getOrCreateNode_root (s : DistributedNodesRegistry) {nodeDescription : DSANodeDescription}
    {name : Str} (h : parentPath nodeDescription.path = (none, name)) :
    s.getOrCreateNode nodeDescription =
      s.getOrElse nodeDescription fun s => s.newNode nodeDescription (rootActions name) := by
  rcases List.eq_nil_or_concat (segments nodeDescription.path) with hnil | ⟨names, last, hconcat⟩
  · rw [parentPath_eq, hnil] at h
    cases h
    rw [getOrCreateNode, hnil]
    rfl
  · rw [List.concat_eq_append] at hconcat
    rw [parentPath_of_segments hconcat] at h
    cases names with
    | nil =>
      cases h
      rw [getOrCreateNode, hconcat]
      rfl
    | cons head tail => cases h

/-- `getOrCreateNode` for a path with a parent, which comes first. -/
theorem getOrCreateNode_child (s : DistributedNodesRegistry) {nodeDescription : DSANodeDescription}
    {parent name : Str} (h : parentPath nodeDescription.path = (some parent, name)) :
    s.getOrCreateNode nodeDescription =
      s.getOrElse nodeDescription fun s =>
        (s.getOrCreateNode (.init parent none none)).1.createChild
          (s.getOrCreateNode (.init parent none none)).2 parent name nodeDescription := by
  obtain ⟨names, hne, hsegments, rfl⟩ := exists_names_of_parentPath h
  have hnames : ∀ other ∈ names, IsName other := by
    intro other hother
    apply isName_of_mem_segments
    rw [hsegments]
    exact List.mem_append_left _ hother
  obtain ⟨next, rest, hreverse⟩ :=
    List.exists_cons_of_ne_nil (fun hnil => hne (List.reverse_eq_nil_iff.mp hnil))
  have hback : (next :: rest).reverse = names := by rw [← hreverse, List.reverse_reverse]
  have hparent (s : DistributedNodesRegistry) :
      s.getOrCreateNode (.init (pathOf names) none none) =
        getOrCreate (next :: rest) (.init (pathOf names) none none) s := by
    rw [getOrCreateNode, ← hreverse]
    show getOrCreate (segments (pathOf names)).reverse _ s = _
    rw [segments_pathOf hnames]
  simp only [hparent]
  rw [getOrCreateNode, hsegments, List.reverse_append, hreverse]
  show getOrCreate (name :: next :: rest) nodeDescription s = _
  rw [getOrCreate, hback]

theorem validPath_startsWith (path : Str) : startsWith (validPath path) [slash] = true := by
  rw [validPath]
  split_ifs with h
  · exact h
  · simp [startsWith]

theorem segments_validPath (path : Str) : segments (validPath path) = segments path := by
  rw [validPath]
  split_ifs
  · rfl
  · exact segments_slash path

theorem validPath_pathOf {names : List Str} (h : names ≠ []) :
    validPath (pathOf names) = pathOf names := by
  obtain ⟨head, tail, rfl⟩ := List.exists_cons_of_ne_nil h
  rw [validPath, if_pos]
  simp [pathOf, startsWith]

/-- How a path is taken apart and put together. -/
def nodePaths : PathScheme Str Str where
  parent path := (parentPath path).1.map fun parent => (parent, (parentPath path).2)
  child parent name := parent ++ slash :: name

theorem parent_eq_some {path parent name : Str} :
    nodePaths.parent path = some (parent, name) ↔ parentPath path = (some parent, name) := by
  simp only [nodePaths, Option.map_eq_some_iff, Prod.ext_iff]
  constructor
  · rintro ⟨_, hparent, rfl, hname⟩
    exact ⟨hparent, hname⟩
  · rintro ⟨hparent, hname⟩
    exact ⟨parent, hparent, rfl, hname⟩

theorem parent_eq_none {path : Str} (h : (segments path).length ≤ 1) :
    nodePaths.parent path = none := by
  rw [Option.eq_none_iff_forall_ne_some]
  rintro ⟨parent, name⟩ hparent
  obtain ⟨names, hne, hsegments, _⟩ := exists_names_of_parentPath (parent_eq_some.mp hparent)
  rw [hsegments, List.length_append, List.length_singleton] at h
  have hpos := List.length_pos_of_ne_nil hne
  omega

/-- The child of a path that is spelled properly. -/
theorem proper_pathOf {names : List Str} (hne : names ≠ []) (hnames : ∀ name ∈ names, IsName name)
    {name : Str} (hname : IsName name) : nodePaths.Proper (pathOf names) name := by
  have hsegments : segments (pathOf names ++ slash :: name) = names ++ [name] := by
    rw [segments_append, segments_pathOf hnames, segments_of_no_slash hname.2 hname.1]
  rw [PathScheme.Proper, parent_eq_some]
  show parentPath (pathOf names ++ slash :: name) = _
  rw [parentPath_of_segments hsegments, if_neg]
  simpa using hne

/-- A child that a node asks for has the path that it should have. -/
theorem validPath_child {path name : Str} (h : nodePaths.Proper (validPath path) name) :
    validPath (path ++ slash :: name) = nodePaths.child (validPath path) name := by
  cases path with
  | nil =>
    obtain ⟨names, hne, hsegments, hparent⟩ := exists_names_of_parentPath (parent_eq_some.mp h)
    have hslash : pathOf names = [slash] := hparent.symm
    obtain ⟨head, tail, rfl⟩ := List.exists_cons_of_ne_nil hne
    have hhead : IsName head := by
      apply isName_of_mem_segments
      rw [hsegments]
      exact List.mem_append_left _ List.mem_cons_self
    have hempty : head ++ pathOf tail = [] := by simpa [pathOf] using hslash
    exact absurd (List.append_eq_nil_iff.mp hempty).1 hhead.1
  | cons c rest =>
    simp only [validPath, startsWith, nodePaths]
    by_cases hc : slash = c <;> simp [hc]

/-! ### Steps that leave the tree alone -/

/-- The path of a node, and the children that it lists. -/
def childrenAt (s : DistributedNodesRegistry) (id : Nat) :
    Option (Str × (Str → Option DSANodeRef)) :=
  (s.nodes id).map fun node => (node.path, node.childNodes)

theorem childrenAt_of_nodes {s : DistributedNodesRegistry} {id : Nat} {node : DSANodeActor}
    (h : s.nodes id = some node) : s.childrenAt id = some (node.path, node.childNodes) := by
  rw [childrenAt, h]
  rfl

theorem childrenAt_setNode (s : DistributedNodesRegistry) (id : Nat) (node : DSANodeActor)
    (other : Nat) : (s.setNode id node).childrenAt other =
      if other = id then some (node.path, node.childNodes) else s.childrenAt other := by
  simp only [childrenAt, setNode, Function.update_apply]
  split_ifs <;> rfl

/-- Nothing has changed but what the tree does not depend on. -/
structure SameTree (s s' : DistributedNodesRegistry) : Prop where
  registry : s'.registry = s.registry
  nextId : s'.nextId = s.nextId
  children : ∀ id, s'.childrenAt id = s.childrenAt id
  pending : ∀ m, m.lister.isSome = true → (m ∈ s'.pending ↔ m ∈ s.pending)

namespace SameTree

variable {s s' s'' : DistributedNodesRegistry}

theorem refl (s : DistributedNodesRegistry) : SameTree s s :=
  ⟨rfl, rfl, fun _ => rfl, fun _ _ => Iff.rfl⟩

theorem trans (h : SameTree s s') (h' : SameTree s' s'') : SameTree s s'' := by
  constructor
  · rw [h'.registry, h.registry]
  · rw [h'.nextId, h.nextId]
  · intro id
    rw [h'.children, h.children]
  · intro m hm
    rw [h'.pending m hm, h.pending m hm]

theorem send {messages : List NodeMessage} (h : ∀ m ∈ messages, m.lister = none) :
    SameTree s (s.send messages) := by
  refine ⟨rfl, rfl, fun _ => rfl, ?_⟩
  intro m hm
  rw [DistributedNodesRegistry.send, List.mem_append]
  apply or_iff_left
  intro hmem
  rw [h m hmem] at hm
  cases hm

theorem send_one {m : NodeMessage} (h : m.lister = none) : SameTree s (s.send [m]) := by
  apply send
  intro m' hm'
  rw [List.mem_singleton.mp hm', h]

theorem announce (path : Str) : SameTree s (s.announce path) := by
  rw [DistributedNodesRegistry.announce]
  split
  · exact refl s
  · exact send_one rfl

theorem announceRegistry : SameTree s s.announceRegistry := by
  rw [DistributedNodesRegistry.announceRegistry]
  split
  · exact refl s
  · exact send_one rfl

theorem update (path name : Str) (child : Option DSANodeDescription) :
    SameTree s (s.update path name child) := by
  rw [DistributedNodesRegistry.update]
  have hstate (state : Str → Option ReplicatedChildren) :
      SameTree s { s with replicatedChildren := state } :=
    ⟨rfl, rfl, fun _ => rfl, fun _ _ => Iff.rfl⟩
  exact (hstate _).trans (announce path)

theorem setNode {id : Nat} {node : DSANodeActor}
    (h : s.childrenAt id = some (node.path, node.childNodes)) :
    SameTree s (s.setNode id node) := by
  refine ⟨rfl, rfl, ?_, fun _ _ => Iff.rfl⟩
  intro other
  rw [childrenAt_setNode]
  split_ifs with hother
  · rw [hother, h]
  · rfl

theorem editChild (id : Nat) (name : Str) (child : Option DSANodeDescription) :
    SameTree s (s.editChild id name child) := by
  rw [DistributedNodesRegistry.editChild]
  cases hnode : s.nodes id with
  | none => exact refl s
  | some node =>
    have hchildren := childrenAt_of_nodes hnode
    dsimp only
    split
    · exact update node.path name child
    · exact setNode hchildren

theorem updateLocalState [ScanOrder Str] (id : Nat) (state : ReplicatedChildren) :
    SameTree s (s.updateLocalState id state) := by
  rw [DistributedNodesRegistry.updateLocalState]
  cases s.nodes id with
  | none => exact refl s
  | some node =>
    dsimp only
    split
    · exact send_one rfl
    · exact send_one rfl

theorem foldl {ι : Type} {step : DistributedNodesRegistry → ι → DistributedNodesRegistry}
    (h : ∀ s i, SameTree s (step s i)) (inputs : List ι) : SameTree s (inputs.foldl step s) := by
  induction inputs generalizing s with
  | nil => exact refl s
  | cons i rest ih => exact (h s i).trans ih

theorem initMe [ScanOrder Str] (id : Nat) (state : Option ReplicatedChildren) :
    SameTree s (s.initMe id state) := by
  rw [DistributedNodesRegistry.initMe]
  cases hnode : s.nodes id with
  | none => exact refl s
  | some node =>
    have hupdated : SameTree s ((state.map (s.updateLocalState id)).getD s) := by
      cases state with
      | none => exact refl s
      | some state => exact updateLocalState id state
    have hsent := hupdated.trans
      (foldl (fun s entry => update node.path entry.1 entry.2) node.stash)
    apply hsent.trans
    apply setNode
    rw [hsent.children, childrenAt_of_nodes hnode]

end SameTree

/-! ### The invariant -/

def registered (s : DistributedNodesRegistry) (path : Str) : Bool := (s.registry.get path).isSome

/-- The node that is registered for a path lists a name among its children. -/
def lists (s : DistributedNodesRegistry) (path name : Str) : Bool :=
  (s.registry.get path).any fun ref =>
    (s.nodes ref.id).any fun node => (node.childNodes name).isSome

/-- A child of this name is on its way to the node that is registered for a path. -/
def Promised (s : DistributedNodesRegistry) (path name : Str) : Prop :=
  ∃ ref child, s.registry.get path = some ref ∧ .addChildNode ref.id name child ∈ s.pending

/-- The registry and the lists of its nodes. -/
def index (s : DistributedNodesRegistry) : TreeIndex Str Str where
  members := { path | s.registered path = true }
  listed path := { name | s.lists path name = true }
  promised path := { name | s.Promised path name }

structure TreeInv (s : DistributedNodesRegistry) : Prop where
  alive : ∀ path ref, s.registry.get path = some ref →
    ∃ node, s.childrenAt ref.id = some node ∧ validPath node.1 = path
  fresh : ∀ id, (s.childrenAt id).isSome = true → id < s.nextId
  listers : ∀ m ∈ s.pending, ∀ id ∈ m.lister, id < s.nextId
  requests : ∀ nodeDescription id name, .addNode nodeDescription id name ∈ s.pending →
    ∀ path ref, s.registry.get path = some ref → ref.id = id → nodePaths.Proper path name →
    validPath nodeDescription.path = nodePaths.child path name
  tree : s.index.Consistent nodePaths

theorem lists_iff {s : DistributedNodesRegistry} {path name : Str} :
    s.lists path name = true ↔ ∃ ref node, s.registry.get path = some ref ∧
      s.childrenAt ref.id = some node ∧ (node.2 name).isSome = true := by
  simp only [lists, childrenAt, Option.any_eq_true, Option.map_eq_some_iff]
  constructor
  · rintro ⟨ref, href, node, hnode, hname⟩
    exact ⟨ref, _, href, ⟨node, hnode, rfl⟩, hname⟩
  · rintro ⟨ref, _, href, ⟨node, hnode, rfl⟩, hname⟩
    exact ⟨ref, href, node, hnode, hname⟩

theorem registered_iff {s : DistributedNodesRegistry} {path : Str} :
    s.registered path = true ↔ ∃ ref, s.registry.get path = some ref :=
  Option.isSome_iff_exists

namespace TreeInv

variable {s s' : DistributedNodesRegistry}

theorem initial : TreeInv .initial := by
  constructor
  · intro path ref href
    cases href
  · intro id hid
    cases hid
  · intro m hm
    cases hm
  · intro nodeDescription id name hm
    cases hm
  · apply TreeIndex.Consistent.start
    apply Set.eq_empty_of_forall_notMem
    intro path hpath
    cases hpath

/-- A node is registered for one path only. -/
theorem path_unique (h : TreeInv s) {path path' : Str} {ref ref' : DSANodeRef}
    (href : s.registry.get path = some ref) (href' : s.registry.get path' = some ref')
    (hid : ref.id = ref'.id) : path = path' := by
  obtain ⟨node, hnode, rfl⟩ := h.alive path ref href
  obtain ⟨node', hnode', rfl⟩ := h.alive path' ref' href'
  rw [hid, hnode'] at hnode
  cases hnode
  rfl

theorem absolute (h : TreeInv s) {path : Str} {ref : DSANodeRef}
    (href : s.registry.get path = some ref) : startsWith path [slash] = true := by
  obtain ⟨node, _, rfl⟩ := h.alive path ref href
  exact validPath_startsWith node.1

/-- The nodes stay registered as they are, and their lists change as far as no path depends on
them. -/
theorem rename (h : TreeInv s) (hregistry : s'.registry = s.registry)
    (hnextId : s'.nextId = s.nextId)
    (hpaths : ∀ id, (s'.childrenAt id).map Prod.fst = (s.childrenAt id).map Prod.fst)
    (hlisters : ∀ m ∈ s'.pending, ∀ id ∈ m.lister, id < s.nextId)
    (hrequests : ∀ nodeDescription id name, .addNode nodeDescription id name ∈ s'.pending →
      ∀ path ref, s.registry.get path = some ref → ref.id = id → nodePaths.Proper path name →
      validPath nodeDescription.path = nodePaths.child path name)
    (hcome : ∀ path name, nodePaths.Proper path name → s'.index.Names path name →
      s.index.Names path name ∨ s.registered (nodePaths.child path name) = true)
    (hgo : ∀ path name, nodePaths.Proper path name →
      s.registered (nodePaths.child path name) = true → s.index.Names path name →
      s'.index.Names path name) : TreeInv s' := by
  constructor
  · intro path ref href
    rw [hregistry] at href
    obtain ⟨node, hnode, hpath⟩ := h.alive path ref href
    have hfst := hpaths ref.id
    rw [hnode, Option.map_some, Option.map_eq_some_iff] at hfst
    obtain ⟨node', hnode', hfst⟩ := hfst
    exact ⟨node', hnode', by rw [hfst, hpath]⟩
  · intro id hid
    rw [hnextId]
    apply h.fresh
    rwa [← Option.isSome_map (f := Prod.fst), ← hpaths, Option.isSome_map]
  · rw [hnextId]
    exact hlisters
  · rw [hregistry]
    exact hrequests
  · apply h.tree.rename
    · ext path
      simp only [index, registered, hregistry]
    · exact fun path _ name => hcome path name
    · exact fun path _ name => hgo path name

theorem sameTree (h : TreeInv s) (hsame : SameTree s s') : TreeInv s' := by
  have hnames : ∀ path name, s'.index.Names path name ↔ s.index.Names path name := by
    intro path name
    apply or_congr
    · show s'.lists path name = true ↔ s.lists path name = true
      simp only [lists_iff, hsame.registry, hsame.children]
    · show s'.Promised path name ↔ s.Promised path name
      simp only [Promised, hsame.registry, hsame.pending (.addChildNode _ _ _) rfl]
  apply h.rename hsame.registry hsame.nextId
  · intro id
    rw [hsame.children]
  · intro m hm id hid
    rw [hsame.pending m (by rw [hid]; rfl)] at hm
    exact h.listers m hm id hid
  · intro nodeDescription id name hm
    exact h.requests nodeDescription id name ((hsame.pending _ rfl).mp hm)
  · exact fun path name _ hname => Or.inl ((hnames path name).mp hname)
  · exact fun path name _ _ hname => (hnames path name).mpr hname

end TreeInv

/-! ### A child is added to a node -/

/-- If the node is registered, then so is its child of this name. -/
def Expects (s : DistributedNodesRegistry) (id : Nat) (name : Str) : Prop :=
  ∀ path ref, s.registry.get path = some ref → ref.id = id → nodePaths.Proper path name →
    s.registered (nodePaths.child path name) = true

/-- What a message may bring: a child that its node expects, or one that is going to be registered
under the path that it should have. -/
def Sound (s : DistributedNodesRegistry) : NodeMessage → Prop
  | .addNode nodeDescription id name => id < s.nextId ∧ ∀ path ref,
      s.registry.get path = some ref → ref.id = id → nodePaths.Proper path name →
      validPath nodeDescription.path = nodePaths.child path name
  | .addChildNode id name _ => id < s.nextId ∧ s.Expects id name
  | _ => True

/-- What a node lists after `addChild(name, node)`. -/
theorem childrenAt_addChildNode (s : DistributedNodesRegistry) (id : Nat) (name : Str)
    (child : DSANodeRef) (other : Nat) :
    (s.addChildNode id name child).childrenAt other =
      if other = id then
        (s.childrenAt id).map fun node => (node.1, Function.update node.2 name (some child))
      else s.childrenAt other := by
  rw [addChildNode]
  cases hnode : s.nodes id with
  | none =>
    split_ifs with hother
    · rw [hother, childrenAt, hnode]
      rfl
    · rfl
  | some node =>
    dsimp only
    rw [(SameTree.editChild id name _).children, childrenAt_setNode, childrenAt_of_nodes hnode]
    rfl

theorem addChildNode_frame (s : DistributedNodesRegistry) (id : Nat) (name : Str)
    (child : DSANodeRef) :
    (s.addChildNode id name child).registry = s.registry ∧
      (s.addChildNode id name child).nextId = s.nextId ∧
      ∀ m, m.lister.isSome = true →
        (m ∈ (s.addChildNode id name child).pending ↔ m ∈ s.pending) := by
  rw [addChildNode]
  cases s.nodes id with
  | none => exact ⟨rfl, rfl, fun _ _ => Iff.rfl⟩
  | some node =>
    have hsame := SameTree.editChild (s := s.setNode id { node with
      childNodes := Function.update node.childNodes name (some child) }) id name
      (some (.init child.path (some child.profile) node.valueType))
    exact ⟨hsame.registry, hsame.nextId, hsame.pending⟩

theorem lists_addChildNode {s : DistributedNodesRegistry} {id : Nat} {name : Str}
    {child : DSANodeRef} {path name' : Str} :
    (s.addChildNode id name child).lists path name' = true ↔ s.lists path name' = true ∨
      name' = name ∧ ∃ ref, s.registry.get path = some ref ∧ ref.id = id ∧
        (s.childrenAt id).isSome = true := by
  have hregistry := (addChildNode_frame s id name child).1
  simp only [lists_iff, hregistry, childrenAt_addChildNode]
  constructor
  · rintro ⟨ref, node', href, hnode', hname⟩
    by_cases hid : ref.id = id
    · rw [if_pos hid] at hnode'
      obtain ⟨node, hnode, rfl⟩ := Option.map_eq_some_iff.mp hnode'
      by_cases heq : name' = name
      · exact Or.inr ⟨heq, ref, href, hid, by rw [hnode]; rfl⟩
      · refine Or.inl ⟨ref, node, href, hid ▸ hnode, ?_⟩
        simpa only [Function.update_of_ne heq] using hname
    · rw [if_neg hid] at hnode'
      exact Or.inl ⟨ref, node', href, hnode', hname⟩
  · rintro (⟨ref, node, href, hnode, hname⟩ | ⟨rfl, ref, href, hid, hsome⟩)
    · by_cases hid : ref.id = id
      · refine ⟨ref, _, href, by rw [if_pos hid, ← hid, hnode]; rfl, ?_⟩
        by_cases heq : name' = name
        · simp only [heq, Function.update_self, Option.isSome_some]
        · simpa only [Function.update_of_ne heq] using hname
      · exact ⟨ref, node, href, by rw [if_neg hid, hnode], hname⟩
    · obtain ⟨node, hnode⟩ := Option.isSome_iff_exists.mp hsome
      refine ⟨ref, _, href, by rw [if_pos hid, hnode]; rfl, ?_⟩
      simp only [Function.update_self, Option.isSome_some]

namespace TreeInv

variable {s : DistributedNodesRegistry}

/-- A child that is expected is listed, and the message that has brought it is gone. -/
theorem addChildNode (h : TreeInv s) {id : Nat} {name : Str} (hexpected : s.Expects id name)
    {pending : List NodeMessage} (hsub : ∀ m ∈ pending, m ∈ s.pending)
    (hkept : ∀ m ∈ s.pending, m ∈ pending ∨ ∃ child, m = .addChildNode id name child)
    (child : DSANodeRef) :
    TreeInv (({ s with pending := pending } : DistributedNodesRegistry).addChildNode id name
      child) := by
  have hframe :=
    addChildNode_frame ({ s with pending := pending } : DistributedNodesRegistry) id name child
  obtain ⟨hregistry, hnextId, hpending⟩ := hframe
  have hlisters : ∀ m, m.lister.isSome = true → m ∈ (({ s with
      pending := pending } : DistributedNodesRegistry).addChildNode id name child).pending →
      m ∈ s.pending :=
    fun m hlister hm => hsub m ((hpending m hlister).mp hm)
  -- the node gets its child's name, and so no more than an update of the children happens
  apply h.rename hregistry hnextId
  · intro other
    rw [childrenAt_addChildNode]
    split_ifs with hother
    · rw [hother, Option.map_map]
      rfl
    · rfl
  · intro m hm other hother
    exact h.listers m (hlisters m (by rw [hother]; rfl) hm) other hother
  · intro nodeDescription other name' hm
    exact h.requests nodeDescription other name' (hlisters _ rfl hm)
  · -- a listed name was listed before, or is the expected one, which is registered
    rintro path name' hproper (hlisted | ⟨ref, child', href, hm⟩)
    · rcases lists_addChildNode.mp hlisted with hbefore | ⟨rfl, ref, href, hid, _⟩
      · exact Or.inl (Or.inl hbefore)
      · exact Or.inr (hexpected path ref href hid hproper)
    · rw [hregistry] at href
      exact Or.inl (Or.inr ⟨ref, child', href, hlisters _ rfl hm⟩)
  · rintro path name' _ _ (hbefore | ⟨ref, child', href, hm⟩)
    · exact Or.inl (lists_addChildNode.mpr (Or.inl hbefore))
    · rcases hkept _ hm with hkeep | ⟨other, heq⟩
      · exact Or.inr ⟨ref, child', by rw [hregistry]; exact href, (hpending _ rfl).mpr hkeep⟩
      · -- the message that brought this very child is the one that is gone
        cases heq
        obtain ⟨node, hnode, _⟩ := h.alive path ref href
        refine Or.inl (lists_addChildNode.mpr (Or.inr ⟨rfl, ref, href, rfl, ?_⟩))
        exact Option.isSome_iff_exists.mpr ⟨node, hnode⟩

/-- Messages go that bring no child, and messages come that bring what is expected. -/
theorem resend (h : TreeInv s) {pending : List NodeMessage}
    (hcome : ∀ m ∈ pending, m ∈ s.pending ∨ s.Sound m)
    (hgo : ∀ m ∈ s.pending, m ∈ pending ∨ ∀ id name child, m ≠ .addChildNode id name child) :
    TreeInv { s with pending := pending } := by
  apply h.rename
  · rfl
  · rfl
  · exact fun id => rfl
  · intro m hm id hid
    rcases hcome m hm with hold | hsound
    · exact h.listers m hold id hid
    · cases m <;> cases hid
      · exact hsound.1
      · exact hsound.1
  · intro nodeDescription id name hm
    rcases hcome _ hm with hold | hsound
    · exact h.requests nodeDescription id name hold
    · exact hsound.2
  · rintro path name hproper (hlisted | ⟨ref, child, href, hm⟩)
    · exact Or.inl (Or.inl hlisted)
    · rcases hcome _ hm with hold | hsound
      · exact Or.inl (Or.inr ⟨ref, child, href, hold⟩)
      · exact Or.inr (hsound.2 path ref href rfl hproper)
  · rintro path name _ _ (hlisted | ⟨ref, child, href, hm⟩)
    · exact Or.inl hlisted
    · rcases hgo _ hm with hkeep | hother
      · exact Or.inr ⟨ref, child, href, hkeep⟩
      · exact absurd rfl (hother ref.id name child)

/-- A message that brings no child is gone. -/
theorem erase (h : TreeInv s) {pending : List NodeMessage} (hsub : ∀ m ∈ pending, m ∈ s.pending)
    (hkept : ∀ m ∈ s.pending, m ∈ pending ∨ ∀ id name child, m ≠ .addChildNode id name child) :
    TreeInv { s with pending := pending } :=
  h.resend (fun m hm => Or.inl (hsub m hm)) hkept

/-- A message comes that brings what is expected. -/
theorem send (h : TreeInv s) {m : NodeMessage} (hsound : s.Sound m) : TreeInv (s.send [m]) := by
  apply h.resend
  · intro m' hm'
    rcases List.mem_append.mp hm' with hold | hnew
    · exact Or.inl hold
    · rw [List.mem_singleton.mp hnew]
      exact Or.inr hsound
  · exact fun m' hm' => Or.inl (List.mem_append_left _ hm')

/-- A node asks for a child under the path that it should have. -/
theorem addChild (h : TreeInv s) (id : Nat) (name : Str) (configs : DSAMap) :
    TreeInv (s.addChild id name configs) := by
  rw [DistributedNodesRegistry.addChild]
  cases hnode : s.nodes id with
  | none => exact h
  | some node =>
    have hchildren := childrenAt_of_nodes hnode
    dsimp only
    split
    · exact h
    · apply h.send
      refine ⟨h.fresh id (by rw [hchildren]; rfl), ?_⟩
      intro path ref href hid hproper
      obtain ⟨node', hnode', rfl⟩ := h.alive path ref href
      rw [hid, hchildren] at hnode'
      cases hnode'
      exact validPath_child hproper

end TreeInv

end DistributedNodesRegistry
end DsaBroker
