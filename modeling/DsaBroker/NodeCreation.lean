import DsaBroker.NodeTree

/-!
# Looking up a node, or creating it

`getOrCreateNode` looks up the ancestors of a path first, and creates those that are not there.
Each new node is registered and its parent told about it, so the invariant is kept as long as a
path is spelled properly, or the proper spelling of it is registered.
-/

namespace DsaBroker
namespace DistributedNodesRegistry

/-! ### A node is created -/

/-- A new node is registered for a path, and its parent is told about it. -/
structure Created (s s' : DistributedNodesRegistry) (path : Str) (ref : DSANodeRef) : Prop where
  unregistered : s.registry.get path = none
  id : ref.id = s.nextId
  registry : ∀ other,
    s'.registry.get other = if other = path then some ref else s.registry.get other
  nextId : s'.nextId = s.nextId + 1
  children : ∀ other, other ≠ s.nextId → s'.childrenAt other = s.childrenAt other
  empty : ∃ node, s'.childrenAt s.nextId = some node ∧ validPath node.1 = path ∧
    ∀ name, node.2 name = none
  pending : ∀ m, m.lister.isSome = true → (m ∈ s'.pending ↔ m ∈ s.pending ∨
    ∃ parent name parentNode, nodePaths.parent path = some (parent, name) ∧
      s.registry.get parent = some parentNode ∧ m = .addChildNode parentNode.id name ref)

namespace TreeInv

variable {s s' : DistributedNodesRegistry} {path : Str} {ref : DSANodeRef}

theorem id_lt (h : TreeInv s) (href : s.registry.get path = some ref) : ref.id < s.nextId := by
  obtain ⟨node, hnode, _⟩ := h.alive path ref href
  exact h.fresh ref.id (by rw [hnode]; rfl)

/-- What is listed by a node that was registered before, or promised to it. -/
theorem names_created (h : TreeInv s) (hcreated : Created s s' path ref) {other : Str}
    (hother : s.registered other = true) (name : Str) : s'.index.Names other name ↔
      s.index.Names other name ∨ nodePaths.parent path = some (other, name) := by
  obtain ⟨otherRef, hotherRef⟩ := registered_iff.mp hother
  have hne : other ≠ path := by
    rintro rfl
    rw [hcreated.unregistered] at hotherRef
    cases hotherRef
  have hotherRef' : s'.registry.get other = some otherRef := by
    rw [hcreated.registry, if_neg hne, hotherRef]
  have hlists : s'.lists other name = true ↔ s.lists other name = true := by
    have hchildren := hcreated.children otherRef.id (h.id_lt hotherRef).ne
    simp only [lists_iff, hotherRef, hotherRef', Option.some.injEq, exists_and_left,
      exists_eq_left', hchildren]
  constructor
  · rintro (hlisted | ⟨ref', child, href', hm⟩)
    · exact Or.inl (Or.inl (hlists.mp hlisted))
    · cases hotherRef'.symm.trans href'
      rcases (hcreated.pending _ rfl).mp hm with hold |
        ⟨parent, name', parentNode, hparent, hnode, heq⟩
      · exact Or.inl (Or.inr ⟨otherRef, child, hotherRef, hold⟩)
      · obtain ⟨hid, rfl, _⟩ := NodeMessage.addChildNode.inj heq
        rw [h.path_unique hotherRef hnode hid]
        exact Or.inr hparent
  · rintro ((hlisted | ⟨ref', child, href', hm⟩) | hparent)
    · exact Or.inl (hlists.mpr hlisted)
    · cases hotherRef.symm.trans href'
      exact Or.inr ⟨otherRef, child, hotherRef', (hcreated.pending _ rfl).mpr (Or.inl hm)⟩
    · refine Or.inr ⟨otherRef, ref, hotherRef', (hcreated.pending _ rfl).mpr (Or.inr ?_)⟩
      exact ⟨other, name, otherRef, hparent, hotherRef, rfl⟩

/-- Nothing is listed by the new node, nor promised to it. -/
theorem not_names_created (h : TreeInv s) (hcreated : Created s s' path ref) (name : Str) :
    ¬ s'.index.Names path name := by
  have href : s'.registry.get path = some ref := by rw [hcreated.registry, if_pos rfl]
  rintro (hlisted | ⟨ref', child, href', hm⟩)
  · obtain ⟨ref', node, href', hnode, hname⟩ := lists_iff.mp hlisted
    cases href.symm.trans href'
    obtain ⟨node', hnode', _, hempty⟩ := hcreated.empty
    rw [hcreated.id, hnode'] at hnode
    cases hnode
    rw [hempty] at hname
    cases hname
  · cases href.symm.trans href'
    rcases (hcreated.pending _ rfl).mp hm with hold | ⟨_, _, parentNode, _, hnode, heq⟩
    · exact absurd (h.listers _ hold ref.id rfl) (by rw [hcreated.id]; exact lt_irrefl _)
    · obtain ⟨hid, _, _⟩ := NodeMessage.addChildNode.inj heq
      have hlt := h.id_lt hnode
      rw [← hid, hcreated.id] at hlt
      exact lt_irrefl _ hlt

/-- A node that has been created under a registered parent, with the message to this parent on its
way, makes the tree larger by this one path. -/
theorem created (h : TreeInv s) (hcreated : Created s s' path ref)
    (hparent : ∀ parent name, nodePaths.parent path = some (parent, name) →
      s.registered parent = true ∧ (nodePaths.child parent name = path ∨
        s.registered (nodePaths.child parent name) = true)) : TreeInv s' := by
  constructor
  · -- the new node is alive under its path, and no old one has changed
    intro other otherRef hother
    rw [hcreated.registry] at hother
    split_ifs at hother with heq
    · cases hother
      obtain ⟨node, hnode, hpath, _⟩ := hcreated.empty
      exact ⟨node, hcreated.id ▸ hnode, hpath.trans heq.symm⟩
    · rw [hcreated.children _ (h.id_lt hother).ne]
      exact h.alive other otherRef hother
  · -- ids from the next one on are still free
    intro id hid
    rw [hcreated.nextId]
    by_cases heq : id = s.nextId
    · omega
    · rw [hcreated.children id heq] at hid
      have hlt := h.fresh id hid
      omega
  · -- messages on their way come from nodes that are there, the new one from the parent of the node
    intro m hm id hid
    rw [hcreated.nextId]
    rcases (hcreated.pending m (by rw [hid]; rfl)).mp hm with hold |
      ⟨_, _, parentNode, _, hnode, rfl⟩
    · have hlt := h.listers m hold id hid
      omega
    · cases hid
      have hlt := h.id_lt hnode
      omega
  · -- nobody has asked for a child of the new node yet, as its id was free
    intro nodeDescription id name hm other otherRef hother hid
    have hold : .addNode nodeDescription id name ∈ s.pending := by
      rcases (hcreated.pending _ rfl).mp hm with hold | ⟨_, _, _, _, _, heq⟩
      · exact hold
      · cases heq
    rw [hcreated.registry] at hother
    split_ifs at hother with heq
    · cases hother
      have hlt := h.listers _ hold id rfl
      rw [← hid, hcreated.id] at hlt
      exact absurd hlt (lt_irrefl _)
    · exact h.requests nodeDescription id name hold other otherRef hother hid
  · -- the tree gains one path, which only the new message names
    apply h.tree.insert
    · intro other
      show s'.registered other = true ↔ other = path ∨ s.registered other = true
      rw [registered, hcreated.registry]
      by_cases heq : other = path
      · simp [heq]
      · simp [heq, registered]
    · exact hparent
    · exact fun other hother name => h.names_created hcreated hother name
    · exact fun name => h.not_names_created hcreated name

end TreeInv

section

variable (s : DistributedNodesRegistry) (nodeDescription : DSANodeDescription)
  (actions : List ActionDescription)

theorem newNode_spec :
    (s.newNode nodeDescription actions).2.id = s.nextId ∧
      (s.newNode nodeDescription actions).1.registry = s.registry ∧
      (s.newNode nodeDescription actions).1.nextId = s.nextId + 1 ∧
      (∀ other, (s.newNode nodeDescription actions).1.childrenAt other =
        if other = s.nextId then some (nodeDescription.path, fun _ => none)
        else s.childrenAt other) ∧
      ∀ m, m.lister.isSome = true →
        (m ∈ (s.newNode nodeDescription actions).1.pending ↔ m ∈ s.pending) := by
  let node : DSANodeActor := {
    path := nodeDescription.path
    valueType := nodeDescription.config (str "$type")
    childNodes := fun _ => none
    children := fun _ => none
    stateInitialized := false
    stash := [] }
  let started : DistributedNodesRegistry :=
    { s.setNode s.nextId node with nextId := s.nextId + 1 }
  have hsame : SameTree started (s.newNode nodeDescription actions).1 := by
    apply (SameTree.announce nodeDescription.path).trans
    apply SameTree.send
    intro m hm
    rcases List.mem_cons.mp hm with rfl | hbind
    · rfl
    · obtain ⟨action, _, rfl⟩ := List.mem_map.mp hbind
      rfl
  refine ⟨rfl, hsame.registry, hsame.nextId, ?_, hsame.pending⟩
  intro other
  rw [hsame.children]
  exact childrenAt_setNode s s.nextId node other

theorem register_spec (path : Str) (ref : DSANodeRef) :
    SameTree { s with
      registry := s.registry.put path ref
      replicatedNodes := s.replicatedNodes.put path nodeDescription }
      (s.register path nodeDescription ref) :=
  SameTree.announceRegistry

variable {s nodeDescription}

/-- A node without a parent is created. -/
theorem created_root (hnew : s.registry.get (validPath nodeDescription.path) = none)
    (hroot : nodePaths.parent (validPath nodeDescription.path) = none) :
    Created s ((s.newNode nodeDescription actions).1.register (validPath nodeDescription.path)
      nodeDescription (s.newNode nodeDescription actions).2) (validPath nodeDescription.path)
      (s.newNode nodeDescription actions).2 := by
  obtain ⟨hid, hregistry, hnextId, hchildren, hpending⟩ := newNode_spec s nodeDescription actions
  have hsame := register_spec (s.newNode nodeDescription actions).1 nodeDescription
    (validPath nodeDescription.path) (s.newNode nodeDescription actions).2
  refine ⟨hnew, hid, ?_, hsame.nextId.trans hnextId, ?_, ?_, ?_⟩
  · intro other
    rw [hsame.registry, ScanMap.get_put, hregistry]
  · intro other hother
    rw [hsame.children]
    exact (hchildren other).trans (if_neg hother)
  · refine ⟨_, (hsame.children s.nextId).trans ((hchildren s.nextId).trans (if_pos rfl)), rfl, ?_⟩
    exact fun name => rfl
  · intro m hm
    rw [hsame.pending m hm]
    refine (hpending m hm).trans (or_iff_left ?_).symm
    rintro ⟨parent, name, _, hparent, _⟩
    rw [hroot] at hparent
    cases hparent

/-- A node is created under its parent: it is registered under a new id, without children of its
own, and the message that brings it to its parent is on its way. -/
theorem created_child {parent name : Str} {parentNode : DSANodeRef}
    (hnew : s.registry.get (validPath nodeDescription.path) = none)
    (hraw : s.registry.get nodeDescription.path = none)
    (hparent : nodePaths.parent (validPath nodeDescription.path) = some (parent, name))
    (hnode : s.registry.get parent = some parentNode) :
    Created s ((s.createChild parentNode parent name nodeDescription).1.register
      (validPath nodeDescription.path) nodeDescription
      (s.createChild parentNode parent name nodeDescription).2) (validPath nodeDescription.path)
      (s.createChild parentNode parent name nodeDescription).2 := by
  obtain ⟨hid, hregistry, hnextId, hchildren, hpending⟩ :=
    newNode_spec s nodeDescription (childActions parent name)
  have hcreate : s.createChild parentNode parent name nodeDescription =
      ((s.newNode nodeDescription (childActions parent name)).1.send [.addChildNode parentNode.id
        name (s.newNode nodeDescription (childActions parent name)).2],
        (s.newNode nodeDescription (childActions parent name)).2) := by
    rw [createChild, hraw]
  rw [hcreate]
  -- the parent is told of its child, and then the node is registered
  generalize s.newNode nodeDescription (childActions parent name) = result at *
  have hsame := register_spec (result.1.send [.addChildNode parentNode.id name result.2])
    nodeDescription (validPath nodeDescription.path) result.2
  refine ⟨hnew, hid, ?_, hsame.nextId.trans hnextId, ?_, ?_, ?_⟩
  · intro other
    rw [hsame.registry, ScanMap.get_put]
    simp only [send, hregistry]
  · intro other hother
    rw [hsame.children]
    exact (hchildren other).trans (if_neg hother)
  · refine ⟨_, (hsame.children s.nextId).trans ((hchildren s.nextId).trans (if_pos rfl)), rfl, ?_⟩
    exact fun name => rfl
  · intro m hm
    rw [hsame.pending m hm]
    simp only [send, List.mem_append, List.mem_singleton, hpending m hm]
    apply or_congr Iff.rfl
    constructor
    · rintro rfl
      exact ⟨parent, name, parentNode, hparent, hnode, rfl⟩
    · rintro ⟨parent', name', parentNode', hparent', hnode', rfl⟩
      cases hparent.symm.trans hparent'
      cases hnode.symm.trans hnode'
      rfl

end

/-! ### A node is looked up or created -/

/-- A path that has a parent is spelled properly, or the proper spelling of it is registered. -/
def Spelled (s : DistributedNodesRegistry) (nodeDescription : DSANodeDescription) : Prop :=
  ∀ parent name, nodePaths.parent (validPath nodeDescription.path) = some (parent, name) →
    nodePaths.child parent name = validPath nodeDescription.path ∨
      s.registered (nodePaths.child parent name) = true

/-- Nothing has been lost, the node of the description is there, and the nodes that have come in
are new and lie on its path. -/
structure Grown (s s' : DistributedNodesRegistry) (nodeDescription : DSANodeDescription)
    (ref : DSANodeRef) : Prop where
  inv : TreeInv s'
  found : s'.registry.get (validPath nodeDescription.path) = some ref
  kept : ∀ path node, s.registry.get path = some node → s'.registry.get path = some node
  come : ∀ path node, s'.registry.get path = some node → s.registry.get path = some node ∨
    s.nextId ≤ node.id ∧ (segments path).length ≤ (segments nodeDescription.path).length
  nextId : s.nextId ≤ s'.nextId

variable {s s' : DistributedNodesRegistry} {nodeDescription : DSANodeDescription} {ref : DSANodeRef}

theorem Created.grown (h : Created s s' (validPath nodeDescription.path) ref) (hinv : TreeInv s') :
    Grown s s' nodeDescription ref := by
  constructor
  · exact hinv
  · rw [h.registry, if_pos rfl]
  · intro path node hnode
    rw [h.registry, if_neg]
    · exact hnode
    · rintro rfl
      rw [h.unregistered] at hnode
      cases hnode
  · intro path node hnode
    rw [h.registry] at hnode
    split_ifs at hnode with heq
    · cases hnode
      right
      rw [h.id, heq, segments_validPath]
      exact ⟨le_refl _, le_refl _⟩
    · exact Or.inl hnode
  · rw [h.nextId]
    omega

/-- The ancestors are looked up first. -/
theorem Grown.trans {s'' : DistributedNodesRegistry} {ancestor : DSANodeDescription}
    {ancestorRef : DSANodeRef} (h : Grown s s' ancestor ancestorRef)
    (hlength : (segments ancestor.path).length ≤ (segments nodeDescription.path).length)
    (h' : Grown s' s'' nodeDescription ref) : Grown s s'' nodeDescription ref := by
  have hle := h.nextId
  constructor
  · exact h'.inv
  · exact h'.found
  · exact fun path node hnode => h'.kept path node (h.kept path node hnode)
  · intro path node hnode
    rcases h'.come path node hnode with hold | ⟨hid, hpath⟩
    · rcases h.come path node hold with hbefore | ⟨hid, hpath⟩
      · exact Or.inl hbefore
      · exact Or.inr ⟨hid, hpath.trans hlength⟩
    · exact Or.inr ⟨hle.trans hid, hpath⟩
  · exact hle.trans h'.nextId

theorem Grown.getOrElse (h : TreeInv s)
    {createNewNode : DistributedNodesRegistry → DistributedNodesRegistry × DSANodeRef}
    (hcreate : s.registry.get (validPath nodeDescription.path) = none →
      Grown s ((createNewNode s).1.register (validPath nodeDescription.path) nodeDescription
        (createNewNode s).2) nodeDescription (createNewNode s).2) :
    Grown s (s.getOrElse nodeDescription createNewNode).1 nodeDescription
      (s.getOrElse nodeDescription createNewNode).2 := by
  rw [DistributedNodesRegistry.getOrElse]
  cases hfound : s.registry.get (validPath nodeDescription.path) with
  | none => exact hcreate hfound
  | some node =>
    exact ⟨h, hfound, fun _ _ hnode => hnode, fun _ _ hnode => Or.inl hnode, le_refl _⟩

theorem grown_root (h : TreeInv s) (actions : List ActionDescription)
    (hroot : nodePaths.parent (validPath nodeDescription.path) = none) :
    Grown s (s.getOrElse nodeDescription fun s => s.newNode nodeDescription actions).1
      nodeDescription
      (s.getOrElse nodeDescription fun s => s.newNode nodeDescription actions).2 := by
  apply Grown.getOrElse h
  intro hnew
  have hcreated := created_root actions hnew hroot
  apply hcreated.grown
  apply h.created hcreated
  intro parent name hparent
  rw [hroot] at hparent
  cases hparent

/-- The path of a parent is spelled properly. -/
theorem spelled_pathOf {names : List Str} (hne : names ≠ []) (h : ∀ name ∈ names, IsName name)
    (profile valueType : Option Str) : s.Spelled (.init (pathOf names) profile valueType) := by
  intro parent name hparent
  left
  show parent ++ slash :: name = validPath (pathOf names)
  rw [parent_eq_some] at hparent
  obtain ⟨front, _, hsegments, rfl⟩ := exists_names_of_parentPath hparent
  have hnames : names = front ++ [name] := by
    rw [← hsegments, segments_validPath]
    exact (segments_pathOf h).symm
  rw [validPath_pathOf hne, hnames, pathOf_concat]

theorem get_none_of_validPath (h : TreeInv s) {path : Str}
    (hnew : s.registry.get (validPath path) = none) : s.registry.get path = none := by
  cases hget : s.registry.get path with
  | none => rfl
  | some node =>
    have habsolute := h.absolute hget
    rw [validPath, if_pos habsolute, hget] at hnew
    cases hnew

/-- What `getOrCreateNode` keeps, by recursion from the parents down: the ancestors that are missing
come first, and then the node itself, whose parent is there by now. -/
theorem getOrCreate_spec : (names : List Str) → (nodeDescription : DSANodeDescription) →
    (s : DistributedNodesRegistry) → segments nodeDescription.path = names.reverse → TreeInv s →
    s.Spelled nodeDescription →
    Grown s (getOrCreate names nodeDescription s).1 nodeDescription
      (getOrCreate names nodeDescription s).2
  | [], nodeDescription, s, hsegments, h, _ => by
    apply grown_root h
    apply parent_eq_none
    rw [segments_validPath, hsegments]
    simp
  | [name], nodeDescription, s, hsegments, h, _ => by
    apply grown_root h
    apply parent_eq_none
    rw [segments_validPath, hsegments]
    simp
  | name :: next :: rest, nodeDescription, s, hsegments, h, hspelled => by
    rw [getOrCreate]
    apply Grown.getOrElse h
    intro hnew
    dsimp only
    -- the path is that of the parent with one name more, and the parent is created first
    have hconcat : segments nodeDescription.path = (next :: rest).reverse ++ [name] := by
      rw [hsegments, List.reverse_cons]
    have hne : (next :: rest).reverse ≠ [] := by simp
    have hnames : ∀ other ∈ (next :: rest).reverse, IsName other := by
      intro other hother
      apply isName_of_mem_segments
      rw [hconcat]
      exact List.mem_append_left _ hother
    have hparentSegments : segments (pathOf (next :: rest).reverse) = (next :: rest).reverse :=
      segments_pathOf hnames
    have hgrown := getOrCreate_spec (next :: rest)
      (.init (pathOf (next :: rest).reverse) none none) s hparentSegments h
      (spelled_pathOf hne hnames none none)
    generalize getOrCreate (next :: rest) (.init (pathOf (next :: rest).reverse) none none) s =
      result at hgrown ⊢
    obtain ⟨s₁, parentNode⟩ := result
    dsimp only at hgrown ⊢
    have hlength : (segments nodeDescription.path).length = (next :: rest).length + 1 := by
      rw [hconcat, List.length_append, List.length_reverse]
      rfl
    -- creating the parent registers nothing as long as this path
    have hnew₁ : s₁.registry.get (validPath nodeDescription.path) = none := by
      cases hget : s₁.registry.get (validPath nodeDescription.path) with
      | none => rfl
      | some node =>
        rcases hgrown.come _ node hget with hold | ⟨_, hle⟩
        · rw [hnew] at hold
          cases hold
        · rw [segments_validPath, hlength, DSANodeDescription.path_init, hparentSegments,
            List.length_reverse] at hle
          omega
    have hnode : s₁.registry.get (pathOf (next :: rest).reverse) = some parentNode := by
      have hfound := hgrown.found
      rwa [DSANodeDescription.path_init, validPath_pathOf hne] at hfound
    have hparent : nodePaths.parent (validPath nodeDescription.path) =
        some (pathOf (next :: rest).reverse, name) := by
      rw [parent_eq_some, parentPath_of_segments ((segments_validPath _).trans hconcat), if_neg]
      simp
    -- then the node itself is created, below a parent that is there
    have hcreated := created_child hnew₁ (get_none_of_validPath hgrown.inv hnew₁) hparent hnode
    apply hgrown.trans
    · show (segments (pathOf (next :: rest).reverse)).length ≤ _
      rw [hparentSegments, hlength, List.length_reverse]
      omega
    · apply hcreated.grown
      apply hgrown.inv.created hcreated
      intro parent name' hparent'
      cases hparent.symm.trans hparent'
      refine ⟨registered_iff.mpr ⟨parentNode, hnode⟩, ?_⟩
      rcases hspelled _ _ hparent with hpath | hregistered
      · exact Or.inl hpath
      · obtain ⟨node, hget⟩ := registered_iff.mp hregistered
        exact Or.inr (registered_iff.mpr ⟨node, hgrown.kept _ node hget⟩)

theorem getOrCreateNode_spec (h : TreeInv s) (hspelled : s.Spelled nodeDescription) :
    Grown s (s.getOrCreateNode nodeDescription).1 nodeDescription
      (s.getOrCreateNode nodeDescription).2 :=
  getOrCreate_spec _ nodeDescription s (List.reverse_reverse _).symm h hspelled

end DistributedNodesRegistry
end DsaBroker
