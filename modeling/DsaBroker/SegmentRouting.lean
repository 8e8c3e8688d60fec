import DsaBroker.DSLinkManager

/-!
# Routing by the segments of a path

The case lists of the managers ask what a path starts with, not where its first segments end:
a path that goes on behind a prefix with another character than a slash is taken for a path
under the prefix, and the character is dropped with the slash that it is taken for.  The
case list of the clustered manager for questions has drifted away from the one for messages.

Here it is said what routing by segments is, and for which paths the managers do it.
-/

namespace DsaBroker

/-- The path is the prefix, or continues it with a slash. -/
def Continues (start path : Str) : Prop :=
  path = start ∨ startsWith path (start ++ [slash]) = true

instance (start path : Str) : Decidable (Continues start path) :=
  inferInstanceAs (Decidable (_ ∨ _))

/-- The first segment. -/
def firstSegment (path : Str) : Str := path.takeWhile fun c => c ≠ slash

/-- The case that takes the path is one for the folder or for a link in it. -/
def DSLinkManager.TreatsAsLink (manager : DSLinkManager) (folder : LinkFolder) (path : Str) :
    Prop :=
  manager.routeCase path = .folder folder ∨ manager.routeCase path = .link folder

instance (manager : DSLinkManager) (folder : LinkFolder) (path : Str) :
    Decidable (manager.TreatsAsLink folder path) := inferInstanceAs (Decidable (_ ∨ _))

/-- A path is routed by its segments: by case, to the link that it names, and in the same way
if an answer is awaited. -/
structure DSLinkManager.RespectsSegments (manager : DSLinkManager) (path : Str) : Prop where
  links : ∀ folder, manager.TreatsAsLink folder path ↔ Continues folder.path path
  nodes : manager = .clustered → ∀ node : DistributedNode,
    manager.routeCase path = .distributed node ↔ Continues node.path path
  named : ∀ (folder : LinkFolder) rest, path = folder.path ++ slash :: rest →
    manager.dsaSend path = .ofRoutee (manager.getLinkRoutee folder (firstSegment rest))
  asked : manager.dsaAsk path = manager.dsaSend path

/-- Nothing follows the first segment; for the local manager, no further segment does. -/
def DSLinkManager.IsSingle : DSLinkManager → Str → Bool
  | .localManager, rest => (rest.dropWhile fun c => c ≠ slash).all fun c => c = slash
  | .clustered, rest => (rest.dropWhile fun c => c ≠ slash).isEmpty

/-- The paths that are routed by their segments: those under the prefix of a folder name the
folder or one link; in a cluster a path is besides of none of the distributed nodes. -/
def DSLinkManager.RoutedWell (manager : DSLinkManager) (path : Str) : Prop :=
  (∀ folder : LinkFolder, startsWith path folder.path = true →
    path = folder.path ∨ startsWith path (folder.path ++ [slash]) = true ∧
      manager.IsSingle (path.drop (folder.path.length + 1)) = true) ∧
  (manager = .clustered →
    (∀ node : DistributedNode, startsWith path node.path = false) ∧ path ≠ sysPath)

/-! ### The cases -/

theorem startsWith_self_append (start rest : Str) : startsWith (start ++ rest) start = true :=
  startsWith_iff.mpr (List.prefix_append start rest)

theorem exists_rest_of_startsWith {path start : Str}
    (h : startsWith path (start ++ [slash]) = true) : ∃ rest, path = start ++ slash :: rest := by
  obtain ⟨rest, rfl⟩ := startsWith_iff.mp h
  exact ⟨rest, by rw [List.append_assoc, List.singleton_append]⟩

theorem continues_iff {start path : Str} :
    Continues start path ↔ path = start ∨ ∃ rest, path = start ++ slash :: rest := by
  apply or_congr Iff.rfl
  constructor
  · exact exists_rest_of_startsWith
  · rintro ⟨rest, rfl⟩
    rw [← List.singleton_append, ← List.append_assoc]
    exact startsWith_self_append _ _

theorem startsWith_of_continues {start path : Str} (h : Continues start path) :
    startsWith path start = true := by
  rcases continues_iff.mp h with rfl | ⟨rest, rfl⟩
  · exact startsWith_iff.mpr (List.prefix_refl _)
  · exact startsWith_self_append _ _

/-- A path starts with one at most of two prefixes that do not start with each other. -/
theorem startsWith_unique {path a b : Str} (ha : startsWith path a = true)
    (hab : startsWith a b = false) (hba : startsWith b a = false) : startsWith path b = false := by
  rw [Bool.eq_false_iff] at hab hba ⊢
  intro hb
  rw [Ne, startsWith_iff] at hab hba
  rw [startsWith_iff] at ha hb
  rcases Nat.le_total a.length b.length with h | h
  · exact hba (List.prefix_of_prefix_length_le ha hb h)
  · exact hab (List.prefix_of_prefix_length_le hb ha h)

theorem startsWith_other_folder {path : Str} {folder other : LinkFolder}
    (h : startsWith path folder.path = true) (hne : other ≠ folder) :
    startsWith path other.path = false := by
  apply startsWith_unique h
  · cases folder <;> cases other <;> first | exact absurd rfl hne | decide
  · cases folder <;> cases other <;> first | exact absurd rfl hne | decide

theorem startsWith_node_of_folder {path : Str} {folder : LinkFolder} (node : DistributedNode)
    (h : startsWith path folder.path = true) : startsWith path node.path = false := by
  apply startsWith_unique h
  · cases folder <;> cases node <;> decide
  · cases folder <;> cases node <;> decide

theorem startsWith_other_node {path : Str} {node other : DistributedNode}
    (h : startsWith path node.path = true) (hne : other ≠ node) :
    startsWith path other.path = false := by
  apply startsWith_unique h
  · cases node <;> cases other <;> first | exact absurd rfl hne | decide
  · cases node <;> cases other <;> first | exact absurd rfl hne | decide

theorem startsWith_folder_of_node {path : Str} {node : DistributedNode} (folder : LinkFolder)
    (h : startsWith path node.path = true) : startsWith path folder.path = false := by
  apply startsWith_unique h
  · cases folder <;> cases node <;> decide
  · cases folder <;> cases node <;> decide

/-- Only one folder can have a path under it. -/
theorem folder_unique {path : Str} {folder other : LinkFolder}
    (h : startsWith path folder.path = true) :
    startsWith path other.path = true ↔ other = folder := by
  constructor
  · intro hother
    by_contra hne
    rw [startsWith_other_folder h hne] at hother
    cases hother
  · rintro rfl
    exact h

theorem node_unique {path : Str} {node other : DistributedNode}
    (h : startsWith path node.path = true) :
    startsWith path other.path = true ↔ other = node := by
  constructor
  · intro hother
    by_contra hne
    rw [startsWith_other_node h hne] at hother
    cases hother
  · rintro rfl
    exact h

namespace LocalDSLinkManager

theorem routeCase_folder {path : Str} {folder : LinkFolder}
    (h : startsWith path folder.path = true) : routeCase path = .link folder := by
  cases folder with
  | downstream => exact if_pos h
  | upstream =>
    have hdown : startsWith path downstream = false :=
      @startsWith_other_folder path .upstream .downstream h (by decide)
    rw [routeCase, hdown, if_neg Bool.false_ne_true]
    exact if_pos h

theorem routeCase_root {path : Str}
    (h : ∀ folder : LinkFolder, startsWith path folder.path = false) : routeCase path = .root := by
  have hdown : startsWith path downstream = false := h .downstream
  have hup : startsWith path upstream = false := h .upstream
  rw [routeCase, hdown, hup, if_neg Bool.false_ne_true, if_neg Bool.false_ne_true]

end LocalDSLinkManager

namespace ClusteredDSLinkManager

theorem routeCase_folder {path : Str} {folder : LinkFolder}
    (h : startsWith path folder.path = true) :
    routeCase path = if path = folder.path then .folder folder else .link folder := by
  cases folder with
  | downstream =>
    have hdown : startsWith path downstream = true := h
    simp only [routeCase, hdown, if_true]
    rfl
  | upstream =>
    have hup : startsWith path upstream = true := h
    have hdown : startsWith path downstream = false :=
      @startsWith_other_folder path .upstream .downstream h (by decide)
    have hne : path ≠ downstream := by
      rintro rfl
      exact absurd hup (by decide)
    simp only [routeCase, hdown, hup, hne, if_true, if_false, Bool.false_eq_true]
    rfl

theorem askCase_folder {path : Str} {folder : LinkFolder}
    (h : startsWith path folder.path = true) : askCase path = routeCase path := by
  rw [routeCase_folder h]
  cases folder with
  | downstream =>
    have hdown : startsWith path downstream = true := h
    simp only [askCase, hdown, if_true]
    rfl
  | upstream =>
    have hup : startsWith path upstream = true := h
    have hdown : startsWith path downstream = false :=
      @startsWith_other_folder path .upstream .downstream h (by decide)
    have hne : path ≠ downstream := by
      rintro rfl
      exact absurd hup (by decide)
    simp only [askCase, hdown, hup, hne, if_true, if_false, Bool.false_eq_true]
    rfl

section

variable {path : Str} (hno : ∀ folder : LinkFolder, startsWith path folder.path = false)

include hno

theorem no_folder : startsWith path downstream = false ∧ startsWith path upstream = false ∧
    path ≠ downstream ∧ path ≠ upstream := by
  have hdown : startsWith path downstream = false := hno .downstream
  have hup : startsWith path upstream = false := hno .upstream
  refine ⟨hdown, hup, ?_, ?_⟩
  · rintro rfl
    exact absurd hdown (by decide)
  · rintro rfl
    exact absurd hup (by decide)

theorem routeCase_other :
    routeCase path =
      if startsWith path DistributedNode.data.path = true then .distributed .data
      else if path = sysPath then .sys
      else if startsWith path DistributedNode.tokens.path = true then .distributed .tokens
      else if startsWith path DistributedNode.roles.path = true then .distributed .roles
      else .root := by
  obtain ⟨hdown, hup, hdown', hup'⟩ := no_folder hno
  simp only [routeCase, hdown, hup, hdown', hup', if_false, Bool.false_eq_true]
  by_cases hdata : path = DistributedNode.data.path
  · rw [if_pos hdata, if_pos (by rw [hdata]; decide)]
  · rw [if_neg hdata]
    by_cases hsys : path = sysPath
    · rw [if_pos hsys, if_neg (by rw [hsys]; decide), if_pos hsys]
    · rw [if_neg hsys, if_neg hsys]

theorem askCase_other :
    askCase path =
      if startsWith path DistributedNode.data.path = true then .distributed .data
      else if startsWith path DistributedNode.tokens.path = true then .distributed .tokens
      else if startsWith path DistributedNode.roles.path = true then .distributed .roles
      else .root := by
  obtain ⟨hdown, hup, hdown', hup'⟩ := no_folder hno
  simp only [askCase, hdown, hup, hdown', hup', if_false, Bool.false_eq_true]
  by_cases hdata : path = DistributedNode.data.path
  · rw [if_pos hdata, if_pos (by rw [hdata]; decide)]
  · rw [if_neg hdata]

end

theorem routeCase_node {path : Str} {node : DistributedNode}
    (h : startsWith path node.path = true) : routeCase path = .distributed node := by
  have hsys : path ≠ sysPath := by
    rintro rfl
    cases node <;> exact absurd h (by decide)
  rw [routeCase_other fun folder => startsWith_folder_of_node folder h]
  simp only [node_unique h, hsys, if_false]
  cases node <;> rfl

theorem askCase_node {path : Str} {node : DistributedNode}
    (h : startsWith path node.path = true) : askCase path = .distributed node := by
  rw [askCase_other fun folder => startsWith_folder_of_node folder h]
  simp only [node_unique h]
  cases node <;> rfl

/-- A path under no folder and of no distributed node is the one of `/sys` or is left to the
root node. -/
theorem routeCase_rest {path : Str}
    (hno : ∀ folder : LinkFolder, startsWith path folder.path = false)
    (hnodes : ∀ node : DistributedNode, startsWith path node.path = false) :
    routeCase path = (if path = sysPath then .sys else .root) ∧ askCase path = .root := by
  rw [routeCase_other hno, askCase_other hno]
  simp only [hnodes, if_false, Bool.false_eq_true, and_self]

end ClusteredDSLinkManager

/-- Whatever starts with the path of a folder is taken for a path of it. -/
theorem DSLinkManager.treatsAsLink_iff (manager : DSLinkManager) (folder : LinkFolder)
    (path : Str) : manager.TreatsAsLink folder path ↔ startsWith path folder.path = true := by
  by_cases hfolder : ∃ other : LinkFolder, startsWith path other.path = true
  · obtain ⟨other, hother⟩ := hfolder
    rw [folder_unique hother]
    cases manager with
    | localManager =>
      rw [TreatsAsLink, routeCase, LocalDSLinkManager.routeCase_folder hother]
      simp only [reduceCtorEq, false_or, RouteCase.link.injEq]
      exact eq_comm
    | clustered =>
      rw [TreatsAsLink, routeCase, ClusteredDSLinkManager.routeCase_folder hother]
      split_ifs
      · simp only [or_false, RouteCase.folder.injEq]
        exact eq_comm
      · simp only [false_or, RouteCase.link.injEq]
        exact eq_comm
  · have hno : ∀ other : LinkFolder, startsWith path other.path = false := by
      intro other
      rw [Bool.eq_false_iff]
      exact fun h => hfolder ⟨other, h⟩
    rw [hno folder]
    cases manager with
    | localManager =>
      simp [TreatsAsLink, routeCase, LocalDSLinkManager.routeCase_root hno]
    | clustered =>
      simp only [TreatsAsLink, routeCase, ClusteredDSLinkManager.routeCase_other hno]
      split_ifs <;> simp

theorem ClusteredDSLinkManager.treatsAsNode_iff (node : DistributedNode) (path : Str) :
    routeCase path = .distributed node ↔ startsWith path node.path = true := by
  constructor
  · intro h
    by_cases hfolder : ∃ other : LinkFolder, startsWith path other.path = true
    · obtain ⟨other, hother⟩ := hfolder
      rw [routeCase_folder hother] at h
      split_ifs at h
    · have hno : ∀ other : LinkFolder, startsWith path other.path = false := by
        intro other
        rw [Bool.eq_false_iff]
        exact fun hother => hfolder ⟨other, hother⟩
      by_cases hnode : ∃ other : DistributedNode, startsWith path other.path = true
      · obtain ⟨other, hother⟩ := hnode
        rw [routeCase_node hother] at h
        rwa [← RouteCase.distributed.inj h]
      · have hnone : ∀ other : DistributedNode, startsWith path other.path = false := by
          intro other
          rw [Bool.eq_false_iff]
          exact fun hother => hnode ⟨other, hother⟩
        rw [(routeCase_rest hno hnone).1] at h
        split_ifs at h
  · exact routeCase_node

/-! ### The link that is picked -/

theorem segments_eq_nil {path : Str} :
    segments path = [] ↔ (path.all fun c => c = slash) = true := by
  have hempty : (∀ field ∈ fields path, field.isEmpty = true) ↔
      path = List.replicate path.length slash := fields_all_empty
  rw [List.eq_replicate_iff] at hempty
  rw [segments, List.filter_eq_nil_iff, List.all_eq_true]
  simp only [Bool.not_eq_true', Bool.not_eq_false, decide_eq_true_eq]
  rw [hempty]
  exact and_iff_right rfl

theorem segments_path (folder : LinkFolder) (rest : Str) :
    segments (folder.path ++ slash :: rest) = folder.nodeName :: segments rest := by
  rw [segments_append, segments_folder_path, List.singleton_append]

theorem urlEncode_nodeName (folder : LinkFolder) :
    urlEncode folder.nodeName = folder.nodeName := by
  apply urlEncode_eq_self.mpr
  cases folder <;> decide

theorem folder_path_eq (folder : LinkFolder) : folder.path = slash :: folder.nodeName := by
  cases folder <;> rfl

theorem segments_userPath : segments userPath = [str "user"] := by decide

theorem LocalDSLinkManager.dsaSend_link (folder : LinkFolder) (rest : Str) :
    dsaSend (folder.path ++ slash :: rest) =
      .selected ((str "user" :: folder.nodeName :: (segments rest).map urlEncode).map
        selectionElement) := by
  have hcase := routeCase_folder (startsWith_self_append folder.path (slash :: rest))
  have hsegments : segments (userPath ++ dsaToAkkaPath (folder.path ++ slash :: rest)) =
      str "user" :: folder.nodeName :: (segments rest).map urlEncode := by
    have hpath : folder.path ++ slash :: rest = slash :: (folder.nodeName ++ slash :: rest) := by
      rw [folder_path_eq, List.cons_append]
    have hrest : segments (folder.nodeName ++ slash :: rest) =
        folder.nodeName :: segments rest := by
      rw [← segments_slash, ← hpath, segments_path]
    rw [hpath, segments_append_dsaToAkkaPath, hrest, List.map_cons, urlEncode_nodeName,
      segments_userPath, List.singleton_append]
  rw [dsaSend, hcase]
  show Destination.selected (actorSelection _) = _
  rw [actorSelection, hsegments]

theorem LocalDSLinkManager.ofRoutee_link (folder : LinkFolder) (name : Str) :
    Destination.ofRoutee (getLinkRoutee folder name) =
      .selected ((str "user" :: folder.nodeName :: (segments name).map urlEncode).map
        selectionElement) := by
  rw [getLinkRoutee, Destination.ofRoutee, actorSelection, segments_getLinkRoutee]

theorem firstSegment_append (rest : Str) :
    firstSegment rest ++ rest.dropWhile (fun c => c ≠ slash) = rest :=
  List.takeWhile_append_dropWhile

/-- No segment follows the first one just if only slashes do. -/
theorem segments_firstSegment (rest : Str) :
    ∃ later, segments rest = segments (firstSegment rest) ++ later ∧
      (later = [] ↔ DSLinkManager.localManager.IsSingle rest = true) := by
  have hrest := firstSegment_append rest
  have hhead := List.head?_dropWhile_not (fun c => decide (c ≠ slash)) rest
  rw [DSLinkManager.IsSingle]
  cases htail : rest.dropWhile fun c => c ≠ slash with
  | nil =>
    rw [htail, List.append_nil] at hrest
    exact ⟨[], by rw [hrest, List.append_nil], iff_of_true rfl rfl⟩
  | cons c more =>
    have hc : c = slash := by
      rw [htail] at hhead
      simpa using hhead
    rw [htail, hc] at hrest
    refine ⟨segments more, by rw [← segments_append, hrest], ?_⟩
    rw [hc, List.all_cons, segments_eq_nil, decide_eq_true rfl, Bool.true_and]

/-- The local manager picks the link that is named if no further segment follows. -/
theorem LocalDSLinkManager.named_iff (folder : LinkFolder) (rest : Str) :
    dsaSend (folder.path ++ slash :: rest) =
        .ofRoutee (getLinkRoutee folder (firstSegment rest)) ↔
      DSLinkManager.localManager.IsSingle rest = true := by
  obtain ⟨later, hsegments, hlater⟩ := segments_firstSegment rest
  rw [dsaSend_link, ofRoutee_link, ← hlater, hsegments]
  constructor
  · intro h
    have hlength := congrArg List.length (Destination.selected.inj h)
    simp only [List.length_map, List.length_cons, List.length_append] at hlength
    exact List.eq_nil_of_length_eq_zero (by omega)
  · rintro rfl
    rw [List.append_nil]

/-- The clustered manager picks it if nothing follows at all. -/
theorem ClusteredDSLinkManager.named_iff (folder : LinkFolder) (rest : Str) :
    dsaSend (folder.path ++ slash :: rest) =
        .ofRoutee (getLinkRoutee folder (firstSegment rest)) ↔
      DSLinkManager.clustered.IsSingle rest = true := by
  have hne : folder.path ++ slash :: rest ≠ folder.path := by
    intro h
    exact List.cons_ne_nil _ _ (List.append_right_eq_self.mp h)
  have hdrop : (folder.path ++ slash :: rest).drop (folder.path.length + 1) = rest := by
    rw [← List.drop_drop, List.drop_left, List.drop_one, List.tail_cons]
  have hcase := routeCase_folder (startsWith_self_append folder.path (slash :: rest))
  rw [if_neg hne] at hcase
  simp only [dsaSend, hcase, hdrop, getLinkRoutee, Destination.ofRoutee, Destination.entity.injEq,
    true_and]
  have hrest := firstSegment_append rest
  rw [DSLinkManager.IsSingle, List.isEmpty_iff]
  constructor
  · intro h
    rw [← h] at hrest
    exact List.append_right_eq_self.mp hrest
  · intro h
    rw [h, List.append_nil] at hrest
    exact hrest.symm

theorem DSLinkManager.named_iff (manager : DSLinkManager) (folder : LinkFolder) (rest : Str) :
    manager.dsaSend (folder.path ++ slash :: rest) =
        .ofRoutee (manager.getLinkRoutee folder (firstSegment rest)) ↔
      manager.IsSingle rest = true := by
  cases manager with
  | localManager => exact LocalDSLinkManager.named_iff folder rest
  | clustered => exact ClusteredDSLinkManager.named_iff folder rest

/-! ### Messages and questions -/

/-- A question takes the way of a message just if the path is of no distributed node. -/
theorem ClusteredDSLinkManager.asked_iff (path : Str) :
    dsaAsk path = dsaSend path ↔
      (∀ node : DistributedNode, startsWith path node.path = false) ∧ path ≠ sysPath := by
  by_cases hfolder : ∃ other : LinkFolder, startsWith path other.path = true
  · obtain ⟨other, hother⟩ := hfolder
    have hsys : path ≠ sysPath := by
      rintro rfl
      cases other <;> exact absurd hother (by decide)
    refine iff_of_true ?_ ⟨fun node => startsWith_node_of_folder node hother, hsys⟩
    rw [dsaAsk, dsaSend, askCase_folder hother, routeCase_folder hother]
    split_ifs
    · rfl
    · rfl
  · have hno : ∀ other : LinkFolder, startsWith path other.path = false := by
      intro other
      rw [Bool.eq_false_iff]
      exact fun hother => hfolder ⟨other, hother⟩
    by_cases hnode : ∃ node : DistributedNode, startsWith path node.path = true
    · obtain ⟨node, hnode⟩ := hnode
      refine iff_of_false ?_ ?_
      · rw [dsaAsk, dsaSend, askCase_node hnode, routeCase_node hnode]
        cases node <;> exact Destination.noConfusion
      · rintro ⟨hnone, -⟩
        rw [hnone node] at hnode
        cases hnode
    · -- no case before `/sys` applies
      have hnone : ∀ node : DistributedNode, startsWith path node.path = false := by
        intro node
        rw [Bool.eq_false_iff]
        exact fun h => hnode ⟨node, h⟩
      obtain ⟨hsend, hask⟩ := routeCase_rest hno hnone
      rw [dsaAsk, dsaSend, hask, hsend]
      by_cases hsys : path = sysPath
      · rw [if_pos hsys]
        exact iff_of_false Destination.noConfusion fun h => h.2 hsys
      · rw [if_neg hsys]
        exact iff_of_true rfl ⟨hnone, hsys⟩

/-! ### When the managers route by segments -/

/-- A manager routes a path by its segments just if the path is one that is routed well. -/
theorem DSLinkManager.respectsSegments_iff (manager : DSLinkManager) (path : Str) :
    manager.RespectsSegments path ↔ manager.RoutedWell path := by
  have hdrop : ∀ (folder : LinkFolder) rest,
      (folder.path ++ slash :: rest).drop (folder.path.length + 1) = rest := by
    intro folder rest
    rw [← List.drop_drop, List.drop_left, List.drop_one, List.tail_cons]
  constructor
  · intro h
    refine ⟨?_, ?_⟩
    · -- a path that begins like a folder must be the folder, or go on with a slash behind it
      intro folder hstart
      rcases (h.links folder).mp ((manager.treatsAsLink_iff folder path).mpr hstart) with
        heq | hslash
      · exact Or.inl heq
      · obtain ⟨rest, rfl⟩ := exists_rest_of_startsWith hslash
        refine Or.inr ⟨hslash, ?_⟩
        rw [hdrop]
        exact (manager.named_iff folder rest).mp (h.named folder rest rfl)
    · rintro rfl
      exact (ClusteredDSLinkManager.asked_iff path).mp h.asked
  · rintro ⟨hlinks, hnodes⟩
    refine ⟨?_, ?_, ?_, ?_⟩
    · intro folder
      rw [treatsAsLink_iff]
      constructor
      · intro hstart
        exact (hlinks folder hstart).imp_right And.left
      · exact startsWith_of_continues
    · rintro rfl node
      show ClusteredDSLinkManager.routeCase path = _ ↔ _
      rw [ClusteredDSLinkManager.treatsAsNode_iff, (hnodes rfl).1 node]
      refine iff_of_false Bool.false_ne_true ?_
      intro hcontinues
      have hstart := startsWith_of_continues hcontinues
      rw [(hnodes rfl).1 node] at hstart
      cases hstart
    · rintro folder rest rfl
      rw [named_iff]
      rcases hlinks folder (startsWith_self_append _ _) with heq | ⟨-, hsingle⟩
      · exact absurd (List.append_right_eq_self.mp heq) (List.cons_ne_nil _ _)
      · rwa [hdrop] at hsingle
    · cases manager with
      | localManager => rfl
      | clustered => exact (ClusteredDSLinkManager.asked_iff path).mpr (hnodes rfl)

/-- Behind `/downstream-x` the clustered manager sees the link `x`, the local one an actor beside
the folder; `/dataset` is taken for a distributed node; and where `/sys/tokens` is asked, it is
not the node that answers. -/
theorem DSLinkManager.segments_disregarded :
    (¬ DSLinkManager.localManager.RespectsSegments (str "/downstream-x") ∧
      DSLinkManager.localManager.dsaSend (str "/downstream-x") =
        .selected [.childName (str "user"), .childName (str "downstream-x")]) ∧
    (¬ DSLinkManager.clustered.RespectsSegments (str "/downstream-x") ∧
      DSLinkManager.clustered.dsaSend (str "/downstream-x") =
        .entity (str "downstream") (str "x")) ∧
    ¬ DSLinkManager.clustered.RespectsSegments (str "/dataset") ∧
    ¬ DSLinkManager.clustered.RespectsSegments (str "/sys/tokens") := by
  refine ⟨⟨?_, by decide +kernel⟩, ⟨?_, by decide +kernel⟩, ?_, ?_⟩
  · intro h
    exact absurd ((h.links .downstream).mp (by decide +kernel)) (by decide +kernel)
  · intro h
    exact absurd ((h.links .downstream).mp (by decide +kernel)) (by decide +kernel)
  · intro h
    exact absurd ((h.nodes rfl .data).mp (by decide +kernel)) (by decide +kernel)
  · intro h
    exact absurd h.asked (by decide +kernel)

end DsaBroker
