import DsaBroker.LinkRouting
import Mathlib.Data.List.DropRight

/-!
# Attributes and configs at the end of a path

`isAttribute` and `isConfig` are patterns, `splitPath` is a computation on the fields of a path; the
handler of SET relies on their agreement when it takes the attribute's name without asking whether
there is one.  Both see the same last segment: a path that ends in an attribute or a config is split
just before it, and joined again gives the path (`paths_split_back`).
-/

namespace DsaBroker

/-! ### Configs -/

/-- The longest tail that `[^/\$]+` can match. -/
def configTail (path : Str) : Str :=
  (path.reverse.takeWhile fun c => c ≠ slash && c ≠ dollar).reverse

/-- `.*` and then the mark, without what `.` does not match. -/
def endsInMark (front mark : Str) : Bool :=
  endsWith front mark && (dropRight front mark.length).all fun c => !isLineTerminator c

/-- Returns `true` if the path represents a config: `path matches ".*/\\$\\$?[^/\\$]+"`. -/
def isConfig (path : Str) : Bool :=
  let tail := configTail path
  let front := dropRight path tail.length
  !tail.isEmpty && (endsInMark front [slash, dollar] || endsInMark front [slash, dollar, dollar])

example : isConfig (str "/a/$is") = true ∧ isConfig (str "/a/$$x") = true ∧
    isConfig (str "/a/$$$x") = false := by decide

/-! ### What the patterns match -/

/-- The path is a node, the mark and a tail of what the predicate admits. -/
def MatchesMark (p : UInt16 → Bool) (mark path : Str) : Prop :=
  ∃ node tail, path = node ++ mark ++ tail ∧ tail ≠ [] ∧ (∀ c ∈ tail, p c = true) ∧
    ∀ c ∈ node, isLineTerminator c = false

theorem rtakeWhile_append {p : UInt16 → Bool} {front tail : Str} (htail : ∀ c ∈ tail, p c = true)
    (hlast : ∀ h : front ≠ [], p (front.getLast h) = false) :
    (front ++ tail).rtakeWhile p = tail := by
  induction tail using List.reverseRecOn with
  | nil =>
    rw [List.append_nil, List.rtakeWhile_eq_nil_iff]
    intro hne
    rw [hlast hne]
    exact Bool.false_ne_true
  | append_singleton tail c ih =>
    have hc := htail c (List.mem_append_right _ (List.mem_singleton.mpr rfl))
    rw [← List.append_assoc, List.rtakeWhile_concat_pos _ _ _ hc,
      ih fun d hd => htail d (List.mem_append_left _ hd)]

theorem endsInMark_iff {front mark : Str} :
    endsInMark front mark = true ↔
      ∃ node, front = node ++ mark ∧ ∀ c ∈ node, isLineTerminator c = false := by
  rw [endsInMark, Bool.and_eq_true, endsWith, List.isSuffixOf_iff_suffix]
  constructor
  · rintro ⟨⟨node, rfl⟩, hall⟩
    rw [dropRight, List.length_append, Nat.add_sub_cancel, List.take_left] at hall
    refine ⟨node, rfl, ?_⟩
    intro c hc
    simpa using List.all_eq_true.mp hall c hc
  · rintro ⟨node, rfl, hnode⟩
    rw [dropRight, List.length_append, Nat.add_sub_cancel, List.take_left]
    refine ⟨⟨node, rfl⟩, List.all_eq_true.mpr ?_⟩
    intro c hc
    simpa using hnode c hc

/-- Taking the longest tail and looking for the mark before it is to match the pattern, as the
tail cannot reach into the mark. -/
theorem matchesMark_iff {p : UInt16 → Bool} {mark : Str} (hne : mark ≠ [])
    (hlast : p (mark.getLast hne) = false) (path : Str) :
    (path.rtakeWhile p ≠ [] ∧
        endsInMark (dropRight path (path.rtakeWhile p).length) mark = true) ↔
      MatchesMark p mark path := by
  rw [endsInMark_iff]
  constructor
  · rintro ⟨htail, node, hfront, hnode⟩
    obtain ⟨front, hpath⟩ := List.rtakeWhile_suffix p path
    have hlength : path.length - (path.rtakeWhile p).length = front.length := by
      have hsum := congrArg List.length hpath
      rw [List.length_append] at hsum
      omega
    have hdrop : dropRight path (path.rtakeWhile p).length = front := by
      have htake := @List.take_left _ front (path.rtakeWhile p)
      rwa [hpath, ← hlength] at htake
    refine ⟨node, path.rtakeWhile p, ?_, htail, ?_, hnode⟩
    · rw [← hfront, hdrop, hpath]
    · exact fun c hc => List.mem_rtakeWhile_imp hc
  · rintro ⟨node, tail, rfl, htail, hall, hnode⟩
    have htake : (node ++ mark ++ tail).rtakeWhile p = tail := by
      apply rtakeWhile_append hall
      intro h
      rw [List.getLast_append_of_ne_nil h hne]
      exact hlast
    rw [htake]
    refine ⟨htail, node, ?_, hnode⟩
    rw [dropRight, List.length_append, Nat.add_sub_cancel, List.take_left]

theorem isAttribute_iff (path : Str) :
    isAttribute path = true ↔
      MatchesMark (fun c => c ≠ slash && c ≠ atSign) [slash, atSign] path := by
  rw [← matchesMark_iff (List.cons_ne_nil _ _) (by decide) path]
  show (_ && _ && _) = true ↔ _
  rw [Bool.and_assoc, Bool.and_eq_true, Bool.not_eq_true', List.isEmpty_eq_false_iff]
  rfl

theorem isConfig_iff (path : Str) :
    isConfig path = true ↔
      MatchesMark (fun c => c ≠ slash && c ≠ dollar) [slash, dollar] path ∨
        MatchesMark (fun c => c ≠ slash && c ≠ dollar) [slash, dollar, dollar] path := by
  rw [← matchesMark_iff (List.cons_ne_nil _ _) (by decide) path,
    ← matchesMark_iff (List.cons_ne_nil _ _) (by decide) path, ← and_or_left]
  show (_ && (_ || _)) = true ↔ _
  rw [Bool.and_eq_true, Bool.or_eq_true, Bool.not_eq_true', List.isEmpty_eq_false_iff]
  rfl

/-! ### The last segment -/

theorem getLast?_split_append {node last : Str} (hlast : slash ∉ last) (hne : last ≠ []) :
    (split (node ++ slash :: last)).getLast? = some last := by
  have hslash : slash ∈ node ++ slash :: last := List.mem_append_right _ List.mem_cons_self
  have hempty : last.isEmpty = false := by simpa using hne
  rw [split, if_pos hslash, List.getLast?_reverse, fields_append, fields_of_no_slash hlast,
    List.reverse_append, List.reverse_singleton, List.singleton_append, List.dropWhile_cons, hempty]
  rfl

/-- What follows the last slash, unless that is nothing. -/
theorem exists_lastSegment {path : Str} (hslash : slash ∈ path)
    (hend : endsWith path [slash] = false) :
    ∃ node last, path = node ++ slash :: last ∧ slash ∉ last ∧ last ≠ [] := by
  obtain ⟨last, node, hreverse, hlast⟩ := List.eq_append_cons_of_mem (List.mem_reverse.mpr hslash)
  have hpath : path = node.reverse ++ slash :: last.reverse := by
    rw [← List.reverse_reverse path, hreverse, List.reverse_append, List.reverse_cons,
      List.append_assoc, List.singleton_append]
  refine ⟨node.reverse, last.reverse, hpath, by rwa [List.mem_reverse], ?_⟩
  intro hnil
  rw [hpath, hnil, endsWith, Bool.eq_false_iff, Ne, List.isSuffixOf_iff_suffix] at hend
  exact hend (List.suffix_append _ _)

theorem splitPath_append {node last : Str} (hlast : slash ∉ last) (hne : last ≠ []) :
    splitPath (node ++ slash :: last) =
      if IsSpecial last then (node, some last) else (node ++ slash :: last, none) := by
  have hlength : (node ++ slash :: last).length - (last.length + 1) = node.length := by
    rw [List.length_append, List.length_cons, Nat.add_sub_cancel]
  rw [splitPath, getLast?_split_append hlast hne]
  show (if IsSpecial last then (dropRight _ _, _) else _) = _
  rw [dropRight, hlength, List.take_left]

/-! ### Splitting back -/

theorem MatchesMark.splitPath_eq {p : UInt16 → Bool} {mark path : Str}
    (h : MatchesMark p (slash :: mark) path) (hne : mark ≠ []) (hmark : slash ∉ mark)
    (hp : p slash = false) (hspecial : ∀ tail, IsSpecial (mark ++ tail)) :
    ∃ node tail, splitPath path = (node, some (mark ++ tail)) ∧ slash ∉ mark ++ tail ∧
      node ++ slash :: (mark ++ tail) = path := by
  obtain ⟨node, tail, rfl, -, htail, -⟩ := h
  have hslash : slash ∉ mark ++ tail := by
    intro hmem
    rcases List.mem_append.mp hmem with hmem | hmem
    · exact hmark hmem
    · exact Bool.false_ne_true (hp.symm.trans (htail slash hmem))
  have hpath : node ++ slash :: mark ++ tail = node ++ slash :: (mark ++ tail) := by
    rw [List.append_assoc, List.cons_append]
  refine ⟨node, tail, ?_, hslash, hpath.symm⟩
  rw [hpath, splitPath_append hslash (List.append_ne_nil_of_left_ne_nil hne tail),
    if_pos (hspecial tail)]

theorem isAttribute_splitPath {path : Str} (h : isAttribute path = true) :
    ∃ node tail, splitPath path = (node, some (atSign :: tail)) ∧ slash ∉ atSign :: tail ∧
      node ++ slash :: atSign :: tail = path :=
  ((isAttribute_iff path).mp h).splitPath_eq (List.cons_ne_nil _ _) (by decide) (by decide)
    fun _ => rfl

theorem isConfig_splitPath {path : Str} (h : isConfig path = true) :
    ∃ node config, splitPath path = (node, some config) ∧ node ++ slash :: config = path := by
  rcases (isConfig_iff path).mp h with hone | htwo
  · obtain ⟨node, tail, hsplit, -, hjoin⟩ := hone.splitPath_eq (List.cons_ne_nil _ _) (by decide)
      (by decide) fun _ => rfl
    exact ⟨node, _, hsplit, hjoin⟩
  · obtain ⟨node, tail, hsplit, -, hjoin⟩ := htwo.splitPath_eq (List.cons_ne_nil _ _) (by decide)
      (by decide) fun _ => rfl
    exact ⟨node, _, hsplit, hjoin⟩

/-- A path that ends in no slash is not split, or it is joined again to what it was. -/
theorem splitPath_rejoins {path : Str} (hend : endsWith path [slash] = false) :
    splitPath path = (path, none) ∨
      ∃ node special, splitPath path = (node, some special) ∧
        (slash ∈ path → node ++ slash :: special = path) := by
  by_cases hslash : slash ∈ path
  · obtain ⟨node, last, rfl, hlast, hne⟩ := exists_lastSegment hslash hend
    rw [splitPath_append hlast hne]
    split_ifs
    · exact Or.inr ⟨node, last, rfl, fun _ => rfl⟩
    · exact Or.inl rfl
  · have honly : (split path).getLast? = some path := by
      rw [split, if_neg hslash]
      rfl
    rw [splitPath, honly]
    dsimp only
    split_ifs
    · exact Or.inr ⟨_, path, rfl, fun hmem => absurd hmem hslash⟩
    · exact Or.inl rfl

/-- SET of an attribute does not throw; it persists the value under the node and the name. -/
theorem run_handleSetRequest_attribute (link : Link) (sender : Routee) (p : Processing) (rid : Int)
    {path node name : Str} (value : DSAVal) (permit : Option Str) (h : isAttribute path = true)
    (hsplit : splitPath path = (node, some name)) :
    (handleSetRequest link sender rid path value permit).run p =
      (.ok (.response (closedResponse rid)),
        { p with persisted := p.persisted ++ [.saveAttribute node name value] }) := by
  simp only [handleSetRequest, h, if_true, hsplit, run_bind, run_getOrThrow_some, saveAttribute,
    run_persist, run_pure]

/-- The handler of the event stores the value under the node. -/
theorem handlePersisted_saveAttribute (s : ResponderState) (node name : Str) (value : DSAVal) :
    ∃ s', handlePersisted s (.saveAttribute node name value) = some (s', []) ∧
      DSAMap.get ((s'.attributes node).getD []) name = some value := by
  refine ⟨_, rfl, ?_⟩
  show DSAMap.get ((Function.update s.attributes node (some (DSAMap.updated _ name value))
    node).getD []) name = some value
  rw [Function.update_self, Option.getD_some, DSAMap.get_updated, if_pos rfl]

/-- **Paths split back.**  A path that is an attribute or a config is split before its last segment,
and joined again it is the path; so the handler of SET finds the name of the attribute, and the
value is stored under the node of the path.  Any other path that does not end in a slash is left
whole, or can be joined again if there is a slash in it. -/
theorem paths_split_back (path : Str) :
    (isAttribute path = true →
      ∃ node name, splitPath path = (node, some name) ∧ node ++ slash :: name = path ∧
        startsWith name [atSign] = true ∧
        (∀ (link : Link) (sender : Routee) (p : Processing) (rid : Int) (value : DSAVal)
          (permit : Option Str),
          (handleSetRequest link sender rid path value permit).run p =
            (.ok (.response (closedResponse rid)),
              { p with persisted := p.persisted ++ [.saveAttribute node name value] })) ∧
        ∀ (s : ResponderState) (value : DSAVal),
          ∃ s', handlePersisted s (.saveAttribute node name value) = some (s', []) ∧
            DSAMap.get ((s'.attributes node).getD []) name = some value) ∧
    (isConfig path = true →
      ∃ node config, splitPath path = (node, some config) ∧ node ++ slash :: config = path) ∧
    (endsWith path [slash] = false →
      splitPath path = (path, none) ∨
        ∃ node special, splitPath path = (node, some special) ∧
          (slash ∈ path → node ++ slash :: special = path)) := by
  refine ⟨?_, isConfig_splitPath, splitPath_rejoins⟩
  intro h
  obtain ⟨node, tail, hsplit, -, hjoin⟩ := isAttribute_splitPath h
  refine ⟨node, atSign :: tail, hsplit, hjoin, rfl, ?_, ?_⟩
  · intro link sender p rid value permit
    exact run_handleSetRequest_attribute link sender p rid value permit h hsplit
  · intro s value
    exact handlePersisted_saveAttribute s node (atSign :: tail) value

end DsaBroker
