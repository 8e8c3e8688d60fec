import DsaBroker.ResponderResponses
import Mathlib.Data.List.TakeWhile

/-!
# The path of a link, as the requester and the responder see it

A request is routed to the link that `resolveLinkPath` makes of its path; the responder of
the link forwards it under what `translatePath` leaves of the path; and a `$base` in the
answer is put under the link again by `adjustBase`.  The three describe the same
decomposition of a path into link and remaining path.

The last two do so for every name.  `resolveLinkPath` does it where its pattern matches,
which admits letters, digits, underscore and hyphen in a name.  Otherwise the path is only
freed of an attribute or config at its end, so that of a link with another character in its
name only the link itself is found, and what is directly below it and starts with `@` or `$`.
-/

namespace DsaBroker

/-! ### Names and paths -/

/-- The name of a link. -/
structure LinkName where
  name : Str
  ne_nil : name ≠ []
  no_slash : slash ∉ name

/-- The path of a node under a link: empty, or starting with a slash. -/
structure NodePath where
  path : Str
  absolute : path = [] ∨ ∃ rest, path = slash :: rest

inductive LinkFolder where
  | downstream | upstream
deriving DecidableEq, Repr

def LinkFolder.path : LinkFolder → Str
  | .downstream => DsaBroker.downstream
  | .upstream => DsaBroker.upstream

def linkPathOf (folder : LinkFolder) (link : LinkName) : Str :=
  folder.path ++ slash :: link.name

def fullPath (folder : LinkFolder) (link : LinkName) (node : NodePath) : Str :=
  linkPathOf folder link ++ node.path

/-- An attribute or a config, by its first character. -/
def IsSpecial (field : Str) : Prop :=
  (startsWith field [atSign] || startsWith field [dollar]) = true

instance (field : Str) : Decidable (IsSpecial field) := inferInstanceAs (Decidable (_ = true))

/-- The pattern of `doResolveLinkPath` matches. -/
def PatternMatches (link : LinkName) (node : NodePath) : Prop :=
  (∀ c ∈ link.name, isNameChar c = true) ∧ ∀ c ∈ node.path, ¬ isLineTerminator c

instance (link : LinkName) (node : NodePath) : Decidable (PatternMatches link node) :=
  inferInstanceAs (Decidable (_ ∧ _))

/-- The paths that are routed to their link: those that the pattern matches, a link whose name
is no attribute or config, an attribute or config of a link; and a link whose name is one with
one slash more behind it than the name has characters. -/
def Routable (link : LinkName) (node : NodePath) : Prop :=
  PatternMatches link node ∨ node.path = [] ∧ ¬ IsSpecial link.name ∨
    (∃ field, node.path = slash :: field ∧ slash ∉ field ∧ IsSpecial field) ∨
    IsSpecial link.name ∧ node.path = List.replicate (link.name.length + 1) slash

/-! ### The pattern -/

theorem takeWhile_nameChar {node : NodePath} : node.path.takeWhile isNameChar = [] := by
  rcases node.absolute with h | ⟨rest, h⟩
  · rw [h]
    rfl
  · rw [h]
    rfl

theorem dropWhile_nameChar {node : NodePath} : node.path.dropWhile isNameChar = node.path := by
  rcases node.absolute with h | ⟨rest, h⟩
  · rw [h]
    rfl
  · rw [h]
    rfl

/-- The pattern takes the whole name of a link just if its group matches every character of it and
no line ends in the rest of the path. -/
theorem matchLink_eq (parent : Str) (link : LinkName) (node : NodePath) :
    matchLink parent (parent ++ slash :: (link.name ++ node.path)) =
      if PatternMatches link node then some link.name else none := by
  have hstart : startsWith (parent ++ slash :: (link.name ++ node.path)) (parent ++ [slash])
      = true := by
    rw [startsWith, List.isPrefixOf_iff_prefix]
    exact ⟨link.name ++ node.path, by rw [List.append_assoc, List.singleton_append]⟩
  have hdrop : (parent ++ slash :: (link.name ++ node.path)).drop (parent.length + 1)
      = link.name ++ node.path := by
    rw [← List.drop_drop, List.drop_left, List.drop_one, List.tail_cons]
  simp only [matchLink, hstart, if_true, hdrop]
  -- the group takes the name and stops at the slash that begins the path
  by_cases hname : ∀ c ∈ link.name, isNameChar c = true
  · rw [List.takeWhile_append_of_pos hname, List.dropWhile_append_of_pos hname,
      takeWhile_nameChar, dropWhile_nameChar, List.append_nil]
    have hlines : (node.path.all fun c => !isLineTerminator c) = true ↔
        ∀ c ∈ node.path, ¬ isLineTerminator c := by
      simp only [List.all_eq_true, Bool.not_eq_true', Bool.not_eq_true]
    congr 1
    rw [eq_iff_iff, hlines]
    constructor
    · rintro ⟨_, hnil | ⟨_, hline⟩⟩
      · exact ⟨hname, by rw [hnil]; intro c hc; cases hc⟩
      · exact ⟨hname, hline⟩
    · rintro ⟨_, hline⟩
      refine ⟨link.ne_nil, ?_⟩
      rcases node.absolute with hnil | ⟨rest, hrest⟩
      · exact Or.inl hnil
      · right
        refine ⟨?_, hline⟩
        rw [hrest]
        rfl
  · -- the name goes on where the group ends, so what follows the group is no path
    have hnot : ¬ PatternMatches link node := fun h => hname h.1
    rw [if_neg hnot]
    apply if_neg
    rintro ⟨_, htail⟩
    rw [List.dropWhile_append] at htail
    have hrest : link.name.dropWhile isNameChar ≠ [] := by
      intro hnil
      exact hname (List.dropWhile_eq_nil_iff.mp hnil)
    rw [if_neg (by simpa using hrest)] at htail
    obtain ⟨c, rest, hc⟩ := List.exists_cons_of_ne_nil hrest
    have hmem : c ∈ link.name := by
      apply (List.dropWhile_suffix isNameChar).subset
      rw [hc]
      exact List.mem_cons_self
    rw [hc] at htail
    rcases htail with hnil | ⟨hslash, _⟩
    · cases hnil
    · -- nor does it begin with a slash, as the name has none
      rw [startsWith, List.isPrefixOf_iff_prefix] at hslash
      obtain ⟨more, hmore⟩ := hslash
      cases hmore
      exact link.no_slash hmem

/-! ### The last field -/

theorem fields_ne_nil (path : Str) : fields path ≠ [] := by
  cases path with
  | nil => simp [fields]
  | cons c rest =>
    rw [fields]
    split
    · simp
    · split <;> simp

theorem fields_append (front rest : Str) :
    fields (front ++ slash :: rest) = fields front ++ fields rest := by
  induction front with
  | nil => simp [fields]
  | cons c front ih =>
    rw [List.cons_append, fields, fields, ih]
    by_cases hc : c = slash
    · rw [if_pos hc, if_pos hc, List.cons_append]
    · rw [if_neg hc, if_neg hc]
      obtain ⟨field, more, hfields⟩ := List.exists_cons_of_ne_nil (fields_ne_nil front)
      rw [hfields]
      rfl

theorem fields_of_no_slash {field : Str} (h : slash ∉ field) : fields field = [field] := by
  induction field with
  | nil => rfl
  | cons c rest ih =>
    rw [List.mem_cons, not_or] at h
    rw [fields, if_neg (Ne.symm h.1), ih h.2]

/-- A field is the whole path or shorter. -/
theorem length_field {field path : Str} (h : field ∈ fields path) :
    field = path ∧ slash ∉ path ∨ field.length < path.length := by
  induction path generalizing field with
  | nil =>
    left
    exact ⟨List.mem_singleton.mp h, List.not_mem_nil⟩
  | cons c rest ih =>
    rw [fields] at h
    split at h
    · right
      rw [List.length_cons]
      rcases List.mem_cons.mp h with rfl | hrest
      · exact Nat.succ_pos _
      · rcases ih hrest with ⟨rfl, _⟩ | hlength
        · exact Nat.lt_succ_self _
        · exact Nat.lt_succ_of_lt hlength
    case isFalse hc =>
      obtain ⟨first, more, hfields⟩ := List.exists_cons_of_ne_nil (fields_ne_nil rest)
      rw [hfields] at h ih
      rw [List.length_cons]
      rcases List.mem_cons.mp h with rfl | hmore
      · rcases ih List.mem_cons_self with ⟨rfl, hno⟩ | hlength
        · left
          exact ⟨rfl, List.not_mem_cons_of_ne_of_not_mem (Ne.symm hc) hno⟩
        · right
          exact Nat.succ_lt_succ hlength
      · right
        rcases ih (List.mem_cons_of_mem _ hmore) with ⟨rfl, _⟩ | hlength
        · exact Nat.lt_succ_self _
        · exact Nat.lt_succ_of_lt hlength

/-- All fields of a path are empty just if it consists of slashes. -/
theorem fields_all_empty {path : Str} :
    (∀ field ∈ fields path, field.isEmpty = true) ↔ path = List.replicate path.length slash := by
  induction path with
  | nil => simp [fields]
  | cons c rest ih =>
    rw [fields, List.length_cons, List.replicate_succ]
    by_cases hc : c = slash
    · rw [if_pos hc, hc, List.cons.injEq, ← ih]
      simp
    · obtain ⟨first, more, hfields⟩ := List.exists_cons_of_ne_nil (fields_ne_nil rest)
      rw [if_neg hc, hfields]
      constructor
      · intro hall
        cases hall (c :: first) List.mem_cons_self
      · intro heq
        exact absurd (List.cons.inj heq).1 hc

/-- The last field of the path of a node: the last one that is not empty below the link, or the
name of the link. -/
def lastField (link : LinkName) (node : NodePath) : Str :=
  match node.path with
  | [] => link.name
  | _ :: rest => (((fields rest).reverse.dropWhile List.isEmpty).head?).getD link.name

theorem lastField_of_nil {link : LinkName} {node : NodePath} (h : node.path = []) :
    lastField link node = link.name := by
  rw [lastField, h]

theorem lastField_of_slash {link : LinkName} {node : NodePath} {rest : Str}
    (h : node.path = slash :: rest) : lastField link node =
      (((fields rest).reverse.dropWhile List.isEmpty).head?).getD link.name := by
  rw [lastField, h]

theorem getLast?_split (folder : LinkFolder) (link : LinkName) (node : NodePath) :
    (split (fullPath folder link node)).getLast? = some (lastField link node) := by
  have hslash : slash ∈ fullPath folder link node := by
    simp [fullPath, linkPathOf]
  have hname : link.name.isEmpty = false := by
    simpa using link.ne_nil
  rw [split, if_pos hslash, List.getLast?_reverse]
  rcases node.absolute with hnil | ⟨rest, hrest⟩
  · have hfields : fields (fullPath folder link node) = fields folder.path ++ [link.name] := by
      rw [fullPath, hnil, List.append_nil, linkPathOf, fields_append,
        fields_of_no_slash link.no_slash]
    rw [hfields, List.reverse_append, List.reverse_singleton, List.singleton_append,
      List.dropWhile_cons, hname, lastField_of_nil hnil]
    rfl
  · have hfields : fields (fullPath folder link node)
        = fields folder.path ++ [link.name] ++ fields rest := by
      rw [fullPath, hrest, linkPathOf, List.append_assoc, List.cons_append, fields_append,
        fields_append, fields_of_no_slash link.no_slash, List.append_assoc]
    rw [hfields, List.reverse_append, List.reverse_append, List.reverse_singleton,
      List.singleton_append, List.dropWhile_append, lastField_of_slash hrest]
    cases hlast : (fields rest).reverse.dropWhile List.isEmpty with
    | nil =>
      rw [List.isEmpty_nil, if_pos rfl, List.dropWhile_cons, hname]
      rfl
    | cons field more => rfl

/-! ### Routing -/

theorem splitPath_fullPath (folder : LinkFolder) (link : LinkName) (node : NodePath) :
    (splitPath (fullPath folder link node)).1 = linkPathOf folder link ↔
      IsSpecial (lastField link node) ∧ node.path.length = (lastField link node).length + 1 ∨
        ¬ IsSpecial (lastField link node) ∧ node.path = [] := by
  have hpos : 0 < (linkPathOf folder link).length := by
    rw [linkPathOf, List.length_append, List.length_cons]
    omega
  rw [splitPath, getLast?_split]
  show (if IsSpecial (lastField link node) then _ else _ : Str × Option Str).1 = _ ↔ _
  by_cases hspecial : IsSpecial (lastField link node)
  · rw [if_pos hspecial]
    simp only [hspecial, true_and, not_true, false_and, or_false]
    rw [dropRight, fullPath, List.length_append]
    constructor
    · intro htake
      have hlength := congrArg List.length htake
      rw [List.length_take, List.length_append] at hlength
      omega
    · intro hlength
      rw [hlength, Nat.add_sub_cancel, List.take_left]
  · rw [if_neg hspecial]
    simp only [hspecial, false_and, not_false_iff, true_and, false_or]
    rw [fullPath, List.append_right_eq_self]

/-- No field is left if the path has nothing but slashes. -/
theorem dropWhile_fields {path : Str} :
    (fields path).reverse.dropWhile List.isEmpty = [] ↔
      path = List.replicate path.length slash := by
  rw [← fields_all_empty, List.dropWhile_eq_nil_iff]
  simp only [List.mem_reverse]

/-- What the last field comes to: it is an attribute or config of the link, or the path is the
link's own. -/
theorem lastField_iff (link : LinkName) (node : NodePath) :
    (IsSpecial (lastField link node) ∧ node.path.length = (lastField link node).length + 1 ∨
        ¬ IsSpecial (lastField link node) ∧ node.path = []) ↔
      node.path = [] ∧ ¬ IsSpecial link.name ∨
        (∃ field, node.path = slash :: field ∧ slash ∉ field ∧ IsSpecial field) ∨
        IsSpecial link.name ∧ node.path = List.replicate (link.name.length + 1) slash := by
  rcases node.absolute with hnil | ⟨rest, hrest⟩
  · rw [lastField_of_nil hnil, hnil]
    simp
  · rw [hrest, lastField_of_slash hrest, List.length_cons, List.replicate_succ]
    simp only [List.cons.injEq, true_and, reduceCtorEq, false_and, and_false, false_or, or_false,
      Nat.add_right_cancel_iff]
    cases hlast : (fields rest).reverse.dropWhile List.isEmpty with
    | nil =>
      -- only slashes follow the name, which is then the last field
      have hslashes := dropWhile_fields.mp hlast
      constructor
      · rintro ⟨hspecial, hlength⟩
        right
        exact ⟨hspecial, hlength ▸ hslashes⟩
      · rintro (⟨field, rfl, hno, hspecial⟩ | ⟨hspecial, hname⟩)
        · exfalso
          cases hfield : rest with
          | nil =>
            rw [hfield] at hspecial
            cases hspecial
          | cons c more =>
            rw [hfield, List.length_cons, List.replicate_succ] at hslashes
            rw [hfield, (List.cons.inj hslashes).1] at hno
            exact hno List.mem_cons_self
        · refine ⟨hspecial, ?_⟩
          rw [hname, List.length_replicate]
          rfl
    | cons last more =>
      have hmem : last ∈ fields rest := by
        rw [← List.mem_reverse]
        apply (List.dropWhile_suffix List.isEmpty).subset
        rw [hlast]
        exact List.mem_cons_self
      constructor
      · rintro ⟨hspecial, hlength⟩
        left
        rcases length_field hmem with ⟨rfl, hno⟩ | hshorter
        · exact ⟨last, rfl, hno, hspecial⟩
        · rw [List.head?_cons, Option.getD_some] at hlength
          omega
      · rintro (⟨field, rfl, hno, hspecial⟩ | ⟨_, hname⟩)
        · rw [fields_of_no_slash hno, List.mem_singleton] at hmem
          rw [hmem]
          exact ⟨hspecial, rfl⟩
        · exfalso
          have hnil : (fields rest).reverse.dropWhile List.isEmpty = [] := by
            rw [dropWhile_fields, hname, List.length_replicate]
          cases hnil.symm.trans hlast

/-- A path of one folder is not taken for one of the other. -/
theorem doResolveLinkPath_eq (folder : LinkFolder) (link : LinkName) (node : NodePath) :
    doResolveLinkPath (fullPath folder link node) =
      if PatternMatches link node then linkPathOf folder link
      else (splitPath (fullPath folder link node)).1 := by
  have hmatch := matchLink_eq folder.path link node
  have hpath : folder.path ++ slash :: (link.name ++ node.path) = fullPath folder link node := by
    rw [fullPath, linkPathOf, List.append_assoc, List.cons_append]
  rw [hpath] at hmatch
  have hne : ∀ other : LinkFolder, fullPath folder link node ≠ other.path := by
    intro other heq
    cases folder <;> cases other <;>
      simp [fullPath, linkPathOf, LinkFolder.path, downstream, upstream, str] at heq
  have hdown : fullPath folder link node ≠ downstream := hne .downstream
  have hup : fullPath folder link node ≠ upstream := hne .upstream
  rw [doResolveLinkPath, if_neg hdown, if_neg hup]
  cases folder with
  | downstream =>
    have hother : matchLink upstream (fullPath .downstream link node) = none := rfl
    have hmatch : matchLink downstream (fullPath .downstream link node) = _ := hmatch
    rw [hother, hmatch]
    by_cases hpattern : PatternMatches link node
    · rw [if_pos hpattern, if_pos hpattern]
      rfl
    · rw [if_neg hpattern, if_neg hpattern]
  | upstream =>
    have hother : matchLink downstream (fullPath .upstream link node) = none := rfl
    have hmatch : matchLink upstream (fullPath .upstream link node) = _ := hmatch
    rw [hother, hmatch]
    by_cases hpattern : PatternMatches link node
    · rw [if_pos hpattern, if_pos hpattern]
      rfl
    · rw [if_neg hpattern, if_neg hpattern]

/-- **A path is routed to its link just if it is one of the routable ones.** -/
theorem resolveLinkPath_iff (folder : LinkFolder) (link : LinkName) (node : NodePath) :
    resolveLinkPath (fullPath folder link node) = linkPathOf folder link ↔ Routable link node := by
  rw [resolveLinkPath, doResolveLinkPath_eq, Routable, ← lastField_iff,
    ← splitPath_fullPath folder link node]
  by_cases hmatch : PatternMatches link node
  · simp only [hmatch, if_true, true_or]
  · simp only [hmatch, if_false, false_or]

/-! ### Translation -/

theorem translatePath_fullPath (folder : LinkFolder) (link : LinkName) (node : NodePath) :
    translatePath (linkPathOf folder link) (fullPath folder link node) =
      if node.path = [] then [slash] else node.path := by
  rw [translatePath, fullPath, List.drop_left]
  rcases node.absolute with hnil | ⟨rest, hrest⟩
  · rw [hnil]
    rfl
  · rw [hrest]
    rfl

theorem adjustBase_array (link : Link) (path : Str) (rest : List DSAVal) (p : Processing) :
    (adjustBase link (.array (.string baseConfig :: .string path :: rest))).run p =
      (.ok (.array [.string baseConfig, .string (link.linkPath ++ path)]), p) := by
  obtain ⟨_, hrun⟩ := run_adjustBase link (.array (.string baseConfig :: .string path :: rest)) p
  exact hrun

theorem adjustBase_map (link : Link) (path : Str) {value : DSAMap}
    (hbase : value.get baseConfig = some (.string path)) (p : Processing) :
    (adjustBase link (.map value)).run p =
      (.ok (.map (value.updated baseConfig (.string (link.linkPath ++ path)))), p) := by
  obtain ⟨_, hrun⟩ := run_adjustBase link (.map value) p
  rw [hrun]
  simp only [adjustedRow, hbase, textOf, Option.map_some]

/-! ### The whole way -/

/-- A request to the node is routed to the link and carries the remaining path there, and a
`$base` comes back as the whole path. -/
structure PathsAgree (folder : LinkFolder) (link : LinkName) (node : NodePath) : Prop where
  routed : resolveLinkPath (fullPath folder link node) = linkPathOf folder link
  translated : translatePath (linkPathOf folder link) (fullPath folder link node) =
    if node.path = [] then [slash] else node.path
  adjustedArray : ∀ render rest p,
    (adjustBase ⟨linkPathOf folder link, render⟩
      (.array (.string baseConfig :: .string node.path :: rest))).run p =
      (.ok (.array [.string baseConfig, .string (fullPath folder link node)]), p)
  adjustedMap : ∀ render (value : DSAMap) p, value.get baseConfig = some (.string node.path) →
    (adjustBase ⟨linkPathOf folder link, render⟩ (.map value)).run p =
      (.ok (.map (value.updated baseConfig (.string (fullPath folder link node)))), p)

/-- **Routing and translation agree** on a path just if it is routable; all but the routing
holds for every path. -/
theorem paths_agree_iff (folder : LinkFolder) (link : LinkName) (node : NodePath) :
    PathsAgree folder link node ↔ Routable link node := by
  constructor
  · intro h
    exact (resolveLinkPath_iff folder link node).mp h.routed
  · intro hroutable
    constructor
    · exact (resolveLinkPath_iff folder link node).mpr hroutable
    · exact translatePath_fullPath folder link node
    · intro render rest p
      exact adjustBase_array _ node.path rest p
    · intro render value p hbase
      exact adjustBase_map _ node.path hbase p

/-- A node below a link with a space in its name is not routed to the link. -/
theorem spaced_link_not_routed :
    ∃ (link : LinkName) (node : NodePath), link.name = str "abc def" ∧ node.path = str "/x" ∧
      resolveLinkPath (fullPath .downstream link node) = str "/downstream/abc def/x" ∧
      ¬ PathsAgree .downstream link node := by
  refine ⟨⟨str "abc def", by decide, by decide⟩, ⟨str "/x", Or.inr ⟨str "x", rfl⟩⟩, rfl, rfl,
    by decide, ?_⟩
  intro h
  exact absurd h.routed (by decide)

end DsaBroker
