import DsaBroker.SegmentRouting
import Mathlib.Data.List.Infix

/-!
# What a request can address

A requester writes the path of a request, the local manager makes a selection of it.  The
selection should name one actor: the one that the encoded segments lead to, name by name,
below a folder or the root node of the broker.

The encoder leaves `*` and `.` alone, which are operators of the selection language, so that a
segment with a star fits many children and the segment `..` leads up.  A path that starts with
the path of a folder without continuing it, or that does not start with a slash, names an
actor that is neither a folder nor the root node.
-/

namespace DsaBroker

def brokerName : Str := str "broker"

/-- The selection consists of names, the given ones below `top`, and denotes no actor but the
one that they lead to, whichever actors exist. -/
def LeadsTo (selection : ActorSelection) (top : Str) (names : List Str) : Prop :=
  selection = (str "user" :: top :: names).map SelectionElement.childName ∧
    ∀ actors actor, Denotes actors selection [] actor → actor = str "user" :: top :: names

/-- A message for a path goes to one actor at most: to what the encoded segments name below a
folder, or below the root node. -/
def AddressesOneActor (destination : Destination) (path : Str) : Prop :=
  ∃ selection top names, destination = .selected selection ∧
    ((∃ folder : LinkFolder, top = folder.nodeName ∧ segments path = top :: names) ∨
      top = brokerName ∧ segments path = names) ∧
    LeadsTo selection top (names.map urlEncode)

/-- The same for the address of a link by its name. -/
def AddressesOneLink (routee : Routee) (folder : LinkFolder) (name : Str) : Prop :=
  ∃ selection, Destination.ofRoutee routee = .selected selection ∧
    LeadsTo selection folder.nodeName ((segments name).map urlEncode)

/-- A segment that is no operator. -/
def PlainSegment (segment : Str) : Prop := star ∉ segment ∧ segment ≠ parentElement

instance (segment : Str) : Decidable (PlainSegment segment) :=
  inferInstanceAs (Decidable (_ ∧ _))

/-- The paths that address one actor: absolute ones without operators that respect the end of
the name of a folder. -/
structure PlainPath (path : Str) : Prop where
  absolute : path = [] ∨ startsWith path [slash] = true
  folders : ∀ folder : LinkFolder, startsWith path folder.path = true →
    Continues folder.path path
  plain : ∀ segment ∈ segments path, PlainSegment segment

/-- A path of a folder, or one that the pattern of `doResolveLinkPath` matches. -/
def IsLinkPath (path : Str) : Prop :=
  ∃ folder : LinkFolder, path = folder.path ∨ (matchLink folder.path path).isSome = true

/-! ### Elements -/

theorem not_unreserved_of_isLowSurrogate {c : UInt16} (h : isLowSurrogate c = true) :
    isUnreserved c = false := by
  simp only [isLowSurrogate, Bool.and_eq_true, decide_eq_true_eq, UInt16.le_iff_toNat_le,
    UInt16.reduceToNat] at h
  rw [Bool.eq_false_iff]
  simp only [isUnreserved, Ne, Bool.or_eq_true, Bool.and_eq_true, decide_eq_true_eq,
    UInt16.le_iff_toNat_le, ← UInt16.toNat_inj, UInt16.reduceToNat]
  omega

/-- What is left alone is still there. -/
theorem mem_urlEncode_of_unreserved {s : Str} {x : UInt16} (hx : isUnreserved x = true)
    (h : x ∈ s) : x ∈ urlEncode s := by
  have hother : ∀ {c : UInt16} {rest : Str}, ¬ isUnreserved c = true → x ∈ c :: rest →
      x ∈ rest := by
    intro c rest hc hmem
    rcases List.mem_cons.mp hmem with rfl | hrest
    · exact absurd hx hc
    · exact hrest
  fun_induction urlEncode s with
  | case1 => exact absurd h List.not_mem_nil
  | case2 c rest hc ih =>
    rcases List.mem_cons.mp h with rfl | hrest
    · exact List.mem_cons_self
    · exact List.mem_cons_of_mem _ (ih hrest)
  | case3 rest hc ih => exact List.mem_cons_of_mem _ (ih (hother hc h))
  | case4 c hc hspace hhigh => exact absurd (hother hc h) List.not_mem_nil
  | case5 c hc hspace hhigh d more hlow ih =>
    have hd : ¬ isUnreserved d = true := by
      rw [not_unreserved_of_isLowSurrogate hlow]
      exact Bool.false_ne_true
    exact List.mem_append_right _ (ih (hother hd (hother hc h)))
  | case6 c hc hspace hhigh d more hlow ih => exact List.mem_append_right _ (ih (hother hc h))
  | case7 c rest hc hspace hhigh hlow ih => exact List.mem_append_right _ (ih (hother hc h))
  | case8 c rest hc hspace hhigh hlow ih => exact List.mem_append_right _ (ih (hother hc h))

/-- An encoded segment is an operator just if the segment is one. -/
theorem isLiteral_urlEncode {segment : Str} :
    IsLiteral (urlEncode segment) ↔ PlainSegment segment := by
  have hquestion : questionMark ∉ urlEncode segment := by
    intro h
    rcases mem_urlEncode h with hx | hx | hx | ⟨-, hx⟩ <;> exact absurd hx (by decide)
  have hstar : star ∈ urlEncode segment ↔ star ∈ segment := by
    constructor
    · intro h
      rcases mem_urlEncode h with hx | hx | hx | ⟨hx, -⟩
      · exact absurd hx (by decide)
      · exact absurd hx (by decide)
      · exact absurd hx (by decide)
      · exact hx
    · exact mem_urlEncode_of_unreserved (by decide)
  have hparent : urlEncode segment = parentElement ↔ segment = parentElement := by
    constructor
    · intro h
      have hall : (urlEncode segment).all isUnreserved = true := by
        rw [h]
        decide
      rw [← h, urlEncode_eq_self.mpr (all_unreserved_of_urlEncode hall)]
    · rintro rfl
      exact urlEncode_eq_self.mpr (by decide)
  rw [IsLiteral, hstar, Ne, hparent, PlainSegment]
  tauto

theorem isLiteral_nodeName (folder : LinkFolder) : IsLiteral folder.nodeName := by
  cases folder <;> decide

theorem plain_nodeName (folder : LinkFolder) : PlainSegment folder.nodeName := by
  cases folder <;> decide

/-- A selection by the given elements leads to `top` and the names below it just if the elements
are these, and no operators. -/
theorem leadsTo_iff {elements : List Str} {top : Str} {names : List Str} :
    LeadsTo (elements.map selectionElement) top names ↔
      elements = str "user" :: top :: names ∧ ∀ element ∈ elements, IsLiteral element := by
  rw [LeadsTo, map_selectionElement_eq_names]
  constructor
  · exact And.left
  · rintro ⟨heq, hliteral⟩
    refine ⟨⟨heq, hliteral⟩, ?_⟩
    intro actors actor hdenotes
    rw [map_selectionElement_eq_names.mpr ⟨heq, hliteral⟩] at hdenotes
    have hactor := eq_of_denotes_names hdenotes
    rwa [List.nil_append] at hactor

theorem literal_encoded {front : List Str} {names : List Str}
    (hfront : ∀ element ∈ front, IsLiteral element) :
    (∀ element ∈ front ++ names.map urlEncode, IsLiteral element) ↔
      ∀ segment ∈ names, PlainSegment segment := by
  simp only [List.forall_mem_append, List.forall_mem_map, isLiteral_urlEncode]
  exact and_iff_right hfront

/-! ### The address of a link -/

theorem addressesOneLink_iff (folder : LinkFolder) (name : Str) :
    AddressesOneLink (LocalDSLinkManager.getLinkRoutee folder name) folder name ↔
      ∀ segment ∈ segments name, PlainSegment segment := by
  have hfront : ∀ element ∈ [str "user", folder.nodeName], IsLiteral element := by
    intro element helement
    rcases List.mem_cons.mp helement with rfl | helement
    · decide
    · rw [List.mem_singleton.mp helement]
      exact isLiteral_nodeName folder
  rw [AddressesOneLink, LocalDSLinkManager.ofRoutee_link]
  simp only [Destination.selected.injEq, exists_eq_left', leadsTo_iff, true_and]
  exact literal_encoded hfront

/-! ### The destination of a path -/

theorem segments_brokerPath : segments (str "/user/broker") = [str "user", brokerName] := by decide

theorem dsaSend_folder {path : Str} {folder : LinkFolder}
    (h : startsWith path folder.path = true) :
    LocalDSLinkManager.dsaSend path =
      .selected ((str "user" :: (segments path).map urlEncode).map selectionElement) := by
  obtain ⟨rest, rfl⟩ : ∃ rest, path = slash :: rest := by
    obtain ⟨tail, rfl⟩ := startsWith_iff.mp h
    exact ⟨folder.nodeName ++ tail, by rw [folder_path_eq, List.cons_append]⟩
  have hsegments : segments (userPath ++ dsaToAkkaPath (slash :: rest)) =
      str "user" :: (segments (slash :: rest)).map urlEncode := by
    rw [segments_append_dsaToAkkaPath, segments_userPath, segments_slash, List.singleton_append]
  rw [LocalDSLinkManager.dsaSend, LocalDSLinkManager.routeCase_folder h]
  show Destination.selected (actorSelection _) = _
  rw [actorSelection, hsegments]

theorem dsaSend_absolute {path : Str}
    (hno : ∀ folder : LinkFolder, startsWith path folder.path = false)
    (h : path = [] ∨ startsWith path [slash] = true) :
    LocalDSLinkManager.dsaSend path =
      .selected ((str "user" :: brokerName :: (segments path).map urlEncode).map
        selectionElement) := by
  have hsegments : segments (str "/user/broker" ++ dsaToAkkaPath path) =
      str "user" :: brokerName :: (segments path).map urlEncode := by
    rcases h with rfl | h
    · show segments (str "/user/broker" ++ []) = _
      rw [List.append_nil, segments_brokerPath]
      rfl
    · obtain ⟨rest, rfl⟩ := startsWith_iff.mp h
      rw [List.singleton_append, segments_append_dsaToAkkaPath, segments_brokerPath,
        segments_slash]
      rfl
  rw [LocalDSLinkManager.dsaSend, LocalDSLinkManager.routeCase_root hno]
  show Destination.selected (actorSelection _) = _
  rw [actorSelection, hsegments]

/-- The first segment of a relative path ends up in the name of the root node. -/
theorem dsaSend_relative {path : Str}
    (hno : ∀ folder : LinkFolder, startsWith path folder.path = false)
    (hne : path ≠ []) (h : startsWith path [slash] = false) :
    ∃ first more, first ≠ [] ∧ LocalDSLinkManager.dsaSend path =
      .selected ((str "user" :: (brokerName ++ first) :: more).map selectionElement) := by
  obtain ⟨first, more, hfirst, hfields⟩ := fields_dsaToAkkaPath_relative hne h
  refine ⟨first, more.filter fun field => !field.isEmpty, hfirst, ?_⟩
  have hjoined : fields (brokerName ++ dsaToAkkaPath path) = (brokerName ++ first) :: more := by
    obtain ⟨first', more', hrest, happend⟩ :=
      fields_append_of_no_slash (by decide : slash ∉ brokerName) (dsaToAkkaPath path)
    rw [hfields, List.cons.injEq] at hrest
    rw [happend, hrest.1, hrest.2]
  have hsegments : segments (str "/user/broker" ++ dsaToAkkaPath path) =
      str "user" :: (brokerName ++ first) :: more.filter fun field => !field.isEmpty := by
    have hsplit : str "/user/broker" ++ dsaToAkkaPath path =
        userPath ++ slash :: (brokerName ++ dsaToAkkaPath path) := rfl
    rw [hsplit, segments_append, segments_userPath, segments, hjoined,
      List.filter_cons_of_pos (by simp [hfirst]), List.singleton_append]
  rw [LocalDSLinkManager.dsaSend, LocalDSLinkManager.routeCase_root hno]
  show Destination.selected (actorSelection _) = _
  rw [actorSelection, hsegments]

theorem nodeName_append_eq {folder other : LinkFolder} {tail : Str}
    (h : folder.nodeName ++ tail = other.nodeName) : tail = [] := by
  have hprefix : folder.nodeName <+: other.nodeName := ⟨tail, h⟩
  cases folder <;> cases other
  · exact List.append_right_eq_self.mp h
  · exact absurd hprefix (by decide)
  · exact absurd hprefix (by decide)
  · exact List.append_right_eq_self.mp h

/-- Where the first segment of a path of a folder is the name of a folder, the path continues
that folder. -/
theorem continues_of_segments {path : Str} {folder other : LinkFolder} {names : List Str}
    (h : startsWith path folder.path = true) (hsegments : segments path = other.nodeName :: names) :
    Continues folder.path path := by
  obtain ⟨tail, rfl⟩ := startsWith_iff.mp h
  rw [folder_path_eq, List.cons_append, segments_slash] at hsegments
  obtain ⟨first, more, htail, happend⟩ :=
    fields_append_of_no_slash (show slash ∉ folder.nodeName by cases folder <;> decide) tail
  have hne : folder.nodeName ≠ [] := by
    cases folder <;> decide
  rw [segments, happend, List.filter_cons_of_pos (by simp [hne]), List.cons.injEq] at hsegments
  rw [nodeName_append_eq hsegments.1] at htail
  rw [continues_iff]
  cases tail with
  | nil => exact Or.inl (List.append_nil _)
  | cons c rest =>
    right
    rw [fields] at htail
    split at htail
    case isTrue hc => exact ⟨rest, by rw [hc]⟩
    case isFalse =>
      obtain ⟨field, fieldsMore, hrest⟩ := List.exists_cons_of_ne_nil (fields_ne_nil rest)
      rw [hrest] at htail
      cases htail

theorem segments_of_continues {folder : LinkFolder} {path : Str} (h : Continues folder.path path) :
    ∃ names, segments path = folder.nodeName :: names := by
  rcases continues_iff.mp h with rfl | ⟨rest, rfl⟩
  · exact ⟨[], segments_folder_path folder⟩
  · exact ⟨segments rest, segments_path folder rest⟩

theorem startsWith_slash_of_folder {path : Str} {folder : LinkFolder}
    (h : startsWith path folder.path = true) : startsWith path [slash] = true := by
  obtain ⟨tail, rfl⟩ := startsWith_iff.mp h
  rw [folder_path_eq, List.cons_append]
  rfl

theorem addressesOneActor_of_folder {path : Str} {folder : LinkFolder}
    (h : startsWith path folder.path = true) :
    AddressesOneActor (LocalDSLinkManager.dsaSend path) path ↔ PlainPath path := by
  rw [AddressesOneActor, dsaSend_folder h]
  simp only [Destination.selected.injEq]
  constructor
  · rintro ⟨selection, top, names, rfl, hbelow, hleads⟩
    rw [leadsTo_iff, List.cons.injEq] at hleads
    obtain ⟨⟨-, helements⟩, hliteral⟩ := hleads
    rcases hbelow with ⟨other, rfl, hsegments⟩ | ⟨rfl, hsegments⟩
    · refine ⟨Or.inr (startsWith_slash_of_folder h), ?_, ?_⟩
      · intro folder' h'
        rw [(folder_unique h).mp h']
        exact continues_of_segments h hsegments
      · intro segment hsegment
        apply isLiteral_urlEncode.mp
        exact hliteral _ (List.mem_cons_of_mem _ (List.mem_map_of_mem hsegment))
    · -- the path of the actor is one name longer than what is selected
      have hlength := congrArg List.length helements
      rw [hsegments, List.length_cons] at hlength
      omega
  · intro hplain
    obtain ⟨names, hsegments⟩ := segments_of_continues (hplain.folders folder h)
    refine ⟨_, folder.nodeName, names, rfl, Or.inl ⟨folder, rfl, hsegments⟩, ?_⟩
    rw [leadsTo_iff, hsegments, List.map_cons, urlEncode_nodeName]
    refine ⟨rfl, ?_⟩
    intro element helement
    rcases List.mem_cons.mp helement with rfl | helement
    · decide
    · rcases List.mem_cons.mp helement with rfl | helement
      · exact isLiteral_nodeName folder
      · obtain ⟨segment, hsegment, rfl⟩ := List.mem_map.mp helement
        apply isLiteral_urlEncode.mpr
        apply hplain.plain
        rw [hsegments]
        exact List.mem_cons_of_mem _ hsegment

theorem addressesOneActor_of_absolute {path : Str}
    (hno : ∀ folder : LinkFolder, startsWith path folder.path = false)
    (h : path = [] ∨ startsWith path [slash] = true) :
    AddressesOneActor (LocalDSLinkManager.dsaSend path) path ↔ PlainPath path := by
  have hfront : ∀ element ∈ [str "user", brokerName], IsLiteral element := by decide
  have hliteral : (∀ element ∈ [str "user", brokerName] ++ (segments path).map urlEncode,
      IsLiteral element) ↔ ∀ segment ∈ segments path, PlainSegment segment :=
    literal_encoded hfront
  rw [AddressesOneActor, dsaSend_absolute hno h]
  simp only [Destination.selected.injEq]
  constructor
  · rintro ⟨selection, top, names, rfl, hbelow, hleads⟩
    rw [leadsTo_iff] at hleads
    refine ⟨h, ?_, hliteral.mp hleads.2⟩
    intro folder hstart
    rw [hno folder] at hstart
    cases hstart
  · intro hplain
    refine ⟨_, brokerName, segments path, rfl, Or.inr ⟨rfl, rfl⟩, ?_⟩
    rw [leadsTo_iff]
    exact ⟨rfl, hliteral.mpr hplain.plain⟩

theorem not_addressesOneActor_of_relative {path : Str}
    (hno : ∀ folder : LinkFolder, startsWith path folder.path = false)
    (hne : path ≠ []) (h : startsWith path [slash] = false) :
    ¬ AddressesOneActor (LocalDSLinkManager.dsaSend path) path := by
  obtain ⟨first, more, hfirst, hsend⟩ := dsaSend_relative hno hne h
  rw [AddressesOneActor, hsend]
  simp only [Destination.selected.injEq]
  rintro ⟨selection, top, names, rfl, hbelow, hleads⟩
  rw [leadsTo_iff] at hleads
  simp only [List.cons.injEq, true_and] at hleads
  obtain ⟨⟨htop, -⟩, -⟩ := hleads
  rcases hbelow with ⟨folder, rfl, -⟩ | ⟨rfl, -⟩
  · have hprefix : brokerName <+: folder.nodeName := ⟨first, htop⟩
    cases folder <;> exact absurd hprefix (by decide)
  · exact hfirst (List.append_right_eq_self.mp htop)

/-- The local manager addresses one actor just with the plain paths. -/
theorem addressesOneActor_iff (path : Str) :
    AddressesOneActor (LocalDSLinkManager.dsaSend path) path ↔ PlainPath path := by
  by_cases hfolder : ∃ folder : LinkFolder, startsWith path folder.path = true
  · obtain ⟨folder, hstart⟩ := hfolder
    exact addressesOneActor_of_folder hstart
  · have hno : ∀ folder : LinkFolder, startsWith path folder.path = false := by
      intro folder
      rw [Bool.eq_false_iff]
      exact fun hstart => hfolder ⟨folder, hstart⟩
    by_cases habsolute : path = [] ∨ startsWith path [slash] = true
    · exact addressesOneActor_of_absolute hno habsolute
    · refine iff_of_false ?_ fun hplain => habsolute hplain.absolute
      rw [not_or, Bool.not_eq_true] at habsolute
      exact not_addressesOneActor_of_relative hno habsolute.1 habsolute.2

/-! ### The paths of requests -/

theorem plainPath_folder (folder : LinkFolder) : PlainPath folder.path := by
  refine ⟨Or.inr (startsWith_slash_of_folder (startsWith_iff.mpr (List.prefix_refl _))), ?_, ?_⟩
  · intro other h
    rw [(folder_unique (startsWith_iff.mpr (List.prefix_refl _))).mp h]
    exact Or.inl rfl
  · rw [segments_folder_path]
    intro segment hsegment
    rw [List.mem_singleton.mp hsegment]
    exact plain_nodeName folder

/-- The pattern admits no operator in a name. -/
theorem plainPath_of_name {folder : LinkFolder} {name : Str}
    (hname : ∀ c ∈ name, isNameChar c = true) : PlainPath (folder.path ++ slash :: name) := by
  have hstart := startsWith_self_append folder.path (slash :: name)
  have hno : slash ∉ name := fun h => absurd (hname _ h) (by decide)
  refine ⟨Or.inr (startsWith_slash_of_folder hstart), ?_, ?_⟩
  · intro other h
    rw [(folder_unique hstart).mp h, continues_iff]
    exact Or.inr ⟨name, rfl⟩
  · rw [segments_path]
    intro segment hsegment
    rcases List.mem_cons.mp hsegment with rfl | hsegment
    · exact plain_nodeName folder
    · have hmem : segment ∈ [name] := by
        rw [← fields_of_no_slash hno]
        exact List.mem_of_mem_filter hsegment
      rw [List.mem_singleton.mp hmem]
      refine ⟨fun h => absurd (hname _ h) (by decide), ?_⟩
      rintro rfl
      exact absurd (hname 46 (by decide)) (by decide)

theorem matchLink_eq_some {parent path name : Str} (h : matchLink parent path = some name) :
    ∀ c ∈ name, isNameChar c = true := by
  simp only [matchLink] at h
  split_ifs at h
  rw [← Option.some.inj h]
  intro c hc
  exact List.mem_takeWhile_imp hc

/-- What a path is resolved to: a folder or a link in it if the pattern matches, else the path
of the node. -/
theorem resolveLinkPath_cases (path : Str) :
    IsLinkPath path ∧ (∃ folder : LinkFolder, resolveLinkPath path = folder.path ∨
        ∃ name, matchLink folder.path path = some name ∧
          resolveLinkPath path = folder.path ++ slash :: name) ∨
      ¬ IsLinkPath path ∧ resolveLinkPath path = (splitPath path).1 := by
  rw [resolveLinkPath, doResolveLinkPath]
  by_cases hdown : path = downstream
  · rw [if_pos hdown]
    exact Or.inl ⟨⟨.downstream, Or.inl hdown⟩, .downstream, Or.inl rfl⟩
  · rw [if_neg hdown]
    cases hdownlink : matchLink downstream path with
    | some responder =>
      exact Or.inl ⟨⟨.downstream, Or.inr (Option.isSome_iff_exists.mpr ⟨_, hdownlink⟩)⟩,
        .downstream, Or.inr ⟨responder, hdownlink, rfl⟩⟩
    | none =>
      by_cases hup : path = upstream
      · rw [if_pos hup]
        exact Or.inl ⟨⟨.upstream, Or.inl hup⟩, .upstream, Or.inl rfl⟩
      · rw [if_neg hup]
        cases huplink : matchLink upstream path with
        | some broker =>
          exact Or.inl ⟨⟨.upstream, Or.inr (Option.isSome_iff_exists.mpr ⟨_, huplink⟩)⟩,
            .upstream, Or.inr ⟨broker, huplink, rfl⟩⟩
        | none =>
          refine Or.inr ⟨?_, rfl⟩
          rintro ⟨folder, h | h⟩
          · cases folder
            · exact hdown h
            · exact hup h
          · cases folder
            · rw [show matchLink LinkFolder.downstream.path path = none from hdownlink] at h
              cases h
            · rw [show matchLink LinkFolder.upstream.path path = none from huplink] at h
              cases h

/-- The path that is resolved for a path of a link is plain. -/
theorem plainPath_of_isLinkPath {path : Str} (h : IsLinkPath path) :
    PlainPath (resolveLinkPath path) := by
  rcases resolveLinkPath_cases path with ⟨-, folder, heq | ⟨name, hname, heq⟩⟩ | ⟨hnot, -⟩
  · rw [heq]
    exact plainPath_folder folder
  · rw [heq]
    exact plainPath_of_name (matchLink_eq_some hname)
  · exact absurd h hnot

theorem resolveLinkPath_of_not_isLinkPath {path : Str} (h : ¬ IsLinkPath path) :
    resolveLinkPath path = (splitPath path).1 := by
  rcases resolveLinkPath_cases path with ⟨hlink, -⟩ | ⟨-, heq⟩
  · exact absurd hlink h
  · exact heq

/-- Requests with these paths, and no others, address one actor at most, the one that they
name; and so do the addresses of the links with these names. -/
theorem LocalDSLinkManager.addresses_iff (path : Str) (folder : LinkFolder) (name : Str) :
    (AddressesOneActor (dsaSend (resolveLinkPath path)) (resolveLinkPath path) ↔
      IsLinkPath path ∨ PlainPath (splitPath path).1) ∧
    (AddressesOneLink (getLinkRoutee folder name) folder name ↔
      ∀ segment ∈ segments name, PlainSegment segment) := by
  refine ⟨?_, addressesOneLink_iff folder name⟩
  rw [addressesOneActor_iff]
  by_cases hlink : IsLinkPath path
  · exact iff_of_true (plainPath_of_isLinkPath hlink) (Or.inl hlink)
  · rw [resolveLinkPath_of_not_isLinkPath hlink]
    exact (or_iff_right hlink).symm

/-- A message for `/downstream/*` goes to every link, one for `/downstream/..` to the parent of
the folder. -/
theorem LocalDSLinkManager.addresses_more :
    ¬ AddressesOneActor (dsaSend (resolveLinkPath (str "/downstream/*")))
        (resolveLinkPath (str "/downstream/*")) ∧
      (∃ selection, dsaSend (resolveLinkPath (str "/downstream/*")) = .selected selection ∧
        ∀ actors : ActorNames → Prop, (∀ actor, actors actor) → ∀ link,
          Denotes actors selection [] [str "user", str "downstream", link]) ∧
      dsaSend (resolveLinkPath (str "/downstream/..")) =
        .selected [.childName (str "user"), .childName (str "downstream"), .parent] := by
  have hresolve : resolveLinkPath (str "/downstream/*") = str "/downstream/*" := by decide +kernel
  have hsend : dsaSend (str "/downstream/*") = .selected
      [.childName (str "user"), .childName (str "downstream"), .childPattern (str "*")] := by
    decide +kernel
  rw [hresolve]
  refine ⟨?_, ⟨_, hsend, ?_⟩, by decide +kernel⟩
  · rw [addressesOneActor_iff]
    intro hplain
    have hsegment := hplain.plain (str "*") (by decide +kernel)
    exact absurd hsegment (by decide)
  · intro actors hactors link
    refine ⟨hactors _, hactors _, link, ?_, hactors _, rfl⟩
    show (link.tails.any fun name => name.isEmpty) = true
    rw [List.any_eq_true]
    exact ⟨[], (List.mem_tails _ _).mpr List.nil_suffix, rfl⟩

end DsaBroker
