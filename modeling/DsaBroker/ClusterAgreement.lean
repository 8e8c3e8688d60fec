import DsaBroker.ClusteredDSLinkFolderActor

/-!
# What the folders of a cluster agree on

Both results are about links that have reported to one member only.  The registry of that member
agrees with the reports as soon as it has heard them (`registry_agrees`).  A link that is
registered again must not overtake its older changes, which are still on their way to the folder.

A listener of any folder sees the link just if it is registered, as soon as that folder has heard
of it (`listener_agrees`), in whatever order the messages of different members come.
-/

namespace DsaBroker

namespace RegistryMessage

/-- The message is about the state of the link. -/
def changes (name : Str) : RegistryMessage → Bool
  | dsLinkStateChanged other _ _ => other = name
  | _ => false

/-- What listeners are told. -/
def update : RegistryMessage → Option (Update Str)
  | registerDSLink name _ _ => some (.add name)
  | unregisterDSLink name => some (.remove name)
  | dsLinkStateChanged .. => none

theorem name_of_changes {name : Str} {m : RegistryMessage} (h : m.changes name = true) :
    m.name = name := by
  rcases m with _ | ⟨other, mode, connected⟩ | _
  · simp [changes] at h
  · exact of_decide_eq_true h
  · simp [changes] at h

end RegistryMessage

/-- What a link has reported, in the end. -/
def lastReported (name : Str) (messages : List RegistryMessage) : Option LinkState :=
  (messages.filter fun m => m.name = name).foldl DSLinkFolder.told none

theorem lastReported_concat (name : Str) (messages : List RegistryMessage) (m : RegistryMessage) :
    lastReported name (messages ++ [m]) =
      if m.name = name then DSLinkFolder.told (lastReported name messages) m
      else lastReported name messages := by
  rw [lastReported, List.filter_append, List.foldl_append, List.filter_cons, List.filter_nil,
    lastReported]
  by_cases hm : m.name = name
  · simp only [hm, decide_true, if_true, List.foldl_cons, List.foldl_nil]
  · simp only [hm, decide_false, if_false, Bool.false_eq_true, List.foldl_nil]

/-! ### One folder -/

namespace ClusteredDSLinkFolderActor

variable {s : ClusteredDSLinkFolderActor} {m : RegistryMessage} {name : Str}

theorem links_mgmtHandler (s : ClusteredDSLinkFolderActor) (m : RegistryMessage) (name : Str) :
    (s.mgmtHandler m).folder.links name =
      if m.name = name ∧ m.changes name = false then
        DSLinkFolder.told (s.folder.links name) m
      else s.folder.links name := by
  rcases m with ⟨other, mode, connected⟩ | ⟨other, mode, connected⟩ | other
  · by_cases h : other = name
    · subst h
      simp [RegistryMessage.name, RegistryMessage.changes, mgmtHandler, DSLinkFolder.persist,
        DSLinkFolder.update, DSLinkFolder.told]
    · simp [RegistryMessage.name, h, mgmtHandler, DSLinkFolder.persist, DSLinkFolder.update,
        Ne.symm h]
  · simp [RegistryMessage.name, RegistryMessage.changes, mgmtHandler]
  · by_cases h : other = name
    · subst h
      simp [RegistryMessage.name, RegistryMessage.changes, mgmtHandler, DSLinkFolder.persist,
        DSLinkFolder.update, DSLinkFolder.told]
    · simp [RegistryMessage.name, h, mgmtHandler, DSLinkFolder.persist, DSLinkFolder.update,
        Ne.symm h]

theorem links_peerMsgHandler (s : ClusteredDSLinkFolderActor) (m : RegistryMessage) (name : Str) :
    (s.peerMsgHandler m).folder.links name =
      if m.changes name then DSLinkFolder.told (s.folder.links name) m
      else s.folder.links name := by
  rcases m with ⟨other, mode, connected⟩ | ⟨other, mode, connected⟩ | other
  · rfl
  · by_cases h : other = name
    · subst h
      rw [RegistryMessage.changes, if_pos (decide_eq_true rfl)]
      exact DSLinkFolder.links_mgmtHandler s.folder (.dsLinkStateChanged other mode connected)
    · rw [RegistryMessage.changes, if_neg (by simpa using h)]
      exact @DSLinkFolder.links_mgmtHandler_of_ne s.folder
        (.dsLinkStateChanged other mode connected) name h
  · rfl

end ClusteredDSLinkFolderActor

namespace FolderCluster

/-- All reports about the link came to one member. -/
def Homed (s : FolderCluster) (name : Str) (home : Address) : Prop :=
  ∀ e ∈ s.handled, e.2.name = name → e.1 = home

variable {s s' : FolderCluster}

/-- The link's entry in the registry of a member. -/
def entry (s : FolderCluster) (a : Address) (name : Str) : Option LinkState :=
  (s.actors a).folder.links name

theorem homed_of_step {i : ClusterInput} (h : s.step i = some s') {name : Str} {home : Address}
    (hs' : s'.Homed name home) : s.Homed name home := by
  -- nothing that was handled is forgotten, so the reports of before are among those of later
  have hsub : s.handled ⊆ s'.handled := by
    rcases i with ⟨a, m⟩ | ⟨x, y⟩ | ⟨x, y⟩ | ⟨a, members⟩ | ⟨a, listRid⟩ | a
    · rw [← Option.some.inj h]
      exact List.subset_append_left _ _
    · obtain ⟨delivery, -, rfl⟩ := Option.map_eq_some_iff.mp h
      exact List.Subset.refl _
    all_goals
      rw [← Option.some.inj h]
      exact List.Subset.refl _
  exact fun e he => hs' e (hsub he)

/-- What is on its way was reported to its sender, and restarts change nothing. -/
structure Grounded (s : FolderCluster) : Prop where
  inFlight : ∀ x y, ∀ m ∈ s.channels.inFlight x y, (x, m) ∈ s.handled
  recovered : ∀ a, (s.actors a).folder.recovered = (s.actors a).folder

/-- What is on its way between two members has been handled by its sender, and every folder is what
it would recover to; no step changes that. -/
theorem Grounded.step (h : s.Grounded) {i : ClusterInput} (hstep : s.step i = some s') :
    s'.Grounded := by
  -- all inputs but a loss change one actor, and the others keep what they have
  have hupdate : ∀ a actor, actor.folder.recovered = actor.folder → ∀ b,
      (Function.update s.actors a actor b).folder.recovered =
        (Function.update s.actors a actor b).folder := by
    intro a actor hactor b
    by_cases hb : b = a
    · subst hb
      rw [Function.update_self]
      exact hactor
    · rw [Function.update_of_ne hb]
      exact h.recovered b
  rcases i with ⟨a, m⟩ | ⟨x, y⟩ | ⟨x, y⟩ | ⟨a, members⟩ | ⟨a, listRid⟩ | a
  · -- a report is journaled, unless it is a change of state, and told to the members
    rw [← Option.some.inj hstep]
    refine ⟨?_, hupdate a _ ?_⟩
    · intro x y n hn
      simp only [PeerChannels.tell] at hn
      split_ifs at hn with hx
      · rcases List.mem_append.mp hn with hold | hnew
        · exact List.mem_append_left _ (h.inFlight x y n hold)
        · rw [List.mem_singleton.mp hnew, hx.1]
          exact List.mem_append_right _ List.mem_cons_self
      · exact List.mem_append_left _ (h.inFlight x y n hn)
    · rcases m with _ | _ | _
      · exact DSLinkFolder.recovered_persist (h.recovered a) _
      · exact h.recovered a
      · exact DSLinkFolder.recovered_persist (h.recovered a) _
  · -- a change of state is journaled by the folder that hears it
    obtain ⟨⟨m, channels⟩, hdeliver, rfl⟩ := Option.map_eq_some_iff.mp hstep
    obtain ⟨hfirst, hothers, -, -⟩ := PeerChannels.deliver_eq_some hdeliver
    refine ⟨?_, hupdate y _ ?_⟩
    · intro a b n hn
      by_cases hab : a = x ∧ b = y
      · obtain ⟨rfl, rfl⟩ := hab
        apply h.inFlight a b n
        rw [hfirst]
        exact List.mem_cons_of_mem _ hn
      · rw [hothers a b hab] at hn
        exact h.inFlight a b n hn
    · rcases m with _ | _ | _
      · exact h.recovered y
      · exact DSLinkFolder.recovered_mgmtHandler (h.recovered y) (.dsLinkStateChanged ..)
      · exact h.recovered y
  · rw [← Option.some.inj hstep]
    refine ⟨?_, h.recovered⟩
    intro a b n hn
    simp only [PeerChannels.lose] at hn
    split_ifs at hn
    · exact h.inFlight a b n (List.mem_of_mem_tail hn)
    · exact h.inFlight a b n hn
  · rw [← Option.some.inj hstep]
    exact ⟨h.inFlight, hupdate a _ (h.recovered a)⟩
  · rw [← Option.some.inj hstep]
    exact ⟨h.inFlight, hupdate a _ (h.recovered a)⟩
  · -- the restarted folder has replayed its journal, which gives what it had
    rw [← Option.some.inj hstep]
    refine ⟨h.inFlight, hupdate a _ ?_⟩
    rw [h.recovered a]
    exact h.recovered a

/-- What a step does to the entries, to the channels and to the reports. -/
theorem step_cases (h : s.Grounded) {i : ClusterInput} (hstep : s.step i = some s') :
    (∃ b m, i = .report b m ∧ s'.handled = s.handled ++ [(b, m)] ∧
        s'.channels = s.channels.tell b (s.actors b).members m ∧
        ∀ a name, s'.entry a name =
          if a = b ∧ m.name = name ∧ m.changes name = false then
            DSLinkFolder.told (s.entry a name) m
          else s.entry a name) ∨
      (∃ x y m, s'.handled = s.handled ∧ s.channels.deliver x y = some (m, s'.channels) ∧
        ∀ a name, s'.entry a name =
          if a = y ∧ m.changes name = true then DSLinkFolder.told (s.entry a name) m
          else s.entry a name) ∨
      (s'.handled = s.handled ∧ (s'.channels = s.channels ∨
          ∃ x y, i = .lost x y ∧ s'.channels = s.channels.lose x y) ∧
        ∀ a name, s'.entry a name = s.entry a name) := by
  -- learning of members, a LIST and a restart leave the entries of all folders alone
  have hkept : ∀ b actor, actor.folder = (s.actors b).folder → ∀ a name,
      (Function.update s.actors b actor a).folder.links name = s.entry a name := by
    intro b actor hactor a name
    rw [entry]
    by_cases ha : a = b
    · subst ha
      rw [Function.update_self, hactor]
    · rw [Function.update_of_ne ha]
  rcases i with ⟨b, m⟩ | ⟨x, y⟩ | ⟨x, y⟩ | ⟨b, members⟩ | ⟨b, listRid⟩ | b
  · rw [← Option.some.inj hstep]
    -- what is registered or removed is changed at once where it is reported
    refine Or.inl ⟨b, m, rfl, rfl, rfl, fun a name => ?_⟩
    rw [entry, entry]
    by_cases ha : a = b
    · subst ha
      simp only [Function.update_self, true_and,
        ClusteredDSLinkFolderActor.links_mgmtHandler]
    · simp only [Function.update_of_ne ha, ha, false_and, if_false]
  · obtain ⟨⟨m, channels⟩, hdeliver, rfl⟩ := Option.map_eq_some_iff.mp hstep
    -- a change of state is made where it is heard
    refine Or.inr (Or.inl ⟨x, y, m, rfl, hdeliver, fun a name => ?_⟩)
    rw [entry, entry]
    by_cases ha : a = y
    · subst ha
      simp only [Function.update_self, true_and,
        ClusteredDSLinkFolderActor.links_peerMsgHandler]
    · simp only [Function.update_of_ne ha, ha, false_and, if_false]
  · rw [← Option.some.inj hstep]
    exact Or.inr (Or.inr ⟨rfl, Or.inr ⟨x, y, rfl, rfl⟩, fun a name => rfl⟩)
  · rw [← Option.some.inj hstep]
    exact Or.inr (Or.inr ⟨rfl, Or.inl rfl, hkept b _ rfl⟩)
  · rw [← Option.some.inj hstep]
    exact Or.inr (Or.inr ⟨rfl, Or.inl rfl, hkept b _ rfl⟩)
  · rw [← Option.some.inj hstep]
    exact Or.inr (Or.inr ⟨rfl, Or.inl rfl, hkept b _ (h.recovered b)⟩)

/-- Who a folder knows changes when it learns of other members. -/
theorem members_of_step {i : ClusterInput} (hstep : s.step i = some s') (a : Address) :
    (s'.actors a).members = (s.actors a).members ∨
      ∃ members, i = .memberUpdate a members ∧ (s'.actors a).members = members := by
  have hkept : ∀ b actor, actor.members = (s.actors b).members →
      (Function.update s.actors b actor a).members = (s.actors a).members := by
    intro b actor hactor
    by_cases ha : a = b
    · subst ha
      rw [Function.update_self, hactor]
    · rw [Function.update_of_ne ha]
  rcases i with ⟨b, m⟩ | ⟨x, y⟩ | ⟨x, y⟩ | ⟨b, members⟩ | ⟨b, listRid⟩ | b
  · rw [← Option.some.inj hstep]
    -- neither reports nor peer messages teach a folder of members
    refine Or.inl (hkept b _ ?_)
    rcases m with _ | _ | _ <;> rfl
  · obtain ⟨⟨m, channels⟩, -, rfl⟩ := Option.map_eq_some_iff.mp hstep
    refine Or.inl (hkept y _ ?_)
    rcases m with _ | _ | _ <;> rfl
  · rw [← Option.some.inj hstep]
    exact Or.inl rfl
  · rw [← Option.some.inj hstep]
    by_cases ha : a = b
    · subst ha
      exact Or.inr ⟨members, rfl, by simp only [Function.update_self]⟩
    · exact Or.inl (by simp only [Function.update_of_ne ha])
  · rw [← Option.some.inj hstep]
    exact Or.inl (hkept b _ rfl)
  · rw [← Option.some.inj hstep]
    exact Or.inl (hkept b _ rfl)

end FolderCluster

/-! ### The registry of one member -/

/-- A folder knows its own member and does not lose messages to itself, and no link is registered
while a change of its state is on its way to the folder. -/
def InStep (s : FolderCluster) : ClusterInput → Prop
  | .report a (.registerDSLink name _ _) =>
      ∀ m ∈ s.channels.inFlight a a, m.changes name = false
  | .lost sender receiver => sender ≠ receiver
  | .memberUpdate a members => members a = true
  | _ => True

instance InStep.decidable (s : FolderCluster) : (i : ClusterInput) → Decidable (InStep s i)
  | .report a (.registerDSLink name _ _) =>
      inferInstanceAs (Decidable (∀ m ∈ s.channels.inFlight a a, m.changes name = false))
  | .report _ (.dsLinkStateChanged ..) => .isTrue trivial
  | .report _ (.unregisterDSLink _) => .isTrue trivial
  | .peerMessage .. => .isTrue trivial
  | .lost sender receiver => inferInstanceAs (Decidable (sender ≠ receiver))
  | .memberUpdate a members => inferInstanceAs (Decidable (members a = true))
  | .listRidUpdated .. => .isTrue trivial
  | .restart _ => .isTrue trivial

theorem foldl_told_none {name : Str} {messages : List RegistryMessage}
    (h : ∀ m ∈ messages, m.changes name = true) :
    messages.foldl DSLinkFolder.told none = none := by
  induction messages with
  | nil => rfl
  | cons m rest ih =>
    obtain ⟨hm, hrest⟩ := List.forall_mem_cons.mp h
    rcases m with _ | _ | _
    · simp [RegistryMessage.changes] at hm
    · exact ih hrest
    · simp [RegistryMessage.changes] at hm

namespace FolderCluster

variable {s s' : FolderCluster}

/-- The changes on their way lead to what was reported in the end. -/
structure RegistryInv (name : Str) (home : Address) (s : FolderCluster) : Prop where
  grounded : s.Grounded
  self : (s.actors home).members home = true
  elsewhere : s.Homed name home → ∀ b, b ≠ home → s.entry b name = none
  agrees : s.Homed name home →
    ((s.channels.inFlight home home).filter (RegistryMessage.changes name)).foldl
      DSLinkFolder.told (s.entry home name) = lastReported name (s.handled.map Prod.snd)

/-- A report to the home of the link. -/
theorem RegistryInv.report {name : Str} {home : Address} (h : s.RegistryInv name home)
    (hhomed : s.Homed name home) {m : RegistryMessage} (hok : InStep s (.report home m))
    (hm : m.name = name) {entry : Option LinkState}
    (hentry : entry = if m.changes name = false then
      DSLinkFolder.told (s.entry home name) m else s.entry home name) :
    (((s.channels.tell home (s.actors home).members m).inFlight home home).filter
      (RegistryMessage.changes name)).foldl DSLinkFolder.told entry =
      DSLinkFolder.told (lastReported name (s.handled.map Prod.snd)) m := by
  subst hm
  rw [← h.agrees hhomed]
  rcases m with ⟨name, mode, connected⟩ | ⟨name, mode, connected⟩ | name
  · -- nothing is on its way that could overwrite the entry
    have hnone : (s.channels.inFlight home home).filter (RegistryMessage.changes name) = [] := by
      rw [List.filter_eq_nil_iff]
      intro n hn
      rw [hok n hn]
      exact Bool.false_ne_true
    rw [PeerChannels.filter_tell rfl, hentry]
    exact congrArg (List.foldl _ _) hnone
  · -- a change of state only sets out, and arrives behind those that are on their way
    have hchanges : RegistryMessage.changes name (.dsLinkStateChanged name mode connected) = true :=
      decide_eq_true rfl
    have hsent : (s.channels.tell home (s.actors home).members
        (.dsLinkStateChanged name mode connected)).inFlight home home =
        s.channels.inFlight home home ++ [.dsLinkStateChanged name mode connected] :=
      if_pos ⟨rfl, h.self⟩
    rw [hsent, hentry]
    simp only [RegistryMessage.name, hchanges, Bool.true_eq_false, if_false, List.filter_append,
      List.filter_cons, if_true, List.filter_nil, List.foldl_append, List.foldl_cons,
      List.foldl_nil]
  · -- the link is removed, and what is on its way finds no entry
    rw [PeerChannels.filter_tell rfl, hentry]
    exact foldl_told_none fun m hm => (List.mem_filter.mp hm).2

/-- **Every step** keeps the registry of the home member with its reports: the entry of the link,
once the changes on their way to the folder itself have come, is what was reported last, and no
other folder has an entry. -/
theorem RegistryInv.step {name : Str} {home : Address} (h : s.RegistryInv name home)
    {i : ClusterInput} (hok : InStep s i) (hstep : s.step i = some s') :
    s'.RegistryInv name home := by
  have hself : (s'.actors home).members home = true := by
    rcases members_of_step hstep home with hsame | ⟨members, rfl, hnew⟩
    · rw [hsame]
      exact h.self
    · rw [hnew]
      exact hok
  refine ⟨h.grounded.step hstep, hself, ?_, ?_⟩
  · -- other members: a report there would be a second home, and a change finds no entry
    intro hhomed b hb
    have hbefore := h.elsewhere (homed_of_step hstep hhomed) b hb
    rcases step_cases h.grounded hstep with ⟨x, m, -, hhandled, -, hentry⟩ |
      ⟨x, y, m, -, -, hentry⟩ | ⟨-, -, hentry⟩
    · rw [hentry, if_neg, hbefore]
      rintro ⟨rfl, hname, -⟩
      apply hb
      apply hhomed (b, m) _ hname
      rw [hhandled]
      exact List.mem_append_right _ List.mem_cons_self
    · rw [hentry, hbefore]
      split_ifs with hy
      · exact foldl_told_none (List.forall_mem_singleton.mpr hy.2)
      · rfl
    · rw [hentry, hbefore]
  · intro hhomed
    have hbefore := h.agrees (homed_of_step hstep hhomed)
    rcases step_cases h.grounded hstep with ⟨x, m, rfl, hhandled, hchannels, hentry⟩ |
      ⟨x, y, m, hhandled, hdeliver, hentry⟩ | ⟨hhandled, hchannels, hentry⟩
    · -- a report: about this link it comes to its home, and about others it changes nothing here
      rw [hhandled, List.map_append, List.map_singleton, lastReported_concat, hchannels]
      by_cases hm : m.name = name
      · have hx : x = home := by
          apply hhomed (x, m) _ hm
          rw [hhandled]
          exact List.mem_append_right _ List.mem_cons_self
        subst hx
        rw [if_pos hm]
        apply h.report (homed_of_step hstep hhomed) hok hm
        rw [hentry]
        simp only [hm, true_and]
      · have hchanges : m.changes name = false :=
          Bool.eq_false_iff.mpr (mt RegistryMessage.name_of_changes hm)
        rw [PeerChannels.filter_tell hchanges, if_neg hm, hentry, if_neg fun hx => hm hx.2.1]
        exact hbefore
    · -- a message that is heard: a change of this link comes from its home, as all of them do
      rw [hhandled, ← hbefore, hentry]
      rcases hchanges : m.changes name with _ | _
      · rw [PeerChannels.filter_deliver hchanges hdeliver, if_neg (by simp)]
      · obtain ⟨hfirst, hothers, -, -⟩ := PeerChannels.deliver_eq_some hdeliver
        have hx : x = home := by
          apply homed_of_step hstep hhomed (x, m) _ (RegistryMessage.name_of_changes hchanges)
          apply h.grounded.inFlight x y
          rw [hfirst]
          exact List.mem_cons_self
        subst hx
        -- at home it is the first of those on their way, so it is applied just before the rest
        by_cases hy : x = y
        · subst hy
          rw [if_pos ⟨rfl, rfl⟩, hfirst, List.filter_cons, if_pos hchanges, List.foldl_cons]
        · rw [if_neg fun hxy => hy hxy.1, hothers x x fun hxy => hy hxy.2]
    · rw [hhandled, ← hbefore, hentry]
      rcases hchannels with hsame | ⟨x, y, rfl, hlost⟩
      · rw [hsame]
      · -- a message between two members is lost
        have hne : ¬ (home = x ∧ home = y) := fun hxy => hok (hxy.1.symm.trans hxy.2)
        have hkept : (s.channels.lose x y).inFlight home home = s.channels.inFlight home home :=
          if_neg hne
        rw [hlost, hkept]

end FolderCluster

def memberA : Address := str "memberA"

def memberB : Address := str "memberB"

/-- A link that is registered again overtakes the change of its state: it is connected, and its
registry says that it is not. -/
theorem change_overtaken :
    ¬ ∀ s, Reachable FolderCluster.step AnyStep
      (FolderCluster.initial (fun _ _ => true) fun _ => none) s →
      ∀ name home, s.Homed name home → s.channels.inFlight home home = [] →
        s.entry home name = lastReported name (s.handled.map Prod.snd) := by
  intro hall
  obtain ⟨s, hs, hquiet, hhomed, hentry, hreported⟩ := @Reachable.exists_of_run _ _
    FolderCluster.step AnyStep (FolderCluster.initial (fun _ _ => true) fun _ => none) _
    [.report memberA (.registerDSLink (str "X") .responder true),
      .report memberA (.dsLinkStateChanged (str "X") .responder false),
      .report memberA (.registerDSLink (str "X") .responder true), .peerMessage memberA memberA,
      .peerMessage memberA memberA, .peerMessage memberA memberA]
    (fun s => s.channels.inFlight memberA memberA = [] ∧
      (∀ e ∈ s.handled, e.2.name = str "X" → e.1 = memberA) ∧
      s.entry memberA (str "X") = some ⟨.responder, false⟩ ∧
      lastReported (str "X") (s.handled.map Prod.snd) = some ⟨.responder, true⟩) _ (by decide)
  have hagrees := hall s hs (str "X") memberA hhomed hquiet
  rw [hentry, hreported] at hagrees
  exact absurd hagrees (by decide)

/-! ### Listeners -/

/-- The folders of the listeners miss no message, are known to all others, and their LIST is not
changed. -/
def Listening (listeners : List Address) (_ : FolderCluster) : ClusterInput → Prop
  | .lost _ receiver => receiver ∉ listeners
  | .memberUpdate _ members => ∀ b ∈ listeners, members b = true
  | .listRidUpdated a _ => a ∉ listeners
  | _ => True

instance Listening.decidable (listeners : List Address) (s : FolderCluster) :
    (i : ClusterInput) → Decidable (Listening listeners s i)
  | .report .. => .isTrue trivial
  | .peerMessage .. => .isTrue trivial
  | .lost _ receiver => inferInstanceAs (Decidable (receiver ∉ listeners))
  | .memberUpdate _ members => inferInstanceAs (Decidable (∀ b ∈ listeners, members b = true))
  | .listRidUpdated a _ => inferInstanceAs (Decidable (a ∉ listeners))
  | .restart _ => .isTrue trivial

namespace ClusteredDSLinkFolderActor

/-- What the listeners of the folder have been told about links. -/
def updates (s : ClusteredDSLinkFolderActor) : List (Update Str) :=
  (s.own.flatMap DSAResponse.rows).filterMap rowUpdate

theorem updates_notify {s : ClusteredDSLinkFolderActor} {rid : Int} (h : s.listRid = some rid)
    (row : DSAVal) : (s.notify [row]).updates = s.updates ++ (rowUpdate row).toList := by
  rw [updates, notify, h, Option.toList_some, List.map_singleton, List.flatMap_append,
    List.filterMap_append, updates]
  exact congrArg _ (filterMap_concat rowUpdate [] row)

theorem updates_peerMsgHandler {s : ClusteredDSLinkFolderActor} {rid : Int}
    (h : s.listRid = some rid) (m : RegistryMessage) :
    (s.peerMsgHandler m).updates = s.updates ++ m.update.toList := by
  rcases m with ⟨name, _, _⟩ | _ | name
  · exact updates_notify h _
  · exact (List.append_nil _).symm
  · have hupdate : RegistryMessage.update (.unregisterDSLink name) =
        rowUpdate (removedRow name) := (rowUpdate_removedRow name).symm
    rw [hupdate]
    exact updates_notify h _

theorem listRid_peerMsgHandler (s : ClusteredDSLinkFolderActor) (m : RegistryMessage) :
    (s.peerMsgHandler m).listRid = s.listRid := by
  rcases m with _ | _ | _ <;> rfl

end ClusteredDSLinkFolderActor

theorem filter_updates (messages : List RegistryMessage) (name : Str) :
    (messages.filterMap RegistryMessage.update).filter (fun u => u.element = name) =
      (messages.filter fun m => m.name = name).filterMap RegistryMessage.update := by
  induction messages using List.reverseRecOn with
  | nil => rfl
  | append_singleton before m ih =>
    rw [filterMap_concat, List.filter_append, List.filter_append, List.filterMap_append, ih]
    congr 1
    rcases m with ⟨other, _, _⟩ | ⟨other, _, _⟩ | other <;>
      by_cases h : other = name <;>
        simp [RegistryMessage.update, RegistryMessage.name, Update.element, h]

/-- The updates about a link say whether it is registered. -/
theorem mem_viewOf_updates (messages : List RegistryMessage) (name : Str) :
    name ∈ viewOf (messages.filterMap RegistryMessage.update) ↔
      (lastReported name messages).isSome = true := by
  induction messages using List.reverseRecOn with
  | nil => simp [viewOf, lastReported]
  | append_singleton before m ih =>
    rw [lastReported_concat, filterMap_concat]
    rcases m with ⟨other, mode, connected⟩ | ⟨other, mode, connected⟩ | other
    · rw [RegistryMessage.update, Option.toList_some, mem_viewOf_add, ih]
      by_cases h : other = name
      · simp [RegistryMessage.name, h, DSLinkFolder.told]
      · simp [RegistryMessage.name, h, Ne.symm h]
    · rw [RegistryMessage.update, Option.toList_none, List.append_nil, ih]
      split_ifs <;> simp [DSLinkFolder.told]
    · rw [RegistryMessage.update, Option.toList_some, mem_viewOf_remove, ih]
      by_cases h : other = name
      · simp [RegistryMessage.name, h, DSLinkFolder.told]
      · simp [RegistryMessage.name, h, Ne.symm h]

namespace FolderCluster

variable {s s' : FolderCluster}

/-- What is registered, and what the folders of the listeners have heard and said. -/
structure ListenerInv (listeners : List Address) (s : FolderCluster) : Prop where
  grounded : s.Grounded
  members : ∀ a, ∀ b ∈ listeners, (s.actors a).members b = true
  complete : ∀ b ∈ listeners, s.channels.Complete s.handled b
  listRid : ∀ b ∈ listeners, (s.actors b).listRid.isSome = true
  told : ∀ b ∈ listeners, (s.actors b).updates =
    ((s.channels.heard b).map Prod.snd).filterMap RegistryMessage.update
  registered : ∀ name home, s.Homed name home →
    (s.entry home name).isSome = (lastReported name (s.handled.map Prod.snd)).isSome

theorem ListenerInv.initial {listeners : List Address} {members : Address → Address → Bool}
    {listRid : Address → Option Int} (hmembers : ∀ a, ∀ b ∈ listeners, members a b = true)
    (hlisted : ∀ b ∈ listeners, (listRid b).isSome = true) :
    (FolderCluster.initial members listRid).ListenerInv listeners where
  grounded := ⟨fun _ _ _ hm => absurd hm List.not_mem_nil, fun _ => rfl⟩
  members := hmembers
  complete b _ := PeerChannels.complete_empty b
  listRid := hlisted
  told _ _ := rfl
  registered _ _ _ := rfl

/-- A folder that hears a message tells its listeners, and no other step does. -/
theorem told_of_step {listeners : List Address} {i : ClusterInput} (hok : Listening listeners s i)
    (hstep : s.step i = some s') {b : Address} (hb : b ∈ listeners)
    (hlisted : (s.actors b).listRid.isSome = true)
    (htold : (s.actors b).updates =
      ((s.channels.heard b).map Prod.snd).filterMap RegistryMessage.update) :
    (s'.actors b).listRid.isSome = true ∧ (s'.actors b).updates =
      ((s'.channels.heard b).map Prod.snd).filterMap RegistryMessage.update := by
  -- an actor that has the same LIST and has said the same is as good as the one before
  have hkept : ∀ a actor, (a = b → actor.listRid = (s.actors b).listRid ∧
      actor.own = (s.actors b).own) →
      (Function.update s.actors a actor b).listRid.isSome = true ∧
        (Function.update s.actors a actor b).updates =
          ((s.channels.heard b).map Prod.snd).filterMap RegistryMessage.update := by
    intro a actor hactor
    by_cases ha : a = b
    · obtain ⟨hrid, hown⟩ := hactor ha
      rw [ha, Function.update_self, hrid, ← htold, ClusteredDSLinkFolderActor.updates, hown]
      exact ⟨hlisted, rfl⟩
    · rw [Function.update_of_ne (Ne.symm ha)]
      exact ⟨hlisted, htold⟩
  rcases i with ⟨a, m⟩ | ⟨x, y⟩ | ⟨x, y⟩ | ⟨a, members⟩ | ⟨a, listRid⟩ | a
  · rw [← Option.some.inj hstep]
    -- a report is answered to the members only, and the folder's own notices come with hearing
    apply hkept a
    rintro rfl
    rcases m with _ | _ | _ <;> exact ⟨rfl, rfl⟩
  · obtain ⟨⟨m, channels⟩, hdeliver, rfl⟩ := Option.map_eq_some_iff.mp hstep
    obtain ⟨-, -, hheard, hdeaf⟩ := PeerChannels.deliver_eq_some hdeliver
    by_cases hy : b = y
    · subst hy
      obtain ⟨rid, hrid⟩ := Option.isSome_iff_exists.mp hlisted
      simp only [Function.update_self, ClusteredDSLinkFolderActor.listRid_peerMsgHandler]
      refine ⟨hlisted, ?_⟩
      rw [ClusteredDSLinkFolderActor.updates_peerMsgHandler hrid, htold, hheard, List.map_append,
        List.map_singleton, filterMap_concat]
    · simp only [Function.update_of_ne hy, hdeaf b hy]
      exact ⟨hlisted, htold⟩
  · rw [← Option.some.inj hstep]
    exact ⟨hlisted, htold⟩
  · rw [← Option.some.inj hstep]
    exact hkept a _ fun ha => ha ▸ ⟨rfl, rfl⟩
  · rw [← Option.some.inj hstep]
    apply hkept a
    rintro rfl
    exact absurd hb hok
  · rw [← Option.some.inj hstep]
    exact hkept a _ fun ha => ha ▸ ⟨rfl, rfl⟩

/-- Whether a link is in the registry of its home does not depend on what is on its way. -/
theorem registered_of_step (h : s.Grounded) {i : ClusterInput} (hstep : s.step i = some s')
    {name : Str} {home : Address} (hhomed : s'.Homed name home)
    (hbefore : (s.entry home name).isSome =
      (lastReported name (s.handled.map Prod.snd)).isSome) :
    (s'.entry home name).isSome = (lastReported name (s'.handled.map Prod.snd)).isSome := by
  -- a change of state changes no more than an entry that is there
  have htold : ∀ m : RegistryMessage, m.changes name = true → ∀ entry : Option LinkState,
      (DSLinkFolder.told entry m).isSome = entry.isSome := by
    rintro (_ | _ | _) hm entry
    · simp [RegistryMessage.changes] at hm
    · simp [DSLinkFolder.told]
    · simp [RegistryMessage.changes] at hm
  rcases step_cases h hstep with ⟨x, m, -, hhandled, -, hentry⟩ |
    ⟨x, y, m, hhandled, -, hentry⟩ | ⟨hhandled, -, hentry⟩
  · -- only registering and removing decide whether the entry is there, and they act at once
    rw [hhandled, List.map_append, List.map_singleton, lastReported_concat, hentry]
    by_cases hm : m.name = name
    · have hx : x = home := by
        apply hhomed (x, m) _ hm
        rw [hhandled]
        exact List.mem_append_right _ List.mem_cons_self
      rw [if_pos hm]
      rcases hchanges : m.changes name with _ | _
      · rw [if_pos ⟨hx.symm, hm, rfl⟩]
        rcases m with _ | ⟨other, _, _⟩ | _
        · rfl
        · obtain rfl : other = name := hm
          simp [RegistryMessage.changes] at hchanges
        · rfl
      · rw [if_neg (by simp), htold m hchanges, hbefore]
    · rw [if_neg hm, if_neg fun hx => hm hx.2.1, hbefore]
  · rw [hhandled, ← hbefore, hentry]
    split_ifs with hy
    · exact htold m hy.2 _
    · rfl
  · rw [hhandled, ← hbefore, hentry]

/-- **Every step** keeps the listeners up to date: they stay members everywhere, they miss no
message, and what they have told is what they have heard. -/
theorem ListenerInv.step {listeners : List Address} (h : s.ListenerInv listeners)
    {i : ClusterInput} (hok : Listening listeners s i) (hstep : s.step i = some s') :
    s'.ListenerInv listeners where
  grounded := h.grounded.step hstep
  -- the members that count are those of the step, which `Listening` keeps the listeners among
  members a b hb := by
    rcases members_of_step hstep a with hsame | ⟨members, rfl, hnew⟩
    · rw [hsame]
      exact h.members a b hb
    · rw [hnew]
      exact hok b hb
  complete b hb := by
    have hbefore := h.complete b hb
    -- a report is told to every member, so to the listener too
    rcases step_cases h.grounded hstep with ⟨x, m, -, hhandled, hchannels, -⟩ |
      ⟨x, y, m, hhandled, hdeliver, -⟩ | ⟨hhandled, hsame | ⟨x, y, rfl, hlost⟩, -⟩
    · rw [hhandled, hchannels]
      exact hbefore.tell (h.members x b hb) m
    · -- a message that is heard leaves the way and is among what was heard
      rw [hhandled]
      exact hbefore.deliver hdeliver
    · rw [hhandled, hsame]
      exact hbefore
    · -- a lost message was on its way to a folder that is no listener
      rw [hhandled, hlost]
      exact hbefore.lose x fun heq => hok (heq ▸ hb)
  listRid b hb := (told_of_step hok hstep hb (h.listRid b hb) (h.told b hb)).1
  told b hb := (told_of_step hok hstep hb (h.listRid b hb) (h.told b hb)).2
  -- only this fact needs that a name has one home, and it had the same one before the step
  registered name home hhomed :=
    registered_of_step h.grounded hstep hhomed
      (h.registered name home (homed_of_step hstep hhomed))

end FolderCluster

/-- **Listeners.**  Some folders have their LIST of the root from the start and keep it, every
folder has them among the members throughout, and they miss no message.  In every such run, once
one of them has heard the messages that are on their way from the link's member, what it has sent
to itself for those who list it shows the link just if the link is in the registry there.

A LIST that is opened in the run may be overtaken: its rows are fetched from all members, and a
removal that comes before them is forgotten. -/
theorem listener_agrees {listeners : List Address} {members : Address → Address → Bool}
    {listRid : Address → Option Int} (hmembers : ∀ a, ∀ b ∈ listeners, members a b = true)
    (hlisted : ∀ b ∈ listeners, (listRid b).isSome = true) {s : FolderCluster}
    (h : Reachable FolderCluster.step (Listening listeners)
      (FolderCluster.initial members listRid) s)
    {name : Str} {home : Address} (hhomed : s.Homed name home) :
    ∀ b ∈ listeners,
      name ∈ viewOf ((s.actors b).updates ++
          (s.channels.inFlight home b).filterMap RegistryMessage.update) ↔
        (s.entry home name).isSome = true := by
  have hinv : s.ListenerInv listeners :=
    h.invariant (FolderCluster.ListenerInv.initial hmembers hlisted)
      fun s i s' hs hok hstep => hs.step hok hstep
  intro b hb
  have hkind : ∀ e ∈ s.handled, decide (e.2.name = name) = true → e.1 = home :=
    fun e he hname => hhomed e he (of_decide_eq_true hname)
  have horder : ((s.actors b).updates ++
      (s.channels.inFlight home b).filterMap RegistryMessage.update).filter
        (fun u => u.element = name) =
      ((s.handled.map Prod.snd).filterMap RegistryMessage.update).filter
        (fun u => u.element = name) := by
    rw [hinv.told b hb, ← List.filterMap_append, filter_updates, filter_updates,
      List.filter_append, (hinv.complete b hb).filter hkind]
  rw [← mem_viewOf_filter, horder, mem_viewOf_filter, mem_viewOf_updates,
    hinv.registered name home hhomed]

/-- The folder of the other member has heard of the link, and not yet of its removal. -/
theorem listener_agrees_removed :
    ∃ s : FolderCluster, s.channels.inFlight memberA memberB ≠ [] ∧
      str "X" ∈ viewOf (s.actors memberB).updates ∧
      (str "X" ∈ viewOf ((s.actors memberB).updates ++
          (s.channels.inFlight memberA memberB).filterMap RegistryMessage.update) ↔
        (s.entry memberA (str "X")).isSome = true) := by
  obtain ⟨s, hs, hhomed, hflight, hview⟩ := @Reachable.exists_of_run _ _ FolderCluster.step
    (Listening [memberB]) (FolderCluster.initial (fun _ _ => true) fun _ => some 1) _
    [.report memberA (.registerDSLink (str "X") .responder true), .peerMessage memberA memberB,
      .report memberA (.unregisterDSLink (str "X"))]
    (fun s => (∀ e ∈ s.handled, e.2.name = str "X" → e.1 = memberA) ∧
      s.channels.inFlight memberA memberB ≠ [] ∧
      str "X" ∈ viewOf (s.actors memberB).updates) _ (by decide)
  have hagrees := listener_agrees (fun _ _ _ => rfl) (fun _ _ => rfl) hs hhomed memberB
    List.mem_cons_self
  exact ⟨s, hflight, hview, hagrees⟩

end DsaBroker
