import DsaBroker.AbstractDSLinkActor
import Mathlib.Logic.Function.Basic

/-!
# A link and its folder

`LocalDSLinkFolderActor` keeps the mode and the connectedness of the links it is the registry
of, as the links report them.  The messages of one link arrive in the order in which they were
sent; messages about other links may come in between.

A link that starts registers as a disconnected requester, and reports nothing when recovery has
restored another state.  So the folder agrees with the link in the runs in which every restart
recovers a disconnected requester (`link_state_agreement`).  LIST notifications about links are
left out.
-/

namespace DsaBroker

structure LinkState where
  mode : DSLinkMode
  connected : Bool
deriving DecidableEq, Repr

def RegistryMessage.name : RegistryMessage → Str
  | registerDSLink name _ _ | dsLinkStateChanged name _ _ | unregisterDSLink name => name

inductive DSLinkFolderEvent where
  | dsLinkRegistered (name : Str) (mode : DSLinkMode) (connected : Bool)
  | dsLinkUnregistered (name : Str)
deriving DecidableEq

structure DSLinkFolder where
  links : Str → Option LinkState
  journal : List DSLinkFolderEvent

namespace DSLinkFolder

def empty : DSLinkFolder := ⟨fun _ => none, []⟩

/-- The effect of an event on the links, in its handler and in `dslinkFolderRecover`. -/
def update (links : Str → Option LinkState) : DSLinkFolderEvent → Str → Option LinkState
  | .dsLinkRegistered name mode connected => Function.update links name (some ⟨mode, connected⟩)
  | .dsLinkUnregistered name => Function.update links name none

def persist (folder : DSLinkFolder) (event : DSLinkFolderEvent) : DSLinkFolder :=
  ⟨update folder.links event, folder.journal ++ [event]⟩

/-- Changes the recorded link state; a link that is not registered is ignored. -/
def changeLinkState (folder : DSLinkFolder) (name : Str) (mode : DSLinkMode) (connected : Bool) :
    DSLinkFolder :=
  match folder.links name with
  | some _ => folder.persist (.dsLinkRegistered name mode connected)
  | none => folder

/-- The messages of links among the control messages. -/
def mgmtHandler (folder : DSLinkFolder) : RegistryMessage → DSLinkFolder
  | .registerDSLink name mode connected => folder.persist (.dsLinkRegistered name mode connected)
  | .unregisterDSLink name => folder.persist (.dsLinkUnregistered name)
  | .dsLinkStateChanged name mode connected => folder.changeLinkState name mode connected

def recovered (folder : DSLinkFolder) : DSLinkFolder :=
  { folder with links := folder.journal.foldl update fun _ => none }

/-- What a message makes of the entry of the link it is about. -/
def told (entry : Option LinkState) : RegistryMessage → Option LinkState
  | .registerDSLink _ mode connected => some ⟨mode, connected⟩
  | .unregisterDSLink _ => none
  | .dsLinkStateChanged _ mode connected => entry.map fun _ => ⟨mode, connected⟩

theorem links_mgmtHandler (folder : DSLinkFolder) (message : RegistryMessage) :
    (folder.mgmtHandler message).links message.name =
      told (folder.links message.name) message := by
  cases message with
  | registerDSLink name mode connected => exact Function.update_self ..
  | unregisterDSLink name => exact Function.update_self ..
  | dsLinkStateChanged name mode connected =>
    simp only [RegistryMessage.name, mgmtHandler, changeLinkState]
    cases hentry : folder.links name with
    | none => exact hentry
    | some entry => exact Function.update_self ..

theorem links_mgmtHandler_of_ne {folder : DSLinkFolder} {message : RegistryMessage} {name : Str}
    (hname : message.name ≠ name) :
    (folder.mgmtHandler message).links name = folder.links name := by
  cases message with
  | registerDSLink other mode connected => exact Function.update_of_ne hname.symm ..
  | unregisterDSLink other => exact Function.update_of_ne hname.symm ..
  | dsLinkStateChanged other mode connected =>
    simp only [mgmtHandler, changeLinkState]
    cases folder.links other with
    | none => rfl
    | some entry => exact Function.update_of_ne hname.symm ..

theorem recovered_persist {folder : DSLinkFolder} (h : folder.recovered = folder)
    (event : DSLinkFolderEvent) : (folder.persist event).recovered = folder.persist event := by
  have hlinks : folder.journal.foldl update (fun _ => none) = folder.links :=
    congrArg DSLinkFolder.links h
  simp only [recovered, persist, List.foldl_append, hlinks, List.foldl_cons, List.foldl_nil]

/-- Every change is journaled, so a folder that is what its journal gives is so after a message too.
-/
theorem recovered_mgmtHandler {folder : DSLinkFolder} (h : folder.recovered = folder)
    (message : RegistryMessage) :
    (folder.mgmtHandler message).recovered = folder.mgmtHandler message := by
  cases message with
  | registerDSLink name mode connected => exact recovered_persist h _
  | unregisterDSLink name => exact recovered_persist h _
  | dsLinkStateChanged name mode connected =>
    simp only [mgmtHandler, changeLinkState]
    cases folder.links name with
    | none => exact h
    | some entry => exact recovered_persist h _

end DSLinkFolder

/-! ### The two actors together -/

/-- A link, its messages on their way, and the folder. -/
structure LinkAndFolder where
  link : LinkActor
  inFlight : List RegistryMessage
  folder : DSLinkFolder

inductive FolderInput where
  | link (input : SessionInput)
  | deliver
  /-- by its supervisor; the links are children of the folder and start anew -/
  | restartFolder
  /-- a message about another link -/
  | other (message : RegistryMessage)

namespace LinkAndFolder

/-- A link that has just been started for the first time. -/
def initial (linkName : Str) : LinkAndFolder where
  link := .initial linkName
  inFlight := LinkActor.registryMessages (LinkActor.preStart linkName)
  folder := .empty

/-- One step.  When everything goes down, messages on their way are lost and the folder recovers
as well. -/
def step (s : LinkAndFolder) : FolderInput → Option LinkAndFolder
  | .link .startAfterCrash =>
      (s.link.perform .startAfterCrash).map fun r =>
        ⟨r.1, LinkActor.registryMessages r.2, s.folder.recovered⟩
  | .link input =>
      (s.link.perform input).map fun r =>
        { s with link := r.1, inFlight := s.inFlight ++ LinkActor.registryMessages r.2 }
  | .restartFolder =>
      (s.link.perform .startAnew).map fun r =>
        ⟨r.1, s.inFlight ++ LinkActor.registryMessages r.2, s.folder.recovered⟩
  | .deliver =>
      match s.inFlight with
      | [] => none
      | message :: rest =>
          some { s with inFlight := rest, folder := s.folder.mgmtHandler message }
  | .other message =>
      if message.name = s.link.linkName then none
      else some { s with folder := s.folder.mgmtHandler message }

/-- The entry that the folder should have for the link. -/
def linkState (link : LinkActor) : LinkState :=
  ⟨link.state.connInfo.mode, link.state.endpoint.isSome⟩

/-- **Agreement.**  When nothing is on its way, the folder has the link's state. -/
def Agrees (s : LinkAndFolder) : Prop :=
  s.inFlight = [] → s.folder.links s.link.linkName = some (linkState s.link)

/-- The journal of the link does not end with an endpoint or with another mode than that of a
requester. -/
def EndsAsStarted (link : LinkActor) : Prop :=
  ∀ event, link.journal.getLast? = some event →
    event.endpoint = none ∧ event.connInfo.mode = .requester

/-- The link is restarted or started anew only as a disconnected requester. -/
def RestartsAsStarted (s : LinkAndFolder) : FolderInput → Prop
  | .link (.receive _) | .deliver | .other _ => True
  | .link .restart | .link .startAnew | .link .startAfterCrash | .restartFolder =>
      EndsAsStarted s.link

/-! ### The invariant -/

/-- The session of the link is in order, all messages on their way are about the link, and once
they have arrived the folder has the link's state. -/
structure FolderInv (s : LinkAndFolder) : Prop where
  session : s.link.SessionInv
  name : ∀ message ∈ s.inFlight, message.name = s.link.linkName
  settled : s.inFlight.foldl DSLinkFolder.told (s.folder.links s.link.linkName) =
    some (linkState s.link)

theorem folderInv_initial (linkName : Str) : (initial linkName).FolderInv where
  session := LinkActor.sessionInv_initial linkName
  name message hmessage := by
    rw [List.mem_singleton.mp hmessage]
    rfl
  settled := rfl

/-- A message that the link receives. -/
theorem FolderInv.session_step {s : LinkAndFolder} {link : LinkActor} {sent : List RegistryMessage}
    (h : s.FolderInv) (hsession : LinkActor.Session s.link link sent) :
    ({ s with link := link, inFlight := s.inFlight ++ sent } : LinkAndFolder).FolderInv := by
  have hname : link.linkName = s.link.linkName := by
    cases hsession <;> rfl
  constructor
  · exact h.session.session hsession
  · intro message hmessage
    rcases List.mem_append.mp hmessage with hbefore | hsent
    · exact (h.name message hbefore).trans hname.symm
    · apply Eq.trans _ hname.symm
      cases hsession with
      | kept => exact absurd hsent List.not_mem_nil
      | disconnected now hendpoint =>
        rw [List.mem_singleton.mp hsent]
        rfl
      | connected ref ci now hendpoint =>
        rw [List.mem_singleton.mp hsent]
        rfl
      | reconnected ref ci now hendpoint =>
        rcases List.mem_pair.mp hsent with rfl | rfl <;> rfl
  · simp only [hname, List.foldl_append, h.settled]
    cases hsession <;> rfl

/-- A link that starts in the state of a disconnected requester, as it tells the folder. -/
theorem FolderInv.of_started {s : LinkAndFolder} {link : LinkActor}
    (before : List RegistryMessage) (folder : DSLinkFolder) (h : s.FolderInv)
    (hok : EndsAsStarted s.link) (hinv : link.SessionInv) (hname : link.linkName = s.link.linkName)
    (hstate : link.state = s.link.state)
    (hbefore : ∀ message ∈ before, message.name = s.link.linkName) :
    (⟨link, before ++ [.registerDSLink s.link.linkName .requester false], folder⟩ :
      LinkAndFolder).FolderInv := by
  have hstarted : s.link.state.endpoint = none ∧ s.link.state.connInfo.mode = .requester := by
    rw [← h.session.journal]
    cases hlast : s.link.journal.getLast? with
    | none => exact ⟨rfl, rfl⟩
    | some event => exact hok event hlast
  constructor
  · exact hinv
  · intro message hmessage
    rcases List.mem_append.mp hmessage with hin | hregister
    · exact (hbefore message hin).trans hname.symm
    · rw [List.mem_singleton.mp hregister]
      exact hname.symm
  · simp only [List.foldl_append, List.foldl_cons, List.foldl_nil, DSLinkFolder.told, linkState,
      hstate, hstarted, Option.isSome_none]

/-- What the folder is told when the link is stopped and started again. -/
theorem registryMessages_restarted (link : LinkActor) (linkName : Str) :
    LinkActor.registryMessages
        (LinkActor.postStop linkName ++ LinkActor.preStart linkName ++ link.afterRecovery) =
      [.unregisterDSLink linkName, .registerDSLink linkName .requester false] := by
  unfold LinkActor.afterRecovery
  cases link.state.endpoint <;> rfl

theorem registryMessages_started (link : LinkActor) (linkName : Str) :
    LinkActor.registryMessages (LinkActor.preStart linkName ++ link.afterRecovery) =
      [.registerDSLink linkName .requester false] := by
  unfold LinkActor.afterRecovery
  cases link.state.endpoint <;> rfl

theorem EndsAsStarted.endsDisconnected {link : LinkActor} (h : EndsAsStarted link) :
    link.EndsDisconnected := by
  intro event hlast
  exact (h event hlast).1

/-- A link that is stopped and started again tells the folder so after all else. -/
theorem FolderInv.restarted {s : LinkAndFolder} {link : LinkActor} (folder : DSLinkFolder)
    (h : s.FolderInv) (hok : EndsAsStarted s.link) (hinv : link.SessionInv)
    (hname : link.linkName = s.link.linkName) (hstate : link.state = s.link.state) :
    (⟨link, s.inFlight ++ [.unregisterDSLink s.link.linkName,
      .registerDSLink s.link.linkName .requester false], folder⟩ : LinkAndFolder).FolderInv := by
  have hstarted := FolderInv.of_started (s.inFlight ++ [.unregisterDSLink s.link.linkName]) folder
    h hok hinv hname hstate
  rw [List.append_assoc] at hstarted
  apply hstarted
  intro message hmessage
  rcases List.mem_append.mp hmessage with hin | hunregister
  · exact h.name message hin
  · rw [List.mem_singleton.mp hunregister]
    rfl

theorem FolderInv.delivered {s : LinkAndFolder} {message : RegistryMessage}
    {rest : List RegistryMessage} (h : s.FolderInv) (hinFlight : s.inFlight = message :: rest) :
    ({ s with inFlight := rest, folder := s.folder.mgmtHandler message } :
      LinkAndFolder).FolderInv := by
  have hname : message.name = s.link.linkName := by
    apply h.name
    rw [hinFlight]
    exact List.mem_cons_self
  constructor
  · exact h.session
  · intro other hother
    apply h.name
    rw [hinFlight]
    exact List.mem_cons_of_mem _ hother
  · rw [← h.settled, hinFlight, List.foldl_cons, ← hname, DSLinkFolder.links_mgmtHandler]

/-- Messages about other links do not concern the entry of this one. -/
theorem FolderInv.told_other {s : LinkAndFolder} {message : RegistryMessage} (h : s.FolderInv)
    (hname : message.name ≠ s.link.linkName) :
    ({ s with folder := s.folder.mgmtHandler message } : LinkAndFolder).FolderInv := by
  constructor
  · exact h.session
  · exact h.name
  · rw [← h.settled, DSLinkFolder.links_mgmtHandler_of_ne hname]

/-- The input keeps the invariant: the link's own steps change its session and send reports, the
folder's change the registry, and a link that is started again must have ended as a disconnected
requester. -/
theorem FolderInv.step {s s' : LinkAndFolder} {input : FolderInput} (h : s.FolderInv)
    (hok : RestartsAsStarted s input) (hstep : step s input = some s') : s'.FolderInv := by
  cases input with
  | link input =>
    cases input with
    | receive message =>
      obtain ⟨r, hperform, rfl⟩ := Option.map_eq_some_iff.mp hstep
      exact h.session_step (LinkActor.session_of_perform h.session hperform)
    | restart =>
      cases hstep
      simp only [registryMessages_restarted, h.session.state_recovered]
      exact h.restarted _ hok h.session rfl rfl
    | startAnew =>
      -- in a new cell nobody is watched, which only a link that ends disconnected agrees with
      have hanew := h.session.inNewCell hok.endsDisconnected
      cases hstep
      simp only [registryMessages_restarted, hanew.state_recovered]
      exact h.restarted _ hok hanew rfl rfl
    | startAfterCrash =>
      have hanew := h.session.inNewCell hok.endsDisconnected
      cases hstep
      simp only [registryMessages_started, hanew.state_recovered]
      apply FolderInv.of_started [] _ h hok hanew rfl rfl
      intro message hmessage
      exact absurd hmessage List.not_mem_nil
  | restartFolder =>
    have hanew := h.session.inNewCell hok.endsDisconnected
    cases hstep
    simp only [registryMessages_restarted, hanew.state_recovered]
    exact h.restarted _ hok hanew rfl rfl
  | deliver =>
    simp only [LinkAndFolder.step] at hstep
    split at hstep
    case h_1 => cases hstep
    case h_2 message rest hinFlight =>
      cases hstep
      exact h.delivered hinFlight
  | other message =>
    simp only [LinkAndFolder.step] at hstep
    split at hstep
    case isTrue => cases hstep
    case isFalse hname =>
      cases hstep
      exact h.told_other hname

/-- **Link state agreement.**  In every run that starts the link again only as a disconnected
requester, the folder has the link's state whenever no message is on its way. -/
theorem link_state_agreement {linkName : Str} {s : LinkAndFolder}
    (h : Reachable step RestartsAsStarted (initial linkName) s) : s.Agrees := by
  have hinv : s.FolderInv := by
    apply h.invariant (folderInv_initial linkName)
    intro s input s' hinv hok hstep
    exact hinv.step hok hstep
  intro hnothing
  rw [← hinv.settled, hnothing, List.foldl_nil]

/-- A connect that the folder has been told of. -/
theorem link_state_agreement_connected :
    ∃ s, Reachable step RestartsAsStarted (initial (str "A")) s ∧ s.inFlight = [] ∧
      s.link.state.endpoint = some 1 ∧ s.Agrees := by
  have hreached : Reachable step RestartsAsStarted (initial (str "A")) _ :=
    .next .deliver
      (.next (.link (.receive (.connectEndpoint LinkActor.requesterInfo 1 0)))
        (.next .deliver .start trivial rfl) trivial rfl) trivial rfl
  exact ⟨_, hreached, rfl, rfl, link_state_agreement hreached⟩

/-- A connected link that is restarted registers as disconnected, and stays so in the folder. -/
theorem restarted_link_registered_disconnected :
    ∃ s, Reachable step AnyStep (initial (str "A")) s ∧ s.link.state.endpoint = some 1 ∧
      s.folder.links (str "A") = some ⟨.requester, false⟩ ∧ ¬ s.Agrees := by
  have hreached : Reachable step AnyStep (initial (str "A")) _ :=
    .next .deliver (.next .deliver (.next (.link .restart)
      (.next .deliver
        (.next (.link (.receive (.connectEndpoint LinkActor.requesterInfo 1 0)))
          (.next .deliver .start trivial rfl) trivial rfl) trivial rfl)
      trivial rfl) trivial rfl) trivial rfl
  refine ⟨_, hreached, rfl, rfl, ?_⟩
  intro h
  cases h rfl

end LinkAndFolder

end DsaBroker
