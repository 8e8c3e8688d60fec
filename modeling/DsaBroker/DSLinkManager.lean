import DsaBroker.ActorSelection

/-!
# The managers of the links

`LocalDSLinkManager` addresses actors by selections, `ClusteredDSLinkManager` addresses the
links by the shard region of their folder.  Both come with the address of a link by its name
and with the two case lists that route a path, one to send and one to ask.

The responder takes the address for its answers from the path of the sending actor.  The name
in that path is encoded already, by the folder that creates the actor or by the shard that
does, and it is used as if it were the name of the link.
-/

namespace DsaBroker

inductive DSLinkManager where
  | localManager | clustered
deriving DecidableEq, Repr

/-- `Settings.Nodes.Downstream` and `Settings.Nodes.Upstream`. -/
def LinkFolder.nodeName : LinkFolder → Str
  | .downstream => str "downstream"
  | .upstream => str "upstream"

/-- `getDownlinkRoutee` and `getUplinkRoutee` of `LocalDSLinkManager`. -/
def LocalDSLinkManager.getLinkRoutee (folder : LinkFolder) (name : Str) : Routee :=
  .actorSelection (str "/user/" ++ folder.nodeName ++ slash :: dsaToAkkaPath name)

/-- `getDownlinkRoutee` and `getUplinkRoutee` of `ClusteredDSLinkManager`: an entity of the
shard region of the folder. -/
def ClusteredDSLinkManager.getLinkRoutee (folder : LinkFolder) (dsaName : Str) : Routee :=
  .sharded folder.nodeName dsaName

def DSLinkManager.getLinkRoutee : DSLinkManager → LinkFolder → Str → Routee
  | .localManager => LocalDSLinkManager.getLinkRoutee
  | .clustered => ClusteredDSLinkManager.getLinkRoutee

/-! ### Actors of links and their paths -/

/-- `DSLinkManager.routee`: navigates through path.  Without the name of a folder in the path
the actor itself is selected. -/
def DSLinkManager.routee (manager : DSLinkManager) (path : ActorNames) : Routee :=
  match path.find? fun name =>
      name = LinkFolder.downstream.nodeName || name = LinkFolder.upstream.nodeName with
  | some name =>
      if name = LinkFolder.downstream.nodeName then
        manager.getLinkRoutee .downstream (path.getLast?.getD [])
      else manager.getLinkRoutee .upstream (path.getLast?.getD [])
  | none => .actorSelection (slash :: joinSlash path)

/-- The path of the actor of a link: a child of the folder, which names it `name.forAkka`, or
an entity of a shard, which names it by the URL-encoded id. -/
def DSLinkManager.linkActorPath (manager : DSLinkManager) (folder : LinkFolder) (shard : Str)
    (name : Str) : ActorNames :=
  match manager with
  | .localManager => [str "user", folder.nodeName, dsaToAkkaPath name]
  | .clustered => [str "system", str "sharding", folder.nodeName, shard, urlEncode name]

/-- What can be the name of a link: no actor is created under an empty name, and no local one
under a name with a slash. -/
def DSLinkManager.NamesLink : DSLinkManager → Str → Prop
  | .localManager, name => name ≠ [] ∧ slash ∉ name
  | .clustered, name => name ≠ []

instance (manager : DSLinkManager) (name : Str) : Decidable (manager.NamesLink name) :=
  match manager with
  | .localManager => inferInstanceAs (Decidable (_ ∧ _))
  | .clustered => inferInstanceAs (Decidable (_ ≠ _))

/-- `Origin.source` of a request from the actor of a link. -/
def DSLinkManager.replyAddress (manager : DSLinkManager) (folder : LinkFolder) (shard : Str)
    (name : Str) : Routee :=
  manager.routee (manager.linkActorPath folder shard name)

/-- The address that is recorded is the one of the link with the encoded name. -/
theorem DSLinkManager.replyAddress_eq {manager : DSLinkManager} {name : Str}
    (h : manager.NamesLink name) (folder : LinkFolder) (shard : Str) :
    manager.replyAddress folder shard name = manager.getLinkRoutee folder (urlEncode name) := by
  cases manager with
  | localManager =>
    rw [replyAddress, linkActorPath, dsaToAkkaPath_of_no_slash h.2]
    cases folder <;> rfl
  | clustered => cases folder <;> rfl

/-- Links with distinct names have distinct addresses, if their names are encoded. -/
theorem DSLinkManager.getLinkRoutee_injective {manager : DSLinkManager} {a b : Str}
    (ha : manager.NamesLink a) (hb : manager.NamesLink b) {folder : LinkFolder}
    (h : manager.getLinkRoutee folder a = manager.getLinkRoutee folder b) :
    urlEncode a = urlEncode b := by
  cases manager with
  | localManager =>
    have htext := Routee.actorSelection.inj h
    rw [dsaToAkkaPath_of_no_slash ha.2, dsaToAkkaPath_of_no_slash hb.2] at htext
    exact List.tail_eq_of_cons_eq (List.append_cancel_left htext)
  | clustered => rw [(Routee.sharded.inj h).2]

theorem DSLinkManager.namesLink_urlEncode {manager : DSLinkManager} {name : Str}
    (h : manager.NamesLink name) : manager.NamesLink (urlEncode name) := by
  cases manager with
  | localManager => exact ⟨mt urlEncode_eq_nil.mp h.1, slash_notMem_urlEncode h.2⟩
  | clustered => exact mt urlEncode_eq_nil.mp h

/-- An answer reaches the link that asked, and no other link has its reply address. -/
def DSLinkManager.RepliesTo (manager : DSLinkManager) (folder : LinkFolder) (name : Str) : Prop :=
  ∀ shard, manager.replyAddress folder shard name = manager.getLinkRoutee folder name ∧
    ∀ other, manager.NamesLink other → other ≠ name → ∀ shard',
      manager.replyAddress folder shard' other ≠ manager.replyAddress folder shard name

/-- Answers find their way back just to the links whose names are encoded as themselves. -/
theorem DSLinkManager.repliesTo_iff (manager : DSLinkManager) (folder : LinkFolder) (name : Str)
    (hname : manager.NamesLink name) :
    manager.RepliesTo folder name ↔ name.all isUnreserved = true := by
  constructor
  · intro h
    have heq := (h []).1
    rw [replyAddress_eq hname] at heq
    exact urlEncode_urlEncode.mp
      (getLinkRoutee_injective (namesLink_urlEncode hname) hname heq)
  · intro hplain shard
    have hself := urlEncode_eq_self.mpr hplain
    refine ⟨by rw [replyAddress_eq hname, hself], ?_⟩
    intro other hother hne shard' heq
    rw [replyAddress_eq hother, replyAddress_eq hname, hself] at heq
    have hencoded := getLinkRoutee_injective (namesLink_urlEncode hother) hname heq
    rw [hself] at hencoded
    -- a text that is encoded to plain characters was plain before
    have hother' : (urlEncode other).all isUnreserved = true := by
      apply all_unreserved_of_urlEncode
      rwa [hencoded]
    rw [urlEncode_eq_self.mpr hother',
      urlEncode_eq_self.mpr (all_unreserved_of_urlEncode hother')] at hencoded
    exact hne hencoded

theorem DSLinkManager.repliesTo_plain :
    DSLinkManager.localManager.NamesLink (str "a-1") ∧
      DSLinkManager.localManager.RepliesTo .downstream (str "a-1") :=
  ⟨by decide, (DSLinkManager.repliesTo_iff .localManager .downstream (str "a-1")
    (by decide)).mpr (by decide)⟩

/-- The actor of the link `a b` is `a+b`, and the answer goes to `a%2Bb`. -/
theorem DSLinkManager.reply_lost :
    (DSLinkManager.localManager.replyAddress .downstream [] (str "a b") =
        .actorSelection (str "/user/downstream/a%2Bb") ∧
      DSLinkManager.localManager.getLinkRoutee .downstream (str "a b") =
        .actorSelection (str "/user/downstream/a+b") ∧
      ¬ DSLinkManager.localManager.RepliesTo .downstream (str "a b")) ∧
      DSLinkManager.clustered.replyAddress .upstream (str "7") (str "a b") =
        .sharded (str "upstream") (str "a+b") ∧
      DSLinkManager.clustered.getLinkRoutee .upstream (str "a b") =
        .sharded (str "upstream") (str "a b") ∧
      ¬ DSLinkManager.clustered.RepliesTo .upstream (str "a b") := by
  refine ⟨⟨by decide, by decide, ?_⟩, by decide, by decide, ?_⟩
  · intro h
    exact absurd (h []).1 (by decide)
  · intro h
    exact absurd (h []).1 (by decide)

/-! ### Where a message is sent -/

/-- The nodes of which the children are distributed, too: `/data`, `/sys/tokens`,
`/sys/roles`. -/
inductive DistributedNode where
  | data | tokens | roles
deriving DecidableEq, Repr

/-- `Settings.Paths.Sys`. -/
def sysPath : Str := str "/sys"

/-- `Settings.Paths.Data`, `Tokens` and `Roles`. -/
def DistributedNode.path : DistributedNode → Str
  | .data => str "/data"
  | .tokens => sysPath ++ str "/tokens"
  | .roles => sysPath ++ str "/roles"

/-- What a case of the case lists is for. -/
inductive RouteCase where
  | folder (folder : LinkFolder)
  | link (folder : LinkFolder)
  | distributed (node : DistributedNode)
  | sys
  | root
deriving DecidableEq, Repr

/-- The actor that a message is handed to: those of a selection, an entity of a shard region,
a node that the registry of distributed nodes looks up, that registry itself, or a child of
the root node behind a singleton proxy. -/
inductive Destination where
  | selected (selection : ActorSelection)
  | entity (region entityId : Str)
  | distributedNode (path : Str)
  | registry
  | rootChild (singletonName : Str)
  | notImplemented
deriving DecidableEq, Repr

/-- `routee ! message`; a reference is the selection of its path. -/
def Destination.ofRoutee : Routee → Destination
  | .actorRef path => .selected (actorSelection path)
  | .actorSelection path => .selected (actorSelection path)
  | .sharded region entityId => .entity region entityId

def userPath : Str := str "/user"

def LocalDSLinkManager.routeCase (dsaPath : Str) : RouteCase :=
  if startsWith dsaPath downstream then .link .downstream
  else if startsWith dsaPath upstream then .link .upstream
  else .root

/-- Sends a message to its DSA destination using actor selection. -/
def LocalDSLinkManager.dsaSend (dsaPath : Str) : Destination :=
  match LocalDSLinkManager.routeCase dsaPath with
  | .root => .selected (actorSelection (str "/user/broker" ++ dsaToAkkaPath dsaPath))
  | _ => .selected (actorSelection (userPath ++ dsaToAkkaPath dsaPath))

/-- The same case list as for `dsaSend`. -/
def LocalDSLinkManager.dsaAsk (dsaPath : Str) : Destination :=
  match LocalDSLinkManager.routeCase dsaPath with
  | .root => .selected (actorSelection (str "/user/broker" ++ dsaToAkkaPath dsaPath))
  | _ => .selected (actorSelection (userPath ++ dsaToAkkaPath dsaPath))

def ClusteredDSLinkManager.routeCase (path : Str) : RouteCase :=
  if path = downstream then .folder .downstream
  else if startsWith path downstream then .link .downstream
  else if path = upstream then .folder .upstream
  else if startsWith path upstream then .link .upstream
  else if path = DistributedNode.data.path then .distributed .data
  else if path = sysPath then .sys
  else if startsWith path DistributedNode.data.path then .distributed .data
  else if startsWith path DistributedNode.tokens.path then .distributed .tokens
  else if startsWith path DistributedNode.roles.path then .distributed .roles
  else .root

/-- `RootNodeActor.childProxy(path)`. -/
def childProxy (path : Str) : Destination := .rootChild (str "singleton" ++ dsaToAkkaPath path)

/-- Sends a message to its DSA destination using Akka Sharding for dslinks and Singleton for
root node. -/
def ClusteredDSLinkManager.dsaSend (path : Str) : Destination :=
  match ClusteredDSLinkManager.routeCase path with
  | .folder folder => .selected (actorSelection (userPath ++ folder.path))
  | .link folder =>
      .ofRoutee (ClusteredDSLinkManager.getLinkRoutee folder (path.drop (folder.path.length + 1)))
  | .distributed _ => .distributedNode path
  | .sys => .distributedNode path
  | .root => childProxy path

/-- The case list of `dsaAsk` has no case of its own for `/sys`. -/
def ClusteredDSLinkManager.askCase (path : Str) : RouteCase :=
  if path = downstream then .folder .downstream
  else if startsWith path downstream then .link .downstream
  else if path = upstream then .folder .upstream
  else if startsWith path upstream then .link .upstream
  else if path = DistributedNode.data.path then .distributed .data
  else if startsWith path DistributedNode.data.path then .distributed .data
  else if startsWith path DistributedNode.tokens.path then .distributed .tokens
  else if startsWith path DistributedNode.roles.path then .distributed .roles
  else .root

/-- Ask message from its DSA destination using actor selection. -/
def ClusteredDSLinkManager.dsaAsk (path : Str) : Destination :=
  match ClusteredDSLinkManager.askCase path with
  | .folder folder => .selected (actorSelection (userPath ++ folder.path))
  | .link folder =>
      .ofRoutee (ClusteredDSLinkManager.getLinkRoutee folder (path.drop (folder.path.length + 1)))
  | .distributed .data => .notImplemented
  | .distributed _ => .registry
  | _ => childProxy path

def DSLinkManager.routeCase : DSLinkManager → Str → RouteCase
  | .localManager => LocalDSLinkManager.routeCase
  | .clustered => ClusteredDSLinkManager.routeCase

def DSLinkManager.dsaSend : DSLinkManager → Str → Destination
  | .localManager => LocalDSLinkManager.dsaSend
  | .clustered => ClusteredDSLinkManager.dsaSend

def DSLinkManager.dsaAsk : DSLinkManager → Str → Destination
  | .localManager => LocalDSLinkManager.dsaAsk
  | .clustered => ClusteredDSLinkManager.dsaAsk

/-! ### The selections of the local manager -/

theorem segments_folder_path (folder : LinkFolder) : segments folder.path = [folder.nodeName] := by
  cases folder <;> rfl

/-- The names that select a link. -/
theorem segments_getLinkRoutee (folder : LinkFolder) (name : Str) :
    segments (str "/user/" ++ folder.nodeName ++ slash :: dsaToAkkaPath name) =
      str "user" :: folder.nodeName :: (segments name).map urlEncode := by
  rw [segments_append, segments_dsaToAkkaPath]
  cases folder <;> rfl

/-- The names that select an actor by an absolute path, from the actor with the path `front`. -/
theorem segments_append_dsaToAkkaPath (front rest : Str) :
    segments (front ++ dsaToAkkaPath (slash :: rest)) =
      segments front ++ (segments rest).map urlEncode := by
  rw [← segments_slash rest, ← segments_dsaToAkkaPath]
  rcases dsaToAkkaPath_absolute rest with h | ⟨tail, h⟩
  · rw [h, List.append_nil]
    exact (List.append_nil _).symm
  · rw [h, segments_append, segments_slash]

theorem startsWith_iff {path start : Str} : startsWith path start = true ↔ start <+: path := by
  rw [startsWith, List.isPrefixOf_iff_prefix]

end DsaBroker
