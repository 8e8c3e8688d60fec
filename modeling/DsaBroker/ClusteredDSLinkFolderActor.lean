import DsaBroker.FolderView
import DsaBroker.PeerChannels

/-!
# The folders of a cluster

`ClusteredDSLinkFolderActor`: there is a folder actor for `/downstream` on each member of the
cluster.  A link reports to the folder of its own member, which tells all peers, itself included.
A link is in the registry of that folder only; the peers notify their listeners of it.  A change of
state reaches the registry as a message of the folder to itself, behind what comes in meanwhile.

`PeerMessage`s between the same two members keep their order, others do not.

The other messages ask for links or for statistics, or send messages to links.
-/

namespace DsaBroker

/-- The address of a member. -/
abbrev Address := Str

structure ClusteredDSLinkFolderActor where
  folder : DSLinkFolder
  listRid : Option Int
  /-- `cluster.state.members` -/
  members : Address → Bool
  /-- the responses that the folder has sent to itself for its listeners -/
  own : List DSAResponse

namespace ClusteredDSLinkFolderActor

def notify (s : ClusteredDSLinkFolderActor) (updates : List DSAVal) : ClusteredDSLinkFolderActor :=
  { s with own := s.own ++ s.listRid.toList.map fun rid => openResponse rid updates }

def notifyOnRegister (s : ClusteredDSLinkFolderActor) (name : Str) : ClusteredDSLinkFolderActor :=
  s.notify (rows [(name, .map [isNode])])

def notifyOnRemove (s : ClusteredDSLinkFolderActor) (names : List Str) :
    ClusteredDSLinkFolderActor := s.notify (names.map removedRow)

/-- Handler for messages coming from peer nodes. -/
def peerMsgHandler (s : ClusteredDSLinkFolderActor) :
    RegistryMessage → ClusteredDSLinkFolderActor
  | .registerDSLink name _ _ => s.notifyOnRegister name
  | .unregisterDSLink name => s.notifyOnRemove [name]
  | .dsLinkStateChanged name mode connected =>
      { s with folder := s.folder.changeLinkState name mode connected }

/-- The messages of links among the control messages; the peers are told of each. -/
def mgmtHandler (s : ClusteredDSLinkFolderActor) : RegistryMessage → ClusteredDSLinkFolderActor
  | .registerDSLink name mode connected =>
      { s with folder := s.folder.persist (.dsLinkRegistered name mode connected) }
  | .unregisterDSLink name =>
      { s with folder := s.folder.persist (.dsLinkUnregistered name) }
  | .dsLinkStateChanged .. => s

end ClusteredDSLinkFolderActor

/-- The folders of all members, their messages to each other, and what they were told by links. -/
structure FolderCluster where
  actors : Address → ClusteredDSLinkFolderActor
  channels : PeerChannels Address RegistryMessage
  handled : List (Address × RegistryMessage)

inductive ClusterInput where
  /-- a link reports to the folder of its member -/
  | report (member : Address) (message : RegistryMessage)
  | peerMessage (sender receiver : Address)
  | lost (sender receiver : Address)
  /-- a folder learns of other members -/
  | memberUpdate (member : Address) (members : Address → Bool)
  /-- a LIST or a CLOSE of the root is handled, and journaled -/
  | listRidUpdated (member : Address) (listRid : Option Int)
  /-- by its supervisor; what was persisted is recovered -/
  | restart (member : Address)

namespace FolderCluster

def step (s : FolderCluster) : ClusterInput → Option FolderCluster
  | .report member message =>
      some {
        actors := Function.update s.actors member ((s.actors member).mgmtHandler message)
        channels := s.channels.tell member (s.actors member).members message
        handled := s.handled ++ [(member, message)] }
  | .peerMessage sender receiver =>
      (s.channels.deliver sender receiver).map fun delivery =>
        { s with
          actors := Function.update s.actors receiver
            ((s.actors receiver).peerMsgHandler delivery.1)
          channels := delivery.2 }
  | .lost sender receiver => some { s with channels := s.channels.lose sender receiver }
  | .memberUpdate member members =>
      some { s with
        actors := Function.update s.actors member { s.actors member with members := members } }
  | .listRidUpdated member listRid =>
      some { s with
        actors := Function.update s.actors member { s.actors member with listRid := listRid } }
  | .restart member =>
      some { s with
        actors := Function.update s.actors member
          { s.actors member with folder := (s.actors member).folder.recovered } }

/-- New folders, with what they know of each other and listen for. -/
def initial (members : Address → Address → Bool) (listRid : Address → Option Int) :
    FolderCluster where
  actors a := ⟨.empty, listRid a, members a, []⟩
  channels := .empty
  handled := []

end FolderCluster

end DsaBroker
