import DsaBroker.CallRecords
import DsaBroker.LocalDSLinkFolderActor

/-!
# The folder of the links

`DSLinkFolderActor` with what `LocalDSLinkFolderActor` adds to it: the actor is the responder of
`/downstream` or `/upstream` and at the same time the endpoint that the responder forwards its
requests to.  It answers a LIST of its root with rows for the links, which a stream sends to the
actor itself, group by group; what a link reports later goes to the target RID of the last LIST,
kept in `listRid`.

The messages of the streams and those of the folder to itself come through one mailbox.  A step
takes one message: an envelope, what a link reports, the next message of the mailbox, or the
next group of a listing into the mailbox.  Restarts of the actor are left out here, and so are
the messages that ask for links or for statistics.
-/

namespace DsaBroker

/-- What a folder is constructed with, and the setting it uses.  The extra configs of the broker
are of the kind `"downstream" -> true`: none is a map, as the row of a link is. -/
structure FolderSettings where
  link : Link
  extraConfigs : List (Str × DSAVal)
  childrenPerListResponse : Nat
  children_pos : 0 < childrenPerListResponse
  configs_plain : ∀ config ∈ extraConfigs, ∀ value, config.2 ≠ .map value

structure DSLinkFolderActor where
  responder : ResponderState
  links : ScanMap Str LinkState
  listRid : Option Int
  /-- the listings, each with the responses that its stream has still to send -/
  listings : List (List DSAResponse)
  /-- the messages that the folder has sent to itself, each with one response -/
  mailbox : List DSAResponse
  /-- what has been sent to requesters -/
  sent : List (Routee × DSAResponse)

def rootPath : Str := [slash]

/-- A tuple for the `$is` config of a node. -/
def isNode : Str × DSAVal := (str "$is", .string (str "node"))

/-- Builds a list of rows, each containing two values. -/
def rows (pairs : List (Str × DSAVal)) : List DSAVal :=
  pairs.map fun pair => .array [.string pair.1, pair.2]

/-- `array(name, obj(IsNode))`. -/
def linkRow (name : Str) : DSAVal := .array [.string name, .map [isNode]]

/-- `obj("name" -> name, "change" -> "remove")`. -/
def removedRow (name : Str) : DSAVal :=
  .map [(str "name", .string name), (str "change", .string (str "remove"))]

/-- `DSAResponse(rid, Some(Open), Some(updates))`. -/
def openResponse (rid : Int) (updates : List DSAVal) : DSAResponse :=
  { rid := rid, stream := some .opened, updates := some updates }

inductive FolderMessage where
  | requestEnvelope (sender : Routee) (requests : List DSARequest)
  | registry (message : RegistryMessage)
  /-- a listing sends its next group -/
  | forward (listing : Nat)
  /-- the next message of the mailbox -/
  | own
deriving DecidableEq

namespace DSLinkFolderActor

def initial : DSLinkFolderActor := ⟨.initial, .empty, none, [], [], []⟩

/-- `listRid foreach`: a message to the folder itself, if there is a LIST to answer. -/
def notify (s : DSLinkFolderActor) (updates : List DSAVal) : DSLinkFolderActor :=
  { s with mailbox := s.mailbox ++ s.listRid.toList.map fun rid => openResponse rid updates }

/-- Generates and sends response messages to notify the listeners about the registered
dslink. -/
def notifyOnRegister (s : DSLinkFolderActor) (name : Str) : DSLinkFolderActor :=
  s.notify (rows [(name, .map [isNode])])

/-- Generates and sends response messages to notify the listeners about the removed dslinks. -/
def notifyOnRemove (s : DSLinkFolderActor) (names : List Str) : DSLinkFolderActor :=
  s.notify (names.map removedRow)

/-- Changes the recorded link state; a link that is not registered is ignored. -/
def changeLinkState (s : DSLinkFolderActor) (name : Str) (mode : DSLinkMode) (connected : Bool) :
    DSLinkFolderActor :=
  match s.links.get name with
  | some _ => { s with links := s.links.put name ⟨mode, connected⟩ }
  | none => s

/-- The messages of links among the control messages. -/
def mgmtHandler (s : DSLinkFolderActor) : RegistryMessage → DSLinkFolderActor
  | .registerDSLink name mode connected =>
      { s with links := s.links.put name ⟨mode, connected⟩ }.notifyOnRegister name
  | .unregisterDSLink name => { s with links := s.links.remove name }.notifyOnRemove [name]
  | .dsLinkStateChanged name mode connected => s.changeLinkState name mode connected

section

variable [ScanOrder Int] [ScanOrder Str]

/-- Generates a list of values in response to LIST request. -/
def listNodes (settings : FolderSettings) (links : ScanMap Str LinkState) : List DSAVal :=
  rows [isNode] ++ rows settings.extraConfigs ++ (ScanOrder.order links.keys).map linkRow

/-- The responses of a listing, with so many rows each. -/
def listing (settings : FolderSettings) (links : ScanMap Str LinkState) (rid : Int) :
    List DSAResponse :=
  (Grouping.grouped settings.childrenPerListResponse (listNodes settings links)).map
    (openResponse rid)

/-- Processes a request that the responder forwards. -/
def handleRequest (settings : FolderSettings) (s : DSLinkFolderActor) :
    DSARequest → DSLinkFolderActor
  | .list rid path =>
      if path = rootPath then
        { s with listRid := some rid, listings := s.listings ++ [listing settings s.links rid] }
      else s
  | .close _ => { s with listRid := none }
  | _ => s

/-- `sendToEndpoint`: the folder is its own endpoint, and handles the requests of the envelope one
after another. -/
def sendToEndpoint (settings : FolderSettings) (s : DSLinkFolderActor)
    (requests : List DSARequest) : DSLinkFolderActor := requests.foldl (handleRequest settings) s

/-- Processes a message; `none` when there is none, or when a handler throws. -/
def receive (settings : FolderSettings) (s : DSLinkFolderActor) :
    FolderMessage → Option DSLinkFolderActor
  | .requestEnvelope sender requests =>
      (DsaBroker.receive settings.link s.responder (.requestEnvelope sender requests)).map
        fun outcome =>
          { s with
            responder := outcome.state
            sent := s.sent ++ outcome.sent.flatMap Delivery.each }.sendToEndpoint settings
              outcome.toEndpoint.flatten
  | .registry message => some (s.mgmtHandler message)
  | .forward i =>
      match s.listings[i]? with
      | some (response :: rest) =>
          some { s with listings := s.listings.set i rest, mailbox := s.mailbox ++ [response] }
      | _ => none
  | .own =>
      match s.mailbox with
      | response :: rest =>
          (DsaBroker.receive settings.link s.responder (.responseMessage [response])).map
            fun outcome =>
              { s with
                responder := outcome.state
                mailbox := rest
                sent := s.sent ++ outcome.sent.flatMap Delivery.each }
      | [] => none

end

/-! ### The links -/

/-- The registry of links is that of `DSLinkFolder`. -/
theorem get_links_mgmtHandler {s : DSLinkFolderActor} {folder : DSLinkFolder}
    (h : s.links.get = folder.links) (message : RegistryMessage) :
    (s.mgmtHandler message).links.get = (folder.mgmtHandler message).links := by
  have hput : ∀ name mode connected, (s.links.put name ⟨mode, connected⟩).get
      = (folder.persist (.dsLinkRegistered name mode connected)).links := by
    intro name mode connected
    simp only [DSLinkFolder.persist, DSLinkFolder.update, ScanMap.put, h]
  cases message with
  | registerDSLink name mode connected => exact hput name mode connected
  | unregisterDSLink name =>
    have hremove : (s.links.remove name).get
        = (folder.persist (.dsLinkUnregistered name)).links := by
      simp only [DSLinkFolder.persist, DSLinkFolder.update, ScanMap.remove, h]
    exact hremove
  | dsLinkStateChanged name mode connected =>
    simp only [mgmtHandler, changeLinkState, DSLinkFolder.mgmtHandler,
      DSLinkFolder.changeLinkState, ← h]
    cases s.links.get name with
    | none => exact h
    | some entry => exact hput name mode connected

end DSLinkFolderActor

end DsaBroker
