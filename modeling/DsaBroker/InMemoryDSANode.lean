import DsaBroker.Messages
import DsaBroker.Paths
import DsaBroker.ScanMap

/-!
# A broker node and its listeners

`InMemoryDSANode` with the traits `DSANodeRequestHandler` and `DSANodeSubscriptions`: the
value, configs, attributes and children of a node, the requests it answers, and the two
tables of listeners that are notified when something changes.

The node works through one message at a time.  The requests of an envelope are handled in
order with nothing in between, so a run is given request by request; a request that fails an
assertion throws, and the node is stopped and built anew by its supervisor (`none` below).
Permissions, the typed getters and the token messages play no part in notifications and are
left out; the node of a child is seen only through the configs it answers with.
-/

namespace DsaBroker

/-- An actor reference, by its path. -/
abbrev ActorRef := Str

/-- What a listener was registered under: the SID of a SUBSCRIBE, the RID of a LIST. -/
inductive ListenerKey where
  | sid (sid : Int)
  | rid (rid : Int)
deriving DecidableEq, Repr

/-- A response sent to a listener, with the table entry it was sent for. -/
structure Notification where
  key : ListenerKey
  listener : ActorRef
  response : DSAResponse
deriving DecidableEq

structure InMemoryDSANode where
  value : DSAVal
  configs : DSAMap
  attributes : DSAMap
  children : List Str
  sids : ScanMap Int ActorRef
  rids : ScanMap Int ActorRef

/-- What the node reads from outside while it handles a message: the time, the configs of a
child, and what its action returns for the parameters when it returns a token. -/
structure Surroundings where
  now : Str
  childConfigs : Str → DSAMap
  invoke : DSAMap → Option (Str × Str)

/-- A message: a request of an envelope, or a call of the typed API. -/
inductive NodeInput where
  | request (sender : ActorRef) (request : DSARequest)
  | setValue (v : DSAVal)
  | addConfigs (configs : DSAMap)
  | removeConfig (name : Str)
  | addAttributes (attributes : DSAMap)
  | removeAttribute (name : Str)
  | addChild (name : Str)
  | removeChild (name : Str)

structure NodeOutcome where
  node : InMemoryDSANode
  notifications : List Notification := []
  replies : List DSAResponse := []

namespace InMemoryDSANode

def initial : InMemoryDSANode where
  value := .null
  configs := [(str "$is", .string (str "node"))]
  attributes := []
  children := []
  sids := .empty
  rids := .empty

/-! ### Notifying the listeners -/

/-- The response that tells the listener under `sid` about a new value. -/
def valueUpdate (value : DSAVal) (ts : Str) (sid : Int) : DSAResponse where
  rid := 0
  stream := some .opened
  updates := some [.map [(str "sid", .numeric sid), (str "value", value), (str "ts", .string ts)]]

/-- The response that tells the listener under `rid` about changed rows. -/
def listUpdate (updates : List DSAVal) (rid : Int) : DSAResponse where
  rid := rid
  stream := some .opened
  updates := some updates

section Notify

variable [ScanOrder Int]

/-- Sends DSAResponse instances to actors listening to SUBSCRIBE updates. -/
def notifySubscribeActors (n : InMemoryDSANode) (value : DSAVal) (ts : Str) :
    List Notification :=
  n.sids.entries.map fun entry => ⟨.sid entry.1, entry.2, valueUpdate value ts entry.1⟩

/-- Sends DSAResponse instances to actors listening to LIST updates. -/
def notifyListActors (n : InMemoryDSANode) (updates : List DSAVal) : List Notification :=
  n.rids.entries.map fun entry => ⟨.rid entry.1, entry.2, listUpdate updates entry.1⟩

/-! ### Changes of the node -/

def setValue (n : InMemoryDSANode) (v : DSAVal) (ts : Str) : NodeOutcome where
  node := { n with value := v }
  notifications := n.notifySubscribeActors v ts

/-- The names of configs start with `$`, those of attributes with `@`. -/
def prefixed (mark : UInt16) (entries : DSAMap) : DSAMap :=
  entries.map fun entry => (if startsWith entry.1 [mark] then entry.1 else mark :: entry.1, entry.2)

def rowsOf (entries : DSAMap) : List DSAVal :=
  entries.map fun entry => .array [.string entry.1, entry.2]

def removedRow (name : Str) : DSAVal :=
  .map [(str "name", .string name), (str "change", .string (str "remove"))]

def addConfigs (n : InMemoryDSANode) (configs : DSAMap) : NodeOutcome :=
  let cfg := prefixed dollar configs
  { node := { n with configs := cfg.foldl (fun m c => m.updated c.1 c.2) n.configs }
    notifications := n.notifyListActors (rowsOf cfg) }

def removeConfig (n : InMemoryDSANode) (name : Str) : NodeOutcome where
  node := { n with configs := n.configs.removed name }
  notifications := n.notifyListActors [removedRow name]

def addAttributes (n : InMemoryDSANode) (attributes : DSAMap) : NodeOutcome :=
  let attrs := prefixed atSign attributes
  { node := { n with attributes := attrs.foldl (fun m a => m.updated a.1 a.2) n.attributes }
    notifications := n.notifyListActors (rowsOf attrs) }

def removeAttribute (n : InMemoryDSANode) (name : Str) : NodeOutcome where
  node := { n with attributes := n.attributes.removed name }
  notifications := n.notifyListActors [removedRow name]

def addChild (n : InMemoryDSANode) (name : Str) : NodeOutcome where
  node := { n with children := if name ∈ n.children then n.children else n.children ++ [name] }
  notifications := n.notifyListActors
    [.array [.string name, .map [(str "$is", .string (str "node"))]]]

def removeChild (n : InMemoryDSANode) (name : Str) : NodeOutcome where
  node := { n with children := n.children.filter (· ≠ name) }
  notifications := n.notifyListActors [removedRow name]

end Notify

/-! ### The tables of listeners -/

def subscribe (n : InMemoryDSANode) (sid : Int) (ref : ActorRef) : InMemoryDSANode :=
  { n with sids := n.sids.put sid ref }

def unsubscribe (n : InMemoryDSANode) (sid : Int) : InMemoryDSANode :=
  { n with sids := n.sids.remove sid }

def list (n : InMemoryDSANode) (rid : Int) (ref : ActorRef) : InMemoryDSANode :=
  { n with rids := n.rids.put rid ref }

def unlist (n : InMemoryDSANode) (rid : Int) : InMemoryDSANode :=
  { n with rids := n.rids.remove rid }

/-! ### Requests -/

def closed (rid : Int) : DSAResponse := { rid := rid, stream := some .closed }

/-- The rows a LIST request is answered with. -/
def listRows (o : Surroundings) (n : InMemoryDSANode) : List DSAVal :=
  let isName := str "$is"
  .array [.string isName, (n.configs.get isName).getD (.string [])]
    :: rowsOf (n.configs.removed isName) ++ rowsOf n.attributes
    ++ n.children.map fun name => .array [.string name, .map (o.childConfigs name)]

section Handle

variable [ScanOrder Int]

/-- Handles DSA requests by processing them and sending the response to itself. -/
def handleRequest (o : Surroundings) (n : InMemoryDSANode) (sender : ActorRef) :
    DSARequest → Option NodeOutcome
  | .set rid p newValue _ =>
      (split p).getLast?.map fun name =>
        let outcome :=
          if startsWith name [dollar] then n.addConfigs [(name, newValue)]
          else if startsWith name [atSign] then n.addAttributes [(name, newValue)]
          else n.setValue newValue o.now
        { outcome with replies := [closed rid] }
  | .remove rid p =>
      (split p).getLast?.map fun name =>
        let outcome :=
          if startsWith name [dollar] then n.removeConfig name
          else if startsWith name [atSign] then n.removeAttribute name
          else { node := n }
        { outcome with replies := [closed rid] }
  | .invoke rid _ params _ =>
      match o.invoke params with
      | some (tokenName, token) =>
          some {
            node := n
            replies := [{
              rid := rid
              stream := some .closed
              updates := some [.array [.string tokenName, .string token]]
              columns := some [⟨str "TokenName", str "String"⟩, ⟨str "Token", str "String"⟩] }] }
      | none => some { node := n, replies := [{ rid := rid, stream := some .opened }] }
  | .subscribe rid paths =>
      (onlyElement paths).map fun path =>
        { node := n.subscribe path.sid sender
          replies := closed rid ::
            if n.value = .null then [] else [valueUpdate n.value o.now path.sid] }
  | .unsubscribe rid sids =>
      (onlyElement sids).map fun sid => { node := n.unsubscribe sid, replies := [closed rid] }
  | .list rid _ =>
      some { node := n.list rid sender, replies := [listUpdate (listRows o n) rid] }
  | .close rid => some { node := n.unlist rid, replies := [closed rid] }

/-- One message; `none` when it throws. -/
def receive (n : InMemoryDSANode) (message : Surroundings × NodeInput) : Option NodeOutcome :=
  match message.2 with
  | .request sender request => handleRequest message.1 n sender request
  | .setValue v => some (n.setValue v message.1.now)
  | .addConfigs configs => some (n.addConfigs configs)
  | .removeConfig name => some (n.removeConfig name)
  | .addAttributes attributes => some (n.addAttributes attributes)
  | .removeAttribute name => some (n.removeAttribute name)
  | .addChild name => some (n.addChild name)
  | .removeChild name => some (n.removeChild name)

/-- A run, and all notifications sent in it. -/
def receiveAll (n : InMemoryDSANode) :
    List (Surroundings × NodeInput) → Option (InMemoryDSANode × List Notification)
  | [] => some (n, [])
  | message :: rest =>
      (n.receive message).bind fun outcome =>
        (outcome.node.receiveAll rest).map fun result =>
          (result.1, outcome.notifications ++ result.2)

end Handle

end InMemoryDSANode

end DsaBroker
