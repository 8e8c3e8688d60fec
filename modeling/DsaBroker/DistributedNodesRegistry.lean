import DsaBroker.DistributedDSANode
import DsaBroker.DsaToAkkaCoder
import Mathlib.Data.List.Infix
import Mathlib.Data.List.Sort

/-!
# The registry of the replicated nodes

`DistributedNodesRegistry` keeps the nodes of one member of the cluster by their paths, and every
`DistributedDSANode` keeps its children by their names.  Both are replicated: the registry by the
descriptions of its nodes, and a node by those of its children.

The registry, the nodes and the replicator are actors, and the continuations of their futures run
outside of them.  So what they have sent and not yet processed is one list of messages, and any of
them can be the next.  The replicator tells its subscribers about a change when it is flushed, and
what it tells them is the state at that time.

The values, configs and listeners of a node play no part here; what updates of these do is in
`DistributedDSANode`.  Left out are also the requests that are routed to a node and the handlers of
its actions.
-/

namespace DsaBroker

def DSANodeDescription.init (path : Str) (profile valueType : Option Str) : DSANodeDescription where
  path := path
  attrAndConf := (str "$is", .string (profile.getD (str "node"))) ::
    (valueType.map fun vType => (str "$type", .string vType)).toList
  value := .string []

theorem DSANodeDescription.path_init (path : Str) (profile valueType : Option Str) :
    (init path profile valueType).path = path := rfl

/-- A config of a node with this description, if it is a string. -/
def DSANodeDescription.config (nodeDescription : DSANodeDescription) (name : Str) : Option Str :=
  match nodeDescription.attrAndConf.get name with
  | some (.string value) => some value
  | _ => none

/-- A node, as others see it: the actor, its path and its profile. -/
structure DSANodeRef where
  id : Nat
  path : Str
  profile : Str
deriving DecidableEq

/-- The children in the replicated state of a node. -/
abbrev ReplicatedChildren := ScanMap Str (Option DSANodeDescription)

/-- What a node keeps of its children: the nodes, and the descriptions in its local data. -/
structure DSANodeActor where
  path : Str
  valueType : Option Str
  childNodes : Str → Option DSANodeRef
  children : Str → Option DSANodeDescription
  stateInitialized : Bool
  stash : List (Str × Option DSANodeDescription)

/-- What has been sent and not yet processed.  A message names the node that it comes to, or whose
continuation it is. -/
inductive NodeMessage where
  | get (id : Nat)
  | initMe (id : Nat) (state : Option ReplicatedChildren)
  | flush (path : Str)
  | changed (id : Nat) (state : ReplicatedChildren)
  | getNodesByDescription (id : Nat) (descriptions : List DSANodeDescription)
      (diff : DiffSet Str DSANodeDescription)
  | callback (id : Nat) (diff : DiffSet Str DSANodeDescription)
  | addChild (id : Nat) (name : Str) (configs : DSAMap)
  | addNode (nodeDescription : DSANodeDescription) (id : Nat) (name : Str)
  | addChildNode (id : Nat) (name : Str) (child : DSANodeRef)
  | flushRegistry
  | changedRegistry (entries : ScanMap Str DSANodeDescription)

def NodeMessage.isFlush (path : Str) : NodeMessage → Bool
  | .flush path' => path' = path
  | _ => false

def NodeMessage.isFlushRegistry : NodeMessage → Bool
  | .flushRegistry => true
  | _ => false

/-- The registry and the nodes on one member of the cluster, the replicated states, and the
messages. -/
structure DistributedNodesRegistry where
  registry : ScanMap Str DSANodeRef
  nodes : Nat → Option DSANodeActor
  nextId : Nat
  replicatedNodes : ScanMap Str DSANodeDescription
  replicatedChildren : Str → Option ReplicatedChildren
  pending : List NodeMessage

namespace DistributedNodesRegistry

def initial : DistributedNodesRegistry where
  registry := .empty
  nodes _ := none
  nextId := 0
  replicatedNodes := .empty
  replicatedChildren _ := none
  pending := []

/-! ### Paths -/

def validPath (path : Str) : Str := if startsWith path [slash] then path else slash :: path

def aggregateParent : Option Str → List Str → Option Str × Str
  | p, [] => (p, [])
  | p, [head] => (p, head)
  | p, head :: next :: tail => aggregateParent (some (p.getD [] ++ slash :: head)) (next :: tail)

def parentPath (path : Str) : Option Str × Str :=
  aggregateParent none ((split path).filter fun part => !part.isEmpty)

/-- The path with the given names. -/
def pathOf (names : List Str) : Str := names.flatMap fun name => slash :: name

/-! ### Actions -/

/-- An action that is bound to a node.  Its parameters and columns are left out. -/
structure ActionDescription where
  name : Str
  displayName : Str

def ActionDescription.configs (action : ActionDescription) : DSAMap :=
  [(str "$name", .string action.displayName), (str "$is", .string []),
    (str "$invokable", .string (str "config"))]

def addNodeAction : ActionDescription := ⟨str "addNode", str "Add Node"⟩

def addValueAction : ActionDescription := ⟨str "addValue", str "Add Value"⟩

def setValueAction : ActionDescription := ⟨str "setValue", str "Set Value"⟩

def setAttributeAction : ActionDescription := ⟨str "setAttribute", str "Set Attribute"⟩

def setConfigAction : ActionDescription := ⟨str "setConfig", str "Set Config"⟩

def deleteNodeAction : ActionDescription := ⟨str "deleteNode", str "Delete Node"⟩

/-- The names of `StandardActions.commonActions`. -/
def commonActions : List Str :=
  [str "addNode", str "addValue", str "setValue", str "setAttribute", str "setConfig",
    str "deleteNode", str "add", str "remove", str "removeAllClients", str "regenerate",
    str "addRole", str "addRule", str "removeRole", str "removeRule"]

def isNotCommon (name : Str) : Bool := !commonActions.contains name

def dataRootActions : List ActionDescription := [addNodeAction, addValueAction]

def dataNodeActions : List ActionDescription :=
  [addNodeAction, addValueAction, setValueAction, setAttributeAction, setConfigAction,
    deleteNodeAction]

/-- `Settings.Paths.Tokens`. -/
def tokensPath : Str := str "/sys/tokens"

/-- `Settings.Paths.Roles`. -/
def rolesPath : Str := str "/sys/roles"

/-- What `equalsIgnoreCase` compares, for a string of ASCII letters: besides the capital letters,
the long s and the Kelvin sign stand for one. -/
def foldCase (c : UInt16) : UInt16 :=
  if 65 ≤ c ∧ c ≤ 90 then c + 32 else if c = 0x17F then 115 else if c = 0x212A then 107 else c

def equalsIgnoreCase (path literal : Str) : Bool := path.map foldCase = literal

/-- The actions of a node without a parent. -/
def rootActions (name : Str) : List ActionDescription :=
  if isNotCommon name then dataRootActions else []

/-- The actions of a child node. -/
def childActions (parent name : Str) : List ActionDescription :=
  let path := parent ++ slash :: name
  if equalsIgnoreCase path tokensPath then []
  else if startsWith path (tokensPath ++ [slash]) && isNotCommon name then []
  else if equalsIgnoreCase path rolesPath then []
  else if startsWith path (rolesPath ++ [slash]) && isNotCommon name then []
  else if isNotCommon name then dataNodeActions
  else []

/-! ### The replicator -/

def send (s : DistributedNodesRegistry) (messages : List NodeMessage) : DistributedNodesRegistry :=
  { s with pending := s.pending ++ messages }

/-- The subscribers of a node's state will be told about it, once however often it changes. -/
def announce (s : DistributedNodesRegistry) (path : Str) : DistributedNodesRegistry :=
  if s.pending.any (NodeMessage.isFlush path) then s else s.send [.flush path]

def announceRegistry (s : DistributedNodesRegistry) : DistributedNodesRegistry :=
  if s.pending.any NodeMessage.isFlushRegistry then s else s.send [.flushRegistry]

/-- An `Update` of the children in a node's replicated state. -/
def update (s : DistributedNodesRegistry) (path name : Str) (child : Option DSANodeDescription) :
    DistributedNodesRegistry :=
  let children := (s.replicatedChildren path).getD .empty
  announce { s with
    replicatedChildren :=
      Function.update s.replicatedChildren path (some (children.put name child)) } path

/-- The nodes that have subscribed to the state under a path. -/
def subscribers (s : DistributedNodesRegistry) (path : Str) : List Nat :=
  (List.range s.nextId).filter fun id => (s.nodes id).any fun node => node.path = path

/-! ### A node -/

def setNode (s : DistributedNodesRegistry) (id : Nat) (node : DSANodeActor) :
    DistributedNodesRegistry :=
  { s with nodes := Function.update s.nodes id (some node) }

/-- `editProperty`, for the children: until the node is initialized the update waits. -/
def editChild (s : DistributedNodesRegistry) (id : Nat) (name : Str)
    (child : Option DSANodeDescription) : DistributedNodesRegistry :=
  match s.nodes id with
  | none => s
  | some node =>
      if node.stateInitialized then s.update node.path name child
      else s.setNode id { node with stash := node.stash ++ [(name, child)] }

/-- `addChild(name, paramsAndConfigs)`; with a profile and a value type these are the configs. -/
def addChild (s : DistributedNodesRegistry) (id : Nat) (name : Str) (configs : DSAMap) :
    DistributedNodesRegistry :=
  match s.nodes id with
  | none => s
  | some node =>
      if (node.childNodes name).isSome then s
      else s.send [.addNode ⟨node.path ++ slash :: name, configs, .string []⟩ id name]

/-- `addChild(name, node)`. -/
def addChildNode (s : DistributedNodesRegistry) (id : Nat) (name : Str) (child : DSANodeRef) :
    DistributedNodesRegistry :=
  match s.nodes id with
  | none => s
  | some node =>
      let childNodes := Function.update node.childNodes name (some child)
      (s.setNode id { node with childNodes := childNodes }).editChild id name
        (some (.init child.path (some child.profile) node.valueType))

def removeChild (s : DistributedNodesRegistry) (id : Nat) (name : Str) :
    DistributedNodesRegistry := s.editChild id name none

/-- The new children that the registry is asked for. -/
def createdChildren [ScanOrder Str] (state : ReplicatedChildren)
    (diff : DiffSet Str DSANodeDescription) : List DSANodeDescription :=
  (ScanOrder.order state.keys).filterMap fun name =>
    (diff.created name).filter fun child => (child.attrAndConf.get (str "$is")).isSome

def updateLocalState [ScanOrder Str] (s : DistributedNodesRegistry) (id : Nat)
    (state : ReplicatedChildren) : DistributedNodesRegistry :=
  match s.nodes id with
  | none => s
  | some node =>
      let diff := DistributedDSANode.collectDiffSet state.get node.children
      let created := createdChildren state diff
      if created.isEmpty then s.send [.callback id diff]
      else s.send [.getNodesByDescription id created diff]

/-- The callback of `updateLocalState`. -/
def callback (s : DistributedNodesRegistry) (id : Nat) (diff : DiffSet Str DSANodeDescription) :
    DistributedNodesRegistry :=
  match s.nodes id with
  | none => s
  | some node =>
      s.setNode id { node with
        childNodes := fun name => if diff.deleted name then none else node.childNodes name
        children := DistributedDSANode.foldDiff node.children diff }

/-- The replicator has answered the `Get` of a new node. -/
def initMe [ScanOrder Str] (s : DistributedNodesRegistry) (id : Nat)
    (state : Option ReplicatedChildren) : DistributedNodesRegistry :=
  match s.nodes id with
  | none => s
  | some node =>
      let updated := (state.map (s.updateLocalState id)).getD s
      let sent := node.stash.foldl (fun s entry => s.update node.path entry.1 entry.2) updated
      sent.setNode id { node with stash := [], stateInitialized := true }

/-! ### The registry -/

/-- The actor of a new node asks for its state, and subscribes to it. -/
def newNode (s : DistributedNodesRegistry) (nodeDescription : DSANodeDescription)
    (actions : List ActionDescription) : DistributedNodesRegistry × DSANodeRef :=
  let node : DSANodeActor := {
    path := nodeDescription.path
    valueType := nodeDescription.config (str "$type")
    childNodes := fun _ => none
    children := fun _ => none
    stateInitialized := false
    stash := [] }
  let profile := (nodeDescription.config (str "$is")).getD (str "node")
  let created := announce { s.setNode s.nextId node with nextId := s.nextId + 1 } node.path
  let bindActions := actions.map fun action => .addChild s.nextId action.name action.configs
  (created.send (.get s.nextId :: bindActions), ⟨s.nextId, node.path, profile⟩)

/-- `createNewNode` for a path with a parent. -/
def createChild (s : DistributedNodesRegistry) (parentNode : DSANodeRef) (parent name : Str)
    (nodeDescription : DSANodeDescription) : DistributedNodesRegistry × DSANodeRef :=
  let (created, child) :=
    match s.registry.get nodeDescription.path with
    | some child => (s, child)
    | none => s.newNode nodeDescription (childActions parent name)
  (created.send [.addChildNode parentNode.id name child], child)

def register (s : DistributedNodesRegistry) (path : Str) (nodeDescription : DSANodeDescription)
    (node : DSANodeRef) : DistributedNodesRegistry :=
  announceRegistry { s with
    registry := s.registry.put path node
    replicatedNodes := s.replicatedNodes.put path nodeDescription }

/-- The node under the path of the description, or else the one that is created. -/
def getOrElse (s : DistributedNodesRegistry) (nodeDescription : DSANodeDescription)
    (createNewNode : DistributedNodesRegistry → DistributedNodesRegistry × DSANodeRef) :
    DistributedNodesRegistry × DSANodeRef :=
  let path := validPath nodeDescription.path
  match s.registry.get path with
  | some node => (s, node)
  | none =>
      let (created, node) := createNewNode s
      (created.register path nodeDescription node, node)

/-- `getOrCreateNode`, given the names on the path of the description, the last one first. -/
def getOrCreate : List Str → DSANodeDescription → DistributedNodesRegistry →
    DistributedNodesRegistry × DSANodeRef
  | [], nodeDescription, s =>
      s.getOrElse nodeDescription fun s => s.newNode nodeDescription (rootActions [])
  | [name], nodeDescription, s =>
      s.getOrElse nodeDescription fun s => s.newNode nodeDescription (rootActions name)
  | name :: next :: rest, nodeDescription, s =>
      let parent := pathOf (next :: rest).reverse
      s.getOrElse nodeDescription fun s =>
        let (s, parentNode) := getOrCreate (next :: rest) (.init parent none none) s
        s.createChild parentNode parent name nodeDescription

def getOrCreateNode (s : DistributedNodesRegistry) (nodeDescription : DSANodeDescription) :
    DistributedNodesRegistry × DSANodeRef :=
  getOrCreate (segments nodeDescription.path).reverse nodeDescription s

/-- The paths that a `RemoveNode` takes with it.  Their actors are meant to be stopped, but
`poisonPill` is given the paths, which are no typed actors, and does nothing. -/
def pathAndChildren (s : DistributedNodesRegistry) (path : Str) : List Str :=
  s.registry.keys.filter fun key => validPath path <:+: key

def removeNode (s : DistributedNodesRegistry) (path : Str) : DistributedNodesRegistry :=
  let removed := s.pathAndChildren path
  if removed.isEmpty then s
  else announceRegistry { s with
    registry := removed.foldl ScanMap.remove s.registry
    replicatedNodes := removed.foldl ScanMap.remove s.replicatedNodes }

/-- The registry has learned about the replicated descriptions. -/
def changedRegistry [ScanOrder Str] (s : DistributedNodesRegistry)
    (entries : ScanMap Str DSANodeDescription) : DistributedNodesRegistry :=
  let toAdd := (entries.entries.filter fun entry => (s.registry.get entry.1).isNone).insertionSort
    fun entry other => entry.1.length ≤ other.1.length
  let toRemove := (ScanOrder.order s.registry.keys).filter fun key => (entries.get key).isNone
  let added := toAdd.foldl (fun s entry => (s.getOrCreateNode entry.2).1) s
  toRemove.foldl removeNode added

/-! ### Operations and messages -/

/-- A message to the registry, or a call of the typed API of a node. -/
inductive NodeOperation where
  | addNode (nodeDescription : DSANodeDescription)
  | removeNode (path : Str)
  | addChild (id : Nat) (name : Str) (configs : DSAMap)
  | addChildNode (id : Nat) (name : Str) (child : DSANodeRef)
  | removeChild (id : Nat) (name : Str)

def operate (s : DistributedNodesRegistry) : NodeOperation → DistributedNodesRegistry
  | .addNode nodeDescription => (s.getOrCreateNode nodeDescription).1
  | .removeNode path => s.removeNode path
  | .addChild id name configs => s.addChild id name configs
  | .addChildNode id name child => s.addChildNode id name child
  | .removeChild id name => s.removeChild id name

def process [ScanOrder Str] (s : DistributedNodesRegistry) : NodeMessage → DistributedNodesRegistry
  | .get id =>
      match s.nodes id with
      | none => s
      | some node => s.send [.initMe id (s.replicatedChildren node.path)]
  | .initMe id state => s.initMe id state
  | .flush path =>
      match s.replicatedChildren path with
      | none => s
      | some state => s.send ((s.subscribers path).map fun id => .changed id state)
  | .changed id state => s.updateLocalState id state
  | .getNodesByDescription id descriptions diff =>
      (descriptions.foldl (fun s child => (s.getOrCreateNode child).1) s).send [.callback id diff]
  | .callback id diff => s.callback id diff
  | .addChild id name configs => s.addChild id name configs
  | .addNode nodeDescription id name =>
      let (created, child) := s.getOrCreateNode nodeDescription
      created.send [.addChildNode id name child]
  | .addChildNode id name child => s.addChildNode id name child
  | .flushRegistry => s.send [.changedRegistry s.replicatedNodes]
  | .changedRegistry entries => s.changedRegistry entries

/-- An operation, which begins when everything before it has been processed, or a message. -/
inductive TreeInput where
  | operation (operation : NodeOperation)
  | message (i : Nat)

def receive [ScanOrder Str] (s : DistributedNodesRegistry) :
    TreeInput → Option DistributedNodesRegistry
  | .operation operation => if s.pending.isEmpty then some (s.operate operation) else none
  | .message i => (s.pending[i]?).map fun message =>
      { s with pending := s.pending.eraseIdx i }.process message

end DistributedNodesRegistry

end DsaBroker
