import DsaBroker.InMemoryDSANode
import DsaBroker.Patches

/-!
# A node that is replicated over the cluster

`DistributedDSANode` keeps its data in a replicated state, whose maps hold `None` for a removed
entry, and a local copy.  When the replicated state has changed, `updateLocalState` computes the
difference to the local copy, and applies it in the callback of a future: at once for a node
without new children, but always after the message.

A `Map` is its lookup function here.  The replicated state arrives as it is after the merge, so
the timestamps of its entries play no part.  What a callback tells the listeners is left out, as
are the calls that change the replicated state.
-/

namespace DsaBroker

structure DSANodeDescription where
  path : Str
  attrAndConf : DSAMap
  value : DSAVal
deriving DecidableEq

structure DistributedDSANodeState where
  value : Option DSAVal
  configs : Patch Str DSAVal
  attributes : Patch Str DSAVal
  subscriptions : Patch Int ActorRef
  listSubscriptions : Patch Int ActorRef
  children : Patch Str DSANodeDescription

structure DistributedDSANodeData where
  value : Option DSAVal
  configs : Str → Option DSAVal
  attributes : Str → Option DSAVal
  subscriptions : Int → Option ActorRef
  listSubscriptions : Int → Option ActorRef
  children : Str → Option DSANodeDescription

structure DiffSet (κ ν : Type) where
  created : κ → Option ν
  updated : κ → Option ν
  deleted : κ → Bool

structure DataDiff where
  valueDiff : Option (Option DSAVal)
  configsDiff : DiffSet Str DSAVal
  attributesDiff : DiffSet Str DSAVal
  subscriptionsDiff : DiffSet Int ActorRef
  listSubscriptionsDiff : DiffSet Int ActorRef
  childrenDiff : DiffSet Str DSANodeDescription

/-- A node on one member of the cluster, with the differences whose callbacks have not run. -/
structure DistributedDSANode where
  data : DistributedDSANodeData
  childNodes : Str → Option ActorRef
  sids : Int → Option ActorRef
  rids : Int → Option ActorRef
  pending : List DataDiff

namespace DistributedDSANode

/-! ### Differences -/

section

variable {κ ν : Type}

def foldDiff (initial : κ → Option ν) (diff : DiffSet κ ν) : κ → Option ν := fun k =>
  let withNew := (diff.created k).or (initial k)
  let withUpdated := (diff.updated k).or withNew
  if diff.deleted k then none else withUpdated

def collectDiffSet [DecidableEq ν] (newValues : Patch κ ν) (oldValues : κ → Option ν) :
    DiffSet κ ν where
  created k := (newValues k).join.filter fun _ => (oldValues k).isNone
  updated k := (newValues k).join.filter fun v => (oldValues k).any fun old => old ≠ v
  deleted k := (newValues k).any Option.isNone

end

def collectDiff (state : DistributedDSANodeState) (data : DistributedDSANodeData) : DataDiff where
  valueDiff := if state.value ≠ data.value then some state.value else none
  configsDiff := collectDiffSet state.configs data.configs
  attributesDiff := collectDiffSet state.attributes data.attributes
  subscriptionsDiff := collectDiffSet state.subscriptions data.subscriptions
  listSubscriptionsDiff := collectDiffSet state.listSubscriptions data.listSubscriptions
  childrenDiff := collectDiffSet state.children data.children

def newDataFromDiff (data : DistributedDSANodeData) (diff : DataDiff) :
    DistributedDSANodeData where
  value := diff.valueDiff.getD data.value
  configs := foldDiff data.configs diff.configsDiff
  attributes := foldDiff data.attributes diff.attributesDiff
  subscriptions := foldDiff data.subscriptions diff.subscriptionsDiff
  listSubscriptions := foldDiff data.listSubscriptions diff.listSubscriptionsDiff
  children := foldDiff data.children diff.childrenDiff

/-! ### Messages and callbacks -/

def initialData (nodeDescription : DSANodeDescription) (value : DSAVal) (name : Str) :
    DistributedDSANodeData where
  value := some value
  configs := Function.update
    (fun key => if startsWith key [dollar] then nodeDescription.attrAndConf.get key else none)
    (str "$name") (some (.string name))
  attributes key :=
    if startsWith key [atSign] then nodeDescription.attrAndConf.get key else none
  subscriptions _ := none
  listSubscriptions _ := none
  children _ := none

def initial (nodeDescription : DSANodeDescription) (value : DSAVal) (name : Str) :
    DistributedDSANode where
  data := initialData nodeDescription value name
  childNodes _ := none
  sids _ := none
  rids _ := none
  pending := []

/-- A `Changed` message: `updateLocalState` up to the callback that it registers. -/
def changed (node : DistributedDSANode) (state : DistributedDSANodeState) : DistributedDSANode :=
  { node with pending := node.pending ++ [collectDiff state node.data] }

/-- The listeners on this member of the cluster. -/
def localOnly (isLocal : ActorRef → Bool) (listeners : Int → Option ActorRef) :
    Int → Option ActorRef := fun id => (listeners id).filter isLocal

/-- What the callback does with its difference. -/
def applyDiff (isLocal : ActorRef → Bool) (node : DistributedDSANode) (diff : DataDiff) :
    DistributedDSANode :=
  { node with
    childNodes := fun name => if diff.childrenDiff.deleted name then none else node.childNodes name
    sids := localOnly isLocal (foldDiff node.sids diff.subscriptionsDiff)
    rids := localOnly isLocal (foldDiff node.rids diff.listSubscriptionsDiff)
    data := newDataFromDiff node.data diff }

/-- The `i`-th of the callbacks that have not run; `none` when there are fewer. -/
def callback (isLocal : ActorRef → Bool) (node : DistributedDSANode) (i : Nat) :
    Option DistributedDSANode :=
  (node.pending[i]?).map fun diff =>
    { node.applyDiff isLocal diff with pending := node.pending.eraseIdx i }

end DistributedDSANode

end DsaBroker
