import DsaBroker.DistributedDSANode
import DsaBroker.Runs

/-!
# What a replica shows once its callbacks have run

Replicated states come in one after the other, and their keys only become more.  When no callback
is left, the data of the node should be what the states make of it one after the other, which is
what the last of them says (`data_reflects`).

A difference is computed against the data as they are when the state comes in, and it is applied
to the data as they are when its callback runs.  A state that comes in meanwhile can take back
what the difference sets, and then the difference is applied too late.  `ReplicaCondition`
excludes just these states.
-/

namespace DsaBroker

/-! ### The data of a node, property by property -/

/-- What a node can be asked for. -/
inductive NodeProperty where
  | value
  | config (name : Str)
  | attr (name : Str)
  | subscription (sid : Int)
  | listSubscription (rid : Int)
  | child (name : Str)

inductive PropertyValue where
  | value (v : DSAVal)
  | listener (ref : ActorRef)
  | node (description : DSANodeDescription)

/-- The property that is looked up. -/
def DistributedDSANodeData.lookup (data : DistributedDSANodeData) :
    NodeProperty → Option PropertyValue
  | .value => data.value.map .value
  | .config name => (data.configs name).map .value
  | .attr name => (data.attributes name).map .value
  | .subscription sid => (data.subscriptions sid).map .listener
  | .listSubscription rid => (data.listSubscriptions rid).map .listener
  | .child name => (data.children name).map .node

/-- What a replicated state says about every property. -/
def DistributedDSANodeState.patch (state : DistributedDSANodeState) :
    Patch NodeProperty PropertyValue
  | .value => some (state.value.map .value)
  | .config name => state.configs.map .value name
  | .attr name => state.attributes.map .value name
  | .subscription sid => state.subscriptions.map .listener sid
  | .listSubscription rid => state.listSubscriptions.map .listener rid
  | .child name => state.children.map .node name

def DiffSet.patch {κ ν : Type} (diff : DiffSet κ ν) : Patch κ ν := fun k =>
  if diff.deleted k then some none else ((diff.updated k).or (diff.created k)).map some

/-- What a difference does to every property. -/
def DataDiff.patch (diff : DataDiff) : Patch NodeProperty PropertyValue
  | .value => diff.valueDiff.map (Option.map .value)
  | .config name => diff.configsDiff.patch.map .value name
  | .attr name => diff.attributesDiff.patch.map .value name
  | .subscription sid => diff.subscriptionsDiff.patch.map .listener sid
  | .listSubscription rid => diff.listSubscriptionsDiff.patch.map .listener rid
  | .child name => diff.childrenDiff.patch.map .node name

theorem DistributedDSANodeData.lookup_injective {data data' : DistributedDSANodeData}
    (h : data.lookup = data'.lookup) : data = data' := by
  have hvalue := Option.map_injective (fun _ _ => PropertyValue.value.inj)
  have hlistener := Option.map_injective (fun _ _ => PropertyValue.listener.inj)
  have hnode := Option.map_injective (fun _ _ => PropertyValue.node.inj)
  obtain ⟨value, configs, attributes, subscriptions, listSubscriptions, children⟩ := data
  obtain ⟨value', configs', attributes', subscriptions', listSubscriptions', children'⟩ := data'
  obtain rfl : value = value' := hvalue (congrFun h .value)
  obtain rfl : configs = configs' := funext fun name => hvalue (congrFun h (.config name))
  obtain rfl : attributes = attributes' :=
    funext fun name => hvalue (congrFun h (.attr name))
  obtain rfl : subscriptions = subscriptions' :=
    funext fun sid => hlistener (congrFun h (.subscription sid))
  obtain rfl : listSubscriptions = listSubscriptions' :=
    funext fun rid => hlistener (congrFun h (.listSubscription rid))
  obtain rfl : children = children' := funext fun name => hnode (congrFun h (.child name))
  rfl

/-! ### A difference is a patch -/

namespace DistributedDSANode

section

variable {κ ν : Type}

theorem foldDiff_eq (initial : κ → Option ν) (diff : DiffSet κ ν) :
    foldDiff initial diff = diff.patch.apply initial := by
  funext k
  simp only [foldDiff, DiffSet.patch, Patch.apply]
  cases diff.deleted k
  · cases diff.updated k <;> cases diff.created k <;> rfl
  · rfl

/-- An entry is in the difference if it is removed, or if it is not the old one. -/
theorem patch_collectDiffSet [DecidableEq ν] {newValues : Patch κ ν} {oldValues : κ → Option ν}
    {k : κ} {w : Option ν} (h : newValues k = some w) :
    (collectDiffSet newValues oldValues).patch k =
      if w.isSome = true ∧ oldValues k = w then none else some w := by
  simp only [DiffSet.patch, collectDiffSet, h]
  cases w with
  | none => rfl
  | some v =>
    cases hold : oldValues k with
    | none => simp
    | some old => by_cases hsame : old = v <;> simp [hsame]

theorem collectDiffSet_isDiff [DecidableEq ν] (newValues : Patch κ ν) (oldValues : κ → Option ν) :
    (collectDiffSet newValues oldValues).patch.IsDiff newValues oldValues := by
  constructor
  · intro k w hw
    cases hnew : newValues k with
    | none =>
      simp only [DiffSet.patch, collectDiffSet, hnew] at hw
      cases hw
    | some v =>
      rw [patch_collectDiffSet hnew] at hw
      split at hw
      case isTrue => cases hw
      case isFalse => exact hw
  · intro k w hnew hnone
    rw [patch_collectDiffSet hnew] at hnone
    split at hnone
    case isTrue hsame => exact hsame.2
    case isFalse => cases hnone

end

theorem lookup_newDataFromDiff (data : DistributedDSANodeData) (diff : DataDiff) :
    (newDataFromDiff data diff).lookup = diff.patch.apply data.lookup := by
  funext property
  cases property with
  | value =>
    simp only [DistributedDSANodeData.lookup, newDataFromDiff, Patch.apply, DataDiff.patch]
    cases diff.valueDiff <;> rfl
  | config name =>
    simp only [DistributedDSANodeData.lookup, newDataFromDiff, foldDiff_eq]
    exact (Patch.map_apply PropertyValue.value diff.configsDiff.patch data.configs name).symm
  | attr name =>
    simp only [DistributedDSANodeData.lookup, newDataFromDiff, foldDiff_eq]
    exact (Patch.map_apply PropertyValue.value diff.attributesDiff.patch data.attributes name).symm
  | subscription sid =>
    simp only [DistributedDSANodeData.lookup, newDataFromDiff, foldDiff_eq]
    exact (Patch.map_apply PropertyValue.listener diff.subscriptionsDiff.patch data.subscriptions
      sid).symm
  | listSubscription rid =>
    simp only [DistributedDSANodeData.lookup, newDataFromDiff, foldDiff_eq]
    exact (Patch.map_apply PropertyValue.listener diff.listSubscriptionsDiff.patch
      data.listSubscriptions rid).symm
  | child name =>
    simp only [DistributedDSANodeData.lookup, newDataFromDiff, foldDiff_eq]
    exact (Patch.map_apply PropertyValue.node diff.childrenDiff.patch data.children name).symm

/-- The value is in the difference if it is not the old one. -/
theorem valueDiff_isDiff (state : DistributedDSANodeState) (data : DistributedDSANodeData) :
    @Patch.IsDiff Unit DSAVal (fun _ => (collectDiff state data).valueDiff)
      (fun _ => some state.value) (fun _ => data.value) := by
  by_cases hsame : state.value = data.value
  · constructor
    · intro _ w hw
      simp [collectDiff, hsame] at hw
    · rintro _ w ⟨⟩ _
      exact hsame.symm
  · constructor
    · intro _ w hw
      simpa [collectDiff, hsame] using hw
    · intro _ w _ hnone
      simp [collectDiff, hsame] at hnone

/-- The difference makes of the data what the replicated state says. -/
theorem collectDiff_isDiff (state : DistributedDSANodeState) (data : DistributedDSANodeData) :
    (collectDiff state data).patch.IsDiff state.patch data.lookup := by
  have hvalue := (valueDiff_isDiff state data).map PropertyValue.value
  have hconfigs := (collectDiffSet_isDiff state.configs data.configs).map PropertyValue.value
  have hattributes :=
    (collectDiffSet_isDiff state.attributes data.attributes).map PropertyValue.value
  have hsubscriptions :=
    (collectDiffSet_isDiff state.subscriptions data.subscriptions).map PropertyValue.listener
  have hlists := (collectDiffSet_isDiff state.listSubscriptions data.listSubscriptions).map
    PropertyValue.listener
  have hchildren := (collectDiffSet_isDiff state.children data.children).map PropertyValue.node
  constructor
  · intro property w
    cases property with
    | value => exact hvalue.announced () w
    | config name => exact hconfigs.announced name w
    | attr name => exact hattributes.announced name w
    | subscription sid => exact hsubscriptions.announced sid w
    | listSubscription rid => exact hlists.announced rid w
    | child name => exact hchildren.announced name w
  · intro property w
    cases property with
    | value => exact hvalue.current () w
    | config name => exact hconfigs.current name w
    | attr name => exact hattributes.current name w
    | subscription sid => exact hsubscriptions.current sid w
    | listSubscription rid => exact hlists.current rid w
    | child name => exact hchildren.current name w

end DistributedDSANode

/-! ### Replicated states, applied as they come in -/

/-- What a replicated state makes of the data. -/
def DistributedDSANodeState.applyTo (state : DistributedDSANodeState)
    (data : DistributedDSANodeData) : DistributedDSANodeData where
  value := state.value
  configs := state.configs.apply data.configs
  attributes := state.attributes.apply data.attributes
  subscriptions := state.subscriptions.apply data.subscriptions
  listSubscriptions := state.listSubscriptions.apply data.listSubscriptions
  children := state.children.apply data.children

namespace DistributedDSANodeState

theorem lookup_applyTo (state : DistributedDSANodeState) (data : DistributedDSANodeData) :
    (state.applyTo data).lookup = state.patch.apply data.lookup := by
  funext property
  cases property with
  | value => rfl
  | config name => exact (Patch.map_apply PropertyValue.value state.configs data.configs name).symm
  | attr name =>
    exact (Patch.map_apply PropertyValue.value state.attributes data.attributes name).symm
  | subscription sid =>
    exact (Patch.map_apply PropertyValue.listener state.subscriptions data.subscriptions sid).symm
  | listSubscription rid =>
    exact (Patch.map_apply PropertyValue.listener state.listSubscriptions data.listSubscriptions
      rid).symm
  | child name => exact (Patch.map_apply PropertyValue.node state.children data.children name).symm

/-- A callback that runs at once does what the state says. -/
theorem newDataFromDiff_collectDiff (state : DistributedDSANodeState)
    (data : DistributedDSANodeData) :
    DistributedDSANode.newDataFromDiff data (DistributedDSANode.collectDiff state data) =
      state.applyTo data := by
  apply DistributedDSANodeData.lookup_injective
  rw [DistributedDSANode.lookup_newDataFromDiff, lookup_applyTo]
  exact (DistributedDSANode.collectDiff_isDiff state data).apply

/-- A later state with at least the same keys makes an earlier one forgotten. -/
theorem applyTo_applyTo {state later : DistributedDSANodeState}
    (h : ∀ property, (state.patch property).isSome = true → (later.patch property).isSome = true)
    (data : DistributedDSANodeData) : later.applyTo (state.applyTo data) = later.applyTo data := by
  apply DistributedDSANodeData.lookup_injective
  rw [lookup_applyTo, lookup_applyTo, lookup_applyTo]
  exact Patch.apply_apply h data.lookup

end DistributedDSANodeState

/-! ### Runs -/

inductive ReplicaInput where
  | changed (state : DistributedDSANodeState)
  | callback (i : Nat)

/-- A node, what the states that have come in make of its data one after the other, and the last
of them. -/
structure ReplicaRun where
  node : DistributedDSANode
  expected : DistributedDSANodeData
  last : Option DistributedDSANodeState

namespace ReplicaRun

def initial (nodeDescription : DSANodeDescription) (value : DSAVal) (name : Str) : ReplicaRun where
  node := .initial nodeDescription value name
  expected := DistributedDSANode.initialData nodeDescription value name
  last := none

def changed (run : ReplicaRun) (state : DistributedDSANodeState) : ReplicaRun where
  node := run.node.changed state
  expected := state.applyTo run.expected
  last := some state

def receive (isLocal : ActorRef → Bool) (run : ReplicaRun) : ReplicaInput → Option ReplicaRun
  | .changed state => some (run.changed state)
  | .callback i => (run.node.callback isLocal i).map fun node => { run with node := node }

/-- The keys of the states only become more. -/
def Grows (run : ReplicaRun) : ReplicaInput → Prop
  | .changed state => ∀ last ∈ run.last, ∀ property,
      (last.patch property).isSome = true → (state.patch property).isSome = true
  | .callback _ => True

/-- No difference that waits for its callback sets what the state sets otherwise. -/
def Undisputed (run : ReplicaRun) : ReplicaInput → Prop
  | .changed state => ∀ diff ∈ run.node.pending, diff.patch.Agrees state.patch
  | .callback _ => True

end ReplicaRun

/-- The keys only become more, and no pending difference is overtaken. -/
def ReplicaCondition (run : ReplicaRun) (input : ReplicaInput) : Prop :=
  run.Grows input ∧ run.Undisputed input

namespace DistributedDSANode

variable {isLocal : ActorRef → Bool} {node node' : DistributedDSANode} {i : Nat}

/-- A callback works off one of the pending differences. -/
theorem callback_cases (h : node.callback isLocal i = some node') :
    ∃ diff, (diff :: node'.pending).Perm node.pending ∧
      node' = { node.applyDiff isLocal diff with pending := node'.pending } := by
  obtain ⟨diff, hdiff, rfl⟩ := Option.map_eq_some_iff.mp h
  obtain ⟨hlt, rfl⟩ := List.getElem?_eq_some_iff.mp hdiff
  exact ⟨_, List.getElem_cons_eraseIdx_perm hlt, rfl⟩

end DistributedDSANode

/-- The pending differences bring the data to what the states make of it, and that is what the
last of them makes of the data at the start. -/
structure ReplicaInv (start : DistributedDSANodeData) (run : ReplicaRun) : Prop where
  settling : Settling run.node.data.lookup run.expected.lookup
    (run.node.pending.map DataDiff.patch)
  reflects : run.expected = run.last.elim start fun state => state.applyTo start

namespace ReplicaInv

variable {start : DistributedDSANodeData} {run run' : ReplicaRun}

theorem initial (nodeDescription : DSANodeDescription) (value : DSAVal) (name : Str) :
    ReplicaInv (DistributedDSANode.initialData nodeDescription value name)
      (.initial nodeDescription value name) := by
  constructor
  · exact Settling.start _
  · rfl

theorem changed (h : ReplicaInv start run) {state : DistributedDSANodeState}
    (hok : ReplicaCondition run (.changed state)) : ReplicaInv start (run.changed state) := by
  obtain ⟨hgrows, hundisputed⟩ := hok
  constructor
  · have hpending : ∀ p ∈ run.node.pending.map DataDiff.patch, p.Agrees state.patch := by
      intro p hp
      obtain ⟨diff, hdiff, rfl⟩ := List.mem_map.mp hp
      exact hundisputed diff hdiff
    have hsettling :=
      h.settling.announce (DistributedDSANode.collectDiff_isDiff state run.node.data) hpending
    simpa only [ReplicaRun.changed, DistributedDSANode.changed, List.map_append, List.map_cons,
      List.map_nil, DistributedDSANodeState.lookup_applyTo] using hsettling
  · simp only [ReplicaRun.changed, Option.elim_some, h.reflects]
    cases hlast : run.last with
    | none => rfl
    | some last => exact DistributedDSANodeState.applyTo_applyTo (hgrows last hlast) start

theorem callback (h : ReplicaInv start run) {isLocal : ActorRef → Bool} {i : Nat}
    {node : DistributedDSANode} (hcallback : run.node.callback isLocal i = some node) :
    ReplicaInv start { run with node := node } := by
  obtain ⟨diff, hperm, hnode⟩ := DistributedDSANode.callback_cases hcallback
  constructor
  · have hdata : node.data = DistributedDSANode.newDataFromDiff run.node.data diff := by
      rw [hnode]
      rfl
    rw [hdata, DistributedDSANode.lookup_newDataFromDiff]
    exact h.settling.perform (hperm.map DataDiff.patch)
  · exact h.reflects

theorem receive (h : ReplicaInv start run) {isLocal : ActorRef → Bool} {input : ReplicaInput}
    (hok : ReplicaCondition run input) (hreceive : run.receive isLocal input = some run') :
    ReplicaInv start run' := by
  cases input with
  | changed state =>
    cases hreceive
    exact h.changed hok
  | callback i =>
    obtain ⟨node, hnode, rfl⟩ := Option.map_eq_some_iff.mp hreceive
    exact h.callback hnode

end ReplicaInv

/-! ### Callbacks one after the other -/

section

variable {isLocal : ActorRef → Bool}

theorem localOnly_foldDiff (listeners : Int → Option ActorRef) (diff : DiffSet Int ActorRef) :
    DistributedDSANode.localOnly isLocal
        (DistributedDSANode.foldDiff (DistributedDSANode.localOnly isLocal listeners) diff) =
      DistributedDSANode.localOnly isLocal (DistributedDSANode.foldDiff listeners diff) := by
  funext id
  simp only [DistributedDSANode.localOnly, DistributedDSANode.foldDiff_eq]
  cases hdiff : diff.patch id with
  | some w => rw [Patch.apply_some hdiff, Patch.apply_some hdiff]
  | none =>
    rw [Patch.apply_none hdiff, Patch.apply_none hdiff, DistributedDSANode.localOnly,
      Option.filter_filter]
    simp only [Bool.and_self]

/-- In every run, the listeners that a node notifies are the local ones among those of its data. -/
theorem listeners_local {nodeDescription : DSANodeDescription} {value : DSAVal} {name : Str}
    {run : ReplicaRun}
    (h : Reachable (ReplicaRun.receive isLocal) AnyStep (.initial nodeDescription value name) run) :
    run.node.sids = DistributedDSANode.localOnly isLocal run.node.data.subscriptions ∧
      run.node.rids = DistributedDSANode.localOnly isLocal run.node.data.listSubscriptions := by
  apply h.invariant
  · exact ⟨rfl, rfl⟩
  · intro run input run' hrun _ hreceive
    cases input with
    | changed state =>
      cases hreceive
      exact hrun
    | callback i =>
      obtain ⟨node, hnode, rfl⟩ := Option.map_eq_some_iff.mp hreceive
      obtain ⟨diff, _, hnode⟩ := DistributedDSANode.callback_cases hnode
      rw [hnode]
      simp only [DistributedDSANode.applyDiff, DistributedDSANode.newDataFromDiff]
      rw [hrun.1, hrun.2]
      exact ⟨localOnly_foldDiff _ _, localOnly_foldDiff _ _⟩

theorem reachable_callback {start run : ReplicaRun}
    (reached : Reachable (ReplicaRun.receive isLocal) ReplicaRun.Grows start run) {i : Nat}
    {diff : DataDiff} (hdiff : run.node.pending[i]? = some diff) :
    Reachable (ReplicaRun.receive isLocal) ReplicaRun.Grows start
      { run with
        node :=
          { run.node.applyDiff isLocal diff with pending := run.node.pending.eraseIdx i } } := by
  apply Reachable.next (.callback i) reached
  · exact trivial
  · rw [ReplicaRun.receive, DistributedDSANode.callback, hdiff]
    rfl

/-- All callbacks but that of one difference can run first. -/
theorem exists_last_callback {start run : ReplicaRun} {diff : DataDiff}
    (reached : Reachable (ReplicaRun.receive isLocal) ReplicaRun.Grows start run)
    (h : diff ∈ run.node.pending) :
    ∃ run', Reachable (ReplicaRun.receive isLocal) ReplicaRun.Grows start run' ∧
      run'.node.pending = [diff] ∧ run'.expected = run.expected := by
  induction hlength : run.node.pending.length generalizing run with
  | zero =>
    rw [List.length_eq_zero_iff.mp hlength] at h
    cases h
  | succ n ih =>
    obtain ⟨first, rest, hpending⟩ : ∃ first rest, run.node.pending = first :: rest :=
      List.exists_cons_of_length_eq_add_one hlength
    rw [hpending, List.length_cons, Nat.add_right_cancel_iff] at hlength
    rw [hpending] at h
    rcases List.mem_cons.mp h with rfl | hrest
    · cases rest with
      | nil => exact ⟨run, reached, hpending, rfl⟩
      | cons second rest =>
        -- the difference is the first one, so the second callback runs
        have hsecond : run.node.pending[1]? = some second := by rw [hpending]; rfl
        apply ih (reachable_callback reached hsecond)
        · simp only [hpending, List.eraseIdx_cons_succ, List.mem_cons_self]
        · simpa only [hpending, List.eraseIdx_cons_succ, List.eraseIdx_cons_zero, List.length_cons]
          using hlength
    · have hfirst : run.node.pending[0]? = some first := by rw [hpending]; rfl
      apply ih (reachable_callback reached hfirst)
      · simpa only [hpending, List.eraseIdx_cons_zero] using hrest
      · simpa only [hpending, List.eraseIdx_cons_zero] using hlength

/-- A state that takes back what a pending difference sets leads to a replica that does not show
it. -/
theorem overtaken_shown {start run : ReplicaRun} {state : DistributedDSANodeState}
    (reached : Reachable (ReplicaRun.receive isLocal) ReplicaRun.Grows start run)
    (hgrows : run.Grows (.changed state)) (hdisputed : ¬ run.Undisputed (.changed state)) :
    ∃ run', Reachable (ReplicaRun.receive isLocal) ReplicaRun.Grows start run' ∧
      run'.node.pending = [] ∧ run'.node.data ≠ run'.expected := by
  simp only [ReplicaRun.Undisputed, not_forall] at hdisputed
  obtain ⟨diff, hdiff, hdisagrees⟩ := hdisputed
  have hchanged : Reachable (ReplicaRun.receive isLocal) ReplicaRun.Grows start
      (run.changed state) := reached.next (.changed state) hgrows rfl
  obtain ⟨run', hreached, hpending, hexpected⟩ :=
    exists_last_callback hchanged (List.mem_append_left _ hdiff)
  have hlast : run'.node.pending[0]? = some diff := by rw [hpending]; rfl
  refine ⟨_, reachable_callback hreached hlast, ?_, ?_⟩
  · rw [hpending]
    rfl
  · intro hdata
    have hlookup := congrArg DistributedDSANodeData.lookup hdata
    rw [hexpected] at hlookup
    simp only [DistributedDSANode.applyDiff, DistributedDSANode.lookup_newDataFromDiff,
      ReplicaRun.changed, DistributedDSANodeState.lookup_applyTo] at hlookup
    exact Patch.overtaken hdisagrees _ _ hlookup

end

/-- **A replica shows the last state.**  In every run whose steps meet the condition, whenever no
callback is left, the data of the node are what the states make of them one after the other, and
what the last state makes of the data at the start. -/
theorem data_reflects {isLocal : ActorRef → Bool} {nodeDescription : DSANodeDescription}
    {value : DSAVal} {name : Str} {run : ReplicaRun}
    (h : Reachable (ReplicaRun.receive isLocal) ReplicaCondition
      (.initial nodeDescription value name) run)
    (hdone : run.node.pending = []) :
    run.node.data = run.expected ∧ run.expected =
      run.last.elim (DistributedDSANode.initialData nodeDescription value name) fun state =>
        state.applyTo (DistributedDSANode.initialData nodeDescription value name) := by
  have hinv : ReplicaInv (DistributedDSANode.initialData nodeDescription value name) run := by
    apply h.invariant
    · exact ReplicaInv.initial nodeDescription value name
    · intro run input run' hrun hok hreceive
      exact hrun.receive hok hreceive
  refine ⟨?_, hinv.reflects⟩
  apply DistributedDSANodeData.lookup_injective
  have hsettling := hinv.settling
  rw [hdone, List.map_nil] at hsettling
  exact hsettling.settled

/-! ### A value that is set and taken back -/

/-- A replicated state with a value and configs only. -/
def valuedState (value : DSAVal) (configs : Patch Str DSAVal) : DistributedDSANodeState where
  value := some value
  configs := configs
  attributes _ := none
  subscriptions _ := none
  listSubscriptions _ := none
  children _ := none

def dataDescription : DSANodeDescription := ⟨str "/data", [], .string []⟩

/-- The configs of the given names. -/
def configsNamed (names : List Str) : Patch Str DSAVal := fun name =>
  if names.any fun other => other = name then some (some (.boolean true)) else none

theorem grows_valuedState {value value' : DSAVal} {configs configs' : Patch Str DSAVal}
    (h : ∀ name, (configs name).isSome = true → (configs' name).isSome = true)
    (property : NodeProperty)
    (hsome : ((valuedState value configs).patch property).isSome = true) :
    ((valuedState value' configs').patch property).isSome = true := by
  cases property with
  | value => rfl
  | config name =>
    simp only [DistributedDSANodeState.patch, valuedState, Patch.map, Option.isSome_map] at hsome ⊢
    exact h name hsome
  | attr name => cases hsome
  | subscription sid => cases hsome
  | listSubscription rid => cases hsome
  | child name => cases hsome

/-- What two states with one value and the same configs say is not disputed. -/
theorem undisputed_valuedState {value : DSAVal} {configs configs' : Patch Str DSAVal}
    (h : ∀ name w, configs name = some w → configs' name = some w)
    (data : DistributedDSANodeData) :
    (DistributedDSANode.collectDiff (valuedState value configs) data).patch.Agrees
      (valuedState value configs').patch := by
  intro property v w hv hw
  have hannounced := (DistributedDSANode.collectDiff_isDiff _ data).announced property v hv
  cases property with
  | value => exact Option.some.inj (hannounced.symm.trans hw)
  | config name =>
    obtain ⟨old, hold, rfl⟩ := Option.map_eq_some_iff.mp hannounced
    obtain ⟨new, hnew, rfl⟩ := Option.map_eq_some_iff.mp hw
    rw [Option.some.inj ((h name old hold).symm.trans hnew)]
  | attr name => cases hw
  | subscription sid => cases hw
  | listSubscription rid => cases hw
  | child name => cases hw

def configA : Str := str "$a"

def configB : Str := str "$b"

/-- A config is added while the callback of another one waits, and the later callback runs
first. -/
theorem data_reflects_configs :
    ∃ run : ReplicaRun, (run.node.data.configs configA).isSome = true ∧
      (run.node.data.configs configB).isSome = true ∧ run.node.data = run.expected := by
  have hnames : ∀ name w, configsNamed [configA] name = some w →
      configsNamed [configA, configB] name = some w := by
    intro name w hw
    simp only [configsNamed, List.any_cons, List.any_nil, Bool.or_false] at hw ⊢
    split at hw
    case isTrue hname => rw [hname, Bool.true_or, if_pos rfl, hw]
    case isFalse => cases hw
  have hgrows : ∀ name, (configsNamed [configA] name).isSome = true →
      (configsNamed [configA, configB] name).isSome = true := by
    intro name hname
    obtain ⟨w, hw⟩ := Option.isSome_iff_exists.mp hname
    rw [hnames name w hw]
    rfl
  let start : ReplicaRun := .initial dataDescription (.string []) (str "data")
  let first := valuedState (.string []) (configsNamed [configA])
  let second := valuedState (.string []) (configsNamed [configA, configB])
  have hfirst : ReplicaCondition start (.changed first) := by
    constructor
    · intro last hlast
      cases hlast
    · intro diff hdiff
      cases hdiff
  have hsecond : ReplicaCondition (start.changed first) (.changed second) := by
    constructor
    · intro last hlast
      cases hlast
      exact grows_valuedState hgrows
    · intro diff hdiff
      rw [List.mem_singleton.mp hdiff]
      exact undisputed_valuedState hnames _
  have hreached : Reachable (ReplicaRun.receive fun _ => true) ReplicaCondition start _ :=
    .next (.callback 0)
      (.next (.callback 1)
        (.next (.changed second) (.next (.changed first) .start hfirst rfl) hsecond rfl)
        ⟨trivial, trivial⟩ rfl)
      ⟨trivial, trivial⟩ rfl
  exact ⟨_, rfl, rfl, (data_reflects hreached rfl).1⟩

/-- The value is set and set back before the first callback has run.  The second difference is
then empty, and the value that remains is the one that was taken back. -/
theorem value_taken_back :
    ¬ ∀ run, Reachable (ReplicaRun.receive fun _ => true) ReplicaRun.Grows
      (.initial dataDescription (.string []) (str "data")) run → run.node.pending = [] →
      run.node.data = run.expected := by
  intro hall
  have hnone : ∀ name : Str, ((fun _ => none : Patch Str DSAVal) name).isSome = true →
      ((fun _ => none : Patch Str DSAVal) name).isSome = true := fun _ h => h
  have hdata := hall _
    (.next (.callback 0)
      (.next (.callback 0)
        (.next (.changed (valuedState (.string []) fun _ => none))
          (.next (.changed (valuedState (.boolean true) fun _ => none)) .start
            (fun last hlast => by cases hlast) rfl)
          (fun last hlast => by cases hlast; exact grows_valuedState hnone) rfl)
        trivial rfl)
      trivial rfl) rfl
  have hvalue : some (DSAVal.boolean true) = some (.string []) :=
    congrArg DistributedDSANodeData.value hdata
  cases hvalue

end DsaBroker
