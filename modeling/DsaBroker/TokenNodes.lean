import DsaBroker.InMemoryDSANode
import DsaBroker.ReplicaOverlay
import Mathlib.Data.List.Count
import Mathlib.Data.List.Induction
import Mathlib.Data.List.Nodup

/-!
# Token nodes

A token node keeps in a config the ids of the links that have used the token, so that they can be
disconnected when its clients are removed.  There are two kinds of nodes, and each has a handler
of its own for `AppendDsId2Token` that does the same; a config is looked up and written in both of
them, which is all that the handlers need (`ConfigStore`).

An id that is stored already is meant to change nothing.  The handlers then store this id alone,
and the others are forgotten.  The ids are remembered just if an id only comes again when no other
has come before it (`remembers_iff`).
-/

namespace DsaBroker

/-- A node whose configs are looked up and written. -/
structure ConfigStore (σ : Type) where
  config : σ → Str → Option DSAVal
  put : σ → Str → DSAVal → σ
  config_put : ∀ node name value other,
    config (put node name value) other = if other = name then some value else config node other

/-! ### The two kinds of nodes -/

/-- `_configs ++= Seq(name -> value)`. -/
def InMemoryDSANode.putConfig (n : InMemoryDSANode) (name : Str) (value : DSAVal) :
    InMemoryDSANode := { n with configs := n.configs.updated name value }

def inMemoryConfigs : ConfigStore InMemoryDSANode where
  config n name := n.configs.get name
  put := InMemoryDSANode.putConfig
  config_put n name value other := DSAMap.get_updated n.configs name other value

/-- A replicated node that has processed its last state. -/
structure SettledNode where
  state : DistributedDSANodeState
  data : DistributedDSANodeData
  settled : state.applyTo data = data

namespace SettledNode

/-- The replicated state after `addConfigs`, for one config. -/
def editConfig (state : DistributedDSANodeState) (name : Str) (value : DSAVal) :
    DistributedDSANodeState :=
  { state with configs := Function.update state.configs name (some (some value)) }

/-- `addConfigs`, and what the node makes of the new state when it is told. -/
def putConfig (node : SettledNode) (name : Str) (value : DSAVal) : SettledNode where
  state := editConfig node.state name value
  data := DistributedDSANode.newDataFromDiff node.data
    (DistributedDSANode.collectDiff (editConfig node.state name value) node.data)
  settled := by
    rw [DistributedDSANodeState.newDataFromDiff_collectDiff]
    exact DistributedDSANodeState.applyTo_applyTo (fun _ h => h) node.data

theorem configs_settled (node : SettledNode) :
    node.state.configs.apply node.data.configs = node.data.configs :=
  congrArg DistributedDSANodeData.configs node.settled

theorem config_putConfig (node : SettledNode) (name : Str) (value : DSAVal) (other : Str) :
    (node.putConfig name value).data.configs other =
      if other = name then some value else node.data.configs other := by
  have hdata : (node.putConfig name value).data =
      (editConfig node.state name value).applyTo node.data :=
    DistributedDSANodeState.newDataFromDiff_collectDiff _ node.data
  rw [hdata]
  show (editConfig node.state name value).configs.apply node.data.configs other = _
  split
  case isTrue hname =>
    rw [hname]
    exact Patch.apply_some (Function.update_self ..) _
  case isFalse hname =>
    have hstate : (editConfig node.state name value).configs other = node.state.configs other :=
      Function.update_of_ne hname _ _
    rw [Patch.apply, hstate]
    exact congrFun node.configs_settled other

end SettledNode

def distributedConfigs : ConfigStore SettledNode where
  config node := node.data.configs
  put := SettledNode.putConfig
  config_put := SettledNode.config_putConfig

/-! ### Appending an id -/

/-- The array with one id more; `none` when the cast of the config throws. -/
def appendedDsIds (ids : Option DSAVal) (value : Str) : Option DSAVal :=
  match ids with
  | none => some (.array [.string value])
  | some (.array srcVal) =>
      if srcVal.any fun id => id = .string value then some (.array [.string value])
      else some (.array (srcVal ++ [.string value]))
  | some _ => none

def ConfigStore.appendDsId {σ : Type} (store : ConfigStore σ) (name : Str) (node : σ)
    (value : Str) : Option σ :=
  if startsWith name [dollar] then
    (appendedDsIds (store.config node name) value).map (store.put node name)
  else some node

/-- `AppendDsId2Token(name, value)`; `none` when it throws. -/
def InMemoryDSANode.appendDsId2Token := inMemoryConfigs.appendDsId

/-- `AppendDsId2Token(name, value)`; `none` when it throws. -/
def SettledNode.appendDsId2config := distributedConfigs.appendDsId

/-! ### Removing the clients -/

/-- The ids in a config. -/
def storedIds : Option DSAVal → List DSAVal
  | some (.array ids) => ids
  | _ => []

/-- The name of a link, without the hash of its key. -/
def dstName (dsId : Str) : Str :=
  if 44 < dsId.length then dsId.take (dsId.length - 44) else dsId

/-- The links that `RemoveTokenClients` disconnects.  The ids are strings. -/
def removedClients (config : Option DSAVal) : List Str :=
  ((storedIds config).filterMap DSAVal.string?).map dstName

/-! ### What should be remembered -/

/-- Of the ids that have come the config holds each once, and nothing else; an id that is stored
changes nothing when it comes again; and every link can be disconnected. -/
structure RemembersIds {σ : Type} (store : ConfigStore σ) (name : Str) (node : σ)
    (ids : List Str) : Prop where
  final : ∃ node', ids.foldlM (store.appendDsId name) node = some node' ∧
    (ids ≠ [] → ∃ stored, store.config node' name = some (.array stored)) ∧
    (∀ v ∈ ids, (storedIds (store.config node' name)).count (.string v) = 1) ∧
    (∀ id ∈ storedIds (store.config node' name), ∃ v ∈ ids, id = .string v) ∧
    ∀ v ∈ ids, dstName v ∈ removedClients (store.config node' name)
  unchanged : ∀ before v after node₁ node₂, ids = before ++ v :: after →
    before.foldlM (store.appendDsId name) node = some node₁ →
    .string v ∈ storedIds (store.config node₁ name) →
    store.appendDsId name node₁ v = some node₂ →
    store.config node₂ name = store.config node₁ name

/-- An id comes again only when no other has come before it. -/
def ComesAlone (ids : List Str) : Prop :=
  ∀ before v after, ids = before ++ v :: after → v ∈ before → ∀ w ∈ before, w = v

/-! ### The ids as strings -/

/-- What the handlers do to the ids. -/
def remember (ids : List Str) (value : Str) : List Str :=
  if ids.any fun id => id = value then [value] else ids ++ [value]

/-- The config that holds these ids. -/
def idsConfig (ids : List Str) : Option DSAVal :=
  if ids.isEmpty then none else some (.array (ids.map .string))

theorem remember_of_mem {ids : List Str} {v : Str} (h : v ∈ ids) : remember ids v = [v] := by
  rw [remember, if_pos]
  exact List.any_eq_true.mpr ⟨v, h, decide_eq_true rfl⟩

theorem remember_of_not_mem {ids : List Str} {v : Str} (h : v ∉ ids) :
    remember ids v = ids ++ [v] := by
  rw [remember, if_neg]
  intro hany
  obtain ⟨w, hw, heq⟩ := List.any_eq_true.mp hany
  exact h (of_decide_eq_true heq ▸ hw)

theorem mem_remember (ids : List Str) (v : Str) : v ∈ remember ids v := by
  unfold remember
  split
  · exact List.mem_singleton.mpr rfl
  · exact List.mem_append_right _ (List.mem_singleton.mpr rfl)

theorem idsConfig_of_mem {ids : List Str} {v : Str} (h : v ∈ ids) :
    idsConfig ids = some (.array (ids.map .string)) := by
  rw [idsConfig, if_neg]
  intro hempty
  rw [List.isEmpty_iff.mp hempty] at h
  exact List.not_mem_nil h

theorem storedIds_idsConfig (ids : List Str) : storedIds (idsConfig ids) = ids.map .string := by
  cases ids with
  | nil => rfl
  | cons v rest => rfl

theorem appendedDsIds_idsConfig (ids : List Str) (v : Str) :
    appendedDsIds (idsConfig ids) v = idsConfig (remember ids v) := by
  rw [idsConfig_of_mem (mem_remember ids v)]
  cases ids with
  | nil => rfl
  | cons first rest =>
    have hany : ((first :: rest).map DSAVal.string).any (fun id => id = .string v) =
        (first :: rest).any fun id => id = v := by
      rw [List.any_map]
      congr 1
      funext id
      simp
    simp only [idsConfig, List.isEmpty_cons, Bool.false_eq_true, if_false, appendedDsIds, hany,
      remember]
    split
    · rfl
    · rw [List.map_append]
      rfl

/-- With an id that comes again alone, the ids are those that have come, each once. -/
structure Remembered (ids stored : List Str) : Prop where
  nodup : stored.Nodup
  mem : ∀ v, v ∈ stored ↔ v ∈ ids

theorem Remembered.eq_singleton {ids stored : List Str} (h : Remembered ids stored) {v : Str}
    (hv : v ∈ stored) (halone : ∀ w ∈ ids, w = v) : stored = [v] := by
  apply List.perm_singleton.mp
  apply (List.perm_ext_iff_of_nodup h.nodup (List.nodup_singleton v)).mpr
  intro w
  rw [List.mem_singleton]
  constructor
  · exact fun hw => halone w ((h.mem w).mp hw)
  · rintro rfl
    exact hv

theorem comesAlone_nil : ComesAlone [] := by
  intro before v after hsplit hv
  cases before with
  | nil => cases hv
  | cons first rest => cases hsplit

theorem ComesAlone.of_append {ids more : List Str} (h : ComesAlone (ids ++ more)) :
    ComesAlone ids := by
  rintro before v after rfl hv
  exact h before v (after ++ more) (by simp) hv

theorem comesAlone_concat {ids : List Str} {v : Str} :
    ComesAlone (ids ++ [v]) ↔ ComesAlone ids ∧ (v ∈ ids → ∀ w ∈ ids, w = v) := by
  constructor
  · intro h
    constructor
    · rintro before u after rfl hu
      exact h before u (after ++ [v]) (by simp) hu
    · exact h ids v [] rfl
  · rintro ⟨hids, hv⟩ before u after hsplit hu
    rcases List.eq_nil_or_concat after with rfl | ⟨rest, last, rfl⟩
    · obtain ⟨rfl, hlast⟩ := List.append_inj' hsplit rfl
      obtain rfl := List.singleton_inj.mp hlast
      exact hv hu
    · rw [List.concat_eq_append, ← List.cons_append, ← List.append_assoc] at hsplit
      exact hids before u rest (List.append_inj' hsplit rfl).1 hu

theorem remembered_of_comesAlone {ids : List Str} (h : ComesAlone ids) :
    Remembered ids (ids.foldl remember []) := by
  induction ids using List.reverseRecOn with
  | nil => exact ⟨List.nodup_nil, fun v => Iff.rfl⟩
  | append_singleton ids v ih =>
    obtain ⟨hids, hv⟩ := comesAlone_concat.mp h
    obtain ⟨hnodup, hmem⟩ := ih hids
    rw [List.foldl_append, List.foldl_cons, List.foldl_nil]
    by_cases hstored : v ∈ ids.foldl remember []
    · rw [remember_of_mem hstored]
      have hold := (hmem v).mp hstored
      constructor
      · exact List.nodup_singleton v
      · intro w
        simp only [List.mem_singleton, List.mem_append]
        exact ⟨Or.inr, fun hw => hw.elim (hv hold w) id⟩
    · rw [remember_of_not_mem hstored]
      constructor
      · exact List.nodup_append.mpr ⟨hnodup, List.nodup_singleton v, by
          rintro w hw _ hlast rfl
          exact hstored (List.mem_singleton.mp hlast ▸ hw)⟩
      · intro w
        simp only [List.mem_append, hmem]

/-! ### When the ids are remembered -/

section

variable {σ : Type} {store : ConfigStore σ} {name : Str} {node : σ}

theorem appendDsId_of_idsConfig (hname : startsWith name [dollar] = true) {ids : List Str}
    (hconfig : store.config node name = idsConfig ids) (v : Str) :
    ∃ node', store.appendDsId name node v = some node' ∧
      store.config node' name = idsConfig (remember ids v) := by
  have hvalues := idsConfig_of_mem (mem_remember ids v)
  refine ⟨store.put node name (.array ((remember ids v).map .string)), ?_, ?_⟩
  · rw [ConfigStore.appendDsId, if_pos hname, hconfig, appendedDsIds_idsConfig, hvalues]
    rfl
  · rw [store.config_put, if_pos rfl, hvalues]

/-- Every run goes through, and its config is what the handlers make of the ids. -/
theorem config_foldlM (hname : startsWith name [dollar] = true)
    (habsent : store.config node name = none) (ids : List Str) :
    ∃ node', ids.foldlM (store.appendDsId name) node = some node' ∧
      store.config node' name = idsConfig (ids.foldl remember []) := by
  induction ids using List.reverseRecOn with
  | nil => exact ⟨node, rfl, habsent⟩
  | append_singleton ids v ih =>
    obtain ⟨node₁, hrun, hconfig⟩ := ih
    obtain ⟨node₂, hstep, hconfig'⟩ := appendDsId_of_idsConfig hname hconfig v
    refine ⟨node₂, ?_, ?_⟩
    · rw [List.foldlM_append, hrun]
      simp only [Option.bind_eq_bind, Option.bind_some, List.foldlM_cons, hstep, List.foldlM_nil]
      rfl
    · rw [List.foldl_append]
      exact hconfig'

theorem remembersIds_of_comesAlone (hname : startsWith name [dollar] = true)
    (habsent : store.config node name = none) {ids : List Str} (h : ComesAlone ids) :
    RemembersIds store name node ids := by
  constructor
  · obtain ⟨node', hrun, hconfig⟩ := config_foldlM hname habsent ids
    have hids := remembered_of_comesAlone h
    have hstored : storedIds (store.config node' name) = (ids.foldl remember []).map .string := by
      rw [hconfig, storedIds_idsConfig]
    refine ⟨node', hrun, ?_, ?_, ?_, ?_⟩
    · intro hne
      obtain ⟨v, hv⟩ := List.exists_mem_of_ne_nil ids hne
      exact ⟨_, hconfig.trans (idsConfig_of_mem ((hids.mem v).mpr hv))⟩
    · intro v hv
      rw [hstored, List.count_map_of_injective _ _ fun _ _ => DSAVal.string.inj]
      exact List.count_eq_one_of_mem hids.nodup ((hids.mem v).mpr hv)
    · intro id hid
      rw [hstored] at hid
      obtain ⟨v, hv, rfl⟩ := List.mem_map.mp hid
      exact ⟨v, (hids.mem v).mp hv, rfl⟩
    · intro v hv
      rw [removedClients, hstored, List.filterMap_map]
      apply List.mem_map_of_mem
      exact List.mem_filterMap.mpr ⟨v, (hids.mem v).mpr hv, rfl⟩
  · rintro before v after node₁ node₂ rfl hrun hstored hstep
    obtain ⟨node₁', hrun', hconfig⟩ := config_foldlM hname habsent before
    obtain rfl := Option.some.inj (hrun'.symm.trans hrun)
    obtain ⟨node₂', hstep', hconfig'⟩ := appendDsId_of_idsConfig hname hconfig v
    obtain rfl := Option.some.inj (hstep'.symm.trans hstep)
    have hbefore := remembered_of_comesAlone h.of_append
    rw [hconfig, storedIds_idsConfig] at hstored
    obtain ⟨_, hmem, ⟨⟩⟩ := List.mem_map.mp hstored
    have halone := h before v after rfl ((hbefore.mem v).mp hmem)
    rw [hconfig', hconfig, remember_of_mem hmem, hbefore.eq_singleton hmem halone]

theorem comesAlone_of_remembersIds (hname : startsWith name [dollar] = true)
    (habsent : store.config node name = none) {ids : List Str}
    (h : RemembersIds store name node ids) : ComesAlone ids := by
  -- the prefixes of the run, from the shortest one on
  have hprefix : ∀ before, before <+: ids → ComesAlone before := by
    intro before
    induction before using List.reverseRecOn with
    | nil => exact fun _ => comesAlone_nil
    | append_singleton before v ih =>
      rintro ⟨after, rfl⟩
      have hbefore := ih ⟨v :: after, by simp⟩
      refine comesAlone_concat.mpr ⟨hbefore, ?_⟩
      intro hv
      have hremembered := remembered_of_comesAlone hbefore
      have hmem := (hremembered.mem v).mpr hv
      obtain ⟨node₁, hrun, hconfig⟩ := config_foldlM hname habsent before
      obtain ⟨node₂, hstep, hconfig'⟩ := appendDsId_of_idsConfig hname hconfig v
      have hstored : .string v ∈ storedIds (store.config node₁ name) := by
        rw [hconfig, storedIds_idsConfig]
        exact List.mem_map_of_mem hmem
      have hsame := h.unchanged before v after node₁ node₂ (by simp) hrun hstored hstep
      have hids := congrArg storedIds hsame
      rw [hconfig', hconfig, storedIds_idsConfig, storedIds_idsConfig, remember_of_mem hmem] at hids
      have hsingle := List.map_injective_iff.mpr (fun _ _ => DSAVal.string.inj) hids
      intro w hw
      exact List.mem_singleton.mp (hsingle ▸ (hremembered.mem w).mpr hw)
  exact hprefix ids (List.prefix_refl ids)

end

/-- **A token remembers its links** if and only if an id comes again only when no other has come
before it, and so does it in both kinds of nodes. -/
theorem remembers_iff {name : Str} (hname : startsWith name [dollar] = true) (ids : List Str) :
    (∀ n : InMemoryDSANode, n.configs.get name = none →
      (RemembersIds inMemoryConfigs name n ids ↔ ComesAlone ids)) ∧
    ∀ node : SettledNode, node.data.configs name = none →
      (RemembersIds distributedConfigs name node ids ↔ ComesAlone ids) := by
  constructor
  · exact fun n habsent =>
      ⟨comesAlone_of_remembersIds hname habsent, remembersIds_of_comesAlone hname habsent⟩
  · exact fun node habsent =>
      ⟨comesAlone_of_remembersIds hname habsent, remembersIds_of_comesAlone hname habsent⟩

def dsLinkIds : Str := str "$dsLinkIds"

def meterId : Str := str "meter"

def lampId : Str := str "lamp"

/-- A replicated token node that no link has connected to. -/
def replicatedToken : SettledNode where
  state := valuedState (.boolean true) fun _ => none
  data := (valuedState (.boolean true) fun _ => none).applyTo
    (DistributedDSANode.initialData dataDescription (.boolean true) (str "data"))
  settled := DistributedDSANodeState.applyTo_applyTo (fun _ h => h) _

/-- A link connects twice before another one does, to a node of either kind. -/
theorem remembers_iff_meter :
    RemembersIds inMemoryConfigs dsLinkIds .initial [meterId, meterId, lampId] ∧
      RemembersIds distributedConfigs dsLinkIds replicatedToken [meterId, meterId, lampId] := by
  have hfirst : ComesAlone ([] ++ [meterId]) := comesAlone_concat.mpr ⟨comesAlone_nil, by decide⟩
  have hagain : ComesAlone ([meterId] ++ [meterId]) := comesAlone_concat.mpr ⟨hfirst, by decide⟩
  have hlamp : ComesAlone ([meterId, meterId] ++ [lampId]) :=
    comesAlone_concat.mpr ⟨hagain, by decide⟩
  constructor
  · exact ((remembers_iff (by decide) _).1 .initial rfl).mpr hlamp
  · exact ((remembers_iff (by decide) _).2 replicatedToken (by decide)).mpr hlamp

/-- A link connects again after another one, which is forgotten. -/
theorem lamp_forgotten :
    ¬ RemembersIds inMemoryConfigs dsLinkIds .initial [meterId, lampId, meterId] := by
  rintro ⟨⟨node', hrun, _, hcount, _⟩, _⟩
  obtain rfl := Option.some.inj hrun
  have hlamp := hcount lampId (by decide)
  revert hlamp
  decide +kernel

end DsaBroker
