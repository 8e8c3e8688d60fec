import DsaBroker.ReplicaView

/-!
# What the states make of a map

`collectDiffSet` splits a replicated map into what is created, updated and deleted, and
`foldDiff` puts the parts together again.  Over the old map they lay the new values on top of it:
an entry is set, a tombstone removes, and a key that is not mentioned keeps what it had.  As a
tombstone stays in the state, the keys of the states only become more, and what is seen in the
end depends on the last state alone, not on those that came before it.
-/

namespace DsaBroker

/-- No key disappears of an entry that is replicated: configs, attributes and children may change
their values and get more. -/
structure DistributedDSANodeState.Grows (state later : DistributedDSANodeState) : Prop where
  configs : state.configs.Grows later.configs
  attributes : state.attributes.Grows later.attributes
  children : state.children.Grows later.children

namespace DistributedDSANode

section

variable {κ ν : Type} [DecidableEq ν]

theorem foldDiff_collectDiffSet (newValues : Patch κ ν) (old : κ → Option ν) :
    foldDiff old (collectDiffSet newValues old) = newValues.apply old := by
  rw [foldDiff_eq]
  exact (collectDiffSet_isDiff newValues old).apply

/-- The states come in one at a time. -/
def foldDiffs (old : κ → Option ν) (states : List (Patch κ ν)) : κ → Option ν :=
  states.foldl (fun old newValues => foldDiff old (collectDiffSet newValues old)) old

theorem foldDiffs_growing {states : List (Patch κ ν)} {last : Patch κ ν}
    (h : (states ++ [last]).Pairwise Patch.Grows) (old : κ → Option ν) :
    foldDiffs old (states ++ [last]) = last.apply old := by
  have hlast : ∀ p ∈ states, p.Grows last := fun p hp =>
    (List.pairwise_append.mp h).2.2 p hp last (List.mem_singleton.mpr rfl)
  rw [foldDiffs, funext fun old => funext fun p => foldDiff_collectDiffSet p old]
  exact Patch.foldl_apply_last hlast old

end

/-! ### Replicas -/

/-- The states come in one at a time, each after the callback of the one before. -/
def replicaData (data : DistributedDSANodeData) (states : List DistributedDSANodeState) :
    DistributedDSANodeData :=
  states.foldl (fun data state => newDataFromDiff data (collectDiff state data)) data

section

variable (data : DistributedDSANodeData) (states : List DistributedDSANodeState)

theorem replicaData_configs : (replicaData data states).configs =
    foldDiffs data.configs (states.map DistributedDSANodeState.configs) := by
  induction states generalizing data with
  | nil => rfl
  | cons state rest ih => exact ih _

theorem replicaData_attributes : (replicaData data states).attributes =
    foldDiffs data.attributes (states.map DistributedDSANodeState.attributes) := by
  induction states generalizing data with
  | nil => rfl
  | cons state rest ih => exact ih _

theorem replicaData_children : (replicaData data states).children =
    foldDiffs data.children (states.map DistributedDSANodeState.children) := by
  induction states generalizing data with
  | nil => rfl
  | cons state rest ih => exact ih _

end

/-- A replica shows its last state over its description, whatever it has seen before. -/
theorem replicaData_last {states : List DistributedDSANodeState} {last : DistributedDSANodeState}
    (h : (states ++ [last]).Pairwise DistributedDSANodeState.Grows)
    (data : DistributedDSANodeData) :
    (replicaData data (states ++ [last])).configs = last.configs.apply data.configs ∧
      (replicaData data (states ++ [last])).attributes = last.attributes.apply data.attributes ∧
      (replicaData data (states ++ [last])).children = last.children.apply data.children := by
  have hconfigs := List.pairwise_map.mpr (h.imp fun hgrows => hgrows.configs)
  have hattributes := List.pairwise_map.mpr (h.imp fun hgrows => hgrows.attributes)
  have hchildren := List.pairwise_map.mpr (h.imp fun hgrows => hgrows.children)
  rw [List.map_append] at hconfigs hattributes hchildren
  refine ⟨?_, ?_, ?_⟩
  · rw [replicaData_configs, List.map_append]
    exact foldDiffs_growing hconfigs data.configs
  · rw [replicaData_attributes, List.map_append]
    exact foldDiffs_growing hattributes data.attributes
  · rw [replicaData_children, List.map_append]
    exact foldDiffs_growing hchildren data.children

/-- The diff of a map lays the new values over the old ones.  What remains of growing states is
the last of them, and replicas of one node that end with the same state show the same. -/
theorem diff_fold_overlays {κ ν : Type} [DecidableEq ν] :
    (∀ (old : κ → Option ν) (newValues : Patch κ ν) (k : κ),
      (∀ v, newValues k = some (some v) →
        foldDiff old (collectDiffSet newValues old) k = some v) ∧
      (newValues k = some none → foldDiff old (collectDiffSet newValues old) k = none) ∧
      (newValues k = none → foldDiff old (collectDiffSet newValues old) k = old k)) ∧
    (∀ (old : κ → Option ν) (states : List (Patch κ ν)) (last : Patch κ ν),
      (states ++ [last]).Pairwise Patch.Grows →
      foldDiffs old (states ++ [last]) = foldDiff old (collectDiffSet last old)) ∧
    ∀ (nodeDescription : DSANodeDescription) (value value' : DSAVal) (name : Str)
      (states states' : List DistributedDSANodeState) (last : DistributedDSANodeState),
      (states ++ [last]).Pairwise DistributedDSANodeState.Grows →
      (states' ++ [last]).Pairwise DistributedDSANodeState.Grows →
      let replica := replicaData (initialData nodeDescription value name) (states ++ [last])
      let replica' := replicaData (initialData nodeDescription value' name) (states' ++ [last])
      replica.configs = replica'.configs ∧ replica.attributes = replica'.attributes ∧
        replica.children = replica'.children := by
  refine ⟨?_, ?_, ?_⟩
  · intro old newValues k
    rw [foldDiff_collectDiffSet]
    refine ⟨?_, ?_, ?_⟩
    · exact fun v h => Patch.apply_some h old
    · exact fun h => Patch.apply_some h old
    · exact fun h => Patch.apply_none h old
  · intro old states last hgrows
    rw [foldDiffs_growing hgrows, foldDiff_collectDiffSet]
  · intro nodeDescription value value' name states states' last hgrows hgrows'
    obtain ⟨hconfigs, hattributes, hchildren⟩ :=
      replicaData_last hgrows (initialData nodeDescription value name)
    obtain ⟨hconfigs', hattributes', hchildren'⟩ :=
      replicaData_last hgrows' (initialData nodeDescription value' name)
    exact ⟨hconfigs.trans hconfigs'.symm, hattributes.trans hattributes'.symm,
      hchildren.trans hchildren'.symm⟩

/-- Of three old entries one is set and one removed.  A replica that has seen one config before
both come shows what a replica shows that has seen only both. -/
theorem diff_fold_overlays_three :
    let old : Nat → Option Nat := fun k => if k < 3 then some k else none
    let first : Patch Nat Nat := fun k => if k = 0 then some (some 5) else none
    let last : Patch Nat Nat := fun k =>
      if k = 0 then some (some 7) else if k = 1 then some none else none
    (foldDiff old (collectDiffSet last old) 0 = some 7 ∧
        foldDiff old (collectDiffSet last old) 1 = none ∧
        foldDiff old (collectDiffSet last old) 2 = some 2) ∧
      foldDiffs old [first, last] = foldDiff old (collectDiffSet last old) ∧
      (let seen := valuedState (.boolean true) (configsNamed [configA])
      let both := valuedState (.boolean true) (configsNamed [configA, configB])
      let data := initialData dataDescription (.boolean true) (str "data")
      (replicaData data [seen, both]).configs = (replicaData data [both]).configs ∧
        (replicaData data [seen, both]).attributes = (replicaData data [both]).attributes ∧
        (replicaData data [seen, both]).children = (replicaData data [both]).children) := by
  intro old first last
  obtain ⟨hoverlay, hgrowing, -⟩ := @diff_fold_overlays Nat Nat _
  refine ⟨⟨?_, ?_, ?_⟩, ?_, ?_⟩
  · exact (hoverlay old last 0).1 7 rfl
  · exact (hoverlay old last 1).2.1 rfl
  · exact (hoverlay old last 2).2.2 rfl
  · have hgrows : first.Grows last := by
      intro k hk
      by_cases hzero : k = 0
      · rw [hzero]
        rfl
      · simp only [first, if_neg hzero] at hk
        cases hk
    exact hgrowing old [first] last (List.pairwise_pair.mpr hgrows)
  · intro seen both data
    have hgrows : seen.Grows both := by
      refine ⟨?_, fun _ h => h, fun _ h => h⟩
      intro name hname
      simp only [seen, both, valuedState, configsNamed] at hname ⊢
      split at hname
      case isTrue hfound =>
        rw [if_pos]
        · rfl
        · simp only [List.any_cons, List.any_nil, Bool.or_false] at hfound ⊢
          rw [hfound, Bool.true_or]
      case isFalse => cases hname
    exact (@diff_fold_overlays Nat Nat _).2.2 dataDescription (.boolean true) (.boolean true)
      (str "data") [seen] [] both (List.pairwise_pair.mpr hgrows) (List.pairwise_singleton _ _)

end DistributedDSANode

end DsaBroker
