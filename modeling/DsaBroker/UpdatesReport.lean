import DsaBroker.ReplicaView

/-!
# What a LIST is told about a new state

`updatesReport` makes rows of the difference between the data of a node and a replicated state:
one for each created and each updated entry, and a removal row for each deleted key.  For the
rows the maps of the state are needed with their keys, in whatever order they are scanned
(`DistributedDSANodeEntries`); what is looked up in them is the state of `DistributedDSANode`.
Entries are compared by their contents.

A deleted key is one with a tombstone in the state, whether the node still had it or not.  So the
report is exact for just those states whose tombstones are all news (`reportsChanges_iff`), and a
state that has been applied already is told as the removal of everything that was ever removed
(`updatesReport_again`).
-/

namespace DsaBroker

/-- A replicated state whose maps are given with their keys. -/
structure DistributedDSANodeEntries where
  value : Option DSAVal
  configs : ScanMap Str (Option DSAVal)
  attributes : ScanMap Str (Option DSAVal)
  subscriptions : ScanMap Int (Option ActorRef)
  listSubscriptions : ScanMap Int (Option ActorRef)
  children : ScanMap Str (Option DSANodeDescription)

/-- What is looked up in the state. -/
def DistributedDSANodeEntries.state (s : DistributedDSANodeEntries) : DistributedDSANodeState where
  value := s.value
  configs := s.configs.get
  attributes := s.attributes.get
  subscriptions := s.subscriptions.get
  listSubscriptions := s.listSubscriptions.get
  children := s.children.get

/-- A `DiffSet` whose maps are given with their keys. -/
structure DiffEntries (κ ν : Type) where
  created : ScanMap κ ν
  updated : ScanMap κ ν
  deleted : ScanMap κ Unit

/-- What is looked up in the difference. -/
def DiffEntries.diffSet {κ ν : Type} (diff : DiffEntries κ ν) : DiffSet κ ν where
  created := diff.created.get
  updated := diff.updated.get
  deleted k := (diff.deleted.get k).isSome

namespace DistributedDSANode

/-! ### The report -/

section

variable {κ ν : Type} [DecidableEq ν]

def collectDiffEntries (newValues : ScanMap κ (Option ν)) (oldValues : κ → Option ν) :
    DiffEntries κ ν where
  created := newValues.select fun k entry => entry.filter fun _ => (oldValues k).isNone
  updated := newValues.select fun k entry =>
    entry.filter fun v => (oldValues k).any fun old => old ≠ v
  deleted := newValues.select fun _ entry => if entry.isNone then some () else none

theorem diffSet_collectDiffEntries (newValues : ScanMap κ (Option ν)) (oldValues : κ → Option ν) :
    (collectDiffEntries newValues oldValues).diffSet = collectDiffSet newValues.get oldValues := by
  simp only [DiffEntries.diffSet, collectDiffEntries, collectDiffSet, DiffSet.mk.injEq]
  refine ⟨?_, ?_, ?_⟩
  · funext k
    rw [ScanMap.get_select]
    cases newValues.get k <;> rfl
  · funext k
    rw [ScanMap.get_select]
    cases newValues.get k <;> rfl
  · funext k
    rw [ScanMap.get_select]
    cases newValues.get k with
    | none => rfl
    | some entry => cases entry <;> rfl

end

def toDeleteReport (key : Str) : DSAVal := InMemoryDSANode.removedRow key

def dsValMapper (entry : Str × DSAVal) : DSAVal := .array [.string entry.1, entry.2]

def dSANodeDescriptionMapper (entry : Str × DSANodeDescription) : DSAVal :=
  .array [.string entry.1, .map entry.2.attrAndConf]

section

variable [ScanOrder Str]

def collectReport {ν : Type} (diff : DiffEntries Str ν) (mapper : Str × ν → DSAVal) :
    List DSAVal :=
  diff.created.entries.map mapper ++ diff.updated.entries.map mapper ++
    diff.deleted.entries.map fun entry => toDeleteReport entry.1

/-- The report about the difference between a state and the data of the node. -/
def updatesReport (s : DistributedDSANodeEntries) (data : DistributedDSANodeData) : List DSAVal :=
  collectReport (collectDiffEntries s.configs data.configs) dsValMapper ++
    collectReport (collectDiffEntries s.attributes data.attributes) dsValMapper ++
    collectReport (collectDiffEntries s.children data.children) dSANodeDescriptionMapper

end

/-! ### What it should say -/

/-- The name that a row is about. -/
def rowName : DSAVal → Option Str
  | .array (name :: _) => name.string?
  | .map row => (DSAMap.get row (str "name")).bind DSAVal.string?
  | _ => none

/-- The rows about a name. -/
def rowsAbout (k : Str) (report : List DSAVal) : List DSAVal :=
  report.filter fun row => rowName row = some k

/-- The row for an entry that was `old` and is `new`. -/
def changeRows {ν : Type} [DecidableEq ν] (mapper : Str × ν → DSAVal) (k : Str)
    (old new : Option ν) : List DSAVal :=
  if old = new then [] else [new.elim (toDeleteReport k) fun v => mapper (k, v)]

/-- Every row is about a name, and about every name there are the rows of its changed entries. -/
def ReportsChanges [ScanOrder Str] (s : DistributedDSANodeEntries)
    (data : DistributedDSANodeData) : Prop :=
  let new := newDataFromDiff data (collectDiff s.state data)
  (∀ row ∈ updatesReport s data, ∃ k, rowName row = some k) ∧
    ∀ k, rowsAbout k (updatesReport s data) =
      changeRows dsValMapper k (data.configs k) (new.configs k) ++
      changeRows dsValMapper k (data.attributes k) (new.attributes k) ++
      changeRows dSANodeDescriptionMapper k (data.children k) (new.children k)

/-! ### What it says -/

theorem rowName_toDeleteReport (key : Str) : rowName (toDeleteReport key) = some key := rfl

theorem rowName_dsValMapper (k : Str) (v : DSAVal) : rowName (dsValMapper (k, v)) = some k := rfl

theorem rowName_dSANodeDescriptionMapper (k : Str) (v : DSANodeDescription) :
    rowName (dSANodeDescriptionMapper (k, v)) = some k := rfl

theorem rowsAbout_append (k : Str) (report report' : List DSAVal) :
    rowsAbout k (report ++ report') = rowsAbout k report ++ rowsAbout k report' :=
  List.filter_append report report'

/-- Of lists that are together as long as shorter ones, none is longer. -/
theorem length_le_of_append_eq {α : Type} {a b c a' b' c' : List α}
    (h : a ++ b ++ c = a' ++ b' ++ c') (ha : a'.length ≤ a.length) (hb : b'.length ≤ b.length)
    (hc : c'.length ≤ c.length) :
    a.length ≤ a'.length ∧ b.length ≤ b'.length ∧ c.length ≤ c'.length := by
  have hlength := congrArg List.length h
  simp only [List.length_append] at hlength
  omega

/-- The expected rows of a removal: one if there was something to remove. -/
theorem changeRows_removed {ν : Type} [DecidableEq ν] {newValues : Patch Str ν} {k : Str}
    (hnew : newValues k = some none) (mapper : Str × ν → DSAVal) (old : Str → Option ν) :
    changeRows mapper k (old k) (foldDiff old (collectDiffSet newValues old) k) =
      if (old k).isSome = true then [toDeleteReport k] else [] := by
  rw [foldDiff_eq, (collectDiffSet_isDiff newValues old).apply, Patch.apply_some hnew]
  cases old k <;> simp [changeRows]

section

variable [ScanOrder Str]

/-- The rows about a name that are made of the entries of a map. -/
theorem rowsAbout_entries {μ : Type} {m : ScanMap Str μ} {row : Str × μ → DSAVal}
    (hrow : ∀ j v, rowName (row (j, v)) = some j) (k : Str) :
    rowsAbout k (m.entries.map row) = ((m.get k).map fun v => row (k, v)).toList := by
  let about := Option.guard fun row => decide (rowName row = some k)
  have hother : ∀ j v, j ≠ k → about (row (j, v)) = none := by
    intro j v hj
    rw [Option.guard_eq_none_iff, hrow, decide_eq_false_iff_not]
    exact fun h => hj (Option.some.inj h)
  have hself : ∀ v, about (row (k, v)) = some (row (k, v)) := by
    intro v
    rw [Option.guard_eq_some_iff, hrow]
    exact ⟨rfl, decide_eq_true rfl⟩
  calc rowsAbout k (m.entries.map row)
      = (m.entries.map row).filterMap about := by rw [List.filterMap_eq_filter, rowsAbout]
    _ = m.entries.filterMap (about ∘ row) := List.filterMap_map
    _ = ((m.get k).bind fun v => about (row (k, v))).toList :=
        ScanMap.filterMap_entries m k _ hother
    _ = ((m.get k).map fun v => row (k, v)).toList := by
        simp only [hself]
        cases m.get k <;> rfl

variable {ν : Type} {mapper : Str × ν → DSAVal}

theorem rowsAbout_collectReport (diff : DiffEntries Str ν)
    (hmapper : ∀ j v, rowName (mapper (j, v)) = some j) (k : Str) :
    rowsAbout k (collectReport diff mapper) =
      ((diff.created.get k).map fun v => mapper (k, v)).toList ++
        ((diff.updated.get k).map fun v => mapper (k, v)).toList ++
        ((diff.deleted.get k).map fun _ => toDeleteReport k).toList := by
  rw [collectReport, rowsAbout_append, rowsAbout_append, rowsAbout_entries hmapper,
    rowsAbout_entries hmapper, rowsAbout_entries fun j _ => rowName_toDeleteReport j]

theorem exists_rowName (hmapper : ∀ j v, rowName (mapper (j, v)) = some j)
    (diff : DiffEntries Str ν) {row : DSAVal} (hrow : row ∈ collectReport diff mapper) :
    ∃ k, rowName row = some k := by
  rw [collectReport, List.mem_append, List.mem_append, List.mem_map, List.mem_map,
    List.mem_map] at hrow
  rcases hrow with (⟨⟨k, v⟩, _, rfl⟩ | ⟨⟨k, v⟩, _, rfl⟩) | ⟨⟨k, v⟩, _, rfl⟩
  · exact ⟨k, hmapper k v⟩
  · exact ⟨k, hmapper k v⟩
  · exact ⟨k, rowName_toDeleteReport k⟩

variable [DecidableEq ν] (newValues : ScanMap Str (Option ν)) (old : Str → Option ν)

/-- A name with a tombstone is told as removed, and any other name as it should be. -/
theorem rowsAbout_diff (hmapper : ∀ j v, rowName (mapper (j, v)) = some j) (k : Str) :
    rowsAbout k (collectReport (collectDiffEntries newValues old) mapper) =
      if newValues.get k = some none then [toDeleteReport k]
      else changeRows mapper k (old k) (foldDiff old (collectDiffSet newValues.get old) k) := by
  rw [rowsAbout_collectReport _ hmapper, foldDiff_eq,
    (collectDiffSet_isDiff newValues.get old).apply]
  rcases hnew : newValues.get k with _ | entry | v
  · rw [Patch.apply_none hnew]
    simp [collectDiffEntries, changeRows, hnew]
  · simp [collectDiffEntries, hnew]
  · rw [Patch.apply_some hnew]
    rcases hold : old k with _ | was
    · simp [collectDiffEntries, changeRows, hnew, hold]
    · by_cases hsame : was = v <;> simp [collectDiffEntries, changeRows, hnew, hold, hsame]

/-- There are the expected rows and no others if no tombstone is old news. -/
theorem rowsAbout_diff_eq (hmapper : ∀ j v, rowName (mapper (j, v)) = some j) {k : Str}
    (hnews : newValues.get k = some none → (old k).isSome = true) :
    rowsAbout k (collectReport (collectDiffEntries newValues old) mapper) =
      changeRows mapper k (old k) (foldDiff old (collectDiffSet newValues.get old) k) := by
  rw [rowsAbout_diff newValues old hmapper]
  split
  case isTrue hnew => rw [changeRows_removed hnew, if_pos (hnews hnew)]
  case isFalse => rfl

/-- What has been applied is told again if it was a removal. -/
theorem rowsAbout_diff_again (hmapper : ∀ j v, rowName (mapper (j, v)) = some j) (k : Str) :
    rowsAbout k (collectReport (collectDiffEntries newValues
      (foldDiff old (collectDiffSet newValues.get old))) mapper) =
      if newValues.get k = some none then [toDeleteReport k] else [] := by
  rw [rowsAbout_diff newValues _ hmapper]
  split
  case isTrue => rfl
  case isFalse =>
    rw [changeRows, if_pos]
    simp only [foldDiff_eq, (collectDiffSet_isDiff _ _).apply]
    exact congrFun (Patch.apply_apply (fun _ hk => hk) old).symm k

theorem length_changeRows_le (hmapper : ∀ j v, rowName (mapper (j, v)) = some j) (k : Str) :
    (changeRows mapper k (old k) (foldDiff old (collectDiffSet newValues.get old) k)).length ≤
      (rowsAbout k (collectReport (collectDiffEntries newValues old) mapper)).length := by
  rw [rowsAbout_diff newValues old hmapper]
  split
  case isTrue hnew =>
    rw [changeRows_removed hnew]
    split
    · exact Nat.le_refl _
    · exact Nat.zero_le _
  case isFalse => exact Nat.le_refl _

/-- If there are not more rows than expected, no tombstone is old news. -/
theorem isSome_of_length_le (hmapper : ∀ j v, rowName (mapper (j, v)) = some j) {k : Str}
    (h : (rowsAbout k (collectReport (collectDiffEntries newValues old) mapper)).length ≤
      (changeRows mapper k (old k) (foldDiff old (collectDiffSet newValues.get old) k)).length)
    (hnew : newValues.get k = some none) : (old k).isSome = true := by
  rw [rowsAbout_diff newValues old hmapper, if_pos hnew, changeRows_removed hnew] at h
  by_contra hold
  rw [if_neg hold] at h
  exact Nat.not_succ_le_zero 0 h

end

/-! ### When it says what it should -/

/-- Every tombstone removes an entry that the node has. -/
structure RemovesPresent (s : DistributedDSANodeEntries) (data : DistributedDSANodeData) :
    Prop where
  configs : ∀ k, s.configs.get k = some none → (data.configs k).isSome = true
  attributes : ∀ k, s.attributes.get k = some none → (data.attributes k).isSome = true
  children : ∀ k, s.children.get k = some none → (data.children k).isSome = true

section

variable [ScanOrder Str] {s : DistributedDSANodeEntries} {data : DistributedDSANodeData}

theorem rowsAbout_updatesReport (k : Str) :
    rowsAbout k (updatesReport s data) =
      rowsAbout k (collectReport (collectDiffEntries s.configs data.configs) dsValMapper) ++
      rowsAbout k (collectReport (collectDiffEntries s.attributes data.attributes) dsValMapper) ++
      rowsAbout k (collectReport (collectDiffEntries s.children data.children)
        dSANodeDescriptionMapper) := by
  rw [updatesReport, rowsAbout_append, rowsAbout_append]

/-- The report is about just what has changed, if and only if no tombstone of the state is about
an entry that the node does not have. -/
theorem reportsChanges_iff (s : DistributedDSANodeEntries) (data : DistributedDSANodeData) :
    ReportsChanges s data ↔ RemovesPresent s data := by
  constructor
  · rintro ⟨_, hrows⟩
    have hle : ∀ k, _ := fun k =>
      length_le_of_append_eq ((rowsAbout_updatesReport k).symm.trans (hrows k))
        (length_changeRows_le s.configs data.configs rowName_dsValMapper k)
        (length_changeRows_le s.attributes data.attributes rowName_dsValMapper k)
        (length_changeRows_le s.children data.children rowName_dSANodeDescriptionMapper k)
    constructor
    · exact fun k =>
        isSome_of_length_le s.configs data.configs rowName_dsValMapper (hle k).1
    · exact fun k =>
        isSome_of_length_le s.attributes data.attributes rowName_dsValMapper (hle k).2.1
    · exact fun k =>
        isSome_of_length_le s.children data.children rowName_dSANodeDescriptionMapper (hle k).2.2
  · intro h
    constructor
    · intro row hrow
      rw [updatesReport, List.mem_append, List.mem_append] at hrow
      rcases hrow with (hconfig | hattr) | hchild
      · exact exists_rowName rowName_dsValMapper _ hconfig
      · exact exists_rowName rowName_dsValMapper _ hattr
      · exact exists_rowName rowName_dSANodeDescriptionMapper _ hchild
    · intro k
      rw [rowsAbout_updatesReport, rowsAbout_diff_eq _ _ rowName_dsValMapper (h.configs k),
        rowsAbout_diff_eq _ _ rowName_dsValMapper (h.attributes k),
        rowsAbout_diff_eq _ _ rowName_dSANodeDescriptionMapper (h.children k)]
      rfl

/-- The rows about a state that comes in again are removals of all that it has removed. -/
theorem updatesReport_again (s : DistributedDSANodeEntries) (data : DistributedDSANodeData)
    (k : Str) :
    rowsAbout k (updatesReport s (newDataFromDiff data (collectDiff s.state data))) =
      (if s.configs.get k = some none then [toDeleteReport k] else []) ++
      (if s.attributes.get k = some none then [toDeleteReport k] else []) ++
      (if s.children.get k = some none then [toDeleteReport k] else []) := by
  rw [rowsAbout_updatesReport]
  have hconfigs := rowsAbout_diff_again s.configs data.configs rowName_dsValMapper k
  have hattributes := rowsAbout_diff_again s.attributes data.attributes rowName_dsValMapper k
  have hchildren :=
    rowsAbout_diff_again s.children data.children rowName_dSANodeDescriptionMapper k
  exact congrArg₂ _ (congrArg₂ _ hconfigs hattributes) hchildren

end

/-! ### A tombstone that is told again -/

def goneConfig : Str := str "$gone"

/-- A state with nothing but the tombstone of a config. -/
def goneEntries : DistributedDSANodeEntries where
  value := none
  configs := ScanMap.empty.put goneConfig none
  attributes := .empty
  subscriptions := .empty
  listSubscriptions := .empty
  children := .empty

def goneData : DistributedDSANodeData :=
  initialData ⟨str "/data/a", [(goneConfig, .boolean true)], .null⟩ .null (str "a")

/-- The node has removed the config, and is told the same state again. -/
theorem removal_told_again : ¬ ∀ s data, ReportsChanges s data := by
  intro h
  have hrows := (h goneEntries
    (newDataFromDiff goneData (collectDiff goneEntries.state goneData))).2 goneConfig
  revert hrows
  decide

end DistributedDSANode

end DsaBroker
