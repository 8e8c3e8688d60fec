import DsaBroker.Registries
import DsaBroker.Runs
import Mathlib.Algebra.Order.BigOperators.Group.List
import Mathlib.Algebra.Order.Ring.Int

/-!
# Target ids over incarnations of a registry

A registry issues a target id, saves a record under it, and after a restart is rebuilt from
its last snapshot and the events journaled since.  The RID and the SID registry do this in
the same way, so the run is defined once, over an `IdRegistry`: the operations the two
registries share and the laws that relate them to the counter.

The ids in use stay below the counter as long as the counter does not wrap.  It wraps after
`Int.MaxValue`, and recovery brings it there soon: replay advances the counter *by* each
restored id, where one past the id would do, so the counter doubles with every generation.
-/

namespace DsaBroker

/-- A registry of target ids with its events. -/
structure IdRegistry (ρ ε : Type) where
  fresh : ρ
  nextTgtId : ρ → Int × ρ
  handle : ρ → ε → Option ρ
  restore : ρ → ε → Option ρ
  counter : ρ → IntCounter
  isKey : ρ → Int → Bool
  /-- the id that a save event is for -/
  savedId : ε → Option Int
  counter_fresh : counter fresh = freshCounter
  isKey_fresh : ∀ t, isKey fresh t = false
  nextTgtId_fst : ∀ r, (nextTgtId r).1 = (counter r).value
  counter_nextTgtId : ∀ r, counter (nextTgtId r).2 = (counter r).inc.2
  isKey_nextTgtId : ∀ r t, isKey (nextTgtId r).2 t = isKey r t
  counter_handle : ∀ r e r', handle r e = some r' → counter r' = counter r
  isKey_handle : ∀ r e r', handle r e = some r' →
    ∀ t, isKey r' t = true → isKey r t = true ∨ savedId e = some t
  counter_restore : ∀ r e r', restore r e = some r' → counter r' =
    match savedId e with
    | some t => ((counter r).incBy t).2
    | none => counter r
  isKey_restore : ∀ r e r', restore r e = some r' →
    ∀ t, isKey r' t = true → isKey r t = true ∨ savedId e = some t

/-! ### The two registries -/

/-- The id of a saved RID record. -/
def LookupRidRestoreProcess.savedId : LookupRidRestoreProcess → Option Int
  | .saved _ _ _ tgtId => some tgtId
  | .removed _ => none

theorem RidRegistry.isKey_handle {r : RidRegistry} {event : LookupRidRestoreProcess} {t : Int}
    (h : ((r.handle event).callsByTargetId t).isSome = true) :
    (r.callsByTargetId t).isSome = true ∨ event.savedId = some t := by
  cases event with
  | saved method origin path tgtId =>
    by_cases ht : t = tgtId
    · right
      simp only [LookupRidRestoreProcess.savedId, ht]
    · left
      simpa only [RidRegistry.handle, RidRegistry.callsByTargetId_addLookup, ht, if_false] using h
  | removed record =>
    left
    simp only [RidRegistry.handle, RidRegistry.callsByTargetId_internalRemoveLookup] at h
    split at h
    · cases h
    · exact h

def ridIds : IdRegistry RidRegistry LookupRidRestoreProcess where
  fresh := .fresh
  nextTgtId := RidRegistry.nextTgtId
  handle r e := some (r.handle e)
  restore r e := some (r.restoreRidRegistry e)
  counter r := r.nextTargetId
  isKey r t := (r.callsByTargetId t).isSome
  savedId := LookupRidRestoreProcess.savedId
  counter_fresh := rfl
  isKey_fresh _ := rfl
  nextTgtId_fst _ := rfl
  counter_nextTgtId _ := rfl
  isKey_nextTgtId _ _ := rfl
  counter_handle r e r' h := by
    cases h
    exact r.handle_nextTargetId e
  isKey_handle r e r' h t ht := by
    cases h
    exact RidRegistry.isKey_handle ht
  counter_restore r e r' h := by
    cases h
    cases e <;> rfl
  isKey_restore r e r' h t ht := by
    cases h
    obtain ⟨counter, hcounter⟩ := r.restoreRidRegistry_eq_handle e
    rw [hcounter] at ht
    exact RidRegistry.isKey_handle ht

/-- The id of a saved SID record. -/
def LookupSidRestoreProcess.savedId : LookupSidRestoreProcess → Option Int
  | .saved _ tgtId => some tgtId
  | .removed _ => none

theorem SidRegistry.isKey_addLookup {r : SidRegistry} {path : Str} {tgtId t : Int}
    (h : ((r.addLookup path tgtId).pathBySid t).isSome = true) :
    (r.pathBySid t).isSome = true ∨ t = tgtId := by
  rw [SidRegistry.pathBySid_addLookup] at h
  by_cases ht : t = tgtId
  · exact Or.inr ht
  · exact Or.inl (by simpa only [ht, if_false] using h)

theorem SidRegistry.isKey_internalRemoveLookup {r r' : SidRegistry} {tgtId t : Int}
    (hr : r.internalRemoveLookup tgtId = some r') (h : (r'.pathBySid t).isSome = true) :
    (r.pathBySid t).isSome = true := by
  obtain ⟨path, _, _, hpaths, _⟩ := SidRegistry.internalRemoveLookup_eq_some hr
  rw [hpaths] at h
  split at h
  · cases h
  · exact h

def sidIds : IdRegistry SidRegistry LookupSidRestoreProcess where
  fresh := .fresh
  nextTgtId := SidRegistry.nextTgtId
  handle := SidRegistry.handle
  restore := SidRegistry.restoreSidRegistry
  counter r := r.targetSids
  isKey r t := (r.pathBySid t).isSome
  savedId := LookupSidRestoreProcess.savedId
  counter_fresh := rfl
  isKey_fresh _ := rfl
  nextTgtId_fst _ := rfl
  counter_nextTgtId _ := rfl
  isKey_nextTgtId _ _ := rfl
  counter_handle r e r' h := by
    cases e with
    | saved path tgtId => cases h; rfl
    | removed tgtId =>
      obtain ⟨_, _, hcounter, _⟩ := SidRegistry.internalRemoveLookup_eq_some h
      exact hcounter
  isKey_handle r e r' h t ht := by
    cases e with
    | saved path tgtId =>
      cases h
      rcases SidRegistry.isKey_addLookup ht with hold | rfl
      · exact Or.inl hold
      · exact Or.inr rfl
    | removed tgtId => exact Or.inl (SidRegistry.isKey_internalRemoveLookup h ht)
  counter_restore r e r' h := by
    cases e with
    | saved path tgtId => cases h; rfl
    | removed tgtId =>
      obtain ⟨_, _, hcounter, _⟩ := SidRegistry.internalRemoveLookup_eq_some h
      exact hcounter
  isKey_restore r e r' h t ht := by
    cases e with
    | saved path tgtId =>
      cases h
      rcases SidRegistry.isKey_addLookup ht with hold | rfl
      · exact Or.inl hold
      · exact Or.inr rfl
    | removed tgtId => exact Or.inl (SidRegistry.isKey_internalRemoveLookup h ht)

/-! ### Runs over incarnations -/

/-- A registry with what is stored of it: its last snapshot and the events journaled since.
`issued` are the ids that `nextTgtId` has returned in this incarnation. -/
structure Incarnation (ρ ε : Type) where
  live : ρ
  issued : List Int
  snapshot : ρ
  journal : List ε

inductive RegistryStep (ε : Type) where
  | nextTgtId
  | persist (event : ε)
  | saveSnapshot
  | restart

namespace IdRegistry

variable {ρ ε : Type} (reg : IdRegistry ρ ε)

def start : Incarnation ρ ε := ⟨reg.fresh, [], reg.fresh, []⟩

/-- One step of a registry in use.  A record is saved only under an id that was issued
(every caller of `save…Lookup` passes what `nextTgtId` gave it); a restart rebuilds the
registry from the snapshot and the journal. -/
def step (s : Incarnation ρ ε) : RegistryStep ε → Option (Incarnation ρ ε)
  | .nextTgtId =>
      some { s with
        live := (reg.nextTgtId s.live).2
        issued := (reg.nextTgtId s.live).1 :: s.issued }
  | .persist event =>
      if (reg.savedId event).all (· ∈ s.issued) then
        (reg.handle s.live event).map fun live =>
          { s with live := live, journal := s.journal ++ [event] }
      else none
  | .saveSnapshot => some { s with snapshot := s.live, journal := [] }
  | .restart =>
      (s.journal.foldlM reg.restore s.snapshot).map fun live =>
        { s with live := live, issued := [] }

/-- `nextTgtId` would return an id that is in use. -/
def Reissues (s : Incarnation ρ ε) : Prop := reg.isKey s.live (reg.nextTgtId s.live).1 = true

/-- The sum of the ids that a replay of the journal restores. -/
def restoredSum (journal : List ε) : Int := (journal.filterMap reg.savedId).sum

/-- The step does not make the counter wrap: `nextTgtId` is called while the counter is
below `Int.MaxValue`, and at a recovery the counter of the snapshot leaves room for the sum
of the ids to be restored. -/
def NoWrap (s : Incarnation ρ ε) : RegistryStep ε → Prop
  | .nextTgtId => (reg.counter s.live).value < maxInt
  | .restart => (reg.counter s.snapshot).value + reg.restoredSum s.journal ≤ maxInt
  | _ => True

/-- Every key lies below the counter. -/
structure KeysBelow (r : ρ) : Prop where
  positive : 1 ≤ (reg.counter r).value
  below : ∀ t, reg.isKey r t = true → t < (reg.counter r).value

/-- What holds of a registry and of everything stored of it as long as no counter wraps. -/
structure Orderly (s : Incarnation ρ ε) : Prop where
  live : reg.KeysBelow s.live
  issued : ∀ t ∈ s.issued, 1 ≤ t ∧ t < (reg.counter s.live).value
  snapshot : reg.KeysBelow s.snapshot
  journal : ∀ e ∈ s.journal, ∀ t, reg.savedId e = some t → 1 ≤ t

theorem keysBelow_fresh : reg.KeysBelow reg.fresh where
  positive := by rw [reg.counter_fresh]; decide
  below t ht := by rw [reg.isKey_fresh] at ht; cases ht

theorem orderly_start : reg.Orderly reg.start where
  live := reg.keysBelow_fresh
  issued t ht := by cases ht
  snapshot := reg.keysBelow_fresh
  journal e he := by cases he

theorem KeysBelow.not_reissued {r : ρ} (h : reg.KeysBelow r) :
    reg.isKey r (reg.nextTgtId r).1 = false := by
  rw [reg.nextTgtId_fst]
  cases hkey : reg.isKey r (reg.counter r).value with
  | false => rfl
  | true => exact absurd (h.below _ hkey) (lt_irrefl _)

/-! ### Replay -/

@[simp] theorem restoredSum_nil : reg.restoredSum [] = 0 := rfl

theorem restoredSum_cons (e : ε) (rest : List ε) :
    reg.restoredSum (e :: rest) = (reg.savedId e).getD 0 + reg.restoredSum rest := by
  cases hsaved : reg.savedId e with
  | none => simp [restoredSum, hsaved]
  | some t => simp [restoredSum, hsaved]

theorem restoredSum_nonneg {journal : List ε}
    (h : ∀ e ∈ journal, ∀ t, reg.savedId e = some t → 1 ≤ t) : 0 ≤ reg.restoredSum journal := by
  apply List.sum_nonneg
  intro t ht
  obtain ⟨e, he, hsaved⟩ := List.mem_filterMap.mp ht
  have hpos := h e he t hsaved
  omega

/-- What holds while a journal is replayed: `rest` is still to come. -/
structure Replaying (r : ρ) (rest : List ε) : Prop where
  keys : reg.KeysBelow r
  saved : ∀ e ∈ rest, ∀ t, reg.savedId e = some t → 1 ≤ t
  room : (reg.counter r).value + reg.restoredSum rest ≤ maxInt

/-- Replaying one event: the counter ends up beyond the restored id, since it was at least
one before it moved by that id. -/
theorem Replaying.step {r r' : ρ} {e : ε} {rest : List ε} (h : reg.Replaying r (e :: rest))
    (hr : reg.restore r e = some r') : reg.Replaying r' rest := by
  have hcounter := reg.counter_restore r e r' hr
  have hkeys := reg.isKey_restore r e r' hr
  have hroom := h.room
  have hpositive := h.keys.positive
  have hrest : ∀ e' ∈ rest, ∀ t, reg.savedId e' = some t → 1 ≤ t :=
    fun e' he' => h.saved e' (List.mem_cons_of_mem _ he')
  have hsum := reg.restoredSum_nonneg hrest
  rw [restoredSum_cons] at hroom
  cases hsaved : reg.savedId e with
  | none =>
    simp only [hsaved, Option.getD_none, reduceCtorEq, or_false] at hcounter hkeys hroom
    refine ⟨⟨?_, ?_⟩, hrest, ?_⟩
    · rw [hcounter]; exact hpositive
    · intro t ht
      rw [hcounter]
      exact h.keys.below t (hkeys t ht)
    · rw [hcounter]; omega
  | some tgtId =>
    have hid : 1 ≤ tgtId := h.saved e List.mem_cons_self tgtId hsaved
    simp only [hsaved, Option.getD_some, Option.some.injEq] at hcounter hkeys hroom
    have hvalue : (reg.counter r').value = (reg.counter r).value + tgtId := by
      rw [hcounter]
      exact IntCounter.incBy_snd_value (by omega) (by omega) (by omega)
    refine ⟨⟨by omega, ?_⟩, hrest, by omega⟩
    intro t ht
    rcases hkeys t ht with hold | hnew
    · have hbelow := h.keys.below t hold
      omega
    · omega

/-- A recovery that leaves room for the restored ids leaves every key below the counter. -/
theorem keysBelow_recover {s : Incarnation ρ ε} {live : ρ} (h : reg.Orderly s)
    (hroom : (reg.counter s.snapshot).value + reg.restoredSum s.journal ≤ maxInt)
    (hlive : s.journal.foldlM reg.restore s.snapshot = some live) : reg.KeysBelow live := by
  have hreplayed : reg.Replaying live [] :=
    foldlM_invariant reg.Replaying (fun _ _ _ _ hr hstep => Replaying.step reg hr hstep)
      ⟨h.snapshot, h.journal, hroom⟩ hlive
  exact hreplayed.keys

/-! ### The step lemma and the run -/

/-- **One step keeps the order**: issued ids are positive and below the counter, keys are below it
too, in the live registry as in the snapshot, and a restart forgets only what was issued and not
saved. -/
theorem Orderly.step {s s' : Incarnation ρ ε} {i : RegistryStep ε} (h : reg.Orderly s)
    (hok : reg.NoWrap s i) (hs : reg.step s i = some s') : reg.Orderly s' := by
  cases i with
  | nextTgtId =>
    simp only [IdRegistry.step, Option.some.injEq] at hs
    subst hs
    have hpositive := h.live.positive
    -- below the limit the counter counts up, which keeps the new id above all others
    have hvalue : (reg.counter (reg.nextTgtId s.live).2).value
        = (reg.counter s.live).value + 1 := by
      have hlow : (reg.counter s.live).value < maxInt := hok
      have hne : (reg.counter s.live).value ≠ maxInt := ne_of_lt hlow
      rw [reg.counter_nextTgtId, IntCounter.inc_snd_value, if_neg hne]
    refine ⟨⟨by simp only [hvalue]; omega, ?_⟩, ?_, h.snapshot, h.journal⟩
    · intro t ht
      rw [reg.isKey_nextTgtId] at ht
      have hbelow := h.live.below t ht
      simp only [hvalue]
      omega
    · intro t ht
      simp only [hvalue]
      rcases List.mem_cons.mp ht with rfl | hold
      · rw [reg.nextTgtId_fst]
        omega
      · have hissued := h.issued t hold
        omega
  | persist event =>
    simp only [IdRegistry.step] at hs
    split at hs
    case isFalse => cases hs
    case isTrue hsaved =>
      obtain ⟨live, hlive, rfl⟩ := Option.map_eq_some_iff.mp hs
      have hcounter := reg.counter_handle _ _ _ hlive
      have hissued : ∀ t, reg.savedId event = some t → t ∈ s.issued := by
        intro t ht
        simpa [ht] using hsaved
      refine ⟨⟨by rw [hcounter]; exact h.live.positive, ?_⟩, ?_, h.snapshot, ?_⟩
      · -- a key is old, or it is the id saved here, which has been issued
        intro t ht
        rw [hcounter]
        rcases reg.isKey_handle _ _ _ hlive t ht with hold | hnew
        · exact h.live.below t hold
        · exact (h.issued t (hissued t hnew)).2
      · intro t ht
        rw [hcounter]
        exact h.issued t ht
      · -- so what the journal saves is positive as well
        intro e he t ht
        rcases List.mem_append.mp he with hold | hnew
        · exact h.journal e hold t ht
        · rw [List.mem_singleton.mp hnew] at ht
          exact (h.issued t (hissued t ht)).1
  | saveSnapshot =>
    simp only [IdRegistry.step, Option.some.injEq] at hs
    subst hs
    exact ⟨h.live, h.issued, h.live, fun e he => absurd he List.not_mem_nil⟩
  | restart =>
    simp only [IdRegistry.step, Option.map_eq_some_iff] at hs
    obtain ⟨live, hlive, rfl⟩ := hs
    -- only the replay of snapshot and journal counts now; what was issued is forgotten
    have hkeys := reg.keysBelow_recover h hok hlive
    exact ⟨hkeys, fun t ht => absurd ht List.not_mem_nil, h.snapshot, h.journal⟩

/-- As long as no step makes the counter wrap, no id in use is issued again. -/
theorem not_reissues_of_noWrap {s : Incarnation ρ ε}
    (h : Reachable reg.step reg.NoWrap reg.start s) : ¬ reg.Reissues s := by
  have horderly : reg.Orderly s :=
    h.invariant reg.orderly_start fun _ _ _ hinv hok hs => hinv.step reg hok hs
  unfold Reissues
  rw [horderly.live.not_reissued]
  exact Bool.false_ne_true

instance (s : Incarnation ρ ε) : Decidable (reg.Reissues s) :=
  inferInstanceAs (Decidable (_ = true))

instance (s : Incarnation ρ ε) (i : RegistryStep ε) : Decidable (reg.NoWrap s i) :=
  match i with
  | .nextTgtId => inferInstanceAs (Decidable (_ < maxInt))
  | .restart => inferInstanceAs (Decidable (_ ≤ maxInt))
  | .persist _ => .isTrue trivial
  | .saveSnapshot => .isTrue trivial

end IdRegistry

/-- **Target ids are not reissued while in use**, for both registries, in every run in which
no step makes the counter wrap. -/
theorem target_ids_not_reissued {rids : Incarnation RidRegistry LookupRidRestoreProcess}
    {sids : Incarnation SidRegistry LookupSidRestoreProcess}
    (hrids : Reachable ridIds.step ridIds.NoWrap ridIds.start rids)
    (hsids : Reachable sidIds.step sidIds.NoWrap sidIds.start sids) :
    ¬ ridIds.Reissues rids ∧ ¬ sidIds.Reissues sids :=
  ⟨ridIds.not_reissues_of_noWrap hrids, sidIds.not_reissues_of_noWrap hsids⟩

/-! ### The counter doubles with every recovery -/

/-- A run of `n` generations, each of which issues two ids, saves a record under the second and is
recovered from the journal.  The `i`-th id saved is `2 ^ i`, and the counter stands below the next
power of two. -/
def generations (save : Int → ε) : Nat → List (RegistryStep ε)
  | 0 => []
  | n + 1 =>
      generations save n ++ [.nextTgtId, .nextTgtId, .persist (save (2 ^ (n + 1))), .restart]

def saveRid (tgtId : Int) : LookupRidRestoreProcess :=
  .saved .invoke (some ⟨.actorSelection (str "/user/downstream/q"), tgtId⟩) none tgtId

def saveSid (tgtId : Int) : LookupSidRestoreProcess := .saved (str "/downstream/r/x") tgtId

/-- Thirty generations of both registries are in order. -/
theorem target_ids_not_reissued_thirty :
    ∃ rids sids, Reachable ridIds.step ridIds.NoWrap ridIds.start rids ∧
      Reachable sidIds.step sidIds.NoWrap sidIds.start sids ∧
      rids.journal.length = 30 ∧ sids.journal.length = 30 ∧
      ¬ ridIds.Reissues rids ∧ ¬ sidIds.Reissues sids := by
  obtain ⟨rids, hrids, hridJournal⟩ := Reachable.exists_of_run (generations saveRid 30)
    (show (Reachable.run ridIds.step ridIds.NoWrap ridIds.start (generations saveRid 30)).any
      (fun s => decide (s.journal.length = 30)) = true by decide +kernel)
  obtain ⟨sids, hsids, hsidJournal⟩ := Reachable.exists_of_run (generations saveSid 30)
    (show (Reachable.run sidIds.step sidIds.NoWrap sidIds.start (generations saveSid 30)).any
      (fun s => decide (s.journal.length = 30)) = true by decide +kernel)
  exact ⟨rids, sids, hrids, hsids, hridJournal, hsidJournal,
    target_ids_not_reissued hrids hsids⟩

/-- After thirty generations the counter has come to its limit without a wrap in any recovery.  The
next id is the last one, the counter starts again at `1`, and `2` is in use. -/
theorem target_ids_reissued :
    (∃ s, Reachable ridIds.step AnyStep ridIds.start s ∧ ridIds.Reissues s) ∧
      (∃ s, Reachable sidIds.step AnyStep sidIds.start s ∧ sidIds.Reissues s) := by
  constructor
  · exact Reachable.exists_of_run (generations saveRid 30 ++ [.nextTgtId, .nextTgtId])
      (by decide +kernel)
  · exact Reachable.exists_of_run (generations saveSid 30 ++ [.nextTgtId, .nextTgtId])
      (by decide +kernel)

end DsaBroker
