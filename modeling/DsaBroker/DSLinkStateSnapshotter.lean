import DsaBroker.Runs
import Mathlib.Logic.Function.Basic

/-!
# Snapshots of a link with four layers

`DSLinkStateSnapshotter` caches the state that each layer of a link actor last handed to
`saveSnapshot`, and whenever the journal has grown by another interval it stores the four
cached states as one `DSLinkState`.  The layers are opaque to it, so a layer is given by a
type of states, a type of events and the way an event changes the state; what an event does
in its handler and what it does during recovery is the same for every layer.

The caches start out as null references in every incarnation, also after a recovery that
gave the layers a state.  A snapshot stored before a layer has saved again therefore has no
entry for it, and the journal that could make up for this is deleted.  The requester also has an
event, `LastRidSet`, whose handler changes its state and saves nothing: what it changed is in the
journal only, and is lost with it if another layer makes the next snapshot due.  A folder journals
the creation and the removal of its children too, which are part of no layer's state; they count
like all other events.
-/

namespace DsaBroker

inductive Layer where
  | requester | base | folder | responder
deriving DecidableEq, Repr

/-- Internal states of DSLink Actor layers to be persisted; `none` is a null reference. -/
abbrev DSLinkState (S : Layer → Type) := (layer : Layer) → Option (S layer)

/-- An event of one of the layers. -/
abbrev LayerEvent (E : Layer → Type) := (layer : Layer) × E layer

/-- A link actor and what is stored for it.  `cached` are the four variables of the
snapshotter, `saved` is what each layer saved or recovered last, and `held` what it works with;
the journal holds the events of the layers that are not deleted. -/
structure PersistentLink (S E : Layer → Type) where
  cached : DSLinkState S
  saved : DSLinkState S
  held : DSLinkState S
  lastSequenceNr : Nat
  snapshotStore : Option (DSLinkState S)
  journal : List (LayerEvent E)

inductive LinkStep (E : Layer → Type) where
  /-- an event of a layer whose handler saves the layer's new state -/
  | event (layer : Layer) (e : E layer)
  /-- an event of a layer, such as `LastRidSet`, whose handler saves nothing -/
  | unsavedEvent (layer : Layer) (e : E layer)
  /-- `DSLinkCreated` or `DSLinkRemoved` of a folder, whose handlers save nothing -/
  | childEvent
  | restart

section Snapshotter

variable {S E : Layer → Type}

/-- Each layer that the snapshot has a state for receives it. -/
def recoverDSLinkSnapshot (offeredSnapshot held : DSLinkState S) : DSLinkState S := fun layer =>
  match offeredSnapshot layer with
  | some state => some state
  | none => held layer

/-- The snapshot store keeps the latest snapshot; `SaveSnapshotSuccess` deletes the messages
up to its sequence number. -/
def tryToSaveSnapshot (interval : Int) (s : PersistentLink S E) : PersistentLink S E :=
  if s.lastSequenceNr ≠ 0 ∧ (s.lastSequenceNr : Int) % interval = 0 then
    { s with snapshotStore := some s.cached, journal := [] }
  else s

def saveSnapshot (interval : Int) (s : PersistentLink S E) (layer : Layer) (state : S layer) :
    PersistentLink S E :=
  if interval ≤ 0 then s
  else tryToSaveSnapshot interval
    { s with
      cached := Function.update s.cached layer (some state)
      saved := Function.update s.saved layer (some state) }

variable (update : (layer : Layer) → Option (S layer) → E layer → S layer)

/-- The effect of one event on the layers. -/
def replayEvent (held : DSLinkState S) (event : LayerEvent E) : DSLinkState S :=
  Function.update held event.1 (some (update event.1 (held event.1) event.2))

/-- Recovery: the latest snapshot, then the events journaled after it. -/
def recoverLayers (s : PersistentLink S E) : DSLinkState S :=
  s.journal.foldl (replayEvent update)
    (match s.snapshotStore with
      | some offeredSnapshot => recoverDSLinkSnapshot offeredSnapshot fun _ => none
      | none => fun _ => none)

def linkStep (interval : Int) (s : PersistentLink S E) :
    LinkStep E → Option (PersistentLink S E)
  | .event layer e =>
      let state := update layer (s.held layer) e
      some (saveSnapshot interval
        { s with
          lastSequenceNr := s.lastSequenceNr + 1
          journal := s.journal ++ [⟨layer, e⟩]
          held := Function.update s.held layer (some state) }
        layer state)
  | .unsavedEvent layer e =>
      some { s with
        lastSequenceNr := s.lastSequenceNr + 1
        journal := s.journal ++ [⟨layer, e⟩]
        held := replayEvent update s.held ⟨layer, e⟩ }
  | .childEvent => some { s with lastSequenceNr := s.lastSequenceNr + 1 }
  | .restart =>
      some { s with
        cached := fun _ => none
        saved := recoverLayers update s
        held := recoverLayers update s }

def newLink : PersistentLink S E := ⟨fun _ => none, fun _ => none, fun _ => none, 0, none, []⟩

/-- The event with this sequence number makes the snapshotter store a snapshot. -/
def SnapshotDue (interval : Int) (sequenceNr : Nat) : Prop :=
  sequenceNr ≠ 0 ∧ (sequenceNr : Int) % interval = 0

/-- Every other layer that has saved or recovered a state has saved one since the last restart. -/
def OthersSaved (s : PersistentLink S E) (layer : Layer) : Prop :=
  ∀ other, other ≠ layer → (s.saved other).isSome = true → (s.cached other).isSome = true

/-- The other layers work with what they have saved or recovered last. -/
def OthersUnchanged (s : PersistentLink S E) (layer : Layer) : Prop :=
  ∀ other, other ≠ layer → s.held other = s.saved other

/-- If the step is the event that makes a snapshot due, the other layers have saved, and have had
no event since whose handler saved nothing. -/
def SavedWhenDue (interval : Int) (s : PersistentLink S E) : LinkStep E → Prop
  | .event layer _ =>
      SnapshotDue interval (s.lastSequenceNr + 1) → OthersSaved s layer ∧ OthersUnchanged s layer
  | _ => True

/-! ### What an event does -/

variable {update}

/-- What an event does whose handler saves, whether a snapshot follows or not. -/
structure Saves (update : (layer : Layer) → Option (S layer) → E layer → S layer)
    (s s' : PersistentLink S E) (layer : Layer) (e : E layer) : Prop where
  cached : s'.cached = Function.update s.cached layer (some (update layer (s.held layer) e))
  saved : s'.saved = Function.update s.saved layer (some (update layer (s.held layer) e))
  held : s'.held = replayEvent update s.held ⟨layer, e⟩

/-- An event that no snapshot follows. -/
theorem linkStep_event_of_not_due {interval : Int} (hpos : 0 < interval)
    {s s' : PersistentLink S E} {layer : Layer} {e : E layer}
    (hdue : ¬ SnapshotDue interval (s.lastSequenceNr + 1))
    (h : linkStep update interval s (.event layer e) = some s') :
    Saves update s s' layer e ∧
      s'.snapshotStore = s.snapshotStore ∧ s'.journal = s.journal ++ [⟨layer, e⟩] := by
  unfold SnapshotDue at hdue
  simp only [linkStep, saveSnapshot, tryToSaveSnapshot, if_neg (Int.not_le.mpr hpos),
    if_neg hdue, Option.some.injEq] at h
  subst h
  exact ⟨⟨rfl, rfl, rfl⟩, rfl, rfl⟩

/-- An event that makes a snapshot due: what is stored is what is cached then. -/
theorem linkStep_event_of_due {interval : Int} (hpos : 0 < interval)
    {s s' : PersistentLink S E} {layer : Layer} {e : E layer}
    (hdue : SnapshotDue interval (s.lastSequenceNr + 1))
    (h : linkStep update interval s (.event layer e) = some s') :
    Saves update s s' layer e ∧ s'.snapshotStore = some s'.cached ∧ s'.journal = [] := by
  unfold SnapshotDue at hdue
  simp only [linkStep, saveSnapshot, tryToSaveSnapshot, if_neg (Int.not_le.mpr hpos),
    if_pos hdue, Option.some.injEq] at h
  subst h
  exact ⟨⟨rfl, rfl, rfl⟩, rfl, rfl⟩

theorem linkStep_event {interval : Int} (hpos : 0 < interval) {s s' : PersistentLink S E}
    {layer : Layer} {e : E layer} (h : linkStep update interval s (.event layer e) = some s') :
    Saves update s s' layer e := by
  by_cases hdue : SnapshotDue interval (s.lastSequenceNr + 1)
  · exact (linkStep_event_of_due hpos hdue h).1
  · exact (linkStep_event_of_not_due hpos hdue h).1

/-! ### The caches never disagree with the layers -/

/-- What is cached for a layer is what it saved last, and a layer that has saved or recovered a
state has one. -/
structure CachesCurrent (s : PersistentLink S E) : Prop where
  cached : ∀ layer state, s.cached layer = some state → s.saved layer = some state
  saved : ∀ layer, (s.saved layer).isSome = true → (s.held layer).isSome = true

theorem CachesCurrent.saves {s s' : PersistentLink S E} {layer : Layer} {e : E layer}
    (h : CachesCurrent s) (hs : Saves update s s' layer e) : CachesCurrent s' := by
  obtain ⟨hcached, hsaved, hheld⟩ := hs
  constructor
  · intro other state hother
    rw [hcached] at hother
    rw [hsaved]
    by_cases hlayer : other = layer
    · subst hlayer
      simpa only [Function.update_self] using hother
    · rw [Function.update_of_ne hlayer] at hother ⊢
      exact h.cached other state hother
  · intro other hother
    rw [hsaved] at hother
    rw [hheld, replayEvent]
    by_cases hlayer : other = layer
    · subst hlayer
      rw [Function.update_self]
      rfl
    · rw [Function.update_of_ne hlayer] at hother ⊢
      exact h.saved other hother

theorem CachesCurrent.step {interval : Int} (hpos : 0 < interval) {s s' : PersistentLink S E}
    {i : LinkStep E} (h : CachesCurrent s) (hs : linkStep update interval s i = some s') :
    CachesCurrent s' := by
  cases i with
  | event layer e => exact h.saves (linkStep_event hpos hs)
  | unsavedEvent layer e =>
    obtain rfl := Option.some.inj hs
    refine ⟨h.cached, ?_⟩
    intro other hother
    show (replayEvent update s.held ⟨layer, e⟩ other).isSome = true
    rw [replayEvent]
    by_cases hlayer : other = layer
    · subst hlayer
      rw [Function.update_self]
      rfl
    · rw [Function.update_of_ne hlayer]
      exact h.saved other hother
  | childEvent =>
    obtain rfl := Option.some.inj hs
    exact ⟨h.cached, h.saved⟩
  | restart =>
    obtain rfl := Option.some.inj hs
    refine ⟨?_, fun _ => id⟩
    intro layer state hstate
    cases hstate

/-- With caches that agree with the layers, a stored snapshot has what every layer saved or
recovered last exactly when every other such layer has saved since the last restart. -/
theorem stored_complete_iff {interval : Int} (hpos : 0 < interval) {s s' : PersistentLink S E}
    {layer : Layer} {e : E layer} (h : CachesCurrent s)
    (hdue : SnapshotDue interval (s.lastSequenceNr + 1))
    (hs : linkStep update interval s (.event layer e) = some s') :
    s'.snapshotStore = some s'.saved ↔ OthersSaved s layer := by
  obtain ⟨⟨hcached, hsaved, -⟩, hstored, -⟩ := linkStep_event_of_due hpos hdue hs
  rw [hstored, Option.some.injEq, hcached, hsaved]
  constructor
  · intro heq other hother hsome
    have hsame := congrFun heq other
    rw [Function.update_of_ne hother, Function.update_of_ne hother] at hsame
    rw [hsame]
    exact hsome
  · intro hothers
    funext other
    by_cases hother : other = layer
    · subst hother
      simp only [Function.update_self]
    · rw [Function.update_of_ne hother, Function.update_of_ne hother]
      rcases hcache : s.cached other with _ | state
      · rcases hsavedOther : s.saved other with _ | state
        · rfl
        · have hcachedOther := hothers other hother (by rw [hsavedOther]; rfl)
          rw [hcache] at hcachedOther
          cases hcachedOther
      · exact (h.cached other state hcache).symm

/-! ### Recovery -/

theorem recoverDSLinkSnapshot_empty (offeredSnapshot : DSLinkState S) :
    recoverDSLinkSnapshot offeredSnapshot (fun _ => none) = offeredSnapshot := by
  funext layer
  unfold recoverDSLinkSnapshot
  cases offeredSnapshot layer <;> rfl

/-- Recovery from a snapshot that has just been stored, its journal being deleted, gives every
layer its state exactly when the other layers have saved it. -/
theorem stored_recovers_iff {interval : Int} (hpos : 0 < interval) {s s' : PersistentLink S E}
    {layer : Layer} {e : E layer} (h : CachesCurrent s)
    (hdue : SnapshotDue interval (s.lastSequenceNr + 1))
    (hs : linkStep update interval s (.event layer e) = some s') :
    recoverLayers update s' = s'.held ↔ OthersSaved s layer ∧ OthersUnchanged s layer := by
  have hcomplete := stored_complete_iff hpos h hdue hs
  obtain ⟨⟨hcached, hsaved, hheld⟩, hstored, hjournal⟩ := linkStep_event_of_due hpos hdue hs
  -- the journal has been deleted, so recovery reads the snapshot, which holds what was cached
  have hrecovers : recoverLayers update s' = s'.cached := by
    rw [recoverLayers, hjournal, hstored]
    exact recoverDSLinkSnapshot_empty s'.cached
  rw [hrecovers]
  -- a recovered layer equals the held one just if the other layers were cached as they are
  constructor
  · intro heq
    have hother : ∀ other, other ≠ layer → s.cached other = s.held other := by
      intro other hne
      have hsame := congrFun heq other
      rwa [hcached, hheld, replayEvent, Function.update_of_ne hne, Function.update_of_ne hne]
        at hsame
    constructor
    · intro other hne hsome
      rw [hother other hne]
      exact h.saved other hsome
    · intro other hne
      rcases hcache : s.cached other with _ | state
      · -- nothing cached and so nothing held, and then nothing saved either
        have hnone : s.held other = none := (hother other hne).symm.trans hcache
        rcases hsavedOther : s.saved other with _ | state
        · exact hnone
        · have hsome := h.saved other (by rw [hsavedOther]; rfl)
          rw [hnone] at hsome
          cases hsome
      · rw [h.cached other state hcache, ← hother other hne, hcache]
  · rintro ⟨hothers, hunchanged⟩
    have hstate := Option.some.inj (hstored.symm.trans (hcomplete.mpr hothers))
    rw [hstate, hsaved, hheld, replayEvent]
    funext other
    by_cases hne : other = layer
    · rw [hne, Function.update_self, Function.update_self]
    · rw [Function.update_of_ne hne, Function.update_of_ne hne, hunchanged other hne]

/-- The caches agree with the layers, and a recovery would give every layer its state. -/
structure Recoverable (update : (layer : Layer) → Option (S layer) → E layer → S layer)
    (s : PersistentLink S E) : Prop where
  caches : CachesCurrent s
  recovers : recoverLayers update s = s.held

theorem Recoverable.step {interval : Int} (hpos : 0 < interval) {s s' : PersistentLink S E}
    {i : LinkStep E} (h : Recoverable update s) (hok : SavedWhenDue interval s i)
    (hs : linkStep update interval s i = some s') : Recoverable update s' := by
  refine ⟨h.caches.step hpos hs, ?_⟩
  have hrecovers := h.recovers
  unfold recoverLayers at hrecovers
  cases i with
  | event layer e =>
    by_cases hdue : SnapshotDue interval (s.lastSequenceNr + 1)
    · -- the journal is gone, so everything rests on the snapshot
      exact (stored_recovers_iff hpos h.caches hdue hs).mpr (hok hdue)
    · obtain ⟨⟨-, -, hheld⟩, hstored, hjournal⟩ := linkStep_event_of_not_due hpos hdue hs
      rw [recoverLayers, hjournal, hstored, List.foldl_append, hrecovers, hheld]
      rfl
  | unsavedEvent layer e =>
    obtain rfl := Option.some.inj hs
    rw [recoverLayers, List.foldl_append, hrecovers]
    rfl
  | childEvent =>
    obtain rfl := Option.some.inj hs
    exact h.recovers
  | restart =>
    obtain rfl := Option.some.inj hs
    rfl

end Snapshotter

abbrev LastValue : Layer → Type := fun _ => Nat

def keepLast (layer : Layer) (_ : Option (LastValue layer)) (e : LastValue layer) :
    LastValue layer := e

def newLastValueLink : PersistentLink LastValue LastValue := newLink

instance (interval : Int) (sequenceNr : Nat) : Decidable (SnapshotDue interval sequenceNr) :=
  inferInstanceAs (Decidable (_ ∧ _))

/-- The last RID is set and recovered, and the next event is one of the base layer: the snapshot
that it makes due does not have it. -/
example : ∃ s : PersistentLink LastValue LastValue,
    Reachable (linkStep keepLast 2) AnyStep newLastValueLink s ∧
      (s.saved .requester = some 5 ∧ recoverLayers keepLast s .requester = none) :=
  Reachable.exists_of_run
    [.unsavedEvent .requester (5 : Nat), .restart, .event .base (7 : Nat)] (by decide)

end DsaBroker
