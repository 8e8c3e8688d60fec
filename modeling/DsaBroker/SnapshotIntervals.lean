import DsaBroker.DSLinkStateSnapshotter

/-!
# How often a link is snapshotted

The events that a message persists are journaled together, and `lastSequenceNr` counts all of them
before the first handler runs.  A handler that calls `saveSnapshot` asks whether that number is
divisible by the interval, so that a message of several events can take it from below a multiple to
above it.  No snapshot is stored then, and the journal grows until a message happens to end on a
multiple (`snapshots_keep_coming_iff`); with an even interval a requester that only lists never gets
there (`lists_never_snapshotted`).
-/

namespace DsaBroker

/-- An event given to `persist`, and whether its handler calls `saveSnapshot`. -/
structure PersistedEvent (E : Layer → Type) where
  event : LayerEvent E
  saves : Bool

/-- What a message makes the link persist; one of the handlers calls `saveSnapshot`. -/
structure PersistingMessage (E : Layer → Type) where
  events : List (PersistedEvent E)
  someSaves : ∃ e ∈ events, e.saves = true

inductive JournalInput (E : Layer → Type) where
  | message (m : PersistingMessage E)
  | restart

section SnapshotIntervals

variable {S E : Layer → Type}

/-- `connectToEndpoint`. -/
def connectMessage (baseState : E .base) : PersistingMessage E where
  events := [⟨⟨.base, baseState⟩, true⟩]
  someSaves := ⟨_, List.mem_singleton.mpr rfl, rfl⟩

/-- A message with one LIST: `cacheRequestTarget` persists its target, and the handler of the
requester persists `LastRidSet`. -/
def listMessage (target lastRid : E .requester) : PersistingMessage E where
  events := [⟨⟨.requester, target⟩, true⟩, ⟨⟨.requester, lastRid⟩, false⟩]
  someSaves := ⟨_, List.mem_cons_self, rfl⟩

/-- The events of a message are in the journal before the first of their handlers runs. -/
def journalAll (s : PersistentLink S E) (events : List (PersistedEvent E)) : PersistentLink S E :=
  { s with
    lastSequenceNr := s.lastSequenceNr + events.length
    journal := s.journal ++ events.map PersistedEvent.event }

variable (update : (layer : Layer) → Option (S layer) → E layer → S layer) (interval : Int)

/-- The handler of one event. -/
def handleEvent (s : PersistentLink S E) (e : PersistedEvent E) : PersistentLink S E :=
  let layer := e.event.1
  let state := update layer (s.held layer) e.event.2
  let handled := { s with held := Function.update s.held layer (some state) }
  if e.saves then saveSnapshot interval handled layer state else handled

/-- The states that the link goes through while it processes a message. -/
def moments (s : PersistentLink S E) (m : PersistingMessage E) : List (PersistentLink S E) :=
  m.events.scanl (handleEvent update interval) (journalAll s m.events)

def processMessage (s : PersistentLink S E) (m : PersistingMessage E) : PersistentLink S E :=
  m.events.foldl (handleEvent update interval) (journalAll s m.events)

def inputStep (s : PersistentLink S E) : JournalInput E → Option (PersistentLink S E)
  | .message m => some (processMessage update interval s m)
  | .restart => linkStep update interval s .restart

/-- At no moment of the message are there more events after the last stored snapshot than the
interval and the message's own. -/
def WithinInterval (s : PersistentLink S E) : JournalInput E → Prop
  | .message m =>
      ∀ t ∈ moments update interval s m, (t.journal.length : Int) ≤ interval + m.events.length
  | .restart => True

/-- The events take the sequence number past a multiple of the interval, but not onto one. -/
def StepsOver (K before events : Nat) : Prop :=
  before / K < (before + events) / K ∧ (before + events) % K ≠ 0

instance (K before events : Nat) : Decidable (StepsOver K before events) :=
  inferInstanceAs (Decidable (_ ∧ _))

def hasMessage (inputs : List (JournalInput E)) : Bool :=
  inputs.any fun
    | .message _ => true
    | .restart => false

/-- No message that is followed by another one steps over a multiple of the interval. -/
def neverStepsOver (K : Nat) : Nat → List (JournalInput E) → Bool
  | _, [] => true
  | before, .restart :: later => neverStepsOver K before later
  | before, .message m :: later =>
      (!hasMessage later || !decide (StepsOver K before m.events.length)) &&
        neverStepsOver K (before + m.events.length) later

/-! ### One message -/

variable {interval}

/-- A message of one event whose handler saves is the step of the snapshotter. -/
theorem processMessage_saved (s : PersistentLink S E) (layer : Layer) (e : E layer) :
    linkStep update interval s (.event layer e) =
      some (processMessage update interval s
        ⟨[⟨⟨layer, e⟩, true⟩], _, List.mem_singleton.mpr rfl, rfl⟩) := rfl

theorem saveSnapshot_journal (hpos : 0 < interval) (s : PersistentLink S E) (layer : Layer)
    (state : S layer) :
    (saveSnapshot interval s layer state).lastSequenceNr = s.lastSequenceNr ∧
      (saveSnapshot interval s layer state).journal =
        if SnapshotDue interval s.lastSequenceNr then [] else s.journal := by
  rw [saveSnapshot, if_neg (Int.not_le.mpr hpos), tryToSaveSnapshot]
  by_cases hdue : SnapshotDue interval s.lastSequenceNr
  · have hdue' := hdue
    unfold SnapshotDue at hdue'
    rw [if_pos hdue, if_pos hdue']
    exact ⟨rfl, rfl⟩
  · have hdue' := hdue
    unfold SnapshotDue at hdue'
    rw [if_neg hdue, if_neg hdue']
    exact ⟨rfl, rfl⟩

theorem handleEvent_journal (hpos : 0 < interval) (s : PersistentLink S E)
    (e : PersistedEvent E) :
    (handleEvent update interval s e).lastSequenceNr = s.lastSequenceNr ∧
      (handleEvent update interval s e).journal =
        if e.saves = true ∧ SnapshotDue interval s.lastSequenceNr then [] else s.journal := by
  unfold handleEvent
  by_cases hsaves : e.saves = true
  · rw [if_pos hsaves]
    simp only [hsaves, true_and]
    exact saveSnapshot_journal hpos _ _ _
  · rw [if_neg hsaves, if_neg fun h => hsaves h.1]
    exact ⟨rfl, rfl⟩

/-- The handlers of some events empty the journal if one of them saves while a snapshot is due, and
leave it alone while none is. -/
theorem foldl_handleEvent_journal (hpos : 0 < interval) (events : List (PersistedEvent E))
    (s : PersistentLink S E) :
    let t := events.foldl (handleEvent update interval) s
    t.lastSequenceNr = s.lastSequenceNr ∧
      ((∃ e ∈ events, e.saves = true) → SnapshotDue interval s.lastSequenceNr → t.journal = []) ∧
      (¬ SnapshotDue interval s.lastSequenceNr ∨ s.journal = [] → t.journal = s.journal) := by
  dsimp only
  induction events generalizing s with
  | nil => simp
  | cons e events ih =>
    obtain ⟨hnumber, hjournal⟩ := handleEvent_journal update hpos s e
    obtain ⟨hnumbers, hsaved, hkept⟩ := ih (handleEvent update interval s e)
    rw [hnumber] at hnumbers hsaved hkept
    rw [List.foldl_cons]
    refine ⟨hnumbers, ?_, ?_⟩
    · intro hsaves hdue
      by_cases he : e.saves = true
      · rw [if_pos ⟨he, hdue⟩] at hjournal
        rw [hkept (Or.inr hjournal), hjournal]
      · obtain ⟨other, hother, hsave⟩ := hsaves
        rcases List.mem_cons.mp hother with rfl | hmem
        · exact absurd hsave he
        · exact hsaved ⟨other, hmem, hsave⟩ hdue
    · intro hkeep
      have hsame : (handleEvent update interval s e).journal = s.journal := by
        rw [hjournal]
        split_ifs with hdue
        · rcases hkeep with hnot | hnil
          · exact absurd hdue.2 hnot
          · exact hnil.symm
        · rfl
      rw [hkept, hsame]
      rw [hsame]
      exact hkeep

/-- A message empties the journal if a snapshot is due when all of its events are counted, and
otherwise adds them to it. -/
theorem processMessage_journal (hpos : 0 < interval) (s : PersistentLink S E)
    (m : PersistingMessage E) :
    (processMessage update interval s m).lastSequenceNr = s.lastSequenceNr + m.events.length ∧
      (processMessage update interval s m).journal =
        if SnapshotDue interval (s.lastSequenceNr + m.events.length) then []
        else s.journal ++ m.events.map PersistedEvent.event := by
  obtain ⟨hnumber, hsaved, hkept⟩ :=
    foldl_handleEvent_journal update hpos m.events (journalAll s m.events)
  refine ⟨hnumber, ?_⟩
  split_ifs with hdue
  · exact hsaved m.someSaves hdue
  · exact hkept (Or.inl hdue)

/-- What the journal holds is most right after the events of the message are journaled. -/
theorem withinInterval_message (hpos : 0 < interval) (s : PersistentLink S E)
    (m : PersistingMessage E) :
    WithinInterval update interval s (.message m) ↔ (s.journal.length : Int) ≤ interval := by
  -- a handler journals nothing any more, it can only empty the journal by a snapshot
  have hmoments : ∀ (events : List (PersistedEvent E)) (s t : PersistentLink S E),
      t ∈ events.scanl (handleEvent update interval) s → t.journal.length ≤ s.journal.length := by
    intro events
    induction events with
    | nil =>
      intro s t ht
      rw [List.scanl_nil, List.mem_singleton] at ht
      exact ht ▸ Nat.le_refl _
    | cons e events ih =>
      intro s t ht
      rw [List.scanl_cons, List.mem_cons] at ht
      rcases ht with rfl | ht
      · exact Nat.le_refl _
      · refine Nat.le_trans (ih _ _ ht) ?_
        rw [(handleEvent_journal update hpos s e).2]
        split_ifs
        · exact Nat.zero_le _
        · exact Nat.le_refl _
  have hfirst : journalAll s m.events ∈ moments update interval s m := by
    cases hevents : m.events with
    | nil => simp [moments, hevents]
    | cons e events => simp [moments, hevents, List.scanl_cons]
  have hlength : (journalAll s m.events).journal.length = s.journal.length + m.events.length := by
    rw [journalAll, List.length_append, List.length_map]
  constructor
  · intro h
    have hbound := h _ hfirst
    rw [hlength] at hbound
    omega
  · intro h t ht
    have hle := hmoments _ _ _ ht
    rw [hlength] at hle
    omega

/-! ### Runs -/

theorem snapshotDue_natCast {K n : Nat} : SnapshotDue (K : Int) n ↔ n ≠ 0 ∧ n % K = 0 := by
  rw [SnapshotDue]
  norm_cast

/-- The journal after a message, if before it there were as many events in it as the sequence
number is above a multiple of the interval. -/
theorem length_journal_processMessage {K : Nat} (hpos : 0 < K) {s : PersistentLink S E}
    (hs : s.journal.length = s.lastSequenceNr % K) (m : PersistingMessage E) :
    let t := processMessage update K s m
    t.lastSequenceNr = s.lastSequenceNr + m.events.length ∧
      (¬ StepsOver K s.lastSequenceNr m.events.length →
        t.journal.length = t.lastSequenceNr % K) ∧
      (StepsOver K s.lastSequenceNr m.events.length → K < t.journal.length) := by
  obtain ⟨hnumber, hjournal⟩ :=
    processMessage_journal update (Int.natCast_pos.mpr hpos) s m
  have hevents : 0 < m.events.length := by
    obtain ⟨e, he, -⟩ := m.someSaves
    exact List.length_pos_of_mem he
  dsimp only
  rw [hnumber, hjournal]
  have hbefore := Nat.div_add_mod s.lastSequenceNr K
  have hafter := Nat.div_add_mod (s.lastSequenceNr + m.events.length) K
  refine ⟨rfl, ?_, ?_⟩
  · intro hover
    split_ifs with hdue
    · exact (snapshotDue_natCast.mp hdue).2.symm
    · -- no multiple is passed, so both numbers are above the same one
      have hmod : (s.lastSequenceNr + m.events.length) % K ≠ 0 := by
        intro h
        exact hdue (snapshotDue_natCast.mpr ⟨by omega, h⟩)
      have hdiv : s.lastSequenceNr / K = (s.lastSequenceNr + m.events.length) / K := by
        have hle : s.lastSequenceNr / K ≤ (s.lastSequenceNr + m.events.length) / K :=
          Nat.div_le_div_right (Nat.le_add_right _ _)
        have hnot : ¬ s.lastSequenceNr / K < (s.lastSequenceNr + m.events.length) / K :=
          fun h => hover ⟨h, hmod⟩
        omega
      rw [← hdiv] at hafter
      rw [List.length_append, List.length_map, hs]
      omega
  · -- a multiple has been passed within the message, and no snapshot was made there
    rintro ⟨hdiv, hmod⟩
    have hdue : ¬ SnapshotDue (K : Int) (s.lastSequenceNr + m.events.length) :=
      fun h => hmod (snapshotDue_natCast.mp h).2
    have hmultiple := Nat.mul_le_mul_left K (Nat.succ_le_of_lt hdiv)
    rw [Nat.mul_succ] at hmultiple
    rw [if_neg hdue, List.length_append, List.length_map, hs]
    omega

/-- Once there are more events in the journal than the interval, the next message finds them. -/
theorem admissible_of_journal_long {K : Nat} (hpos : 0 < K) {s : PersistentLink S E}
    (hs : K < s.journal.length) (inputs : List (JournalInput E)) :
    Admissible (inputStep update K) (WithinInterval update K) s inputs ↔
      hasMessage inputs = false := by
  induction inputs generalizing s with
  | nil => exact iff_of_true trivial rfl
  | cons input later ih =>
    cases input with
    | message m =>
      rw [Admissible, withinInterval_message update (Int.natCast_pos.mpr hpos)]
      exact iff_of_false (fun h => absurd h.1 (by omega)) Bool.true_eq_false.mp
    | restart =>
      rw [Admissible.cons_iff rfl]
      refine (and_iff_right trivial).trans (ih ?_)
      exact hs

theorem neverStepsOver_of_no_message {K : Nat} {inputs : List (JournalInput E)}
    (h : hasMessage inputs = false) (before : Nat) : neverStepsOver K before inputs = true := by
  induction inputs generalizing before with
  | nil => rfl
  | cons input later ih =>
    cases input with
    | message m => exact absurd h Bool.true_eq_false.mp
    | restart => exact ih h before

theorem admissible_withinInterval_iff {K : Nat} (hpos : 0 < K) {s : PersistentLink S E}
    (hs : s.journal.length = s.lastSequenceNr % K) (inputs : List (JournalInput E)) :
    Admissible (inputStep update K) (WithinInterval update K) s inputs ↔
      neverStepsOver K s.lastSequenceNr inputs = true := by
  induction inputs generalizing s with
  | nil => exact iff_of_true trivial rfl
  | cons input later ih =>
    cases input with
    | restart =>
      rw [Admissible.cons_iff rfl]
      refine (and_iff_right trivial).trans (ih ?_)
      exact hs
    | message m =>
      obtain ⟨hnumber, hnot, hover⟩ := length_journal_processMessage update hpos hs m
      have hbound : WithinInterval update K s (.message m) := by
        rw [withinInterval_message update (Int.natCast_pos.mpr hpos), hs]
        have hlt := Nat.mod_lt s.lastSequenceNr hpos
        omega
      rw [Admissible.cons_iff rfl, neverStepsOver, Bool.and_eq_true, Bool.or_eq_true,
        Bool.not_eq_true', Bool.not_eq_true', decide_eq_false_iff_not, ← hnumber]
      by_cases hsteps : StepsOver K s.lastSequenceNr m.events.length
      · rw [admissible_of_journal_long update hpos (hover hsteps)]
        constructor
        · intro h
          exact ⟨Or.inl h.2, neverStepsOver_of_no_message h.2 _⟩
        · intro h
          exact ⟨hbound, h.1.resolve_right (not_not.mpr hsteps)⟩
      · rw [ih (hnot hsteps)]
        constructor
        · intro h
          exact ⟨Or.inr hsteps, h.2⟩
        · intro h
          exact ⟨hbound, h.2⟩

/-- One event on connect and two for each LIST: the sequence number stays odd, and with an even
interval everything stays in the journal. -/
theorem lists_never_snapshotted {K : Nat} (hpos : 0 < K) (heven : K % 2 = 0) (baseState : E .base)
    (lists : List (E .requester × E .requester)) :
    ((connectMessage baseState :: lists.map fun l => listMessage l.1 l.2).foldl
      (processMessage update K) newLink).journal.length = 1 + 2 * lists.length := by
  have hdue : ∀ {n : Nat}, n % 2 = 1 → ¬ SnapshotDue (K : Int) n := by
    intro n hodd h
    have hmod := Nat.mod_mod_of_dvd n (Nat.dvd_of_mod_eq_zero heven)
    rw [(snapshotDue_natCast.mp h).2] at hmod
    omega
  have hlists : ∀ (lists : List (E .requester × E .requester)) (s : PersistentLink S E),
      s.lastSequenceNr % 2 = 1 →
        ((lists.map fun l => listMessage l.1 l.2).foldl (processMessage update K)
          s).journal.length = s.journal.length + 2 * lists.length := by
    intro lists
    induction lists with
    | nil =>
      intro s _
      rfl
    | cons l lists ih =>
      intro s hodd
      obtain ⟨hnumber, hjournal⟩ := processMessage_journal update
        (Int.natCast_pos.mpr hpos) s (listMessage l.1 l.2)
      have hnext : (s.lastSequenceNr + (listMessage l.1 l.2).events.length) % 2 = 1 := by
        show (s.lastSequenceNr + 2) % 2 = 1
        omega
      rw [if_neg (hdue hnext)] at hjournal
      rw [List.map_cons, List.foldl_cons, ih _ (hnumber ▸ hnext), hjournal, List.length_append,
        List.length_map, List.length_cons]
      show s.journal.length + 2 + 2 * lists.length = _
      omega
  obtain ⟨hnumber, hjournal⟩ := processMessage_journal update
    (Int.natCast_pos.mpr hpos) newLink (connectMessage baseState)
  rw [if_neg (hdue rfl)] at hjournal
  rw [List.foldl_cons, hlists lists _ (congrArg (· % 2) hnumber), hjournal]
  rfl

end SnapshotIntervals

/-- **When snapshots keep coming.**  At no moment of a run are there more events after the last
stored snapshot than the interval and those of the current message, just if no message that another
one follows steps over a multiple of the interval. -/
theorem snapshots_keep_coming_iff {S E : Layer → Type}
    (update : (layer : Layer) → Option (S layer) → E layer → S layer) (K : Nat) (hpos : 0 < K)
    (inputs : List (JournalInput E)) :
    Admissible (inputStep update K) (WithinInterval update K) newLink inputs ↔
      neverStepsOver K 0 inputs = true :=
  admissible_withinInterval_iff (s := newLink) update hpos (Nat.zero_mod K).symm inputs

def connectAndList (lists : Nat) : List (JournalInput LastValue) :=
  .message (connectMessage (7 : Nat)) :: List.replicate lists (.message (listMessage 1 1))

/-- With a snapshot for every third event, the first LIST ends on a multiple. -/
theorem snapshots_keep_coming_third :
    Admissible (inputStep keepLast (3 : Nat)) (WithinInterval keepLast (3 : Nat)) newLastValueLink
      (connectAndList 1 ++ [.restart, .message (listMessage 2 2)]) :=
  (snapshots_keep_coming_iff keepLast 3 (by decide) _).mpr (by decide)

/-- With the interval of the configuration, the tenth LIST takes the number of events from 19 to 21,
and the eleventh finds 21 events that no snapshot covers. -/
theorem interval_stepped_over :
    ¬ Admissible (inputStep keepLast (20 : Nat)) (WithinInterval keepLast (20 : Nat))
      newLastValueLink (connectAndList 11) := by
  have hiff := admissible_withinInterval_iff keepLast (by decide : 0 < 20)
    (rfl : newLastValueLink.journal.length = newLastValueLink.lastSequenceNr % 20)
    (connectAndList 11)
  rw [hiff]
  decide

end DsaBroker
