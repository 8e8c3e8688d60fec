import DsaBroker.DsaToAkkaCoder
import DsaBroker.LocalDSLinkFolderActor
import DsaBroker.ScanMap

/-!
# The link actors of a folder

`LocalDSLinkFolderActor` has an actor for each link as a child.  A link is created when somebody
asks for it and there is no child of its name, and it is removed by a `PoisonPill` to the child of
its name, so the child is gone only when its termination has been processed.  Both are persisted,
and the folder does the same again when it replays its events.

A creation that comes before the termination finds the child that will be gone, and nothing creates
the link again afterwards.  `NotDying` says in which runs every creation comes to a child that was
not sent a pill, and `ReplaysOwn` in which replays the children that stay are those of the links
whose last event is their creation.  Snapshots have no children in them and are left out.

A name that is no name of an actor is persisted like any other.  Then `actorOf` throws: the folder
is restarted, its recovery throws at the same event, and it stops together with its children.

A child is known by its reference, and terminates only when it was sent a pill.
-/

namespace DsaBroker

/-- The events of the folder that are about its children. -/
inductive ChildEvent where
  | dsLinkCreated (name : Str)
  | dsLinkRemoved (names : List Str)

def ChildEvent.names : ChildEvent → List Str
  | .dsLinkCreated name => [name]
  | .dsLinkRemoved names => names

/-- The registered links and the children of a folder, with a record of the events and of the
children that creations came to, and whether these had been sent a pill before. -/
structure LinkChildren where
  links : ScanMap Str LinkState
  /-- `context.child` -/
  child : Str → Option Nat
  poisoned : Nat → Bool
  nextRef : Nat
  /-- the recovery has failed: the folder is no more, and handles nothing -/
  stopped : Bool
  events : List ChildEvent
  routees : List (Nat × Bool)

namespace LinkChildren

def initial : LinkChildren where
  links := .empty
  child _ := none
  poisoned _ := false
  nextRef := 0
  stopped := false
  events := []
  routees := []

/-! ### Children -/

/-- An encoded name that `actorOf` accepts. -/
def isActorName (name : Str) : Bool := !name.isEmpty && !name.contains slash

/-- The child that is created or was there; `none` when `actorOf` throws. -/
def getOrCreateDSLink (s : LinkChildren) (name : Str) : Option (LinkChildren × Nat) :=
  let forAkka := dsaToAkkaPath name
  match s.child forAkka with
  | some ref => some (s, ref)
  | none =>
      if isActorName forAkka then
        some ({ s with
          child := Function.update s.child forAkka (some s.nextRef)
          nextRef := s.nextRef + 1 }, s.nextRef)
      else none

def removeDSLinks (s : LinkChildren) (names : List Str) : LinkChildren :=
  { s with
    poisoned := fun ref =>
      s.poisoned ref || names.any fun name => s.child (dsaToAkkaPath name) = some ref }

/-- A recovery that fails at the event ends the folder and all of its children. -/
def stop (s : LinkChildren) (event : ChildEvent) : LinkChildren :=
  { s with
    child := fun _ => none
    stopped := true
    events := s.events ++ [event] }

/-- The handler of an event, the same for a persisted and for a replayed one. -/
def handle (s : LinkChildren) : ChildEvent → LinkChildren
  | .dsLinkCreated name =>
      match s.getOrCreateDSLink name with
      | some r =>
          { r.1 with
            events := s.events ++ [.dsLinkCreated name]
            routees := s.routees ++ [(r.2, s.poisoned r.2)] }
      | none => s.stop (.dsLinkCreated name)
  | .dsLinkRemoved names =>
      { s.removeDSLinks names with events := s.events ++ [.dsLinkRemoved names] }

/-- The termination of a child is processed. -/
def terminated (s : LinkChildren) (ref : Nat) : Option LinkChildren :=
  if s.poisoned ref then
    some { s with child := fun name => if s.child name = some ref then none else s.child name }
  else none

/-! ### Messages -/

/-- `links.filterNot(_._2.connected).keys`. -/
def disconnected [ScanOrder Str] (s : LinkChildren) : List Str :=
  (s.links.entries.filter fun entry => !entry.2.connected).map Prod.fst

def register (s : LinkChildren) : RegistryMessage → LinkChildren
  | .registerDSLink name mode connected => { s with links := s.links.put name ⟨mode, connected⟩ }
  | .unregisterDSLink name => { s with links := s.links.remove name }
  | .dsLinkStateChanged name mode connected =>
      match s.links.get name with
      | some _ => { s with links := s.links.put name ⟨mode, connected⟩ }
      | none => s

inductive Input where
  | getOrCreateDSLink (name : Str)
  | removeDSLink (name : Str)
  | removeDisconnectedDSLinks
  /-- by a link -/
  | registry (message : RegistryMessage)
  /-- by a child -/
  | terminated (ref : Nat)

/-- A message to a folder that is there. -/
def handleInput [ScanOrder Str] (s : LinkChildren) : Input → Option LinkChildren
  | .getOrCreateDSLink name => some (s.handle (.dsLinkCreated name))
  | .removeDSLink name => some (s.handle (.dsLinkRemoved [name]))
  | .removeDisconnectedDSLinks => some (s.handle (.dsLinkRemoved s.disconnected))
  | .registry message => some (s.register message)
  | .terminated ref => s.terminated ref

def receiveCommand [ScanOrder Str] (s : LinkChildren) (input : Input) : Option LinkChildren :=
  if s.stopped then none else s.handleInput input

/-- While the events are replayed, children terminate as well. -/
inductive ReplayInput where
  | event (event : ChildEvent)
  | terminated (ref : Nat)

def receiveRecover (s : LinkChildren) (input : ReplayInput) : Option LinkChildren :=
  if s.stopped then none
  else
    match input with
    | .event event => some (s.handle event)
    | .terminated ref => s.terminated ref

/-! ### Which links are alive -/

/-- A child of the name is there, and was sent a pill. -/
def dying (s : LinkChildren) (name : Str) : Bool := (s.child (dsaToAkkaPath name)).any s.poisoned

/-- Every creation comes to a child that was not sent a pill before. -/
def CreatesLiving (s : LinkChildren) : Prop := ∀ routee ∈ s.routees, routee.2 = false

/-- Whether the last event of a link is its creation, after one event more. -/
def createdAfter (name : Str) (created : Bool) : ChildEvent → Bool
  | .dsLinkCreated other => created || decide (other = name)
  | .dsLinkRemoved names => created && !names.any fun other => other = name

/-- Whether the last event of a link is its creation. -/
def lastCreated (events : List ChildEvent) (name : Str) : Bool :=
  events.foldl (createdAfter name) false

/-- The children that stay are those of the links whose last event is their creation. -/
def AliveExactly (s : LinkChildren) : Prop :=
  ∀ child, (∃ ref, s.child child = some ref ∧ s.poisoned ref = false) ↔
    ∃ name, dsaToAkkaPath name = child ∧ lastCreated s.events name = true

/-- No link is asked for while a child of its name is dying. -/
def NotDying (s : LinkChildren) : Input → Prop
  | .getOrCreateDSLink name => s.dying name = false
  | .removeDSLink _ | .removeDisconnectedDSLinks | .registry _ | .terminated _ => True

/-- If a link is created, its name is encoded to the name of an actor, and no child of that name is
dying. -/
def Creatable (s : LinkChildren) : ChildEvent → Prop
  | .dsLinkCreated name => isActorName (dsaToAkkaPath name) = true ∧ s.dying name = false
  | .dsLinkRemoved _ => True

/-- A link that is created can be, and no other link of the events has a child of the same name. -/
def ReplaysOwn (s : LinkChildren) : ReplayInput → Prop
  | .event event =>
      s.Creatable event ∧
        ∀ name ∈ event.names, ∀ other ∈ s.events.flatMap ChildEvent.names,
          dsaToAkkaPath other = dsaToAkkaPath name → other = name
  | .terminated _ => True

/-! ### What an event does -/

variable {s s' : LinkChildren} {name : Str}

/-- A creation comes to the child that was there, or to a new one. -/
theorem getOrCreateDSLink_cases {r : LinkChildren × Nat} (h : s.getOrCreateDSLink name = some r) :
    (r.1 = s ∧ s.child (dsaToAkkaPath name) = some r.2) ∨
      (s.child (dsaToAkkaPath name) = none ∧ r.2 = s.nextRef ∧
        r.1 = { s with
          child := Function.update s.child (dsaToAkkaPath name) (some s.nextRef)
          nextRef := s.nextRef + 1 }) := by
  simp only [getOrCreateDSLink] at h
  cases hchild : s.child (dsaToAkkaPath name) with
  | some ref =>
    rw [hchild] at h
    cases h
    exact Or.inl ⟨rfl, rfl⟩
  | none =>
    rw [hchild] at h
    simp only at h
    split at h
    case isTrue =>
      cases h
      exact Or.inr ⟨rfl, rfl, rfl⟩
    case isFalse => cases h

/-- `actorOf` throws only for what is no name of an actor. -/
theorem getOrCreateDSLink_eq_none (h : s.getOrCreateDSLink name = none) :
    isActorName (dsaToAkkaPath name) = false := by
  simp only [getOrCreateDSLink] at h
  split at h
  · cases h
  · split_ifs at h with hname
    exact Bool.eq_false_iff.mpr hname

/-- A creation gives a routee, or it ends the folder. -/
theorem handle_dsLinkCreated (s : LinkChildren) (name : Str) :
    (∃ r, s.getOrCreateDSLink name = some r ∧ s.handle (.dsLinkCreated name) =
      { r.1 with
        events := s.events ++ [.dsLinkCreated name]
        routees := s.routees ++ [(r.2, s.poisoned r.2)] }) ∨
      (isActorName (dsaToAkkaPath name) = false ∧
        s.handle (.dsLinkCreated name) = s.stop (.dsLinkCreated name)) := by
  rw [handle]
  rcases hr : s.getOrCreateDSLink name with _ | r
  · exact Or.inr ⟨getOrCreateDSLink_eq_none hr, rfl⟩
  · exact Or.inl ⟨r, rfl, rfl⟩

/-- References are new when they are given, and one child has one name. -/
structure References (s : LinkChildren) : Prop where
  child_lt : ∀ child ref, s.child child = some ref → ref < s.nextRef
  poisoned_lt : ∀ ref, s.poisoned ref = true → ref < s.nextRef
  unique : ∀ child child' ref, s.child child = some ref → s.child child' = some ref → child = child'

namespace References

theorem initial : References .initial := by
  constructor
  · exact fun child ref h => by cases h
  · exact fun ref h => by cases h
  · exact fun child child' ref h => by cases h

theorem not_poisoned (h : s.References) : s.poisoned s.nextRef = false := by
  rw [Bool.eq_false_iff]
  exact fun hpoisoned => Nat.lt_irrefl _ (h.poisoned_lt _ hpoisoned)

theorem create (h : s.References) (child : Str) (events : List ChildEvent)
    (routees : List (Nat × Bool)) : References
      { s with
        child := Function.update s.child child (some s.nextRef)
        nextRef := s.nextRef + 1
        events := events
        routees := routees } := by
  have hcases : ∀ other ref, Function.update s.child child (some s.nextRef) other = some ref →
      (other = child ∧ ref = s.nextRef) ∨ s.child other = some ref := by
    intro other ref hother
    by_cases hname : other = child
    · rw [hname, Function.update_self] at hother
      exact Or.inl ⟨hname, (Option.some.inj hother).symm⟩
    · rw [Function.update_of_ne hname] at hother
      exact Or.inr hother
  constructor
  · intro other ref hother
    rcases hcases other ref hother with ⟨_, rfl⟩ | hold
    · exact Nat.lt_succ_self _
    · exact Nat.lt_succ_of_lt (h.child_lt other ref hold)
  · exact fun ref hpoisoned => Nat.lt_succ_of_lt (h.poisoned_lt ref hpoisoned)
  · intro first second ref hfirst hsecond
    rcases hcases first ref hfirst with ⟨rfl, rfl⟩ | hold
    · rcases hcases second _ hsecond with ⟨rfl, _⟩ | hold'
      · rfl
      · exact absurd (h.child_lt second _ hold') (Nat.lt_irrefl _)
    · rcases hcases second ref hsecond with ⟨rfl, rfl⟩ | hold'
      · exact absurd (h.child_lt first _ hold) (Nat.lt_irrefl _)
      · exact h.unique first second ref hold hold'

theorem stop (h : s.References) (event : ChildEvent) : (s.stop event).References := by
  constructor
  · exact fun child ref hchild => absurd hchild (Option.some_ne_none ref).symm
  · exact h.poisoned_lt
  · exact fun child child' ref hchild _ => absurd hchild (Option.some_ne_none ref).symm

theorem handle (h : s.References) (event : ChildEvent) : (s.handle event).References := by
  cases event with
  | dsLinkCreated name =>
    rcases handle_dsLinkCreated s name with ⟨r, hr, hs'⟩ | ⟨-, hs'⟩
    · rw [hs']
      rcases getOrCreateDSLink_cases hr with ⟨hsame, _⟩ | ⟨_, _, hnew⟩
      · rw [hsame]
        exact ⟨h.child_lt, h.poisoned_lt, h.unique⟩
      · rw [hnew]
        exact h.create _ _ _
    · rw [hs']
      exact h.stop _
  | dsLinkRemoved names =>
    constructor
    · exact h.child_lt
    · intro ref hpoisoned
      rcases Bool.or_eq_true_iff.mp hpoisoned with hold | hnew
      · exact h.poisoned_lt ref hold
      · obtain ⟨name, _, hchild⟩ := List.any_eq_true.mp hnew
        exact h.child_lt _ ref (of_decide_eq_true hchild)
    · exact h.unique

theorem terminated (h : s.References) {ref : Nat} (hs' : s.terminated ref = some s') :
    s'.References := by
  simp only [LinkChildren.terminated] at hs'
  split at hs'
  case isFalse => cases hs'
  case isTrue =>
    cases hs'
    have hold : ∀ child other, (if s.child child = some ref then none else s.child child) =
        some other → s.child child = some other := by
      intro child other hchild
      split at hchild
      case isTrue => cases hchild
      case isFalse => exact hchild
    constructor
    · exact fun child other hchild => h.child_lt child other (hold child other hchild)
    · exact h.poisoned_lt
    · exact fun child child' other hchild hchild' =>
        h.unique child child' other (hold child other hchild) (hold child' other hchild')

end References

/-! ### The replay -/

theorem lastCreated_concat (events : List ChildEvent) (event : ChildEvent) (name : Str) :
    lastCreated (events ++ [event]) name = createdAfter name (lastCreated events name) event :=
  List.foldl_append

/-- A link that was created is one of the events. -/
theorem mem_names_of_lastCreated {events : List ChildEvent}
    (h : lastCreated events name = true) : name ∈ events.flatMap ChildEvent.names := by
  induction events using List.reverseRecOn with
  | nil => cases h
  | append_singleton events event ih =>
    rw [lastCreated_concat] at h
    rw [List.flatMap_append, List.mem_append]
    cases event with
    | dsLinkCreated other =>
      rcases Bool.or_eq_true_iff.mp h with hold | hnew
      · exact Or.inl (ih hold)
      · right
        rw [← of_decide_eq_true hnew]
        exact List.mem_singleton.mpr rfl
    | dsLinkRemoved names => exact Or.inl (ih (Bool.and_eq_true_iff.mp h).1)

theorem aliveExactly_initial : AliveExactly .initial := by
  intro child
  constructor
  · rintro ⟨ref, hchild, _⟩
    cases hchild
  · rintro ⟨name, _, hlast⟩
    cases hlast

/-- An event of creation leaves alive what was alive and the child of its name, which is there
already or comes new, and in neither case is dying. -/
theorem AliveExactly.dsLinkCreated (h : s.AliveExactly) (hrefs : s.References)
    (hcreatable : s.Creatable (.dsLinkCreated name)) :
    (s.handle (.dsLinkCreated name)).AliveExactly := by
  obtain ⟨hname, hdying⟩ := hcreatable
  rcases handle_dsLinkCreated s name with ⟨r, hr, hs'⟩ | ⟨hnot, -⟩
  swap
  · rw [hname] at hnot
    cases hnot
  rw [hs']
  intro child
  -- the new event counts for its own name, by whatever spelling the child has it
  have hnames : (∃ other, dsaToAkkaPath other = child ∧
      lastCreated (s.events ++ [.dsLinkCreated name]) other = true) ↔
      (∃ ref, s.child child = some ref ∧ s.poisoned ref = false) ∨
        dsaToAkkaPath name = child := by
    rw [h child]
    constructor
    · rintro ⟨other, hchild, hlast⟩
      rw [lastCreated_concat] at hlast
      rcases Bool.or_eq_true_iff.mp hlast with hold | hnew
      · exact Or.inl ⟨other, hchild, hold⟩
      · rw [← of_decide_eq_true hnew] at hchild
        exact Or.inr hchild
    · rintro (⟨other, hchild, hlast⟩ | hchild)
      · exact ⟨other, hchild, by rw [lastCreated_concat, createdAfter, hlast, Bool.true_or]⟩
      · exact ⟨name, hchild, by simp [lastCreated_concat, createdAfter]⟩
  rcases getOrCreateDSLink_cases hr with ⟨hsame, hchild⟩ | ⟨hnone, _, hnew⟩
  · -- the child was there already, and it is not dying
    rw [hsame]
    refine Iff.trans (or_iff_left_of_imp ?_).symm hnames.symm
    rintro rfl
    rw [dying, hchild] at hdying
    exact ⟨r.2, hchild, hdying⟩
  · -- a new child has a reference that nobody has sent a pill to
    rw [hnew]
    refine Iff.trans ?_ hnames.symm
    show (∃ ref, Function.update s.child (dsaToAkkaPath name) (some s.nextRef) child = some ref ∧
      s.poisoned ref = false) ↔ _
    by_cases hname : child = dsaToAkkaPath name
    · rw [hname, Function.update_self]
      exact iff_of_true ⟨s.nextRef, rfl, hrefs.not_poisoned⟩ (Or.inr rfl)
    · rw [Function.update_of_ne hname]
      exact (or_iff_left (Ne.symm hname)).symm

/-- An event of removal leaves alive just the children that none of its names stands for, provided
no other link's name is written like one of them. -/
theorem AliveExactly.dsLinkRemoved (h : s.AliveExactly) (hrefs : s.References) {names : List Str}
    (hown : ∀ name ∈ names, ∀ other ∈ s.events.flatMap ChildEvent.names,
      dsaToAkkaPath other = dsaToAkkaPath name → other = name) :
    (s.handle (.dsLinkRemoved names)).AliveExactly := by
  rw [handle]
  intro child
  -- the pill goes to the child of each name, and each child has one name
  have halive : (∃ ref, s.child child = some ref ∧ (s.removeDSLinks names).poisoned ref = false) ↔
      (∃ ref, s.child child = some ref ∧ s.poisoned ref = false) ∧
        ∀ name ∈ names, dsaToAkkaPath name ≠ child := by
    simp only [removeDSLinks, Bool.or_eq_false_iff, List.any_eq_false, decide_eq_true_eq]
    constructor
    · rintro ⟨ref, hchild, hpoisoned, hnone⟩
      refine ⟨⟨ref, hchild, hpoisoned⟩, ?_⟩
      rintro name hname rfl
      exact hnone name hname hchild
    · rintro ⟨⟨ref, hchild, hpoisoned⟩, hnames⟩
      exact ⟨ref, hchild, hpoisoned, fun name hname hother =>
        hnames name hname (hrefs.unique _ _ ref hother hchild)⟩
  refine halive.trans ?_
  rw [h child]
  constructor
  · rintro ⟨⟨name, hchild, hlast⟩, hnames⟩
    refine ⟨name, hchild, ?_⟩
    rw [lastCreated_concat, createdAfter, hlast, Bool.true_and, Bool.not_eq_true',
      List.any_eq_false]
    intro other hother hsame
    rw [of_decide_eq_true hsame] at hother
    exact hnames name hother hchild
  · -- by `hown` no other name stands for the same child, which would go with it
    rintro ⟨name, hchild, hlast⟩
    rw [lastCreated_concat, createdAfter, Bool.and_eq_true_iff, Bool.not_eq_true',
      List.any_eq_false] at hlast
    refine ⟨⟨name, hchild, hlast.1⟩, ?_⟩
    intro other hother hsame
    have hname := hown other hother name (mem_names_of_lastCreated hlast.1)
      (hchild.trans hsame.symm)
    exact hlast.2 other hother (decide_eq_true hname.symm)

/-- Only a child that was sent a pill goes. -/
theorem AliveExactly.terminated (h : s.AliveExactly) {ref : Nat}
    (hs' : s.terminated ref = some s') : s'.AliveExactly := by
  simp only [LinkChildren.terminated] at hs'
  split at hs'
  case isFalse => cases hs'
  case isTrue hpoisoned =>
    cases hs'
    intro child
    refine Iff.trans ?_ (h child)
    constructor
    · rintro ⟨other, hother, halive⟩
      simp only at hother
      split at hother
      case isTrue => cases hother
      case isFalse => exact ⟨other, hother, halive⟩
    · rintro ⟨other, hother, halive⟩
      refine ⟨other, (if_neg ?_).trans hother, halive⟩
      intro hsame
      obtain rfl := Option.some.inj (hother.symm.trans hsame)
      rw [hpoisoned] at halive
      cases halive

/-! ### Runs -/

/-- A creation that gives no routee adds none. -/
theorem createsLiving_handle (h : s.CreatesLiving) {event : ChildEvent}
    (hdying : ∀ name, event = .dsLinkCreated name → s.dying name = false)
    (hrefs : s.References) : (s.handle event).CreatesLiving := by
  cases event with
  | dsLinkCreated name =>
    rcases handle_dsLinkCreated s name with ⟨r, hr, hs'⟩ | ⟨-, hs'⟩
    · rw [hs']
      intro routee hroutee
      rcases List.mem_append.mp hroutee with hold | hnew
      · exact h routee hold
      · rw [List.mem_singleton.mp hnew]
        rcases getOrCreateDSLink_cases hr with ⟨_, hchild⟩ | ⟨_, href, _⟩
        · have hliving := hdying name rfl
          rw [dying, hchild] at hliving
          exact hliving
        · rw [href]
          exact hrefs.not_poisoned
    · rw [hs']
      exact h
  | dsLinkRemoved names => exact h

/-- Each command keeps it that every link that was asked for has got a living child, if none is
asked for while its child is dying. -/
theorem createsLiving_receiveCommand [ScanOrder Str] {input : Input}
    (h : s.References ∧ s.CreatesLiving) (hok : s.NotDying input)
    (hs' : s.receiveCommand input = some s') : s'.References ∧ s'.CreatesLiving := by
  obtain ⟨hrefs, hliving⟩ := h
  have hremoved : ∀ names name, ChildEvent.dsLinkRemoved names = .dsLinkCreated name →
      s.dying name = false := fun names name hevent => by cases hevent
  rw [receiveCommand] at hs'
  split_ifs at hs'
  cases input with
  | getOrCreateDSLink name =>
    obtain rfl := Option.some.inj hs'
    refine ⟨hrefs.handle _, createsLiving_handle hliving ?_ hrefs⟩
    rintro other ⟨⟩
    exact hok
  | removeDSLink name =>
    obtain rfl := Option.some.inj hs'
    exact ⟨hrefs.handle _, createsLiving_handle hliving (hremoved [name]) hrefs⟩
  | removeDisconnectedDSLinks =>
    obtain rfl := Option.some.inj hs'
    exact ⟨hrefs.handle _, createsLiving_handle hliving (hremoved s.disconnected) hrefs⟩
  | registry message =>
    obtain rfl := Option.some.inj hs'
    cases message with
    | registerDSLink name mode connected =>
      exact ⟨⟨hrefs.child_lt, hrefs.poisoned_lt, hrefs.unique⟩, hliving⟩
    | unregisterDSLink name =>
      exact ⟨⟨hrefs.child_lt, hrefs.poisoned_lt, hrefs.unique⟩, hliving⟩
    | dsLinkStateChanged name mode connected =>
      simp only [register]
      split
      · exact ⟨⟨hrefs.child_lt, hrefs.poisoned_lt, hrefs.unique⟩, hliving⟩
      · exact ⟨hrefs, hliving⟩
  | terminated ref =>
    have hs' : s.terminated ref = some s' := hs'
    refine ⟨hrefs.terminated hs', ?_⟩
    simp only [terminated] at hs'
    split_ifs at hs'
    obtain rfl := Option.some.inj hs'
    exact hliving

theorem aliveExactly_receiveRecover {input : ReplayInput} (h : s.References ∧ s.AliveExactly)
    (hok : s.ReplaysOwn input) (hs' : s.receiveRecover input = some s') :
    s'.References ∧ s'.AliveExactly := by
  obtain ⟨hrefs, halive⟩ := h
  simp only [receiveRecover] at hs'
  split_ifs at hs'
  cases input with
  | event event =>
    obtain rfl := Option.some.inj hs'
    refine ⟨hrefs.handle _, ?_⟩
    obtain ⟨hcreatable, hown⟩ := hok
    cases event with
    | dsLinkCreated name => exact halive.dsLinkCreated hrefs hcreatable
    | dsLinkRemoved names => exact halive.dsLinkRemoved hrefs hown
  | terminated ref =>
    have hs' : s.terminated ref = some s' := hs'
    exact ⟨hrefs.terminated hs', halive.terminated hs'⟩

/-- **Links that are created again are alive**, in every run that asks for no link while a child
of its name is dying, and after every replay that creates none then, creates links with names of
actors only, and in which no two links have a child of one name. -/
theorem recreated_alive [ScanOrder Str] {s : LinkChildren} :
    (Reachable receiveCommand NotDying .initial s → s.CreatesLiving) ∧
      (Reachable receiveRecover ReplaysOwn .initial s → s.AliveExactly) := by
  constructor
  · intro h
    have hinv : s.References ∧ s.CreatesLiving := by
      apply h.invariant
      · exact ⟨.initial, fun routee hroutee => by cases hroutee⟩
      · exact fun s input s' hinv hok hs' => createsLiving_receiveCommand hinv hok hs'
    exact hinv.2
  · intro h
    have hinv : s.References ∧ s.AliveExactly := by
      apply h.invariant
      · exact ⟨.initial, aliveExactly_initial⟩
      · exact fun s input s' hinv hok hs' => aliveExactly_receiveRecover hinv hok hs'
    exact hinv.2

/-! ### A link that is removed and created again -/

instance [ScanOrder Str] (s : LinkChildren) : (input : Input) → Decidable (s.NotDying input)
  | .getOrCreateDSLink _ => inferInstanceAs (Decidable (_ = _))
  | .removeDSLink _ | .removeDisconnectedDSLinks | .registry _ | .terminated _ => .isTrue trivial

instance (s : LinkChildren) : (event : ChildEvent) → Decidable (s.Creatable event)
  | .dsLinkCreated _ => inferInstanceAs (Decidable (_ ∧ _))
  | .dsLinkRemoved _ => .isTrue trivial

instance (s : LinkChildren) : (input : ReplayInput) → Decidable (s.ReplaysOwn input)
  | .event event => inferInstanceAs (Decidable (s.Creatable event ∧ _))
  | .terminated _ => .isTrue trivial

def lamp : Str := str "lamp"

/-- The first child has terminated when the link is asked for again, and when its second creation
is replayed. -/
theorem recreated_alive_lamp :
    (∃ s : LinkChildren, s.routees = [(0, false), (1, false)] ∧ s.CreatesLiving) ∧
      ∃ s : LinkChildren, lastCreated s.events lamp = true ∧ s.AliveExactly := by
  constructor
  · obtain ⟨s, hs, hroutees⟩ :
        ∃ s, Reachable receiveCommand NotDying initial s ∧ s.routees = [(0, false), (1, false)] :=
      Reachable.exists_of_run
        [.getOrCreateDSLink lamp, .removeDSLink lamp, .terminated 0, .getOrCreateDSLink lamp]
        (by decide +kernel)
    exact ⟨s, hroutees, recreated_alive.1 hs⟩
  · obtain ⟨s, hs, hlast⟩ :
        ∃ s, Reachable receiveRecover ReplaysOwn initial s ∧ lastCreated s.events lamp = true :=
      Reachable.exists_of_run
        [.event (.dsLinkCreated lamp), .event (.dsLinkRemoved [lamp]), .terminated 0,
          .event (.dsLinkCreated lamp)] (by decide +kernel)
    exact ⟨s, hlast, recreated_alive.2 hs⟩

/-- A link whose name is no name of an actor is created after another one: neither is alive. -/
example : ∃ s, Reachable receiveRecover AnyStep initial s ∧
    (s.stopped = true ∧ lastCreated s.events lamp = true ∧ s.child (dsaToAkkaPath lamp) = none) :=
  Reachable.exists_of_run
    [.event (.dsLinkCreated lamp), .event (.dsLinkCreated (str "a/b"))] (by decide +kernel)

/-- The first child has not terminated when the link is asked for again, and when its second
creation is replayed. -/
theorem recreated_dying :
    ¬ ((∀ s, Reachable receiveCommand AnyStep .initial s → s.CreatesLiving) ∨
      ∀ s, Reachable receiveRecover AnyStep .initial s → s.AliveExactly) := by
  rintro (hlive | hreplay)
  · obtain ⟨s, hs, hroutees⟩ :
        ∃ s, Reachable receiveCommand AnyStep initial s ∧ s.routees = [(0, false), (0, true)] :=
      Reachable.exists_of_run
        [.getOrCreateDSLink lamp, .removeDSLink lamp, .getOrCreateDSLink lamp] (by decide +kernel)
    have hdying := hlive s hs (0, true) (by rw [hroutees]; decide)
    cases hdying
  · obtain ⟨s, hs, hdying, hlast⟩ :
        ∃ s, Reachable receiveRecover AnyStep initial s ∧ s.dying lamp = true ∧
          lastCreated s.events lamp = true :=
      Reachable.exists_of_run
        [.event (.dsLinkCreated lamp), .event (.dsLinkRemoved [lamp]),
          .event (.dsLinkCreated lamp)] (by decide +kernel)
    obtain ⟨ref, hchild, halive⟩ := (hreplay s hs (dsaToAkkaPath lamp)).mpr ⟨lamp, rfl, hlast⟩
    rw [dying, hchild] at hdying
    exact absurd (halive.symm.trans hdying) (by decide)

end LinkChildren

end DsaBroker
