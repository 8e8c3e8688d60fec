import DsaBroker.ResponderWorkers

/-!
# The two responder engines

`SimpleResponderBehavior` keeps the LIST and the SUBSCRIBE bindings in one registry each,
`PooledResponderBehavior` in pools of workers.  Called with the same calls, one after the
other, they are to send every origin the same responses, and to return the same from every
removal (`engines_agree`).

A worker forgets the last response of a target id when it loses its own last origin of it, and
the single registry when it loses the last of all; so what an origin that is added later is
sent may differ.  And an origin that several bindings hold is removed from the one that a scan
finds first, which need not be the same in the two tables.  `EngineCondition` excludes these.
-/

namespace DsaBroker

/-! ### The engines -/

inductive EngineCall where
  | addListOrigin (targetId : Int) (origin : Origin)
  | addSubscribeOrigin (targetId : Int) (origin : Origin)
  | removeListOrigin (origin : Origin)
  | removeSubscribeOrigin (origin : Origin)
  | deliverListResponse (rsp : DSAResponse)
  | deliverSubscribeResponse (rsp : DSAResponse)

def Called.map {σ τ : Type} (f : σ → τ) (called : Called σ) : Called τ :=
  ⟨f called.state, called.sent, called.returned⟩

/-- `SimpleResponderBehavior`, its persist handlers run at once. -/
structure SimpleResponder where
  listRegistry : Bindings
  subsRegistry : Bindings

namespace SimpleResponder

def initial : SimpleResponder := ⟨.empty, .empty⟩

def withList (s : SimpleResponder) (b : Bindings) : SimpleResponder := { s with listRegistry := b }

def withSubs (s : SimpleResponder) (b : Bindings) : SimpleResponder := { s with subsRegistry := b }

/-- `none` when the call throws. -/
def call [ScanOrder Int] (s : SimpleResponder) : EngineCall → Option (Called SimpleResponder)
  | .addListOrigin targetId origin =>
      (GroupCallRegistry.addOrigin .list s.listRegistry targetId origin).map (.map s.withList)
  | .addSubscribeOrigin targetId origin =>
      (GroupCallRegistry.addOrigin .subs s.subsRegistry targetId origin).map (.map s.withSubs)
  | .removeListOrigin origin =>
      (some (GroupCallRegistry.removeOrigin .list s.listRegistry origin)).map (.map s.withList)
  | .removeSubscribeOrigin origin =>
      (some (GroupCallRegistry.removeOrigin .subs s.subsRegistry origin)).map (.map s.withSubs)
  | .deliverListResponse rsp =>
      (some (GroupCallRegistry.deliverListResponse s.listRegistry rsp)).map (.map s.withList)
  | .deliverSubscribeResponse rsp =>
      (GroupCallRegistry.deliverSubscribeResponse s.subsRegistry rsp).map (.map s.withSubs)

end SimpleResponder

/-- How the routers of the two pools spread the origins. -/
structure Routers (n m : Nat) where
  listHash : Origin → Fin n
  subsHash : Origin → Fin m

/-- `PooledResponderBehavior`, with the tables of its workers. -/
structure PooledResponder (n m : Nat) where
  listWorkers : Pool n
  subsWorkers : Pool m

namespace PooledResponder

variable {n m : Nat}

def initial : PooledResponder n m := ⟨.empty, .empty⟩

def withList (s : PooledResponder n m) (workers : Pool n) : PooledResponder n m :=
  { s with listWorkers := workers }

def withSubs (s : PooledResponder n m) (workers : Pool m) : PooledResponder n m :=
  { s with subsWorkers := workers }

/-- `none` when a worker throws. -/
def call [ScanOrder Int] (routers : Routers n m) (s : PooledResponder n m) :
    EngineCall → Option (Called (PooledResponder n m))
  | .addListOrigin targetId origin =>
      (s.listWorkers.addOrigin routers.listHash .list targetId origin).map (.map s.withList)
  | .addSubscribeOrigin targetId origin =>
      (s.subsWorkers.addOrigin routers.subsHash .subs targetId origin).map (.map s.withSubs)
  | .removeListOrigin origin =>
      (some (s.listWorkers.removeOrigin routers.listHash .list origin)).map (.map s.withList)
  | .removeSubscribeOrigin origin =>
      (some (s.subsWorkers.removeOrigin routers.subsHash .subs origin)).map (.map s.withSubs)
  | .deliverListResponse rsp => (s.listWorkers.deliverListResponse rsp).map (.map s.withList)
  | .deliverSubscribeResponse rsp =>
      (s.subsWorkers.deliverSubscribeResponse rsp).map (.map s.withSubs)

end PooledResponder

/-! ### The engines side by side -/

/-- The two engines, what each has sent, and what each has returned. -/
structure EngineRun (n m : Nat) where
  simple : SimpleResponder
  pooled : PooledResponder n m
  simpleSent : List (Origin × DSAResponse)
  pooledSent : List (Origin × DSAResponse)
  simpleReturned : List (Option Int)
  pooledReturned : List (Option Int)

def EngineRun.initial {n m : Nat} : EngineRun n m := ⟨.initial, .initial, [], [], [], []⟩

section

variable [ScanOrder Int] {n m : Nat}

/-- A call to both, if both come through. -/
def EngineRun.call (routers : Routers n m) (run : EngineRun n m) (call : EngineCall) :
    Option (EngineRun n m) :=
  (run.simple.call call).bind fun s =>
    (run.pooled.call routers call).map fun p =>
      { simple := s.state
        pooled := p.state
        simpleSent := run.simpleSent ++ s.sent
        pooledSent := run.pooledSent ++ p.sent
        simpleReturned := run.simpleReturned ++ [s.returned]
        pooledReturned := run.pooledReturned ++ [p.returned] }

/-- An origin is added where its worker keeps a last response just if the single registry
does, and removed where both find it in the same binding; a LIST response has a RID, and a
SUBSCRIBE response has none. -/
def EngineCondition (routers : Routers n m) (run : EngineRun n m) : EngineCall → Prop
  | .addListOrigin targetId origin =>
      ((run.pooled.listWorkers (routers.listHash origin)).getLastResponse targetId).isSome
        = (run.simple.listRegistry.getLastResponse targetId).isSome
  | .addSubscribeOrigin targetId origin =>
      ((run.pooled.subsWorkers (routers.subsHash origin)).getLastResponse targetId).isSome
        = (run.simple.subsRegistry.getLastResponse targetId).isSome
  | .removeListOrigin origin =>
      (run.pooled.listWorkers (routers.listHash origin)).lookupTargetId origin
        = run.simple.listRegistry.lookupTargetId origin
  | .removeSubscribeOrigin origin =>
      (run.pooled.subsWorkers (routers.subsHash origin)).lookupTargetId origin
        = run.simple.subsRegistry.lookupTargetId origin
  | .deliverListResponse rsp => rsp.rid ≠ 0
  | .deliverSubscribeResponse rsp => rsp.rid = 0

end

instance [ScanOrder Int] {n m : Nat} (routers : Routers n m) (run : EngineRun n m) :
    (call : EngineCall) → Decidable (EngineCondition routers run call)
  | .addListOrigin .. | .addSubscribeOrigin .. => inferInstanceAs (Decidable (_ = _))
  | .removeListOrigin _ | .removeSubscribeOrigin _ => inferInstanceAs (Decidable (_ = _))
  | .deliverListResponse _ => inferInstanceAs (Decidable (_ ≠ _))
  | .deliverSubscribeResponse _ => inferInstanceAs (Decidable (_ = _))

/-! ### Agreement -/

structure EnginesAgree {n m : Nat} (routers : Routers n m) (simple : SimpleResponder)
    (pooled : PooledResponder n m) : Prop where
  list : PoolAgrees routers.listHash simple.listRegistry pooled.listWorkers
  subs : PoolAgrees routers.subsHash simple.subsRegistry pooled.subsWorkers

/-- What a registry and its pool agree on, the engines agree on. -/
theorem SameOutcome.map {σ τ σ' τ' : Type} {R : σ → τ → Prop} {R' : σ' → τ' → Prop}
    {single : Option (Called σ)} {pooled : Option (Called τ)} (h : SameOutcome R single pooled)
    {f : σ → σ'} {g : τ → τ'} (hrelated : ∀ s t, R s t → R' (f s) (g t)) :
    SameOutcome R' (single.map (.map f)) (pooled.map (.map g)) := by
  rcases h with ⟨rfl, rfl⟩ | ⟨s, p, rfl, rfl, hR, hsent, hreturned⟩
  · exact Or.inl ⟨rfl, rfl⟩
  · exact Or.inr ⟨s.map f, p.map g, rfl, rfl, hrelated _ _ hR, hsent, hreturned⟩

section

variable [ScanOrder Int] {n m : Nat} {routers : Routers n m}

/-- **A call that meets the condition ends alike.** -/
theorem EnginesAgree.call {run : EngineRun n m}
    (h : EnginesAgree routers run.simple run.pooled) {call : EngineCall}
    (hok : EngineCondition routers run call) :
    SameOutcome (EnginesAgree routers) (run.simple.call call)
      (run.pooled.call routers call) := by
  have hlist : ∀ b workers, PoolAgrees routers.listHash b workers →
      EnginesAgree routers (run.simple.withList b) (run.pooled.withList workers) :=
    fun b workers hagrees => ⟨hagrees, h.subs⟩
  have hsubs : ∀ b workers, PoolAgrees routers.subsHash b workers →
      EnginesAgree routers (run.simple.withSubs b) (run.pooled.withSubs workers) :=
    fun b workers hagrees => ⟨h.list, hagrees⟩
  cases call with
  | addListOrigin targetId origin => exact (h.list.addOrigin .list targetId origin hok).map hlist
  | addSubscribeOrigin targetId origin =>
    exact (h.subs.addOrigin .subs targetId origin hok).map hsubs
  | removeListOrigin origin => exact (h.list.removeOrigin .list origin hok).map hlist
  | removeSubscribeOrigin origin => exact (h.subs.removeOrigin .subs origin hok).map hsubs
  | deliverListResponse rsp => exact (h.list.deliverListResponse hok).map hlist
  | deliverSubscribeResponse rsp => exact (h.subs.deliverSubscribeResponse hok).map hsubs

/-- What every state of a run satisfies. -/
structure EngineRun.Alike (routers : Routers n m) (run : EngineRun n m) : Prop where
  states : EnginesAgree routers run.simple run.pooled
  sent : ∀ o, received o run.pooledSent = received o run.simpleSent
  returned : run.pooledReturned = run.simpleReturned

theorem EngineRun.Alike.call {run run' : EngineRun n m} (h : run.Alike routers)
    {call : EngineCall} (hok : EngineCondition routers run call)
    (hcall : run.call routers call = some run') : run'.Alike routers := by
  obtain ⟨s, hs, hpooled⟩ := Option.bind_eq_some_iff.mp hcall
  obtain ⟨p, hp, rfl⟩ := Option.map_eq_some_iff.mp hpooled
  rcases h.states.call hok with ⟨hnone, _⟩ | ⟨s', p', hs', hp', hstates, hsent, hreturned⟩
  · cases hs.symm.trans hnone
  · cases hs.symm.trans hs'
    cases hp.symm.trans hp'
    refine ⟨hstates, ?_, ?_⟩
    · intro o
      simp only [received_append, h.sent o, hsent o]
    · simp only [h.returned, hreturned]

end

/-- **The engines agree.**  In every run of calls that meet the condition, the two engines
have sent every origin the same responses in the same order, and returned the same; and a next
call that meets the condition throws in both or in neither. -/
theorem engines_agree [ScanOrder Int] {n m : Nat} {routers : Routers n m} {run : EngineRun n m}
    (h : Reachable (EngineRun.call routers) (EngineCondition routers) .initial run) :
    (∀ o, received o run.pooledSent = received o run.simpleSent) ∧
      run.pooledReturned = run.simpleReturned ∧
      ∀ call, EngineCondition routers run call →
        (run.simple.call call).isSome = (run.pooled.call routers call).isSome := by
  have halike : run.Alike routers := by
    apply h.invariant ⟨⟨.initial, .initial⟩, fun _ => rfl, rfl⟩
    intro run call run' hrun hok hcall
    exact hrun.call hok hcall
  refine ⟨halike.sent, halike.returned, ?_⟩
  intro call hok
  rcases halike.states.call hok with ⟨hs, hp⟩ | ⟨s, p, hs, hp, _⟩
  · rw [hs, hp]
    rfl
  · rw [hs, hp]
    rfl

/-! ### Three origins and two workers -/

/-- Two workers; A is with the first, everybody else with the second. -/
def twoWorkers : Routers 2 2 where
  listHash origin := if origin.source = requesterA then 0 else 1
  subsHash _ := 0

def originA (rid : Int) : Origin := ⟨requesterA, rid⟩

def originB (rid : Int) : Origin := ⟨requesterB, rid⟩

def listed : DSAResponse := { rid := 1, stream := some .opened }

/-- A later origin is sent the last response, while its worker still has an earlier one. -/
theorem engines_agree_later_origin :
    ∃ run : EngineRun 2 2,
      received (originA 102) run.simpleSent = [{ listed with rid := 102 }] ∧
      ((∀ o, received o run.pooledSent = received o run.simpleSent) ∧
        run.pooledReturned = run.simpleReturned ∧
        ∀ call, EngineCondition twoWorkers run call →
          (run.simple.call call).isSome = (run.pooled.call twoWorkers call).isSome) := by
  have hrun : ∃ run, Reachable (EngineRun.call twoWorkers) (EngineCondition twoWorkers)
      .initial run ∧ received (originA 102) run.simpleSent = [{ listed with rid := 102 }] :=
    Reachable.exists_of_run
      [.addListOrigin 1 (originA 101), .addListOrigin 1 (originB 5), .deliverListResponse listed,
        .addListOrigin 1 (originA 102)] (by decide +kernel)
  obtain ⟨run, hreached, hsent⟩ := hrun
  exact ⟨run, hsent, engines_agree hreached⟩

/-- The worker of A loses its last origin and with it the last response; the single registry
keeps both for B's sake.  A's next origin is sent the last response by one engine only. -/
theorem later_origin_not_sent :
    ∃ run : EngineRun 2 2, Reachable (EngineRun.call twoWorkers) AnyStep .initial run ∧
      received (originA 102) run.simpleSent = [{ listed with rid := 102 }] ∧
      received (originA 102) run.pooledSent = [] :=
  Reachable.exists_of_run
    [.addListOrigin 1 (originA 101), .addListOrigin 1 (originB 5), .deliverListResponse listed,
      .removeListOrigin (originA 101), .addListOrigin 1 (originA 102)] (by decide +kernel)

end DsaBroker
