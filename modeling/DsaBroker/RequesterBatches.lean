import DsaBroker.RequesterBehavior
import DsaBroker.Runs

/-!
# Requests handled together and one by one

The requests of one message are all resolved from the maps that the message found, since the
handlers of its persist calls run after it.  Handled as messages of their own, each request
finds the maps as the requests before it left them.  The two agree exactly if every CLOSE and
UNSUBSCRIBE finds the same target either way (`batch_equivalent_iff`); what the requests
before it leave can be told from the requests alone (`ridTargetAfter`, `sidTargetAfter`).
-/

namespace DsaBroker

namespace RequesterState

/-- The parts into which the requests of a message are split. -/
def parts (requests : List DSARequest) : List DSARequest := requests.flatMap DSARequest.split

/-- The target that a request is resolved to. -/
def foundTarget (s : RequesterState) (request : DSARequest) : Option Str :=
  (s.resolveTarget request).map Prod.fst

/-- The requests handled as messages of their own: the envelopes that are sent, and the state
after the last. -/
def oneByOne (s : RequesterState) : List DSARequest → List (Str × List DSARequest) × RequesterState
  | [] => ([], s)
  | request :: rest =>
      let outcome := s.processRequests [request]
      let later := oneByOne (s.after outcome.persisted) rest
      (outcome.routed ++ later.1, later.2)

/-- What envelopes carry to a target. -/
def requestsTo (target : Str) (envelopes : List (Str × List DSARequest)) : List DSARequest :=
  (Grouping.valuesOf target envelopes).flatten

/-- Handling the requests as one message comes to the same as handling them one by one: the
same requests to the same targets, in the same order per target, and the same maps. -/
structure BatchEquivalent (s : RequesterState) (requests : List DSARequest) : Prop where
  routed : ∀ target, requestsTo target (s.processRequests requests).routed =
    requestsTo target (s.oneByOne requests).1
  targetsByRid : (s.after (s.processRequests requests).persisted).targetsByRid =
    (s.oneByOne requests).2.targetsByRid
  targetsBySid : (s.after (s.processRequests requests).persisted).targetsBySid =
    (s.oneByOne requests).2.targetsBySid

/-! ### The condition -/

/-- The target of a RID once a part has been handled. -/
def ridTargetAfter (rid : Int) (target : Option Str) : DSARequest → Option Str
  | .list other path | .invoke other path _ _ =>
      if other = rid then some (resolveLinkPath path) else target
  | .close other => if other = rid then none else target
  | _ => target

/-- The target of a SID once a part has been handled. -/
def sidTargetAfter (sid : Int) (target : Option Str) : DSARequest → Option Str
  | .subscribe _ [path] =>
      if path.sid = sid ∧ (requestedQos path).isSome then some (resolveLinkPath path.path)
      else target
  | .unsubscribe _ (other :: _) => if other = sid then none else target
  | _ => target

/-- What earlier requests of the message leave for a CLOSE or an UNSUBSCRIBE is what the
message found. -/
def UnaffectedBy (s : RequesterState) (earlier : List DSARequest) : DSARequest → Prop
  | .close rid =>
      (parts earlier).foldl (ridTargetAfter rid) (s.targetsByRid rid) = s.targetsByRid rid
  | .unsubscribe _ sids => ∀ sid ∈ sids,
      (parts earlier).foldl (sidTargetAfter sid) ((s.targetsBySid sid).map PathAndQos.path) =
        (s.targetsBySid sid).map PathAndQos.path
  | _ => True

/-! ### What a part makes of the maps -/

/-- The maps after a part that is resolved from them. -/
def settled (s : RequesterState) : DSARequest → RequesterState
  | .list rid path | .invoke rid path _ _ =>
      { s with targetsByRid := Function.update s.targetsByRid rid (some (resolveLinkPath path)) }
  | .close rid => { s with targetsByRid := Function.update s.targetsByRid rid none }
  | .subscribe _ [path] =>
      match requestedQos path with
      | some qos =>
          { s with
            targetsBySid := Function.update s.targetsBySid path.sid
              (some ⟨resolveLinkPath path.path, qos⟩) }
      | none => s
  | .unsubscribe _ (sid :: _) => s.removeTargetBy [sid]
  | _ => s

/-- The events of a part, resolved from the maps `v`, change the maps `s` as if it had been
resolved from these, unless it is found there only. -/
theorem after_route {v s : RequesterState} {request : DSARequest}
    (h : v.foundTarget request = none → s.foundTarget request = none) :
    s.after (v.route request).persisted = s.settled request := by
  cases request with
  | list rid path => rfl
  | set rid path value permit => rfl
  | remove rid path => rfl
  | invoke rid path params permit => rfl
  | subscribe rid paths =>
    rcases paths with _ | ⟨path, _ | ⟨second, rest⟩⟩
    · -- only the first of the paths counts, and only an only path is cached
      rfl
    · simp only [route, resolveTarget, List.head?_cons, Option.map_some, cacheRequestTarget,
        onlyElement, Option.bind_some, settled]
      cases requestedQos path <;> rfl
    · rfl
  | unsubscribe rid sids =>
    cases sids with
    | nil => rfl
    | cons sid rest =>
      simp only [foundTarget, resolveTarget, List.head?_cons, Option.bind_some,
        Option.map_map, Option.map_eq_none_iff] at h
      simp only [route, resolveTarget, List.head?_cons, Option.bind_some, settled]
      cases hv : v.targetsBySid sid with
      | some target => rfl
      | none =>
        have hnone : Function.update s.targetsBySid sid none = s.targetsBySid := by
          rw [← h hv, Function.update_eq_self]
        simp only [Option.map_none, after_nil, removeTargetBy, List.foldl_cons, List.foldl_nil,
          hnone]
  | close rid =>
    simp only [foundTarget, resolveTarget, Option.map_map, Option.map_eq_none_iff] at h
    simp only [route, resolveTarget, settled]
    cases hv : v.targetsByRid rid with
    | some target => rfl
    | none =>
      have hnone : Function.update s.targetsByRid rid none = s.targetsByRid := by
        rw [← h hv, Function.update_eq_self]
      simp only [Option.map_none, after_nil, hnone]

theorem target_route_congr {v s : RequesterState} {request : DSARequest}
    (h : v.foundTarget request = s.foundTarget request) :
    (v.route request).target = (s.route request).target := by
  have hroute : ∀ u : RequesterState, (u.route request).target =
      (u.foundTarget request).bind fun target =>
        (cacheRequestTarget request target).map fun _ => target := by
    intro u
    simp only [route, foundTarget]
    rcases u.resolveTarget request with _ | ⟨target, removed⟩
    · rfl
    · simp only [Option.map_some, Option.bind_some]
      cases cacheRequestTarget request target <;> rfl
  rw [hroute, hroute, h]

theorem foundTarget_close (s : RequesterState) (rid : Int) :
    s.foundTarget (.close rid) = s.targetsByRid rid := by
  simp only [foundTarget, resolveTarget]
  cases s.targetsByRid rid <;> rfl

theorem foundTarget_unsubscribe (s : RequesterState) (rid sid : Int) :
    s.foundTarget (.unsubscribe rid [sid]) = (s.targetsBySid sid).map PathAndQos.path := by
  simp only [foundTarget, resolveTarget, List.head?_cons, Option.bind_some]
  cases s.targetsBySid sid <;> rfl

/-! ### The last RID plays no part -/

def withRid (s : RequesterState) (rid : Int) : RequesterState := { s with lastRid := rid }

@[simp] theorem foundTarget_withRid (s : RequesterState) (rid : Int) (request : DSARequest) :
    (s.withRid rid).foundTarget request = s.foundTarget request := by
  cases request <;> rfl

theorem settled_withRid (s : RequesterState) (rid : Int) (request : DSARequest) :
    (s.withRid rid).settled request = (s.settled request).withRid rid := by
  cases request with
  | subscribe _ paths =>
    rcases paths with _ | ⟨path, _ | ⟨second, rest⟩⟩
    · rfl
    · simp only [settled]
      cases requestedQos path <;> rfl
    · rfl
  | unsubscribe _ sids => cases sids <;> rfl
  | _ => rfl

theorem foldl_settled_withRid (batch : List DSARequest) (s : RequesterState) (rid : Int) :
    batch.foldl settled (s.withRid rid) = (batch.foldl settled s).withRid rid := by
  induction batch generalizing s with
  | nil => rfl
  | cons part rest ih => rw [List.foldl_cons, settled_withRid, ih, List.foldl_cons]

/-! ### Whole batches -/

theorem targetsByRid_foldl_settled (rid : Int) (batch : List DSARequest) (s : RequesterState) :
    (batch.foldl settled s).targetsByRid rid =
      batch.foldl (ridTargetAfter rid) (s.targetsByRid rid) := by
  have hstep : ∀ (s : RequesterState) (part : DSARequest),
      (s.settled part).targetsByRid rid = ridTargetAfter rid (s.targetsByRid rid) part := by
    intro s part
    cases part with
    | list other path =>
      simp only [settled, ridTargetAfter, Function.update_apply, @eq_comm _ rid]
    | invoke other path params permit =>
      simp only [settled, ridTargetAfter, Function.update_apply, @eq_comm _ rid]
    | close other => simp only [settled, ridTargetAfter, Function.update_apply, @eq_comm _ rid]
    | subscribe _ paths =>
      rcases paths with _ | ⟨path, _ | ⟨second, rest⟩⟩
      · rfl
      · simp only [settled, ridTargetAfter]
        cases requestedQos path <;> rfl
      · rfl
    | unsubscribe _ sids => cases sids <;> rfl
    | set _ _ _ _ => rfl
    | remove _ _ => rfl
  induction batch generalizing s with
  | nil => rfl
  | cons part rest ih => rw [List.foldl_cons, ih, hstep, List.foldl_cons]

theorem targetsBySid_foldl_settled (sid : Int) (batch : List DSARequest) (s : RequesterState) :
    ((batch.foldl settled s).targetsBySid sid).map PathAndQos.path =
      batch.foldl (sidTargetAfter sid) ((s.targetsBySid sid).map PathAndQos.path) := by
  have hstep : ∀ (s : RequesterState) (part : DSARequest),
      ((s.settled part).targetsBySid sid).map PathAndQos.path =
        sidTargetAfter sid ((s.targetsBySid sid).map PathAndQos.path) part := by
    intro s part
    cases part with
    | subscribe _ paths =>
      rcases paths with _ | ⟨path, _ | ⟨second, rest⟩⟩
      · rfl
      · simp only [settled, sidTargetAfter]
        cases requestedQos path with
        | none => simp only [Option.isSome_none, Bool.false_eq_true, and_false, if_false]
        | some qos =>
          simp only [Option.isSome_some, and_true, Function.update_apply, @eq_comm _ sid]
          split <;> rfl
      · rfl
    | unsubscribe _ sids =>
      cases sids with
      | nil => rfl
      | cons other rest =>
        simp only [settled, sidTargetAfter, targetsBySid_removeTargetBy, List.mem_singleton,
          @eq_comm _ sid]
        split <;> rfl
    | _ => rfl
  induction batch generalizing s with
  | nil => rfl
  | cons part rest ih => rw [List.foldl_cons, ih, hstep, List.foldl_cons]

/-- The maps `v` resolve the part, or the maps `s` do not either. -/
def NotMissed (v s : RequesterState) (part : DSARequest) : Prop :=
  v.foundTarget part = none → s.foundTarget part = none

/-- The parts of one request do not get in each other's way. -/
theorem notMissed_settled {v s : RequesterState} {request part other : DSARequest}
    (hpart : part ∈ request.split) (hother : other ∈ request.split) (h : NotMissed v s part) :
    NotMissed v (s.settled other) part := by
  cases request with
  | subscribe rid paths =>
    obtain ⟨path, _, rfl⟩ := List.mem_map.mp hpart
    rintro ⟨⟩
  | unsubscribe rid sids =>
    obtain ⟨sid, _, rfl⟩ := List.mem_map.mp hpart
    obtain ⟨removed, _, rfl⟩ := List.mem_map.mp hother
    intro hv
    have hnone := h hv
    rw [foundTarget_unsubscribe, Option.map_eq_none_iff] at hnone ⊢
    rw [settled, targetsBySid_removeTargetBy]
    split
    · rfl
    · exact hnone
  | close rid =>
    rw [List.mem_singleton.mp hpart, List.mem_singleton.mp hother]
    intro _
    rw [foundTarget_close, settled]
    exact Function.update_self ..
  | list rid path =>
    rw [List.mem_singleton.mp hpart]
    rintro ⟨⟩
  | set rid path value permit =>
    rw [List.mem_singleton.mp hpart]
    rintro ⟨⟩
  | remove rid path =>
    rw [List.mem_singleton.mp hpart]
    rintro ⟨⟩
  | invoke rid path params permit =>
    rw [List.mem_singleton.mp hpart]
    rintro ⟨⟩

theorem along_split {v s : RequesterState} {request : DSARequest}
    (h : ∀ part ∈ request.split, NotMissed v s part) :
    Along settled (NotMissed v) s request.split := by
  apply Along.of_invariant (fun s => ∀ part ∈ request.split, NotMissed v s part)
  · exact fun s part hpart hs => hs part hpart
  · exact fun s other hother hs part hpart => notMissed_settled hpart hother (hs part hpart)
  · exact h

theorem after_parts {v s : RequesterState} {batch : List DSARequest}
    (h : Along settled (NotMissed v) s batch) :
    s.after (batch.flatMap fun part => (v.route part).persisted) = batch.foldl settled s := by
  induction batch generalizing s with
  | nil => rfl
  | cons part rest ih =>
    obtain ⟨hpart, hrest⟩ := h
    rw [List.flatMap_cons, after_append, after_route hpart, ih hrest, List.foldl_cons]

/-- The state after one message. -/
theorem after_processRequests {s : RequesterState} {requests : List DSARequest}
    (h : Along settled (NotMissed s) s (parts requests)) :
    s.after (s.processRequests requests).persisted =
      ((parts requests).foldl settled s).withRid
        ((requests.getLast?.map DSARequest.rid).getD s.lastRid) := by
  have hkept : ((parts requests).foldl settled s).lastRid = s.lastRid := by
    have hcommute := foldl_settled_withRid (parts requests) s s.lastRid
    have hsame : s.withRid s.lastRid = s := rfl
    rw [hsame] at hcommute
    rw [hcommute]
    rfl
  have hparts : requests.flatMap DSARequest.split = parts requests := rfl
  rw [processRequests, hparts, after_append, after_parts h]
  cases requests.getLast? with
  | none =>
    rw [Option.map_none, Option.map_none, Option.getD_none, ← hkept]
    rfl
  | some last => rfl

theorem after_single (s : RequesterState) (request : DSARequest) :
    s.after (s.processRequests [request]).persisted =
      (request.split.foldl settled s).withRid request.rid := by
  have hparts : parts [request] = request.split := List.append_nil _
  rw [after_processRequests, hparts]
  · rfl
  · rw [hparts]
    exact along_split fun _ _ hv => hv

theorem parts_cons (request : DSARequest) (rest : List DSARequest) :
    parts (request :: rest) = request.split ++ parts rest := List.flatMap_cons

theorem parts_append (requests later : List DSARequest) :
    parts (requests ++ later) = parts requests ++ parts later := List.flatMap_append

theorem oneByOne_append (s : RequesterState) (requests later : List DSARequest) :
    s.oneByOne (requests ++ later) =
      ((s.oneByOne requests).1 ++ ((s.oneByOne requests).2.oneByOne later).1,
        ((s.oneByOne requests).2.oneByOne later).2) := by
  induction requests generalizing s with
  | nil => rfl
  | cons request rest ih => simp only [List.cons_append, oneByOne, ih, List.append_assoc]

/-- The state after requests that are handled one by one. -/
theorem state_oneByOne (s : RequesterState) (requests : List DSARequest) :
    ∃ rid, (s.oneByOne requests).2 = ((parts requests).foldl settled s).withRid rid := by
  induction requests generalizing s with
  | nil => exact ⟨s.lastRid, rfl⟩
  | cons request rest ih =>
    obtain ⟨rid, hrest⟩ := ih (s.after (s.processRequests [request]).persisted)
    refine ⟨rid, ?_⟩
    rw [oneByOne, hrest, after_single, foldl_settled_withRid, parts_cons, List.foldl_append]
    rfl

/-! ### What is routed -/

/-- A message sends the parts that are resolved to the target. -/
theorem requestsTo_processRequests (s : RequesterState) (requests : List DSARequest)
    (target : Str) :
    requestsTo target (s.processRequests requests).routed =
      (parts requests).filter fun part => (s.route part).target = some target := by
  rw [requestsTo, processRequests, batchAndRoute, Grouping.flatten_valuesOf_groupBy, routed, parts]
  induction requests.flatMap DSARequest.split with
  | nil => rfl
  | cons part rest ih =>
    rw [List.filterMap_cons, List.filter_cons]
    cases htarget : (s.route part).target with
    | none =>
      rw [Option.map_none]
      exact ih
    | some found =>
      simp only [Option.map_some, Grouping.valuesOf, List.filter_cons, Option.some.injEq,
        decide_eq_true_eq] at ih ⊢
      split
      · rw [List.map_cons, ih]
      · exact ih

theorem requestsTo_append (target : Str) (envelopes later : List (Str × List DSARequest)) :
    requestsTo target (envelopes ++ later) =
      requestsTo target envelopes ++ requestsTo target later := by
  rw [requestsTo, Grouping.valuesOf_append, List.flatten_append]
  rfl

/-- Nothing is sent that is no part of a request. -/
theorem requestsTo_oneByOne_sublist (s : RequesterState) (requests : List DSARequest)
    (target : Str) : (requestsTo target (s.oneByOne requests).1).Sublist (parts requests) := by
  induction requests generalizing s with
  | nil => exact List.Sublist.refl _
  | cons request rest ih =>
    rw [oneByOne, requestsTo_append, parts_cons, requestsTo_processRequests]
    have hparts : parts [request] = request.split := List.append_nil _
    rw [hparts]
    exact List.filter_sublist.append (ih _)

/-! ### The law -/

/-- Every part is resolved from the maps `v` as from the maps that the requests before it left,
starting from `s`. -/
def ResolvedAlike (v s : RequesterState) (requests : List DSARequest) : Prop :=
  ∀ before request later, requests = before ++ request :: later → ∀ part ∈ request.split,
    v.foundTarget part = ((parts before).foldl settled s).foundTarget part

theorem ResolvedAlike.cons {v s : RequesterState} {request : DSARequest} {rest : List DSARequest}
    (h : ResolvedAlike v s (request :: rest)) :
    (∀ part ∈ request.split, v.foundTarget part = s.foundTarget part) ∧
      ∀ rid, ResolvedAlike v ((request.split.foldl settled s).withRid rid) rest := by
  constructor
  · exact h [] request rest rfl
  · intro rid before next later hrest part hpart
    rw [foldl_settled_withRid, foundTarget_withRid, ← List.foldl_append, ← parts_cons]
    apply h (request :: before) next later _ part hpart
    rw [hrest, List.cons_append]

theorem along_of_resolvedAlike {v s : RequesterState} {requests : List DSARequest}
    (h : ResolvedAlike v s requests) : Along settled (NotMissed v) s (parts requests) := by
  induction requests generalizing s with
  | nil => exact trivial
  | cons request rest ih =>
    obtain ⟨hfirst, hrest⟩ := h.cons
    rw [parts_cons, along_append]
    constructor
    · apply along_split
      intro part hpart hv
      rw [← hfirst part hpart, hv]
    · exact ih (hrest (request.split.foldl settled s).lastRid)

theorem routed_of_resolvedAlike {v s : RequesterState} {requests : List DSARequest}
    (h : ResolvedAlike v s requests) (target : Str) :
    (parts requests).filter (fun part => (v.route part).target = some target) =
      requestsTo target (s.oneByOne requests).1 := by
  induction requests generalizing s with
  | nil => rfl
  | cons request rest ih =>
    obtain ⟨hfirst, hrest⟩ := h.cons
    have hparts : parts [request] = request.split := List.append_nil _
    rw [oneByOne, requestsTo_append, requestsTo_processRequests, hparts, after_single,
      ← ih (hrest request.rid), parts_cons, List.filter_append]
    congr 1
    apply List.filter_congr
    intro part hpart
    rw [target_route_congr (hfirst part hpart)]

theorem target_route_close (s : RequesterState) (rid : Int) :
    (s.route (.close rid)).target = s.foundTarget (.close rid) := by
  simp only [route, foundTarget, resolveTarget]
  cases s.targetsByRid rid <;> rfl

theorem target_route_unsubscribe (s : RequesterState) (rid : Int) (sids : List Int) :
    (s.route (.unsubscribe rid sids)).target = s.foundTarget (.unsubscribe rid sids) := by
  simp only [route, foundTarget, resolveTarget]
  cases sids with
  | nil => rfl
  | cons sid rest =>
    simp only [List.head?_cons, Option.bind_some]
    cases s.targetsBySid sid <;> rfl

/-- A part that is not resolved by its path is routed wherever it is resolved to. -/
theorem resolved_by_path_or_routed (part : DSARequest) :
    (∀ v s : RequesterState, v.foundTarget part = s.foundTarget part) ∨
      ∀ s : RequesterState, (s.route part).target = s.foundTarget part := by
  cases part with
  | close rid => exact Or.inr fun s => s.target_route_close rid
  | unsubscribe rid sids => exact Or.inr fun s => s.target_route_unsubscribe rid sids
  | _ => exact Or.inl fun _ _ => rfl

/-- What is routed one by one, with one request singled out. -/
theorem requestsTo_oneByOne_split (s : RequesterState) (before later : List DSARequest)
    (request : DSARequest) (target : Str) :
    ∃ t : RequesterState, requestsTo target (s.oneByOne (before ++ request :: later)).1 =
      requestsTo target (s.oneByOne before).1 ++
        (request.split.filter (fun part =>
            (((parts before).foldl settled s).route part).target = some target) ++
          requestsTo target (t.oneByOne later).1) := by
  obtain ⟨rid, hstate⟩ := state_oneByOne s before
  have hparts : parts [request] = request.split := List.append_nil _
  refine ⟨((s.oneByOne before).2).after
    ((s.oneByOne before).2.processRequests [request]).persisted, ?_⟩
  rw [oneByOne_append, requestsTo_append, oneByOne, requestsTo_append, requestsTo_processRequests,
    hparts]
  congr 2
  apply List.filter_congr
  intro part _
  rw [hstate, target_route_congr (foundTarget_withRid _ rid part)]

/-- If the same is routed, every part has been resolved alike: a part whose target is found in one
of the two states only would be routed in one of the two ways only. -/
theorem resolvedAlike_of_routed {s : RequesterState} {requests : List DSARequest}
    (h : ∀ target, requestsTo target (s.processRequests requests).routed =
      requestsTo target (s.oneByOne requests).1) : ResolvedAlike s s requests := by
  rintro before request later rfl part hpart
  rcases resolved_by_path_or_routed part with hpath | hrouted
  · exact hpath _ _
  have hroutes : ∀ target, ∃ t : RequesterState,
      (parts before ++ (request.split ++ parts later)).filter
          (fun part => (s.route part).target = some target) =
        requestsTo target (s.oneByOne before).1 ++
          (request.split.filter (fun part =>
              (((parts before).foldl settled s).route part).target = some target) ++
            requestsTo target (t.oneByOne later).1) := by
    intro target
    obtain ⟨t, ht⟩ := requestsTo_oneByOne_split s before later request target
    rw [← h target, requestsTo_processRequests, parts_append, parts_cons] at ht
    exact ⟨t, ht⟩
  cases hsingle : ((parts before).foldl settled s).foundTarget part with
  | some target =>
    -- one by one it is routed, so together it is routed there too
    obtain ⟨t, ht⟩ := hroutes target
    have hhere : part ∈ request.split.filter (fun part =>
        (((parts before).foldl settled s).route part).target = some target) := by
      rw [List.mem_filter, hrouted, hsingle]
      exact ⟨hpart, decide_eq_true rfl⟩
    have hsent := List.mem_append_right (requestsTo target (s.oneByOne before).1)
      (List.mem_append_left (requestsTo target (t.oneByOne later).1) hhere)
    rw [← ht, List.mem_filter, hrouted] at hsent
    exact of_decide_eq_true hsent.2
  | none =>
    cases htogether : s.foundTarget part with
    | none => rfl
    | some target =>
      -- together every copy of the part is routed, one by one this copy is not
      exfalso
      obtain ⟨t, ht⟩ := hroutes target
      have hall : decide ((s.route part).target = some target) = true := by
        rw [hrouted, htogether]
        exact decide_eq_true rfl
      have hcopies : ((parts before ++ (request.split ++ parts later)).filter
          (fun part => (s.route part).target = some target)).count part =
          (parts before ++ (request.split ++ parts later)).count part := List.count_filter hall
      have hmissed : (request.split.filter (fun part =>
          (((parts before).foldl settled s).route part).target = some target)).count part = 0 := by
        rw [List.count_eq_zero, List.mem_filter, hrouted, hsingle]
        rintro ⟨_, htarget⟩
        cases of_decide_eq_true htarget
      have hbefore := (requestsTo_oneByOne_sublist s before target).count_le part
      have hlater := (requestsTo_oneByOne_sublist t later target).count_le part
      have hhere : 0 < request.split.count part := List.count_pos_iff.mpr hpart
      rw [ht, List.count_append, List.count_append, List.count_append, List.count_append,
        hmissed] at hcopies
      omega

theorem resolvedAlike_iff_unaffected {s : RequesterState} {requests : List DSARequest} :
    ResolvedAlike s s requests ↔
      ∀ before request later, requests = before ++ request :: later →
        s.UnaffectedBy before request := by
  have hiff : ∀ before request, (∀ part ∈ request.split,
      s.foundTarget part = ((parts before).foldl settled s).foundTarget part) ↔
        s.UnaffectedBy before request := by
    intro before request
    cases request with
    | close rid =>
      simp only [DSARequest.split, List.mem_singleton, forall_eq, foundTarget_close, UnaffectedBy,
        targetsByRid_foldl_settled]
      exact eq_comm
    | unsubscribe rid sids =>
      simp only [DSARequest.split, List.forall_mem_map, foundTarget_unsubscribe, UnaffectedBy,
        targetsBySid_foldl_settled]
      exact forall₂_congr fun _ _ => eq_comm
    | subscribe rid paths =>
      simp only [UnaffectedBy, iff_true]
      intro part hpart
      obtain ⟨path, _, rfl⟩ := List.mem_map.mp hpart
      rfl
    | _ =>
      simp only [DSARequest.split, List.mem_singleton, forall_eq, UnaffectedBy, iff_true]
      rfl
  constructor
  · exact fun h before request later hsplit => (hiff before request).mp (h _ _ _ hsplit)
  · exact fun h before request later hsplit => (hiff before request).mpr (h _ _ _ hsplit)

/-- **Batch equivalence.**  Handling requests as one message comes to the same as handling them
one by one exactly if no CLOSE or UNSUBSCRIBE is affected by the requests before it. -/
theorem batch_equivalent_iff (s : RequesterState) (requests : List DSARequest) :
    s.BatchEquivalent requests ↔
      ∀ before request later, requests = before ++ request :: later →
        s.UnaffectedBy before request := by
  rw [← resolvedAlike_iff_unaffected]
  constructor
  · exact fun h => resolvedAlike_of_routed h.routed
  · intro h
    obtain ⟨rid, hstate⟩ := state_oneByOne s requests
    have htogether := after_processRequests (along_of_resolvedAlike h)
    constructor
    · intro target
      rw [requestsTo_processRequests]
      exact routed_of_resolvedAlike h target
    · rw [htogether, hstate]
      rfl
    · rw [htogether, hstate]
      rfl

/-- A subscription that is opened and closed in one message: the UNSUBSCRIBE is dropped, and
the SID keeps its target. -/
theorem batch_drops_unsubscribe :
    ¬ RequesterState.initial.BatchEquivalent
      [.subscribe 1 [⟨str "/downstream/R/blah", 1, none⟩], .unsubscribe 2 [1]] := by
  intro h
  have hkept := congrFun h.targetsBySid 1
  revert hkept
  decide +kernel

end RequesterState

end DsaBroker
