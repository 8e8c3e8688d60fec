import DsaBroker.PathSplitting
import DsaBroker.ResponderRuns

/-!
# Requests that fail

The requests of an envelope are handled one by one in a `try`, and an exception is logged and
forgotten.  That is safe if a handler that throws has done nothing before.  Handlers issue ids and
persist events as they go, so it rests on the order in which they do things: whatever may throw is
looked up first (`failing_request_leaves_no_trace`).
-/

namespace DsaBroker

/-! ### Which requests fail -/

/-- An action lacks a parameter, or its name is `null`, or there is not just one path or SID. -/
def fails (link : Link) : DSARequest → Bool
  | .invoke _ path params _ =>
      if endsWith path (slash :: addAttributeAction) then
        ((params.get (str "name")).bind (textOf link)).isNone || (params.get (str "value")).isNone
      else endsWith path (slash :: setValueAction) && (params.get (str "value")).isNone
  | .subscribe _ paths => (onlyElement paths).isNone
  | .unsubscribe _ sids => (onlyElement sids).isNone
  | _ => false

/-- The handler throws, whatever it has persisted or sent before. -/
def Throws (handler : Handling HandlerResult) (p : Processing) : Prop :=
  ∃ thrown p', handler.run p = (.error thrown, p')

section

variable [ScanOrder Int] {link : Link} {sender : Routee} {p : Processing}

/-- **A handler that throws has done nothing.** -/
theorem unchanged_of_throws {request : DSARequest} {thrown : Thrown} {p' : Processing}
    (h : (requestHandler link sender request).run p = (.error thrown, p')) :
    p' = p ∧ requestAction link sender p.state request = .nothing := by
  rcases performs_request link sender p request with ⟨other, hrun, hnothing⟩ | hrun
  · cases hrun.symm.trans h
    exact ⟨rfl, hnothing⟩
  · cases hrun.symm.trans h

theorem run_handleCloseRequest_ok (sender : Routee) (p : Processing) (rid : Int) :
    ∃ result p', (handleCloseRequest sender rid).run p = (.ok result, p') := by
  simp only [handleCloseRequest, run_bind, run_registries]
  cases p.state.ridRegistry.lookupByOrigin ⟨sender, rid⟩ with
  | some record => exact ⟨_, _, rfl⟩
  | none =>
    simp only [run_bind, removeListOrigin, run_registries, run_removeOrigin]
    rcases p.state.listRegistry.removal ⟨sender, rid⟩ with _ | ⟨targetId, _ | _⟩
    · exact ⟨_, _, rfl⟩
    · exact ⟨_, _, rfl⟩
    · simp only [if_true, run_bind, run_registries]
      cases p.state.ridRegistry.lookupByTargetId targetId with
      | none => exact ⟨_, _, rfl⟩
      | some record => exact ⟨_, _, rfl⟩

theorem throws_of_fails {request : DSARequest} (h : fails link request = true) :
    Throws (requestHandler link sender request) p := by
  cases request with
  | invoke rid path params permit =>
    simp only [fails] at h
    simp only [Throws, requestHandler, handleInvokeRequest]
    by_cases hadd : endsWith path (slash :: addAttributeAction) = true
    · rw [if_pos hadd] at h ⊢
      cases hname : params.get (str "name") with
      | none =>
        refine ⟨.noSuchElement, p, ?_⟩
        simp only [run_bind, run_getOrThrow_none]
      | some nameValue =>
        rw [hname, Option.bind_some] at h
        simp only [run_bind, run_getOrThrow_some, run_toText]
        cases htext : textOf link nameValue with
        | none => exact ⟨_, _, rfl⟩
        | some name =>
          rw [htext, Option.isNone_some, Bool.false_or, Option.isNone_iff_eq_none] at h
          refine ⟨.noSuchElement, p, ?_⟩
          simp only [h, run_getOrThrow_none]
    · rw [if_neg hadd, Bool.and_eq_true, Option.isNone_iff_eq_none] at h
      rw [if_neg hadd, if_pos h.1]
      refine ⟨.noSuchElement, p, ?_⟩
      simp only [h.2, run_bind, run_getOrThrow_none]
  | subscribe rid paths =>
    have hnone : onlyElement paths = none := by simpa [fails] using h
    refine ⟨.assertionFailed, p, ?_⟩
    simp only [requestHandler, handleSubscribeRequest, hnone, run_bind, run_getOrThrow_none]
  | unsubscribe rid sids =>
    have hnone : onlyElement sids = none := by simpa [fails] using h
    refine ⟨.assertionFailed, p, ?_⟩
    simp only [requestHandler, handleUnsubscribeRequest, hnone, run_bind, run_getOrThrow_none]
  | _ => exact absurd h Bool.false_ne_true

/-- An action of the broker fails without its parameters. -/
theorem fails_of_nothing_invoke {s : ResponderState} {rid : Int} {path : Str} {params : DSAMap}
    {permit : Option Str}
    (h : requestAction link sender s (.invoke rid path params permit) = .nothing) :
    fails link (.invoke rid path params permit) = true := by
  simp only [requestAction, actionOf] at h
  simp only [fails]
  by_cases hadd : endsWith path (slash :: addAttributeAction) = true
  · rw [if_pos hadd] at h ⊢
    cases hname : (params.get (str "name")).bind (textOf link) with
    | none => rfl
    | some name =>
      cases hvalue : params.get (str "value") with
      | none => rfl
      | some value =>
        rw [hname, hvalue] at h
        cases h
  · rw [if_neg hadd] at h ⊢
    by_cases hset : endsWith path (slash :: setValueAction) = true
    · rw [if_pos hset] at h
      rw [hset, Bool.true_and]
      cases hvalue : params.get (str "value") with
      | none => rfl
      | some value =>
        rw [hvalue] at h
        cases h
    · rw [if_neg hset] at h
      cases h

/-- A request other than CLOSE for which nothing is done is one that fails. -/
theorem fails_of_nothing {s : ResponderState} {request : DSARequest}
    (h : requestAction link sender s request = .nothing) (hclose : ∀ rid, request ≠ .close rid) :
    fails link request = true := by
  -- a handler that does nothing has thrown, but for CLOSE: a request of no known call is no error
  cases request with
  | list rid path =>
    simp only [requestAction, lookups, actionOf] at h
    split at h
    · cases h
    · cases h
  | set rid path value permit =>
    simp only [requestAction, actionOf] at h
    by_cases hattribute : isAttribute path = true
    · -- the name of the attribute is always there
      obtain ⟨node, tail, hsplit, -⟩ := isAttribute_splitPath hattribute
      rw [if_pos hattribute, hsplit] at h
      cases h
    · rw [if_neg hattribute] at h
      cases h
  | remove rid path => cases h
  | invoke rid path params permit => exact fails_of_nothing_invoke h
  | subscribe rid paths =>
    simp only [requestAction, lookups, actionOf] at h
    simp only [fails]
    -- without exactly one path the assertion fails, with one the request is answered or handed on
    cases hpaths : onlyElement paths with
    | none => rfl
    | some srcPath =>
      rw [hpaths, Option.bind_some] at h
      cases hlookup : s.sidRegistry.lookupByPath srcPath.path with
      | none => rw [hlookup] at h; cases h
      | some tgtSid => rw [hlookup] at h; cases h
  | unsubscribe rid sids =>
    simp only [requestAction, lookups, actionOf] at h
    simp only [fails]
    cases hsids : onlyElement sids with
    | none => rfl
    | some sid =>
      rw [hsids, Option.bind_some] at h
      rcases hremoval : s.subsRegistry.removal ⟨sender, sid⟩ with _ | ⟨targetSid, _ | _⟩
      · rw [hremoval] at h; cases h
      · rw [hremoval] at h; cases h
      · rw [hremoval] at h; cases h
  | close rid => exact absurd rfl (hclose rid)

/-- Whether a request fails does not depend on the registries. -/
theorem throws_iff {request : DSARequest} :
    Throws (requestHandler link sender request) p ↔ fails link request = true := by
  refine ⟨?_, throws_of_fails⟩
  rintro ⟨thrown, p', hrun⟩
  refine fails_of_nothing (unchanged_of_throws hrun).2 ?_
  rintro rid rfl
  obtain ⟨result, q, hok⟩ := run_handleCloseRequest_ok sender p rid
  cases hok.symm.trans hrun

/-! ### Envelopes with a request that fails -/

theorem processRequests_append (before later : List DSARequest) (p : Processing) :
    processRequests link sender p (before ++ later) =
      ((processRequests link sender p before).1 ++
          (processRequests link sender (processRequests link sender p before).2 later).1,
        (processRequests link sender (processRequests link sender p before).2 later).2) := by
  induction before generalizing p with
  | nil => rfl
  | cons request before ih => simp only [List.cons_append, processRequests, ih]

theorem length_processRequests (requests : List DSARequest) (p : Processing) :
    (processRequests link sender p requests).1.length = requests.length := by
  induction requests generalizing p with
  | nil => rfl
  | cons request rest ih => simp only [processRequests, List.length_cons, ih]

theorem processRequests_cons_of_throws {request : DSARequest}
    (h : Throws (requestHandler link sender request) p) (later : List DSARequest) :
    processRequests link sender p (request :: later) =
      (.empty :: (processRequests link sender p later).1,
        (processRequests link sender p later).2) := by
  obtain ⟨thrown, p', hrun⟩ := h
  obtain ⟨rfl, -⟩ := unchanged_of_throws hrun
  simp only [processRequests, processRequest, hrun]

omit [ScanOrder Int] in
theorem flatten_append_empty (first second : List HandlerResult) :
    HandlerResult.flatten (first ++ .empty :: second) =
      HandlerResult.flatten (first ++ second) := by
  simp [HandlerResult.flatten, HandlerResult.empty]

/-- What comes of an envelope is what comes of its requests that do not fail. -/
theorem receive_filter_fails (link : Link) (sender : Routee) (s : ResponderState)
    (requests : List DSARequest) :
    receive link s (.requestEnvelope sender requests) =
      receive link s
        (.requestEnvelope sender (requests.filter fun request => !fails link request)) := by
  have hprocess : ∀ p : Processing,
      HandlerResult.flatten (processRequests link sender p requests).1 = HandlerResult.flatten
          (processRequests link sender p (requests.filter fun request => !fails link request)).1 ∧
        (processRequests link sender p requests).2 =
          (processRequests link sender p
            (requests.filter fun request => !fails link request)).2 := by
    induction requests with
    | nil => exact fun _ => ⟨rfl, rfl⟩
    | cons request rest ih =>
      intro p
      by_cases hfails : fails link request = true
      · rw [List.filter_cons_of_neg (by simp [hfails]),
          processRequests_cons_of_throws (throws_iff.mpr hfails) rest]
        exact ⟨(flatten_append_empty [] _).trans (ih p).1, (ih p).2⟩
      · rw [List.filter_cons_of_pos (by simpa using hfails)]
        obtain ⟨hresults, hafter⟩ := ih (processRequest link sender p request).2
        refine ⟨?_, hafter⟩
        simp only [HandlerResult.flatten, HandlerResult.mk.injEq] at hresults
        simp only [processRequests, HandlerResult.flatten, List.flatMap_cons, hresults]
  simp only [receive, (hprocess { state := s }).1, (hprocess { state := s }).2]

/-- **A failing request leaves no trace.**  If the handler of a request throws at its turn in an
envelope, the registries, the bindings, the attributes and the counters are as they were, nothing
was persisted and nothing sent; the requests before and after it come to the same results as without
it, and so does the envelope. -/
theorem failing_request_leaves_no_trace {s : ResponderState} {before later : List DSARequest}
    {request : DSARequest} {thrown : Thrown} {p' : Processing}
    (h : (requestHandler link sender request).run
      (processRequests link sender { state := s } before).2 = (.error thrown, p')) :
    p' = (processRequests link sender { state := s } before).2 ∧
    (∃ first second, first.length = before.length ∧
      (processRequests link sender { state := s } (before ++ request :: later)).1 =
        first ++ .empty :: second ∧
      (processRequests link sender { state := s } (before ++ later)).1 = first ++ second) ∧
    (processRequests link sender { state := s } (before ++ request :: later)).2 =
      (processRequests link sender { state := s } (before ++ later)).2 ∧
    receive link s (.requestEnvelope sender (before ++ request :: later)) =
      receive link s (.requestEnvelope sender (before ++ later)) := by
  have hwithout : processRequests link sender { state := s } (before ++ later) = _ :=
    processRequests_append ..
  have hwith : processRequests link sender { state := s } (before ++ request :: later) = _ :=
    processRequests_append ..
  rw [processRequests_cons_of_throws ⟨thrown, p', h⟩ later] at hwith
  refine ⟨(unchanged_of_throws h).1, ?_, ?_, ?_⟩
  · refine ⟨(processRequests link sender { state := s } before).1,
      (processRequests link sender (processRequests link sender { state := s } before).2 later).1,
      length_processRequests before { state := s }, ?_, ?_⟩
    · rw [hwith]
    · rw [hwithout]
  · rw [hwith, hwithout]
  · simp only [receive, hwith, hwithout, flatten_append_empty]

end

/-- A SUBSCRIBE without a path between a LIST and a REMOVE. -/
theorem failing_request_leaves_no_trace_subscribe :
    receive linkR .initial
        (.requestEnvelope requesterA [.list 101 blah, .subscribe 102 [], .remove 103 blah]) =
      receive linkR .initial (.requestEnvelope requesterA [.list 101 blah, .remove 103 blah]) ∧
    (receive linkR .initial
        (.requestEnvelope requesterA [.list 101 blah, .remove 103 blah])).map Outcome.toEndpoint =
      some [[.list 1 (str "/blah"), .remove 2 (str "/blah")]] :=
  ⟨(@failing_request_leaves_no_trace _ linkR requesterA .initial [.list 101 blah] [.remove 103 blah]
      (.subscribe 102 []) .assertionFailed _ rfl).2.2.2, by decide +kernel⟩

end DsaBroker
