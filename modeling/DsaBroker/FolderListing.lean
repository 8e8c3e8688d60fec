import DsaBroker.Answerability
import DsaBroker.DSLinkFolderActor

/-!
# Who is told about new and removed links

A requester that has sent a LIST of the folder's root is to be told of every link that is
registered or removed until it closes that LIST: `listRid` is to be a target RID whose responses
reach all of them.

The folder keeps one `listRid`.  A LIST of the root under another spelling of the path is a call
of its own and takes it from the first one; and every CLOSE that the responder forwards clears
it, whatever it closes.  `ListingUndisturbed` excludes these, besides target RIDs that are given
out again while they are in use and a LIST that joins a call which the envelope has closed.
-/

namespace DsaBroker

/-- A folder and the origins of the LISTs of its root that have not been closed. -/
structure FolderRun where
  folder : DSLinkFolderActor
  listing : List Origin

def FolderRun.initial : FolderRun := ⟨.initial, []⟩

/-- The open LISTs of the root after a request. -/
def listingAfter (link : Link) (sender : Routee) (listing : List Origin) :
    DSARequest → List Origin
  | .list rid path =>
      if translatePath link.linkPath path = rootPath then
        Grouping.insertKey listing ⟨sender, rid⟩
      else listing
  | .close rid => listing.filter (· ≠ ⟨sender, rid⟩)
  | _ => listing

/-- The response is processed, and the origin gets its rows with the origin's own rid. -/
def Informs [ScanOrder Int] (link : Link) (s : ResponderState) (rsp : DSAResponse) (o : Origin) :
    Prop :=
  ∃ outcome adjusted attributes,
    receive link s (.responseMessage [rsp]) = some outcome ∧
    (rsp.updates.getD []).mapM (adjustedRow link) = some adjusted ∧
    (o.source, { rsp with rid := o.sourceId, updates := some (adjusted ++ attributes) })
      ∈ outcome.sent.flatMap Delivery.each

/-- `listRid` is a target RID whose responses reach the origin, and what the folder says of a
registered or removed link informs it. -/
structure Notified [ScanOrder Int] (settings : FolderSettings) (s : DSLinkFolderActor)
    (o : Origin) : Prop where
  reached : ∃ rid, s.listRid = some rid ∧ ∀ rsp : DSAResponse, rsp.rid = rid →
    ((rsp.updates.getD []).mapM (adjustedRow settings.link)).isSome = true →
    Informs settings.link s.responder rsp o
  registered : ∀ name, ∃ notice, (s.notifyOnRegister name).mailbox = s.mailbox ++ [notice] ∧
    Informs settings.link s.responder notice o
  removed : ∀ names, ∃ notice, (s.notifyOnRemove names).mailbox = s.mailbox ++ [notice] ∧
    Informs settings.link s.responder notice o

section

variable [ScanOrder Int] [ScanOrder Str]

def FolderRun.receive (settings : FolderSettings) (run : FolderRun) (msg : FolderMessage) :
    Option FolderRun :=
  (run.folder.receive settings msg).map fun folder =>
    { folder := folder
      listing := match msg with
        | .requestEnvelope sender requests =>
            requests.foldl (listingAfter settings.link sender) run.listing
        | _ => run.listing }

end

/-! ### The condition -/

/-- `listRid` after a request that the responder forwards. -/
def listRidAfter (listRid : Option Int) : DSARequest → Option Int
  | .list rid path => if path = rootPath then some rid else listRid
  | .close _ => none
  | _ => listRid

/-- An envelope half decided, with `listRid` and the open LISTs as they will be. -/
structure ListingTurn where
  turn : EnvelopeTurn
  listRid : Option Int
  listing : List Origin

/-- A LIST call is registered under the target RID. -/
def ListCallAt (s : ResponderState) (rid : Int) : Prop :=
  ∃ record path, s.ridRegistry.lookupByTargetId rid = some record ∧ record.IsListCall path

section

variable [ScanOrder Int]

def ListingTurn.take (link : Link) (sender : Routee) (t : ListingTurn) (request : DSARequest) :
    ListingTurn where
  turn := t.turn.take link sender request
  listRid := ((t.turn.action link sender request).result t.turn.present.nextRid
    t.turn.present.nextSid).requests.foldl listRidAfter t.listRid
  listing := listingAfter link sender t.listing request

/-- A request that is not a LIST takes no target RID from the listeners; a LIST of the root that
is a new call has no other listeners, and one that joins a call finds it registered and the
other listeners joined to it; and a CLOSE is forwarded only when there are no other listeners. -/
def ListingUndisturbed (link : Link) (sender : Routee) (t : ListingTurn) (request : DSARequest) :
    Prop :=
  match t.turn.action link sender request with
  | .passthrough .. | .subscribeNew .. | .unsubscribeLast .. =>
      t.listing = [] ∨ t.listRid ≠ some t.turn.present.nextRid
  | .listNew _ origin tgtPath => tgtPath = rootPath → ∀ o ∈ t.listing, o = origin
  | .listKnown targetId origin tgtPath => tgtPath = rootPath →
      ListCallAt t.turn.settled targetId ∧
        ∀ o ∈ t.listing, o = origin ∨ o ∈ t.turn.settled.listRegistry.getOrigins targetId
  | .closeCall _ | .closeListLast .. => ∀ o ∈ t.listing, o = ⟨sender, request.rid⟩
  | _ => True

def ListingCondition (settings : FolderSettings) (run : FolderRun) : FolderMessage → Prop
  | .requestEnvelope sender requests =>
      Along (ListingTurn.take settings.link sender) (ListingUndisturbed settings.link sender)
        ⟨{ present := run.folder.responder }, run.folder.listRid, run.listing⟩ requests
  | _ => True

end

/-! ### Responses to a LIST call -/

/-- What a folder says of links can be adjusted. -/
theorem mapM_adjustedRow_rows (link : Link) (name : Str) :
    ∃ adjusted, (rows [(name, .map [isNode])]).mapM (adjustedRow link) = some adjusted := by
  simp only [rows, List.map_cons, List.map_nil, List.mapM_cons, List.mapM_nil, adjustedRow]
  by_cases hname : name = baseConfig
  · simp [hname, textOf]
  · simp [hname]

theorem adjustedRow_removedRow (link : Link) (name : Str) :
    adjustedRow link (removedRow name) = some (removedRow name) := by
  have hnone : DSAMap.get [(str "name", DSAVal.string name),
      (str "change", .string (str "remove"))] baseConfig = none := by
    simp only [DSAMap.get]
    rw [if_neg (by decide), if_neg (by decide)]
  simp only [removedRow, adjustedRow, hnone]

theorem mapM_adjustedRow_removed (link : Link) (names : List Str) :
    (names.map removedRow).mapM (adjustedRow link) = some (names.map removedRow) := by
  induction names with
  | nil => rfl
  | cons name rest ih =>
    rw [List.map_cons, List.mapM_cons, adjustedRow_removedRow, ih]
    rfl

section

variable [ScanOrder Int] {link : Link} {s : ResponderState} {rsp : DSAResponse}

theorem receive_listResponse {record : LookupRecord} {path : Str} {adjusted : List DSAVal}
    (hrid : rsp.rid ≠ 0) (hrecord : s.ridRegistry.lookupByTargetId rsp.rid = some record)
    (hlist : record.IsListCall path)
    (hrows : (rsp.updates.getD []).mapM (adjustedRow link) = some adjusted) :
    receive link s (.responseMessage [rsp]) =
      let delivered := s.listRegistry.deliverListResponse
        { rsp with updates := some (adjusted ++ attributeRows s path) }
      some
        { state := ({ s with listRegistry := delivered.bindings } : ResponderState).performed
            (delivered.persisted.map PersistCall.group)
          sent := delivered.sent.map fun result => ⟨result.1, [result.2]⟩
          persisted := delivered.persisted.map PersistCall.group } := by
  have hrun := run_handleNonSubscribeResponse_list link (p := { state := s }) hrecord hlist hrows
  have hremoval : ∀ call ∈ (s.listRegistry.deliverListResponse
      { rsp with updates := some (adjusted ++ attributeRows s path) }).persisted.map
        PersistCall.group, call.IsRemoval := by
    intro call hcall
    obtain ⟨groupCall, hgroup, rfl⟩ := List.mem_map.mp hcall
    simp only [Bindings.deliverListResponse] at hgroup
    split at hgroup
    · rw [List.mem_singleton.mp hgroup]
      exact trivial
    · cases hgroup
  have hnone : groupByTarget [] = [] := rfl
  simp only [receive, processResponses, responseHandler, if_neg hrid, run_bind, hrun, run_pure,
    complete, List.nil_append, List.append_nil, hnone, runHandlers_of_isRemoval _ hremoval,
    Option.map_some]

/-- A LIST call is registered under the target RID, and the origin is among its requesters. -/
def Answered (s : ResponderState) (rid : Int) (o : Origin) : Prop :=
  ListCallAt s rid ∧ o ∈ s.listRegistry.getOrigins rid

/-- What answers a LIST call informs its requesters. -/
theorem Answered.informs {rid : Int} {o : Origin} (h : Answered s rid o) (hne : rid ≠ 0)
    (hrsp : rsp.rid = rid)
    (hrows : ((rsp.updates.getD []).mapM (adjustedRow link)).isSome = true) :
    Informs link s rsp o := by
  obtain ⟨⟨record, path, hrecord, hlist⟩, ho⟩ := h
  obtain ⟨adjusted, hadjusted⟩ := Option.isSome_iff_exists.mp hrows
  subst hrsp
  have hreceive := receive_listResponse hne hrecord hlist hadjusted
  refine ⟨_, adjusted, attributeRows s path, hreceive, hadjusted, ?_⟩
  rw [flatMap_each_alone]
  apply List.mem_map.mpr
  refine ⟨o, ?_, rfl⟩
  rw [GroupCallRecord.origins_setLastResponse, Bindings.origins_getOrInsert]
  exact ho

theorem Answered.notified {settings : FolderSettings} {folder : DSLinkFolderActor} {rid : Int}
    {o : Origin} (hlistRid : folder.listRid = some rid) (hne : rid ≠ 0)
    (h : Answered folder.responder rid o) : Notified settings folder o := by
  have hnotify : ∀ updates,
      (folder.notify updates).mailbox = folder.mailbox ++ [openResponse rid updates] := by
    intro updates
    rw [DSLinkFolderActor.notify, hlistRid]
    rfl
  constructor
  · refine ⟨rid, hlistRid, ?_⟩
    intro rsp hrsp hrows
    exact h.informs hne hrsp hrows
  · intro name
    refine ⟨_, hnotify _, h.informs hne rfl ?_⟩
    exact Option.isSome_iff_exists.mpr (mapM_adjustedRow_rows _ name)
  · intro names
    refine ⟨_, hnotify _, h.informs hne rfl ?_⟩
    exact Option.isSome_iff_exists.mpr ⟨_, mapM_adjustedRow_removed _ names⟩

/-- A response in an open stream leaves the calls and their requesters as they are. -/
theorem receive_opened {outcome : Outcome} (hopened : rsp.stream = some .opened)
    (h : receive link s (.responseMessage [rsp]) = some outcome) :
    outcome.state.ridRegistry = s.ridRegistry ∧
      ∀ t, outcome.state.listRegistry.getOrigins t = s.listRegistry.getOrigins t := by
  -- the invariant of the responses handled one by one; nothing persisted, so nothing to run later
  have hstep : ∀ (handled : List DSAResponse) (p : Processing) (rsp' : DSAResponse)
      (results : List (Routee × DSAResponse)) (p' : Processing)
      (before : List (Routee × DSAResponse)), rsp' ∈ [rsp] →
      (p.persisted = [] ∧ p.state.ridRegistry = s.ridRegistry ∧
        ∀ t, p.state.listRegistry.getOrigins t = s.listRegistry.getOrigins t) →
      Responds link p rsp' results p' →
      p'.persisted = [] ∧ p'.state.ridRegistry = s.ridRegistry ∧
        ∀ t, p'.state.listRegistry.getOrigins t = s.listRegistry.getOrigins t := by
    rintro handled p rsp' results p' before hmem ⟨hpersisted, hrids, horigins⟩ hresponds
    have hnot : rsp'.stream ≠ some .closed := by
      rw [List.mem_singleton.mp hmem, hopened]
      decide
    cases hresponds with
    -- only a closed response makes the rows of a SUBSCRIBE persist a removal
    | @subscribe delivered hrid hdelivered =>
      refine ⟨?_, hrids, horigins⟩
      rw [hpersisted, List.nil_append, List.map_eq_nil_iff, List.eq_nil_iff_forall_not_mem]
      intro call hcall
      exact hnot ((Bindings.mem_persisted_deliverRows hdelivered call).mp hcall).1
    | list hrid hrecord hlist hrows hdelivered =>
      subst hdelivered
      refine ⟨?_, hrids, ?_⟩
      · rw [hpersisted, Bindings.deliverListResponse, if_neg hnot]
        rfl
      · intro t
        exact (Bindings.getOrigins_put_setLastResponse ..).trans (horigins t)
    | call hrid hrecord hcall horigin =>
      refine ⟨?_, hrids, horigins⟩
      rw [hpersisted, if_neg hnot]
      rfl
    | unknown hrid hnone => exact ⟨hpersisted, hrids, horigins⟩
  obtain ⟨p, results, r, ⟨hpersisted, hrids, horigins⟩, hrun, hstate, _⟩ :=
    responseMessage_invariant
      (fun _ p _ => p.persisted = [] ∧ p.state.ridRegistry = s.ridRegistry ∧
        ∀ t, p.state.listRegistry.getOrigins t = s.listRegistry.getOrigins t)
      hstep ⟨rfl, rfl, fun _ => rfl⟩ h
  rw [hpersisted] at hrun
  cases hrun
  rw [hstate]
  exact ⟨hrids, horigins⟩

end

/-! ### Requests -/

theorem answered_advance {s : ResponderState} {issues : Bool × Bool} {rid : Int} {o : Origin} :
    Answered (s.advance issues) rid o ↔ Answered s rid o := by
  obtain ⟨issuesRid, issuesSid⟩ := issues
  cases issuesRid <;> cases issuesSid <;> exact Iff.rfl

theorem answered_listNew (s : ResponderState) (path : Str) (origin : Origin) (tgtPath : Str)
    (rid sid : Int) :
    Answered (s.performed ((Action.listNew path origin tgtPath).effects rid sid)) rid origin := by
  constructor
  · refine ⟨⟨.list, rid, none, some path⟩, path, ?_, rfl, rfl⟩
    exact (RidRegistry.callsByTargetId_addLookup ..).trans (if_pos rfl)
  · exact Bindings.mem_getOrigins_internalAddOrigin.mpr (Or.inl ⟨rfl, rfl⟩)

theorem answered_listKnown {s : ResponderState} {targetId : Int} (h : ListCallAt s targetId)
    {origin o : Origin} (ho : o = origin ∨ o ∈ s.listRegistry.getOrigins targetId) (tgtPath : Str)
    (rid sid : Int) :
    Answered (s.performed ((Action.listKnown targetId origin tgtPath).effects rid sid))
      targetId o := by
  refine ⟨h, Bindings.mem_getOrigins_internalAddOrigin.mpr ?_⟩
  rcases ho with rfl | ho
  · exact Or.inl ⟨rfl, rfl⟩
  · exact Or.inr ho

/-- The request neither registers another kind of call under the target RID nor closes the
LIST of the origin. -/
def Action.Spares (rid t : Int) (o : Origin) : Action → Prop
  | .passthrough .. | .subscribeNew .. | .unsubscribeLast .. => t ≠ rid
  | .closeListLast .. => False
  | .closeListOther origin _ => o ≠ origin
  | _ => True

theorem Answered.performed {s : ResponderState} {t : Int} {o : Origin} (h : Answered s t o)
    {a : Action} {rid sid : Int} (hspares : a.Spares rid t o) :
    Answered (s.performed (a.effects rid sid)) t o := by
  obtain ⟨⟨record, path, hrecord, hlist⟩, ho⟩ := h
  have hunsaved : t ≠ rid → ∀ method origin callPath, ListCallAt
      { s with ridRegistry := s.ridRegistry.addLookup method origin callPath rid } t := by
    intro hne method origin callPath
    refine ⟨record, path, ?_, hlist⟩
    exact (RidRegistry.callsByTargetId_addLookup ..).trans ((if_neg hne).trans hrecord)
  cases a with
  | listNew newPath origin tgtPath =>
    refine ⟨?_, Bindings.mem_getOrigins_internalAddOrigin.mpr (Or.inr ho)⟩
    by_cases hne : t = rid
    · subst hne
      exact (answered_listNew s newPath origin tgtPath t sid).1
    · exact hunsaved hne .list none (some newPath)
  | listKnown targetId origin tgtPath =>
    exact ⟨⟨record, path, hrecord, hlist⟩,
      Bindings.mem_getOrigins_internalAddOrigin.mpr (Or.inr ho)⟩
  | passthrough method origin forward =>
    exact ⟨hunsaved hspares method (some origin) none, ho⟩
  | subscribeNew ridOrigin sidOrigin srcPath tgtPath =>
    exact ⟨hunsaved hspares .subscribe (some ridOrigin) none, ho⟩
  | unsubscribeLast ridOrigin sidOrigin targetSid =>
    exact ⟨hunsaved hspares .unsubscribe (some ridOrigin) none, ho⟩
  | closeListLast origin targetId record => exact hspares.elim
  | closeListOther origin targetId =>
    refine ⟨⟨record, path, hrecord, hlist⟩, Bindings.mem_getOrigins_removeFrom.mpr ⟨ho, ?_⟩⟩
    rintro ⟨_, heq⟩
    exact hspares heq
  | _ => exact ⟨⟨record, path, hrecord, hlist⟩, ho⟩

/-- An origin lists the root after a request that listed it before and has not closed its LIST,
or whose LIST of the root the request is. -/
theorem mem_listingAfter {link : Link} {sender : Routee} {listing : List Origin}
    {request : DSARequest} {o : Origin}
    (h : o ∈ listingAfter link sender listing request) :
    (o ∈ listing ∧ (request.method = .close → o ≠ ⟨sender, request.rid⟩)) ∨
      ∃ path, request = .list request.rid path ∧ translatePath link.linkPath path = rootPath ∧
        o = ⟨sender, request.rid⟩ := by
  cases request with
  | list rid path =>
    simp only [listingAfter] at h
    split at h
    case isTrue hroot =>
      rcases Grouping.mem_insertKey.mp h with hold | rfl
      · exact Or.inl ⟨hold, nofun⟩
      · exact Or.inr ⟨path, rfl, hroot, rfl⟩
    case isFalse => exact Or.inl ⟨h, nofun⟩
  | close rid =>
    obtain ⟨hold, hne⟩ := List.mem_filter.mp h
    exact Or.inl ⟨hold, fun _ => of_decide_eq_true hne⟩
  | _ => exact Or.inl ⟨h, nofun⟩

section

variable [ScanOrder Int] {link : Link} {sender : Routee}

/-- For the folder a call that is passed through is neither a LIST nor a CLOSE, and an origin
that leaves others behind is removed by its own CLOSE. -/
def Action.AsideOfRoot (sender : Routee) (request : DSARequest) : Action → Prop
  | .passthrough _ _ forward =>
      ∀ rid (listRid : Option Int), listRidAfter listRid (forward rid) = listRid
  | .closeListOther origin _ => request.method = .close ∧ origin = ⟨sender, request.rid⟩
  | _ => True

theorem requestAction_asideOfRoot (link : Link) (sender : Routee) (s : ResponderState)
    (request : DSARequest) : (requestAction link sender s request).AsideOfRoot sender request := by
  rcases request with ⟨rid, path⟩ | ⟨rid, path, value, permit⟩ | ⟨rid, path⟩ |
    ⟨rid, path, params, permit⟩ | ⟨rid, paths⟩ | ⟨rid, sids⟩ | rid
  · simp only [requestAction, actionOf]
    split <;> exact trivial
  · simp only [requestAction, actionOf]
    split
    · split <;> exact trivial
    · exact fun _ _ => rfl
  · exact fun _ _ => rfl
  · simp only [requestAction, actionOf]
    split
    · split <;> exact trivial
    · split
      · split
        · exact fun _ _ => rfl
        · exact trivial
      · exact fun _ _ => rfl
  · simp only [requestAction, actionOf]
    split
    · exact trivial
    · split <;> exact trivial
  · simp only [requestAction, actionOf]
    split
    · exact trivial
    · split <;> exact trivial
  · simp only [requestAction, actionOf]
    split
    · exact trivial
    · split
      · exact trivial
      · exact ⟨rfl, rfl⟩
      · exact trivial

theorem listRidAfter_passthrough {s : ResponderState} {request : DSARequest} {method : DSAMethod}
    {origin : Origin} {forward : Int → DSARequest}
    (h : requestAction link sender s request = .passthrough method origin forward)
    (rid : Int) (listRid : Option Int) : listRidAfter listRid (forward rid) = listRid := by
  have haside := requestAction_asideOfRoot link sender s request
  rw [h] at haside
  exact haside rid listRid

/-- A CLOSE removes its own origin. -/
theorem closeListOther_origin {s : ResponderState} {request : DSARequest} {origin : Origin}
    {targetId : Int}
    (h : requestAction link sender s request = .closeListOther origin targetId) :
    request.method = .close ∧ origin = ⟨sender, request.rid⟩ := by
  have haside := requestAction_asideOfRoot link sender s request
  rw [h] at haside
  exact haside

/-- The folder in the middle of an envelope. -/
structure ListingTurnInv (t : ListingTurn) : Prop where
  positive : Positive t.turn.present
  unregistered : t.turn.settled.ridRegistry.callsByTargetId 0 = none
  answered : ∀ o ∈ t.listing, ∃ rid, t.listRid = some rid ∧ Answered t.turn.settled rid o

/-- A LIST of the root is answered under the target RID that its call has. -/
theorem ListingTurn.answered_list {t : ListingTurn} {rid : Int} {path : Str}
    (hundisturbed : ListingUndisturbed link sender t (.list rid path))
    (hroot : translatePath link.linkPath path = rootPath) :
    ∃ targetId, (t.take link sender (.list rid path)).listRid = some targetId ∧
      Answered (t.take link sender (.list rid path)).turn.settled targetId ⟨sender, rid⟩ := by
  have hsettled : (t.take link sender (.list rid path)).turn.settled = _ :=
    t.turn.settled_take link sender (.list rid path)
  have hlistRid : (t.take link sender (.list rid path)).listRid
      = ((t.turn.action link sender (.list rid path)).result t.turn.present.nextRid
          t.turn.present.nextSid).requests.foldl listRidAfter t.listRid := rfl
  rw [hsettled, hlistRid]
  unfold ListingUndisturbed at hundisturbed
  -- the first LIST of the root takes a new target RID, a later one joins the record
  cases hlookup : t.turn.present.ridRegistry.lookupByPath path with
  | none =>
    have haction : t.turn.action link sender (.list rid path)
        = .listNew path ⟨sender, rid⟩ (translatePath link.linkPath path) := by
      simp only [EnvelopeTurn.action, requestAction, lookups, actionOf, hlookup, Option.map_none]
    rw [haction]
    refine ⟨t.turn.present.nextRid, if_pos hroot, ?_⟩
    exact answered_listNew ..
  | some record =>
    have haction : t.turn.action link sender (.list rid path)
        = .listKnown record.targetId ⟨sender, rid⟩ (translatePath link.linkPath path) := by
      simp only [EnvelopeTurn.action, requestAction, lookups, actionOf, hlookup, Option.map_some]
    rw [haction] at hundisturbed ⊢
    obtain ⟨hcall, _⟩ := hundisturbed hroot
    refine ⟨record.targetId, if_pos hroot, ?_⟩
    exact answered_listKnown hcall (Or.inl rfl) ..

/-- Who listens goes on listening, unless the request is its own CLOSE: the target RID of the
listing is still the one whose responses reach the listener, whatever the request does. -/
theorem ListingTurn.answered_take {t : ListingTurn} {request : DSARequest}
    (hundisturbed : ListingUndisturbed link sender t request) {o : Origin} (ho : o ∈ t.listing)
    (hclose : request.method = .close → o ≠ ⟨sender, request.rid⟩) {rid : Int}
    (hlistRid : t.listRid = some rid) (hanswered : Answered t.turn.settled rid o) :
    ∃ targetId, (t.take link sender request).listRid = some targetId ∧
      Answered (t.take link sender request).turn.settled targetId o := by
  have hsettled : (t.take link sender request).turn.settled = _ :=
    t.turn.settled_take link sender request
  have htake : (t.take link sender request).listRid
      = ((t.turn.action link sender request).result t.turn.present.nextRid
          t.turn.present.nextSid).requests.foldl listRidAfter t.listRid := rfl
  have hbehalf : (t.turn.action link sender request).OnBehalf t.turn.present sender request :=
    requestAction_onBehalf ..
  -- what the requirement on CLOSE says of the action: the origin it removes is not `o`
  have hother : ∀ origin targetId,
      t.turn.action link sender request = .closeListOther origin targetId → o ≠ origin := by
    intro origin targetId haction
    obtain ⟨hmethod, rfl⟩ := closeListOther_origin haction
    exact hclose hmethod
  have hforward : ∀ method origin forward,
      t.turn.action link sender request = .passthrough method origin forward →
      listRidAfter t.listRid (forward t.turn.present.nextRid) = t.listRid :=
    fun _ _ _ haction => listRidAfter_passthrough haction _ _
  rw [hsettled, htake]
  unfold ListingUndisturbed at hundisturbed
  generalize t.turn.action link sender request = a at hundisturbed hbehalf hother hforward
  have hadvanced : Answered (t.turn.settled.advance a.issues) rid o :=
    answered_advance.mpr hanswered
  have hkeeps : a.Spares t.turn.present.nextRid rid o →
      Answered ((t.turn.settled.advance a.issues).performed
        (a.effects t.turn.present.nextRid t.turn.present.nextSid)) rid o := hadvanced.performed
  -- a target RID issued by this request is not the one the listeners are answered under
  have hsame : t.listing = [] ∨ t.listRid ≠ some t.turn.present.nextRid →
      rid ≠ t.turn.present.nextRid := by
    rintro (hnone | hne) rfl
    · rw [hnone] at ho
      cases ho
    · exact hne hlistRid
  cases a with
  | listNew path origin tgtPath =>
    -- a second first LIST moves `listRid`, which is allowed only when nobody else listens
    by_cases hroot : tgtPath = rootPath
    · refine ⟨t.turn.present.nextRid, if_pos hroot, ?_⟩
      rw [hundisturbed hroot o ho]
      exact answered_listNew ..
    · exact ⟨rid, (if_neg hroot).trans hlistRid, hkeeps trivial⟩
  | listKnown targetId origin tgtPath =>
    by_cases hroot : tgtPath = rootPath
    · obtain ⟨hcall, hjoined⟩ := hundisturbed hroot
      exact ⟨targetId, if_pos hroot, answered_listKnown hcall (hjoined o ho) ..⟩
    · exact ⟨rid, (if_neg hroot).trans hlistRid, hkeeps trivial⟩
  | passthrough method origin forward =>
    refine ⟨rid, (hforward method origin forward rfl).trans hlistRid, ?_⟩
    exact hkeeps (hsame hundisturbed)
  | subscribeNew ridOrigin sidOrigin srcPath tgtPath =>
    exact ⟨rid, hlistRid, hkeeps (hsame hundisturbed)⟩
  | unsubscribeLast ridOrigin sidOrigin targetSid =>
    exact ⟨rid, hlistRid, hkeeps (hsame hundisturbed)⟩
  -- the call of the listing is closed only with its last listener, who is the sender
  | closeCall targetId => exact absurd (hundisturbed o ho) (hclose hbehalf)
  | closeListLast origin targetId record => exact absurd (hundisturbed o ho) (hclose hbehalf)
  | closeListOther origin targetId =>
    exact ⟨rid, hlistRid, hkeeps (hother origin targetId rfl)⟩
  | nothing => exact ⟨rid, hlistRid, hkeeps trivial⟩
  | answer srcRid => exact ⟨rid, hlistRid, hkeeps trivial⟩
  | saveAttribute srcRid nodePath name value => exact ⟨rid, hlistRid, hkeeps trivial⟩
  | subscribeKnown tgtSid sidOrigin srcPath tgtPath => exact ⟨rid, hlistRid, hkeeps trivial⟩
  | unsubscribeOther srcRid sidOrigin targetSid => exact ⟨rid, hlistRid, hkeeps trivial⟩

theorem ListingTurnInv.take {t : ListingTurn} (ht : ListingTurnInv t) {request : DSARequest}
    (hundisturbed : ListingUndisturbed link sender t request) :
    ListingTurnInv (t.take link sender request) := by
  have hsettled := t.turn.settled_take link sender request
  have hissued : t.turn.present.nextRid ≠ 0 := Int.ne_of_gt ht.positive.1
  constructor
  · exact ht.positive.advance _
  · rw [Option.eq_none_iff_forall_ne_some]
    intro record hrecord
    have hrecord : (t.turn.take link sender request).settled.ridRegistry.callsByTargetId 0
        = some record := hrecord
    rw [hsettled] at hrecord
    rcases callsByTargetId_performed hrecord with hold | ⟨_, _, _, hsaved⟩
    · have hnone : (t.turn.settled.advance
          (t.turn.action link sender request).issues).ridRegistry.callsByTargetId 0 = none := by
        rw [← ht.unregistered]
        cases t.turn.action link sender request <;> rfl
      cases hold.symm.trans hnone
    · exact hissued (Action.issues_of_saved hsaved).1.symm
  · intro o ho
    rcases mem_listingAfter ho with ⟨hold, hclose⟩ | ⟨path, hrequest, hroot, rfl⟩
    · obtain ⟨rid, hlistRid, hanswered⟩ := ht.answered o hold
      exact ListingTurn.answered_take hundisturbed hold hclose hlistRid hanswered
    · rw [hrequest] at hundisturbed ⊢
      exact ListingTurn.answered_list hundisturbed hroot

end

/-! ### Messages -/

/-- The messages that the folder sends itself are of open streams. -/
def DSLinkFolderActor.Opened (s : DSLinkFolderActor) : Prop :=
  (∀ rsp ∈ s.mailbox, rsp.stream = some .opened) ∧
    ∀ listing ∈ s.listings, ∀ rsp ∈ listing, rsp.stream = some .opened

theorem listing_opened [ScanOrder Str] {settings : FolderSettings}
    {links : ScanMap Str LinkState} {rid : Int} :
    ∀ rsp ∈ DSLinkFolderActor.listing settings links rid, rsp.stream = some .opened := by
  intro rsp hrsp
  obtain ⟨updates, _, rfl⟩ := List.mem_map.mp hrsp
  rfl

theorem DSLinkFolderActor.Opened.notify {s : DSLinkFolderActor} (hs : s.Opened)
    (updates : List DSAVal) : (s.notify updates).Opened := by
  refine ⟨?_, hs.2⟩
  intro rsp hrsp
  rcases List.mem_append.mp hrsp with hold | hnew
  · exact hs.1 rsp hold
  · obtain ⟨rid, _, rfl⟩ := List.mem_map.mp hnew
    rfl

/-- What a link reports changes neither the calls nor `listRid`. -/
theorem mgmtHandler_spec {s : DSLinkFolderActor} (hs : s.Opened) (message : RegistryMessage) :
    (s.mgmtHandler message).responder = s.responder ∧
      (s.mgmtHandler message).listRid = s.listRid ∧ (s.mgmtHandler message).Opened := by
  cases message with
  | registerDSLink name mode connected =>
    exact ⟨rfl, rfl, DSLinkFolderActor.Opened.notify ⟨hs.1, hs.2⟩ _⟩
  | unregisterDSLink name =>
    exact ⟨rfl, rfl, DSLinkFolderActor.Opened.notify ⟨hs.1, hs.2⟩ _⟩
  | dsLinkStateChanged name mode connected =>
    simp only [DSLinkFolderActor.mgmtHandler, DSLinkFolderActor.changeLinkState]
    cases s.links.get name with
    | none => exact ⟨rfl, rfl, hs⟩
    | some entry => exact ⟨rfl, rfl, hs⟩

/-- What the folder makes of the requests forwarded to it. -/
theorem sendToEndpoint_spec [ScanOrder Str] (settings : FolderSettings) {s : DSLinkFolderActor}
    (hs : s.Opened) (requests : List DSARequest) :
    (s.sendToEndpoint settings requests).responder = s.responder ∧
      (s.sendToEndpoint settings requests).listRid = requests.foldl listRidAfter s.listRid ∧
      (s.sendToEndpoint settings requests).Opened := by
  induction requests generalizing s with
  | nil => exact ⟨rfl, rfl, hs⟩
  | cons request rest ih =>
    have hone : (s.handleRequest settings request).responder = s.responder ∧
        (s.handleRequest settings request).listRid = listRidAfter s.listRid request ∧
        (s.handleRequest settings request).Opened := by
      cases request with
      | list rid path =>
        simp only [DSLinkFolderActor.handleRequest, listRidAfter]
        split
        · refine ⟨rfl, rfl, hs.1, ?_⟩
          intro listing hlisting
          rcases List.mem_append.mp hlisting with hold | hnew
          · exact hs.2 listing hold
          · rw [List.mem_singleton.mp hnew]
            exact listing_opened
        · exact ⟨rfl, rfl, hs⟩
      | _ => exact ⟨rfl, rfl, hs⟩
    obtain ⟨hresponder, hlistRid, hopened⟩ := hone
    obtain ⟨hrest, hrestRid, hrestOpened⟩ := ih hopened
    refine ⟨hrest.trans hresponder, ?_, hrestOpened⟩
    rw [List.foldl_cons, ← hlistRid]
    exact hrestRid

/-- What every state of a run satisfies. -/
structure ListingInv (run : FolderRun) : Prop where
  positive : Positive run.folder.responder
  unregistered : run.folder.responder.ridRegistry.callsByTargetId 0 = none
  answered : ∀ o ∈ run.listing,
    ∃ rid, run.folder.listRid = some rid ∧ Answered run.folder.responder rid o
  opened : run.folder.Opened

theorem ListingInv.initial : ListingInv .initial := by
  refine ⟨⟨by decide, by decide⟩, rfl, ?_, ?_, ?_⟩
  · intro o ho
    cases ho
  · intro rsp hrsp
    cases hrsp
  · intro listing hlisting
    cases hlisting

section

variable [ScanOrder Int]

/-- The turns of an envelope with `listRid` and the open LISTs beside them. -/
theorem ListingTurn.foldl_take (link : Link) (sender : Routee) (requests : List DSARequest)
    {t : ListingTurn} {listRid : Option Int}
    (ht : t.listRid = t.turn.forwarded.foldl listRidAfter listRid) :
    let t' := requests.foldl (ListingTurn.take link sender) t
    t'.turn = requests.foldl (responderSystem link sender).take t.turn ∧
      t'.listRid = t'.turn.forwarded.foldl listRidAfter listRid ∧
      t'.listing = requests.foldl (listingAfter link sender) t.listing := by
  induction requests generalizing t with
  | nil => exact ⟨rfl, ht, rfl⟩
  | cons request rest ih =>
    have htake : (t.take link sender request).listRid
        = (t.take link sender request).turn.forwarded.foldl listRidAfter listRid := by
      have hforwarded : (t.take link sender request).turn.forwarded = t.turn.forwarded ++
          ((t.turn.action link sender request).result t.turn.present.nextRid
            t.turn.present.nextSid).requests := rfl
      rw [hforwarded, List.foldl_append, ← ht]
      rfl
    exact ih htake

end

section

variable [ScanOrder Int] [ScanOrder Str] {settings : FolderSettings}

/-- A request envelope is walked request by request with the effects apart; at its end the settled
state is that of the folder, and `listRid` follows what has been handed on. -/
theorem ListingInv.requestEnvelope {run : FolderRun} (h : ListingInv run) {sender : Routee}
    {requests : List DSARequest}
    (hok : ListingCondition settings run (.requestEnvelope sender requests)) {outcome : Outcome}
    (houtcome : receive settings.link run.folder.responder (.requestEnvelope sender requests)
      = some outcome) (sent : List (Routee × DSAResponse)) :
    ListingInv
      { folder := { run.folder with responder := outcome.state, sent := sent }.sendToEndpoint
          settings outcome.toEndpoint.flatten
        listing := requests.foldl (listingAfter settings.link sender) run.listing } := by
  -- the envelope is walked with what is deferred kept apart, and only at its end the state is read
  have hstart : ListingTurnInv ⟨{ present := run.folder.responder }, run.folder.listRid,
      run.listing⟩ := ⟨h.positive, h.unregistered, h.answered⟩
  have hstep : ∀ (t : ListingTurn) (request : DSARequest), ListingTurnInv t →
      ListingUndisturbed settings.link sender t request →
      ListingTurnInv (t.take settings.link sender request) := fun _ _ ht => ht.take
  have hturn := Along.invariant hstep hstart hok
  have hzero : (⟨{ present := run.folder.responder }, run.folder.listRid, run.listing⟩ :
      ListingTurn).listRid = ([] : List DSARequest).foldl listRidAfter run.folder.listRid := rfl
  obtain ⟨hsame, hlistRid, hlisting⟩ :=
    ListingTurn.foldl_take settings.link sender requests hzero
  have hstate := receive_requestEnvelope_state houtcome
  have hforwarded : outcome.toEndpoint.flatten
      = (envelopeTurn settings.link sender run.folder.responder requests).forwarded := by
    rw [receive_requestEnvelope] at houtcome
    obtain ⟨r, _, rfl⟩ := Option.map_eq_some_iff.mp houtcome
    by_cases hnone :
        (envelopeTurn settings.link sender run.folder.responder requests).forwarded = []
    · simp only [hnone, if_true, List.flatten_nil]
    · simp only [hnone, if_false, List.flatten_cons, List.flatten_nil, List.append_nil]
  generalize requests.foldl (ListingTurn.take settings.link sender)
    ⟨{ present := run.folder.responder }, run.folder.listRid, run.listing⟩ = t
    at hturn hsame hlistRid hlisting
  have hsettled : t.turn.settled = outcome.state := by
    rw [hstate, hsame]
    rfl
  have hrid : t.listRid = outcome.toEndpoint.flatten.foldl listRidAfter run.folder.listRid := by
    rw [hlistRid, hsame, hforwarded]
    rfl
  have hopened : DSLinkFolderActor.Opened
      { run.folder with responder := outcome.state, sent := sent } := ⟨h.opened.1, h.opened.2⟩
  obtain ⟨hresponder, hafter, hafterOpened⟩ :=
    sendToEndpoint_spec settings hopened outcome.toEndpoint.flatten
  constructor
  · rw [hresponder, ← hsettled]
    unfold Positive EnvelopeTurn.settled
    rw [performed_nextTargetId]
    exact hturn.positive
  · rw [hresponder, ← hsettled]
    exact hturn.unregistered
  · intro o ho
    rw [← hlisting] at ho
    obtain ⟨rid, hrid', hanswered⟩ := hturn.answered o ho
    refine ⟨rid, hafter.trans (hrid.symm.trans hrid'), ?_⟩
    rw [hresponder, ← hsettled]
    exact hanswered
  · exact hafterOpened

/-- **One message of a run**, from whichever of the four sources it comes: the listing goes on to be
answered, and the responses that wait are open ones. -/
theorem ListingInv.receive {run run' : FolderRun} (h : ListingInv run) {msg : FolderMessage}
    (hok : ListingCondition settings run msg) (hreceive : run.receive settings msg = some run') :
    ListingInv run' := by
  obtain ⟨folder, hfolder, rfl⟩ := Option.map_eq_some_iff.mp hreceive
  cases msg with
  -- the four sources: requesters, registry callbacks, rows told to itself, its own responses
  | requestEnvelope sender requests =>
    obtain ⟨outcome, houtcome, rfl⟩ := Option.map_eq_some_iff.mp hfolder
    exact h.requestEnvelope hok houtcome _
  | registry message =>
    cases hfolder
    obtain ⟨hresponder, hlistRid, hopened⟩ := mgmtHandler_spec h.opened message
    refine ⟨?_, ?_, ?_, hopened⟩
    · rw [hresponder]
      exact h.positive
    · rw [hresponder]
      exact h.unregistered
    · rw [hresponder, hlistRid]
      exact h.answered
  | forward i =>
    simp only [DSLinkFolderActor.receive] at hfolder
    split at hfolder
    case h_1 response rest hlisting =>
      cases hfolder
      have hopened := h.opened.2 _ (List.mem_of_getElem? hlisting)
      refine ⟨h.positive, h.unregistered, h.answered, ?_, ?_⟩
      · intro rsp hrsp
        rcases List.mem_append.mp hrsp with hold | hnew
        · exact h.opened.1 rsp hold
        · rw [List.mem_singleton.mp hnew]
          exact hopened response List.mem_cons_self
      · intro listing hmem rsp hrsp
        rcases List.mem_or_eq_of_mem_set hmem with hold | rfl
        · exact h.opened.2 listing hold rsp hrsp
        · exact hopened rsp (List.mem_cons_of_mem _ hrsp)
    case h_2 => cases hfolder
  | own =>
    simp only [DSLinkFolderActor.receive] at hfolder
    split at hfolder
    case h_1 response rest hmailbox =>
      obtain ⟨outcome, houtcome, rfl⟩ := Option.map_eq_some_iff.mp hfolder
      have hopened := h.opened
      unfold DSLinkFolderActor.Opened at hopened
      rw [hmailbox, List.forall_mem_cons] at hopened
      -- its own responses are open ones, which leave the calls and their requesters alone
      obtain ⟨hrids, horigins⟩ := receive_opened hopened.1.1 houtcome
      refine ⟨?_, ?_, ?_, hopened.1.2, hopened.2⟩
      · unfold Positive
        rw [hrids]
        exact h.positive
      · exact (congrArg (·.callsByTargetId 0) hrids).trans h.unregistered
      · intro o ho
        obtain ⟨rid, hlistRid, hanswered⟩ := h.answered o ho
        refine ⟨rid, hlistRid, ?_⟩
        unfold Answered ListCallAt
        rw [hrids, horigins]
        exact hanswered
    case h_2 => cases hfolder

end

/-- **Who lists the root is notified.**  In every run whose requests meet the condition,
`listRid` is a target RID whose responses reach every requester with an open LIST of the root,
and what the folder says of new and removed links informs all of them. -/
theorem listeners_notified [ScanOrder Int] [ScanOrder Str] {settings : FolderSettings}
    {run : FolderRun}
    (h : Reachable (FolderRun.receive settings) (ListingCondition settings) .initial run) :
    ∀ o ∈ run.listing, Notified settings run.folder o := by
  have hinv : ListingInv run := by
    apply h.invariant ListingInv.initial
    intro run msg run' hrun hok hreceive
    exact hrun.receive hok hreceive
  intro o ho
  obtain ⟨rid, hlistRid, hanswered⟩ := hinv.answered o ho
  have hne : rid ≠ 0 := by
    rintro rfl
    obtain ⟨⟨record, path, hrecord, _⟩, _⟩ := hanswered
    cases hrecord.symm.trans hinv.unregistered
  exact hanswered.notified hlistRid hne

/-! ### Two requesters -/

def downstreamSettings : FolderSettings where
  link := ⟨downstream, fun _ => []⟩
  extraConfigs := [(str "downstream", .boolean true)]
  childrenPerListResponse := 2
  children_pos := by decide
  configs_plain := by simp

/-- A LIST of the root. -/
def listRoot (sender : Routee) (rid : Int) : FolderMessage :=
  .requestEnvelope sender [.list rid downstream]

/-- Two requesters list the root, spelled alike. -/
theorem listeners_notified_two :
    ∃ run : FolderRun, run.listing = [⟨requesterA, 1⟩, ⟨requesterB, 5⟩] ∧
      ∀ o ∈ run.listing, Notified downstreamSettings run.folder o := by
  have hfirst : ListingCondition downstreamSettings .initial (listRoot requesterA 1) := by
    refine ⟨?_, trivial⟩
    intro _ o ho
    cases ho
  refine ⟨_, rfl, listeners_notified (.next (listRoot requesterB 5)
    (.next (listRoot requesterA 1) .start hfirst rfl) ⟨?_, trivial⟩ rfl)⟩
  intro _
  refine ⟨⟨_, _, rfl, rfl, rfl⟩, ?_⟩
  intro o ho
  exact Or.inr ho

/-- B closes a call of its own, and A is no longer told of new links. -/
theorem listener_forgotten :
    ¬ ∀ run, Reachable (FolderRun.receive downstreamSettings) AnyStep .initial run →
      ∀ o ∈ run.listing, Notified downstreamSettings run.folder o := by
  intro hall
  obtain ⟨run, hrun, hlisting, hnone⟩ : ∃ run, Reachable (FolderRun.receive downstreamSettings)
      AnyStep .initial run ∧ run.listing = [⟨requesterA, 1⟩] ∧ run.folder.listRid = none :=
    Reachable.exists_of_run
      [listRoot requesterA 1,
        .requestEnvelope requesterB [.invoke 5 downstream [] none],
        .requestEnvelope requesterB [.close 5]]
      (by decide +kernel)
  have hnotified := hall run hrun ⟨requesterA, 1⟩ (hlisting ▸ List.mem_singleton.mpr rfl)
  obtain ⟨rid, hrid, _⟩ := hnotified.reached
  rw [hnone] at hrid
  cases hrid

end DsaBroker
