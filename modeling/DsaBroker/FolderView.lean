import DsaBroker.FolderListing
import DsaBroker.SnapshotFeed

/-!
# What a requester sees of a folder

A requester that lists the root of a folder applies the rows that it gets in order: the row of a
link adds its name, and a row with the change `remove` deletes one.  When all messages have been
processed it should see the names of the registered links (`view_agrees`).

The listing is made when the LIST is handled, and its groups come into the mailbox later; what a
link reports is sent to the mailbox at once.  So the row that removes a link can overtake the one
that lists it.  And a link called `$base` is not seen, for the responder takes its row for that
config.  `ViewCondition` excludes just these.
-/

namespace DsaBroker

/-- What a row says about the links of the folder. -/
def rowUpdate : DSAVal → Option (Update Str)
  | .array [.string name, .map _] => some (.add name)
  | .map value =>
      match DSAMap.get value (str "name"), DSAMap.get value (str "change") with
      | some (.string name), some (.string change) =>
          if change = str "remove" then some (.remove name) else none
      | _, _ => none
  | _ => none

/-- The link that a row adds. -/
def addedName (row : DSAVal) : Option Str :=
  match rowUpdate row with
  | some (.add name) => some name
  | _ => none

def DSAResponse.rows (rsp : DSAResponse) : List DSAVal := rsp.updates.getD []

/-- The rows that a requester has got for its LIST. -/
def rowsFor (o : Origin) (sent : List (Routee × DSAResponse)) : List DSAVal :=
  (sent.filter fun r => r.1 = o.source ∧ r.2.rid = o.sourceId).flatMap fun r => r.2.rows

namespace DSLinkFolderActor

/-- The names that the requester sees. -/
def viewedBy (o : Origin) (s : DSLinkFolderActor) : List Str :=
  viewOf ((rowsFor o s.sent).filterMap rowUpdate)

/-- The links of the groups that have not been forwarded. -/
def unsentNames (s : DSLinkFolderActor) : List Str :=
  (s.listings.flatten.flatMap DSAResponse.rows).filterMap addedName

/-- No message is in flight: the folder's mailbox is empty, and every listing has been told to its
end. -/
def Quiet (s : DSLinkFolderActor) : Prop := s.mailbox = [] ∧ s.listings.flatten = []

/-- The folder as a feed to one requester. -/
def feed (o : Origin) (s : DSLinkFolderActor) : Feed Str where
  members := { name | name ∈ s.links.keys }
  updates := (rowsFor o s.sent ++ s.mailbox.flatMap DSAResponse.rows).filterMap rowUpdate
  unsent := s.unsentNames

end DSLinkFolderActor

/-- The only request is a LIST of the root. -/
def isRootList (link : Link) : List DSARequest → Bool
  | [.list _ path] => translatePath link.linkPath path = rootPath
  | _ => false

/-- One LIST of the root, and no other request. -/
def OneListing (settings : FolderSettings) (run : FolderRun) : FolderMessage → Prop
  | .requestEnvelope _ requests => run.listing = [] ∧ isRootList settings.link requests = true
  | _ => True

instance OneListing.decidable (settings : FolderSettings) (run : FolderRun) :
    (msg : FolderMessage) → Decidable (OneListing settings run msg)
  | .requestEnvelope _ requests =>
      inferInstanceAs (Decidable (run.listing = [] ∧ isRootList settings.link requests = true))
  | .registry _ | .forward _ | .own => .isTrue trivial

/-- While the root is listed no link is called `$base`, and no link is removed that is in a
group of the listing still to be forwarded. -/
def ViewCondition (settings : FolderSettings) (run : FolderRun) (msg : FolderMessage) : Prop :=
  OneListing settings run msg ∧
    match msg with
    | .requestEnvelope .. => baseConfig ∉ run.folder.links.keys
    | .registry (.registerDSLink name _ _) => run.listing ≠ [] → name ≠ baseConfig
    | .registry (.unregisterDSLink name) => name ∉ run.folder.unsentNames
    | _ => True

/-- `name` is none of the names. -/
def decidableNotMem (name : Str) (names : List Str) : Decidable (name ∉ names) :=
  have : Decidable (∀ other ∈ names, other ≠ name) := List.decidableBAll _ _
  decidable_of_iff (∀ other ∈ names, other ≠ name)
    ⟨fun h hname => h name hname rfl, fun h _ hother heq => h (heq ▸ hother)⟩

instance ViewCondition.decidable (settings : FolderSettings) (run : FolderRun) :
    (msg : FolderMessage) → Decidable (ViewCondition settings run msg)
  | .requestEnvelope sender requests =>
      have := decidableNotMem baseConfig run.folder.links.keys
      inferInstanceAs (Decidable (OneListing settings run (.requestEnvelope sender requests) ∧
        baseConfig ∉ run.folder.links.keys))
  | .registry (.registerDSLink name _ _) =>
      inferInstanceAs (Decidable (True ∧ (run.listing ≠ [] → name ≠ baseConfig)))
  | .registry (.unregisterDSLink name) =>
      have := decidableNotMem name run.folder.unsentNames
      inferInstanceAs (Decidable (True ∧ name ∉ run.folder.unsentNames))
  | .registry (.dsLinkStateChanged ..) | .forward _ | .own => .isTrue ⟨trivial, trivial⟩

theorem eq_of_isRootList {link : Link} {requests : List DSARequest}
    (h : isRootList link requests = true) :
    ∃ rid path, requests = [.list rid path] ∧ translatePath link.linkPath path = rootPath := by
  unfold isRootList at h
  split at h
  case h_1 rid path => exact ⟨rid, path, rfl, of_decide_eq_true h⟩
  case h_2 => cases h

/-! ### Rows -/

/-- The rows that a folder sends, as long as no link is called `$base`. -/
inductive FolderRow : DSAVal → Prop where
  | config (key : Str) {value : DSAVal} (hplain : ∀ m, value ≠ .map m) :
      FolderRow (.array [.string key, value])
  | link {name : Str} (hname : name ≠ baseConfig) : FolderRow (linkRow name)
  | removed (name : Str) : FolderRow (removedRow name)

theorem rowUpdate_removedRow (name : Str) : rowUpdate (removedRow name) = some (.remove name) := by
  have hname : DSAMap.get [(str "name", DSAVal.string name),
      (str "change", .string (str "remove"))] (str "name") = some (.string name) := by
    rw [DSAMap.get, if_pos rfl]
  have hchange : DSAMap.get [(str "name", DSAVal.string name),
      (str "change", .string (str "remove"))] (str "change") = some (.string (str "remove")) := by
    rw [DSAMap.get, if_neg (by decide), DSAMap.get, if_pos rfl]
  simp only [removedRow, rowUpdate, hname, hchange, if_true]

theorem rowUpdate_config {key : Str} {value : DSAVal} (hplain : ∀ m, value ≠ .map m) :
    rowUpdate (.array [.string key, value]) = none := by
  cases value with
  | map m => exact absurd rfl (hplain m)
  | _ => rfl

/-- The responder may adjust a row, but not what it says about links. -/
theorem FolderRow.rowUpdate_adjusted {link : Link} {row adjusted : DSAVal} (h : FolderRow row)
    (hadjusted : adjustedRow link row = some adjusted) : rowUpdate adjusted = rowUpdate row := by
  cases h with
  | @config key value hplain =>
    simp only [adjustedRow] at hadjusted
    split at hadjusted
    · obtain ⟨text, _, rfl⟩ := Option.map_eq_some_iff.mp hadjusted
      rw [rowUpdate_config hplain]
      rfl
    · cases hadjusted
      rfl
  | link hname =>
    simp only [linkRow, adjustedRow, if_neg hname] at hadjusted
    cases hadjusted
    rfl
  | removed name =>
    rw [adjustedRow_removedRow] at hadjusted
    cases hadjusted
    rfl

theorem filterMap_rowUpdate_adjusted {link : Link} {rows adjusted : List DSAVal}
    (hrows : ∀ row ∈ rows, FolderRow row)
    (hadjusted : rows.mapM (adjustedRow link) = some adjusted) :
    adjusted.filterMap rowUpdate = rows.filterMap rowUpdate := by
  induction rows generalizing adjusted with
  | nil =>
    cases hadjusted
    rfl
  | cons row rest ih =>
    rw [List.mapM_cons] at hadjusted
    simp only [Option.bind_eq_bind, Option.bind_eq_some_iff, Option.pure_def,
      Option.some.injEq] at hadjusted
    obtain ⟨first, hfirst, later, hlater, rfl⟩ := hadjusted
    rw [List.forall_mem_cons] at hrows
    rw [List.filterMap_cons, List.filterMap_cons, hrows.1.rowUpdate_adjusted hfirst,
      ih hrows.2 hlater]

/-! ### Listings -/

theorem filterMap_addedName_configs {configs : List (Str × DSAVal)}
    (hplain : ∀ config ∈ configs, ∀ value, config.2 ≠ .map value) :
    (rows configs).filterMap addedName = [] := by
  rw [rows, List.filterMap_map, List.filterMap_eq_nil_iff]
  intro config hconfig
  simp only [Function.comp_apply, addedName, rowUpdate_config (hplain config hconfig)]

theorem filterMap_addedName_linkRows (names : List Str) :
    (names.map linkRow).filterMap addedName = names := by
  rw [List.filterMap_map]
  exact List.filterMap_some

section

variable [ScanOrder Str] {settings : FolderSettings} {links : ScanMap Str LinkState}

theorem rows_listing (rid : Int) :
    (DSLinkFolderActor.listing settings links rid).flatMap DSAResponse.rows
      = DSLinkFolderActor.listNodes settings links := by
  rw [DSLinkFolderActor.listing, List.flatMap_map]
  exact List.flatMap_id'.trans (Grouping.flatten_grouped _ _)

/-- A listing adds the registered links. -/
theorem mem_addedNames_listNodes (name : Str) :
    name ∈ (DSLinkFolderActor.listNodes settings links).filterMap addedName ↔
      name ∈ links.keys := by
  have hconfigs := filterMap_addedName_configs settings.configs_plain
  have hnode : (rows [isNode]).filterMap addedName = [] := rfl
  rw [DSLinkFolderActor.listNodes, List.filterMap_append, List.filterMap_append, hnode, hconfigs,
    filterMap_addedName_linkRows, List.nil_append, List.nil_append, ScanOrder.mem_order]

theorem folderRow_of_listNodes (hbase : baseConfig ∉ links.keys) :
    ∀ row ∈ DSLinkFolderActor.listNodes settings links, FolderRow row := by
  intro row hrow
  rw [DSLinkFolderActor.listNodes, List.mem_append, List.mem_append] at hrow
  rcases hrow with (hrow | hrow) | hrow
  · rw [List.mem_singleton.mp hrow]
    exact .config _ nofun
  · obtain ⟨config, hconfig, rfl⟩ := List.mem_map.mp hrow
    exact .config _ (settings.configs_plain config hconfig)
  · obtain ⟨name, hname, rfl⟩ := List.mem_map.mp hrow
    apply FolderRow.link
    rintro rfl
    exact hbase ((ScanOrder.mem_order _ _).mp hname)

theorem rowUpdate_of_listNodes :
    ∀ row ∈ DSLinkFolderActor.listNodes settings links,
      rowUpdate row = (addedName row).map Update.add := by
  intro row hrow
  rw [DSLinkFolderActor.listNodes, List.mem_append, List.mem_append] at hrow
  rcases hrow with (hrow | hrow) | hrow
  · rw [List.mem_singleton.mp hrow]
    rfl
  · obtain ⟨config, hconfig, rfl⟩ := List.mem_map.mp hrow
    simp only [addedName, rowUpdate_config (settings.configs_plain config hconfig), Option.map_none]
  · obtain ⟨name, _, rfl⟩ := List.mem_map.mp hrow
    rfl

end

theorem filterMap_rowUpdate_adds {rows : List DSAVal}
    (hrows : ∀ row ∈ rows, rowUpdate row = (addedName row).map Update.add) :
    rows.filterMap rowUpdate = (rows.filterMap addedName).map Update.add := by
  induction rows with
  | nil => rfl
  | cons row rest ih =>
    rw [List.forall_mem_cons] at hrows
    rw [List.filterMap_cons, List.filterMap_cons, hrows.1, ih hrows.2]
    cases addedName row <;> rfl

/-! ### The steps of the feed -/

/-- The LIST call under the target RID, with one requester; no attribute has been set. -/
structure SoleCall (s : ResponderState) (rid : Int) (o : Origin) : Prop where
  nonzero : rid ≠ 0
  call : ListCallAt s rid
  origins : s.listRegistry.getOrigins rid = [o]
  attributes : s.attributes = fun _ => none

/-- A message of the folder to itself: an open response under the RID of the listing, with rows for
links and the folder's own configs only. -/
structure FolderResponse (rid : Int) (rsp : DSAResponse) : Prop where
  rid : rsp.rid = rid
  opened : rsp.stream = some .opened
  rows : ∀ row ∈ rsp.rows, FolderRow row

/-- The folder after the LIST, which has one requester and one listing: all that is on its way goes
to this requester, and what it has been told, is being told and will be told adds up to the
registered links. -/
structure Listed (o : Origin) (s : DSLinkFolderActor) : Prop where
  call : ∃ rid, s.listRid = some rid ∧ SoleCall s.responder rid o ∧
    (∀ rsp ∈ s.mailbox, FolderResponse rid rsp) ∧
      ∀ rsp ∈ s.listings.flatten, FolderResponse rid rsp
  single : ∃ listing, s.listings = [listing]
  adds : ∀ rsp ∈ s.listings.flatten, ∀ row ∈ rsp.rows,
    rowUpdate row = (addedName row).map Update.add
  links : baseConfig ∉ s.links.keys
  faithful : (s.feed o).Faithful

namespace DSLinkFolderActor

variable {s : DSLinkFolderActor} {o : Origin} {rid : Int}

theorem feed_registerDSLink (hrid : s.listRid = some rid) (name : Str) (mode : DSLinkMode)
    (connected : Bool) :
    (s.mgmtHandler (.registerDSLink name mode connected)).feed o = (s.feed o).add name := by
  have hmembers : { other | other ∈ (s.links.put name ⟨mode, connected⟩).keys }
      = insert name { other | other ∈ s.links.keys } := by
    ext other
    exact ScanMap.mem_keys_put ..
  have hrows : (rows [(name, DSAVal.map [isNode])]).filterMap rowUpdate = [.add name] := rfl
  simp only [mgmtHandler, notifyOnRegister, notify, feed, Feed.add, hrid, hmembers,
    Option.toList_some, List.map_cons, List.map_nil, List.flatMap_append, List.flatMap_cons,
    List.flatMap_nil, List.append_nil, DSAResponse.rows, openResponse, Option.getD_some,
    ← List.append_assoc, List.filterMap_append, hrows]
  rfl

theorem feed_unregisterDSLink (hrid : s.listRid = some rid) (name : Str) :
    (s.mgmtHandler (.unregisterDSLink name)).feed o = (s.feed o).remove name := by
  have hmembers : { other | other ∈ (s.links.remove name).keys }
      = { other | other ∈ s.links.keys } \ {name} := by
    ext other
    exact ScanMap.mem_keys_remove ..
  have hrows : [removedRow name].filterMap rowUpdate = [.remove name] := by
    rw [List.filterMap_cons, rowUpdate_removedRow]
    rfl
  simp only [mgmtHandler, notifyOnRemove, notify, feed, Feed.remove, hrid, hmembers,
    Option.toList_some, List.map_cons, List.map_nil, List.flatMap_append, List.flatMap_cons,
    List.flatMap_nil, List.append_nil, DSAResponse.rows, openResponse, Option.getD_some,
    ← List.append_assoc, List.filterMap_append, hrows]
  rfl

theorem feed_dsLinkStateChanged (name : Str) (mode : DSLinkMode) (connected : Bool) :
    (s.mgmtHandler (.dsLinkStateChanged name mode connected)).feed o = s.feed o := by
  simp only [mgmtHandler, changeLinkState]
  cases hentry : s.links.get name with
  | none => rfl
  | some entry =>
    have hkey : name ∈ s.links.keys := (s.links.mem_keys name).mpr (by rw [hentry]; rfl)
    have hkeys : (s.links.put name ⟨mode, connected⟩).keys = s.links.keys := if_pos hkey
    simp only [feed, hkeys]
    rfl

/-- A group of the listing comes into the mailbox. -/
theorem feed_forward {response : DSAResponse} (rest : List DSAResponse)
    (hadds : ∀ row ∈ response.rows, rowUpdate row = (addedName row).map Update.add) :
    feed o { s with listings := [rest], mailbox := s.mailbox ++ [response] }
      = (s.feed o).send (response.rows.filterMap addedName)
          ((rest.flatMap DSAResponse.rows).filterMap addedName) := by
  simp only [feed, Feed.send, unsentNames, List.flatten_cons, List.flatten_nil, List.append_nil,
    List.flatMap_append, List.flatMap_cons, List.flatMap_nil, ← List.append_assoc,
    List.filterMap_append, filterMap_rowUpdate_adds hadds]

end DSLinkFolderActor

/-! ### The messages of the mailbox -/

section

variable [ScanOrder Int] {link : Link} {s : ResponderState} {rid : Int} {o : Origin}
  {rsp : DSAResponse} {outcome : Outcome}

/-- A response to a LIST call is processed only if its rows can be adjusted. -/
theorem adjusted_of_receive {record : LookupRecord} {path : Str} (hrid : rsp.rid ≠ 0)
    (hrecord : s.ridRegistry.lookupByTargetId rsp.rid = some record)
    (hlist : record.IsListCall path)
    (h : receive link s (.responseMessage [rsp]) = some outcome) :
    ∃ adjusted, rsp.rows.mapM (adjustedRow link) = some adjusted := by
  simp only [receive] at h
  split at h
  case h_1 results p hrun =>
    obtain ⟨first, p₁, _, hfirst, _, _⟩ := processResponses_cons hrun
    cases responds_of_run hfirst with
    | subscribe hzero _ => exact absurd hzero hrid
    | list _ _ _ hrows _ => exact ⟨_, hrows⟩
    | call _ hfound hcall _ =>
      cases hrecord.symm.trans hfound
      exact absurd hlist (hcall path)
    | unknown _ hnone => exact absurd hlist ((hnone record hrecord).1 path)
  case h_2 => cases h

/-- A message of the folder comes to its only requester, adjusted. -/
theorem SoleCall.receive (h : SoleCall s rid o) (hrsp : FolderResponse rid rsp)
    (houtcome : receive link s (.responseMessage [rsp]) = some outcome) :
    SoleCall outcome.state rid o ∧ ∃ adjusted,
      rsp.rows.mapM (adjustedRow link) = some adjusted ∧
      outcome.sent.flatMap Delivery.each
        = [(o.source, { rsp with rid := o.sourceId, updates := some adjusted })] := by
  obtain ⟨record, path, hrecord, hlist⟩ := h.call
  have hrid : rsp.rid ≠ 0 := hrsp.rid ▸ h.nonzero
  have hlookup : s.ridRegistry.lookupByTargetId rsp.rid = some record := hrsp.rid ▸ hrecord
  obtain ⟨adjusted, hadjusted⟩ := adjusted_of_receive hrid hlookup hlist houtcome
  have hattributes : attributeRows s path = [] := by
    rw [attributeRows, h.attributes]
    rfl
  have hnot : rsp.stream ≠ some .closed := by
    rw [hrsp.opened]
    decide
  have hreceive := receive_listResponse hrid hlookup hlist hadjusted
  rw [houtcome] at hreceive
  cases hreceive
  refine ⟨?_, adjusted, hadjusted, ?_⟩
  · simp only [Bindings.deliverListResponse, if_neg hnot]
    refine ⟨h.nonzero, h.call, ?_, h.attributes⟩
    exact (Bindings.getOrigins_put_setLastResponse ..).trans h.origins
  · have horigins : (Bindings.getOrInsert s.listRegistry rsp.rid).origins = [o] := by
      rw [Bindings.origins_getOrInsert, hrsp.rid]
      exact h.origins
    rw [flatMap_each_alone]
    simp only [Bindings.deliverListResponse, GroupCallRecord.origins_setLastResponse, horigins,
      hattributes, List.append_nil, List.map_cons, List.map_nil]

end

theorem rowsFor_append (o : Origin) (sent later : List (Routee × DSAResponse)) :
    rowsFor o (sent ++ later) = rowsFor o sent ++ rowsFor o later := by
  simp only [rowsFor, List.filter_append, List.flatMap_append]

theorem rowsFor_own (o : Origin) (rsp : DSAResponse) (updates : List DSAVal) :
    rowsFor o [(o.source, { rsp with rid := o.sourceId, updates := some updates })] = updates := by
  simp [rowsFor, DSAResponse.rows]

/-- What the requester gets says about links what the message says. -/
theorem DSLinkFolderActor.feed_own {s : DSLinkFolderActor} {o : Origin} {rsp : DSAResponse}
    {rest : List DSAResponse} {link : Link} {adjusted : List DSAVal}
    (hmailbox : s.mailbox = rsp :: rest) (hrows : ∀ row ∈ rsp.rows, FolderRow row)
    (hadjusted : rsp.rows.mapM (adjustedRow link) = some adjusted) (responder : ResponderState) :
    feed o
      { s with
        responder := responder
        mailbox := rest
        sent := s.sent ++ [(o.source, { rsp with rid := o.sourceId, updates := some adjusted })] }
      = s.feed o := by
  simp only [feed, hmailbox, rowsFor_append, rowsFor_own, List.flatMap_cons, List.append_assoc,
    List.filterMap_append, filterMap_rowUpdate_adjusted hrows hadjusted]
  rfl

/-! ### Runs -/

/-- The folder before the LIST. -/
structure Unlisted (s : DSLinkFolderActor) : Prop where
  responder : s.responder = .initial
  listRid : s.listRid = none
  listings : s.listings = []
  mailbox : s.mailbox = []
  sent : s.sent = []

/-- What every state of a run satisfies. -/
def ViewInv (run : FolderRun) : Prop :=
  (run.listing = [] ∧ Unlisted run.folder) ∨ ∃ o, run.listing = [o] ∧ Listed o run.folder

theorem Unlisted.mgmtHandler {s : DSLinkFolderActor} (h : Unlisted s) (message : RegistryMessage) :
    Unlisted (s.mgmtHandler message) := by
  have hnotify : ∀ (links : ScanMap Str LinkState) (updates : List DSAVal),
      Unlisted (({ s with links := links } : DSLinkFolderActor).notify updates) := by
    intro links updates
    refine ⟨h.responder, h.listRid, h.listings, ?_, h.sent⟩
    simp only [DSLinkFolderActor.notify, h.listRid, h.mailbox, Option.toList_none, List.map_nil,
      List.append_nil]
  cases message with
  | registerDSLink name mode connected => exact hnotify _ _
  | unregisterDSLink name => exact hnotify _ _
  | dsLinkStateChanged name mode connected =>
    simp only [DSLinkFolderActor.mgmtHandler, DSLinkFolderActor.changeLinkState]
    cases s.links.get name with
    | none => exact h
    | some entry => exact ⟨h.responder, h.listRid, h.listings, h.mailbox, h.sent⟩

namespace Listed

variable {s : DSLinkFolderActor} {o : Origin}

/-- The folder notifies its requester of a change of the links. -/
theorem notify (h : Listed o s) {links : ScanMap Str LinkState} (hbase : baseConfig ∉ links.keys)
    {updates : List DSAVal} (hupdates : ∀ row ∈ updates, FolderRow row)
    (hfaithful :
      ((({ s with links := links } : DSLinkFolderActor).notify updates).feed o).Faithful) :
    Listed o (({ s with links := links } : DSLinkFolderActor).notify updates) := by
  obtain ⟨rid, hrid, hcall, hmailbox, hlistings⟩ := h.call
  refine ⟨⟨rid, hrid, hcall, ?_, hlistings⟩, h.single, h.adds, hbase, hfaithful⟩
  intro rsp hrsp
  simp only [DSLinkFolderActor.notify, hrid] at hrsp
  rcases List.mem_append.mp hrsp with hold | hnew
  · exact hmailbox rsp hold
  · rw [List.mem_singleton.mp hnew]
    exact ⟨rfl, rfl, hupdates⟩

theorem registerDSLink (h : Listed o s) {name : Str} (hname : name ≠ baseConfig)
    (mode : DSLinkMode) (connected : Bool) :
    Listed o (s.mgmtHandler (.registerDSLink name mode connected)) := by
  obtain ⟨rid, hrid, _⟩ := h.call
  apply h.notify
  · rw [ScanMap.mem_keys_put]
    rintro (heq | hold)
    · exact hname heq.symm
    · exact h.links hold
  · intro row hrow
    rw [List.mem_singleton.mp hrow]
    exact .link hname
  · have hfeed := DSLinkFolderActor.feed_registerDSLink (o := o) hrid name mode connected
    exact hfeed ▸ h.faithful.add name

theorem unregisterDSLink (h : Listed o s) {name : Str} (hname : name ∉ s.unsentNames) :
    Listed o (s.mgmtHandler (.unregisterDSLink name)) := by
  obtain ⟨rid, hrid, _⟩ := h.call
  apply h.notify
  · rw [ScanMap.mem_keys_remove]
    rintro ⟨hold, _⟩
    exact h.links hold
  · intro row hrow
    rw [List.mem_singleton.mp hrow]
    exact .removed name
  · have hfeed := DSLinkFolderActor.feed_unregisterDSLink (o := o) hrid name
    exact hfeed ▸ (h.faithful.remove_iff name).mpr hname

theorem dsLinkStateChanged (h : Listed o s) (name : Str) (mode : DSLinkMode) (connected : Bool) :
    Listed o (s.mgmtHandler (.dsLinkStateChanged name mode connected)) := by
  have hfeed := DSLinkFolderActor.feed_dsLinkStateChanged (s := s) (o := o) name mode connected
  have hfaithful := hfeed ▸ h.faithful
  simp only [DSLinkFolderActor.mgmtHandler, DSLinkFolderActor.changeLinkState] at hfaithful ⊢
  cases hentry : s.links.get name with
  | none => exact h
  | some entry =>
    rw [hentry] at hfaithful
    have hkey : name ∈ s.links.keys := (s.links.mem_keys name).mpr (by rw [hentry]; rfl)
    refine ⟨h.call, h.single, h.adds, ?_, hfaithful⟩
    rw [ScanMap.mem_keys_put]
    rintro (heq | hold)
    · exact h.links (heq ▸ hkey)
    · exact h.links hold

section

variable [ScanOrder Int] [ScanOrder Str] {settings : FolderSettings}

/-- The next group of the listing comes into the mailbox. -/
theorem forward (h : Listed o s) {i : Nat} {s' : DSLinkFolderActor}
    (hreceive : s.receive settings (.forward i) = some s') : Listed o s' := by
  obtain ⟨rid, hrid, hcall, hmailbox, hlistings⟩ := h.call
  obtain ⟨listing, hsingle⟩ := h.single
  have hadds := h.adds
  simp only [DSLinkFolderActor.receive, hsingle] at hreceive
  split at hreceive
  case h_1 response rest hfound =>
    obtain ⟨hlt, hfound⟩ := List.getElem?_eq_some_iff.mp hfound
    obtain rfl : i = 0 := by simpa using hlt
    obtain rfl : listing = response :: rest := hfound
    cases hreceive
    rw [hsingle, List.flatten_singleton, List.forall_mem_cons] at hlistings hadds
    have hfeed := DSLinkFolderActor.feed_forward (s := s) (o := o) rest hadds.1
    -- what was still to be told is what this row adds and what the later rows add
    have hunsent : (s.feed o).unsent = response.rows.filterMap addedName
        ++ (rest.flatMap DSAResponse.rows).filterMap addedName := by
      simp only [DSLinkFolderActor.feed, DSLinkFolderActor.unsentNames, hsingle,
        List.flatten_singleton, List.flatMap_cons, List.filterMap_append]
    have hrest : ([rest] : List (List DSAResponse)).flatten = rest := List.flatten_singleton
    refine ⟨⟨rid, hrid, hcall, ?_, ?_⟩, ⟨rest, rfl⟩, ?_, h.links, hfeed ▸ h.faithful.send hunsent⟩
    · intro rsp hrsp
      rcases List.mem_append.mp hrsp with hold | hnew
      · exact hmailbox rsp hold
      · rw [List.mem_singleton.mp hnew]
        exact hlistings.1
    · exact fun rsp hrsp => hlistings.2 rsp (hrest ▸ hrsp)
    · exact fun rsp hrsp => hadds.2 rsp (hrest ▸ hrsp)
  case h_2 => cases hreceive

/-- The folder processes the next message of its mailbox. -/
theorem own (h : Listed o s) {s' : DSLinkFolderActor}
    (hreceive : s.receive settings .own = some s') : Listed o s' := by
  obtain ⟨rid, hrid, hcall, hmailbox, hlistings⟩ := h.call
  simp only [DSLinkFolderActor.receive] at hreceive
  split at hreceive
  case h_1 rsp rest hnext =>
    obtain ⟨outcome, houtcome, rfl⟩ := Option.map_eq_some_iff.mp hreceive
    rw [hnext, List.forall_mem_cons] at hmailbox
    obtain ⟨hafter, adjusted, hadjusted, hsent⟩ := hcall.receive hmailbox.1 houtcome
    have hfeed := DSLinkFolderActor.feed_own hnext hmailbox.1.rows hadjusted outcome.state (o := o)
    rw [hsent]
    exact ⟨⟨rid, hrid, hafter, hmailbox.2, hlistings⟩, h.single, h.adds, h.links,
      hfeed ▸ h.faithful⟩
  case h_2 => cases hreceive

end

end Listed

/-- The first LIST is a call of its own, with one requester. -/
theorem receive_firstList [ScanOrder Int] (link : Link) (sender : Routee) (rid : Int)
    (path : Str) :
    ∃ outcome, receive link .initial (.requestEnvelope sender [.list rid path]) = some outcome ∧
      outcome.toEndpoint = [[.list 1 (translatePath link.linkPath path)]] ∧ outcome.sent = [] ∧
      SoleCall outcome.state 1 ⟨sender, rid⟩ :=
  ⟨_, rfl, rfl, rfl, by decide, ⟨_, _, rfl, rfl, rfl⟩, rfl, rfl⟩

section

variable [ScanOrder Int] [ScanOrder Str] {settings : FolderSettings}

/-- The listing is made when the LIST is handled, and nothing of it is sent then. -/
theorem Unlisted.list {s s' : DSLinkFolderActor} (h : Unlisted s) {sender : Routee} {rid : Int}
    {path : Str} (hroot : translatePath settings.link.linkPath path = rootPath)
    (hbase : baseConfig ∉ s.links.keys)
    (hreceive : s.receive settings (.requestEnvelope sender [.list rid path]) = some s') :
    Listed ⟨sender, rid⟩ s' := by
  obtain ⟨outcome, houtcome, hforwarded, hsent, hcall⟩ :=
    receive_firstList settings.link sender rid path
  rw [← h.responder] at houtcome
  -- every row of the listing is a node of the folder, whichever response it stands in
  have hrows : ∀ rsp ∈ DSLinkFolderActor.listing settings s.links 1, ∀ row ∈ rsp.rows,
      row ∈ DSLinkFolderActor.listNodes settings s.links := by
    intro rsp hrsp row hrow
    rw [← rows_listing 1]
    exact List.mem_flatMap.mpr ⟨rsp, hrsp, hrow⟩
  -- the LIST is the first request: it gets target RID 1, and the folder starts one listing
  have hs' : s' =
      { s with
        responder := outcome.state
        listRid := some 1
        listings := [DSLinkFolderActor.listing settings s.links 1]
        sent := [] } := by
    simp only [DSLinkFolderActor.receive, houtcome, Option.map_some, hforwarded, hroot, hsent,
      DSLinkFolderActor.sendToEndpoint, List.flatten_singleton, List.foldl_cons, List.foldl_nil,
      DSLinkFolderActor.handleRequest, if_true, h.listings, h.sent, List.flatMap_nil,
      List.nil_append, Option.some.injEq] at hreceive
    exact hreceive.symm
  subst hs'
  refine ⟨⟨1, rfl, hcall, ?_, ?_⟩, ⟨_, rfl⟩, ?_, hbase, ?_⟩
  · -- the mailbox was empty before anyone listed
    intro rsp hrsp
    rw [h.mailbox] at hrsp
    cases hrsp
  · -- each response of the listing is open, of the folder itself, and carries folder rows only
    intro rsp hrsp
    rw [List.flatten_singleton] at hrsp
    refine ⟨?_, listing_opened rsp hrsp, ?_⟩
    · obtain ⟨updates, _, rfl⟩ := List.mem_map.mp hrsp
      rfl
    · exact fun row hrow => folderRow_of_listNodes hbase row (hrows rsp hrsp row hrow)
  · intro rsp hrsp row hrow
    rw [List.flatten_singleton] at hrsp
    exact rowUpdate_of_listNodes row (hrows rsp hrsp row hrow)
  · -- nothing is sent or on its way yet, so all that the requester will see is the unsent listing
    have hupdates : (rowsFor ⟨sender, rid⟩ [] ++ s.mailbox.flatMap DSAResponse.rows).filterMap
        rowUpdate = [] := by
      rw [h.mailbox]
      rfl
    simp only [DSLinkFolderActor.feed, hupdates, DSLinkFolderActor.unsentNames,
      List.flatten_singleton, rows_listing]
    apply Feed.Faithful.start
    intro name
    exact mem_addedNames_listNodes name

/-- **One message of a run**: before the LIST nothing waits to be told; afterwards what the
requester has seen and what is on its way give the registered links. -/
theorem ViewInv.receive {run run' : FolderRun} (h : ViewInv run) {msg : FolderMessage}
    (hok : ViewCondition settings run msg) (hreceive : run.receive settings msg = some run') :
    ViewInv run' := by
  obtain ⟨folder, hfolder, rfl⟩ := Option.map_eq_some_iff.mp hreceive
  obtain ⟨hsingle, hcondition⟩ := hok
  rcases h with ⟨hnone, hunlisted⟩ | ⟨o, hlisting, hlisted⟩
  · cases msg with
    | requestEnvelope sender requests =>
      obtain ⟨rid, path, rfl, hroot⟩ := eq_of_isRootList hsingle.2
      refine Or.inr ⟨⟨sender, rid⟩, ?_, hunlisted.list hroot hcondition hfolder⟩
      simp only [List.foldl_cons, List.foldl_nil, listingAfter, hroot, if_true, hnone]
      rfl
    | registry message =>
      cases hfolder
      exact Or.inl ⟨hnone, hunlisted.mgmtHandler message⟩
    | forward i =>
      simp only [DSLinkFolderActor.receive, hunlisted.listings, List.getElem?_nil] at hfolder
      cases hfolder
    | own =>
      simp only [DSLinkFolderActor.receive, hunlisted.mailbox] at hfolder
      cases hfolder
  · refine Or.inr ⟨o, ?_⟩
    cases msg with
    -- the condition allows one LIST in the run, so no further request comes
    | requestEnvelope sender requests =>
      rw [OneListing, hlisting] at hsingle
      cases hsingle.1
    | registry message =>
      cases hfolder
      refine ⟨hlisting, ?_⟩
      cases message with
      | registerDSLink name mode connected =>
        have hname : name ≠ baseConfig := hcondition (by rw [hlisting]; exact List.cons_ne_nil _ _)
        exact hlisted.registerDSLink hname mode connected
      | unregisterDSLink name => exact hlisted.unregisterDSLink hcondition
      | dsLinkStateChanged name mode connected =>
        exact hlisted.dsLinkStateChanged name mode connected
    | forward i => exact ⟨hlisting, hlisted.forward hfolder⟩
    | own => exact ⟨hlisting, hlisted.own hfolder⟩

end

/-- **The requester sees the registered links.**  In every run of one LIST of the root whose
steps meet the condition, whenever no message is in flight the names that the requester has been
told are those of the registered links. -/
theorem view_agrees [ScanOrder Int] [ScanOrder Str] {settings : FolderSettings} {run : FolderRun}
    (h : Reachable (FolderRun.receive settings) (ViewCondition settings) .initial run)
    {o : Origin} (ho : o ∈ run.listing) (hquiet : run.folder.Quiet) (name : Str) :
    name ∈ run.folder.viewedBy o ↔ name ∈ run.folder.links.keys := by
  have hinv : ViewInv run := by
    apply h.invariant
    · exact Or.inl ⟨rfl, rfl, rfl, rfl, rfl, rfl⟩
    · intro run msg run' hrun hok hreceive
      exact hrun.receive hok hreceive
  rcases hinv with ⟨hnone, _⟩ | ⟨origin, hlisting, hlisted⟩
  · rw [hnone] at ho
    cases ho
  · obtain ⟨hmailbox, hlistings⟩ := hquiet
    obtain rfl : o = origin := by
      rw [hlisting] at ho
      exact List.mem_singleton.mp ho
    have hunsent : (run.folder.feed o).unsent = [] := by
      simp only [DSLinkFolderActor.feed, DSLinkFolderActor.unsentNames, hlistings]
      rfl
    have hview : viewOf (run.folder.feed o).updates = run.folder.viewedBy o := by
      simp only [DSLinkFolderActor.feed, DSLinkFolderActor.viewedBy, hmailbox, List.flatMap_nil,
        List.append_nil]
    rw [← hview]
    exact hlisted.faithful.settled hunsent name

/-! ### A link that comes and goes -/

def linkY : Str := str "y"

def registerY : FolderMessage := .registry (.registerDSLink linkY .requester false)

def unregisterY : FolderMessage := .registry (.unregisterDSLink linkY)

/-- The link is registered, listed, forwarded, and then removed. -/
theorem view_agrees_removed :
    ∃ run : FolderRun, run.folder.sent.length = 3 ∧
      ∀ name, name ∈ run.folder.viewedBy ⟨requesterA, 1⟩ ↔ name ∈ run.folder.links.keys := by
  obtain ⟨run, hrun, hlisting, hmailbox, hlistings, hsent⟩ :
      ∃ run, Reachable (FolderRun.receive downstreamSettings) (ViewCondition downstreamSettings)
        .initial run ∧ run.listing = [⟨requesterA, 1⟩] ∧ run.folder.mailbox = [] ∧
        run.folder.listings.flatten = [] ∧ run.folder.sent.length = 3 :=
    Reachable.exists_of_run
      [registerY, listRoot requesterA 1, .forward 0, .forward 0, unregisterY, .own, .own, .own]
      (by decide +kernel)
  have ho : ⟨requesterA, 1⟩ ∈ run.listing := hlisting ▸ List.mem_singleton.mpr rfl
  exact ⟨run, hsent, view_agrees hrun ho ⟨hmailbox, hlistings⟩⟩

/-- The link is removed while its row waits to be forwarded: the requester is told first that it
is gone and then that it is there. -/
theorem removed_link_seen :
    ¬ ∀ run, Reachable (FolderRun.receive downstreamSettings) (OneListing downstreamSettings)
      .initial run → ∀ o ∈ run.listing, run.folder.Quiet →
      ∀ name, name ∈ run.folder.viewedBy o ↔ name ∈ run.folder.links.keys := by
  intro hall
  obtain ⟨run, hrun, hlisting, hmailbox, hlistings, hkeys, hviewed⟩ :
      ∃ run, Reachable (FolderRun.receive downstreamSettings) (OneListing downstreamSettings)
        .initial run ∧ run.listing = [⟨requesterA, 1⟩] ∧ run.folder.mailbox = [] ∧
        run.folder.listings.flatten = [] ∧ run.folder.links.keys = [] ∧
        run.folder.viewedBy ⟨requesterA, 1⟩ = [linkY] :=
    Reachable.exists_of_run
      [registerY, listRoot requesterA 1, unregisterY, .forward 0, .forward 0, .own, .own, .own]
      (by decide +kernel)
  have hseen := hall run hrun ⟨requesterA, 1⟩ (hlisting ▸ List.mem_singleton.mpr rfl)
    ⟨hmailbox, hlistings⟩ linkY
  rw [hkeys, hviewed] at hseen
  cases hseen.mp List.mem_cons_self

end DsaBroker
