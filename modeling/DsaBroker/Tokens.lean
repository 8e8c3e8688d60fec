import DsaBroker.RejectionSampling
import DsaBroker.TokenChecks

/-!
# Tokens

`Tokens`, and the actions of the node `/sys/tokens` and of the token nodes below it, from
`StandardActions`.  The id of a token is its first part; a token node has the id for its name, and
keeps the token in a child.

The actions are worked off one after the other.  What `Random` draws is a list that may end.

A token node whose list of links has been replaced by something else throws when a link is added to
it.  It is restarted: it is still there under its name, with the configs of a new node, but without
its children, so that neither its token nor its role nor its actions are left.
-/

namespace DsaBroker

/-! ### `Tokens` -/

/-- Extracts the first 16 digits of the token. -/
def getTokenId (token : Str) : Str := token.take 16

/-- The codes of digits and letters. -/
def isTokenCode (n : Nat) : Bool :=
  0x30 ≤ n && n ≤ 0x39 || 0x41 ≤ n && n ≤ 0x5A || 0x61 ≤ n && n ≤ 0x7A

def tokenText (codes : List Nat) : Str := codes.map Nat.toUInt16

/-- Creates a new random token, and leaves the rest of what is drawn. -/
def createToken (draws : List Nat) : Option (Str × List Nat) :=
  (drawn isTokenCode 48 draws).map fun r => (tokenText r.1, r.2)

/-- Generates a new token by combining the first 16 digits of the current one and the tail of the
newly generated token. -/
def regenerate (curToken : Str) (draws : List Nat) : Option Str :=
  (createToken draws).map fun r => getTokenId curToken ++ r.1.drop 16

/-- Creates a unique token for the node that has these children. -/
def makeTokenForNode (child : Str → Bool) (draws : List Nat) : Option Str :=
  (retried createToken (fun token => !child (getTokenId token)) (draws.length + 1) draws).map
    Prod.fst

/-! ### Token nodes -/

/-- The values of the children of a token node. -/
structure TokenValues where
  count : Str
  managed : Str
  maxSession : Str
  role : Str
  timeRange : Str
  token : Str

/-- A token node, with a record of what it was given. -/
structure TokenChild where
  configs : DSAMap
  /-- its children, until it is restarted -/
  values : Option TokenValues
  /-- all tokens that it has had -/
  tokens : List Str
  /-- the role that it was made for -/
  givenRole : Str

/-- Initializes a token node. -/
def initTokenNode (token groupName timeRange count maxSession managed : Str) : TokenChild where
  configs := (InMemoryDSANode.initial.configs.updated (str "$is")
    (.string (str "broker/tokenNode"))).updated (str "$is") (.string (str "broker/token"))
  values := some
    { count := count
      managed := managed
      maxSession := maxSession
      role := groupName
      timeRange := timeRange
      token := token }
  tokens := [token]
  givenRole := groupName

/-- The node as its supervisor builds it anew. -/
def TokenChild.restarted (child : TokenChild) : TokenChild :=
  { child with configs := InMemoryDSANode.initial.configs, values := none }

/-- The token nodes below `/sys/tokens`. -/
abbrev TokenGroup := ScanMap Str TokenChild

def tokenConfigs : ConfigStore TokenChild where
  config child name := child.configs.get name
  put child name value := { child with configs := child.configs.updated name value }
  config_put child name value other := DSAMap.get_updated child.configs name other value

namespace TokenGroup

def DEFAULT_TOKEN : Str := str "1234567891234567"

/-- `createTokensNode`. -/
def initial : TokenGroup :=
  ScanMap.empty.put (getTokenId DEFAULT_TOKEN)
    (initTokenNode DEFAULT_TOKEN (str "config") [] [] [] [])

/-- `GetTokens`. -/
def nodes [ScanOrder Str] (group : TokenGroup) : List TokenNode :=
  group.entries.map fun e => ⟨e.1, (e.2.values.map TokenValues.token).getD [], e.2.configs.get⟩

/-- The role of the token's node. -/
def getGroupName (group : TokenGroup) (token : Str) : Option Str :=
  ((group.get (getTokenId token)).bind TokenChild.values).map TokenValues.role

/-- `args.getOrElse(name, "").toString`; `none` when it throws. -/
def argText (toText : DSAVal → Option Str) : Option DSAVal → Option Str
  | none => some []
  | some value => toText value

/-- The action `add`: the new group, and the token. -/
def addToken (toText : DSAVal → Option Str) (group : TokenGroup) (args : DSAMap)
    (draws : List Nat) : Option (TokenGroup × Str) := do
  let groupName ← argText toText ((args.get (str "Role")).or (args.get (str "Group")))
  let timeRange ← argText toText (args.get (str "TimeRange"))
  let count ← argText toText (args.get (str "Count"))
  let maxSession ← argText toText (args.get (str "MaxSession"))
  let managed ← argText toText (args.get (str "Managed"))
  let token ← makeTokenForNode (fun id => (group.get id).isSome) draws
  some (group.put (getTokenId token)
    (initTokenNode token groupName timeRange count maxSession managed), token)

/-- What goes to a node that is not there is lost. -/
def modify (group : TokenGroup) (id : Str) (f : TokenChild → Option TokenChild) :
    Option TokenGroup :=
  match group.get id with
  | none => some group
  | some child => (f child).map (group.put id)

/-- Actions are children of their node, so a node that was restarted has none. -/
def act (group : TokenGroup) (id : Str) (f : TokenChild → TokenValues → Option TokenChild) :
    Option TokenGroup :=
  group.modify id fun child =>
    match child.values with
    | none => some child
    | some values => f child values

/-- The action `remove`. -/
def removeToken (group : TokenGroup) (id : Str) : TokenGroup :=
  if (group.get id).any fun child => child.values.isNone then group else ScanMap.remove group id

/-- The name that `addConfigs` gives to a config. -/
def configName (name : Str) : Str := if startsWith name [dollar] then name else dollar :: name

end TokenGroup

/-- What happens to token nodes; `check` is one of `checkToken` for this hash. -/
inductive TokenInput where
  | add (args : DSAMap) (draws : List Nat)
  | remove (id : Str)
  | removeAllClients (id : Str)
  | regenerate (id : Str) (draws : List Nat)
  | appendDsId2Token (id dsId : Str)
  | setConfig (id name : Str) (value : DSAVal)
  | removeConfig (id name : Str)
  | check (hash : Str)

/-- One input; `none` when an argument of `add` is `null`, or when there is nothing left to draw. -/
def TokenGroup.step (toText : DSAVal → Option Str) (group : TokenGroup) :
    TokenInput → Option TokenGroup
  | .add args draws => (group.addToken toText args draws).map Prod.fst
  | .remove id => some (group.removeToken id)
  | .removeAllClients id =>
      group.act id fun child _ => some { child with configs := child.configs.removed dsLinkIds }
  | .regenerate id draws =>
      group.act id fun child values => (DsaBroker.regenerate values.token draws).map fun token =>
        { child with
          values := some { values with token := token }
          tokens := child.tokens ++ [token] }
  | .appendDsId2Token id dsId =>
      group.modify id fun child =>
        some ((tokenConfigs.appendDsId dsLinkIds child dsId).getD child.restarted)
  | .setConfig id name value =>
      group.modify id fun child => some (tokenConfigs.put child (TokenGroup.configName name) value)
  | .removeConfig id name =>
      group.modify id fun child => some { child with configs := child.configs.removed name }
  | .check hash =>
      group.modify (getTokenId hash) fun child => some (tokenConfigs.attempt child).1

/-! ### New tokens -/

theorem length_createToken {draws rest : List Nat} {token : Str}
    (h : createToken draws = some (token, rest)) : token.length = 48 := by
  obtain ⟨⟨codes, left⟩, hdrawn, heq⟩ := Option.map_eq_some_iff.mp h
  obtain ⟨rfl, rfl⟩ := Prod.mk.inj heq
  exact (List.length_map _).trans (drawn_eq_some hdrawn).1

theorem length_makeTokenForNode {child : Str → Bool} {draws : List Nat} {token : Str}
    (h : makeTokenForNode child draws = some token) : token.length = 48 := by
  obtain ⟨⟨_, left⟩, hretried, rfl⟩ := Option.map_eq_some_iff.mp h
  obtain ⟨-, before, hcreated⟩ := good_of_retried hretried
  exact length_createToken hcreated

/-- **The new token.**  It is the first block of 48 digits and letters drawn whose id no child has,
and there is one as soon as such a block is drawn. -/
theorem makeTokenForNode_iff {child : Str → Bool} {draws : List Nat} {token : Str} :
    makeTokenForNode child draws = some token ↔
      ∃ (blocks : List (List Nat)) (codes more : List Nat),
        draws.filter isTokenCode = blocks.flatten ++ (codes ++ more) ∧
        (∀ block ∈ blocks, block.length = 48 ∧ child (getTokenId (tokenText block)) = true) ∧
        codes.length = 48 ∧ token = tokenText codes ∧ child (getTokenId token) = false := by
  have hmapped : makeTokenForNode child draws =
      ((retried (drawn isTokenCode 48) (fun codes => !child (getTokenId (tokenText codes)))
        (draws.length + 1) draws).map Prod.fst).map tokenText := by
    rw [makeTokenForNode, Option.map_map]
    exact (congrArg (Option.map Prod.fst) (retried_map _ tokenText _ _ _)).trans
      (Option.map_map ..)
  rw [hmapped, Option.map_eq_some_iff]
  simp only [retried_drawn_iff, Bool.not_eq_eq_eq_not, Bool.not_true, Bool.not_false]
  constructor
  · rintro ⟨codes, ⟨blocks, more, -, hfilter, hbad, hlength, hgood⟩, rfl⟩
    exact ⟨blocks, codes, more, hfilter, hbad, hlength, rfl, hgood⟩
  · rintro ⟨blocks, codes, more, hfilter, hbad, hlength, rfl, hgood⟩
    refine ⟨codes, ⟨blocks, more, ?_, hfilter, hbad, hlength, hgood⟩, rfl⟩
    have hblocks := length_le_length_flatten fun block hblock => (hbad block hblock).1
    have hdraws := List.length_filter_le isTokenCode draws
    rw [hfilter, List.length_append] at hdraws
    omega

/-- The hash begins with the id. -/
theorem getTokenId_hashToken {Point : Type} (platform : Platform Point) {token : Str}
    (h : 16 ≤ token.length) (dsId : Str) :
    getTokenId (hashToken platform token dsId) = getTokenId token := by
  have hlength : 16 ≤ (token.take 16).length := by
    rw [List.length_take]
    omega
  rw [getTokenId, hashToken, List.take_append_of_le_length hlength, List.take_take, Nat.min_self,
    getTokenId]

/-! ### What is kept of a token node -/

/-- The configs that limit the use of a token. -/
def limitNames : List Str := [str "$count", str "$countItem", str "$timeRange"]

/-- All tokens of the node have its name for their id, and their use is not limited. -/
structure TokenChild.Unlimited (id : Str) (child : TokenChild) : Prop where
  length : id.length = 16
  ids : ∀ token ∈ child.tokens, getTokenId token = id
  current : ∀ values, child.values = some values → values.token ∈ child.tokens
  unused : Unused (some 0) [] child.configs.get
  anyTime : child.configs.get (str "$timeRange") = none

namespace TokenChild.Unlimited

variable {id : Str} {child : TokenChild}

/-- A node with nothing but a profile. -/
theorem unused_of_profile (profile : Str) :
    Unused (some 0) [] (DSAMap.get [(str "$is", .string profile)]) := by
  have hother : ∀ name, name ≠ str "$is" →
      DSAMap.get [(str "$is", .string profile)] name = none := by
    intro name hname
    rw [DSAMap.get, if_neg (Ne.symm hname), DSAMap.get]
  constructor
  · rw [hother _ (by decide)]
    decide
  · rw [hother _ (by decide)]
    decide
  · exact fun _ hentry => absurd hentry List.not_mem_nil

theorem init {token : Str} (h : 16 ≤ token.length)
    (groupName timeRange count maxSession managed : Str) :
    (initTokenNode token groupName timeRange count maxSession managed).Unlimited
      (getTokenId token) where
  length := List.length_take_of_le h
  ids := List.forall_mem_singleton.mpr rfl
  current := by
    rintro values ⟨⟩
    exact List.mem_singleton.mpr rfl
  unused := unused_of_profile (str "broker/token")
  anyTime := rfl

theorem restarted (h : child.Unlimited id) : child.restarted.Unlimited id where
  length := h.length
  ids := h.ids
  current := fun _ hnone => absurd hnone.symm (Option.some_ne_none _)
  unused := unused_of_profile (str "node")
  anyTime := rfl

/-- Other configs may change, and the limits may be removed. -/
theorem withConfigs (h : child.Unlimited id) {configs : DSAMap}
    (hlimits : ∀ name ∈ limitNames, configs.get name = child.configs.get name ∨
      configs.get name = none) : TokenChild.Unlimited id { child with configs := configs } where
  length := h.length
  ids := h.ids
  current := h.current
  unused := by
    constructor
    · rcases hlimits (str "$countItem") (by decide) with hsame | hnone
      · rw [hsame]
        exact h.unused.countItem
      · rw [hnone]
        decide
    · rcases hlimits (str "$count") (by decide) with hsame | hnone
      · rw [hsame]
        exact h.unused.count
      · rw [hnone]
        decide
    · exact fun _ hentry => absurd hentry List.not_mem_nil
  anyTime := by
    rcases hlimits (str "$timeRange") (by decide) with hsame | hnone
    · rw [← h.anyTime, ← hsame]
    · exact hnone

theorem regenerated (h : child.Unlimited id) {values : TokenValues}
    (hvalues : child.values = some values) {draws : List Nat} {token : Str}
    (htoken : regenerate values.token draws = some token) :
    TokenChild.Unlimited id
      { child with
        values := some { values with token := token }
        tokens := child.tokens ++ [token] } where
  length := h.length
  ids := by
    obtain ⟨r, -, rfl⟩ := Option.map_eq_some_iff.mp htoken
    intro t ht
    rcases List.mem_append.mp ht with hold | hnew
    · exact h.ids t hold
    · have hid : getTokenId values.token = id := h.ids values.token (h.current values hvalues)
      have hlength : (getTokenId values.token).length = 16 := hid ▸ h.length
      rw [List.mem_singleton.mp hnew, ← hid, getTokenId, List.take_append_of_le_length hlength.ge,
        List.take_of_length_le hlength.le]
  current := by
    rintro _ ⟨⟩
    exact List.mem_append_right _ (List.mem_singleton.mpr rfl)
  unused := h.unused
  anyTime := h.anyTime

theorem used (h : child.Unlimited id) : (tokenConfigs.attempt child).1.Unlimited id := by
  have hafter : (tokenConfigs.attempt child).1 = { child with
      configs := child.configs.updated firstEntry.1 firstEntry.2 } := by
    rw [ConfigStore.attempt]
    simp only [tokenConfigs, h.unused.checkTokenCount, List.foldl_cons, List.foldl_nil]
  rw [hafter]
  refine ⟨h.length, h.ids, h.current,
    ⟨?_, ?_, fun _ hentry => absurd hentry List.not_mem_nil⟩, ?_⟩
  · rw [DSAMap.get_updated, if_pos (by decide)]
    exact toInt?_firstEntry
  · rw [DSAMap.get_updated, if_neg (by decide)]
    exact h.unused.count
  · rw [DSAMap.get_updated, if_neg (by decide)]
    exact h.anyTime

theorem appended (h : child.Unlimited id) {dsId : Str} {after : TokenChild}
    (hafter : tokenConfigs.appendDsId dsLinkIds child dsId = some after) : after.Unlimited id := by
  rw [ConfigStore.appendDsId, if_pos (by decide)] at hafter
  obtain ⟨value, -, rfl⟩ := Option.map_eq_some_iff.mp hafter
  refine h.withConfigs fun name hname => Or.inl ?_
  rw [DSAMap.get_updated, if_neg]
  rintro rfl
  exact absurd hname (by decide)

/-- The node passes its checks at any time. -/
theorem checkTokenNode (h : child.Unlimited id) (clock : Clock) (name token : Str) :
    checkTokenNode clock ⟨name, token, child.configs.get⟩ = some true := by
  have hdates : checkTokenDates clock child.configs.get = true := by
    rw [checkTokenDates, h.anyTime]
  simp only [DsaBroker.checkTokenNode, h.unused.checkTokenCount, hdates]
  rfl

end TokenChild.Unlimited

namespace TokenGroup

/-- No limit is set by hand. -/
def SetsNoLimit (_ : TokenGroup) : TokenInput → Prop
  | .setConfig _ name _ => configName name ∉ limitNames
  | _ => True

instance SetsNoLimit.decidable (group : TokenGroup) :
    (input : TokenInput) → Decidable (SetsNoLimit group input)
  | .setConfig _ name _ => inferInstanceAs (Decidable (configName name ∉ limitNames))
  | .add .. => .isTrue trivial
  | .remove _ => .isTrue trivial
  | .removeAllClients _ => .isTrue trivial
  | .regenerate .. => .isTrue trivial
  | .appendDsId2Token .. => .isTrue trivial
  | .removeConfig .. => .isTrue trivial
  | .check _ => .isTrue trivial

def isArray : DSAVal → Bool
  | .array _ => true
  | _ => false

/-- No limit is set by hand, and the list of links stays a list. -/
def LeavesNodes (group : TokenGroup) (input : TokenInput) : Prop :=
  SetsNoLimit group input ∧
    match input with
    | .setConfig _ name value => configName name = dsLinkIds → isArray value = true
    | _ => True

instance LeavesNodes.decidable (group : TokenGroup) :
    (input : TokenInput) → Decidable (LeavesNodes group input)
  | .setConfig .. => inferInstanceAs (Decidable (_ ∧ (_ → _)))
  | .add .. => inferInstanceAs (Decidable (_ ∧ True))
  | .remove _ => inferInstanceAs (Decidable (_ ∧ True))
  | .removeAllClients _ => inferInstanceAs (Decidable (_ ∧ True))
  | .regenerate .. => inferInstanceAs (Decidable (_ ∧ True))
  | .appendDsId2Token .. => inferInstanceAs (Decidable (_ ∧ True))
  | .removeConfig .. => inferInstanceAs (Decidable (_ ∧ True))
  | .check _ => inferInstanceAs (Decidable (_ ∧ True))

/-- No token node has a limit that its checks or its uses would run into. -/
def Unlimited (group : TokenGroup) : Prop :=
  ∀ id child, group.get id = some child → child.Unlimited id

variable {group group' : TokenGroup}

theorem Unlimited.put (h : group.Unlimited) {id : Str} {child : TokenChild}
    (hchild : child.Unlimited id) : Unlimited (ScanMap.put group id child) := by
  intro other node hnode
  rw [ScanMap.get_put] at hnode
  split_ifs at hnode with hid
  · rw [hid, ← Option.some.inj hnode]
    exact hchild
  · exact h other node hnode

theorem Unlimited.modify (h : group.Unlimited) {id : Str} {f : TokenChild → Option TokenChild}
    (hf : ∀ child after, child.Unlimited id → f child = some after → after.Unlimited id)
    (hmodify : group.modify id f = some group') : group'.Unlimited := by
  rw [TokenGroup.modify] at hmodify
  rcases hget : group.get id with _ | child
  · rw [hget] at hmodify
    exact Option.some.inj hmodify ▸ h
  · rw [hget] at hmodify
    obtain ⟨after, hafter, rfl⟩ := Option.map_eq_some_iff.mp hmodify
    exact h.put (hf child after (h id child hget) hafter)

theorem Unlimited.act (h : group.Unlimited) {id : Str}
    {f : TokenChild → TokenValues → Option TokenChild}
    (hf : ∀ child values after, child.Unlimited id → child.values = some values →
      f child values = some after → after.Unlimited id)
    (hact : group.act id f = some group') : group'.Unlimited := by
  refine h.modify (fun child after hchild hafter => ?_) hact
  rcases hvalues : child.values with _ | values
  · simp only [hvalues] at hafter
    exact Option.some.inj hafter ▸ hchild
  · simp only [hvalues] at hafter
    exact hf child values after hchild hvalues hafter

theorem Unlimited.removeToken (h : group.Unlimited) (id : Str) :
    (group.removeToken id).Unlimited := by
  rw [TokenGroup.removeToken]
  split_ifs
  · exact h
  · intro other node hnode
    rw [ScanMap.get_remove] at hnode
    split_ifs at hnode
    exact h other node hnode

theorem addToken_eq_some {toText : DSAVal → Option Str} {args : DSAMap} {draws : List Nat}
    {token : Str} (h : group.addToken toText args draws = some (group', token)) :
    ∃ groupName timeRange count maxSession managed,
      makeTokenForNode (fun id => (group.get id).isSome) draws = some token ∧
      group' = ScanMap.put group (getTokenId token)
        (initTokenNode token groupName timeRange count maxSession managed) := by
  obtain ⟨groupName, -, h⟩ := Option.bind_eq_some_iff.mp h
  obtain ⟨timeRange, -, h⟩ := Option.bind_eq_some_iff.mp h
  obtain ⟨count, -, h⟩ := Option.bind_eq_some_iff.mp h
  obtain ⟨maxSession, -, h⟩ := Option.bind_eq_some_iff.mp h
  obtain ⟨managed, -, h⟩ := Option.bind_eq_some_iff.mp h
  obtain ⟨token, htoken, h⟩ := Option.bind_eq_some_iff.mp h
  obtain ⟨rfl, rfl⟩ := Prod.mk.inj (Option.some.inj h)
  exact ⟨groupName, timeRange, count, maxSession, managed, htoken, rfl⟩

theorem unlimited_initial : initial.Unlimited := by
  apply Unlimited.put
  · exact fun _ _ hget => absurd hget (Option.some_ne_none _).symm
  · exact TokenChild.Unlimited.init (by decide) _ _ _ _ _

/-- No action on tokens sets a limit, except a config set by hand, which the condition excludes; so
what is unlimited stays so. -/
theorem Unlimited.step {toText : DSAVal → Option Str} (h : group.Unlimited) {input : TokenInput}
    (hok : SetsNoLimit group input) (hstep : group.step toText input = some group') :
    group'.Unlimited := by
  rcases input with ⟨args, draws⟩ | id | id | ⟨id, draws⟩ | ⟨id, dsId⟩ | ⟨id, name, value⟩ |
    ⟨id, name⟩ | hash
  · -- a new token starts without limits, whatever its other settings
    obtain ⟨⟨added, token⟩, hadd, rfl⟩ := Option.map_eq_some_iff.mp hstep
    obtain ⟨groupName, timeRange, count, maxSession, managed, htoken, rfl⟩ := addToken_eq_some hadd
    refine h.put (TokenChild.Unlimited.init ?_ groupName timeRange count maxSession managed)
    rw [length_makeTokenForNode htoken]
    decide
  · -- removing a token leaves the others as they are
    rw [← Option.some.inj hstep]
    exact h.removeToken id
  · -- the node forgets its links, and the list of them is no limit
    refine h.act (fun child values after hchild _ hafter => ?_) hstep
    rw [← Option.some.inj hafter]
    refine hchild.withConfigs fun name _ => ?_
    rw [DSAMap.get_removed]
    split_ifs
    · exact Or.inr rfl
    · exact Or.inl rfl
  · -- a regenerated token keeps the values of the old one
    refine h.act (fun child values after hchild hvalues hafter => ?_) hstep
    obtain ⟨token, htoken, rfl⟩ := Option.map_eq_some_iff.mp hafter
    exact hchild.regenerated hvalues htoken
  · refine h.modify (fun child after hchild hafter => ?_) hstep
    rw [← Option.some.inj hafter]
    rcases happend : tokenConfigs.appendDsId dsLinkIds child dsId with _ | appended
    · exact hchild.restarted
    · exact hchild.appended happend
  · refine h.modify (fun child after hchild hafter => ?_) hstep
    rw [← Option.some.inj hafter]
    refine hchild.withConfigs fun other hother => Or.inl ?_
    rw [DSAMap.get_updated, if_neg]
    rintro rfl
    exact hok hother
  · refine h.modify (fun child after hchild hafter => ?_) hstep
    rw [← Option.some.inj hafter]
    refine hchild.withConfigs fun other _ => ?_
    rw [DSAMap.get_removed]
    split_ifs
    · exact Or.inr rfl
    · exact Or.inl rfl
  · -- a use of the token counts, and does not limit
    refine h.modify (fun child after hchild hafter => ?_) hstep
    rw [← Option.some.inj hafter]
    exact hchild.used

/-- A token with a whole id is long enough for it. -/
theorem length_of_id {token : Str} (h : (getTokenId token).length = 16) : 16 ≤ token.length := by
  rw [getTokenId, List.length_take] at h
  omega

theorem Unlimited.length_le (h : group.Unlimited) {token : Str}
    (hnode : (group.get (getTokenId token)).isSome = true) : 16 ≤ token.length := by
  obtain ⟨child, hchild⟩ := Option.isSome_iff_exists.mp hnode
  exact length_of_id (h _ child hchild).length

/-- The node is found by its name. -/
theorem findToken_nodes [ScanOrder Str] (group : TokenGroup) (token : Str) :
    findToken group.nodes token = (group.get (getTokenId token)).map fun child =>
      ⟨getTokenId token, (child.values.map TokenValues.token).getD [], child.configs.get⟩ := by
  rw [findToken, nodes, List.find?_map]
  rcases hfound : group.entries.find? _ with _ | entry
  · rcases hget : group.get (getTokenId token) with _ | child
    · rfl
    · have habsent := List.find?_eq_none.mp hfound (getTokenId token, child)
        (ScanMap.mem_entries.mpr hget)
      simp [getTokenId] at habsent
  · have hname : entry.1 = getTokenId token := by simpa [getTokenId] using List.find?_some hfound
    have hget := ScanMap.mem_entries.mp (List.mem_of_find?_eq_some hfound)
    rw [← hname, hget]
    rfl

/-- Whoever sends the name of a node is let in, and nobody else. -/
theorem Unlimited.checkToken_iff [ScanOrder Str] (h : group.Unlimited) {settings : BrokerSettings}
    (hsettings : settings.allowAllLinks = false) (clock : Clock) (session : DSLinkSessionInfo) :
    checkToken settings clock group.nodes (some session) = some true ↔
      ∃ hash, session.ci.tokenHash = some hash ∧ (group.get (getTokenId hash)).isSome = true := by
  rcases htoken : session.ci.tokenHash with _ | hash
  · have hrefused : checkToken settings clock group.nodes (some session) = some false := by
      rw [checkToken, hsettings, if_neg Bool.false_ne_true, Option.bind_some, htoken]
    simp [hrefused]
  · rw [checkToken_of_tokenHash hsettings clock _ htoken, findToken_nodes]
    rcases hget : group.get (getTokenId hash) with _ | child
    · simp [hget]
    · simp [hget, (h _ child hget).checkTokenNode clock]

end TokenGroup

/-! ### What is kept of a role -/

/-- The node has its children, with the role that it was made for, and its list of links is one. -/
structure TokenChild.Whole (child : TokenChild) : Prop where
  links : ∀ value, child.configs.get dsLinkIds = some value → TokenGroup.isArray value = true
  values : ∃ values, child.values = some values ∧ values.role = child.givenRole

namespace TokenChild.Whole

variable {child : TokenChild}

theorem init (token groupName timeRange count maxSession managed : Str) :
    (initTokenNode token groupName timeRange count maxSession managed).Whole := by
  refine ⟨?_, _, rfl, rfl⟩
  intro value hvalue
  exact absurd hvalue.symm (Option.some_ne_none _)

theorem put (h : child.Whole) {name : Str} {value : DSAVal}
    (hvalue : name = dsLinkIds → TokenGroup.isArray value = true) :
    (tokenConfigs.put child name value).Whole := by
  refine ⟨?_, h.values⟩
  intro found hfound
  rw [show (tokenConfigs.put child name value).configs = child.configs.updated name value from rfl,
    DSAMap.get_updated] at hfound
  split_ifs at hfound with hname
  · rw [← Option.some.inj hfound]
    exact hvalue hname.symm
  · exact h.links found hfound

theorem removed (h : child.Whole) (name : Str) :
    TokenChild.Whole { child with configs := child.configs.removed name } := by
  refine ⟨?_, h.values⟩
  intro found hfound
  rw [DSAMap.get_removed] at hfound
  split_ifs at hfound
  exact h.links found hfound

/-- A link can be added to the list. -/
theorem appended (h : child.Whole) (dsId : Str) :
    ∃ after, tokenConfigs.appendDsId dsLinkIds child dsId = some after ∧ after.Whole := by
  obtain ⟨ids, hids, hlist⟩ : ∃ ids, appendedDsIds (child.configs.get dsLinkIds) dsId = some ids ∧
      TokenGroup.isArray ids = true := by
    rcases hget : child.configs.get dsLinkIds with _ | value
    · exact ⟨_, rfl, rfl⟩
    · have harray := h.links value hget
      cases value with
      | array srcVal =>
        rw [appendedDsIds]
        split_ifs
        · exact ⟨_, rfl, rfl⟩
        · exact ⟨_, rfl, rfl⟩
      | _ => cases harray
  refine ⟨tokenConfigs.put child dsLinkIds ids, ?_, h.put fun _ => hlist⟩
  rw [ConfigStore.appendDsId, if_pos (by decide)]
  exact Option.map_eq_some_iff.mpr ⟨ids, hids, rfl⟩

theorem attempted (h : child.Whole) : (tokenConfigs.attempt child).1.Whole := by
  rw [ConfigStore.attempt]
  rcases hcount : (checkTokenCount (tokenConfigs.config child)).1 with _ | ⟨entry, rest⟩
  · exact h
  · -- a check writes `$countItem` only
    have hentry : rest = [] ∧ entry.1 = str "$countItem" := by
      rw [checkTokenCount] at hcount
      split at hcount
      · cases hcount
      · obtain ⟨rfl, rfl⟩ := List.cons.inj hcount
        exact ⟨rfl, rfl⟩
    obtain ⟨rfl, hname⟩ := hentry
    refine h.put fun heq => ?_
    rw [hname] at heq
    exact absurd heq (by decide)

end TokenChild.Whole

namespace TokenGroup

/-- Every token node keeps its values, its role, and a list of links that can be appended to. -/
def Whole (group : TokenGroup) : Prop := ∀ id child, group.get id = some child → child.Whole

variable {group group' : TokenGroup}

theorem Whole.put (h : group.Whole) (id : Str) {child : TokenChild} (hchild : child.Whole) :
    Whole (ScanMap.put group id child) := by
  intro other node hnode
  rw [ScanMap.get_put] at hnode
  split_ifs at hnode
  · rw [← Option.some.inj hnode]
    exact hchild
  · exact h other node hnode

theorem Whole.modify (h : group.Whole) {id : Str} {f : TokenChild → Option TokenChild}
    (hf : ∀ child after, child.Whole → f child = some after → after.Whole)
    (hmodify : group.modify id f = some group') : group'.Whole := by
  rw [TokenGroup.modify] at hmodify
  rcases hget : group.get id with _ | child
  · rw [hget] at hmodify
    exact Option.some.inj hmodify ▸ h
  · rw [hget] at hmodify
    obtain ⟨after, hafter, rfl⟩ := Option.map_eq_some_iff.mp hmodify
    exact h.put id (hf child after (h id child hget) hafter)

theorem Whole.act (h : group.Whole) {id : Str} {f : TokenChild → TokenValues → Option TokenChild}
    (hf : ∀ child values after, child.Whole → child.values = some values →
      f child values = some after → after.Whole)
    (hact : group.act id f = some group') : group'.Whole := by
  refine h.modify (fun child after hchild hafter => ?_) hact
  obtain ⟨values, hvalues, -⟩ := hchild.values
  simp only [hvalues] at hafter
  exact hf child values after hchild hvalues hafter

theorem whole_initial : initial.Whole := by
  apply Whole.put
  · exact fun _ _ hget => absurd hget (Option.some_ne_none _).symm
  · exact TokenChild.Whole.init ..

/-- Each action keeps the tokens whole: a node keeps its values and the role it was given, and
`$dsLinkIds` is absent or an array. -/
theorem Whole.step {toText : DSAVal → Option Str} (h : group.Whole) {input : TokenInput}
    (hok : LeavesNodes group input) (hstep : group.step toText input = some group') :
    group'.Whole := by
  rcases input with ⟨args, draws⟩ | id | id | ⟨id, draws⟩ | ⟨id, dsId⟩ | ⟨id, name, value⟩ |
    ⟨id, name⟩ | hash
  · obtain ⟨⟨added, token⟩, hadd, rfl⟩ := Option.map_eq_some_iff.mp hstep
    obtain ⟨groupName, timeRange, count, maxSession, managed, -, rfl⟩ := addToken_eq_some hadd
    exact h.put _ (TokenChild.Whole.init token groupName timeRange count maxSession managed)
  · rw [← Option.some.inj hstep, removeToken]
    split_ifs
    · exact h
    · intro other node hnode
      rw [ScanMap.get_remove] at hnode
      split_ifs at hnode
      exact h other node hnode
  · refine h.act (fun child values after hchild _ hafter => ?_) hstep
    rw [← Option.some.inj hafter]
    exact hchild.removed dsLinkIds
  · refine h.act (fun child values after hchild hvalues hafter => ?_) hstep
    obtain ⟨token, -, rfl⟩ := Option.map_eq_some_iff.mp hafter
    obtain ⟨found, hfound, hrole⟩ := hchild.values
    obtain rfl := Option.some.inj (hvalues.symm.trans hfound)
    exact ⟨hchild.links, _, rfl, hrole⟩
  · -- `$dsLinkIds` is absent or an array, so the id is appended and nothing restarts
    refine h.modify (fun child after hchild hafter => ?_) hstep
    obtain ⟨appended, happended, hwhole⟩ := hchild.appended dsId
    rw [happended, Option.getD_some] at hafter
    exact Option.some.inj hafter ▸ hwhole
  · -- a `$dsLinkIds` that is set by hand is an array, as the condition asks for
    refine h.modify (fun child after hchild hafter => ?_) hstep
    rw [← Option.some.inj hafter]
    exact hchild.put hok.2
  · refine h.modify (fun child after hchild hafter => ?_) hstep
    rw [← Option.some.inj hafter]
    exact hchild.removed name
  · refine h.modify (fun child after hchild hafter => ?_) hstep
    rw [← Option.some.inj hafter]
    exact hchild.attempted

end TokenGroup

/-- **Who is let in.**  In every run of the actions on tokens in which no limit is set by hand and
no list of links is replaced by something else, the links that `checkToken` lets in are those whose
hash begins with the name of a token node.  Among them are the holders of all tokens that a node
ever had, with the role that the node was made for; neither a new token nor the limits given to
`add` nor the number of uses keeps them out. -/
theorem token_admits {Point : Type} (platform : Platform Point) [ScanOrder Str]
    {toText : DSAVal → Option Str} {settings : BrokerSettings}
    (hsettings : settings.allowAllLinks = false) {group : TokenGroup}
    (h : Reachable (TokenGroup.step toText) TokenGroup.LeavesNodes TokenGroup.initial group)
    (clock : Clock) (session : DSLinkSessionInfo) :
    (checkToken settings clock group.nodes (some session) = some true ↔
      ∃ hash, session.ci.tokenHash = some hash ∧ (group.get (getTokenId hash)).isSome = true) ∧
    ∀ id child, group.get id = some child → ∀ token ∈ child.tokens,
      group.getGroupName token = some child.givenRole ∧
      (session.ci.tokenHash = some (hashToken platform token session.ci.dsId) →
        checkToken settings clock group.nodes (some session) = some true) := by
  have hunlimited : group.Unlimited := h.invariant TokenGroup.unlimited_initial
    fun group input after hgroup hok hstep => hgroup.step hok.1 hstep
  have hwhole : group.Whole := h.invariant TokenGroup.whole_initial
    fun group input after hgroup hok hstep => hgroup.step hok hstep
  have hadmits := hunlimited.checkToken_iff hsettings clock session
  refine ⟨hadmits, ?_⟩
  intro id child hget token htoken
  have hnode := hunlimited id child hget
  have hid : getTokenId token = id := hnode.ids token htoken
  constructor
  · obtain ⟨values, hvalues, hrole⟩ := (hwhole id child hget).values
    rw [TokenGroup.getGroupName, hid, hget, Option.bind_some, hvalues, Option.map_some, hrole]
  · intro hhash
    refine hadmits.mpr ⟨_, hhash, ?_⟩
    rw [getTokenId_hashToken platform (TokenGroup.length_of_id (hid ▸ hnode.length)), hid, hget,
      Option.isSome_some]

/-- The list of links is replaced by a text, and the next link takes the role away. -/
example : ∃ group, Reachable (TokenGroup.step DSAVal.string?) TokenGroup.SetsNoLimit
    TokenGroup.initial group ∧ group.getGroupName TokenGroup.DEFAULT_TOKEN = none :=
  Reachable.exists_of_run
    [.setConfig TokenGroup.DEFAULT_TOKEN dsLinkIds (.string []),
      .appendDsId2Token TokenGroup.DEFAULT_TOKEN (str "meter")]
    (by decide +kernel)

/-- A token for one use in the past, which is used twice and then replaced. -/
def reissueRun : List TokenInput :=
  [.add [(str "Count", .string (str "1")), (str "TimeRange", .string (str "2017-01-01/2017-02-01"))]
      (List.replicate 48 65), .check (List.replicate 16 65), .check (List.replicate 16 65),
    .regenerate (List.replicate 16 65) (List.replicate 48 66)]

theorem token_admits_replaced :
    ∃ group : TokenGroup, (∃ child, group.get (List.replicate 16 65) = some child ∧
        (child.values.any fun values => values.token ≠ List.replicate 48 65) = true ∧
        group.getGroupName (List.replicate 48 65) = some child.givenRole) ∧
      checkToken meterSettings springClock group.nodes (some (sessionWith (some
        (hashToken tokenPlatform (List.replicate 48 65) (sessionWith none).ci.dsId)))) =
        some true := by
  obtain ⟨group, hgroup, hnew, hold⟩ := @Reachable.exists_of_run _ _
    (TokenGroup.step DSAVal.string?) TokenGroup.LeavesNodes TokenGroup.initial _ reissueRun
    (fun group => ((group.get (List.replicate 16 65)).any fun child =>
        child.values.any fun values => values.token ≠ List.replicate 48 65) = true ∧
      ((group.get (List.replicate 16 65)).any fun child =>
        child.tokens.head? = some (List.replicate 48 65)) = true) _ (by decide +kernel)
  rw [Option.any_eq_true] at hnew
  obtain ⟨child, hget, htoken⟩ := hnew
  rw [hget, Option.any_some, decide_eq_true_eq] at hold
  have hclosed : meterSettings.allowAllLinks = false := rfl
  have hadmits := token_admits tokenPlatform hclosed hgroup springClock (sessionWith (some
    (hashToken tokenPlatform (List.replicate 48 65) (sessionWith none).ci.dsId)))
  obtain ⟨hrole, hadmitted⟩ := hadmits.2 _ child hget (List.replicate 48 65)
    (List.mem_of_mem_head? hold)
  exact ⟨group, ⟨child, hget, htoken, hrole⟩, hadmitted rfl⟩

end DsaBroker
