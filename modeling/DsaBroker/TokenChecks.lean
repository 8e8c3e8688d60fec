import DsaBroker.Handshake
import DsaBroker.TokenNodes

/-!
# Checking the token of a link

Unless all links are allowed, `WebSocketController` lets a link in only with a token: `checkToken`
finds the node of the token among the nodes below `/sys/tokens`, and checks how often it was used
and when it may be used.

The node is found by the first sixteen characters of the hash that the link sends, which are its
name, and the rest of the hash is not looked at.  So whoever knows the name of a node that passes
its checks is let in, and only holders of a token are let in just if nobody is
(`only_holders_iff`).  The number of uses is written back as it was read, so every use passes that
check, and the limit holds just for those who do not reach it (`limit_enforced_iff`).

The clock and the parser for dates come from outside.  A whole number stands for one that is
written without a point.
-/

namespace DsaBroker

/-! ### Numbers in configs -/

def digitValue (c : UInt16) : Option Nat := if 48 ≤ c ∧ c ≤ 57 then some (c.toNat - 48) else none

/-- The number that digits stand for, after those that are read. -/
def parseDigits (read : Nat) : Str → Option Nat
  | [] => some read
  | c :: rest => (digitValue c).bind fun digit => parseDigits (10 * read + digit) rest

def inIntRange (n : Int) : Option Int :=
  if -2147483648 ≤ n ∧ n ≤ 2147483647 then some n else none

def hyphen : UInt16 := 45

def plusSign : UInt16 := 43

/-- `Integer.parseInt`, for digits of ASCII; `none` when it throws. -/
def parseInt : Str → Option Int
  | [] => none
  | c :: rest =>
      if c = hyphen then
        if rest.isEmpty then none else (parseDigits 0 rest).bind fun n => inIntRange (-n)
      else if c = plusSign then
        if rest.isEmpty then none else (parseDigits 0 rest).bind fun n => inIntRange n
      else (parseDigits 0 (c :: rest)).bind fun n => inIntRange n

/-- `value.toString.toInt`; `none` when it throws.  What is neither a number nor a string has a
text that is not one of digits. -/
def DSAVal.toInt? : DSAVal → Option Int
  | .numeric value => if value.den = 1 then inIntRange value.num else none
  | .string value => parseInt value
  | _ => none

def intText (n : Int) : Str := str (toString n)

/-! ### The checks -/

/-- A node below `/sys/tokens`: its name, the token in its child, and its configs. -/
structure TokenNode where
  name : Str
  token : Str
  config : Str → Option DSAVal

/-- The time, and `DateTime.parse`, `none` when it throws. -/
structure Clock where
  now : Int
  parse : Str → Option Int

/-- What is written to the configs, and the result; `none` when it throws. -/
def checkTokenCount (config : Str → Option DSAVal) : DSAMap × Option Bool :=
  match ((config (str "$countItem")).getD (.numeric 0)).toInt? with
  | none => ([], none)
  | some iCountItem =>
      ([(str "$countItem", .string (intText iCountItem))],
        ((config (str "$count")).getD (.numeric 0)).toInt?.map fun count =>
          decide (iCountItem ≤ count))

/-- What is not a string has no text of two dates. -/
def checkTokenDates (clock : Clock) (config : Str → Option DSAVal) : Bool :=
  match config (str "$timeRange") with
  | none => true
  | some (.string range) =>
      match (split range)[0]?.bind clock.parse, (split range)[1]?.bind clock.parse with
      | some date1, some date2 => date1 ≤ clock.now && clock.now ≤ date2
      | _, _ => false
  | some _ => false

/-- Both checks; `none` when they throw. -/
def checkTokenNode (clock : Clock) (tokenNode : TokenNode) : Option Bool :=
  (checkTokenCount tokenNode.config).2.map fun checkCount =>
    checkCount && checkTokenDates clock tokenNode.config

/-- The node that is found for a token or its hash. -/
def findToken (nodes : List TokenNode) (token : Str) : Option TokenNode :=
  nodes.find? fun node => node.name = token.take 16

/-- Whether a session is let in; `none` when it throws. -/
def checkToken (settings : BrokerSettings) (clock : Clock) (nodes : List TokenNode)
    (si : Option DSLinkSessionInfo) : Option Bool :=
  if settings.allowAllLinks then some true
  else
    match si.bind fun session => session.ci.tokenHash with
    | none => some false
    | some token =>
        match findToken nodes token with
        | none => some false
        | some tokenNode => checkTokenNode clock tokenNode

def hashToken {Point : Type} (platform : Platform Point) (token dsId : Str) : Str :=
  token.take 16 ++ UrlBase64.encodeBytes (platform.sha256 (platform.getBytes (dsId ++ token)))

/-! ### Who is let in -/

/-- Every session that is let in has the hash of a stored token and its own id. -/
def OnlyHolders {Point : Type} (platform : Platform Point) (settings : BrokerSettings)
    (clock : Clock) (nodes : List TokenNode) : Prop :=
  ∀ session : DSLinkSessionInfo, checkToken settings clock nodes (some session) = some true →
    ∃ node ∈ nodes, session.ci.tokenHash = some (hashToken platform node.token session.ci.dsId)

/-- No node that can be found by a token passes its checks: each is out of its time or has been used
up, or its check throws. -/
def NobodyPasses (clock : Clock) (nodes : List TokenNode) : Prop :=
  ∀ token node, findToken nodes token = some node → checkTokenNode clock node ≠ some true

/-- A token with no hash after it is not the hash of any token. -/
theorem hashToken_ne_take {Point : Type} {platform : Platform Point}
    (hsha : ∀ bytes, (platform.sha256 bytes).length = 32) (token stored dsId : Str) :
    token.take 16 ≠ hashToken platform stored dsId := by
  intro h
  have hlength := congrArg List.length h
  rw [hashToken, List.length_append, UrlBase64.length_encodeBytes, hsha, List.length_take]
    at hlength
  omega

theorem requester_valid : (true || false) = true := rfl

/-- A session of a link that sends the given hash. -/
def sessionWith (tokenHash : Option Str) : DSLinkSessionInfo where
  ci :=
    { dsId := str "meter-qfMA61lg6JEzr3NiARoeJvDi6i423EAqBK9sGSuJGow"
      linkName := str "meter"
      isRequester := true
      isResponder := false
      valid := requester_valid
      linkData := none
      version := str "1.1.2"
      clientFormats := [MSGJSON]
      compression := false
      linkAddress := str "10.0.0.7"
      brokerAddress := str "broker:9000"
      format := MSGJSON
      tempKey := []
      sharedSecret := []
      salt := []
      tokenHash := tokenHash }
  sessionId := str "session"

theorem checkToken_of_tokenHash {settings : BrokerSettings}
    (hsettings : settings.allowAllLinks = false) (clock : Clock) (nodes : List TokenNode)
    {session : DSLinkSessionInfo} {token : Str}
    (htoken : session.ci.tokenHash = some token) :
    checkToken settings clock nodes (some session) =
      (findToken nodes token).elim (some false) (checkTokenNode clock) := by
  rw [checkToken, hsettings, if_neg Bool.false_ne_true, Option.bind_some, htoken]
  cases hfound : findToken nodes token with
  | none => simp only [hfound, Option.elim_none]
  | some node => simp only [hfound, Option.elim_some]

theorem findToken_take (nodes : List TokenNode) (token : Str) :
    findToken nodes (token.take 16) = findToken nodes token := by
  rw [findToken, List.take_take, Nat.min_self, findToken]

/-- **Only holders are let in** if and only if nobody is: a node that can be found and passes its
checks lets in whoever sends its name. -/
theorem only_holders_iff {Point : Type} {platform : Platform Point}
    (hsha : ∀ bytes, (platform.sha256 bytes).length = 32) {settings : BrokerSettings}
    (hsettings : settings.allowAllLinks = false) (clock : Clock) (nodes : List TokenNode) :
    OnlyHolders platform settings clock nodes ↔ NobodyPasses clock nodes := by
  constructor
  · intro h token node hfound hpasses
    have hsession : (sessionWith (some (token.take 16))).ci.tokenHash = some (token.take 16) := rfl
    have hlet := checkToken_of_tokenHash hsettings clock nodes hsession
    rw [findToken_take, hfound, Option.elim_some, hpasses] at hlet
    obtain ⟨stored, _, hhash⟩ := h _ hlet
    exact hashToken_ne_take hsha token stored.token _ (Option.some.inj (hsession.symm.trans hhash))
  · intro h session hlet
    cases htoken : session.ci.tokenHash with
    | none =>
      rw [checkToken, hsettings, if_neg Bool.false_ne_true, Option.bind_some, htoken] at hlet
      cases hlet
    | some token =>
      rw [checkToken_of_tokenHash hsettings clock nodes htoken] at hlet
      cases hfound : findToken nodes token with
      | none =>
        rw [hfound] at hlet
        cases hlet
      | some node =>
        rw [hfound] at hlet
        exact absurd hlet (h token node hfound)

/-! ### A token that is not shown -/

/-- The digest of the id of the meter and the token of the garden. -/
def tokenPlatform : Platform Nat where
  curve := multiplesOfBase
  sha256 := fun _ => bytes32 0xb09a37b8a61ec44cbb138e9c1ea6241b39bed63615a75c621b851847dd750196
  getBytes := fun s => s.map UInt16.toUInt8
  stringify := fun _ => []

theorem length_sha256_tokenPlatform (bytes : List UInt8) :
    (tokenPlatform.sha256 bytes).length = 32 := by
  show (bytes32 _).length = 32
  rw [bytes32, List.length_map, List.length_reverse, List.length_range]

/-- A token with the given configs. -/
def gardenToken (config : Str → Option DSAVal) : TokenNode where
  name := str "0123456789abcdef"
  token := str "0123456789abcdefGHIJKLMNOPQRSTUVWXYZghijklmnopqr"
  config := config

def springClock : Clock where
  now := 100
  parse := fun s =>
    if s = str "2017-01-01" then some 10 else if s = str "2017-02-01" then some 20 else none

def winterRange (name : Str) : Option DSAVal :=
  if name = str "$timeRange" then some (.string (str "2017-01-01/2017-02-01")) else none

/-- The token was for the winter. -/
theorem only_holders_iff_winter :
    OnlyHolders tokenPlatform meterSettings springClock [gardenToken winterRange] := by
  refine (only_holders_iff length_sha256_tokenPlatform rfl springClock _).mpr ?_
  intro token node hfound hpasses
  have hnode := List.mem_singleton.mp (List.mem_of_find?_eq_some hfound)
  rw [hnode] at hpasses
  exact absurd hpasses (by decide +kernel)

/-- The name of the node is as good as its token. -/
theorem name_let_in :
    ¬ OnlyHolders tokenPlatform meterSettings springClock [gardenToken fun _ => none] := by
  intro h
  obtain ⟨node, hnode, hhash⟩ :=
    h (sessionWith (some ((gardenToken fun _ => none).name.take 16))) (by decide +kernel)
  exact hashToken_ne_take length_sha256_tokenPlatform _ _ _ (Option.some.inj hhash)

/-! ### How often a token passes -/

/-- The results of checks one after the other.  What is written to the configs is seen by the next
check or later; `written` are the entries written so far. -/
inductive Attempts : DSAMap → (Str → Option DSAVal) → List (Option Bool) → Prop where
  | done (written : DSAMap) (config : Str → Option DSAVal) : Attempts written config []
  | next {written : DSAMap} {config after : Str → Option DSAVal} {results : List (Option Bool)}
      (later : ∀ name, after name = config name ∨
        ∃ value, (name, value) ∈ written ++ (checkTokenCount config).1 ∧ after name = some value)
      (rest : Attempts (written ++ (checkTokenCount config).1) after results) :
      Attempts written config ((checkTokenCount config).2 :: results)

/-- A check on a node, and the node afterwards. -/
def ConfigStore.attempt {σ : Type} (store : ConfigStore σ) (node : σ) : σ × Option Bool :=
  let check := checkTokenCount (store.config node)
  (check.1.foldl (fun node entry => store.put node entry.1 entry.2) node, check.2)

/-- The results of `n` checks. -/
def ConfigStore.attempts {σ : Type} (store : ConfigStore σ) (node : σ) : Nat → List (Option Bool)
  | 0 => []
  | n + 1 =>
      let first := store.attempt node
      first.2 :: store.attempts first.1 n

/-- The entry that is written when there is none. -/
def firstEntry : Str × DSAVal := (str "$countItem", .string (intText 0))

/-- The counter is read as zero, and the limit as it is configured. -/
structure Unused (limit : Option Int) (written : DSAMap) (config : Str → Option DSAVal) :
    Prop where
  countItem : ((config (str "$countItem")).getD (.numeric 0)).toInt? = some 0
  count : ((config (str "$count")).getD (.numeric 0)).toInt? = limit
  written : ∀ entry ∈ written, entry = firstEntry

theorem toInt?_firstEntry : firstEntry.2.toInt? = some 0 := by decide

section

variable {limit : Option Int} {written : DSAMap} {config : Str → Option DSAVal}

/-- The counter is written back as it was read. -/
theorem Unused.checkTokenCount (h : Unused limit written config) :
    checkTokenCount config = ([firstEntry], limit.map fun count => decide (0 ≤ count)) := by
  rw [DsaBroker.checkTokenCount, h.countItem, h.count]
  rfl

/-- What is seen later is still unused. -/
theorem Unused.later (h : Unused limit written config) {after : Str → Option DSAVal}
    (hlater : ∀ name, after name = config name ∨
      ∃ value, (name, value) ∈ written ++ [firstEntry] ∧ after name = some value) :
    Unused limit (written ++ [firstEntry]) after := by
  have hwritten : ∀ entry ∈ written ++ [firstEntry], entry = firstEntry := by
    intro entry hentry
    rcases List.mem_append.mp hentry with hold | hnew
    · exact h.written entry hold
    · exact List.mem_singleton.mp hnew
  constructor
  · rcases hlater (str "$countItem") with hsame | ⟨value, hvalue, hafter⟩
    · rw [hsame]
      exact h.countItem
    · obtain rfl := (Prod.mk.inj (hwritten _ hvalue)).2
      rw [hafter]
      exact toInt?_firstEntry
  · rcases hlater (str "$count") with hsame | ⟨value, hvalue, _⟩
    · rw [hsame]
      exact h.count
    · exact absurd (Prod.mk.inj (hwritten _ hvalue)).1 (by decide)
  · exact hwritten

/-- Every check has the result of the first one. -/
theorem Attempts.eq_replicate {results : List (Option Bool)}
    (hrun : Attempts written config results) (h : Unused limit written config) :
    results = List.replicate results.length (limit.map fun count => decide (0 ≤ count)) := by
  induction hrun with
  | done => rfl
  | next hlater _ ih =>
    rw [h.checkTokenCount] at hlater ih ⊢
    rw [List.length_cons, List.replicate_succ, ← ih (h.later hlater)]

end

section

variable {σ : Type} (store : ConfigStore σ)

theorem ConfigStore.config_foldl_put (entries : DSAMap) (node : σ) (name : Str) :
    let after := entries.foldl (fun node entry => store.put node entry.1 entry.2) node
    store.config after name = store.config node name ∨
      ∃ value, (name, value) ∈ entries ∧ store.config after name = some value := by
  induction entries generalizing node with
  | nil => exact Or.inl rfl
  | cons entry rest ih =>
    rcases ih (store.put node entry.1 entry.2) with hsame | ⟨value, hvalue, hafter⟩
    · rw [store.config_put] at hsame
      split at hsame
      case isTrue hname =>
        exact Or.inr ⟨entry.2, by rw [hname]; exact List.mem_cons_self, hsame⟩
      case isFalse => exact Or.inl hsame
    · exact Or.inr ⟨value, List.mem_cons_of_mem entry hvalue, hafter⟩

/-- The checks on a node are such checks: what is written is seen at once. -/
theorem ConfigStore.attempts_run (node : σ) (n : Nat) (written : DSAMap) :
    Attempts written (store.config node) (store.attempts node n) := by
  induction n generalizing node written with
  | zero => exact .done written (store.config node)
  | succ n ih =>
    refine .next (fun name => ?_) (ih (store.attempt node).1 _)
    rcases store.config_foldl_put (checkTokenCount (store.config node)).1 node name with
      hsame | ⟨value, hvalue, hafter⟩
    · exact Or.inl hsame
    · exact Or.inr ⟨value, List.mem_append_right _ hvalue, hafter⟩

theorem ConfigStore.length_attempts (node : σ) (n : Nat) : (store.attempts node n).length = n := by
  induction n generalizing node with
  | zero => rfl
  | succ n ih => exact congrArg Nat.succ (ih (store.attempt node).1)

end

/-- The config is a number, or the text of one. -/
def IsNumber (count : DSAVal) (limit : Rat) : Prop :=
  count = .numeric limit ∨ ∃ n : Int, count.toInt? = some n ∧ limit = n

theorem IsNumber.toInt? {count : DSAVal} {limit : Rat} (h : IsNumber count limit) {n : Int}
    (hn : count.toInt? = some n) : limit = n := by
  rcases h with rfl | ⟨m, hm, rfl⟩
  · simp only [DSAVal.toInt?, inIntRange] at hn
    split_ifs at hn with hwhole
    rw [← Option.some.inj hn]
    exact ((Rat.den_eq_one_iff limit).mp hwhole).symm
  · rw [Option.some.inj (hm.symm.trans hn)]

/-- The number of uses is limited. -/
def LimitEnforced (limit : Rat) (results : List (Option Bool)) : Prop :=
  (results.count (some true) : Rat) ≤ limit

/-- **The limit is enforced** if and only if it cannot be read as an `Int` or there are not more
checks than it allows, for checks that see what was written at once, as on a node of either kind,
and for those that see it later. -/
theorem limit_enforced_iff {limit : Rat} (hlimit : 0 ≤ limit) {config : Str → Option DSAVal}
    {count : DSAVal} (hcount : config (str "$count") = some count) (hnumber : IsNumber count limit)
    (habsent : config (str "$countItem") = none) :
    (∀ results, Attempts [] config results →
      (LimitEnforced limit results ↔ count.toInt? = none ∨ (results.length : Rat) ≤ limit)) ∧
    ∀ (σ : Type) (store : ConfigStore σ) (node : σ), store.config node = config → ∀ n : Nat,
      LimitEnforced limit (store.attempts node n) ↔ count.toInt? = none ∨ (n : Rat) ≤ limit := by
  have hunused : Unused count.toInt? [] config := by
    constructor
    · rw [habsent]
      decide
    · rw [hcount]
      rfl
    · exact fun entry hentry => absurd hentry List.not_mem_nil
  have hiff : ∀ results, Attempts [] config results →
      (LimitEnforced limit results ↔ count.toInt? = none ∨ (results.length : Rat) ≤ limit) := by
    intro results hrun
    rw [LimitEnforced, hrun.eq_replicate hunused]
    cases hread : count.toInt? with
    | none =>
      have hcount : (List.replicate results.length (none : Option Bool)).count (some true) = 0 :=
        List.count_eq_zero.mpr fun hmem => absurd (List.eq_of_mem_replicate hmem) (by decide)
      simp [hcount, hlimit]
    | some n =>
      have hzero : 0 ≤ n := by
        rw [hnumber.toInt? hread] at hlimit
        exact_mod_cast hlimit
      simp [hzero]
  refine ⟨hiff, ?_⟩
  rintro σ store node rfl n
  rw [hiff _ (store.attempts_run node n []), store.length_attempts]

/-- A token for a number of uses. -/
def limitedNode (count : DSAVal) : InMemoryDSANode :=
  { InMemoryDSANode.initial with configs := [(str "$count", count)] }

/-- Two uses of a token that is limited to two stay within the limit. -/
theorem limit_enforced_iff_two :
    LimitEnforced 2 (inMemoryConfigs.attempts (limitedNode (.numeric 2)) 2) :=
  ((limit_enforced_iff (by decide) rfl (Or.inl rfl) rfl).2 _ inMemoryConfigs
    (limitedNode (.numeric 2)) rfl 2).mpr (Or.inr (by decide))

/-- A token that is limited to one use passes its check a second time. -/
theorem second_use_passes :
    ¬ LimitEnforced 1 (inMemoryConfigs.attempts (limitedNode (.numeric 1)) 2) := by
  have hresults : inMemoryConfigs.attempts (limitedNode (.numeric 1)) 2 = [some true, some true] :=
    by decide +kernel
  rw [hresults]
  intro h
  have htwo : (2 : Rat) ≤ 1 := h
  exact absurd htwo (by decide)

end DsaBroker
