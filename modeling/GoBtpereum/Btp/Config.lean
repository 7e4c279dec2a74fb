import GoBtpereum.Btp.Miner

/-!
# The node's configuration checks

`New` (`btp/backend.go`) checks and repairs the configuration before it builds the node: it
refuses the light and unknown sync modes, replaces a missing or non-positive miner gas price by
`DefaultConfig`'s, moves the dirty trie cache into the clean one when pruning is off, refuses a
database newer than `core.BlockChainVersion` and writes that version over a missing or older one,
caps the miner's extra data (`makeExtraData`), and defaults the gas price oracle to the miner's
gas price. In between it opens the database, sets up the genesis block and builds the blockchain
and the protocol manager, and returns the first error any of them returns; what these services
return is an input (`Services`), and what they build is left out. `Start` keeps `LightPeers` of
the server's peers for light clients (`start`).

Every error of `New` is one of its three refusals, each with its message, or a service's error
(`New_error`); when every service succeeds, `New` fails exactly when it refuses
(`New_error_iff`). A node it builds is `Sanitized`: a positive gas price, the configured one when
that was positive, the configured trie memory in total, no dirty cache without pruning, extra data
within `maximumExtraDataSize` (`length_makeExtraData`) and the current database version stored
(`New_sanitized`). The defaults pass every check unchanged (`New_defaultConfig`).
-/

namespace GoBtpereum.Btp

/-! ### Configuration -/

/-- Modelled from the spec (`sync-mode ∈ {full,fast,light}`): `downloader.FullSync`, numbered as
the downloader numbers its modes. -/
def fullSync : Nat := 0

/-- `downloader.FastSync`. -/
def fastSync : Nat := 1

/-- `downloader.LightSync`. -/
def lightSync : Nat := 2

/-- `SyncMode.IsValid`: `mode >= FullSync && mode <= LightSync`. -/
def isValidSyncMode (mode : Nat) : Bool := fullSync ≤ mode && mode ≤ lightSync

/-- `params.GWei`. -/
def gWei : Int := 1000000000

/-- Modelled from the spec (header `extraData` at most 32 bytes): `params.MaximumExtraDataSize`. -/
def maximumExtraDataSize : Nat := 32

/-- The `miner.Config` fields `New` reads; `gasPrice` is the `*big.Int`, `none` when nil. -/
structure MinerConfig where
  btperbase : Address
  extraData : List UInt8
  gasPrice : Option Int
  deriving DecidableEq, Repr

/-- The `Config` fields `New` and `Start` read; `gpoDefault` is `GPO.Default`. -/
structure Config where
  networkId : Nat
  syncMode : Nat
  noPruning : Bool
  lightServ : Int
  lightPeers : Int
  skipBcVersionCheck : Bool
  trieCleanCache : Int
  trieDirtyCache : Int
  miner : MinerConfig
  gpoDefault : Option Int
  deriving DecidableEq, Repr

/-- `DefaultConfig`, the fields above. -/
def DefaultConfig : Config where
  networkId := 1
  syncMode := fastSync
  noPruning := false
  lightServ := 0
  lightPeers := 100
  skipBcVersionCheck := false
  trieCleanCache := 256
  trieDirtyCache := 256
  miner := ⟨0, [], some gWei⟩
  gpoDefault := none

/-- `core.CacheConfig`, the trie fields `New` sets. -/
structure CacheConfig where
  trieCleanLimit : Int
  trieDirtyLimit : Int
  trieDirtyDisabled : Bool
  deriving DecidableEq, Repr

/-- The node `New` returns: the fields it sets from the configuration, the cache settings it
hands to the blockchain, the trie memory it hands to the protocol manager, the miner's extra data,
the oracle's default price, and the database version left stored. -/
structure Btpereum where
  networkID : Nat
  gasPrice : Int
  btperbase : Address
  cacheConfig : CacheConfig
  cacheLimit : Int
  extra : List UInt8
  gpoDefault : Int
  dbVersion : Option Nat
  deriving DecidableEq, Repr

/-! ### `New` -/

/-- `makeExtraData`: empty extra data becomes `defaultExtra` (the RLP list of the version,
`"gbtp"`, the Go version and the OS); anything over `MaximumExtraDataSize` becomes nil. -/
def makeExtraData (defaultExtra extra : List UInt8) : List UInt8 :=
  let extra := if extra.length = 0 then defaultExtra else extra
  if extra.length > maximumExtraDataSize then [] else extra

theorem length_makeExtraData (defaultExtra extra : List UInt8) :
    (makeExtraData defaultExtra extra).length ≤ maximumExtraDataSize := by
  have cap (l : List UInt8) :
      (if l.length > maximumExtraDataSize then [] else l).length ≤ maximumExtraDataSize := by
    split
    · exact Nat.zero_le _
    · omega
  exact cap _

/-- The trie cache move of `New`: with pruning off, a positive dirty cache joins the clean one. -/
def trieCaches (noPruning : Bool) (clean dirty : Int) : Int × Int :=
  if noPruning && dirty > 0 then (clean + dirty, 0) else (clean, dirty)

theorem trieCaches_total (noPruning : Bool) (clean dirty : Int) :
    (trieCaches noPruning clean dirty).1 + (trieCaches noPruning clean dirty).2 = clean + dirty := by
  unfold trieCaches
  split <;> simp

theorem trieCaches_dirty_nonpos {noPruning : Bool} (h : noPruning = true) (clean dirty : Int) :
    (trieCaches noPruning clean dirty).2 ≤ 0 := by
  unfold trieCaches
  split <;> simp_all

/-- What `core.SetupGenesisBlock` returns as its error: a `*params.ConfigCompatError`, after which
`New` rewinds the chain and goes on, or another error, which `New` returns. -/
inductive GenesisErr where
  | configCompat
  | other (msg : String)
  deriving DecidableEq, Repr

/-- The error `New` returns for a genesis error, if any. -/
def GenesisErr.returned : GenesisErr → Option String
  | .configCompat => none
  | .other msg => some msg

/-- What `New` gets back from the services it calls: the errors of `ctx.OpenDatabaseWithFreezer`,
`core.SetupGenesisBlock`, `core.NewBlockChain` and `NewProtocolManager`, if any, and the version
`rawdb.ReadDatabaseVersion` finds in the database. -/
structure Services where
  openDatabase : Option String
  setupGenesis : Option GenesisErr
  bcVersion : Option Nat
  newBlockChain : Option String
  newProtocolManager : Option String
  deriving DecidableEq, Repr

/-- The errors of the services that `New` returns, in the order it meets them. -/
def Services.errors (sv : Services) : List String :=
  sv.openDatabase.toList ++ (sv.setupGenesis.bind GenesisErr.returned).toList ++
    sv.newBlockChain.toList ++ sv.newProtocolManager.toList

theorem Services.errors_eq_nil {sv : Services} :
    sv.errors = [] ↔ sv.openDatabase = none ∧ sv.setupGenesis.bind GenesisErr.returned = none ∧
      sv.newBlockChain = none ∧ sv.newProtocolManager = none := by
  have h (o : Option String) : o.toList = [] ↔ o = none := by cases o <;> simp
  simp only [Services.errors, List.append_eq_nil, h, and_assoc]

section New

variable (blockChainVersion : Nat) (versionWithMeta : String) (defaultExtra : List UInt8)

/-- The gas price check of `New`: nil or at most zero becomes `DefaultConfig.Miner.GasPrice`. -/
def sanitizeGasPrice : Option Int → Int
  | some p => if p ≤ 0 then gWei else p
  | none => gWei

/-- The database version check of `New`: a newer database is refused, a missing or older version
is overwritten with `core.BlockChainVersion`. -/
def checkDatabaseVersion (skip : Bool) (bcVersion : Option Nat) : Except String (Option Nat) :=
  if skip then .ok bcVersion else
  match bcVersion with
  | some v =>
    if v > blockChainVersion then
      .error ("database version is v" ++ toString v ++ ", Gbtp " ++ versionWithMeta ++
        " only supports v" ++ toString blockChainVersion)
    else if v < blockChainVersion then .ok (some blockChainVersion) else .ok (some v)
  | none => .ok (some blockChainVersion)

/-- `New` on a configuration and what the services it calls return. -/
def New (config : Config) (sv : Services) : Except String Btpereum :=
  if config.syncMode = lightSync then
    .error "can't run btp.btpereum in light sync mode, use les.Lightbtpereum"
  else if !isValidSyncMode config.syncMode then
    .error ("invalid sync mode " ++ toString config.syncMode)
  else
    let gasPrice := sanitizeGasPrice config.miner.gasPrice
    let caches := trieCaches config.noPruning config.trieCleanCache config.trieDirtyCache
    match sv.openDatabase with
    | some e => .error e
    | none =>
    match sv.setupGenesis.bind GenesisErr.returned with
    | some e => .error e
    | none =>
    match checkDatabaseVersion blockChainVersion versionWithMeta config.skipBcVersionCheck
      sv.bcVersion with
    | .error e => .error e
    | .ok dbVersion =>
    match sv.newBlockChain with
    | some e => .error e
    | none =>
    match sv.newProtocolManager with
    | some e => .error e
    | none =>
      let cacheConfig : CacheConfig := ⟨caches.1, caches.2, config.noPruning⟩
      .ok { networkID := config.networkId
            gasPrice := gasPrice
            btperbase := config.miner.btperbase
            cacheConfig := cacheConfig
            cacheLimit := cacheConfig.trieCleanLimit + cacheConfig.trieDirtyLimit
            extra := makeExtraData defaultExtra config.miner.extraData
            gpoDefault := config.gpoDefault.getD gasPrice
            dbVersion := dbVersion }

/-- What a node `New` builds satisfies. -/
structure Sanitized (config : Config) (node : Btpereum) : Prop where
  gasPrice_pos : 0 < node.gasPrice
  gasPrice_eq : ∀ p, config.miner.gasPrice = some p → 0 < p → node.gasPrice = p
  cacheLimit_eq : node.cacheLimit = config.trieCleanCache + config.trieDirtyCache
  dirty_nonpos : config.noPruning → node.cacheConfig.trieDirtyLimit ≤ 0
  extra_le : node.extra.length ≤ maximumExtraDataSize
  dbVersion_eq : config.skipBcVersionCheck = false → node.dbVersion = some blockChainVersion

theorem sanitizeGasPrice_pos (price : Option Int) : 0 < sanitizeGasPrice price := by
  unfold sanitizeGasPrice gWei
  split
  · split <;> omega
  · omega

theorem checkDatabaseVersion_error_iff (skip : Bool) (bcVersion : Option Nat) (e : String) :
    checkDatabaseVersion blockChainVersion versionWithMeta skip bcVersion = .error e ↔
      skip = false ∧ ∃ v, bcVersion = some v ∧ blockChainVersion < v ∧
        e = "database version is v" ++ toString v ++ ", Gbtp " ++ versionWithMeta ++
          " only supports v" ++ toString blockChainVersion := by
  unfold checkDatabaseVersion
  cases skip <;> cases bcVersion <;> simp only [if_true, Bool.false_eq_true, if_false,
    reduceCtorEq, false_and, exists_false, and_false, Option.some.injEq, exists_eq_left', true_and]
  · split_ifs <;> simp_all [eq_comm]

theorem checkDatabaseVersion_ok {skip : Bool} {bcVersion dbVersion : Option Nat}
    (h : checkDatabaseVersion blockChainVersion versionWithMeta skip bcVersion = .ok dbVersion)
    (hskip : skip = false) : dbVersion = some blockChainVersion := by
  subst hskip
  simp only [checkDatabaseVersion, Bool.false_eq_true, if_false] at h
  split at h
  · split_ifs at h <;> cases h
    · rfl
    · congr 1; omega
  · cases h; rfl

/-- The refusals of `New` that do not come from a service, each with its message: the light sync
mode, a sync mode that is not valid, and (unless skipped) a database newer than
`core.BlockChainVersion`. -/
def Refused (config : Config) (bcVersion : Option Nat) (e : String) : Prop :=
  (config.syncMode = lightSync ∧
    e = "can't run btp.btpereum in light sync mode, use les.Lightbtpereum") ∨
  (lightSync < config.syncMode ∧ e = "invalid sync mode " ++ toString config.syncMode) ∨
  (config.syncMode < lightSync ∧ config.skipBcVersionCheck = false ∧
    ∃ v, bcVersion = some v ∧ blockChainVersion < v ∧
      e = "database version is v" ++ toString v ++ ", Gbtp " ++ versionWithMeta ++
        " only supports v" ++ toString blockChainVersion)

theorem isValidSyncMode_eq (mode : Nat) : isValidSyncMode mode = decide (mode ≤ lightSync) := by
  simp [isValidSyncMode, fullSync]

theorem New_error {config : Config} {sv : Services} {e : String}
    (h : New blockChainVersion versionWithMeta defaultExtra config sv = .error e) :
    Refused blockChainVersion versionWithMeta config sv.bcVersion e ∨ e ∈ sv.errors := by
  unfold New at h
  split_ifs at h with hlight hvalid
  · exact .inl (.inl ⟨hlight, (Except.error.inj h).symm⟩)
  · exact .inl (.inr (.inl ⟨by simpa [isValidSyncMode_eq] using hvalid,
      (Except.error.inj h).symm⟩))
  · replace hvalid : config.syncMode ≤ lightSync := by simpa [isValidSyncMode_eq] using hvalid
    simp only [Services.errors, List.mem_append, Option.mem_toList] at h ⊢
    split at h
    · cases h; simp_all
    split at h
    · cases h; simp_all
    split at h
    · rename_i hdb
      cases h
      exact .inl (.inr (.inr ⟨by omega,
        (checkDatabaseVersion_error_iff blockChainVersion versionWithMeta _ _ _).mp hdb⟩))
    split at h
    · cases h; simp_all
    split at h
    · cases h; simp_all
    · cases h

theorem New_error_iff (config : Config) {sv : Services} (hsv : sv.errors = []) (e : String) :
    New blockChainVersion versionWithMeta defaultExtra config sv = .error e ↔
      Refused blockChainVersion versionWithMeta config sv.bcVersion e := by
  obtain ⟨h1, h2, -, -⟩ := Services.errors_eq_nil.mp hsv
  refine ⟨fun h => (New_error blockChainVersion versionWithMeta defaultExtra h).resolve_right
    (by rw [hsv]; exact List.not_mem_nil e), fun h => ?_⟩
  unfold New
  rcases h with ⟨hlight, rfl⟩ | ⟨hgt, rfl⟩ | ⟨hlt, hskip, hdb⟩
  · rw [if_pos hlight]
  · rw [if_neg (by omega), if_pos (by simpa [isValidSyncMode_eq] using hgt)]
  · rw [if_neg (by omega), if_neg (by simpa [isValidSyncMode_eq] using hlt.le), h1, h2,
      (checkDatabaseVersion_error_iff blockChainVersion versionWithMeta _ _ e).mpr ⟨hskip, hdb⟩]

theorem New_sanitized {config : Config} {sv : Services} {node : Btpereum}
    (h : New blockChainVersion versionWithMeta defaultExtra config sv = .ok node) :
    Sanitized blockChainVersion config node := by
  unfold New at h
  split_ifs at h
  repeat' split at h
  all_goals try cases h
  rename_i dbVersion hdb _ _ _ _
  refine ⟨sanitizeGasPrice_pos _, fun p hp hpos => ?_, trieCaches_total _ _ _,
    fun hnp => trieCaches_dirty_nonpos hnp _ _, length_makeExtraData _ _,
    checkDatabaseVersion_ok blockChainVersion versionWithMeta hdb⟩
  simp [hp, sanitizeGasPrice, not_le.mpr hpos]

theorem New_defaultConfig {sv : Services} (hsv : sv.errors = [])
    (hversion : ∀ v, sv.bcVersion = some v → v ≤ blockChainVersion) :
    ∃ node, New blockChainVersion versionWithMeta defaultExtra DefaultConfig sv = .ok node ∧
      node.gasPrice = gWei ∧ node.cacheConfig = ⟨256, 256, false⟩ := by
  obtain ⟨h1, h2, h3, h4⟩ := Services.errors_eq_nil.mp hsv
  obtain ⟨dbVersion, hdb⟩ : ∃ dbVersion,
      checkDatabaseVersion blockChainVersion versionWithMeta false sv.bcVersion = .ok dbVersion := by
    cases hv : sv.bcVersion with
    | none => exact ⟨_, rfl⟩
    | some v =>
      simp only [checkDatabaseVersion, Bool.false_eq_true, if_false,
        if_neg (not_lt.mpr (hversion v hv))]
      split <;> exact ⟨_, rfl⟩
  unfold New
  rw [if_neg (by decide), if_neg (by decide)]
  simp only [DefaultConfig, h1, h2, h3, h4, hdb]
  exact ⟨_, rfl, rfl, rfl⟩

/-- Every error of `New` is one of its refusals or the error of a service it called; when every
service succeeds, `New` fails exactly when it refuses, with the refusal's message; and every node
it builds is `Sanitized`. -/
theorem New_spec (config : Config) (sv : Services) :
    (∀ e, New blockChainVersion versionWithMeta defaultExtra config sv = .error e →
      Refused blockChainVersion versionWithMeta config sv.bcVersion e ∨ e ∈ sv.errors) ∧
    (sv.errors = [] → ∀ e, New blockChainVersion versionWithMeta defaultExtra config sv = .error e ↔
      Refused blockChainVersion versionWithMeta config sv.bcVersion e) ∧
    ∀ node, New blockChainVersion versionWithMeta defaultExtra config sv = .ok node →
      Sanitized blockChainVersion config node :=
  ⟨fun _ h => New_error blockChainVersion versionWithMeta defaultExtra h,
    fun hsv => New_error_iff blockChainVersion versionWithMeta defaultExtra config hsv,
    fun _ h => New_sanitized blockChainVersion versionWithMeta defaultExtra h⟩

end New

/-! ### `Start` -/

/-- The peer budget of `btpereum.Start`: a light server keeps `LightPeers` of the server's
`MaxPeers` for light clients, and must leave some for full peers. -/
def start (config : Config) (maxPeers : Int) : Except String Int :=
  if config.lightServ > 0 then
    if config.lightPeers ≥ maxPeers then
      .error ("invalid peer config: light peer count (" ++ toString config.lightPeers ++
        ") >= total peer count (" ++ toString maxPeers ++ ")")
    else .ok (maxPeers - config.lightPeers)
  else .ok maxPeers

theorem start_spec (config : Config) (maxPeers : Int) :
    (∀ e, start config maxPeers = .error e ↔ 0 < config.lightServ ∧ maxPeers ≤ config.lightPeers ∧
      e = "invalid peer config: light peer count (" ++ toString config.lightPeers ++
        ") >= total peer count (" ++ toString maxPeers ++ ")") ∧
    ∀ m, start config maxPeers = .ok m →
      m + (if 0 < config.lightServ then config.lightPeers else 0) = maxPeers ∧
        (0 < config.lightServ → 0 < m) := by
  unfold start
  split_ifs with hserv hpeers <;> simp_all [eq_comm]

end GoBtpereum.Btp
