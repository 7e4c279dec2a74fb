import GoBtpereum.Puppeth.Spec

/-!
# The genesis converters

`newAlbtpGenesisSpec`, `newParityChainSpec` and `newPybtpereumGenesisSpec` (`cmd/puppeth`) turn a
genesis into the chain-spec formats of other clients. A genesis without a `btpash` engine is
refused; a nil fork block or chain id that a converter reads, and (for Parity) a nil alloc
balance, are dereferenced and panic, which the model returns as `nilDereference`. The Params
sections are kept to the transitions computed from the genesis (the reward and bomb-delay tables
are in `GoBtpereum.Puppeth.Forks`); the constant parameters and the Parity name, data directory
and boot nodes are left out.

* Accounts (`accounts_complete`). Both account maps are the alloc, copied in
  (`lookup_foldAlloc`), with the precompiles attached on top (`lookup_foldl_setPrecompile`). The
  alloc goes first and `setPrecompile` keeps an existing account, so an alloc account at a
  precompile address keeps its balance and nonce and also carries the builtin. Only Parity
  dereferences the alloc balances: an account without one makes it panic, while Albtp copies the
  nil pointer (`parity_nilBalance_panics`).
* Nonce (`nonce_bytes_reversed`). All three write `putUint64LE genesis.Nonce`
  (`albtp_nonce`, `parity_nonce`, `pybtpereum_nonce`), which a header reads back big-endian: the
  nonce comes back only when its bytes are a palindrome (`converters_nonce_iff`), and the nonce
  `0x42` of the README's genesis comes back as `0x4200000000000000`.
-/

namespace GoBtpereum.Puppeth

/-! ### Albtp -/

/-- `albtpGenesisSpecBuiltin`; `linear` is the `(Base, Word)` pricing. -/
structure AlbtpBuiltin where
  name : String
  startingBlock : UInt64
  linear : Option (UInt64 × UInt64)
  deriving DecidableEq, Repr

/-- `albtpGenesisSpecAccount`. -/
structure AlbtpAccount where
  balance : Option Nat
  nonce : UInt64
  precompiled : Option AlbtpBuiltin
  deriving DecidableEq, Repr

/-- The fork transitions of the Albtp `params` section. -/
structure AlbtpParams where
  homesteadForkBlock : UInt64
  eip150ForkBlock : UInt64
  eip158ForkBlock : UInt64
  byzantiumForkBlock : UInt64
  constantinopleForkBlock : UInt64
  networkID : UInt64
  chainID : UInt64
  deriving DecidableEq, Repr

/-- The Albtp `genesis` section. -/
structure AlbtpGenesis where
  nonce : List UInt8
  difficulty : Option Nat
  mixHash : H256
  author : A160
  timestamp : UInt64
  parentHash : H256
  extraData : List UInt8
  gasLimit : UInt64
  deriving DecidableEq, Repr

/-- `albtpGenesisSpec`. -/
structure AlbtpGenesisSpec where
  sealEngine : String
  params : AlbtpParams
  genesis : AlbtpGenesis
  accounts : AList (fun _ : A160 => AlbtpAccount)

/-- `albtpGenesisSpec.setAccount`: the account at the address, created empty if absent, gets the
alloc balance pointer and nonce. -/
def AlbtpGenesisSpec.setAccount (accounts : AList (fun _ : A160 => AlbtpAccount)) (address : A160)
    (account : GenesisAccount) : AList (fun _ : A160 => AlbtpAccount) :=
  let a := (accounts.lookup address).getD ⟨none, 0, none⟩
  accounts.insert address { a with balance := account.balance, nonce := account.nonce }

/-- `albtpGenesisSpec.setPrecompile`. -/
def AlbtpGenesisSpec.setPrecompile (accounts : AList (fun _ : A160 => AlbtpAccount))
    (address : UInt8) (data : AlbtpBuiltin) : AList (fun _ : A160 => AlbtpAccount) :=
  setPrecompileWith ⟨none, 0, none⟩ (fun a d => { a with precompiled := some d }) accounts address data

/-- The builtins `newAlbtpGenesisSpec` attaches, given the Byzantium block if set. -/
def albtpPrecompiles (byzantium : Option UInt64) : List (UInt8 × AlbtpBuiltin) :=
  [(1, ⟨"ecrecover", 0, some (3000, 0)⟩), (2, ⟨"sha256", 0, some (60, 12)⟩),
    (3, ⟨"ripemd160", 0, some (600, 120)⟩), (4, ⟨"identity", 0, some (15, 3)⟩)] ++
  match byzantium with
  | none => []
  | some n => [(5, ⟨"modexp", n, none⟩), (6, ⟨"alt_bn128_G1_add", n, some (500, 0)⟩),
      (7, ⟨"alt_bn128_G1_mul", n, some (40000, 0)⟩), (8, ⟨"alt_bn128_pairing_product", n, none⟩)]

/-- `newAlbtpGenesisSpec`. `Uint64` on a nil `HomesteadBlock`, `EIP150Block`, `EIP158Block` or
`ChainID` panics; the Byzantium and Constantinople blocks are read only when set. -/
def newAlbtpGenesisSpec (genesis : Genesis) : Except String AlbtpGenesisSpec :=
  if !genesis.config.btpash then .error "unsupported consensus engine" else
  match genesis.config.homesteadBlock, genesis.config.eip150Block, genesis.config.eip158Block,
    genesis.config.chainID with
  | some homestead, some eip150, some eip158, some chainID =>
    let byzantium := genesis.config.byzantiumBlock.map Nat.toUInt64
    let constantinople := genesis.config.constantinopleBlock.map Nat.toUInt64
    let accounts := genesis.alloc.entries.foldl
      (fun acc e => AlbtpGenesisSpec.setAccount acc e.1 e.2) ∅
    .ok {
      sealEngine := "btpash"
      params := ⟨homestead.toUInt64, eip150.toUInt64, eip158.toUInt64, byzantium.getD 0,
        constantinople.getD 0, chainID.toUInt64, chainID.toUInt64⟩
      genesis := ⟨putUint64LE genesis.nonce, genesis.difficulty, genesis.mixhash, genesis.coinbase,
        genesis.timestamp, genesis.parentHash, genesis.extraData, genesis.gasLimit⟩
      accounts := (albtpPrecompiles byzantium).foldl
        (fun acc e => AlbtpGenesisSpec.setPrecompile acc e.1 e.2) accounts }
  | _, _, _, _ => .error nilDereference

/-! ### Parity -/

/-- `parityChainSpecPricing`: linear `(Base, Word)`, modexp `Divisor`, pairing `(Base, Pair)`. -/
structure ParityPricing where
  linear : Option (UInt64 × UInt64)
  modexp : Option UInt64
  altBnPairing : Option (UInt64 × UInt64)
  deriving DecidableEq, Repr

/-- `parityChainSpecBuiltin`. -/
structure ParityBuiltin where
  name : String
  activateAt : UInt64
  pricing : ParityPricing
  deriving DecidableEq, Repr

/-- `parityChainSpecAccount`. -/
structure ParityAccount where
  balance : Nat
  nonce : UInt64
  builtin : Option ParityBuiltin
  deriving DecidableEq, Repr

/-- The fork transitions of the Parity `engine.btpash.params` and `params` sections. -/
structure ParityParams where
  homesteadTransition : UInt64
  eip100bTransition : UInt64
  eip150Transition : UInt64
  eip155Transition : UInt64
  eip160Transition : UInt64
  eip161abcTransition : UInt64
  eip161dTransition : UInt64
  eip140Transition : UInt64
  eip211Transition : UInt64
  eip214Transition : UInt64
  eip658Transition : UInt64
  eip145Transition : UInt64
  eip1014Transition : UInt64
  eip1052Transition : UInt64
  eip1283Transition : UInt64
  eip1283DisableTransition : UInt64
  networkID : UInt64
  chainID : UInt64
  deriving DecidableEq, Repr

/-- The Parity `genesis` section, with its `seal.btpereum` nonce and mix hash. -/
structure ParityGenesis where
  sealNonce : List UInt8
  sealMixHash : H256
  difficulty : Option Nat
  author : A160
  timestamp : UInt64
  parentHash : H256
  extraData : List UInt8
  gasLimit : UInt64
  deriving DecidableEq, Repr

/-- `parityChainSpec`. -/
structure ParityChainSpec where
  params : ParityParams
  genesis : ParityGenesis
  accounts : AList (fun _ : A160 => ParityAccount)

/-- `parityChainSpec.setPrecompile`. -/
def ParityChainSpec.setPrecompile (accounts : AList (fun _ : A160 => ParityAccount))
    (address : UInt8) (data : ParityBuiltin) : AList (fun _ : A160 => ParityAccount) :=
  setPrecompileWith ⟨0, 0, none⟩ (fun a d => { a with builtin := some d }) accounts address data

/-- The builtins `newParityChainSpec` attaches, given the Byzantium block if set. -/
def parityPrecompiles (byzantium : Option UInt64) : List (UInt8 × ParityBuiltin) :=
  [(1, ⟨"ecrecover", 0, ⟨some (3000, 0), none, none⟩⟩),
    (2, ⟨"sha256", 0, ⟨some (60, 12), none, none⟩⟩),
    (3, ⟨"ripemd160", 0, ⟨some (600, 120), none, none⟩⟩),
    (4, ⟨"identity", 0, ⟨some (15, 3), none, none⟩⟩)] ++
  match byzantium with
  | none => []
  | some n => [(5, ⟨"modexp", n, ⟨none, some 20, none⟩⟩),
      (6, ⟨"alt_bn128_add", n, ⟨some (500, 0), none, none⟩⟩),
      (7, ⟨"alt_bn128_mul", n, ⟨some (40000, 0), none, none⟩⟩),
      (8, ⟨"alt_bn128_pairing", n, ⟨none, none, some (100000, 80000)⟩⟩)]

/-- One pass of the alloc loop of `newParityChainSpec`: `*account.Balance` panics on a nil
balance. -/
def parityAllocStep (accounts : AList (fun _ : A160 => ParityAccount))
    (e : Σ _ : A160, GenesisAccount) : Except String (AList (fun _ : A160 => ParityAccount)) :=
  match e.2.balance with
  | none => .error nilDereference
  | some bal => .ok (accounts.insert e.1 ⟨bal, e.2.nonce, none⟩)

/-- The alloc loop of `newParityChainSpec`. -/
def parityAlloc (l : List (Σ _ : A160, GenesisAccount)) :
    Except String (AList (fun _ : A160 => ParityAccount)) :=
  l.foldlM parityAllocStep ∅

/-- `newParityChainSpec`. `Uint64` on a nil `HomesteadBlock`, `EIP150Block`, `EIP155Block`,
`EIP158Block` or `ChainID` panics; the Byzantium, Constantinople and Petersburg blocks are read only
when set. -/
def newParityChainSpec (genesis : Genesis) : Except String ParityChainSpec :=
  if !genesis.config.btpash then .error "unsupported consensus engine" else
  match genesis.config.homesteadBlock, genesis.config.eip150Block, genesis.config.eip155Block,
    genesis.config.eip158Block, genesis.config.chainID with
  | some homestead, some eip150, some eip155, some eip158, some chainID =>
    let byzantium := (genesis.config.byzantiumBlock.map Nat.toUInt64).getD 0
    let constantinople := (genesis.config.constantinopleBlock.map Nat.toUInt64).getD 0
    let petersburg := (genesis.config.petersburgBlock.map Nat.toUInt64).getD 0
    match parityAlloc genesis.alloc.entries with
    | .error e => .error e
    | .ok accounts => .ok {
      params := ⟨homestead.toUInt64, byzantium, eip150.toUInt64, eip155.toUInt64, eip155.toUInt64,
        eip158.toUInt64, eip158.toUInt64, byzantium, byzantium, byzantium, byzantium,
        constantinople, constantinople, constantinople, constantinople, petersburg,
        chainID.toUInt64, chainID.toUInt64⟩
      genesis := ⟨putUint64LE genesis.nonce, genesis.mixhash, genesis.difficulty, genesis.coinbase,
        genesis.timestamp, genesis.parentHash, genesis.extraData, genesis.gasLimit⟩
      accounts := (parityPrecompiles (genesis.config.byzantiumBlock.map Nat.toUInt64)).foldl
        (fun acc e => ParityChainSpec.setPrecompile acc e.1 e.2) accounts }
  | _, _, _, _, _ => .error nilDereference

/-! ### Pybtpereum -/

/-- `pybtpereumGenesisSpec`. -/
structure PybtpereumGenesisSpec where
  nonce : List UInt8
  timestamp : UInt64
  extraData : List UInt8
  gasLimit : UInt64
  difficulty : Option Nat
  mixhash : H256
  coinbase : A160
  alloc : AList (fun _ : A160 => GenesisAccount)
  parentHash : H256

/-- `newPybtpereumGenesisSpec`. -/
def newPybtpereumGenesisSpec (genesis : Genesis) : Except String PybtpereumGenesisSpec :=
  if !genesis.config.btpash then .error "unsupported consensus engine"
  else .ok ⟨putUint64LE genesis.nonce, genesis.timestamp, genesis.extraData, genesis.gasLimit,
    genesis.difficulty, genesis.mixhash, genesis.coinbase, genesis.alloc, genesis.parentHash⟩

/-! ### Nonces -/

theorem albtp_nonce {g : Genesis} {spec : AlbtpGenesisSpec} (h : newAlbtpGenesisSpec g = .ok spec) :
    spec.genesis.nonce = putUint64LE g.nonce := by
  unfold newAlbtpGenesisSpec at h
  split at h
  · cases h
  · split at h
    · cases h; rfl
    · cases h

theorem parity_nonce {g : Genesis} {spec : ParityChainSpec} (h : newParityChainSpec g = .ok spec) :
    spec.genesis.sealNonce = putUint64LE g.nonce := by
  unfold newParityChainSpec at h
  split at h
  · cases h
  · split at h
    · split at h
      · cases h
      · cases h; rfl
    · cases h

theorem pybtpereum_nonce {g : Genesis} {spec : PybtpereumGenesisSpec}
    (h : newPybtpereumGenesisSpec g = .ok spec) : spec.nonce = putUint64LE g.nonce := by
  unfold newPybtpereumGenesisSpec at h
  split at h
  · cases h
  · cases h; rfl

/-! ### Accounts -/

/-- The account an alloc entry becomes in the Albtp map (`setAccount`), from the one there. -/
def albtpAccountOf (old : Option AlbtpAccount) (account : GenesisAccount) : AlbtpAccount :=
  { old.getD ⟨none, 0, none⟩ with balance := account.balance, nonce := account.nonce }

/-- The account an alloc entry with a balance becomes in the Parity map. -/
def parityAccountOf (_ : Option ParityAccount) (account : GenesisAccount) : ParityAccount :=
  ⟨account.balance.getD 0, account.nonce, none⟩

theorem foldlM_parityAllocStep (l : List (Σ _ : A160, GenesisAccount))
    (h : ∀ e ∈ l, e.2.balance.isSome) :
    ∀ accounts, l.foldlM parityAllocStep accounts = .ok (foldAlloc parityAccountOf l accounts) := by
  induction l with
  | nil => intro; rfl
  | cons e l ih =>
    intro accounts
    obtain ⟨bal, hbal⟩ := Option.isSome_iff_exists.mp (h e (.head _))
    rw [List.foldlM_cons, foldAlloc_cons, parityAllocStep]
    simp only [hbal, parityAccountOf, Option.getD_some]
    exact ih (fun e' he' => h e' (.tail _ he')) _

theorem albtp_accounts {g : Genesis} {spec : AlbtpGenesisSpec}
    (h : newAlbtpGenesisSpec g = .ok spec) :
    spec.accounts = convertAccounts albtpAccountOf ⟨none, 0, none⟩
      (fun a d => { a with precompiled := some d }) g.alloc
      (albtpPrecompiles (g.config.byzantiumBlock.map Nat.toUInt64)) := by
  unfold newAlbtpGenesisSpec at h
  split at h
  · cases h
  · split at h
    · cases h; rfl
    · cases h

theorem parity_accounts {g : Genesis} {spec : ParityChainSpec} (h : newParityChainSpec g = .ok spec)
    (hbal : ∀ e ∈ g.alloc.entries, e.2.balance.isSome) :
    spec.accounts = convertAccounts parityAccountOf ⟨0, 0, none⟩
      (fun a d => { a with builtin := some d }) g.alloc
      (parityPrecompiles (g.config.byzantiumBlock.map Nat.toUInt64)) := by
  unfold newParityChainSpec at h
  split at h
  · cases h
  · split at h
    · have hok : parityAlloc g.alloc.entries = .ok _ := foldlM_parityAllocStep _ hbal ∅
      split at h
      · rename_i heq
        cases hok.symm.trans heq
      · rename_i heq
        cases hok.symm.trans heq
        cases h
        rfl
    · cases h

theorem map_fst_albtpPrecompiles (b : Option UInt64) :
    (albtpPrecompiles b).map Prod.fst = precompileAddresses b.isSome := by
  cases b <;> rfl

theorem map_fst_parityPrecompiles (b : Option UInt64) :
    (parityPrecompiles b).map Prod.fst = precompileAddresses b.isSome := by
  cases b <;> rfl

theorem precompileAddresses_nodup (byzantium : Bool) : (precompileAddresses byzantium).Nodup := by
  cases byzantium <;> decide

/-- The fork blocks and chain id the Albtp and Parity converters convert with `Uint64`. -/
def ForksSet (c : ChainConfig) : Prop :=
  c.homesteadBlock.isSome ∧ c.eip150Block.isSome ∧ c.eip155Block.isSome ∧ c.eip158Block.isSome ∧
    c.chainID.isSome

instance (c : ChainConfig) : Decidable (ForksSet c) := inferInstanceAs (Decidable (_ ∧ _))

theorem ForksSet.eq_some {c : ChainConfig} (h : ForksSet c) :
    ∃ b₁ b₂ b₃ b₄ id, c.homesteadBlock = some b₁ ∧ c.eip150Block = some b₂ ∧
      c.eip155Block = some b₃ ∧ c.eip158Block = some b₄ ∧ c.chainID = some id := by
  simp only [ForksSet, Option.isSome_iff_exists] at h
  obtain ⟨⟨_, h₁⟩, ⟨_, h₂⟩, ⟨_, h₃⟩, ⟨_, h₄⟩, ⟨_, h₅⟩⟩ := h
  exact ⟨_, _, _, _, _, h₁, h₂, h₃, h₄, h₅⟩

theorem newAlbtpGenesisSpec_isOk {g : Genesis} (hbtpash : g.config.btpash = true)
    (hforks : ForksSet g.config) : ∃ spec, newAlbtpGenesisSpec g = .ok spec := by
  obtain ⟨_, _, _, _, _, h1, h2, -, h4, h5⟩ := hforks.eq_some
  unfold newAlbtpGenesisSpec
  rw [hbtpash, h1, h2, h4, h5]
  exact ⟨_, rfl⟩

theorem newParityChainSpec_isOk {g : Genesis} (hbtpash : g.config.btpash = true)
    (hforks : ForksSet g.config) (hbal : ∀ e ∈ g.alloc.entries, e.2.balance.isSome) :
    ∃ spec, newParityChainSpec g = .ok spec := by
  obtain ⟨_, _, _, _, _, h1, h2, h3, h4, h5⟩ := hforks.eq_some
  unfold newParityChainSpec
  rw [hbtpash, h1, h2, h3, h4, h5, parityAlloc, foldlM_parityAllocStep _ hbal]
  exact ⟨_, rfl⟩

/-- The account map of the Parity spec holds the alloc addresses and the precompile addresses,
every alloc account with its balance and nonce, every precompile with its builtin. -/
def ParityAccountsComplete (g : Genesis) (spec : ParityChainSpec) : Prop :=
  (∀ a, a ∈ spec.accounts ↔ a ∈ g.alloc ∨
    ∃ n ∈ precompileAddresses g.config.byzantiumBlock.isSome, precompileAddress n = a) ∧
  (∀ a acc, g.alloc.lookup a = some acc → ∃ x, spec.accounts.lookup a = some x ∧
    some x.balance = acc.balance ∧ x.nonce = acc.nonce) ∧
  (∀ n d, (n, d) ∈ parityPrecompiles (g.config.byzantiumBlock.map Nat.toUInt64) →
    ∃ x, spec.accounts.lookup (precompileAddress n) = some x ∧ x.builtin = some d)

/-- The same for the Albtp spec, whose accounts keep the alloc's balance pointer. -/
def AlbtpAccountsComplete (g : Genesis) (spec : AlbtpGenesisSpec) : Prop :=
  (∀ a, a ∈ spec.accounts ↔ a ∈ g.alloc ∨
    ∃ n ∈ precompileAddresses g.config.byzantiumBlock.isSome, precompileAddress n = a) ∧
  (∀ a acc, g.alloc.lookup a = some acc → ∃ x, spec.accounts.lookup a = some x ∧
    x.balance = acc.balance ∧ x.nonce = acc.nonce) ∧
  (∀ n d, (n, d) ∈ albtpPrecompiles (g.config.byzantiumBlock.map Nat.toUInt64) →
    ∃ x, spec.accounts.lookup (precompileAddress n) = some x ∧ x.precompiled = some d)

theorem mem_precompiles_iff {β : Type} (table : List (UInt8 × β)) (byzantium : Bool)
    (htable : table.map Prod.fst = precompileAddresses byzantium) (a : A160) :
    (∃ e ∈ table, precompileAddress e.1 = a) ↔
      ∃ n ∈ precompileAddresses byzantium, precompileAddress n = a := by
  rw [← htable]
  simp

theorem parityAccountsComplete_of_ok {g : Genesis} {spec : ParityChainSpec}
    (h : newParityChainSpec g = .ok spec) (hbal : ∀ e ∈ g.alloc.entries, e.2.balance.isSome) :
    ParityAccountsComplete g spec := by
  have htable := map_fst_parityPrecompiles (g.config.byzantiumBlock.map Nat.toUInt64)
  have hnodup : ((parityPrecompiles _).map Prod.fst).Nodup :=
    htable ▸ precompileAddresses_nodup _
  rw [Option.isSome_map'] at htable
  rw [ParityAccountsComplete, parity_accounts h hbal]
  refine ⟨fun a => ?_, fun a acc hacc => ?_, fun n d hnd => ?_⟩
  · rw [mem_convertAccounts, mem_precompiles_iff _ _ htable]
  · obtain ⟨b, hb⟩ : ∃ b, acc.balance = some b :=
      Option.isSome_iff_exists.mp (hbal ⟨a, acc⟩ (AList.mem_lookup_iff.mp hacc))
    rcases lookup_convertAccounts_of_alloc _ _ _ _ _ hnodup a acc hacc with h' | ⟨d, h'⟩ <;>
      exact ⟨_, h', by simp [parityAccountOf, hb], rfl⟩
  · obtain ⟨x, hx⟩ := lookup_convertAccounts_of_table parityAccountOf ⟨0, 0, none⟩
      (fun a d => { a with builtin := some d }) g.alloc _ hnodup n d hnd
    exact ⟨_, hx, rfl⟩

theorem albtpAccountsComplete_of_ok {g : Genesis} {spec : AlbtpGenesisSpec}
    (h : newAlbtpGenesisSpec g = .ok spec) : AlbtpAccountsComplete g spec := by
  have htable := map_fst_albtpPrecompiles (g.config.byzantiumBlock.map Nat.toUInt64)
  have hnodup : ((albtpPrecompiles _).map Prod.fst).Nodup :=
    htable ▸ precompileAddresses_nodup _
  rw [Option.isSome_map'] at htable
  rw [AlbtpAccountsComplete, albtp_accounts h]
  refine ⟨fun a => ?_, fun a acc hacc => ?_, fun n d hnd => ?_⟩
  · rw [mem_convertAccounts, mem_precompiles_iff _ _ htable]
  · rcases lookup_convertAccounts_of_alloc _ _ _ _ _ hnodup a acc hacc with h' | ⟨d, h'⟩ <;>
      exact ⟨_, h', rfl, rfl⟩
  · obtain ⟨x, hx⟩ := lookup_convertAccounts_of_table albtpAccountOf ⟨none, 0, none⟩
      (fun a d => { a with precompiled := some d }) g.alloc _ hnodup n d hnd
    exact ⟨_, hx, rfl⟩

/-- For a genesis with a `btpash` engine, the fork blocks the converters read and the chain id
set, and a balance on every alloc account, the Parity and the Albtp converters succeed, and the
account map of each is exactly the alloc addresses and the precompile addresses (`0x01`-`0x04`,
`0x05`-`0x08` with Byzantium), every alloc account keeps its balance and nonce, also at a
precompile address, and every precompile address carries its builtin. -/
theorem accounts_complete (g : Genesis) (hbtpash : g.config.btpash = true)
    (hforks : ForksSet g.config) (hbal : ∀ e ∈ g.alloc.entries, e.2.balance.isSome) :
    (∃ spec, newParityChainSpec g = .ok spec ∧ ParityAccountsComplete g spec) ∧
    (∃ spec, newAlbtpGenesisSpec g = .ok spec ∧ AlbtpAccountsComplete g spec) := by
  obtain ⟨spec, hspec⟩ := newParityChainSpec_isOk hbtpash hforks hbal
  obtain ⟨spec', hspec'⟩ := newAlbtpGenesisSpec_isOk hbtpash hforks
  exact ⟨⟨spec, hspec, parityAccountsComplete_of_ok hspec hbal⟩,
    ⟨spec', hspec', albtpAccountsComplete_of_ok hspec'⟩⟩

/-- A private-network genesis: the README's chain id, nonce `0x42`, gas limit and difficulty, with a
`btpash` engine and every fork at block 0 (the README's genesis sets only the Homestead, EIP-155
and EIP-158 blocks), and the accounts `0x01` and `0x02` pre-funded, which are also precompile
addresses. -/
def privateGenesis : Genesis where
  config := ⟨some 0, some 0, some 0, some 0, some 0, some 0, some 0, some 0, true⟩
  nonce := 0x42
  timestamp := 0
  extraData := []
  gasLimit := 0x2fefd8
  difficulty := some 0x20000
  mixhash := 0
  coinbase := 0
  alloc := (AList.singleton 1 ⟨some 111111111, 0⟩).insert 2 ⟨some 222222222, 0⟩
  parentHash := 0

theorem accounts_complete_privateGenesis :
    (privateGenesis.config.btpash = true ∧ ForksSet privateGenesis.config ∧
      ∀ e ∈ privateGenesis.alloc.entries, e.2.balance.isSome) ∧
    (∃ spec, newParityChainSpec privateGenesis = .ok spec ∧
      ParityAccountsComplete privateGenesis spec) ∧
    (∃ spec, newAlbtpGenesisSpec privateGenesis = .ok spec ∧
      AlbtpAccountsComplete privateGenesis spec) :=
  ⟨⟨rfl, by decide, by decide⟩, accounts_complete privateGenesis rfl (by decide) (by decide)⟩

theorem foldlM_parityAllocStep_nil (l : List (Σ _ : A160, GenesisAccount))
    (h : ∃ e ∈ l, e.2.balance = none) :
    ∀ accounts, l.foldlM parityAllocStep accounts = .error nilDereference := by
  induction l with
  | nil => obtain ⟨_, he, _⟩ := h; cases he
  | cons e l ih =>
    intro accounts
    rw [List.foldlM_cons, parityAllocStep]
    cases hbal : e.2.balance with
    | none => rfl
    | some bal =>
      obtain ⟨e', he', hnil⟩ := h
      rcases List.mem_cons.mp he' with rfl | he'
      · rw [hbal] at hnil; cases hnil
      · exact ih ⟨e', he', hnil⟩ _

/-- The two converters part on an alloc account without a balance: Parity dereferences the nil
balance and panics, while Albtp copies the nil pointer into its account. -/
theorem parity_nilBalance_panics (g : Genesis) (hbtpash : g.config.btpash = true)
    (hforks : ForksSet g.config) (a : A160) (acc : GenesisAccount)
    (hacc : g.alloc.lookup a = some acc) (hnil : acc.balance = none) :
    newParityChainSpec g = .error nilDereference ∧
      ∃ spec, newAlbtpGenesisSpec g = .ok spec ∧
        ∃ x, spec.accounts.lookup a = some x ∧ x.balance = none := by
  obtain ⟨spec, hspec⟩ := newAlbtpGenesisSpec_isOk hbtpash hforks
  obtain ⟨x, hx, hbal, -⟩ := (albtpAccountsComplete_of_ok hspec).2.1 a acc hacc
  refine ⟨?_, spec, hspec, x, hx, hbal.trans hnil⟩
  obtain ⟨_, _, _, _, _, h1, h2, h3, h4, h5⟩ := hforks.eq_some
  unfold newParityChainSpec
  rw [hbtpash, h1, h2, h3, h4, h5, parityAlloc,
    foldlM_parityAllocStep_nil _ ⟨⟨a, acc⟩, AList.mem_lookup_iff.mp hacc, hnil⟩]
  rfl

theorem parity_nilBalance_panics_unfunded :
    let g : Genesis := { privateGenesis with alloc := AList.singleton 9 ⟨none, 0⟩ }
    g.config.btpash = true ∧ ForksSet g.config ∧ g.alloc.lookup 9 = some ⟨none, 0⟩ ∧
      (⟨none, 0⟩ : GenesisAccount).balance = none ∧
      newParityChainSpec g = .error nilDereference ∧
      ∃ spec, newAlbtpGenesisSpec g = .ok spec ∧
        ∃ x, spec.accounts.lookup 9 = some x ∧ x.balance = none := by
  intro g
  have hacc : g.alloc.lookup 9 = some ⟨none, 0⟩ := by decide
  exact ⟨rfl, by decide, hacc, rfl, parity_nilBalance_panics g rfl (by decide) 9 _ hacc rfl⟩

/-! ### The nonce in the header -/

/-- Whatever genesis a converter accepts, a header reads the nonce bytes it writes back as the
genesis nonce exactly when the nonce's eight bytes read the same in both orders. -/
theorem converters_nonce_iff (g : Genesis) :
    (∀ spec, newAlbtpGenesisSpec g = .ok spec →
      (BlockNonce.uint64 spec.genesis.nonce = g.nonce ↔
        (encodeNonce g.nonce).reverse = encodeNonce g.nonce)) ∧
    (∀ spec, newParityChainSpec g = .ok spec →
      (BlockNonce.uint64 spec.genesis.sealNonce = g.nonce ↔
        (encodeNonce g.nonce).reverse = encodeNonce g.nonce)) ∧
    (∀ spec, newPybtpereumGenesisSpec g = .ok spec →
      (BlockNonce.uint64 spec.nonce = g.nonce ↔
        (encodeNonce g.nonce).reverse = encodeNonce g.nonce)) :=
  ⟨fun _ h => albtp_nonce h ▸ uint64BE_putUint64LE_eq_iff g.nonce,
    fun _ h => parity_nonce h ▸ uint64BE_putUint64LE_eq_iff g.nonce,
    fun _ h => pybtpereum_nonce h ▸ uint64BE_putUint64LE_eq_iff g.nonce⟩

/-- On the nonce `0x42` of the README's genesis the three converters write
`42 00 00 00 00 00 00 00`, which a header reads as `0x4200000000000000`. -/
theorem nonce_bytes_reversed :
    privateGenesis.nonce = 0x42 ∧
    (newAlbtpGenesisSpec privateGenesis).toOption.map (fun spec => spec.genesis.nonce) =
      some [0x42, 0, 0, 0, 0, 0, 0, 0] ∧
    (newParityChainSpec privateGenesis).toOption.map (fun spec => spec.genesis.sealNonce) =
      some [0x42, 0, 0, 0, 0, 0, 0, 0] ∧
    (newPybtpereumGenesisSpec privateGenesis).toOption.map (fun spec => spec.nonce) =
      some [0x42, 0, 0, 0, 0, 0, 0, 0] ∧
    BlockNonce.uint64 [0x42, 0, 0, 0, 0, 0, 0, 0] = 0x4200000000000000 := by
  decide

end GoBtpereum.Puppeth
