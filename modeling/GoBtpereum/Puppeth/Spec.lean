import Mathlib.Data.List.AList
import GoBtpereum.Puppeth.Nonce

/-!
# Genesis blocks and the chain-spec account maps

The input of the `puppeth` converters (`core.Genesis`, the fields they read) and the account maps
they build. Both the Albtp and the Parity formats attach a builtin contract to an address with
the same routine (`setPrecompileWith`): create an empty account there unless one exists, then set
its builtin field. So an account already at the address keeps everything else.

Folding it over a table of precompiles with distinct addresses (`lookup_foldl_setPrecompile`,
`lookup_foldl_setPrecompile_of_not_mem`, `mem_foldl_setPrecompile`) adds exactly the table's
addresses, gives each its builtin on top of whatever account was there, and leaves every other
address alone. Each step inserts at one address, so these are inductions over the table with
`AList.lookup_insert` and `AList.lookup_insert_ne`.
-/

namespace GoBtpereum.Puppeth

/-- A 20-byte address. -/
abbrev A160 := Fin (2 ^ 160)

/-- A 32-byte hash. -/
abbrev H256 := Fin (2 ^ 256)

/-- The message of the runtime panic a nil `*big.Int` dereference raises, as in `(*big.Int).Uint64`
on an unset fork block. -/
def nilDereference : String := "runtime error: invalid memory address or nil pointer dereference"

/-- `params.ChainConfig`, the fields the converters read; `btpash` says whether the engine config
pointer is set. -/
structure ChainConfig where
  chainID : Option Nat
  homesteadBlock : Option Nat
  eip150Block : Option Nat
  eip155Block : Option Nat
  eip158Block : Option Nat
  byzantiumBlock : Option Nat
  constantinopleBlock : Option Nat
  petersburgBlock : Option Nat
  btpash : Bool
  deriving DecidableEq, Repr

/-- `core.GenesisAccount`: the balance pointer and the nonce. -/
structure GenesisAccount where
  balance : Option Nat
  nonce : UInt64
  deriving DecidableEq, Repr

/-- `core.Genesis`. -/
structure Genesis where
  config : ChainConfig
  nonce : UInt64
  timestamp : UInt64
  extraData : List UInt8
  gasLimit : UInt64
  difficulty : Option Nat
  mixhash : H256
  coinbase : A160
  alloc : AList (fun _ : A160 => GenesisAccount)
  parentHash : H256

/-- `common.BytesToAddress([]byte{address})`: the one byte, left-padded. -/
def precompileAddress (address : UInt8) : A160 := ⟨address.toNat, by
  have := uint8_toNat_lt address
  omega⟩

theorem precompileAddress_injective : Function.Injective precompileAddress := by
  intro a b h
  have h' := congrArg Fin.val h
  exact UInt8.toNat.inj h'

/-- The precompile addresses the converters fill: `0x01`-`0x04`, and `0x05`-`0x08` from
Byzantium on. -/
def precompileAddresses (byzantium : Bool) : List UInt8 :=
  [1, 2, 3, 4] ++ if byzantium then [5, 6, 7, 8] else []

/-! ### Attaching a builtin -/

section Precompile

variable {α β : Type} (empty : α) (attach : α → β → α)

/-- `setPrecompile` of either format: the account at the address, created empty if absent,
gets the builtin `data`. -/
def setPrecompileWith (accounts : AList (fun _ : A160 => α)) (address : UInt8) (data : β) :
    AList (fun _ : A160 => α) :=
  let addr := precompileAddress address
  accounts.insert addr (attach ((accounts.lookup addr).getD empty) data)

/-- The account map after `setPrecompile` for each entry of `table` in turn. -/
def foldPrecompiles (accounts : AList (fun _ : A160 => α)) (table : List (UInt8 × β)) :
    AList (fun _ : A160 => α) :=
  table.foldl (fun acc e => setPrecompileWith empty attach acc e.1 e.2) accounts

theorem foldPrecompiles_cons (accounts : AList (fun _ : A160 => α)) (e : UInt8 × β)
    (table : List (UInt8 × β)) :
    foldPrecompiles empty attach accounts (e :: table) =
      foldPrecompiles empty attach (setPrecompileWith empty attach accounts e.1 e.2) table := rfl

theorem lookup_foldl_setPrecompile_of_not_mem (table : List (UInt8 × β)) (a : A160)
    (ha : ∀ e ∈ table, precompileAddress e.1 ≠ a) :
    ∀ accounts, (foldPrecompiles empty attach accounts table).lookup a = accounts.lookup a := by
  induction table with
  | nil => intro; rfl
  | cons e table ih =>
    intro accounts
    rw [foldPrecompiles_cons]
    rw [ih (fun e' he' => ha e' (.tail _ he')), setPrecompileWith,
      AList.lookup_insert_ne (ha e (.head _)).symm]

theorem lookup_foldl_setPrecompile (table : List (UInt8 × β))
    (hnodup : (table.map Prod.fst).Nodup) (n : UInt8) (d : β) (hmem : (n, d) ∈ table) :
    ∀ accounts, (foldPrecompiles empty attach accounts table).lookup (precompileAddress n) =
      some (attach ((accounts.lookup (precompileAddress n)).getD empty) d) := by
  induction table with
  | nil => cases hmem
  | cons e table ih =>
    intro accounts
    rw [List.map_cons, List.nodup_cons] at hnodup
    rw [foldPrecompiles_cons]
    rcases List.mem_cons.mp hmem with rfl | hmem
    · rw [lookup_foldl_setPrecompile_of_not_mem empty attach table _ (fun e' he' h =>
        hnodup.1 (List.mem_map.mpr ⟨e', he', precompileAddress_injective h⟩)), setPrecompileWith,
        AList.lookup_insert]
    · have hne : precompileAddress n ≠ precompileAddress e.1 := fun h =>
        hnodup.1 (precompileAddress_injective h ▸ List.mem_map_of_mem Prod.fst hmem)
      rw [ih hnodup.2 hmem, setPrecompileWith, AList.lookup_insert_ne hne]

theorem mem_foldl_setPrecompile (table : List (UInt8 × β)) (a : A160) :
    ∀ accounts, a ∈ foldPrecompiles empty attach accounts table ↔
      a ∈ accounts ∨ ∃ e ∈ table, precompileAddress e.1 = a := by
  induction table with
  | nil => intro; simp [foldPrecompiles]
  | cons e table ih =>
    intro accounts
    rw [foldPrecompiles_cons]
    rw [ih, setPrecompileWith, AList.mem_insert]
    constructor
    · rintro ((rfl | h) | ⟨e', he', rfl⟩)
      · exact .inr ⟨e, .head _, rfl⟩
      · exact .inl h
      · exact .inr ⟨e', .tail _ he', rfl⟩
    · rintro (h | ⟨e', he', rfl⟩)
      · exact .inl (.inr h)
      · rcases List.mem_cons.mp he' with rfl | he'
        · exact .inl (.inl rfl)
        · exact .inr ⟨e', he', rfl⟩

end Precompile

/-! ### Copying the alloc -/

section Alloc

variable {α : Type} (g : Option α → GenesisAccount → α)

/-- The `for address, account := range genesis.Alloc` loop of either format: each alloc account
is written at its address, from whatever account was there (`g`). -/
def foldAlloc (l : List (Σ _ : A160, GenesisAccount)) (accounts : AList (fun _ : A160 => α)) :
    AList (fun _ : A160 => α) :=
  l.foldl (fun acc e => acc.insert e.1 (g (acc.lookup e.1) e.2)) accounts

theorem foldAlloc_cons (e : Σ _ : A160, GenesisAccount) (l : List (Σ _ : A160, GenesisAccount))
    (accounts : AList (fun _ : A160 => α)) :
    foldAlloc g (e :: l) accounts = foldAlloc g l (accounts.insert e.1 (g (accounts.lookup e.1) e.2)) :=
  rfl

theorem lookup_foldAlloc_of_not_mem (l : List (Σ _ : A160, GenesisAccount)) (a : A160)
    (ha : a ∉ l.keys) : ∀ accounts, (foldAlloc g l accounts).lookup a = accounts.lookup a := by
  induction l with
  | nil => intro; rfl
  | cons e l ih =>
    intro accounts
    rw [List.keys_cons, List.mem_cons, not_or] at ha
    rw [foldAlloc_cons, ih ha.2, AList.lookup_insert_ne ha.1]

theorem lookup_foldAlloc (l : List (Σ _ : A160, GenesisAccount)) (hl : l.NodupKeys) (a : A160)
    (acc : GenesisAccount) (h : l.dlookup a = some acc) :
    ∀ accounts, (foldAlloc g l accounts).lookup a = some (g (accounts.lookup a) acc) := by
  induction l with
  | nil => cases h
  | cons e l ih =>
    intro accounts
    rw [List.nodupKeys_cons] at hl
    rw [foldAlloc_cons]
    by_cases hae : a = e.1
    · subst hae
      rw [List.dlookup_cons_eq] at h
      cases h
      rw [lookup_foldAlloc_of_not_mem g l _ hl.1, AList.lookup_insert]
    · rw [List.dlookup_cons_ne _ _ hae] at h
      rw [ih hl.2 h, AList.lookup_insert_ne hae]

theorem mem_foldAlloc (l : List (Σ _ : A160, GenesisAccount)) (a : A160) :
    ∀ accounts, a ∈ foldAlloc g l accounts ↔ a ∈ accounts ∨ a ∈ l.keys := by
  induction l with
  | nil => intro; simp [foldAlloc]
  | cons e l ih =>
    intro accounts
    rw [foldAlloc_cons, ih, AList.mem_insert, List.keys_cons, List.mem_cons, or_assoc]
    exact or_left_comm

end Alloc

/-! ### The account map of a converter -/

section Accounts

variable {α β : Type} (g : Option α → GenesisAccount → α) (empty : α) (attach : α → β → α)
  (alloc : AList (fun _ : A160 => GenesisAccount)) (table : List (UInt8 × β))

/-- The alloc copied into an empty map, with the builtins of `table` attached on top. -/
def convertAccounts : AList (fun _ : A160 => α) :=
  foldPrecompiles empty attach (foldAlloc g alloc.entries ∅) table

theorem mem_convertAccounts (a : A160) :
    a ∈ convertAccounts g empty attach alloc table ↔
      a ∈ alloc ∨ ∃ e ∈ table, precompileAddress e.1 = a := by
  rw [convertAccounts, mem_foldl_setPrecompile, mem_foldAlloc, AList.mem_keys]
  simp only [AList.keys_empty, List.not_mem_nil, false_or]
  rfl

theorem lookup_convertAccounts_of_alloc (hnodup : (table.map Prod.fst).Nodup) (a : A160)
    (acc : GenesisAccount) (h : alloc.lookup a = some acc) :
    (convertAccounts g empty attach alloc table).lookup a = some (g none acc) ∨
      ∃ d, (convertAccounts g empty attach alloc table).lookup a = some (attach (g none acc) d) := by
  have hcopy := lookup_foldAlloc g alloc.entries alloc.nodupKeys a acc h ∅
  rw [AList.lookup_empty] at hcopy
  by_cases hpre : ∃ e ∈ table, precompileAddress e.1 = a
  · obtain ⟨⟨n, d⟩, he, rfl⟩ := hpre
    refine .inr ⟨d, ?_⟩
    rw [convertAccounts, lookup_foldl_setPrecompile empty attach table hnodup n d he, hcopy]
    rfl
  · refine .inl ?_
    rw [convertAccounts, lookup_foldl_setPrecompile_of_not_mem empty attach table a
      (fun e he h => hpre ⟨e, he, h⟩), hcopy]

theorem lookup_convertAccounts_of_table (hnodup : (table.map Prod.fst).Nodup) (n : UInt8) (d : β)
    (h : (n, d) ∈ table) : ∃ x,
      (convertAccounts g empty attach alloc table).lookup (precompileAddress n) = some (attach x d) :=
  ⟨_, lookup_foldl_setPrecompile empty attach table hnodup n d h _⟩

end Accounts

end GoBtpereum.Puppeth
