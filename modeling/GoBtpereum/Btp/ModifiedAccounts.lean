import GoBtpereum.Btp.StorageRange

/-!
# Accounts modified between two blocks

`GetModifiedAccountsByNumber` and `GetModifiedAccountsByHash` (`btp/api.go`, behind
`debug_getModifiedAccountsBy*`) look up a start and an end block, or a block and its parent when
no end is given, and `getModifiedAccounts` lists the accounts whose state leaf differs between the
two state tries: it walks `trie.NewDifferenceIterator` over the two secure tries and looks up each
hashed key's preimage. The two entry points are one routine over the block lookup they use and
the formats their messages give the two ends (`modifiedAccountsBetween`). A state trie is a
`StorageTrie` (its leaves in key order); the blockchain's lookups, `trie.NewSecure`, the preimage
store and Go's `%x` on keys and hashes are parameters.

The loop stops at the first leaf without a preimage, with its hash in the message, and otherwise
returns every preimage in key order (`collectDirty_eq`). Without an end, the call is the one from
the block's parent to the block (`getModifiedAccountsByNumber_parent`).
-/

namespace GoBtpereum.Btp

variable {H K V P : Type}

/-- `types.Block`, the fields the debug API reads. -/
structure Block (H : Type) where
  number : Nat
  parentHash : H
  root : H

/-- `%x` of an integer: its lowercase hex digits. -/
def hexNat (n : Nat) : String := String.mk (Nat.toDigits 16 n)

section Collect

variable (hexKey : K → String)

/-- The loop of `getModifiedAccounts` over the leaves the iterator yields: each hashed key's
preimage is appended, and a key without one ends the call. -/
def collectDirty (getKey : K → Option P) : List (K × V) → List P → Except String (List P)
  | [], dirty => .ok dirty
  | (k, _) :: rest, dirty =>
    match getKey k with
    | none => .error ("no preimage found for hash " ++ hexKey k)
    | some key => collectDirty getKey rest (dirty ++ [key])

theorem collectDirty_eq (getKey : K → Option P) (l : List (K × V)) (dirty : List P) :
    collectDirty hexKey getKey l dirty =
      match l.find? (fun e => (getKey e.1).isNone) with
      | some e => .error ("no preimage found for hash " ++ hexKey e.1)
      | none => .ok (dirty ++ l.filterMap fun e => getKey e.1) := by
  induction l generalizing dirty with
  | nil => simp [collectDirty]
  | cons e rest ih =>
    obtain ⟨k, v⟩ := e
    rw [collectDirty]
    cases hk : getKey k with
    | none => simp [hk]
    | some key => simp [hk, ih]

end Collect

variable [LinearOrder K] [DecidableEq V]

/-- What the debug API reads from the node: the blockchain's block lookups, `trie.NewSecure` on
its state database, and the preimage store behind `GetKey`. -/
structure ChainState (H K V P : Type) [LinearOrder K] where
  getBlockByNumber : Nat → Option (Block H)
  getBlockByHash : H → Option (Block H)
  newSecure : H → Except String (StorageTrie K V)
  getKey : K → Option P

/-- Modelled after `trie.NewDifferenceIterator` under `trie.NewIterator`, which the sources use but
do not include ("iterates over elements in b that are not in a"): the leaves of the new trie that
the old trie does not hold with the same value, in key order. -/
def StorageTrie.difference (old new : StorageTrie K V) : List (K × V) :=
  new.entries.filter fun e => e ∉ old.entries

section Lists

variable (hexKey : K → String)

/-- `getModifiedAccounts`: the start block must be below the end block, both state tries must
open, and then the loop runs over the difference iterator. -/
def getModifiedAccounts (r : ChainState H K V P) (startBlock endBlock : Block H) :
    Except String (List P) :=
  if startBlock.number ≥ endBlock.number then
    .error ("start block height (" ++ toString startBlock.number ++
      ") must be less than end block height (" ++ toString endBlock.number ++ ")")
  else
    match r.newSecure startBlock.root with
    | .error e => .error e
    | .ok oldTrie =>
      match r.newSecure endBlock.root with
      | .error e => .error e
      | .ok newTrie => collectDirty hexKey r.getKey (oldTrie.difference newTrie) []

end Lists

/-! ### The entry points -/

section EntryPoints

variable (hexKey : K → String) (hexHash : H → String) (r : ChainState H K V P)

/-- `GetModifiedAccountsByNumber` and `GetModifiedAccountsByHash`, over the lookup `getBlock` they
use for both ends and the formats `fmtStart` and `fmtEnd` their messages give the two ends. With
no end, the start block is the end and its parent the start. -/
def modifiedAccountsBetween {α : Type} (getBlock : α → Option (Block H))
    (fmtStart fmtEnd : α → String) (start : α) (stop : Option α) : Except String (List P) :=
  match getBlock start with
  | none => .error ("start block " ++ fmtStart start ++ " not found")
  | some startBlock =>
    match stop with
    | none =>
      match r.getBlockByHash startBlock.parentHash with
      | none => .error ("block " ++ hexNat startBlock.number ++ " has no parent")
      | some parent => getModifiedAccounts hexKey r parent startBlock
    | some stop =>
      match getBlock stop with
      | none => .error ("end block " ++ fmtEnd stop ++ " not found")
      | some endBlock => getModifiedAccounts hexKey r startBlock endBlock

/-- `GetModifiedAccountsByNumber`: the start number is formatted with `%x`, the end number with
`%d`. -/
def getModifiedAccountsByNumber (startNum : Nat) (endNum : Option Nat) : Except String (List P) :=
  modifiedAccountsBetween hexKey r r.getBlockByNumber hexNat toString startNum endNum

/-- `GetModifiedAccountsByHash`: both hashes are formatted with `%x`. -/
def getModifiedAccountsByHash (startHash : H) (endHash : Option H) : Except String (List P) :=
  modifiedAccountsBetween hexKey r r.getBlockByHash hexHash hexHash startHash endHash

theorem getModifiedAccountsByNumber_parent {n : Nat} {block parent : Block H}
    (hblock : r.getBlockByNumber n = some block)
    (hparent : r.getBlockByHash block.parentHash = some parent)
    (hcanonical : r.getBlockByNumber parent.number = some parent) :
    getModifiedAccountsByNumber hexKey r n none =
      getModifiedAccountsByNumber hexKey r parent.number (some n) := by
  simp only [getModifiedAccountsByNumber, modifiedAccountsBetween, hblock, hparent, hcanonical]

end EntryPoints

end GoBtpereum.Btp
