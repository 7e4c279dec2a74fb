import Mathlib.Data.Nat.Digits
import GoBtpereum.Puppeth.Convert

/-!
# Fork schedules through the converters

A go-btpereum genesis activates a fork from the block its config gives it (`isForked`); the
Parity and Albtp specs activate the EIPs of a fork from the transition blocks they carry. The
converters write each fork block through `Uint64`, and leave a fork the genesis does not set at
the field's zero value, which the other client reads as block 0.

So each converter's spec activates a fork at exactly the blocks the genesis does iff the genesis
sets the fork's block below `2 ^ 64` (`converters_forks_agree`): all transitions of a fork hold
one value (`parity_transitions`, `albtp_transitions`), and one value agrees with `isForked s` at
every block iff `s` is a block below `2 ^ 64` and the value is that block (`schedule_agrees`). A
genesis without a Byzantium block thus becomes specs that enable Byzantium's EIPs from genesis.

Parity's engine section also carries two tables keyed by `hexutil.EncodeBig` of a block:
Frontier's block reward at `0x0`, then `setByzantium` and `setConstantinople` write the fork's
reward and bomb delay at its block. Parity reads the reward of the entry of the greatest block at
most the current one (`entryAt`) and sums the delays in force (`sumTo`). With the forks in order
the reward table pays the reward of each block's era (`parity_rewards_agree`). The delays add up
to each fork's delay from its block on exactly when Byzantium and Constantinople do not share a
block (`parity_bombDelays_agree_iff`): on a shared block, as in a genesis with every fork at
block 0, Constantinople's entry replaces Byzantium's (`sumTo_difficultyBombDelays`). Keys and values read
back through `hexValue` (`hexValue_encodeBig`), so distinct blocks never share a key.
-/

namespace GoBtpereum.Puppeth

/-! ### Fork schedules -/

/-- Modelled from the spec ("a `ChainConfig` tagged with activation block numbers selects
per-rule behavior"): `isForked(s, head)`, the fork block is set and at most `head`. -/
def isForked (s : Option Nat) (head : Nat) : Bool := s.any (· ≤ head)

@[simp] theorem isForked_none (head : Nat) : isForked none head = false := rfl

@[simp] theorem isForked_some (b head : Nat) : isForked (some b) head = decide (b ≤ head) := rfl

theorem isForked_iff {s : Option Nat} {head : Nat} :
    isForked s head = true ↔ ∃ b, s = some b ∧ b ≤ head := by
  cases s <;> simp

/-- The forks whose blocks the converters carry over. -/
inductive Fork where
  | homestead
  | eip150
  | eip155
  | eip158
  | byzantium
  | constantinople
  deriving DecidableEq, Repr

/-- The block a genesis config gives a fork. -/
def ChainConfig.forkBlock (c : ChainConfig) : Fork → Option Nat
  | .homestead => c.homesteadBlock
  | .eip150 => c.eip150Block
  | .eip155 => c.eip155Block
  | .eip158 => c.eip158Block
  | .byzantium => c.byzantiumBlock
  | .constantinople => c.constantinopleBlock

/-- The transitions of Parity's spec for the EIPs of a fork, grouped as `newParityChainSpec`
writes them. `eip160Transition` is grouped with EIP-155 because the converter writes it from
`EIP155Block`; which fork EIP-160 belongs to is not checked here, only that it follows that
block. -/
def ParityParams.transitions (p : ParityParams) : Fork → List UInt64
  | .homestead => [p.homesteadTransition]
  | .eip150 => [p.eip150Transition]
  | .eip155 => [p.eip155Transition, p.eip160Transition]
  | .eip158 => [p.eip161abcTransition, p.eip161dTransition]
  | .byzantium => [p.eip100bTransition, p.eip140Transition, p.eip211Transition,
      p.eip214Transition, p.eip658Transition]
  | .constantinople => [p.eip145Transition, p.eip1014Transition, p.eip1052Transition,
      p.eip1283Transition]

/-- The fork blocks of Albtp's spec; it has no field for EIP-155. -/
def AlbtpParams.transitions (p : AlbtpParams) : Fork → List UInt64
  | .homestead => [p.homesteadForkBlock]
  | .eip150 => [p.eip150ForkBlock]
  | .eip155 => []
  | .eip158 => [p.eip158ForkBlock]
  | .byzantium => [p.byzantiumForkBlock]
  | .constantinople => [p.constantinopleForkBlock]

/-- A spec activates a fork at block `head` when all of the fork's transitions are at most
`head`. -/
def activeAt (transitions : List UInt64) (head : Nat) : Bool := transitions.all (·.toNat ≤ head)

/-- The value a converter writes for a fork block: its `Uint64`, the zero value when unset. -/
def transitionOf (s : Option Nat) : UInt64 := (s.map Nat.toUInt64).getD 0

theorem schedule_agrees (s : Option Nat) :
    (∀ head, decide ((transitionOf s).toNat ≤ head) = isForked s head) ↔
      ∃ b, s = some b ∧ b < 2 ^ 64 := by
  cases s with
  | none => simp [transitionOf]
  | some b =>
    show (∀ head, decide (b % 2 ^ 64 ≤ head) = decide (b ≤ head)) ↔ _
    simp only [Option.some.injEq, exists_eq_left', decide_eq_decide]
    refine ⟨fun h => ?_, fun hb head => by rw [Nat.mod_eq_of_lt hb]⟩
    by_contra hb
    have := (h (b % 2 ^ 64)).mp le_rfl
    have := Nat.mod_lt b (Nat.two_pow_pos 64)
    have := Nat.mod_le b (2 ^ 64)
    omega

theorem activeAt_of_forall_eq {l : List UInt64} {x : UInt64} (hl : ∀ t ∈ l, t = x) (hne : l ≠ [])
    (head : Nat) : activeAt l head = decide (x.toNat ≤ head) := by
  obtain ⟨t, ht⟩ := List.exists_mem_of_ne_nil l hne
  rw [activeAt, Bool.eq_iff_iff, List.all_eq_true, decide_eq_true_iff]
  exact ⟨fun h => hl t ht ▸ of_decide_eq_true (h t ht),
    fun h t' ht' => decide_eq_true (hl t' ht' ▸ h)⟩

theorem parity_transitions {g : Genesis} {spec : ParityChainSpec}
    (h : newParityChainSpec g = .ok spec) (f : Fork) :
    ∀ t ∈ spec.params.transitions f, t = transitionOf (g.config.forkBlock f) := by
  unfold newParityChainSpec at h
  split at h
  · cases h
  · split at h
    · rename_i h1 h2 h3 h4 _
      split at h
      · cases h
      · cases h
        cases f <;> simp [ParityParams.transitions, ChainConfig.forkBlock, transitionOf, h1, h2, h3, h4]
    · cases h

theorem albtp_transitions {g : Genesis} {spec : AlbtpGenesisSpec}
    (h : newAlbtpGenesisSpec g = .ok spec) (f : Fork) :
    ∀ t ∈ spec.params.transitions f, t = transitionOf (g.config.forkBlock f) := by
  unfold newAlbtpGenesisSpec at h
  split at h
  · cases h
  · split at h
    · rename_i h1 h2 h3 _
      cases h
      cases f <;> simp [AlbtpParams.transitions, ChainConfig.forkBlock, transitionOf, h1, h2, h3]
    · cases h

/-- Whatever genesis a converter accepts, its spec activates each fork it carries at exactly the
blocks the genesis does iff the genesis sets that fork's block below `2 ^ 64`. -/
theorem converters_forks_agree (g : Genesis) :
    (∀ spec, newParityChainSpec g = .ok spec → ∀ f,
      (∀ head, activeAt (spec.params.transitions f) head = isForked (g.config.forkBlock f) head) ↔
        ∃ b, g.config.forkBlock f = some b ∧ b < 2 ^ 64) ∧
    (∀ spec, newAlbtpGenesisSpec g = .ok spec → ∀ f, f ≠ .eip155 →
      ((∀ head, activeAt (spec.params.transitions f) head = isForked (g.config.forkBlock f) head) ↔
        ∃ b, g.config.forkBlock f = some b ∧ b < 2 ^ 64)) := by
  refine ⟨fun spec h f => ?_, fun spec h f hf => ?_⟩
  · have hne : spec.params.transitions f ≠ [] := by cases f <;> simp [ParityParams.transitions]
    simp only [activeAt_of_forall_eq (parity_transitions h f) hne, schedule_agrees]
  · have hne : spec.params.transitions f ≠ [] := by cases f <;> simp_all [AlbtpParams.transitions]
    simp only [activeAt_of_forall_eq (albtp_transitions h f) hne, schedule_agrees]

/-! ### Hex keys -/

/-- `hexutil.EncodeBig` of a non-negative number, and `hexutil.EncodeUint64`: `0x` and the
lowercase hex digits, `0x0` for zero. -/
def encodeBig (n : Nat) : String := "0x" ++ String.mk (Nat.toDigits 16 n)

/-- The value of a lowercase hex digit. -/
def hexDigit (c : Char) : Nat := if c.toNat < 58 then c.toNat - 48 else c.toNat - 87

/-- One step of reading hex digits back into a number. -/
def hexStep (acc : Nat) (c : Char) : Nat := acc * 16 + hexDigit c

/-- The number a `0x`-prefixed hex string stands for, as Parity reads the tables. -/
def hexValue (s : String) : Nat := (s.data.drop 2).foldl hexStep 0

theorem hexDigit_digitChar : ∀ n < 16, hexDigit (Nat.digitChar n) = n := by decide

theorem toDigitsCore_hexStep (fuel n : Nat) (ds : List Char) (h : n < fuel) :
    (Nat.toDigitsCore 16 fuel n ds).foldl hexStep 0 = ds.foldl hexStep n := by
  induction fuel generalizing n ds with
  | zero => omega
  | succ fuel ih =>
    simp only [Nat.toDigitsCore]
    split
    · rw [List.foldl_cons, hexStep, hexDigit_digitChar _ (Nat.mod_lt _ (by decide))]
      congr 1; omega
    · rw [ih _ _ (by omega), List.foldl_cons, hexStep,
        hexDigit_digitChar _ (Nat.mod_lt _ (by decide))]
      congr 1; omega

theorem hexValue_encodeBig (n : Nat) : hexValue (encodeBig n) = n := by
  show (Nat.toDigits 16 n).foldl hexStep 0 = n
  rw [Nat.toDigits, toDigitsCore_hexStep _ _ _ (Nat.lt_succ_self n)]
  rfl

theorem encodeBig_injective : Function.Injective encodeBig := fun i j h => by
  rw [← hexValue_encodeBig i, ← hexValue_encodeBig j, h]

theorem encodeBig_zero : encodeBig 0 = "0x0" := rfl

theorem lookup_insert_encodeBig (t : AList (fun _ : String => String)) (n k : Nat) (v : String) :
    (t.insert (encodeBig n) v).lookup (encodeBig k) =
      if n = k then some v else t.lookup (encodeBig k) := by
  split
  · subst k; exact AList.lookup_insert t
  · exact AList.lookup_insert_ne (encodeBig_injective.ne (Ne.symm ‹_›))

/-! ### The reward and bomb-delay tables -/

/-- The `blockReward` and `difficultyBombDelays` tables of Parity's `engine.btpash.params`. -/
structure ParityBtpashTables where
  blockReward : AList (fun _ : String => String)
  difficultyBombDelays : AList (fun _ : String => String)

/-- The entry of a table in force at block `head`: the one of the greatest block at most `head`,
as Parity reads the block rewards. -/
def entryAt (t : AList (fun _ : String => String)) : Nat → Option String
  | 0 => t.lookup (encodeBig 0)
  | head + 1 => (t.lookup (encodeBig (head + 1))).or (entryAt t head)

/-- The sum of the entries of a table at the blocks up to `head`, as Parity reads the bomb
delays. -/
def sumTo (t : AList (fun _ : String => String)) : Nat → Nat
  | 0 => ((t.lookup (encodeBig 0)).map hexValue).getD 0
  | head + 1 => sumTo t head + ((t.lookup (encodeBig (head + 1))).map hexValue).getD 0

theorem entryAt_eq {t : AList (fun _ : String => String)} {k head : Nat} {v : String}
    (hk : k ≤ head) (hv : t.lookup (encodeBig k) = some v)
    (hnone : ∀ j, k < j → j ≤ head → t.lookup (encodeBig j) = none) : entryAt t head = some v := by
  induction head with
  | zero =>
    obtain rfl : k = 0 := by omega
    exact hv
  | succ head ih =>
    rw [entryAt]
    rcases Nat.lt_or_ge k (head + 1) with hlt | hge
    · rw [hnone _ hlt le_rfl, Option.none_or]
      exact ih (by omega) fun j h1 h2 => hnone j h1 (by omega)
    · obtain rfl : k = head + 1 := by omega
      rw [hv]; rfl

section Tables

variable (frontierBlockReward byzantiumBlockReward constantinopleBlockReward : Nat)

/-- `parityChainSpec.setByzantium`, its writes to the tables: the Byzantium reward and a bomb
delay of `3000000` at the fork block. -/
def ParityBtpashTables.setByzantium (t : ParityBtpashTables) (num : Nat) : ParityBtpashTables :=
  ⟨t.blockReward.insert (encodeBig num) (encodeBig byzantiumBlockReward),
    t.difficultyBombDelays.insert (encodeBig num) (encodeBig 3000000)⟩

/-- `parityChainSpec.setConstantinople`, its writes to the tables: the Constantinople reward and a
bomb delay of `2000000` at the fork block. -/
def ParityBtpashTables.setConstantinople (t : ParityBtpashTables) (num : Nat) :
    ParityBtpashTables :=
  ⟨t.blockReward.insert (encodeBig num) (encodeBig constantinopleBlockReward),
    t.difficultyBombDelays.insert (encodeBig num) (encodeBig 2000000)⟩

/-- The tables `newParityChainSpec` builds: Frontier's reward at `0x0`, then `setByzantium` and
`setConstantinople` for the fork blocks the genesis sets. -/
def parityBtpashTables (c : ChainConfig) : ParityBtpashTables :=
  let frontier : ParityBtpashTables := ⟨(∅ : AList _).insert "0x0" (encodeBig frontierBlockReward), ∅⟩
  let byzantium := match c.byzantiumBlock with
    | some num => frontier.setByzantium byzantiumBlockReward num
    | none => frontier
  match c.constantinopleBlock with
  | some num => byzantium.setConstantinople constantinopleBlockReward num
  | none => byzantium

/-- Modelled from the spec ("block rewards per era: baseline at genesis, reduced at two
subsequent named forks"): the reward of block `head`, Constantinople's over Byzantium's. -/
def blockReward (c : ChainConfig) (head : Nat) : Nat :=
  if isForked c.constantinopleBlock head then constantinopleBlockReward
  else if isForked c.byzantiumBlock head then byzantiumBlockReward else frontierBlockReward

/-- The bomb delay in force at block `head` when each fork's delay counts from its block on: the
`3000000` of `setByzantium` and the `2000000` of `setConstantinople`. -/
def bombDelay (c : ChainConfig) (head : Nat) : Nat :=
  (if isForked c.byzantiumBlock head then 3000000 else 0) +
    if isForked c.constantinopleBlock head then 2000000 else 0

theorem lookup_blockReward (c : ChainConfig) (k : Nat) :
    (parityBtpashTables frontierBlockReward byzantiumBlockReward constantinopleBlockReward
      c).blockReward.lookup (encodeBig k) =
      if c.constantinopleBlock = some k then some (encodeBig constantinopleBlockReward)
      else if c.byzantiumBlock = some k then some (encodeBig byzantiumBlockReward)
      else if k = 0 then some (encodeBig frontierBlockReward) else none := by
  unfold parityBtpashTables
  rcases c.byzantiumBlock with _ | b <;> rcases c.constantinopleBlock with _ | n <;>
    simp only [ParityBtpashTables.setByzantium, ParityBtpashTables.setConstantinople,
      ← encodeBig_zero, lookup_insert_encodeBig, AList.lookup_empty] <;> simp [eq_comm]

theorem lookup_difficultyBombDelays (c : ChainConfig) (k : Nat) :
    (parityBtpashTables frontierBlockReward byzantiumBlockReward constantinopleBlockReward
      c).difficultyBombDelays.lookup (encodeBig k) =
      if c.constantinopleBlock = some k then some (encodeBig 2000000)
      else if c.byzantiumBlock = some k then some (encodeBig 3000000) else none := by
  unfold parityBtpashTables
  rcases c.byzantiumBlock with _ | b <;> rcases c.constantinopleBlock with _ | n <;>
    simp only [ParityBtpashTables.setByzantium, ParityBtpashTables.setConstantinople,
      lookup_insert_encodeBig, AList.lookup_empty] <;> simp

/-- With Byzantium no later than Constantinople, Parity's reward table pays at every block the
reward of that block's era. -/
theorem parity_rewards_agree (c : ChainConfig)
    (hordered : ∀ b n, c.byzantiumBlock = some b → c.constantinopleBlock = some n → b ≤ n)
    (head : Nat) :
    entryAt (parityBtpashTables frontierBlockReward byzantiumBlockReward constantinopleBlockReward
      c).blockReward head =
      some (encodeBig (blockReward frontierBlockReward byzantiumBlockReward
        constantinopleBlockReward c head)) := by
  have hunset : ∀ {s : Option Nat}, ¬isForked s head = true → ∀ j ≤ head, s ≠ some j :=
    fun hs j hj h => hs (isForked_iff.mpr ⟨j, h, hj⟩)
  rw [blockReward]
  split_ifs with hc hb
  · -- Constantinople's era: its entry, and no later one up to `head`
    obtain ⟨n, hn, hle⟩ := isForked_iff.mp hc
    refine entryAt_eq hle (by rw [lookup_blockReward, if_pos hn]) fun j hj _ => ?_
    rw [lookup_blockReward, if_neg (by rw [hn]; simp only [Option.some.injEq]; omega),
      if_neg (fun hb => absurd (hordered j n hb hn) (by omega)), if_neg (by omega)]
  · -- Byzantium's era: its entry, Constantinople later than `head`
    obtain ⟨b, hb, hle⟩ := isForked_iff.mp hb
    refine entryAt_eq hle (by rw [lookup_blockReward, if_neg (hunset hc b hle), if_pos hb])
      fun j hj hjh => ?_
    rw [lookup_blockReward, if_neg (hunset hc j hjh),
      if_neg (by rw [hb]; simp only [Option.some.injEq]; omega), if_neg (by omega)]
  · -- Frontier's era: the entry at `0x0`, both forks later than `head`
    refine entryAt_eq (Nat.zero_le head) ?_ fun j hj hjh => ?_
    · rw [lookup_blockReward, if_neg (hunset hc 0 (Nat.zero_le _)),
        if_neg (hunset hb 0 (Nat.zero_le _)), if_pos rfl]
    · rw [lookup_blockReward, if_neg (hunset hc j hjh), if_neg (hunset hb j hjh), if_neg (by omega)]

theorem parity_rewards_agree_privateGenesis :
    (∀ b n, privateGenesis.config.byzantiumBlock = some b →
      privateGenesis.config.constantinopleBlock = some n → b ≤ n) ∧
    entryAt (parityBtpashTables 5 3 2 privateGenesis.config).blockReward 7 =
      some (encodeBig (blockReward 5 3 2 privateGenesis.config 7)) := by
  have hordered : ∀ b n, privateGenesis.config.byzantiumBlock = some b →
      privateGenesis.config.constantinopleBlock = some n → b ≤ n := by
    rintro b n ⟨⟩ ⟨⟩
    exact le_rfl
  exact ⟨hordered, parity_rewards_agree 5 3 2 privateGenesis.config hordered 7⟩

theorem delay_lookup (c : ChainConfig) (k : Nat) :
    (((parityBtpashTables frontierBlockReward byzantiumBlockReward constantinopleBlockReward
      c).difficultyBombDelays.lookup (encodeBig k)).map hexValue).getD 0 =
      if c.constantinopleBlock = some k then 2000000
      else if c.byzantiumBlock = some k then 3000000 else 0 := by
  rw [lookup_difficultyBombDelays]
  split_ifs <;> simp [hexValue_encodeBig]

theorem delays_zero (sb sc : Option Nat) :
    (if sc = some 0 then 2000000 else if sb = some 0 then 3000000 else 0) =
      (if isForked sb 0 ∧ sb ≠ sc then 3000000 else 0) + if isForked sc 0 then 2000000 else 0 := by
  rcases sb with _ | b <;> rcases sc with _ | n <;>
    simp only [isForked_none, isForked_some, Option.some.injEq, ne_eq, reduceCtorEq,
      decide_eq_true_eq, Bool.false_eq_true, false_and, and_true, not_false_eq_true, if_false] <;>
    split_ifs <;> omega

theorem delays_succ (sb sc : Option Nat) (head : Nat) :
    ((if isForked sb head ∧ sb ≠ sc then 3000000 else 0) +
      if isForked sc head then 2000000 else 0) +
      (if sc = some (head + 1) then 2000000 else if sb = some (head + 1) then 3000000 else 0) =
    (if isForked sb (head + 1) ∧ sb ≠ sc then 3000000 else 0) +
      if isForked sc (head + 1) then 2000000 else 0 := by
  rcases sb with _ | b <;> rcases sc with _ | n <;>
    simp only [isForked_none, isForked_some, Option.some.injEq, ne_eq, reduceCtorEq,
      decide_eq_true_eq, Bool.false_eq_true, false_and, and_true, not_false_eq_true, if_false] <;>
    split_ifs <;> omega

theorem sumTo_difficultyBombDelays (c : ChainConfig) (head : Nat) :
    sumTo (parityBtpashTables frontierBlockReward byzantiumBlockReward constantinopleBlockReward
      c).difficultyBombDelays head =
      (if isForked c.byzantiumBlock head ∧ c.byzantiumBlock ≠ c.constantinopleBlock then 3000000
        else 0) + if isForked c.constantinopleBlock head then 2000000 else 0 := by
  induction head with
  | zero => rw [sumTo, delay_lookup, delays_zero]
  | succ head ih => rw [sumTo, ih, delay_lookup, delays_succ]

/-- Parity's bomb-delay table, its delays in force summed, gives at every block the delays of the
forks active there, each counted from its own block, exactly when Byzantium and Constantinople do
not share a block. -/
theorem parity_bombDelays_agree_iff (c : ChainConfig) :
    (∀ head, sumTo (parityBtpashTables frontierBlockReward byzantiumBlockReward
      constantinopleBlockReward c).difficultyBombDelays head = bombDelay c head) ↔
      ∀ b, c.byzantiumBlock = some b → c.constantinopleBlock ≠ some b := by
  simp only [sumTo_difficultyBombDelays, bombDelay]
  constructor
  · intro h b hb hc
    simpa [hb, hc] using h b
  · intro h head
    by_cases hf : isForked c.byzantiumBlock head = true
    · obtain ⟨b, hb, -⟩ := isForked_iff.mp hf
      simp [hf, hb, Ne.symm (h b hb)]
    · simp [hf]

/-- With every fork at block 0, as in `privateGenesis`, Parity's table puts Constantinople's
2000000 alone in force from genesis on, where the two forks' delays add up to 5000000. -/
example : sumTo (parityBtpashTables 5 3 2 privateGenesis.config).difficultyBombDelays 0 = 2000000 ∧
    bombDelay privateGenesis.config 0 = 5000000 := by
  rw [sumTo_difficultyBombDelays]
  decide

end Tables

end GoBtpereum.Puppeth
