import Mathlib.Data.List.Basic

/-!
# Importing a chain export in batches

`importChain` is `PrivateAdminAPI.ImportChain` (`btp/api.go`) once the file is open: it decodes
blocks from the RLP stream into a buffer of capacity 2500 (`loadBatch`), skips a batch whose
blocks the chain already has (`hasAllBlocks`), inserts it otherwise, and stops at the first
decode or insert error. The chain is a parameter (`BlockChain`: `HasBlock` and `InsertChain` over
chain states), and so is the block type.

On a stream of blocks followed by EOF, the nested loops do what the batches call for
(`importChain_batches`): `batches` cuts the blocks into runs of 2500, the last one shorter and
none empty, and `importBatches` skips or inserts each run in turn and stops at the first failed
insertion. One pass of the outer loop takes the next run from the stream (`loadBatch_map_ok`:
the buffer is emptied after each batch and refilled up to its capacity or to EOF), which is
what `batches` cuts off, so the outer loop and `importBatches` agree batch by batch; the outer
loop terminates because each non-empty batch consumes stream items. A block that fails to decode
is met while the buffer is refilled, so the import stops after the full runs before it and drops
the blocks decoded since (`importChain_parseError`). Over a chain whose successful insertions keep
what they were given and what it had (`BlockChain.Lawful`), a successful import leaves every block
of the export in the chain, and importing the export again skips every batch and changes nothing
(`importChain_reimport`).
-/

namespace GoBtpereum.Btp

/-- What `ImportChain` uses of the chain, over chain states `σ`: `HasBlock`, and `InsertChain`,
which returns the new state and its error, if any. -/
structure BlockChain (σ B : Type) where
  hasBlock : σ → B → Bool
  insertChain : σ → List B → σ × Option String

variable {σ B : Type} (chain : BlockChain σ B)

/-- `hasAllBlocks`. -/
def hasAllBlocks (st : σ) (bs : List B) : Bool := bs.all (chain.hasBlock st)

/-- `cap(blocks)`: the buffer is made with capacity 2500 and only ever resliced to `[:0]`. -/
def batchSize : Nat := 2500

/-- The decoded RLP stream: one decode result per item, then `io.EOF` for ever. -/
abbrev BlockStream (B : Type) := List (Except String B)

/-- The inner loop `for len(blocks) < cap(blocks)`: while the buffer is not full, decode the next
item; stop at EOF. Returns the buffer, the block index and the rest of the stream. -/
def loadBatch (blocks : List B) (index : Nat) :
    BlockStream B → Except String (List B × Nat × BlockStream B)
  | [] => .ok (blocks, index, [])
  | .error err :: rest =>
    if blocks.length < batchSize then .error ("block " ++ toString index ++ ": failed to parse: " ++ err)
    else .ok (blocks, index, .error err :: rest)
  | .ok block :: rest =>
    if blocks.length < batchSize then loadBatch (blocks ++ [block]) (index + 1) rest
    else .ok (blocks, index, .ok block :: rest)

theorem loadBatch_length (blocks : List B) (index : Nat) (stream : BlockStream B)
    {blocks' : List B} {index' : Nat} {stream' : BlockStream B}
    (h : loadBatch blocks index stream = .ok (blocks', index', stream')) :
    blocks'.length + stream'.length = blocks.length + stream.length := by
  induction stream generalizing blocks index with
  | nil => cases h; rfl
  | cons item rest ih =>
    rcases item with err | block <;> simp only [loadBatch] at h <;> split at h
    · cases h
    · cases h; rfl
    · have := ih _ _ h
      simp only [List.length_append, List.length_singleton] at this
      rw [List.length_cons]
      omega
    · cases h; rfl

theorem loadBatch_shrinks {index : Nat} {stream : BlockStream B} {blocks' : List B}
    {index' : Nat} {stream' : BlockStream B}
    (h : loadBatch [] index stream = .ok (blocks', index', stream')) (hne : blocks'.length ≠ 0) :
    stream'.length < stream.length := by
  have := loadBatch_length [] index stream h
  simp only [List.length_nil] at this
  omega

/-- The outer loop `for batch := 0; ; batch++`, from an empty buffer. -/
def importLoop (batch index : Nat) (st : σ) (stream : BlockStream B) : σ × Except String Bool :=
  match h : loadBatch [] index stream with
  | .error err => (st, .error err)
  | .ok (blocks, index', stream') =>
    if hne : blocks.length = 0 then (st, .ok true)
    else if hasAllBlocks chain st blocks then importLoop (batch + 1) index' st stream'
    else
      match chain.insertChain st blocks with
      | (st', some err) => (st', .error ("batch " ++ toString batch ++ ": failed to insert: " ++ err))
      | (st', none) => importLoop (batch + 1) index' st' stream'
termination_by stream.length
decreasing_by all_goals exact loadBatch_shrinks h hne

/-- `ImportChain` on the decoded stream; the chain state after it and its result, `ok true` for
`(true, nil)`. -/
def importChain (st : σ) (stream : BlockStream B) : σ × Except String Bool :=
  importLoop chain 0 0 st stream

/-! ### What the batches call for -/

/-- The blocks cut into runs of `batchSize`, the last one possibly shorter. -/
def batches : List B → List (List B)
  | [] => []
  | b :: bs => (b :: bs).take batchSize :: batches ((b :: bs).drop batchSize)
termination_by bs => bs.length
decreasing_by simp only [List.length_drop, List.length_cons, batchSize]; omega

/-- Each run is skipped when the chain already has all its blocks and inserted whole otherwise;
the import stops at the first failed insertion and succeeds when every insertion did. -/
def importBatches (batch : Nat) (st : σ) : List (List B) → σ × Except String Bool
  | [] => (st, .ok true)
  | bs :: rest =>
    if hasAllBlocks chain st bs then importBatches (batch + 1) st rest
    else
      match chain.insertChain st bs with
      | (st', some err) => (st', .error ("batch " ++ toString batch ++ ": failed to insert: " ++ err))
      | (st', none) => importBatches (batch + 1) st' rest

theorem batches_nil : batches ([] : List B) = [] := by
  rw [batches]

theorem batches_of_ne_nil {bs : List B} (h : bs ≠ []) :
    batches bs = bs.take batchSize :: batches (bs.drop batchSize) := by
  obtain ⟨b, bs, rfl⟩ := List.exists_cons_of_ne_nil h
  rw [batches]

theorem flatten_batches (bs : List B) : (batches bs).flatten = bs := by
  induction bs using batches.induct with
  | case1 => rw [batches_nil]; rfl
  | case2 b bs ih => rw [batches, List.flatten_cons, ih, List.take_append_drop]

theorem batches_sizes (bs : List B) :
    (∀ b ∈ batches bs, b ≠ [] ∧ b.length ≤ batchSize) ∧
      ∀ b ∈ (batches bs).dropLast, b.length = batchSize := by
  induction bs using batches.induct with
  | case1 => simp [batches_nil]
  | case2 b bs ih =>
    rw [batches]
    refine ⟨fun c hc => ?_, fun c hc => ?_⟩
    · rcases List.mem_cons.mp hc with rfl | hc
      · exact ⟨by simp [batchSize], List.length_take_le _ _⟩
      · exact ih.1 c hc
    · by_cases hrest : (b :: bs).drop batchSize = []
      · rw [hrest, batches_nil] at hc
        simp at hc
      · rw [batches_of_ne_nil hrest, List.dropLast_cons₂] at hc
        rcases List.mem_cons.mp hc with rfl | hc
        · have := List.length_pos.mpr hrest
          rw [List.length_drop] at this
          rw [List.length_take]
          omega
        · rw [← batches_of_ne_nil hrest] at hc
          exact ih.2 c hc

/-! ### The outer loop runs the batches -/

theorem loadBatch_full {blocks : List B} (h : blocks.length = batchSize) (index : Nat)
    (stream : BlockStream B) : loadBatch blocks index stream = .ok (blocks, index, stream) := by
  rcases stream with _ | ⟨_ | _, _⟩ <;> simp [loadBatch, h]

theorem loadBatch_map_ok_append (bs : List B) (tail : BlockStream B) :
    ∀ (blocks : List B) (index : Nat), blocks.length ≤ batchSize →
      loadBatch blocks index (bs.map .ok ++ tail) =
        if bs.length < batchSize - blocks.length then
          loadBatch (blocks ++ bs) (index + bs.length) tail
        else .ok (blocks ++ bs.take (batchSize - blocks.length), index + (batchSize - blocks.length),
          (bs.drop (batchSize - blocks.length)).map .ok ++ tail) := by
  induction bs with
  | nil =>
    intro blocks index hle
    split
    · simp
    · rename_i hfull
      rw [List.length_nil, Nat.not_lt, Nat.le_zero, Nat.sub_eq_zero_iff_le] at hfull
      rw [List.map_nil, List.nil_append, loadBatch_full (by omega)]
      simp [show batchSize - blocks.length = 0 by omega]
  | cons b bs ih =>
    intro blocks index hle
    rw [List.map_cons, List.cons_append, loadBatch]
    split
    · obtain ⟨k, hk, hk'⟩ : ∃ k, batchSize - blocks.length = k + 1 ∧
          batchSize - (blocks ++ [b]).length = k := ⟨batchSize - blocks.length - 1, by simp; omega⟩
      rw [ih _ _ (by simp; omega), hk, hk']
      simp only [List.length_cons, Nat.add_lt_add_iff_right, List.take_succ_cons, List.drop_succ_cons,
        List.append_assoc, List.singleton_append, Nat.add_assoc, Nat.add_comm 1]
    · have : batchSize - blocks.length = 0 := by omega
      simp [this]

theorem loadBatch_map_ok (bs : List B) (blocks : List B) (index : Nat)
    (hle : blocks.length ≤ batchSize) :
    loadBatch blocks index (bs.map .ok) =
      .ok (blocks ++ bs.take (batchSize - blocks.length),
        index + (bs.take (batchSize - blocks.length)).length,
        (bs.drop (batchSize - blocks.length)).map .ok) := by
  have h := loadBatch_map_ok_append bs [] blocks index hle
  rw [List.append_nil] at h
  rw [h]
  split
  · rename_i hlt
    rw [List.take_of_length_le hlt.le, List.drop_of_length_le hlt.le]
    rfl
  · rw [List.length_take_of_le (by omega), List.append_nil]

theorem importLoop_map_ok (bs : List B) :
    ∀ batch index (st : σ),
      importLoop chain batch index st (bs.map .ok) = importBatches chain batch st (batches bs) := by
  induction bs using batches.induct with
  | case1 =>
    intro batch index st
    rw [importLoop]
    split
    · rename_i heq; cases heq
    · rename_i heq; cases heq
      rw [dif_pos List.length_nil, batches_nil, importBatches]
  | case2 b bs ih =>
    intro batch index st
    rw [importLoop]
    split <;> rename_i heq <;> rw [loadBatch_map_ok _ [] _ (Nat.zero_le _)] at heq <;> cases heq
    simp only [List.nil_append, List.length_nil, Nat.sub_zero, Nat.zero_add]
    rw [dif_neg (by simp [batchSize]), batches, importBatches]
    split
    · exact ih _ _ _
    · cases chain.insertChain st ((b :: bs).take batchSize) with
      | mk st' r => cases r <;> simp only [ih]

theorem importLoop_parseError (err : String) (rest : BlockStream B) (bs : List B) :
    ∀ batch index (st : σ),
      importLoop chain batch index st (bs.map .ok ++ .error err :: rest) =
        match importBatches chain batch st ((batches bs).filter (·.length == batchSize)) with
        | (st', .ok _) =>
          (st', .error ("block " ++ toString (index + bs.length) ++ ": failed to parse: " ++ err))
        | r => r := by
  induction bs using batches.induct with
  | case1 =>
    intro batch index st
    rw [importLoop]
    split <;> rename_i heq <;> simp only [List.map_nil, List.nil_append, loadBatch, List.length_nil,
      batchSize] at heq <;> cases heq
    simp [batches_nil, importBatches]
  | case2 b bs ih =>
    intro batch index st
    have hload := loadBatch_map_ok_append (b :: bs) (.error err :: rest) [] index (Nat.zero_le _)
    simp only [List.nil_append, List.length_nil, Nat.sub_zero] at hload
    by_cases hL : (b :: bs).length < batchSize
    · rw [if_pos hL, loadBatch, if_pos hL] at hload
      rw [importLoop]
      split <;> rename_i heq <;> rw [hload] at heq <;> cases heq
      rw [batches, List.take_of_length_le hL.le, List.drop_of_length_le hL.le, batches_nil,
        List.filter_cons_of_neg (by simpa only [beq_iff_eq] using hL.ne), List.filter_nil,
        importBatches]
    · rw [if_neg hL] at hload
      have harith : index + batchSize + ((b :: bs).drop batchSize).length =
          index + (b :: bs).length := by
        rw [List.length_drop]; omega
      rw [importLoop]
      split <;> rename_i heq <;> rw [hload] at heq <;> cases heq
      rw [dif_neg (by simp [batchSize]), batches,
        List.filter_cons_of_pos (by
          simpa only [beq_iff_eq] using List.length_take_of_le (Nat.le_of_not_lt hL)),
        importBatches]
      split
      · rw [ih, harith]
      · cases chain.insertChain st ((b :: bs).take batchSize) with
        | mk st' r => cases r <;> simp only [ih, harith]

/-- A block that fails to decode ends `ImportChain` with its index and the decode error, unless an
insertion failed first: the full runs before it are imported as `importBatches` does, and the
blocks decoded since the last full run are never inserted. -/
theorem importChain_parseError (st : σ) (bs : List B) (err : String) (rest : BlockStream B) :
    importChain chain st (bs.map .ok ++ .error err :: rest) =
      match importBatches chain 0 st ((batches bs).filter (·.length == batchSize)) with
      | (st', .ok _) =>
        (st', .error ("block " ++ toString bs.length ++ ": failed to parse: " ++ err))
      | r => r := by
  rw [importChain, importLoop_parseError, Nat.zero_add]

/-! ### Importing the same export twice -/

/-- What the skip of `hasAllBlocks` relies on: a successful `InsertChain` leaves the chain with
every block it was given and with every block it had. -/
structure BlockChain.Lawful : Prop where
  has_inserted : ∀ st bs st', chain.insertChain st bs = (st', none) →
    ∀ b ∈ bs, chain.hasBlock st' b = true
  has_kept : ∀ st bs st' b, chain.insertChain st bs = (st', none) →
    chain.hasBlock st b = true → chain.hasBlock st' b = true

variable {chain}

theorem importBatches_ok_hasBlock (hlaw : chain.Lawful) (bss : List (List B)) :
    ∀ batch (st st' : σ) res, importBatches chain batch st bss = (st', .ok res) →
      (∀ b, chain.hasBlock st b = true → chain.hasBlock st' b = true) ∧
        ∀ bs ∈ bss, ∀ b ∈ bs, chain.hasBlock st' b = true := by
  induction bss with
  | nil =>
    rintro batch st st' res ⟨⟩
    simp
  | cons bs rest ih =>
    intro batch st st' res h
    rw [importBatches] at h
    split_ifs at h with hall
    · obtain ⟨hkeep, hrest⟩ := ih _ _ _ _ h
      have hbs : ∀ b ∈ bs, chain.hasBlock st b = true := by
        simpa only [hasAllBlocks, List.all_eq_true] using hall
      exact ⟨hkeep, List.forall_mem_cons.mpr ⟨fun b hb => hkeep b (hbs b hb), hrest⟩⟩
    · rcases hins : chain.insertChain st bs with ⟨st₁, _ | err⟩ <;> rw [hins] at h
      · obtain ⟨hkeep, hrest⟩ := ih _ _ _ _ h
        exact ⟨fun b hb => hkeep b (hlaw.has_kept _ _ _ _ hins hb),
          List.forall_mem_cons.mpr ⟨fun b hb => hkeep b (hlaw.has_inserted _ _ _ hins b hb), hrest⟩⟩
      · cases h

theorem importBatches_of_hasBlock (bss : List (List B)) :
    ∀ batch (st : σ), (∀ bs ∈ bss, ∀ b ∈ bs, chain.hasBlock st b = true) →
      importBatches chain batch st bss = (st, .ok true) := by
  induction bss with
  | nil => intro batch st _; rw [importBatches]
  | cons bs rest ih =>
    intro batch st h
    rw [List.forall_mem_cons] at h
    rw [importBatches, if_pos (by simpa only [hasAllBlocks, List.all_eq_true] using h.1), ih _ _ h.2]

/-- After a successful import of an export, the chain has every block of it and every block it
had, and importing the same export again skips every batch: it succeeds and leaves the chain as
it was. -/
theorem importChain_reimport (hlaw : chain.Lawful) {st st' : σ} {bs : List B}
    (h : importChain chain st (bs.map .ok) = (st', .ok true)) :
    (∀ b, chain.hasBlock st b = true → chain.hasBlock st' b = true) ∧
      (∀ b ∈ bs, chain.hasBlock st' b = true) ∧
      importChain chain st' (bs.map .ok) = (st', .ok true) := by
  rw [importChain, importLoop_map_ok] at h ⊢
  obtain ⟨hkeep, hruns⟩ := importBatches_ok_hasBlock hlaw _ _ _ _ _ h
  have hall : ∀ b ∈ bs, chain.hasBlock st' b = true := fun b hb => by
    rw [← flatten_batches bs, List.mem_flatten] at hb
    obtain ⟨run, hrun, hb⟩ := hb
    exact hruns run hrun b hb
  exact ⟨hkeep, hall, importBatches_of_hasBlock _ _ _ hruns⟩

/-- A chain that keeps the blocks it is given, in the order given. -/
def appendChain : BlockChain (List Nat) Nat where
  hasBlock st b := decide (b ∈ st)
  insertChain st bs := (st ++ bs, none)

theorem importChain_reimport_appendChain :
    appendChain.Lawful ∧ importChain appendChain [] ([1, 2].map .ok) = ([1, 2], .ok true) ∧
      (∀ b, appendChain.hasBlock [] b = true → appendChain.hasBlock [1, 2] b = true) ∧
      (∀ b ∈ [1, 2], appendChain.hasBlock [1, 2] b = true) ∧
      importChain appendChain [1, 2] ([1, 2].map .ok) = ([1, 2], .ok true) := by
  have hlaw : appendChain.Lawful :=
    ⟨fun st bs st' h b hb => by cases h; simp [appendChain, hb],
      fun st bs st' b h hb => by cases h; simp_all [appendChain]⟩
  have h : importChain appendChain [] ([1, 2].map .ok) = ([1, 2], .ok true) := by
    rw [importChain, importLoop_map_ok, batches_of_ne_nil (List.cons_ne_nil _ _)]
    simp [batchSize, batches_nil, importBatches, hasAllBlocks, appendChain]
  exact ⟨hlaw, h, importChain_reimport hlaw h⟩

end GoBtpereum.Btp
