import Mathlib.Data.List.AList
import Mathlib.Data.List.Sort

/-!
# Paging through a contract's storage

`storageRangeAt` (`btp/api.go`, behind `debug_storageRangeAt`) walks the storage trie from
`keyStart` with a trie iterator, decodes at most `maxResult` values and reports the key after them
as `NextKey`. The trie is modelled as the list of its entries in ascending key order
(`StorageTrie`), and the iterator from `start` as the entries whose key is at least `start`
(`StorageTrie.iterate`). `rlp.Split` followed by `BytesToHash` is the parameter `split`, and the
preimage lookup `GetKey` the parameter `getKey`.

The loop `for i := 0; i < maxResult && it.Next(); i++` decodes exactly the first
`maxResult` entries the iterator yields (`storageLoop_eq`): its guard tests the counter first, so
no entry is consumed once the page is full, and an exhausted iterator stays exhausted. The extra
`it.Next()` after the loop therefore yields the entry right after the page. With the values
of the page well formed, one call returns the first `min(maxResult, m)` entries and the key after
them (`storageRangeAt_page`).

Restarting at `NextKey` restarts at that entry (`iterate_nextKey`: in a sorted trie the entries from
the `n`-th visited key on are the visited ones after dropping `n`), so a client that pages until
`NextKey` is nil sees consecutive chunks of the visited entries, each request consuming at least
one entry (`storagePages_partition`).
-/

namespace GoBtpereum.Btp

/-- A storage trie as its iterator sees it: the entries, keys strictly ascending. -/
structure StorageTrie (K V : Type) [LinearOrder K] where
  entries : List (K × V)
  sorted : entries.Pairwise (fun a b => a.1 < b.1)

/-- `storageEntry`: the key's preimage, if known, and the value. -/
structure StorageEntry (P W : Type) where
  key : Option P
  value : W

/-- `StorageRangeResult`: the storage map and the key to continue from. -/
structure StorageRangeResult (K P W : Type) where
  storage : AList (fun _ : K => StorageEntry P W)
  nextKey : Option K

variable {K V P W : Type} [LinearOrder K]

/-- `trie.NewIterator(st.NodeIterator(start))`: the entries from `start` on, in key order. -/
def StorageTrie.iterate (st : StorageTrie K V) (start : K) : List (K × V) :=
  st.entries.filter fun e => start ≤ e.1

variable (split : V → Except String W) (getKey : K → Option P)

/-- The loop of `storageRangeAt` at counter `i` over the entries `it` the iterator has left:
the storage built so far and the entries left after it. -/
def storageLoop (maxResult : Int) (i : Int) :
    List (K × V) → AList (fun _ : K => StorageEntry P W) →
      Except String (AList (fun _ : K => StorageEntry P W) × List (K × V))
  | it, storage =>
    if i < maxResult then
      match it with
      | [] => .ok (storage, [])
      | (k, v) :: rest =>
        match split v with
        | .error e => .error e
        | .ok value => storageLoop maxResult (i + 1) rest (storage.insert k ⟨getKey k, value⟩)
    else .ok (storage, it)

/-- `storageRangeAt`. -/
def storageRangeAt (st : StorageTrie K V) (start : K) (maxResult : Int) :
    Except String (StorageRangeResult K P W) :=
  match storageLoop split getKey maxResult 0 (st.iterate start) ∅ with
  | .error e => .error e
  | .ok (storage, it) => .ok ⟨storage, it.head?.map Prod.fst⟩

/-! ### One request -/

/-- Decoding a run of entries into the storage map, stopping at the first malformed value. -/
def decodePage (storage : AList (fun _ : K => StorageEntry P W)) :
    List (K × V) → Except String (AList (fun _ : K => StorageEntry P W))
  | [] => .ok storage
  | (k, v) :: rest =>
    match split v with
    | .error e => .error e
    | .ok value => decodePage (storage.insert k ⟨getKey k, value⟩) rest

theorem storageLoop_eq (maxResult : Int) :
    ∀ (it : List (K × V)) (i : Int) (storage : AList (fun _ : K => StorageEntry P W)),
      storageLoop split getKey maxResult i it storage =
        (decodePage split getKey storage (it.take (maxResult - i).toNat)).map
          fun s => (s, it.drop (maxResult - i).toNat)
  | [], i, storage => by
    unfold storageLoop
    split <;> simp [decodePage, Except.map]
  | (k, v) :: rest, i, storage => by
    rw [storageLoop]
    by_cases hi : i < maxResult
    · have hn : (maxResult - i).toNat = (maxResult - (i + 1)).toNat + 1 := by omega
      rw [if_pos hi, hn, List.take_succ_cons, List.drop_succ_cons, decodePage]
      cases split v with
      | error e => rfl
      | ok value => exact storageLoop_eq maxResult rest (i + 1) _
    · have hn : (maxResult - i).toNat = 0 := by omega
      simp [hi, hn, decodePage, Except.map]

/-- The storage map holds exactly the keys of the entries `c`, each with its decoded value. -/
def PageOf (storage : AList (fun _ : K => StorageEntry P W)) (c : List (K × V)) : Prop :=
  (∀ k, k ∈ storage ↔ k ∈ c.map Prod.fst) ∧
    ∀ k v, (k, v) ∈ c → ∃ w, split v = .ok w ∧ storage.lookup k = some ⟨getKey k, w⟩

theorem decodePage_ok (c : List (K × V)) (hnodup : (c.map Prod.fst).Nodup)
    (hwf : ∀ e ∈ c, ∃ w, split e.2 = .ok w) :
    ∀ storage, ∃ s, decodePage split getKey storage c = .ok s ∧
      (∀ k, k ∈ s ↔ k ∈ storage ∨ k ∈ c.map Prod.fst) ∧
      (∀ k, k ∉ c.map Prod.fst → s.lookup k = storage.lookup k) ∧
      ∀ k v, (k, v) ∈ c → ∃ w, split v = .ok w ∧ s.lookup k = some ⟨getKey k, w⟩ := by
  induction c with
  | nil => intro storage; exact ⟨storage, rfl, by simp, fun _ _ => rfl, by simp⟩
  | cons e c ih =>
    intro storage
    obtain ⟨k₀, v₀⟩ := e
    rw [List.map_cons, List.nodup_cons] at hnodup
    obtain ⟨w₀, hw₀⟩ := hwf (k₀, v₀) (.head _)
    obtain ⟨s, hs, hmem, hframe, hlookup⟩ := ih hnodup.2 (fun e he => hwf e (.tail _ he))
      (storage.insert k₀ ⟨getKey k₀, w₀⟩)
    refine ⟨s, by rw [decodePage, hw₀]; exact hs, fun k => ?_, fun k hk => ?_, fun k v hkv => ?_⟩
    · rw [hmem, AList.mem_insert, List.map_cons, List.mem_cons, or_assoc]
      exact or_left_comm
    · rw [List.map_cons, List.mem_cons, not_or] at hk
      rw [hframe k hk.2, AList.lookup_insert_ne hk.1]
    · rcases List.mem_cons.mp hkv with h | h
      · cases h
        exact ⟨w₀, hw₀, by rw [hframe k₀ hnodup.1, AList.lookup_insert]⟩
      · exact hlookup k v h

theorem nodup_keys_iterate (st : StorageTrie K V) (start : K) :
    ((st.iterate start).map Prod.fst).Nodup := by
  have : ((st.iterate start).map Prod.fst).Pairwise (· < ·) :=
    List.pairwise_map.mpr (st.sorted.sublist (List.filter_sublist _))
  exact this.nodup

theorem storageRangeAt_page (st : StorageTrie K V) (start : K) (maxResult : Int)
    (hwf : ∀ e ∈ (st.iterate start).take maxResult.toNat, ∃ w, split e.2 = .ok w) :
    ∃ r, storageRangeAt split getKey st start maxResult = .ok r ∧
      PageOf split getKey r.storage ((st.iterate start).take maxResult.toNat) ∧
      r.nextKey = (((st.iterate start).drop maxResult.toNat).head?).map Prod.fst := by
  have hnodup := (nodup_keys_iterate st start).sublist
    ((List.take_sublist maxResult.toNat _).map Prod.fst)
  obtain ⟨s, hs, hmem, -, hlookup⟩ := decodePage_ok split getKey _ hnodup hwf ∅
  refine ⟨⟨s, _⟩, ?_, ⟨fun k => by simpa using hmem k, hlookup⟩, rfl⟩
  rw [storageRangeAt, storageLoop_eq, Int.sub_zero, hs]
  rfl

/-! ### Paging -/

theorem filter_ge_getElem (l : List (K × V)) (hl : l.Pairwise (fun a b => a.1 < b.1)) :
    ∀ (n : Nat) (hn : n < l.length), l.filter (fun e => l[n].1 ≤ e.1) = l.drop n := by
  induction l with
  | nil => intro n hn; simp at hn
  | cons e l ih =>
    intro n hn
    rw [List.pairwise_cons] at hl
    cases n with
    | zero =>
      simp only [List.getElem_cons_zero, List.drop_zero, List.filter_cons, le_refl, decide_True,
        ite_true, List.cons.injEq, true_and]
      exact List.filter_eq_self.mpr fun e' he' => decide_eq_true (le_of_lt (hl.1 e' he'))
    | succ n =>
      have hn' : n < l.length := by simpa using hn
      have hlt : e.1 < l[n].1 := hl.1 _ (List.getElem_mem hn')
      simp only [List.getElem_cons_succ, List.drop_succ_cons, List.filter_cons, not_le.mpr hlt,
        decide_False, Bool.false_eq_true, ite_false]
      exact ih hl.2 n hn'

theorem iterate_nextKey (st : StorageTrie K V) (start : K) (n : Nat)
    (hn : n < (st.iterate start).length) :
    st.iterate ((st.iterate start)[n]).1 = (st.iterate start).drop n := by
  have hstart : start ≤ ((st.iterate start)[n]).1 := by
    have := List.mem_filter.mp (List.getElem_mem hn)
    simpa using this.2
  rw [← filter_ge_getElem (st.iterate start) (st.sorted.sublist (List.filter_sublist _)) n hn]
  set k := ((st.iterate start)[n]).1
  rw [StorageTrie.iterate, StorageTrie.iterate, List.filter_filter]
  refine List.filter_congr fun e _ => ?_
  by_cases h : k ≤ e.1
  · simp [h, le_trans hstart h]
  · simp [h]

/-- A client paging through the storage from `start`: request after request, the next one from
the previous `NextKey`, until `NextKey` is nil; `fuel` bounds the number of requests. -/
def storagePages (st : StorageTrie K V) (maxResult : Int) :
    Nat → K → Option (List (StorageRangeResult K P W))
  | 0, _ => none
  | fuel + 1, start =>
    match storageRangeAt split getKey st start maxResult with
    | .error _ => none
    | .ok r =>
      match r.nextKey with
      | none => some [r]
      | some k => (storagePages st maxResult fuel k).map (r :: ·)

theorem storagePages_chunks (st : StorageTrie K V) (maxResult : Int) (hmax : 1 ≤ maxResult) :
    ∀ (fuel : Nat) (start : K), (st.iterate start).length < fuel →
      (∀ e ∈ st.iterate start, ∃ w, split e.2 = .ok w) →
      ∃ pages chunks, storagePages split getKey st maxResult fuel start = some pages ∧
        chunks.flatten = st.iterate start ∧
        List.Forall₂ (fun (r : StorageRangeResult K P W) c => PageOf split getKey r.storage c)
          pages chunks
  | 0, _, hfuel, _ => absurd hfuel (Nat.not_lt_zero _)
  | fuel + 1, start, hfuel, hwf => by
    obtain ⟨r, hr, hpage, hnext⟩ := storageRangeAt_page split getKey st start maxResult
      fun e he => hwf e (List.mem_of_mem_take he)
    rw [storagePages, hr]
    simp only
    cases hk : r.nextKey with
    | none =>
      rw [hk, eq_comm, Option.map_eq_none', List.head?_eq_none_iff, List.drop_eq_nil_iff] at hnext
      exact ⟨[r], [(st.iterate start).take maxResult.toNat], rfl, by simp [List.take_of_length_le hnext],
        .cons hpage .nil⟩
    | some k =>
      rw [hk] at hnext
      have hlt : maxResult.toNat < (st.iterate start).length := by
        by_contra hle
        rw [List.drop_eq_nil_of_le (Nat.le_of_not_lt hle)] at hnext
        cases hnext
      obtain ⟨rest, hrest⟩ : ∃ rest, (st.iterate start).drop maxResult.toNat =
          (st.iterate start)[maxResult.toNat] :: rest :=
        ⟨_, List.drop_eq_getElem_cons hlt⟩
      rw [hrest] at hnext
      cases hnext
      have hiter := iterate_nextKey st start _ hlt
      obtain ⟨pages, chunks, hpages, hjoin, hall⟩ := storagePages_chunks st maxResult hmax fuel _
        (by rw [hiter, List.length_drop]; omega)
        (fun e he => hwf e (List.mem_of_mem_drop (hiter ▸ he)))
      refine ⟨r :: pages, (st.iterate start).take maxResult.toNat :: chunks, by simp [hpages],
        ?_, .cons hpage hall⟩
      rw [List.flatten_cons, hjoin, hiter, List.take_append_drop]

/-- With every visited value well formed, one request returns the first `min(maxResult, m)`
visited entries (none for `maxResult ≤ 0`) and the key of the entry after them; and with
`maxResult ≥ 1`, paging from `keyStart` with `keyStart := NextKey` until `NextKey` is nil stops
within `m + 1` requests (`m` visited entries), and the pages hold consecutive runs of the
visited entries that together are all of them, in order: none is skipped or repeated. -/
theorem storagePages_partition (st : StorageTrie K V) (start : K) (maxResult : Int)
    (hwf : ∀ e ∈ st.iterate start, ∃ w, split e.2 = .ok w) :
    (∃ r, storageRangeAt split getKey st start maxResult = .ok r ∧
      PageOf split getKey r.storage ((st.iterate start).take maxResult.toNat) ∧
      r.nextKey = (((st.iterate start).drop maxResult.toNat).head?).map Prod.fst) ∧
    (1 ≤ maxResult → ∃ pages chunks,
      storagePages split getKey st maxResult ((st.iterate start).length + 1) start = some pages ∧
      chunks.flatten = st.iterate start ∧
      List.Forall₂ (fun (r : StorageRangeResult K P W) c => PageOf split getKey r.storage c)
        pages chunks) :=
  ⟨storageRangeAt_page split getKey st start maxResult fun e he => hwf e (List.mem_of_mem_take he),
    fun hmax => storagePages_chunks split getKey st maxResult hmax _ start (Nat.lt_succ_self _) hwf⟩

theorem storagePages_partition_three_slots :
    let st : StorageTrie Nat Nat := ⟨[(1, 10), (2, 20), (3, 30)], by decide⟩
    let split : Nat → Except String Nat := .ok
    let getKey : Nat → Option Nat := fun _ => none
    (∀ e ∈ st.iterate 0, ∃ w, split e.2 = .ok w) ∧
    (∃ r, storageRangeAt split getKey st 0 2 = .ok r ∧
      PageOf split getKey r.storage ((st.iterate 0).take (2 : Int).toNat) ∧
      r.nextKey = (((st.iterate 0).drop (2 : Int).toNat).head?).map Prod.fst) ∧
    (1 ≤ (2 : Int) → ∃ pages chunks,
      storagePages split getKey st 2 ((st.iterate 0).length + 1) 0 = some pages ∧
      chunks.flatten = st.iterate 0 ∧
      List.Forall₂ (fun (r : StorageRangeResult Nat Nat Nat) c => PageOf split getKey r.storage c)
        pages chunks) := by
  intro st split getKey
  have hwf : ∀ e ∈ st.iterate 0, ∃ w, split e.2 = .ok w := fun e _ => ⟨e.2, rfl⟩
  exact ⟨hwf, storagePages_partition split getKey st 0 2 hwf⟩

end GoBtpereum.Btp
