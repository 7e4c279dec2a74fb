import Mathlib.Data.List.AList
import Mathlib.Data.List.Perm.Subperm
import Mathlib.Data.Nat.Find
import Mathlib.Data.Nat.Digits

/-!
# Disambiguated names

`UnmarshalJSON` stores a method (an event) under its declared name, and when that key is taken it
probes `name0`, `name1`, ... until a free key turns up (`for idx := 0; ok; idx++`). The loop has no
bound of its own. Here the candidates are `candidate name 0 = name` and
`candidate name (i + 1) = name ++ toString i`, and `probe` runs the loop with an explicit number of
lookups.

The candidates are pairwise distinct (`candidate_injective`): `toString` on `Nat` is injective,
since reading its digits back gives the number (`repr_foldl`), and a suffix of digits is never
empty. So the first `|m| + 1` candidates cannot all be keys of a map with `|m|` keys
(`exists_candidate_not_mem`, a pigeonhole on a duplicate-free list), and `probe` with `|m| + 1`
lookups always returns a free name (`probe_isSome`). `freshName` is that name.
-/

namespace GoBtpereum.Abi

/-! ### Decimal suffixes -/

/-- One step of reading decimal digits back into a number. -/
def digitStep (acc : Nat) (c : Char) : Nat := acc * 10 + (c.toNat - 48)

theorem digitChar_toNat : ∀ n < 10, (Nat.digitChar n).toNat - 48 = n := by decide

theorem digitStep_digitChar (acc n : Nat) :
    digitStep acc (Nat.digitChar (n % 10)) = acc * 10 + n % 10 := by
  rw [digitStep, digitChar_toNat _ (Nat.mod_lt _ (by decide))]

theorem toDigitsCore_foldl (fuel n : Nat) (ds : List Char) (h : n < fuel) :
    (Nat.toDigitsCore 10 fuel n ds).foldl digitStep 0 = ds.foldl digitStep n := by
  induction fuel generalizing n ds with
  | zero => omega
  | succ fuel ih =>
    simp only [Nat.toDigitsCore]
    split
    · rw [List.foldl_cons, digitStep_digitChar]; congr 1; omega
    · rw [ih _ _ (by omega), List.foldl_cons, digitStep_digitChar]; congr 1; omega

theorem repr_foldl (n : Nat) : (toString n).data.foldl digitStep 0 = n := by
  show (Nat.toDigits 10 n).foldl digitStep 0 = n
  rw [Nat.toDigits, toDigitsCore_foldl _ _ _ (Nat.lt_succ_self n)]
  rfl

theorem toString_injective : Function.Injective (toString : Nat → String) := fun i j h => by
  rw [← repr_foldl i, ← repr_foldl j, h]

theorem toDigitsCore_ne_nil (fuel n : Nat) (ds : List Char) :
    Nat.toDigitsCore 10 (fuel + 1) n ds ≠ [] := by
  induction fuel generalizing n ds with
  | zero => simp only [Nat.toDigitsCore]; split <;> simp [Nat.toDigitsCore]
  | succ fuel ih =>
    simp only [Nat.toDigitsCore]
    split
    · simp
    · exact ih _ _

theorem toString_data_ne_nil (n : Nat) : (toString n).data ≠ [] :=
  toDigitsCore_ne_nil n n []

/-! ### Candidates -/

/-- The keys the probing loop tries in turn: the declared name, then
`fmt.Sprintf("%s%d", name, idx)` for `idx = 0, 1, ...`. -/
def candidate (name : String) : Nat → String
  | 0 => name
  | idx + 1 => name ++ toString idx

/-- `key` is one of the keys the loop can give an entry declared as `name`. -/
def IsProbedName (name key : String) : Prop := ∃ i, candidate name i = key

theorem candidate_injective (name : String) : Function.Injective (candidate name) := by
  have suffix (i : Nat) : name ≠ name ++ toString i := fun h => toString_data_ne_nil i <| by
    simpa using congrArg String.data h
  intro i j h
  cases i <;> cases j <;> simp only [candidate] at h
  · rfl
  · exact absurd h (suffix _)
  · exact absurd h.symm (suffix _)
  · have := congrArg String.data h
    simp only [String.data_append, List.append_cancel_left_eq] at this
    rw [toString_injective (String.ext this)]

/-- A map keyed by strings (`map[string]T`). -/
abbrev NameMap (β : Type) := AList (fun _ : String => β)

variable {β : Type}

theorem exists_candidate_not_mem (m : NameMap β) (name : String) :
    ∃ k ≤ m.keys.length, candidate name k ∉ m := by
  by_contra! h
  have hsub : (List.range (m.keys.length + 1)).map (candidate name) ⊆ m.keys := by
    intro key hkey
    obtain ⟨k, hk, rfl⟩ := List.mem_map.mp hkey
    exact AList.mem_keys.mp (h k (Nat.lt_succ_iff.mp (List.mem_range.mp hk)))
  have hnodup := (List.nodup_range (m.keys.length + 1)).map (candidate_injective name)
  have := (hnodup.subperm hsub).length_le
  simp only [List.length_map, List.length_range] at this
  omega

/-! ### The probing loop -/

/-- The probing loop at candidate `i` with `fuel` lookups left: the first candidate from `i` on
that is not a key of `m`, or `none` when the lookups run out. -/
def probe (m : NameMap β) (name : String) : Nat → Nat → Option String
  | 0, _ => none
  | fuel + 1, i => if candidate name i ∈ m then probe m name fuel (i + 1) else some (candidate name i)

theorem probe_eq_of_free (m : NameMap β) (name : String) {k : Nat}
    (htaken : ∀ j < k, candidate name j ∈ m) (hfree : candidate name k ∉ m) :
    ∀ fuel i, i ≤ k → k - i < fuel → probe m name fuel i = some (candidate name k) := by
  intro fuel
  induction fuel with
  | zero => intro i _ h; omega
  | succ fuel ih =>
    intro i hi hfuel
    rcases Nat.lt_or_ge i k with hik | hik
    · rw [probe, if_pos (htaken i hik)]
      exact ih (i + 1) hik (by omega)
    · obtain rfl : i = k := by omega
      rw [probe, if_neg hfree]

theorem exists_least_free (m : NameMap β) (name : String) :
    ∃ k ≤ m.keys.length, (∀ j < k, candidate name j ∈ m) ∧ candidate name k ∉ m := by
  classical
  have hex := exists_candidate_not_mem m name
  have hfind : ∃ k, candidate name k ∉ m := ⟨_, hex.choose_spec.2⟩
  refine ⟨Nat.find hfind, (Nat.find_min' hfind hex.choose_spec.2).trans hex.choose_spec.1,
    fun j hj => ?_, Nat.find_spec hfind⟩
  by_contra hmem
  exact Nat.find_min hfind hj hmem

theorem probe_isSome (m : NameMap β) (name : String) :
    (probe m name (m.keys.length + 1) 0).isSome := by
  obtain ⟨k, hk, htaken, hfree⟩ := exists_least_free m name
  rw [probe_eq_of_free m name htaken hfree _ 0 (Nat.zero_le k) (by omega)]
  rfl

/-- The key the probing loop settles on. -/
def freshName (m : NameMap β) (name : String) : String :=
  (probe m name (m.keys.length + 1) 0).get (probe_isSome m name)

theorem freshName_eq (m : NameMap β) (name : String) {k : Nat}
    (htaken : ∀ j < k, candidate name j ∈ m) (hfree : candidate name k ∉ m) :
    freshName m name = candidate name k := by
  obtain ⟨k', hk', htaken', hfree'⟩ := exists_least_free m name
  have hkk : k = k' := by
    by_contra hne
    rcases Nat.lt_or_gt_of_ne hne with h | h
    · exact hfree (htaken' k h)
    · exact hfree' (htaken k' h)
  subst hkk
  simp only [freshName, probe_eq_of_free m name htaken hfree (m.keys.length + 1) 0 (Nat.zero_le k)
    (by omega), Option.get_some]

theorem freshName_not_mem (m : NameMap β) (name : String) : freshName m name ∉ m := by
  obtain ⟨k, -, htaken, hfree⟩ := exists_least_free m name
  rwa [freshName_eq m name htaken hfree]

theorem isProbedName_freshName (m : NameMap β) (name : String) :
    IsProbedName name (freshName m name) := by
  obtain ⟨k, -, htaken, hfree⟩ := exists_least_free m name
  exact ⟨k, (freshName_eq m name htaken hfree).symm⟩

/-- The probing loop stops after at most `|m| + 1` lookups: it finds the candidates `0, ..., k - 1`
taken and candidate `k` free for some `k ≤ |m|`, and with `k + 1` lookups it returns that free
candidate, which is the name `UnmarshalJSON` stores under. -/
theorem probe_terminates (m : NameMap β) (name : String) :
    ∃ k ≤ m.keys.length, (∀ j < k, candidate name j ∈ m) ∧ candidate name k ∉ m ∧
      probe m name (k + 1) 0 = some (candidate name k) ∧ freshName m name = candidate name k := by
  obtain ⟨k, hk, htaken, hfree⟩ := exists_least_free m name
  exact ⟨k, hk, htaken, hfree, probe_eq_of_free m name htaken hfree _ 0 (Nat.zero_le k) (by omega),
    freshName_eq m name htaken hfree⟩

end GoBtpereum.Abi
