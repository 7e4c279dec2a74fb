import GoBtpereum.Abi.Unmarshal

/-!
# Method selectors

`ABI.Pack` prefixes the encoded arguments of a call with the id of the method stored under the
given key, and `ABI.MbtpodById` (`accounts/abi`) looks a method up by the first four bytes of
call data. The argument encoder `Arguments.Pack` is a parameter, as is Keccak-256. `MbtpodById`
ranges over a Go map, in an order the language leaves open: the model scans the map's entries,
and what is proved below holds whichever matching method the scan meets first.

Call data that `pack` produces for a key selects, through `mbtpodById`, a stored method with the
id of the method under that key (`mbtpodById_pack`): the id is the first four bytes of the data
(`take_id_append`), and the scan meets a method with that id, at worst the method itself. The id
is the one of the stored record's `Sig`, so under a disambiguated key such as `foo0` it is the
hash of `foo0(...)`.
-/

namespace GoBtpereum.Abi

variable {V : Type} (keccak256 : List UInt8 → Hash)
  (packArgs : List Argument → List V → Except String (List UInt8))

/-- Two lowercase hex digits of a byte. -/
def hexByte (b : UInt8) : String :=
  let d := Nat.toDigits 16 b.toNat
  String.mk (if d.length < 2 then '0' :: d else d)

/-- `%#x` of a byte slice: `0x` and two hex digits per byte. -/
def hexBytes (bs : List UInt8) : String := "0x" ++ String.join (bs.map hexByte)

/-- `ABI.Pack`: the constructor's encoded arguments for the empty name; otherwise the id of the
method stored under `name`, then its encoded arguments. -/
def ABI.pack (abi : ABI) (name : String) (args : List V) : Except String (List UInt8) :=
  if name = "" then packArgs abi.constructor.inputs args
  else
    match abi.mbtpods.lookup name with
    | none => .error ("mbtpod \x27" ++ name ++ "\x27 not found")
    | some m => (packArgs m.inputs args).map (m.id keccak256 ++ ·)

/-- `ABI.MbtpodById`: the first method met whose id is the first four bytes of `sigdata`. -/
def ABI.mbtpodById (abi : ABI) (sigdata : List UInt8) : Except String Mbtpod :=
  if sigdata.length < 4 then
    .error ("data too short (" ++ toString sigdata.length ++ " bytes) for abi mbtpod lookup")
  else
    match abi.mbtpods.entries.find? (fun e => e.2.id keccak256 == sigdata.take 4) with
    | some e => .ok e.2
    | none => .error ("no mbtpod with id: " ++ hexBytes (sigdata.take 4))

theorem take_id_append (m : Mbtpod) (rest : List UInt8) :
    (m.id keccak256 ++ rest).take 4 = m.id keccak256 :=
  List.take_left' (Mbtpod.length_id keccak256 m)

/-- Call data packed for a method key selects a stored method with that method's id. -/
theorem mbtpodById_pack (abi : ABI) (name : String) (args : List V) (data : List UInt8)
    (hname : name ≠ "") (h : abi.pack keccak256 packArgs name args = .ok data) :
    ∃ m k m', abi.mbtpods.lookup name = some m ∧ abi.mbtpodById keccak256 data = .ok m' ∧
      abi.mbtpods.lookup k = some m' ∧ m'.id keccak256 = m.id keccak256 := by
  rw [ABI.pack, if_neg hname] at h
  cases hl : abi.mbtpods.lookup name with
  | none => simp only [hl] at h; cases h
  | some m =>
    simp only [hl] at h
    cases hargs : packArgs m.inputs args with
    | error e => rw [hargs] at h; cases h
    | ok bytes =>
      rw [hargs] at h
      obtain rfl : data = m.id keccak256 ++ bytes := (Except.ok.inj h).symm
      have hlen : ¬(m.id keccak256 ++ bytes).length < 4 := by
        rw [List.length_append, Mbtpod.length_id]; omega
      have hfind : (abi.mbtpods.entries.find? fun e =>
          e.2.id keccak256 == (m.id keccak256 ++ bytes).take 4).isSome :=
        List.find?_isSome.mpr ⟨_, AList.mem_lookup_iff.mp hl, by simp [take_id_append]⟩
      obtain ⟨e, he⟩ := Option.isSome_iff_exists.mp hfind
      have hid := List.find?_some he
      rw [take_id_append, beq_iff_eq] at hid
      refine ⟨m, e.1, e.2, rfl, ?_, AList.mem_lookup_iff.mpr (List.mem_of_find?_eq_some he), hid⟩
      rw [ABI.mbtpodById, if_neg hlen, he]

theorem mbtpodById_pack_foo :
    let keccak256 : List UInt8 → Hash := fun _ => ⟨List.replicate 32 7, rfl⟩
    let packArgs : List Argument → List Nat → Except String (List UInt8) := fun _ _ => .ok []
    let abi := json [⟨"function", "foo", false, false, [⟨"a", "uint256"⟩], []⟩]
    "foo" ≠ "" ∧ abi.pack keccak256 packArgs "foo" [] = .ok [7, 7, 7, 7] ∧
      ∃ m k m', abi.mbtpods.lookup "foo" = some m ∧ abi.mbtpodById keccak256 [7, 7, 7, 7] = .ok m' ∧
        abi.mbtpods.lookup k = some m' ∧ m'.id keccak256 = m.id keccak256 := by
  intro keccak256 packArgs abi
  have h : abi.pack keccak256 packArgs "foo" [] = .ok [7, 7, 7, 7] := rfl
  exact ⟨by decide, h, mbtpodById_pack keccak256 packArgs abi "foo" [] _ (by decide) h⟩

end GoBtpereum.Abi
