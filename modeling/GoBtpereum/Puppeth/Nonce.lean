import Mathlib.Data.List.Range
import Mathlib.Tactic.Ring

/-!
# The 8-byte nonce codecs

The genesis converters of `puppeth` write the 64-bit genesis nonce with
`binary.LittleEndian.PutUint64` (`putUint64LE`), while a block header keeps its nonce as a
`BlockNonce` whose bytes are the number in big-endian order (`encodeNonce`, read back by
`BlockNonce.uint64`).

Both codecs round-trip (`uint64LE_putUint64LE`, `putUint64LE_uint64LE`,
`uint64BE_encodeNonce`): once the bytes are written as explicit digits, each direction is a
linear fact about eight base-256 digits that `omega` settles. A big-endian read is a
little-endian read of the reversed bytes (`uint64BE_eq_uint64LE_reverse`), so the header reads
the little-endian bytes as the byte-reversed number, and gets the nonce back exactly when the
nonce's bytes are a palindrome (`uint64BE_putUint64LE_eq_iff`).
-/

namespace GoBtpereum.Puppeth

@[simp] theorem toNat_toUInt8 (n : Nat) : n.toUInt8.toNat = n % 256 := by
  simp [Nat.toUInt8, UInt8.ofNat, UInt8.toNat]

@[simp] theorem toNat_toUInt64 (n : Nat) : n.toUInt64.toNat = n % 2 ^ 64 := by
  simp [Nat.toUInt64, UInt64.ofNat, UInt64.toNat]

theorem uint8_toNat_lt (b : UInt8) : b.toNat < 256 := b.toBitVec.isLt

theorem uint64_toNat_lt (v : UInt64) : v.toNat < 2 ^ 64 := v.toBitVec.isLt

/-- `binary.LittleEndian.PutUint64`: byte `i` is `byte(v >> (8 * i))`. -/
def putUint64LE (v : UInt64) : List UInt8 :=
  (List.range 8).map fun i => (v.toNat >>> (8 * i)).toUInt8

/-- `binary.LittleEndian.Uint64`: the first byte is the least significant. -/
def uint64LE (b : List UInt8) : UInt64 :=
  (b.foldr (fun (x : UInt8) (acc : Nat) => x.toNat + 256 * acc) 0).toUInt64

/-- `binary.BigEndian.Uint64`: the first byte is the most significant. -/
def uint64BE (b : List UInt8) : UInt64 :=
  (b.foldl (fun (acc : Nat) (x : UInt8) => acc * 256 + x.toNat) 0).toUInt64

/-- Modelled from the spec: `types.EncodeNonce`, the header's 8-byte nonce, big-endian
(`binary.BigEndian.PutUint64`: byte `i` is `byte(v >> (56 - 8 * i))`). -/
def encodeNonce (v : UInt64) : List UInt8 :=
  (List.range 8).map fun i => (v.toNat >>> (56 - 8 * i)).toUInt8

/-- Modelled from the spec: `BlockNonce.Uint64`, the header nonce read big-endian. -/
def BlockNonce.uint64 (n : List UInt8) : UInt64 := uint64BE n

theorem length_putUint64LE (v : UInt64) : (putUint64LE v).length = 8 := by
  simp [putUint64LE]

theorem uint64LE_putUint64LE (v : UInt64) : uint64LE (putUint64LE v) = v := by
  apply UInt64.toNat.inj
  have := uint64_toNat_lt v
  simp [uint64LE, putUint64LE, List.range_succ, Nat.shiftRight_eq_div_pow]
  omega

theorem putUint64LE_uint64LE (b : List UInt8) (h : b.length = 8) : putUint64LE (uint64LE b) = b := by
  match b, h with
  | [b0, b1, b2, b3, b4, b5, b6, b7], _ =>
    have := uint8_toNat_lt b0; have := uint8_toNat_lt b1; have := uint8_toNat_lt b2
    have := uint8_toNat_lt b3; have := uint8_toNat_lt b4; have := uint8_toNat_lt b5
    have := uint8_toNat_lt b6; have := uint8_toNat_lt b7
    apply List.map_injective_iff.mpr (fun _ _ h => UInt8.toNat.inj h)
    simp [uint64LE, putUint64LE, List.range_succ, Nat.shiftRight_eq_div_pow]
    omega

theorem encodeNonce_eq_reverse (v : UInt64) : encodeNonce v = (putUint64LE v).reverse := by
  simp [encodeNonce, putUint64LE, List.range_succ]

theorem uint64BE_eq_uint64LE_reverse (b : List UInt8) : uint64BE b = uint64LE b.reverse := by
  simp only [uint64BE, uint64LE, List.foldr_reverse]
  congr 2
  funext acc x
  ring

theorem uint64BE_encodeNonce (v : UInt64) : uint64BE (encodeNonce v) = v := by
  rw [uint64BE_eq_uint64LE_reverse, encodeNonce_eq_reverse, List.reverse_reverse,
    uint64LE_putUint64LE]

theorem uint64BE_putUint64LE_eq_iff (v : UInt64) :
    BlockNonce.uint64 (putUint64LE v) = v ↔ (encodeNonce v).reverse = encodeNonce v := by
  rw [BlockNonce.uint64, uint64BE_eq_uint64LE_reverse, encodeNonce_eq_reverse,
    List.reverse_reverse]
  constructor
  · intro h
    conv_rhs => rw [← h]
    rw [putUint64LE_uint64LE _ (by rw [List.length_reverse, length_putUint64LE]),
      List.reverse_reverse]
  · intro h
    rw [← h, uint64LE_putUint64LE]

end GoBtpereum.Puppeth
