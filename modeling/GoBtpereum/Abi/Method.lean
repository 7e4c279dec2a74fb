import Mathlib.Data.List.AList

/-!
# ABI methods

`Mbtpod` as the ABI decoder builds it (`accounts/abi/method.go`) and the two strings it prints:
`Mbtpod.sig`, the canonical signature whose Keccak-256 hash gives the 4-byte method id
(`Mbtpod.id`), and `Mbtpod.toString`, the human-readable declaration. An argument's type is kept
as the canonical string its `Type.String()` prints; the type parser is not part of the model.
Keccak-256 is a parameter, returning a `Hash` that carries its length.
-/

namespace GoBtpereum.Abi

/-- An argument of a method or event: its name and its canonical type string. -/
structure Argument where
  name : String
  type : String
  deriving DecidableEq, Repr

/-- A callable of a contract (`Mbtpod`). -/
structure Mbtpod where
  name : String
  const : Bool
  inputs : List Argument
  outputs : List Argument
  deriving DecidableEq, Repr

/-- A Keccak-256 digest: 32 bytes. -/
structure Hash where
  bytes : List UInt8
  length_eq : bytes.length = 32

/-- `Mbtpod.Sig`: `name(type1,type2,...)`, the string the method id is hashed from. -/
def Mbtpod.sig (m : Mbtpod) : String :=
  m.name ++ "(" ++ ",".intercalate (m.inputs.map (·.type)) ++ ")"

/-- `Mbtpod.String`: `function name(type1 arg1, ...) [constant ]returns(type1 out1, ...)`, an
output's name printed only when it is not empty. -/
def Mbtpod.toString (m : Mbtpod) : String :=
  let inputs := m.inputs.map fun input => input.type ++ " " ++ input.name
  let outputs := m.outputs.map fun output =>
    if output.name.length > 0 then output.type ++ " " ++ output.name else output.type
  let constant := if m.const then "constant " else ""
  "function " ++ m.name ++ "(" ++ ", ".intercalate inputs ++ ") " ++ constant ++ "returns(" ++
    ", ".intercalate outputs ++ ")"

/-- `Mbtpod.Id`: the first 4 bytes of the Keccak-256 hash of the signature's UTF-8 bytes. -/
def Mbtpod.id (keccak256 : List UInt8 → Hash) (m : Mbtpod) : List UInt8 :=
  (keccak256 m.sig.toUTF8.toList).bytes.take 4

theorem Mbtpod.length_id (keccak256 : List UInt8 → Hash) (m : Mbtpod) :
    (m.id keccak256).length = 4 := by
  simp [Mbtpod.id, (keccak256 _).length_eq]

/-- The signature depends on the method only through its name and its input types. -/
theorem Mbtpod.sig_eq_iff (m m' : Mbtpod) (h : m.inputs.map (·.type) = m'.inputs.map (·.type)) :
    m.sig = m'.sig ↔ m.name = m'.name := by
  simp only [Mbtpod.sig, h]
  constructor
  · intro he
    have := congrArg String.data he
    simp only [String.data_append] at this
    exact String.ext (List.append_cancel_right (List.append_cancel_right
      (List.append_cancel_right this)))
  · intro he; rw [he]

theorem Mbtpod.sig_eq_iff_renamed :
    let m : Mbtpod := ⟨"foo0", false, [⟨"b", "address"⟩], []⟩
    let m' : Mbtpod := ⟨"foo", false, [⟨"b", "address"⟩], []⟩
    m.inputs.map (·.type) = m'.inputs.map (·.type) ∧ (m.sig = m'.sig ↔ m.name = m'.name) := by
  intro m m'
  exact ⟨rfl, Mbtpod.sig_eq_iff m m' rfl⟩

/-- `TestMbtpodSig`: a method with three inputs. -/
example : Mbtpod.sig ⟨"transfer", false, [⟨"from", "address"⟩, ⟨"to", "address"⟩,
    ⟨"value", "uint256"⟩], [⟨"success", "bool"⟩]⟩ = "transfer(address,address,uint256)" := by
  decide

/-- `TestMbtpodString`: a constant method with no arguments. -/
example : Mbtpod.toString ⟨"balance", true, [], []⟩ = "function balance() constant returns()" := by
  decide

end GoBtpereum.Abi
