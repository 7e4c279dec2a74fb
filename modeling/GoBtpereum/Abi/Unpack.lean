import GoBtpereum.Abi.Unmarshal

/-!
# Unpacking output by name

`ABI.Unpack` and `ABI.UnpackIntoMap` (`accounts/abi`) hand return data or log data to the
arguments of the method or event stored under a name: a method's `Outputs` when the method map has
the name, otherwise an event's `Inputs`. The two are one routine (`unpackWith`) over the decoder
they call (`Arguments.Unpack` or `Arguments.UnpackIntoMap`, not under the sources, a parameter)
and the message of the length check, which they word differently.

The source explains the order of the lookups by "there can't be naming collisions with contracts
and events", but `UnmarshalJSON` fills the two maps independently: a name declared by a function
is a key of the method map, whatever the other fields (`mem_foldl_unmarshalField`), and one
declared by an event a key of the event map. So when a document declares a function and an event
of one name, both maps hold it, and unpacking that name always takes the method's route, with its
length check and its outputs; the event's inputs are never used (`unpackWith_json_shadowed`).
-/

namespace GoBtpereum.Abi

/-! ### Declared names stay keys -/

section Keys

variable {γ : Type}

theorem mem_insert_freshName (m : NameMap γ) (name : String) (v : γ) :
    name ∈ m.insert (freshName m name) v := by
  by_cases h : name ∈ m
  · exact (AList.mem_insert _).mpr (.inr h)
  · rw [freshName_eq m name (k := 0) (fun j hj => absurd hj (Nat.not_lt_zero j)) h]
    exact (AList.mem_insert _).mpr (.inl rfl)

variable {sel : Field → Bool} {get : ABI → NameMap γ} {mk : Field → String → γ}

theorem mem_foldl_unmarshalField (hstep : StepsBy sel get mk) {n : String} :
    ∀ (fields : List Field) (abi : ABI), (n ∈ get abi ∨ ∃ f ∈ fields, sel f ∧ f.name = n) →
      n ∈ get (fields.foldl unmarshalField abi)
  | [], abi, h => by simpa using h
  | f :: fields, abi, h => by
    rw [List.foldl_cons]
    apply mem_foldl_unmarshalField hstep fields
    rw [hstep abi f]
    rcases h with h | ⟨g, hg, hsel, rfl⟩
    · left
      split
      · exact (AList.mem_insert _).mpr (.inr h)
      · exact h
    · rcases List.mem_cons.mp hg with rfl | hg
      · exact .inl (by rw [if_pos hsel]; exact mem_insert_freshName _ _ _)
      · exact .inr ⟨g, hg, hsel, rfl⟩

end Keys

/-! ### `Unpack` and `UnpackIntoMap` -/

section Unpack

variable {R : Type} (decode : List Argument → List UInt8 → Except String R)

/-- `ABI.Unpack` and `ABI.UnpackIntoMap` over the decoder `decode` they call on the arguments
and the data, and `malformed`, the message of their length check on a method's output. -/
def unpackWith (malformed : List UInt8 → String) (abi : ABI) (name : String) (data : List UInt8) :
    Except String R :=
  if data.length = 0 then .error "abi: unmarshalling empty output"
  else
    match abi.mbtpods.lookup name with
    | some m => if data.length % 32 ≠ 0 then .error (malformed data) else decode m.outputs data
    | none =>
      match abi.events.lookup name with
      | some e => decode e.inputs data
      | none => .error "abi: could not locate named mbtpod or event"

/-- `%+v` of a byte slice: the bytes in decimal between brackets, separated by spaces. -/
def fmtBytes (data : List UInt8) : String :=
  "[" ++ " ".intercalate (data.map fun b => toString b.toNat) ++ "]"

/-- `ABI.Unpack`; `goString` is Go's `string(data)`, which keeps the raw bytes. -/
def ABI.unpack (goString : List UInt8 → String) (abi : ABI) (name : String) (data : List UInt8) :
    Except String R :=
  unpackWith decode
    (fun data => "abi: improperly formatted output: " ++ goString data ++ " - Bytes: [" ++
      fmtBytes data ++ "]") abi name data

/-- `ABI.UnpackIntoMap`. -/
def ABI.unpackIntoMap (abi : ABI) (name : String) (data : List UInt8) : Except String R :=
  unpackWith decode (fun _ => "abi: improperly formatted output") abi name data

/-- In an ABI decoded from a document that declares a function and an event of one name, the
event is stored under that name, but unpacking the name takes the method's route: the length
check and the stored method's outputs. -/
theorem unpackWith_json_shadowed (malformed : List UInt8 → String) {fields : List Field}
    {n : String} (data : List UInt8) (hfun : ∃ f ∈ fields, f.isFunction ∧ f.name = n)
    (hev : ∃ e ∈ fields, e.isEvent ∧ e.name = n) :
    n ∈ (json fields).events ∧ ∃ m, (json fields).mbtpods.lookup n = some m ∧
      unpackWith decode malformed (json fields) n data =
        if data.length = 0 then .error "abi: unmarshalling empty output"
        else if data.length % 32 ≠ 0 then .error (malformed data)
        else decode m.outputs data := by
  have hm : n ∈ (json fields).mbtpods :=
    mem_foldl_unmarshalField unmarshalField_mbtpods fields _ (.inr hfun)
  obtain ⟨m, hlookup⟩ := Option.isSome_iff_exists.mp (AList.lookup_isSome.mpr hm)
  refine ⟨mem_foldl_unmarshalField unmarshalField_events fields _ (.inr hev), m, hlookup, ?_⟩
  rw [unpackWith, hlookup]

end Unpack

theorem unpackWith_json_shadowed_transfer :
    let fields : List Field :=
      [⟨"function", "Transfer", false, false, [], [⟨"ok", "bool"⟩]⟩,
        ⟨"event", "Transfer", false, false, [⟨"from", "address"⟩], []⟩]
    let decode : List Argument → List UInt8 → Except String (List Argument) := fun args _ => .ok args
    let data : List UInt8 := List.replicate 32 0
    (∃ f ∈ fields, f.isFunction ∧ f.name = "Transfer") ∧
      (∃ e ∈ fields, e.isEvent ∧ e.name = "Transfer") ∧
      "Transfer" ∈ (json fields).events ∧ ∃ m, (json fields).mbtpods.lookup "Transfer" = some m ∧
        unpackWith decode (fun _ => "") (json fields) "Transfer" data =
          if data.length = 0 then .error "abi: unmarshalling empty output"
          else if data.length % 32 ≠ 0 then .error ((fun _ => "") data)
          else decode m.outputs data := by
  intro fields decode data
  have hfun : ∃ f ∈ fields, f.isFunction ∧ f.name = "Transfer" :=
    ⟨_, List.mem_cons_self _ _, rfl, rfl⟩
  have hev : ∃ e ∈ fields, e.isEvent ∧ e.name = "Transfer" :=
    ⟨_, List.mem_cons_of_mem _ (List.mem_cons_self _ _), rfl, rfl⟩
  exact ⟨hfun, hev, unpackWith_json_shadowed decode (fun _ => "") data hfun hev⟩

example :
    unpackWith (fun args (_ : List UInt8) => (.ok args : Except String (List Argument)))
      (fun _ => "") (json [⟨"function", "Transfer", false, false, [], [⟨"ok", "bool"⟩]⟩,
        ⟨"event", "Transfer", false, false, [⟨"from", "address"⟩], []⟩])
      "Transfer" (List.replicate 32 0) = .ok [⟨"ok", "bool"⟩] :=
  rfl

end GoBtpereum.Abi
