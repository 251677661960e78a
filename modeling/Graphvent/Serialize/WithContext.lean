import Graphvent.Serialize.Parse

/-!
# The context-taking reader of `part_007`

`part_007` has its own `ParseSerializedValue(ctx, data)` and `DeserializeValue(ctx, value, n)`
next to the same `MarshalBinary`.  Its parser reads the type stack where `MarshalBinary` writes
it, but takes the data from `types_end := 8*(num_types + 1)`, eight bytes before the data
starts, and returns no rest.  Its `DeserializeValue` runs the deserializer of the value's first
type `n` times, each time on the whole value.

* `parseSerializedValue_reads_early`: for every marshalled value, the parser returns the type
  stack and, as the data, the first `len(Data)` bytes of the eight-byte word in front of the
  data (the last type, or the data length when the stack is empty) followed by the data; so a
  value with data of one to eight bytes reads back the first bytes of that word
  (`parseSerializedValue_oneTag`: `{[7], [0xAB]}` reads back `{[7], [0x00]}`);
* `deserializeValue_replicate`: whatever `DeserializeValue` returns is `n` copies of one
  element, the first the deserializer reads from the value.

The deserializers are parameters: the registries of `Context/Registry.lean` record only whether a
function is `nil`.
-/

namespace Graphvent

namespace WithContext

open GoM

/-- `ParseSerializedValue(ctx, data)` of `part_007`: the value, or the error on fewer than 8
bytes. -/
def parseSerializedValue (data : GoSlice) : GoM (Except String SerializedValue) :=
  if data.bytes.length < 8 then pure (.error serializedValueTooShort) else do
  let numTypes := goInt (getBE (← data.slice 0 8).bytes)
  let dataSize := goInt (getBE (← data.slice 8 16).bytes)
  makeSlice 8 numTypes
  let typeStack ← readTypes data 0 numTypes.toNat
  let typesEnd := wrapInt (8 * (numTypes + 1))
  let value ← data.slice typesEnd (wrapInt (typesEnd + dataSize))
  pure (.ok ⟨typeStack, value.bytes⟩)

theorem drop_flatten_putBE (ts : List ℕ) (w : ℕ) :
    (putBE 8 w ++ (ts.map (putBE 8)).flatten).drop (8 * ts.length) = putBE 8 (ts.getLastD w) := by
  induction ts generalizing w with
  | nil => simp
  | cons t ts ih =>
    rw [List.length_cons, Nat.mul_succ, Nat.add_comm, ← List.drop_drop, List.map_cons,
      List.flatten_cons, drop_putBE_append, ih, List.getLastD_cons]

/-- **The data is read eight bytes early.**  For every marshalled value in a Go slice, with tags
of 64 bits, the parser returns the type stack and, as the data, the first `len(Data)` bytes of
the word before the data followed by the data. -/
theorem parseSerializedValue_reads_early (v : SerializedValue) (rest spare : List UInt8)
    (htags : ∀ t ∈ v.typeStack, t < 2 ^ 64) (hfit : v.marshalBinary.length ≤ maxAlloc) :
    (parseSerializedValue ⟨v.marshalBinary ++ rest, spare⟩).result =
      .ok (.ok ⟨v.typeStack,
        (putBE 8 (v.typeStack.getLastD v.data.length) ++ v.data).take v.data.length⟩) := by
  obtain ⟨ts, data⟩ := v
  have hlen := length_marshalBinary ⟨ts, data⟩
  simp only at hlen htags ⊢
  have hmax : 16 + 8 * ts.length + data.length ≤ 2 ^ 48 := hlen ▸ hfit
  set d : GoSlice := ⟨SerializedValue.marshalBinary ⟨ts, data⟩ ++ rest, spare⟩
  have hback : d.backing = putBE 8 ts.length ++ (putBE 8 data.length ++
      ((ts.map (putBE 8)).flatten ++ (data ++ (rest ++ spare)))) := by
    simp [d, GoSlice.backing, SerializedValue.marshalBinary]
  have hcap : d.cap = 16 + 8 * ts.length + data.length + rest.length + spare.length := by
    simp only [GoSlice.cap, hback, List.length_append, length_putBE, length_flatten_putBE]
    omega
  have hn : goInt ts.length = ts.length := goInt_of_lt (by omega)
  have hm : goInt data.length = data.length := goInt_of_lt (by omega)
  have hte : wrapInt (8 * ((ts.length : ℤ) + 1)) = 8 + 8 * ts.length :=
    (wrapInt_of_mem (by omega) (by omega)).trans (by ring)
  have hde : wrapInt (8 + 8 * (ts.length : ℤ) + data.length) = 8 + 8 * ts.length + data.length :=
    wrapInt_of_mem (by omega) (by omega)
  obtain ⟨sp₀, h₀⟩ : ∃ sp, (d.slice 0 8).result = .ok ⟨putBE 8 ts.length, sp⟩ :=
    ⟨_, by rw [GoSlice.result_slice_of_le le_rfl (by omega) (by rw [hcap]; omega), hback]; rfl⟩
  obtain ⟨sp₁, h₁⟩ : ∃ sp, (d.slice 8 16).result = .ok ⟨putBE 8 data.length, sp⟩ :=
    ⟨_, by rw [GoSlice.result_slice_of_le (by omega) (by omega) (by rw [hcap]; omega), hback]; rfl⟩
  obtain ⟨sp₂, h₂⟩ : ∃ sp, (d.slice (8 + 8 * ts.length) (8 + 8 * ts.length + data.length)).result =
      .ok ⟨(putBE 8 (ts.getLastD data.length) ++ data).take data.length, sp⟩ := by
    have e₁ : (8 + 8 * (ts.length : ℤ)).toNat = 8 + 8 * ts.length := by omega
    have e₂ : (8 + 8 * (ts.length : ℤ) + data.length - (8 + 8 * ts.length)).toNat =
        data.length := by omega
    have hdrop : d.backing.drop (8 + 8 * ts.length) =
        putBE 8 (ts.getLastD data.length) ++ (data ++ (rest ++ spare)) := by
      have hle : 8 * ts.length ≤ (putBE 8 data.length ++ (ts.map (putBE 8)).flatten).length := by
        simp only [List.length_append, length_putBE, length_flatten_putBE]; omega
      rw [← List.drop_drop, hback, drop_putBE_append, ← List.append_assoc,
        List.drop_append_of_le_length hle, drop_flatten_putBE]
    exact ⟨_, by rw [GoSlice.result_slice_of_le (by omega) (by omega) (by rw [hcap]; omega), e₁,
      e₂, hdrop, ← List.append_assoc, List.take_append_of_le_length (by simp)]⟩
  have hmk : (makeSlice 8 ts.length).result = .ok () := by
    rw [result_makeSlice, if_neg (by simp only [maxAlloc]; omega)]
  have htypes := @readTypes_flatten d ts 0 (data ++ (rest ++ spare))
    (by rw [show (0 + 2) * 8 = 8 + 8 from rfl, ← List.drop_drop, hback, drop_putBE_append,
      drop_putBE_append]) htags
  rw [parseSerializedValue, if_neg (by simp only [d, List.length_append, hlen]; omega)]
  simp only [result_bind h₀, getBE_putBE_of_lt (show ts.length < 2 ^ (8 * 8) by omega), hn,
    result_bind h₁, getBE_putBE_of_lt (show data.length < 2 ^ (8 * 8) by omega), hm,
    result_bind hmk, Int.toNat_natCast, result_bind htypes, hte, hde, result_bind h₂, result_pure]

/-- The value with the one tag `7` and the data `0xAB` reads back with the data `0x00`, the first
byte of the tag's word. -/
theorem parseSerializedValue_oneTag :
    (parseSerializedValue ⟨SerializedValue.marshalBinary ⟨[7], [0xAB]⟩, []⟩).result =
      .ok (.ok ⟨[7], [0x00]⟩) := by
  simpa using parseSerializedValue_reads_early ⟨[7], [0xAB]⟩ [] [] (by decide) (by decide)

/-! ### `DeserializeValue` -/

/-- A `TypeDeserialize` of `part_007`: the element read from a value and the data left, or an
error. -/
abbrev Deserializer (α : Type) := SerializedValue → Except String (α × List UInt8)

/-- How `DeserializeValue` fails. -/
inductive DeserializeError
  /-- `make([]interface{}, n)` panics when `n < 0` or when its `16 * n` bytes exceed
  `maxAlloc`. -/
  | makeSliceLen
  /-- `value.TypeStack[0]` on an empty stack panics. -/
  | indexOutOfRange
  /-- `Cannot deserialize 0x%x: unknown type/kind`. -/
  | unknownType (ctxType : ℕ)
  /-- Calling a `nil` deserializer panics. -/
  | nilDeserialize
  /-- The deserializer's error. -/
  | deserialize (err : String)
  deriving DecidableEq

variable {α : Type}

/-- The deserializer `DeserializeValue` picks for a type: the registered type's (`ctx.Types`,
whose `Deserialize` may be `nil`), else the kind's (`ctx.KindTypes`, then `ctx.Kinds`, where a
missing kind gives the `nil` of the zero `KindInfo`). -/
def pickDeserializer (types : ℕ → Option (Option (Deserializer α))) (kindTypes : ℕ → Option Kind)
    (kinds : Kind → Option (Deserializer α)) (ctxType : ℕ) :
    Except DeserializeError (Option (Deserializer α)) :=
  match types ctxType with
  | some deserialize => .ok deserialize
  | none =>
    match kindTypes ctxType with
    | none => .error (.unknownType ctxType)
    | some kind => .ok (kinds kind)

/-- The loop of `DeserializeValue`, `n` more times, with the data left so far. -/
def deserializeLoop (deserialize : Option (Deserializer α)) (value : SerializedValue) :
    ℕ → List UInt8 → Except DeserializeError (List α × List UInt8)
  | 0, remaining => .ok ([], remaining)
  | n + 1, _ =>
    match deserialize with
    | none => .error .nilDeserialize
    | some deserialize =>
      match deserialize value with
      | .error err => .error (.deserialize err)
      | .ok (elem, remaining) =>
        (deserializeLoop (some deserialize) value n remaining).map fun r => (elem :: r.1, r.2)

/-- `DeserializeValue(ctx, value, n)` of `part_007`. -/
def deserializeValue (types : ℕ → Option (Option (Deserializer α))) (kindTypes : ℕ → Option Kind)
    (kinds : Kind → Option (Deserializer α)) (value : SerializedValue) (n : ℤ) :
    Except DeserializeError (List α × List UInt8) :=
  if n < 0 ∨ (maxAlloc : ℤ) < 16 * n then .error .makeSliceLen else
  match value.typeStack with
  | [] => .error .indexOutOfRange
  | ctxType :: _ => do
    let deserialize ← pickDeserializer types kindTypes kinds ctxType
    deserializeLoop deserialize value n.toNat value.data

/-- Every turn of the loop reads the same value, so `n + 1` turns return `n + 1` copies of the
first element and the data the first turn left. -/
theorem deserializeLoop_succ (deserialize : Deserializer α) (value : SerializedValue) (n : ℕ)
    (remaining : List UInt8) :
    deserializeLoop (some deserialize) value (n + 1) remaining =
      match deserialize value with
      | .error err => .error (.deserialize err)
      | .ok (elem, rest) => .ok (List.replicate (n + 1) elem, rest) := by
  induction n generalizing remaining with
  | zero => simp only [deserializeLoop]; split <;> rfl
  | succ n ih =>
    rw [deserializeLoop]
    split
    · rfl
    · rename_i elem rest hd
      rw [ih, hd]
      rfl

/-- **`n` copies.**  Whatever `DeserializeValue(ctx, value, n)` returns is `n` copies of one
element, the one the deserializer of the value's first type reads from the whole value, with the
data that read left. -/
theorem deserializeValue_replicate (types : ℕ → Option (Option (Deserializer α)))
    (kindTypes : ℕ → Option Kind) (kinds : Kind → Option (Deserializer α)) (value : SerializedValue)
    (n : ℤ) {ret : List α} {rest : List UInt8}
    (h : deserializeValue types kindTypes kinds value n = .ok (ret, rest)) :
    ret.length = n.toNat ∧ ∀ x ∈ ret, ret = List.replicate n.toNat x ∧
      ∃ deserialize, pickDeserializer types kindTypes kinds (value.typeStack.headD 0) =
        .ok (some deserialize) ∧ deserialize value = .ok (x, rest) := by
  unfold deserializeValue at h
  split_ifs at h
  split at h
  · cases h
  · rename_i ctxType ts hts
    obtain ⟨d, hd, h⟩ := bind_eq_ok.1 h
    rw [hts, List.headD_cons, hd]
    obtain ⟨k, hk⟩ | hk : (∃ k, n.toNat = k + 1) ∨ n.toNat = 0 := by
      rcases n.toNat with _ | k
      · exact .inr rfl
      · exact .inl ⟨k, rfl⟩
    · rw [hk] at h ⊢
      cases d with
      | none => cases h
      | some f =>
        rw [deserializeLoop_succ] at h
        split at h
        · cases h
        · rename_i elem r hf
          cases h
          refine ⟨List.length_replicate _ _, fun x hx => ?_⟩
          rw [List.eq_of_mem_replicate hx]
          exact ⟨rfl, f, rfl, hf⟩
    · rw [hk] at h ⊢
      cases h
      exact ⟨rfl, fun x hx => absurd hx (List.not_mem_nil x)⟩

/-- Three elements of a value whose deserializer reads the length of the data and drops a byte:
three copies of `2`, and one byte dropped. -/
theorem deserializeValue_threeCopies :
    ([2, 2, 2] : List ℕ).length = (3 : ℤ).toNat ∧ ∀ x ∈ ([2, 2, 2] : List ℕ),
      [2, 2, 2] = List.replicate (3 : ℤ).toNat x ∧
      ∃ deserialize, pickDeserializer (fun _ => some (some fun v => .ok (v.data.length, v.data.drop 1)))
          (fun _ => none) (fun _ => none) ((⟨[3], [1, 2]⟩ : SerializedValue).typeStack.headD 0) =
        .ok (some deserialize) ∧ deserialize ⟨[3], [1, 2]⟩ = .ok (x, [2]) :=
  deserializeValue_replicate _ _ _ _ 3 rfl

end WithContext

end Graphvent
