import Graphvent.Go.Runtime
import Graphvent.Serialize.RoundTrip

/-!
# Parsing a marshalled value

`ParseSerializedValue` reads back what `SerializedValue.MarshalBinary` writes: the number of
types and the length of the data in eight bytes each, the types in eight bytes each, then the
data.  Its only check is that there are 8 bytes.  Every other index is read from the bytes and
used as it is, so the runtime's own checks (`GoSlice.slice`, `makeSlice`) are what stands
between a malformed input and memory.

* `parseSerializedValue_marshalBinary`: every marshalled value is read back, whatever follows it;
* `parseSerializedValue_eq_ok`: whatever is read back was marshalled in front of the rest;
* `parseSerializedValue_malformed`: so the error on fewer than 8 bytes is the only error; any
  other input that is not a marshalled value panics, an input of 8 to 15 bytes is sliced at
  `data[8:16]`, and the type stack is allocated at whatever length the first word gives.
-/

namespace Graphvent

open GoM

/-- The loop of `ParseSerializedValue` from index `i`, `count` more times:
`type_stack[i] = SerializedType(binary.BigEndian.Uint64(data[(i+2)*8:(i+3)*8]))`.  The indices
cannot wrap: `make` has bounded the count by `maxAlloc / 8`. -/
def readTypes (data : GoSlice) : ℕ → ℕ → GoM (List ℕ)
  | _, 0 => pure []
  | i, count + 1 => do
    let word ← data.slice ((i + 2) * 8 : ℕ) ((i + 3) * 8 : ℕ)
    let rest ← readTypes data (i + 1) count
    pure (getBE word.bytes :: rest)

/-- The error `ParseSerializedValue` returns on fewer than 8 bytes. -/
def serializedValueTooShort : String :=
  "SerializedValue required to have at least 8 bytes when serialized"

/-- `ParseSerializedValue(data)`: the value, the bytes after it, or the error. -/
def parseSerializedValue (data : GoSlice) : GoM (Except String (SerializedValue × GoSlice)) :=
  if data.bytes.length < 8 then pure (.error serializedValueTooShort) else do
  let numTypes := goInt (getBE (← data.slice 0 8).bytes)
  let dataSize := goInt (getBE (← data.slice 8 16).bytes)
  makeSlice 8 numTypes
  let typeStack ← readTypes data 0 numTypes.toNat
  let typesEnd := wrapInt (8 * (numTypes + 2))
  let dataEnd := wrapInt (typesEnd + dataSize)
  let value ← data.slice typesEnd dataEnd
  let rest ← data.sliceFrom dataEnd
  pure (.ok (⟨typeStack, value.bytes⟩, rest))

/-! ### The loop -/

section

variable {data : GoSlice}

theorem readTypes_flatten : ∀ (ws : List ℕ) (i : ℕ) (suffix : List UInt8),
    data.backing.drop ((i + 2) * 8) = (ws.map (putBE 8)).flatten ++ suffix →
    (∀ w ∈ ws, w < 2 ^ 64) → (readTypes data i ws.length).result = .ok ws
  | [], _, _, _, _ => rfl
  | w :: ws, i, suffix, h, hw => by
    have hback : data.backing.drop ((i + 2) * 8) =
        putBE 8 w ++ ((ws.map (putBE 8)).flatten ++ suffix) := by
      simpa using h
    have hcap : (i + 3) * 8 ≤ data.cap := by
      have := congrArg List.length hback
      simp only [List.length_drop, List.length_append, length_putBE, GoSlice.cap] at this ⊢
      omega
    have hnext : data.backing.drop ((i + 1 + 2) * 8) = (ws.map (putBE 8)).flatten ++ suffix := by
      rw [show (i + 1 + 2) * 8 = (i + 2) * 8 + 8 by ring, ← List.drop_drop, hback,
        drop_putBE_append]
    rw [List.length_cons, readTypes,
      result_bind (GoSlice.result_slice_of_le (by omega) (by omega) (by exact_mod_cast hcap)),
      result_bind (readTypes_flatten ws (i + 1) suffix hnext
        fun w' hw' => hw w' (List.mem_cons_of_mem _ hw'))]
    have e₁ : (((i + 2) * 8 : ℕ) : ℤ).toNat = (i + 2) * 8 := Int.toNat_natCast _
    have e₂ : ((((i + 3) * 8 : ℕ) : ℤ) - (((i + 2) * 8 : ℕ) : ℤ)).toNat = 8 := by omega
    simp only [e₁, e₂, hback, take_putBE_append, result_pure,
      getBE_putBE_of_lt (show w < 2 ^ (8 * 8) from hw w (List.mem_cons_self _ _))]

theorem readTypes_sound : ∀ (count i : ℕ) {ws : List ℕ},
    (readTypes data i count).result = .ok ws →
    ws.length = count ∧
      (ws.map (putBE 8)).flatten = (data.backing.drop ((i + 2) * 8)).take (8 * count)
  | 0, _, ws, h => by
    cases h
    simp
  | count + 1, i, ws, h => by
    obtain ⟨word, hw, h, -⟩ := result_bind_eq_ok h
    obtain ⟨rest, hr, h, -⟩ := result_bind_eq_ok h
    cases h
    obtain ⟨-, -, hcap, rfl⟩ := GoSlice.result_slice_eq_ok hw
    obtain ⟨hlen, hflat⟩ := readTypes_sound count (i + 1) hr
    have e₁ : (((i + 2) * 8 : ℕ) : ℤ).toNat = (i + 2) * 8 := Int.toNat_natCast _
    have e₂ : ((((i + 3) * 8 : ℕ) : ℤ) - (((i + 2) * 8 : ℕ) : ℤ)).toNat = 8 := by omega
    have hword := putBE_getBE ((data.backing.drop ((i + 2) * 8)).take 8)
    rw [List.length_take, List.length_drop,
      min_eq_left (by simp only [GoSlice.cap] at hcap; omega)] at hword
    refine ⟨by rw [List.length_cons, hlen], ?_⟩
    rw [List.map_cons, List.flatten_cons, e₁, e₂, hword, hflat,
      show 8 * (count + 1) = 8 + 8 * count by ring, List.take_add, List.drop_drop,
      show (i + 2) * 8 + 8 = (i + 1 + 2) * 8 by ring]

end

/-! ### Reading back a marshalled value -/

/-- **Round trip.**  `ParseSerializedValue` reads every marshalled value back, with the bytes
after it as the rest, for a type stack of 64-bit tags and a marshalled value that is a Go slice
(at most `maxAlloc` bytes). -/
theorem parseSerializedValue_marshalBinary (v : SerializedValue) (rest spare : List UInt8)
    (htags : ∀ t ∈ v.typeStack, t < 2 ^ 64) (hfit : v.marshalBinary.length ≤ maxAlloc) :
    (parseSerializedValue ⟨v.marshalBinary ++ rest, spare⟩).result =
        .ok (.ok (v, ⟨rest, spare⟩)) ∧
      v.marshalBinary.length = 16 + 8 * v.typeStack.length + v.data.length := by
  have hlen := length_marshalBinary v
  refine ⟨?_, hlen⟩
  obtain ⟨ts, data⟩ := v
  simp only at hlen htags
  have hmax : 16 + 8 * ts.length + data.length ≤ 2 ^ 48 := hlen ▸ hfit
  have hback : (GoSlice.mk (SerializedValue.marshalBinary ⟨ts, data⟩ ++ rest) spare).backing =
      putBE 8 ts.length ++ (putBE 8 data.length ++
        ((ts.map (putBE 8)).flatten ++ (data ++ (rest ++ spare)))) := by
    simp [GoSlice.backing, SerializedValue.marshalBinary]
  have hcap : (GoSlice.mk (SerializedValue.marshalBinary ⟨ts, data⟩ ++ rest) spare).cap =
      16 + 8 * ts.length + data.length + rest.length + spare.length := by
    simp only [GoSlice.cap, hback, List.length_append, length_putBE, length_flatten_putBE]
    omega
  have hn : goInt ts.length = ts.length := goInt_of_lt (by omega)
  have hm : goInt data.length = data.length := goInt_of_lt (by omega)
  have hte : wrapInt (8 * ((ts.length : ℤ) + 2)) = 16 + 8 * ts.length :=
    (wrapInt_of_mem (by omega) (by omega)).trans (by ring)
  have hde : wrapInt (16 + 8 * (ts.length : ℤ) + data.length) =
      16 + 8 * ts.length + data.length := wrapInt_of_mem (by omega) (by omega)
  have hdrop : (GoSlice.mk (SerializedValue.marshalBinary ⟨ts, data⟩ ++ rest) spare).backing.drop
      (16 + 8 * ts.length) = data ++ (rest ++ spare) := by
    rw [show 16 + 8 * ts.length = 8 + 8 + 8 * ts.length by ring, ← List.drop_drop,
      ← List.drop_drop, hback, drop_putBE_append, drop_putBE_append,
      List.drop_left' (by rw [length_flatten_putBE])]
  set d : GoSlice := ⟨SerializedValue.marshalBinary ⟨ts, data⟩ ++ rest, spare⟩
  obtain ⟨sp₀, h₀⟩ : ∃ sp, (d.slice 0 8).result = .ok ⟨putBE 8 ts.length, sp⟩ :=
    ⟨_, by rw [GoSlice.result_slice_of_le le_rfl (by omega) (by rw [hcap]; omega), hback]; rfl⟩
  obtain ⟨sp₁, h₁⟩ : ∃ sp, (d.slice 8 16).result = .ok ⟨putBE 8 data.length, sp⟩ :=
    ⟨_, by rw [GoSlice.result_slice_of_le (by omega) (by omega) (by rw [hcap]; omega), hback]; rfl⟩
  obtain ⟨sp₂, h₂⟩ : ∃ sp, (d.slice (16 + 8 * ts.length) (16 + 8 * ts.length + data.length)).result =
      .ok ⟨data, sp⟩ := by
    have e₁ : (16 + 8 * (ts.length : ℤ)).toNat = 16 + 8 * ts.length := by omega
    have e₂ : (16 + 8 * (ts.length : ℤ) + data.length - (16 + 8 * ts.length)).toNat =
        data.length := by omega
    exact ⟨_, by rw [GoSlice.result_slice_of_le (by omega) (by omega) (by rw [hcap]; omega), e₁,
      e₂, hdrop, List.take_left' rfl]⟩
  have h₃ : (d.sliceFrom (16 + 8 * ts.length + data.length)).result = .ok ⟨rest, spare⟩ := by
    have e₃ : (16 + 8 * (ts.length : ℤ) + data.length).toNat =
        (SerializedValue.marshalBinary ⟨ts, data⟩).length := by
      rw [hlen]
      omega
    rw [GoSlice.sliceFrom_of_le (by omega) (by simp only [d, List.length_append, hlen]; omega)]
    show Except.ok (GoSlice.mk ((SerializedValue.marshalBinary ⟨ts, data⟩ ++ rest).drop _) spare) = _
    rw [e₃, List.drop_left]
  have hmk : (makeSlice 8 ts.length).result = .ok () := by
    rw [result_makeSlice, if_neg (by simp only [maxAlloc]; omega)]
  have htypes := @readTypes_flatten d ts 0 (data ++ (rest ++ spare))
    (by rw [show (0 + 2) * 8 = 8 + 8 from rfl, ← List.drop_drop, hback, drop_putBE_append,
      drop_putBE_append]) htags
  have hn8 : ts.length < 2 ^ (8 * 8) := by omega
  have hm8 : data.length < 2 ^ (8 * 8) := by omega
  rw [parseSerializedValue, if_neg (by simp only [d, List.length_append, hlen]; omega)]
  simp only [result_bind h₀, getBE_putBE_of_lt hn8, hn, result_bind h₁, getBE_putBE_of_lt hm8, hm,
    result_bind hmk, Int.toNat_natCast, result_bind htypes, hte, hde, result_bind h₂,
    result_bind h₃, result_pure]

/-- The value with the one tag `7` and the data `0xAB`, followed by the byte `0x01`. -/
theorem oneTag_roundTrip :
    (∀ t ∈ [7], t < 2 ^ 64) ∧ (SerializedValue.marshalBinary ⟨[7], [0xAB]⟩).length ≤ maxAlloc ∧
      (parseSerializedValue ⟨SerializedValue.marshalBinary ⟨[7], [0xAB]⟩ ++ [0x01], []⟩).result =
          .ok (.ok (⟨[7], [0xAB]⟩, ⟨[0x01], []⟩)) ∧
        (SerializedValue.marshalBinary ⟨[7], [0xAB]⟩).length = 16 + 8 * 1 + 1 :=
  ⟨by decide, by decide,
    parseSerializedValue_marshalBinary ⟨[7], [0xAB]⟩ [0x01] [] (by decide) (by decide)⟩

/-! ### What is read back -/

theorem drop_eq_take_append_drop {α : Type} (l : List α) (a b : ℕ) :
    l.drop a = (l.drop a).take b ++ l.drop (a + b) := by
  rw [← List.drop_drop, List.take_append_drop]

theorem goInt_cases (v : ℕ) : (v < 2 ^ 63 ∧ goInt v = v) ∨ (2 ^ 63 ≤ v ∧ goInt v = v - 2 ^ 64) := by
  unfold goInt
  split_ifs with h
  · exact .inl ⟨h, rfl⟩
  · exact .inr ⟨by omega, rfl⟩

/-- **What a successful parse read.**  The two header words are a count `A` of types and a
length `B` of data that the input holds after them; the types are read at `data[16:16+8A]`, the
value's data is `data[16+8A:16+8A+B]` and the rest is what follows, with the input's spare
capacity. -/
theorem parseSerializedValue_reads {d : GoSlice} {v : SerializedValue} {rest : GoSlice}
    (h : (parseSerializedValue d).result = .ok (.ok (v, rest))) :
    ∃ A B : ℕ, 16 + 8 * A + B ≤ d.bytes.length ∧ d.bytes.take 8 = putBE 8 A ∧
      (d.bytes.drop 8).take 8 = putBE 8 B ∧ (readTypes d 0 A).result = .ok v.typeStack ∧
      v.data = (d.bytes.drop (16 + 8 * A)).take B ∧
      rest = ⟨d.bytes.drop (16 + 8 * A + B), d.spare⟩ := by
  unfold parseSerializedValue at h
  split_ifs at h with h8
  · cases h
  obtain ⟨w₁, hw₁, h, -⟩ := result_bind_eq_ok h
  obtain ⟨w₂, hw₂, h, -⟩ := result_bind_eq_ok h
  dsimp only at h
  generalize hn : goInt (getBE w₁.bytes) = n at h
  generalize hm : goInt (getBE w₂.bytes) = m at h
  generalize hte : wrapInt (8 * (n + 2)) = te at h
  generalize hde : wrapInt (te + m) = de at h
  obtain ⟨u, hu, h, -⟩ := result_bind_eq_ok h
  obtain ⟨ts, hts, h, -⟩ := result_bind_eq_ok h
  obtain ⟨val, hval, h, -⟩ := result_bind_eq_ok h
  obtain ⟨r, hr, h, -⟩ := result_bind_eq_ok h
  simp only [result_pure, Except.ok.injEq, Prod.mk.injEq] at h
  obtain ⟨rfl, rfl⟩ := h
  obtain ⟨-, -, hc₁, rfl⟩ := GoSlice.result_slice_eq_ok hw₁
  obtain ⟨-, -, hc₂, rfl⟩ := GoSlice.result_slice_eq_ok hw₂
  obtain ⟨ht₀, htd, -, rfl⟩ := GoSlice.result_slice_eq_ok hval
  obtain ⟨-, hlen, rfl⟩ := GoSlice.result_sliceFrom_eq_ok hr
  rw [result_makeSlice] at hu
  split_ifs at hu with hmk
  simp only [Int.reduceToNat, Int.reduceSub, List.drop_zero] at hn hm
  have hl₁ : (d.backing.take 8).length = 8 := by
    simp only [List.length_take, GoSlice.cap] at hc₁ ⊢
    omega
  have hl₂ : ((d.backing.drop 8).take 8).length = 8 := by
    simp only [List.length_take, List.length_drop, GoSlice.cap] at hc₂ ⊢
    omega
  have hA := getBE_lt (d.backing.take 8)
  have hB := getBE_lt ((d.backing.drop 8).take 8)
  have pA := putBE_getBE (d.backing.take 8)
  have pB := putBE_getBE ((d.backing.drop 8).take 8)
  rw [hl₁] at hA pA
  rw [hl₂] at hB pB
  generalize getBE (d.backing.take 8) = A at hA pA hn
  generalize getBE ((d.backing.drop 8).take 8) = B at hB pB hm
  have hA63 : A < 2 ^ 63 := by
    rcases goInt_cases A with ⟨h, -⟩ | ⟨-, h⟩
    · exact h
    · rw [← hn, h] at hmk
      omega
  rw [goInt_of_lt hA63] at hn
  subst hn
  have hmax : 8 * A ≤ 2 ^ 48 := by simp only [maxAlloc] at hmk; omega
  rw [(wrapInt_of_mem (by omega) (by omega)).trans (by ring : 8 * ((A : ℤ) + 2) = 16 + 8 * A)]
    at hte
  subst hte
  have hDB : de = 16 + 8 * A + B := by
    obtain ⟨l₁, l₂, k, hk⟩ := wrapInt_spec (16 + 8 * (A : ℤ) + m)
    rw [hde] at l₁ l₂ hk
    rcases goInt_cases B with ⟨-, e⟩ | ⟨-, e⟩ <;> rw [e] at hm <;> subst hm <;> omega
  subst hDB
  have e₁ : (16 + 8 * (A : ℤ)).toNat = 16 + 8 * A := by omega
  have e₂ : (16 + 8 * (A : ℤ) + B - (16 + 8 * A)).toNat = B := by omega
  have e₃ : (16 + 8 * (A : ℤ) + B).toNat = 16 + 8 * A + B := by omega
  refine ⟨A, B, by omega, ?_, ?_, by simpa using hts, ?_, by rw [e₃]⟩
  · simpa [pA] using (@GoSlice.backing_drop_take d 0 8 (by omega)).symm
  · rw [← @GoSlice.backing_drop_take d 8 8 (by omega), pB]
  · rw [e₁, e₂, @GoSlice.backing_drop_take d (16 + 8 * A) B (by omega)]

/-- **What is read back was marshalled.**  When `ParseSerializedValue` returns a value and no
error, its input is that value marshalled, then the rest it returns, which keeps the input's
spare capacity. -/
theorem parseSerializedValue_eq_ok {d : GoSlice} {v : SerializedValue} {rest : GoSlice}
    (h : (parseSerializedValue d).result = .ok (.ok (v, rest))) :
    d.bytes = v.marshalBinary ++ rest.bytes ∧ rest.spare = d.spare := by
  obtain ⟨ts, data⟩ := v
  obtain ⟨A, B, hlen, hA, hB, hts, rfl, rfl⟩ := parseSerializedValue_reads h
  obtain ⟨hl, hts⟩ := readTypes_sound _ _ hts
  dsimp only at hl
  subst hl
  rw [show (0 + 2) * 8 = 16 from rfl, @GoSlice.backing_drop_take d 16 (8 * ts.length) (by omega)]
    at hts
  have hdata : ((d.bytes.drop (16 + 8 * ts.length)).take B).length = B := by
    simp only [List.length_take, List.length_drop]
    omega
  refine ⟨?_, rfl⟩
  simp only [SerializedValue.marshalBinary, hts, hdata, ← hA, ← hB, List.append_assoc]
  conv_lhs => rw [← List.take_append_drop 8 d.bytes, drop_eq_take_append_drop _ 8 8,
    show 8 + 8 = 16 from rfl, drop_eq_take_append_drop _ 16 (8 * ts.length),
    drop_eq_take_append_drop _ (16 + 8 * ts.length) B]

/-! ### Malformed input -/

theorem parseSerializedValue_result_ok {d : GoSlice} (h8 : 8 ≤ d.bytes.length)
    {x : Except String (SerializedValue × GoSlice)} (h : (parseSerializedValue d).result = .ok x) :
    ∃ v rest, x = .ok (v, rest) := by
  rw [parseSerializedValue, if_neg (by omega)] at h
  obtain ⟨_, -, h, -⟩ := result_bind_eq_ok h
  obtain ⟨_, -, h, -⟩ := result_bind_eq_ok h
  obtain ⟨_, -, h, -⟩ := result_bind_eq_ok h
  obtain ⟨_, -, h, -⟩ := result_bind_eq_ok h
  obtain ⟨_, -, h, -⟩ := result_bind_eq_ok h
  obtain ⟨_, -, h, -⟩ := result_bind_eq_ok h
  exact ⟨_, _, (Except.ok.inj h).symm⟩

/-- On 8 bytes or more, `data[8:16]` is evaluated, whatever the length. -/
theorem slice_8_16_mem_trace {d : GoSlice} (h8 : 8 ≤ d.bytes.length) :
    .slice 8 16 ∈ (parseSerializedValue d).trace := by
  rw [parseSerializedValue, if_neg (by omega),
    bind_ok (GoSlice.result_slice_of_le le_rfl (by omega) (by have := d.length_le_cap; omega))]
  exact List.mem_append_right _ ((trace_isPrefix_bind (d.slice 8 16) _).subset (by simp))

/-- On 16 bytes or more, both header words are read and the type stack is allocated at the
length the first one gives, before anything else. -/
theorem parseSerializedValue_header {d : GoSlice} (h16 : 16 ≤ d.bytes.length) :
    ∃ k : Unit → GoM (Except String (SerializedValue × GoSlice)), parseSerializedValue d =
      ⟨[.slice 0 8, .slice 8 16] ++ (makeSlice 8 (goInt (getBE (d.bytes.take 8))) >>= k).trace,
        (makeSlice 8 (goInt (getBE (d.bytes.take 8))) >>= k).result⟩ := by
  have hcap := d.length_le_cap
  have e₁ : d.backing.take 8 = d.bytes.take 8 := by
    simpa using @GoSlice.backing_drop_take d 0 8 (by omega)
  rw [parseSerializedValue, if_neg (by omega)]
  simp only [bind_ok (@GoSlice.result_slice_of_le d 0 8 le_rfl (by omega) (by omega)),
    bind_ok (@GoSlice.result_slice_of_le d 8 16 (by omega) (by omega) (by omega)),
    GoSlice.trace_slice, Int.reduceToNat, Int.reduceSub, List.drop_zero, e₁, List.singleton_append,
    List.cons_append, List.nil_append]
  exact ⟨_, rfl⟩

/-- **Malformed input.**  `ParseSerializedValue` returns an error exactly on fewer than 8 bytes.
Any other input that is not a marshalled value followed by a rest makes it panic, and not
before it has done two things: on 8 to 15 bytes it evaluates `data[8:16]`, past the end of the
input; and on 16 bytes or more it allocates the type stack at the length the first word gives,
which the bytes need not hold, or panics in `make` when that word is `2^63` or more and so a
negative `int`. -/
theorem parseSerializedValue_malformed (d : GoSlice) :
    ((∃ e, (parseSerializedValue d).result = .ok (.error e)) ↔ d.bytes.length < 8) ∧
    ((∀ v rest, d.bytes ≠ SerializedValue.marshalBinary v ++ rest) → 8 ≤ d.bytes.length →
      ∃ p, (parseSerializedValue d).result = .error p) ∧
    (8 ≤ d.bytes.length → d.bytes.length < 16 → .slice 8 16 ∈ (parseSerializedValue d).trace) ∧
    (16 ≤ d.bytes.length → 2 ^ 63 ≤ getBE (d.bytes.take 8) →
      (parseSerializedValue d).result = .error .makeSliceLen) ∧
    (16 ≤ d.bytes.length → 8 * getBE (d.bytes.take 8) ≤ maxAlloc →
      .make (getBE (d.bytes.take 8)) ∈ (parseSerializedValue d).trace) := by
  have hA : getBE (d.bytes.take 8) < 2 ^ 64 :=
    calc getBE (d.bytes.take 8) < 256 ^ (d.bytes.take 8).length := getBE_lt _
      _ ≤ 256 ^ 8 := Nat.pow_le_pow_right (by norm_num) (List.length_take_le _ _)
      _ = 2 ^ 64 := by norm_num
  refine ⟨⟨fun ⟨e, he⟩ => ?_, fun h => ⟨_, by rw [parseSerializedValue, if_pos h]; rfl⟩⟩,
    fun hm h8 => ?_, fun h8 _ => slice_8_16_mem_trace h8, fun h16 hneg => ?_, fun h16 hmax => ?_⟩
  · by_contra h8
    obtain ⟨_, _, he⟩ := parseSerializedValue_result_ok (not_lt.1 h8) he
    cases he
  · rcases hr : (parseSerializedValue d).result with p | x
    · exact ⟨p, rfl⟩
    · obtain ⟨v, rest, rfl⟩ := parseSerializedValue_result_ok h8 hr
      exact absurd (parseSerializedValue_eq_ok hr).1 (hm v rest.bytes)
  · obtain ⟨k, hk⟩ := parseSerializedValue_header h16
    rw [hk, bind_error]
    rw [result_makeSlice, if_pos (.inl ((goInt_neg hneg).2 hA))]
  · obtain ⟨k, hk⟩ := parseSerializedValue_header h16
    rw [hk, goInt_of_lt (by simp only [maxAlloc] at hmax; omega)]
    exact List.mem_append_right _ ((trace_isPrefix_bind _ k).subset (by simp))

/-- Three inputs the parser does not reject.  Ten zero bytes in a slice of capacity 16:
`data[8:16]` reads the six bytes after the input, and the panic comes only at `data[16:]`.
Sixteen bytes whose first word is `2^20`: a type stack of `2^20` entries is allocated before the
loop panics at `data[16:24]`.  Sixteen `0xFF` bytes: the first word is the `int` `-1`, and `make`
panics. -/
theorem parseSerializedValue_overread :
    (parseSerializedValue ⟨List.replicate 10 0, List.replicate 6 0⟩).trace =
        [.slice 0 8, .slice 8 16, .make 0, .slice 16 16, .slice 16 10] ∧
      (parseSerializedValue ⟨List.replicate 10 0, List.replicate 6 0⟩).result =
        .error (.sliceB 16 10) ∧
      (parseSerializedValue ⟨putBE 8 (2 ^ 20) ++ putBE 8 0, []⟩).trace =
        [.slice 0 8, .slice 8 16, .make (2 ^ 20), .slice 16 24] ∧
      (parseSerializedValue ⟨putBE 8 (2 ^ 20) ++ putBE 8 0, []⟩).result =
        .error (.sliceAcap 24 16) ∧
      (parseSerializedValue ⟨List.replicate 16 0xFF, []⟩).result = .error .makeSliceLen :=
  ⟨by decide, by decide, by decide, by decide,
    (parseSerializedValue_malformed _).2.2.2.1 (by decide) (by decide)⟩

end Graphvent
