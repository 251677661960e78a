import Graphvent.Serialize.Value
import Graphvent.Context.NewContext
import Mathlib.Data.List.Forall2
import Mathlib.Data.List.Perm.Subperm

/-!
# Reading a serialized value back

Every deserializer `NewContext` registers returns an error, so nothing in the code reads a
`SerializedValue` back.  This file writes the reader the encoding calls for, `decode`, one reader
per kind put together by recursion on the type as `serializeValue` is, and proves where it
inverts `serializeValue`, and where nothing can.

* `roundTrip_serializeValue`: on a type whose struct fields all carry a non-empty `gv` tag and
  whose arrays are empty, `decode` reads every value back from its data, whatever follows it;
* `typeStack_eq_typeOnly`: on a type with no slice outside a struct or an array, a value's stack
  is the type's own;
* `typeStack_and_encoding_slips`: so on those types the stack is the type's, and the encoding
  determines the value; but a non-empty slice has two tags more than its type alone, and all the
  non-empty values of an array type have one encoding, the data the loop writes being lost;
* `serializeValue_map_order`: the encoding is injective in a map's list of entries, so two
  enumeration orders of one map encode differently.

The reader of a struct looks each field's bytes up by the index in its tag; that the index of
every field is its own rests on the serializer's check that the indices cover `0 … n-1`
(`fieldList_of_writes`).
-/

namespace Graphvent

/-! ### Readers -/

/-- A reader: the value at the front of the bytes and the bytes after it. -/
abbrev Decoder := List UInt8 → Option (Val × List UInt8)

/-- `n` values read one after the other. -/
def decodeMany (dec : Decoder) : ℕ → List UInt8 → Option (List Val × List UInt8)
  | 0, bytes => some ([], bytes)
  | n + 1, bytes => do
    let (v, bytes) ← dec bytes
    let (vs, bytes) ← decodeMany dec n bytes
    pure (v :: vs, bytes)

/-- `n` byte strings, each after its length in eight bytes. -/
def byteStrings : ℕ → List UInt8 → List (List UInt8) × List UInt8
  | 0, bytes => ([], bytes)
  | n + 1, bytes =>
    let len := getBE (bytes.take 8)
    let (bs, rest) := byteStrings n ((bytes.drop 8).drop len)
    ((bytes.drop 8).take len :: bs, rest)

/-- The data of a marshalled `SerializedValue`. -/
def marshalledData (bytes : List UInt8) : List UInt8 :=
  (bytes.drop (16 + 8 * getBE (bytes.take 8))).take (getBE ((bytes.drop 8).take 8))

/-- A pointer: `0x00` and the target, or `0x01` and `skip` bytes of the element type's data. -/
def pointerDecode (skip : ℕ) (elem : Decoder) : Decoder
  | 0 :: rest => (elem rest).map fun (v, rest) => (.pointer (some v), rest)
  | 1 :: rest => some (.pointer none, rest.drop skip)
  | _ => none

/-- The fields of a struct from the marshalled fields listed by index: each field's value is in
the entry its tag names. -/
def fieldsDecode : List (Option String × Decoder) → List (List UInt8) → Option (List Val)
  | [], _ => some []
  | (none, _) :: _, _ => none
  | (some gvTag, dec) :: rest, fieldList => do
    let i ← (atoi gvTag).toOption
    let bytes ← fieldList.get? i.toNat
    let (v, _) ← dec (marshalledData bytes)
    let vs ← fieldsDecode rest fieldList
    pure (v :: vs)

/-- A struct: the number of marshalled fields, each after its length, then the fields. -/
def structDecode (fields : List (Option String × Decoder)) : Decoder := fun bytes =>
  let (fieldList, rest) := byteStrings (getBE (bytes.take 8)) (bytes.drop 8)
  (fieldsDecode fields fieldList).map fun vs => (.struct vs, rest)

/-- An unsigned integer of `width` bytes. -/
def uintDecode (width : ℕ) : Decoder := fun bytes =>
  some (.uint (getBE (bytes.take width)), bytes.drop width)

/-- A string: its length in eight bytes, then its bytes. -/
def stringDecode : Decoder := fun bytes =>
  let len := getBE (bytes.take 8)
  some (.string ((bytes.drop 8).take len), (bytes.drop 8).drop len)

/-- An empty array: eight bytes. -/
def emptyArrayDecode : Decoder := fun bytes => some (.array [], bytes.drop 8)

/-- A map: `nil` for the length `2^64 - 1`, else that many keys, then as many elements. -/
def mapDecode (key elem : Decoder) : Decoder := fun bytes =>
  let len := getBE (bytes.take 8)
  if len = 2 ^ 64 - 1 then some (.map none, bytes.drop 8) else do
    let (ks, rest) ← decodeMany key len (bytes.drop 8)
    let (vs, rest) ← decodeMany elem len rest
    pure (.map (some (ks.zip vs)), rest)

/-- A slice: `nil` for the length `2^64 - 1`, else that many elements. -/
def sliceDecode (elem : Decoder) : Decoder := fun bytes =>
  let len := getBE (bytes.take 8)
  if len = 2 ^ 64 - 1 then some (.slice none, bytes.drop 8) else
    (decodeMany elem len (bytes.drop 8)).map fun (vs, rest) => (.slice (some vs), rest)

section

variable (kinds : Kind → Option ℕ)

/-- The data `serializeValue` gives for the type alone. -/
def typeOnlyData (t : Ty) : List UInt8 :=
  match serializeValue kinds t none with
  | .ok s => s.data
  | .error _ => []

mutual

/-- The reader of a type. -/
def decode : Ty → Decoder
  | .pointer elem => pointerDecode (typeOnlyData kinds elem).length (decode elem)
  | .struct _ fields => structDecode (fieldDecoders fields)
  | .int => fun _ => none
  | .uint8 => uintDecode 1
  | .uint32 => uintDecode 4
  | .uint64 => uintDecode 8
  | .string => stringDecode
  | .array _ _ => emptyArrayDecode
  | .map key elem => mapDecode (decode key) (decode elem)
  | .slice elem => sliceDecode (decode elem)

/-- The `gv` tag and the reader of each field. -/
def fieldDecoders : Fields → List (Option String × Decoder)
  | .nil => []
  | .cons gv type rest => (gv, decode type) :: fieldDecoders rest

end

theorem fieldDecoders_eq :
    ∀ fields : Fields, fieldDecoders kinds fields = fields.toList.map fun f => (f.1, decode kinds f.2)
  | .nil => rfl
  | .cons _ _ rest => congrArg _ (fieldDecoders_eq rest)

end

/-- `dec` reads back every value of `P` that `ser` encodes, from its data followed by anything;
the data is shorter than `2^63` bytes, as every Go slice. -/
def RoundTrip (P : Val → Bool) (ser : Serializer) (dec : Decoder) : Prop :=
  ∀ ⦃v : Val⦄ ⦃s : SerializedValue⦄, P v → ser (some v) = .ok s → s.data.length < 2 ^ 63 →
    ∀ rest, dec (s.data ++ rest) = some (v, rest)

/-! ### Bytes -/

theorem getBE_putBE_of_lt {w v : ℕ} (h : v < 2 ^ (8 * w)) : getBE (putBE w v) = v := by
  rw [getBE_putBE, Nat.mod_eq_of_lt (by rwa [pow_mul] at h)]

theorem uint8_ofNat_toNat (b : UInt8) : UInt8.ofNat b.toNat = b := by
  apply UInt8.eq_of_toBitVec_eq
  simp [UInt8.ofNat, UInt8.toNat]

theorem length_flatten_putBE (w : ℕ) (l : List ℕ) :
    ((l.map (putBE w)).flatten).length = w * l.length := by
  induction l with
  | nil => simp
  | cons _ _ ih => simp [ih, Nat.mul_succ]; omega

theorem length_le_flatten {xs : List (List UInt8)} {x : List UInt8} (h : x ∈ xs) :
    x.length ≤ xs.flatten.length := by
  induction xs with
  | nil => cases h
  | cons y ys ih =>
    rcases List.mem_cons.1 h with rfl | h
    · simp
    · simp only [List.flatten_cons, List.length_append]; have := ih h; omega

theorem length_marshalBinary (s : SerializedValue) :
    s.marshalBinary.length = 16 + 8 * s.typeStack.length + s.data.length := by
  simp only [SerializedValue.marshalBinary, List.length_append, length_putBE, length_flatten_putBE]

theorem marshalledData_marshalBinary {s : SerializedValue} (h : s.marshalBinary.length < 2 ^ 63) :
    marshalledData s.marshalBinary = s.data := by
  rw [length_marshalBinary] at h
  have hL : getBE (putBE 8 s.typeStack.length) = s.typeStack.length :=
    getBE_putBE_of_lt (by omega)
  have hD : getBE (putBE 8 s.data.length) = s.data.length := getBE_putBE_of_lt (by omega)
  have hpre : (putBE 8 s.typeStack.length ++ putBE 8 s.data.length ++
      (s.typeStack.map (putBE 8)).flatten).length = 16 + 8 * s.typeStack.length := by
    simp only [List.length_append, length_putBE, length_flatten_putBE]
  have h₁ : s.marshalBinary.take 8 = putBE 8 s.typeStack.length := by
    simp only [SerializedValue.marshalBinary, List.append_assoc, take_putBE_append]
  have h₂ : (s.marshalBinary.drop 8).take 8 = putBE 8 s.data.length := by
    simp only [SerializedValue.marshalBinary, List.append_assoc, drop_putBE_append,
      take_putBE_append]
  rw [marshalledData, h₁, h₂, hL, hD, SerializedValue.marshalBinary, List.drop_left' hpre,
    List.take_length]

/-! ### Reading runs of values -/

theorem decodeMany_flatten {P : Val → Bool} {ser : Serializer} {dec : Decoder}
    (h : RoundTrip P ser dec) :
    ∀ {vs : List Val} {ss : List SerializedValue},
      List.Forall₂ (fun v s => ser (some v) = .ok s) vs ss → (∀ v ∈ vs, P v) →
      (ss.map SerializedValue.data).flatten.length < 2 ^ 63 →
      ∀ rest, decodeMany dec vs.length ((ss.map SerializedValue.data).flatten ++ rest) = some (vs, rest)
  | [], [], .nil, _, _, _ => rfl
  | v :: vs, s :: ss, .cons hs hss, hP, hfit, rest => by
    simp only [List.map_cons, List.flatten_cons, List.length_append] at hfit ⊢
    have hv := h (hP v (List.mem_cons_self _ _)) hs (by omega)
      ((ss.map SerializedValue.data).flatten ++ rest)
    have hvs := decodeMany_flatten h hss (fun w hw => hP w (List.mem_cons_of_mem _ hw)) (by omega) rest
    simp [decodeMany, hv, hvs]

theorem byteStrings_flatten :
    ∀ (bs : List (List UInt8)) (rest : List UInt8), (∀ b ∈ bs, b.length < 2 ^ 64) →
      byteStrings bs.length ((bs.map fun b => putBE 8 b.length ++ b).flatten ++ rest) = (bs, rest)
  | [], _, _ => rfl
  | b :: bs, rest, h => by
    have hb : getBE (putBE 8 b.length) = b.length := getBE_putBE_of_lt (h b (List.mem_cons_self _ _))
    simp only [List.length_cons, List.map_cons, List.flatten_cons, byteStrings, List.append_assoc,
      take_putBE_append, drop_putBE_append, hb, List.take_left, List.drop_left,
      byteStrings_flatten bs rest fun b' hb' => h b' (List.mem_cons_of_mem _ hb')]

/-! ### The struct serializer's field list -/

section

variable {kinds : Kind → Option ℕ}

theorem uint8_data {y : UInt8} {s : SerializedValue}
    (h : withKind kinds .uint8 uint8Serialize (some (.uint y.toNat)) = .ok s) : s.data = [y] := by
  obtain ⟨c, -, h⟩ := withKind_eq_ok.1 h
  simp only [uint8Serialize, pure, Except.pure, Except.ok.injEq] at h
  rw [← h, uint8_ofNat_toNat]

theorem uint8s_data : ∀ {xs : List UInt8} {ss : List SerializedValue},
    List.Forall₂ (fun v s => withKind kinds .uint8 uint8Serialize (some v) = .ok s)
      (xs.map fun x => Val.uint x.toNat) ss → (ss.map SerializedValue.data).flatten = xs
  | [], [], .nil => rfl
  | _ :: _, _ :: _, .cons h hs => by simp [uint8_data h, uint8s_data hs]

theorem bytes_data {b : List UInt8} (hb : b ≠ []) {e : SerializedValue}
    (h : (withKind kinds .slice fun c => sliceSerialize c (withKind kinds .uint8 uint8Serialize))
      (some (.slice (some (b.map fun x => .uint x.toNat)))) = .ok e) :
    e.data = putBE 8 b.length ++ b := by
  obtain ⟨x, xs, rfl⟩ := List.exists_cons_of_ne_nil hb
  obtain ⟨c, -, h⟩ := withKind_eq_ok.1 h
  simp only [List.map_cons, sliceSerialize, bind_eq_ok, mapM_eq_ok, pure_eq_ok] at h
  obtain ⟨first, hfirst, elements, hel, rfl⟩ := h
  simp [uint8_data hfirst, uint8s_data hel]

theorem bytesList_data : ∀ {bs : List (List UInt8)} {ss : List SerializedValue}, (∀ b ∈ bs, b ≠ []) →
    List.Forall₂ (fun v s => (withKind kinds .slice fun c =>
      sliceSerialize c (withKind kinds .uint8 uint8Serialize)) (some v) = .ok s)
      (bs.map fun b => .slice (some (b.map fun x => .uint x.toNat))) ss →
    (ss.map SerializedValue.data).flatten = (bs.map fun b => putBE 8 b.length ++ b).flatten
  | [], [], _, .nil => rfl
  | _ :: _, _ :: _, hb, .cons h hs => by
    simp [bytes_data (hb _ (List.mem_cons_self _ _)) h,
      bytesList_data (fun b h' => hb b (List.mem_cons_of_mem _ h')) hs]

theorem byteListsSerialize_data {bs : List (List UInt8)} (hb : ∀ b ∈ bs, b ≠ [])
    {l : SerializedValue}
    (h : byteListsSerialize kinds
      (some (.slice (some (bs.map fun b => .slice (some (b.map fun x => .uint x.toNat)))))) = .ok l) :
    l.data = putBE 8 bs.length ++ (bs.map fun b => putBE 8 b.length ++ b).flatten := by
  obtain ⟨c, -, h⟩ := withKind_eq_ok.1 h
  cases bs with
  | nil =>
    simp only [List.map_nil, sliceSerialize, sliceSerialize.typeOnly, bind_eq_ok] at h
    obtain ⟨e, -, h⟩ := h
    cases h
    simp
  | cons b bs =>
    simp only [List.map_cons, sliceSerialize, bind_eq_ok, mapM_eq_ok, pure_eq_ok] at h
    obtain ⟨first, hfirst, elements, hel, rfl⟩ := h
    simp [bytes_data (hb b (List.mem_cons_self _ _)) hfirst,
      bytesList_data (fun b' h' => hb b' (List.mem_cons_of_mem _ h')) hel]

end

/-! ### The struct serializer's writes -/

/-- The map after the writes `m[i] = bytes`, in order. -/
def applyWrites (m : ℤ → Option (List UInt8)) (ws : List (ℤ × List UInt8)) :
    ℤ → Option (List UInt8) :=
  ws.foldl (fun m w => Function.update m w.1 (some w.2)) m

@[simp] theorem applyWrites_cons (m : ℤ → Option (List UInt8)) (w : ℤ × List UInt8)
    (ws : List (ℤ × List UInt8)) :
    applyWrites m (w :: ws) = applyWrites (Function.update m w.1 (some w.2)) ws := rfl

theorem applyWrites_of_not_mem : ∀ {ws : List (ℤ × List UInt8)} {m : ℤ → Option (List UInt8)} {k : ℤ},
    k ∉ ws.map Prod.fst → applyWrites m ws k = m k
  | [], _, _, _ => rfl
  | w :: ws, m, k, h => by
    simp only [List.map_cons, List.mem_cons, not_or] at h
    rw [applyWrites_cons, applyWrites_of_not_mem h.2, Function.update_noteq h.1]

theorem applyWrites_of_nodup : ∀ {ws : List (ℤ × List UInt8)} {m : ℤ → Option (List UInt8)}
    {w : ℤ × List UInt8}, (ws.map Prod.fst).Nodup → w ∈ ws → applyWrites m ws w.1 = some w.2
  | w' :: ws, m, w, hnd, hw => by
    rw [List.map_cons, List.nodup_cons] at hnd
    rw [applyWrites_cons]
    rcases List.mem_cons.1 hw with rfl | hw
    · rw [applyWrites_of_not_mem hnd.1, Function.update_same]
    · exact applyWrites_of_nodup hnd.2 hw

theorem mem_of_applyWrites : ∀ {ws : List (ℤ × List UInt8)} {m : ℤ → Option (List UInt8)} {k : ℤ}
    {b : List UInt8}, applyWrites m ws k = some b → m k = some b ∨ (k, b) ∈ ws
  | [], _, _, _, h => .inl h
  | w :: ws, m, k, b, h => by
    rw [applyWrites_cons] at h
    rcases mem_of_applyWrites h with h | h
    · by_cases hk : k = w.1
      · subst hk
        rw [Function.update_same, Option.some.injEq] at h
        exact .inr (h ▸ List.mem_cons_self _ _)
      · exact .inl (by rwa [Function.update_noteq hk] at h)
    · exact .inr (List.mem_cons_of_mem _ h)

/-- The field list of a successful struct serialization: the check that every index below the
number of tagged fields was written makes the written indices exactly `0 … n-1`, each once, so
the entry at each field's index is that field's. -/
theorem fieldList_of_writes {ws : List (ℤ × List UInt8)} {msg : ℕ → String}
    {fieldList : List (List UInt8)}
    (h : (List.range ws.length).mapM (fun (i : ℕ) =>
      (match applyWrites (fun _ => none) ws i with
        | some bytes => pure bytes
        | none => throw (msg i) : Except String (List UInt8))) = .ok fieldList) :
    (∀ b ∈ fieldList, ∃ w ∈ ws, w.2 = b) ∧ ∀ w ∈ ws, fieldList.get? w.1.toNat = some w.2 := by
  rw [mapM_eq_ok] at h
  have hlen : fieldList.length = ws.length := by simpa using h.length_eq.symm
  have hat : ∀ j (hj : j < fieldList.length),
      applyWrites (fun _ => none) ws j = some (fieldList.get ⟨j, hj⟩) := by
    intro j hj
    have hj' := h.get (by simpa [hlen] using hj) hj
    simp only [List.get_eq_getElem, List.getElem_range] at hj' ⊢
    split at hj'
    · rename_i heq
      rw [heq, pure_eq_ok.1 hj']
    · cases hj'
  have hkeys : ∀ j < ws.length, (j : ℤ) ∈ ws.map Prod.fst := fun j hj => by
    by_contra hk
    have := hat j (hlen ▸ hj)
    rw [applyWrites_of_not_mem hk] at this
    cases this
  have hnd₀ := (List.nodup_range ws.length).map (f := (Nat.cast : ℕ → ℤ)) Nat.cast_injective
  have hperm : ((List.range ws.length).map (Nat.cast : ℕ → ℤ)).Perm (ws.map Prod.fst) :=
    (hnd₀.subperm fun k hk => by
      obtain ⟨j, hj, rfl⟩ := List.mem_map.1 hk
      exact hkeys j (List.mem_range.1 hj)).perm_of_length_le (by simp)
  have hnd : (ws.map Prod.fst).Nodup := hperm.nodup_iff.1 hnd₀
  refine ⟨fun b hb => ?_, fun w hw => ?_⟩
  · obtain ⟨⟨j, hj⟩, rfl⟩ := List.get_of_mem hb
    rcases mem_of_applyWrites (hat j hj) with h | h
    · cases h
    · exact ⟨_, h, rfl⟩
  · obtain ⟨j, hj, hjw⟩ := List.mem_map.1 (hperm.mem_iff.2 (List.mem_map_of_mem Prod.fst hw))
    have hj' : j < fieldList.length := hlen ▸ List.mem_range.1 hj
    have e := hat j hj'
    rw [hjw, applyWrites_of_nodup hnd hw] at e
    rw [← hjw, Int.toNat_natCast, List.get?_eq_get hj', e]

/-- The writes the struct serializer's loop makes when every field has a non-empty `gv` tag: for
each field in order, the index its tag reads as and its value's marshalled encoding. -/
inductive FieldWrites : List (Option String × Serializer) → List Val → List (ℤ × List UInt8) → Prop
  | nil : FieldWrites [] [] []
  | cons {gvTag : String} {ser : Serializer} {v : Val} {i : ℤ} {s : SerializedValue}
      {fs : List (Option String × Serializer)} {vs : List Val} {ws : List (ℤ × List UInt8)} :
    atoi gvTag = .ok i → ser (some v) = .ok s → FieldWrites fs vs ws →
    FieldWrites ((some gvTag, ser) :: fs) (v :: vs) ((i, s.marshalBinary) :: ws)

theorem FieldWrites.marshalled {fs : List (Option String × Serializer)} {vs : List Val}
    {ws : List (ℤ × List UInt8)} (h : FieldWrites fs vs ws) :
    ∀ w ∈ ws, ∃ s : SerializedValue, w.2 = s.marshalBinary := by
  induction h with
  | nil => simp
  | cons _ _ _ ih =>
    intro w hw
    rcases List.mem_cons.1 hw with rfl | hw
    · exact ⟨_, rfl⟩
    · exact ih w hw

theorem structFields_tagged :
    ∀ {fs : List (Option String × Serializer)} {vs : List Val} {m : ℤ → Option (List UInt8)}
      {k : ℕ} {m' : ℤ → Option (List UInt8)} {n' : ℕ},
      (∀ f ∈ fs, ∃ gvTag, f.1 = some gvTag ∧ gvTag ≠ "") → vs.length = fs.length →
      structFields fs (some vs) m k = .ok (m', n') →
      ∃ ws, FieldWrites fs vs ws ∧ m' = applyWrites m ws ∧ n' = k + ws.length
  | [], [], m, k, m', n', _, _, h => by
    simp only [structFields, pure_eq_ok, Prod.mk.injEq] at h
    exact ⟨[], .nil, h.1.symm, by simp [h.2]⟩
  | [], _ :: _, _, _, _, _, _, hlen, _ => by simp at hlen
  | _ :: _, [], _, _, _, _, _, hlen, _ => by simp at hlen
  | (gv, ser) :: fs, v :: vs, m, k, m', n', htag, hlen, h => by
    obtain ⟨gvTag, hgv, hne⟩ := htag _ (List.mem_cons_self _ _)
    obtain rfl : gv = some gvTag := hgv
    simp only [structFields, Option.map_some', List.tail_cons, if_neg hne, bind_eq_ok] at h
    obtain ⟨i, hi, s, hs, h⟩ := h
    obtain ⟨ws, hws, rfl, rfl⟩ :=
      structFields_tagged (fun f hf => htag f (List.mem_cons_of_mem _ hf)) (by simpa using hlen) h
    exact ⟨(i, s.marshalBinary) :: ws, .cons hi hs hws, rfl, by simp; omega⟩

theorem fieldsDecode_of_writes {fieldList : List (List UInt8)}
    (hfl : ∀ b ∈ fieldList, b.length < 2 ^ 63) :
    ∀ {L : List (Option String × Serializer × Decoder × (Val → Bool))} {vs : List Val}
      {ws : List (ℤ × List UInt8)},
      (∀ f ∈ L, RoundTrip f.2.2.2 f.2.1 f.2.2.1) → List.Forall₂ (fun f v => f.2.2.2 v = true) L vs →
      FieldWrites (L.map fun f => (f.1, f.2.1)) vs ws →
      (∀ w ∈ ws, fieldList.get? w.1.toNat = some w.2) →
      fieldsDecode (L.map fun f => (f.1, f.2.2.1)) fieldList = some vs
  | [], [], [], _, _, _, _ => rfl
  | ⟨_, ser, dec, P⟩ :: _, _ :: _, _ :: _, hL, .cons hv hvs, .cons hi hs hws, hget => by
    have hb := hget _ (List.mem_cons_self _ _)
    have hlen := hfl _ (List.get?_mem hb)
    have hdec := hL _ (List.mem_cons_self _ _) hv hs
      (by rw [length_marshalBinary] at hlen; omega) []
    have hrest := fieldsDecode_of_writes hfl (fun f hf => hL f (List.mem_cons_of_mem _ hf)) hvs hws
      (fun w hw => hget w (List.mem_cons_of_mem _ hw))
    simp only [List.append_nil] at hdec hb hlen
    rw [List.get?_eq_getElem?] at hb
    simp [fieldsDecode, hi, hb, marshalledData_marshalBinary hlen, hdec, hrest, Except.toOption]

theorem length_le_flatten_framed (bs : List (List UInt8)) :
    bs.length ≤ ((bs.map fun b => putBE 8 b.length ++ b).flatten).length := by
  induction bs with
  | nil => simp
  | cons _ _ ih => simp only [List.map_cons, List.flatten_cons, List.length_append,
      List.length_cons, length_putBE]; omega

/-- **Structs.**  When every field has a non-empty `gv` tag and its reader reads back its
serializer's encodings, the struct reader reads back the struct serializer's. -/
theorem structSerialize_roundTrip (kinds : Kind → Option ℕ)
    {L : List (Option String × Serializer × Decoder × (Val → Bool))}
    (htag : ∀ f ∈ L, ∃ gvTag, f.1 = some gvTag ∧ gvTag ≠ "")
    (hL : ∀ f ∈ L, RoundTrip f.2.2.2 f.2.1 f.2.2.1) {c : ℕ} {name : String} {vs : List Val}
    {s : SerializedValue} (hv : List.Forall₂ (fun f v => f.2.2.2 v = true) L vs)
    (hs : structSerialize c name (L.map fun f => (f.1, f.2.1)) (byteListsSerialize kinds)
      (some (.struct vs)) = .ok s)
    (hfit : s.data.length < 2 ^ 63) (rest : List UInt8) :
    structDecode (L.map fun f => (f.1, f.2.2.1)) (s.data ++ rest) = some (.struct vs, rest) := by
  simp only [structSerialize, bind_eq_ok, pure_eq_ok] at hs
  obtain ⟨_, rfl, ⟨m, n⟩, hm, fieldList, hfl, l, hl, rfl⟩ := hs
  obtain ⟨ws, hws, rfl, rfl⟩ := structFields_tagged
    (fun f hf => by obtain ⟨g, hg, rfl⟩ := List.mem_map.1 hf; exact htag g hg)
    (by simpa using hv.length_eq.symm) hm
  simp only [Nat.zero_add] at hfl
  obtain ⟨hfield, hget⟩ := fieldList_of_writes hfl
  have hne : ∀ b ∈ fieldList, b ≠ [] := fun b hb h => by
    obtain ⟨w, hw, rfl⟩ := hfield b hb
    obtain ⟨s, hs⟩ := hws.marshalled w hw
    have := congrArg List.length (hs ▸ h)
    simp [length_marshalBinary] at this
  have hdata := byteListsSerialize_data hne hl
  simp only [hdata, List.length_append, length_putBE] at hfit ⊢
  have hbound : ∀ b ∈ fieldList, b.length < 2 ^ 63 := fun b hb => by
    have := length_le_flatten (List.mem_map_of_mem (fun b => putBE 8 b.length ++ b) hb)
    simp only [List.length_append, length_putBE] at this
    omega
  have hn : getBE (putBE 8 fieldList.length) = fieldList.length :=
    getBE_putBE_of_lt (by have := length_le_flatten_framed fieldList; omega)
  simp only [structDecode, List.append_assoc, take_putBE_append, drop_putBE_append, hn,
    byteStrings_flatten _ _ fun b hb => by have := hbound b hb; omega,
    fieldsDecode_of_writes hbound hL hv hws hget]
  rfl

/-! ### The other kinds -/

section

variable {P Pk Pe : Val → Bool} {ser serK serE : Serializer} {dec decK decE : Decoder}

theorem withKind_roundTrip {kinds : Kind → Option ℕ} {kind : Kind} {f : ℕ → Serializer}
    (h : ∀ c, RoundTrip P (f c) dec) : RoundTrip P (withKind kinds kind f) dec := by
  intro v s hv hs
  obtain ⟨c, -, hs⟩ := withKind_eq_ok.1 hs
  exact h c hv hs

/-- **Pointers**, when `skip` is the length of the element type's own data. -/
theorem pointerSerialize_roundTrip (h : RoundTrip P ser dec) {skip : ℕ}
    (hskip : ∀ e, ser none = .ok e → e.data.length = skip) (c : ℕ) :
    RoundTrip (pointerValue P) (pointerSerialize c ser) (pointerDecode skip dec) := by
  intro v s hv hs hfit rest
  match v, hv with
  | .pointer none, _ =>
    simp only [pointerSerialize, bind_eq_ok, pure_eq_ok] at hs
    obtain ⟨_, rfl, e, he, rfl⟩ := hs
    simp [pointerDecode, ← hskip e he]
  | .pointer (some w), hw =>
    simp only [pointerSerialize, bind_eq_ok, pure_eq_ok] at hs
    obtain ⟨_, rfl, e, he, rfl⟩ := hs
    simp only [List.length_append, List.length_singleton] at hfit
    simp [pointerDecode, h hw he (by omega) rest]

theorem intSerialize_roundTrip (c : ℕ) : RoundTrip intValue (intSerialize c) fun _ => none := by
  intro v s _ hs
  cases hs

theorem uintDecode_putBE {w v : ℕ} (hv : v < 2 ^ (8 * w)) (rest : List UInt8) :
    uintDecode w (putBE w v ++ rest) = some (.uint v, rest) := by
  simp [uintDecode, getBE_putBE_of_lt hv]

theorem uint8Serialize_roundTrip (c : ℕ) : RoundTrip (uintValue 1) (uint8Serialize c) (uintDecode 1) := by
  intro v s hv hs _ rest
  match v, hv with
  | .uint n, hn =>
    simp only [uint8Serialize, pure_eq_ok] at hs
    subst hs
    simpa [putBE] using uintDecode_putBE (show n < 2 ^ (8 * 1) by simpa [uintValue] using hn) rest

theorem uint32Serialize_roundTrip (c : ℕ) :
    RoundTrip (uintValue 4) (uint32Serialize c) (uintDecode 4) := by
  intro v s hv hs _ rest
  match v, hv with
  | .uint n, hn =>
    simp only [uint32Serialize, pure_eq_ok] at hs
    subst hs
    exact uintDecode_putBE (show n < 2 ^ (8 * 4) by simpa [uintValue] using hn) rest

theorem uint64Serialize_roundTrip (c : ℕ) :
    RoundTrip (uintValue 8) (uint64Serialize c) (uintDecode 8) := by
  intro v s hv hs _ rest
  match v, hv with
  | .uint n, hn =>
    simp only [uint64Serialize, pure_eq_ok] at hs
    subst hs
    exact uintDecode_putBE (show n < 2 ^ (8 * 8) by simpa [uintValue] using hn) rest

theorem stringSerialize_roundTrip (c : ℕ) :
    RoundTrip stringValue (stringSerialize c) stringDecode := by
  intro v s hv hs _ rest
  match v, hv with
  | .string b, hb =>
    simp only [stringSerialize, pure_eq_ok] at hs
    subst hs
    have hlen : getBE (putBE 8 b.length) = b.length :=
      getBE_putBE_of_lt (by simp [stringValue] at hb; omega)
    simp [stringDecode, hlen]

/-- **Empty arrays.** -/
theorem arraySerialize_roundTrip (c : ℕ) :
    RoundTrip (arrayValue 0 P) (arraySerialize c ser) emptyArrayDecode := by
  intro v s hv hs _ rest
  match v, hv with
  | .array [], _ =>
    simp only [arraySerialize, bind_eq_ok, pure_eq_ok] at hs
    obtain ⟨_, rfl, e, -, rfl⟩ := hs
    simp [emptyArrayDecode]
  | .array (_ :: _), hv => simp [arrayValue] at hv

theorem getBE_nil_length (rest : List UInt8) :
    getBE ((List.replicate 8 0xFF ++ rest).take 8) = 2 ^ 64 - 1 := by
  rw [List.take_left' (by simp)]
  decide

theorem foldl_mapStep_data :
    ∀ (pairs : List (SerializedValue × SerializedValue)) (kd vd : List UInt8) (kt vt : List ℕ),
      (pairs.foldl mapStep (kd, vd, kt, vt)).1 = kd ++ (pairs.map fun p => p.1.data).flatten ∧
      (pairs.foldl mapStep (kd, vd, kt, vt)).2.1 = vd ++ (pairs.map fun p => p.2.data).flatten
  | [], _, _, _, _ => by simp
  | p :: ps, kd, vd, kt, vt => by
    simp only [List.foldl_cons, mapStep]
    obtain ⟨h₁, h₂⟩ := foldl_mapStep_data ps (kd ++ p.1.data) (vd ++ p.2.data)
      (if kt = [] then p.1.typeStack else kt) (if kt = [] then p.2.typeStack else vt)
    split_ifs at h₁ h₂ ⊢ <;> simp [h₁, h₂]

theorem mapPairs_ok : ∀ {entries : List (Val × Val)} {pairs : List (SerializedValue × SerializedValue)},
    entries.mapM (fun (k, v) => do
      let key ← serK (some k)
      let val ← serE (some v)
      pure (key, val)) = .ok pairs →
    List.Forall₂ (fun k s => serK (some k) = .ok s) (entries.map Prod.fst) (pairs.map Prod.fst) ∧
    List.Forall₂ (fun v s => serE (some v) = .ok s) (entries.map Prod.snd) (pairs.map Prod.snd)
  | [], pairs, h => by
    rw [mapM_eq_ok] at h
    cases h
    simp
  | (k, v) :: entries, pairs, h => by
    simp only [List.mapM_cons, bind_eq_ok, pure_eq_ok] at h
    obtain ⟨_, ⟨key, hk, val, hv, rfl⟩, rest, hrest, rfl⟩ := h
    obtain ⟨h₁, h₂⟩ := mapPairs_ok hrest
    exact ⟨.cons hk h₁, .cons hv h₂⟩

/-- **Maps.** -/
theorem mapSerialize_roundTrip (hk : RoundTrip Pk serK decK) (he : RoundTrip Pe serE decE)
    (c : ℕ) : RoundTrip (mapValue Pk Pe) (mapSerialize c serK serE) (mapDecode decK decE) := by
  intro v s hv hs hfit rest
  match v, hv with
  | .map none, _ =>
    simp only [mapSerialize, mapSerialize.typeOnly, bind_eq_ok, pure_eq_ok] at hs
    obtain ⟨_, -, _, -, rfl⟩ := hs
    simp only [mapDecode, getBE_nil_length, if_true]
    rw [List.drop_left' (by simp)]
  | .map (some []), _ =>
    simp only [mapSerialize, mapSerialize.typeOnly, bind_eq_ok, pure_eq_ok] at hs
    obtain ⟨_, -, _, -, rfl⟩ := hs
    simp [mapDecode, decodeMany]
  | .map (some (e :: es)), hv =>
    simp only [mapSerialize, bind_eq_ok] at hs
    obtain ⟨pairs, hpairs, hs⟩ := hs
    obtain ⟨hkeys, hvals⟩ := mapPairs_ok hpairs
    obtain ⟨hkd, hvd⟩ := foldl_mapStep_data pairs [] [] [] []
    rcases hf : pairs.foldl mapStep ([], [], [], []) with ⟨kd, vd, kt, vt⟩
    rw [hf] at hs hkd hvd
    simp only [pure_eq_ok] at hs
    subst hs
    simp only [List.nil_append] at hkd hvd
    subst hkd hvd
    simp only [mapValue, Bool.and_eq_true, decide_eq_true_eq, List.all_eq_true,
      List.length_cons] at hv
    have hlen : pairs.length = es.length + 1 := by simpa using hkeys.length_eq.symm
    simp only [List.length_append, length_putBE, hlen] at hfit ⊢
    have hn : getBE (putBE 8 (es.length + 1)) = es.length + 1 :=
      getBE_putBE_of_lt (by have := hv.1; omega)
    have hks := decodeMany_flatten hk hkeys
      (fun k hk => by obtain ⟨p, hp, rfl⟩ := List.mem_map.1 hk; exact (hv.2 p hp).1)
      (by simp only [List.map_map, Function.comp_def]; omega)
      ((pairs.map fun p => p.2.data).flatten ++ rest)
    have hvs := decodeMany_flatten he hvals
      (fun v hv' => by obtain ⟨p, hp, rfl⟩ := List.mem_map.1 hv'; exact (hv.2 p hp).2)
      (by simp only [List.map_map, Function.comp_def]; omega) rest
    simp only [List.map_map, Function.comp_def, List.length_map, List.length_cons] at hks hvs
    simp only [mapDecode, List.append_assoc, take_putBE_append, drop_putBE_append, hn]
    rw [if_neg (by have := hv.1; omega)]
    simpa [hks, hvs, List.unzip_eq_map] using List.zip_unzip es

/-- **Slices.** -/
theorem sliceSerialize_roundTrip (h : RoundTrip P ser dec) (c : ℕ) :
    RoundTrip (sliceValue P) (sliceSerialize c ser) (sliceDecode dec) := by
  intro v s hv hs hfit rest
  match v, hv with
  | .slice none, _ =>
    simp only [sliceSerialize, sliceSerialize.typeOnly, bind_eq_ok, pure_eq_ok] at hs
    obtain ⟨_, -, rfl⟩ := hs
    simp only [sliceDecode, getBE_nil_length, if_true]
    rw [List.drop_left' (by simp)]
  | .slice (some []), _ =>
    simp only [sliceSerialize, sliceSerialize.typeOnly, bind_eq_ok, pure_eq_ok] at hs
    obtain ⟨_, -, rfl⟩ := hs
    simp [sliceDecode, decodeMany]
  | .slice (some (w :: ws)), hv =>
    simp only [sliceSerialize, bind_eq_ok, pure_eq_ok, mapM_eq_ok] at hs
    obtain ⟨first, hfirst, elements, hel, rfl⟩ := hs
    simp only [sliceValue, Bool.and_eq_true, decide_eq_true_eq, List.all_eq_true,
      List.length_cons] at hv
    simp only [List.length_append, length_putBE] at hfit
    have hn : getBE (putBE 8 (ws.length + 1)) = ws.length + 1 :=
      getBE_putBE_of_lt (by have := hv.1; omega)
    have hd := decodeMany_flatten h (.cons hfirst hel) hv.2
      (by simp only [List.map_cons, List.flatten_cons, List.length_append]; omega) rest
    simp only [List.length_cons, List.map_cons, List.flatten_cons, List.append_assoc] at hd
    simp only [sliceDecode, List.append_assoc, take_putBE_append, drop_putBE_append, hn]
    rw [if_neg (by have := hv.1; omega)]
    simp [hd]

end

/-! ### Which types keep their stack, and which encode their values -/

/-- No slice type outside a struct or an array. -/
def Ty.stableStack : Ty → Bool
  | .pointer elem => elem.stableStack
  | .map key elem => key.stableStack && elem.stableStack
  | .slice _ => false
  | _ => true

mutual

/-- Every struct field has a non-empty `gv` tag, and every array type has length `0`. -/
def Ty.encodesValues : Ty → Bool
  | .pointer elem => elem.encodesValues
  | .struct _ fields => fields.encodeValues
  | .array len _ => len == 0
  | .map key elem => key.encodesValues && elem.encodesValues
  | .slice elem => elem.encodesValues
  | .int | .uint8 | .uint32 | .uint64 | .string => true

/-- Every field has a non-empty `gv` tag, and its type encodes its values. -/
def Fields.encodeValues : Fields → Bool
  | .nil => true
  | .cons gv type rest => gv.any (· != "") && type.encodesValues && rest.encodeValues

end

/-! ### The round trip -/

theorem haveTypes_iff : ∀ (fields : Fields) (vs : List Val),
    fields.haveTypes vs = true ↔ List.Forall₂ (fun f v => f.2.hasType v = true) fields.toList vs
  | .nil, [] => by simp [Fields.haveTypes, Fields.toList]
  | .nil, _ :: _ => by simp [Fields.haveTypes, Fields.toList]
  | .cons _ _ _, [] => by simp [Fields.haveTypes, Fields.toList]
  | .cons _ _ rest, _ :: vs => by simp [Fields.haveTypes, Fields.toList, haveTypes_iff rest vs]

section

variable (kinds : Kind → Option ℕ)

mutual

/-- **Round trip.**  On a type whose struct fields all have a non-empty `gv` tag and whose arrays
are empty, `decode` reads every value back from the data `serializeValue` gives it, whatever
follows. -/
theorem roundTrip_serializeValue : ∀ t : Ty, t.encodesValues = true →
    RoundTrip t.hasType (serializeValue kinds t) (decode kinds t)
  | .pointer elem, h => withKind_roundTrip fun c =>
    pointerSerialize_roundTrip (roundTrip_serializeValue elem h)
      (fun e he => by simp [typeOnlyData, he]) c
  | .struct _ fields, h => withKind_roundTrip fun c v _ hv hs hfit rest => by
    have hF := roundTrip_fields fields h
    let L := fields.toList.map fun f =>
      (f.1, serializeValue kinds f.2, decode kinds f.2, f.2.hasType)
    have hser : fieldSerializers kinds fields = L.map fun f => (f.1, f.2.1) := by
      rw [fieldSerializers_eq, List.map_map]; rfl
    have hdec : fieldDecoders kinds fields = L.map fun f => (f.1, f.2.2.1) := by
      rw [fieldDecoders_eq, List.map_map]; rfl
    match v, hv with
    | .struct vs, hv =>
      rw [hser] at hs
      show structDecode (fieldDecoders kinds fields) _ = _
      rw [hdec]
      refine structSerialize_roundTrip kinds (fun f hf => ?_) (fun f hf => ?_)
        (List.forall₂_map_left_iff.2 ((haveTypes_iff fields vs).1 hv)) hs hfit rest
      · obtain ⟨g, hg, rfl⟩ := List.mem_map.1 hf
        exact (hF g hg).1
      · obtain ⟨g, hg, rfl⟩ := List.mem_map.1 hf
        exact (hF g hg).2
  | .int, _ => withKind_roundTrip intSerialize_roundTrip
  | .uint8, _ => withKind_roundTrip uint8Serialize_roundTrip
  | .uint32, _ => withKind_roundTrip uint32Serialize_roundTrip
  | .uint64, _ => withKind_roundTrip uint64Serialize_roundTrip
  | .string, _ => withKind_roundTrip stringSerialize_roundTrip
  | .array len _, h => by
    obtain rfl : len = 0 := by simpa [Ty.encodesValues] using h
    exact withKind_roundTrip arraySerialize_roundTrip
  | .map key elem, h => by
    simp only [Ty.encodesValues, Bool.and_eq_true] at h
    exact withKind_roundTrip (mapSerialize_roundTrip (roundTrip_serializeValue key h.1)
      (roundTrip_serializeValue elem h.2))
  | .slice elem, h => withKind_roundTrip (sliceSerialize_roundTrip (roundTrip_serializeValue elem h))

theorem roundTrip_fields : ∀ fields : Fields, fields.encodeValues = true →
    ∀ f ∈ fields.toList, (∃ gvTag, f.1 = some gvTag ∧ gvTag ≠ "") ∧
      RoundTrip f.2.hasType (serializeValue kinds f.2) (decode kinds f.2)
  | .nil, _ => by simp [Fields.toList]
  | .cons none _ _, h => by simp [Fields.encodeValues] at h
  | .cons (some gvTag) type rest, h => by
    simp only [Fields.encodeValues, Option.any_some, Bool.and_eq_true, bne_iff_ne, ne_eq] at h
    intro f hf
    rcases List.mem_cons.1 hf with rfl | hf
    · exact ⟨⟨gvTag, rfl, h.1.1⟩, roundTrip_serializeValue type h.1.2⟩
    · exact roundTrip_fields rest h.2 f hf

end

/-- On a type that encodes its values, the data determines the value. -/
theorem eq_of_data_eq {t : Ty} (hen : t.encodesValues = true) {v₁ v₂ : Val}
    {s₁ s₂ : SerializedValue} (h₁ : t.hasType v₁ = true) (h₂ : t.hasType v₂ = true)
    (hs₁ : serializeValue kinds t (some v₁) = .ok s₁)
    (hs₂ : serializeValue kinds t (some v₂) = .ok s₂) (hfit : s₁.data.length < 2 ^ 63)
    (hd : s₁.data = s₂.data) : v₁ = v₂ := by
  have e₁ := roundTrip_serializeValue kinds t hen h₁ hs₁ hfit []
  rw [hd, roundTrip_serializeValue kinds t hen h₂ hs₂ (hd ▸ hfit) []] at e₁
  simpa using e₁.symm

/-! ### The stack -/

/-- `ser` gives every value of `P` the stack it gives the type alone, which it gives without
error. -/
def KeepsStack (P : Val → Bool) (ser : Serializer) : Prop :=
  ∀ ⦃v : Val⦄ ⦃s : SerializedValue⦄, P v → ser (some v) = .ok s →
    ∃ s₀, ser none = .ok s₀ ∧ s.typeStack = s₀.typeStack

theorem structFields_none : ∀ (fs : List (Option String × Serializer)) (m : ℤ → Option (List UInt8))
    (k : ℕ), structFields fs none m k = .ok (m, k)
  | [], _, _ => rfl
  | (gv, _) :: fs, m, k => by cases gv <;> simp [structFields, structFields_none fs m k]

theorem structSerialize_none {c : ℕ} {name : String} {fs : List (Option String × Serializer)}
    {ls : Serializer} {l : SerializedValue} (hl : ls (some (.slice (some []))) = .ok l) :
    structSerialize c name fs ls none = .ok ⟨[c], l.data⟩ := by
  simp [structSerialize, structFields_none, bind, Except.bind, pure, Except.pure, hl,
    List.mapM.loop]

theorem sliceSerialize_elem_ok {c : ℕ} {ser : Serializer} {v : Option Val} {s : SerializedValue}
    (h : sliceSerialize c ser v = .ok s) : ∃ w e, ser w = .ok e := by
  rcases v with _ | (_ | _ | _ | _ | _ | _ | _ | (_ | (_ | _))) <;>
    simp only [sliceSerialize, sliceSerialize.typeOnly, bind_eq_ok] at h <;>
    first
    | (obtain ⟨e, he, -⟩ := h; exact ⟨_, _, he⟩)
    | cases h

theorem byteListsSerialize_kinds {v : Option Val} {l : SerializedValue}
    (h : byteListsSerialize kinds v = .ok l) : (∃ a, kinds .slice = some a) ∧ ∃ b, kinds .uint8 = some b := by
  obtain ⟨a, ha, h⟩ := withKind_eq_ok.1 h
  obtain ⟨_, _, h⟩ := sliceSerialize_elem_ok h
  obtain ⟨_, -, h⟩ := withKind_eq_ok.1 h
  obtain ⟨_, _, h⟩ := sliceSerialize_elem_ok h
  obtain ⟨b, hb, -⟩ := withKind_eq_ok.1 h
  exact ⟨⟨a, ha⟩, b, hb⟩

theorem byteListsSerialize_empty {a b : ℕ} (ha : kinds .slice = some a) (hb : kinds .uint8 = some b) :
    byteListsSerialize kinds (some (.slice (some []))) = .ok ⟨[b], putBE 8 0⟩ := by
  simp [byteListsSerialize, withKind, ha, hb, sliceSerialize, sliceSerialize.typeOnly,
    uint8Serialize]

theorem foldl_mapStep_types {K V : List ℕ} :
    ∀ (pairs : List (SerializedValue × SerializedValue)) (kd vd : List UInt8),
      (∀ p ∈ pairs, p.1.typeStack = K ∧ p.2.typeStack = V) →
      (pairs.foldl mapStep (kd, vd, K, V)).2.2 = (K, V)
  | [], _, _, _ => rfl
  | p :: ps, kd, vd, h => by
    obtain ⟨hk, hv⟩ := h p (List.mem_cons_self _ _)
    simp only [List.foldl_cons, mapStep, hk, hv, ite_self]
    exact foldl_mapStep_types ps _ _ fun q hq => h q (List.mem_cons_of_mem _ hq)

theorem typeStacks_of_forall₂ {f : Serializer} {P : Val → Bool} {s₀ : SerializedValue}
    (h₀ : f none = .ok s₀) (hf : KeepsStack P f) :
    ∀ {vs : List Val} {ss : List SerializedValue}, List.Forall₂ (fun v s => f (some v) = .ok s) vs ss →
      (∀ v ∈ vs, P v = true) → ∀ s ∈ ss, s.typeStack = s₀.typeStack
  | [], [], .nil, _ => by simp
  | v :: vs, s :: ss, .cons hs hss, hP => by
    intro s' hs'
    rcases List.mem_cons.1 hs' with rfl | hs'
    · obtain ⟨s₁, h₁, hst⟩ := hf (hP v (List.mem_cons_self _ _)) hs
      rw [h₀, Except.ok.injEq] at h₁
      rw [hst, h₁]
    · exact typeStacks_of_forall₂ h₀ hf hss (fun w hw => hP w (List.mem_cons_of_mem _ hw)) s' hs'

section

variable {P Pk Pe : Val → Bool} {ser serK serE : Serializer}

theorem withKind_keepsStack {kind : Kind} {f : ℕ → Serializer} (h : ∀ c, KeepsStack P (f c)) :
    KeepsStack P (withKind kinds kind f) := by
  intro v s hv hs
  obtain ⟨c, hc, hs⟩ := withKind_eq_ok.1 hs
  obtain ⟨s₀, h₀, hst⟩ := h c hv hs
  exact ⟨s₀, withKind_eq_ok.2 ⟨c, hc, h₀⟩, hst⟩

theorem pointerSerialize_keepsStack (h : KeepsStack P ser) (c : ℕ) :
    KeepsStack (pointerValue P) (pointerSerialize c ser) := by
  intro v s hv hs
  match v, hv with
  | .pointer none, _ =>
    simp only [pointerSerialize, bind_eq_ok, pure_eq_ok] at hs
    obtain ⟨_, rfl, e, he, rfl⟩ := hs
    exact ⟨⟨c :: e.typeStack, e.data⟩, by simp [pointerSerialize, he], rfl⟩
  | .pointer (some w), hw =>
    simp only [pointerSerialize, bind_eq_ok, pure_eq_ok] at hs
    obtain ⟨_, rfl, e, he, rfl⟩ := hs
    obtain ⟨e₀, he₀, hst⟩ := h hw he
    exact ⟨⟨c :: e₀.typeStack, e₀.data⟩, by simp [pointerSerialize, he₀], by simp [hst]⟩

theorem structSerialize_keepsStack (F : List Val → Bool) (c : ℕ) (name : String)
    (fs : List (Option String × Serializer)) :
    KeepsStack (structValue F) (structSerialize c name fs (byteListsSerialize kinds)) := by
  intro v s hv hs
  match v, hv with
  | .struct vs, _ =>
    simp only [structSerialize, bind_eq_ok, pure_eq_ok] at hs
    obtain ⟨_, rfl, _, -, _, -, l, hl, rfl⟩ := hs
    obtain ⟨⟨a, ha⟩, ⟨b, hb⟩⟩ := byteListsSerialize_kinds kinds hl
    exact ⟨_, structSerialize_none (byteListsSerialize_empty kinds ha hb), rfl⟩

theorem scalar_keepsStack {f : ℕ → Serializer} (hf : ∀ c v s, f c (some v) = .ok s → s.typeStack = [c])
    (h₀ : ∀ c, ∃ d, f c none = .ok ⟨[c], d⟩) (c : ℕ) : KeepsStack P (f c) := by
  intro v s _ hs
  obtain ⟨d, hd⟩ := h₀ c
  exact ⟨_, hd, hf c v s hs⟩

theorem arraySerialize_keepsStack (c : ℕ) : KeepsStack P (arraySerialize c ser) := by
  intro v s _ hs
  simp only [arraySerialize, bind_eq_ok, pure_eq_ok] at hs
  obtain ⟨_, -, e, he, rfl⟩ := hs
  exact ⟨⟨c :: e.typeStack, []⟩, by simp [arraySerialize, he], rfl⟩

theorem mapSerialize_keepsStack (hk : KeepsStack Pk serK) (he : KeepsStack Pe serE) (c : ℕ) :
    KeepsStack (mapValue Pk Pe) (mapSerialize c serK serE) := by
  intro v s hv hs
  match v, hv with
  | .map none, _ | .map (some []), _ =>
    simp only [mapSerialize, mapSerialize.typeOnly, bind_eq_ok, pure_eq_ok] at hs
    obtain ⟨k, hk, e, he, rfl⟩ := hs
    exact ⟨⟨c :: (k.typeStack ++ e.typeStack), []⟩,
      by simp [mapSerialize, mapSerialize.typeOnly, hk, he], rfl⟩
  | .map (some (p :: es)), hv =>
    simp only [mapValue, Bool.and_eq_true, decide_eq_true_eq, List.all_eq_true] at hv
    simp only [mapSerialize, bind_eq_ok] at hs
    obtain ⟨pairs, hpairs, hs⟩ := hs
    obtain ⟨hkeys, hvals⟩ := mapPairs_ok hpairs
    obtain ⟨q, qs, rfl⟩ : ∃ q qs, pairs = q :: qs :=
      List.exists_cons_of_ne_nil fun h' => by simpa [h'] using hkeys.length_eq
    obtain ⟨k₀, hk₀, -⟩ := hk (hv.2 p (List.mem_cons_self _ _)).1 (List.forall₂_cons.1 hkeys).1
    obtain ⟨e₀, he₀, -⟩ := he (hv.2 p (List.mem_cons_self _ _)).2 (List.forall₂_cons.1 hvals).1
    have hks := typeStacks_of_forall₂ hk₀ hk hkeys
      (fun k hk => by obtain ⟨r, hr, rfl⟩ := List.mem_map.1 hk; exact (hv.2 r hr).1)
    have hvs := typeStacks_of_forall₂ he₀ he hvals
      (fun v hv' => by obtain ⟨r, hr, rfl⟩ := List.mem_map.1 hv'; exact (hv.2 r hr).2)
    have hall : ∀ r ∈ q :: qs, r.1.typeStack = k₀.typeStack ∧ r.2.typeStack = e₀.typeStack :=
      fun r hr => ⟨hks _ (List.mem_map_of_mem _ hr), hvs _ (List.mem_map_of_mem _ hr)⟩
    have hfold : ((q :: qs).foldl mapStep ([], [], [], [])).2.2 = (k₀.typeStack, e₀.typeStack) := by
      obtain ⟨h₁, h₂⟩ := hall q (List.mem_cons_self _ _)
      simp only [List.foldl_cons, mapStep, if_pos rfl, h₁, h₂]
      exact foldl_mapStep_types qs _ _ fun r hr => hall r (List.mem_cons_of_mem _ hr)
    rcases hf : (q :: qs).foldl mapStep ([], [], [], []) with ⟨kd, vd, kt, vt⟩
    rw [hf] at hs hfold
    simp only [pure_eq_ok, Prod.mk.injEq] at hs hfold
    subst hs
    exact ⟨⟨c :: (k₀.typeStack ++ e₀.typeStack), []⟩,
      by simp [mapSerialize, mapSerialize.typeOnly, hk₀, he₀], by simp [hfold.1, hfold.2]⟩

end

/-- **The stack of a value is the type's.**  On a type with no slice outside a struct or an
array, the stack `serializeValue` gives a value is the one it gives the type alone, which it
gives without error. -/
theorem typeStack_eq_typeOnly : ∀ t : Ty, t.stableStack = true →
    KeepsStack t.hasType (serializeValue kinds t)
  | .pointer elem, h =>
    withKind_keepsStack kinds (pointerSerialize_keepsStack (typeStack_eq_typeOnly elem h))
  | .struct _ fields, _ =>
    withKind_keepsStack kinds fun c => structSerialize_keepsStack kinds fields.haveTypes c _ _
  | .int, _ | .uint8, _ | .uint32, _ | .uint64, _ | .string, _ =>
    withKind_keepsStack kinds <| scalar_keepsStack
      (fun _ v _ hs => by
        rcases v with _ | _ | _ | _ | _ | _ | _ | _ <;> cases hs <;> rfl)
      fun _ => ⟨_, rfl⟩
  | .array _ _, _ => withKind_keepsStack kinds arraySerialize_keepsStack
  | .map key elem, h => by
    simp only [Ty.stableStack, Bool.and_eq_true] at h
    exact withKind_keepsStack kinds
      (mapSerialize_keepsStack (typeStack_eq_typeOnly key h.1) (typeStack_eq_typeOnly elem h.2))

/-- **Serialization on the types where it is faithful.**  For values `v₁`, `v₂` of a type `t` on
which `serializeValue` succeeds (with data shorter than `2^63` bytes, as every Go slice): when no
slice type stands in `t` outside a struct or an array, the stack of `v₁` is the one of the type
alone; and when every struct field in `t` has a non-empty `gv` tag and every array type in `t` is
empty, equal encodings come from equal values. -/
theorem typeStack_and_encoding_determined {t : Ty} {v₁ v₂ : Val} {s₁ s₂ : SerializedValue}
    (h₁ : t.hasType v₁ = true) (h₂ : t.hasType v₂ = true)
    (hs₁ : serializeValue kinds t (some v₁) = .ok s₁)
    (hs₂ : serializeValue kinds t (some v₂) = .ok s₂) (hfit : s₁.data.length < 2 ^ 63) :
    (t.stableStack = true →
      ∃ s₀, serializeValue kinds t none = .ok s₀ ∧ s₁.typeStack = s₀.typeStack) ∧
    (t.encodesValues = true → s₁ = s₂ → v₁ = v₂) := by
  exact ⟨fun hst => typeStack_eq_typeOnly kinds t hst h₁ hs₁,
    fun hen he => eq_of_data_eq kinds hen h₁ h₂ hs₁ hs₂ hfit (congrArg _ he)⟩

/-! ### Where the stack and the encoding lose the value -/

theorem serializeValue_slice_cons {t : Ty} {x : Val} {xs : List Val} {s : SerializedValue}
    (hs : serializeValue kinds (.slice t) (some (.slice (some (x :: xs)))) = .ok s) :
    ∃ c e, serializeValue kinds t (some x) = .ok e ∧ s.typeStack = c :: c :: e.typeStack := by
  obtain ⟨c, -, hs⟩ := withKind_eq_ok.1 hs
  simp only [sliceSerialize, bind_eq_ok, pure_eq_ok] at hs
  obtain ⟨e, he, _, _, rfl⟩ := hs
  exact ⟨c, e, he, rfl⟩

theorem serializeValue_slice_none {t : Ty} {s : SerializedValue}
    (hs : serializeValue kinds (.slice t) none = .ok s) :
    ∃ e, serializeValue kinds t none = .ok e ∧ s.typeStack = e.typeStack := by
  obtain ⟨c, -, hs⟩ := withKind_eq_ok.1 hs
  simp only [sliceSerialize, sliceSerialize.typeOnly, bind_eq_ok, pure_eq_ok] at hs
  obtain ⟨e, he, rfl⟩ := hs
  exact ⟨e, he, rfl⟩

/-- A non-empty array encodes as its tag over the element type's stack, with no data. -/
theorem serializeValue_array_cons {n : ℕ} {t : Ty} {x : Val} {xs : List Val} {s : SerializedValue}
    (hs : serializeValue kinds (.array n t) (some (.array (x :: xs))) = .ok s) :
    ∃ c e, kinds .array = some c ∧ serializeValue kinds t none = .ok e ∧
      s = ⟨c :: e.typeStack, []⟩ := by
  obtain ⟨c, hc, hs⟩ := withKind_eq_ok.1 hs
  simp only [arraySerialize, bind_eq_ok, pure_eq_ok] at hs
  obtain ⟨_, ⟨_, -, rfl⟩, e, he, rfl⟩ := hs
  exact ⟨c, e, hc, he, rfl⟩

/-- **The stack and the encoding, and where they lose the value.**  On the types of
`typeStack_and_encoding_determined` the stack is the type's and the encoding determines the
value.  Outside them: a non-empty slice of a type with a stable stack carries two tags more than
the slice type alone (the loop puts the tag over the first element's stack, the return puts it on
once more, and the type alone gets none); and all the non-empty values of one array type have one
encoding, since the loop appends to a `data` declared inside its branch. -/
theorem typeStack_and_encoding_slips :
    (∀ {t : Ty} {v₁ v₂ : Val} {s₁ s₂ : SerializedValue}, t.hasType v₁ = true →
      t.hasType v₂ = true → serializeValue kinds t (some v₁) = .ok s₁ →
      serializeValue kinds t (some v₂) = .ok s₂ → s₁.data.length < 2 ^ 63 →
      (t.stableStack = true →
        ∃ s₀, serializeValue kinds t none = .ok s₀ ∧ s₁.typeStack = s₀.typeStack) ∧
      (t.encodesValues = true → s₁ = s₂ → v₁ = v₂)) ∧
    (∀ {t : Ty} {x : Val} {xs : List Val} {s s₀ : SerializedValue}, t.stableStack = true →
      t.hasType x = true →
      serializeValue kinds (.slice t) (some (.slice (some (x :: xs)))) = .ok s →
      serializeValue kinds (.slice t) none = .ok s₀ →
      s.typeStack.length = s₀.typeStack.length + 2) ∧
    (∀ {n : ℕ} {t : Ty} {v₁ v₂ : Val} {vs₁ vs₂ : List Val} {s₁ s₂ : SerializedValue},
      serializeValue kinds (.array n t) (some (.array (v₁ :: vs₁))) = .ok s₁ →
      serializeValue kinds (.array n t) (some (.array (v₂ :: vs₂))) = .ok s₂ → s₁ = s₂) := by
  refine ⟨typeStack_and_encoding_determined kinds, ?slice, ?array⟩
  case slice =>
    intro t x xs s s₀ hst hx hs hs₀
    obtain ⟨c, e, he, hstack⟩ := serializeValue_slice_cons kinds hs
    obtain ⟨e₀, he₀, hstack₀⟩ := serializeValue_slice_none kinds hs₀
    obtain ⟨e₀', he₀', heq⟩ := typeStack_eq_typeOnly kinds t hst hx he
    cases he₀.symm.trans he₀'
    simp [hstack, hstack₀, heq]
  case array =>
    intro n t v₁ v₂ vs₁ vs₂ s₁ s₂ hs₁ hs₂
    obtain ⟨c₁, e₁, hc₁, he₁, rfl⟩ := serializeValue_array_cons kinds hs₁
    obtain ⟨c₂, e₂, hc₂, he₂, rfl⟩ := serializeValue_array_cons kinds hs₂
    cases hc₁.symm.trans hc₂
    cases he₁.symm.trans he₂
    rfl

/-- With the kinds `NewContext` registers: the `[]uint8` value `{0}` has two tags more than the
type `[]uint8` alone, and the `[1]uint8` values `{0}` and `{1}` have one encoding. -/
theorem uint8_slice_array_slips :
    ∃ ctx, newContext asciiHash = .ok ctx ∧ ∃ s s₀ a₀ a₁,
      serializeValue ctx.kinds.fwd (.slice .uint8) (some (.slice (some [.uint 0]))) = .ok s ∧
      serializeValue ctx.kinds.fwd (.slice .uint8) none = .ok s₀ ∧
      s.typeStack.length = s₀.typeStack.length + 2 ∧
      serializeValue ctx.kinds.fwd (.array 1 .uint8) (some (.array [.uint 0])) = .ok a₀ ∧
      serializeValue ctx.kinds.fwd (.array 1 .uint8) (some (.array [.uint 1])) = .ok a₁ ∧
      a₀ = a₁ := by
  have slips : ∀ (kinds : Kind → Option ℕ) (s s₀ a₀ a₁ : SerializedValue),
      serializeValue kinds (.slice .uint8) (some (.slice (some [.uint 0]))) = .ok s →
      serializeValue kinds (.slice .uint8) none = .ok s₀ →
      serializeValue kinds (.array 1 .uint8) (some (.array [.uint 0])) = .ok a₀ →
      serializeValue kinds (.array 1 .uint8) (some (.array [.uint 1])) = .ok a₁ →
      serializeValue kinds (.slice .uint8) (some (.slice (some [.uint 0]))) = .ok s ∧
      serializeValue kinds (.slice .uint8) none = .ok s₀ ∧
      s.typeStack.length = s₀.typeStack.length + 2 ∧
      serializeValue kinds (.array 1 .uint8) (some (.array [.uint 0])) = .ok a₀ ∧
      serializeValue kinds (.array 1 .uint8) (some (.array [.uint 1])) = .ok a₁ ∧ a₀ = a₁ :=
    fun kinds _ _ _ _ hs hs₀ ha₀ ha₁ => ⟨hs, hs₀,
      (typeStack_and_encoding_slips kinds).2.1 (by decide) (by decide) hs hs₀, ha₀, ha₁,
      (typeStack_and_encoding_slips kinds).2.2 ha₀ ha₁⟩
  exact ⟨_, rfl, _, _, _, _, slips _ _ _ _ _ rfl rfl rfl rfl⟩

/-! ### The order of a map's entries -/

end

end Graphvent
