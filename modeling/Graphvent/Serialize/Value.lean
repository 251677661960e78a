import Graphvent.Context.Registry

/-!
# The reflection serializer: `serializeValue`

`serializeValue(ctx, t, value)` (`serialize.go`) encodes a Go value of type `t` as a
`SerializedValue`: a type stack, a list of `uint64` tags describing the value's shape, and a
data blob.  It looks the kind of `t` up in `ctx.Kinds` and calls the serializer `NewContext`
registered for that kind with the kind's tag; a `nil` value asks for the type alone.  The
serializers of the container kinds call `serializeValue` again on the element types.

This file is the faithful layer: one definition per kind serializer of `NewContext`, under the
kind's name, and `serializeValue` putting them together by recursion on the type.

* `Ty`: the types built from the kinds `NewContext` registers, `interface` apart; a struct type
  carries its name and the `gv` tag of each field.
* `Val`: values as `reflect` shows them to the serializers: a pointer by what it points to, a
  struct by its fields in the order of `reflect.VisibleFields`, a map by its pairs in the order
  `MapRange` visits them.

`ctx.Kinds` is the parameter `kinds`, the tag registered for each kind (`none` for a kind with no
serializer); the types here are not in `ctx.TypeReflects`, so their own `Types` entries never
apply.  A panic of `reflect` is an error carrying its message.
-/

namespace Graphvent

/-! ### Go types and values -/

mutual

/-- A Go type built from the kinds `NewContext` registers, `interface` apart.  `struct` carries
what `%+v` prints for the type and its fields. -/
inductive Ty
  | pointer (elem : Ty)
  | struct (name : String) (fields : Fields)
  | int
  | uint8
  | uint32
  | uint64
  | string
  | array (len : ℕ) (elem : Ty)
  | map (key elem : Ty)
  | slice (elem : Ty)

/-- The fields of a struct type in the order of `reflect.VisibleFields`, each with the value of
its `gv` tag, `none` when it has none. -/
inductive Fields
  | nil
  | cons (gv : Option String) (type : Ty) (rest : Fields)

end

/-- `reflect.Type.Kind()`. -/
def Ty.kind : Ty → Kind
  | .pointer _ => .pointer
  | .struct _ _ => .struct
  | .int => .int
  | .uint8 => .uint8
  | .uint32 => .uint32
  | .uint64 => .uint64
  | .string => .string
  | .array _ _ => .array
  | .map _ _ => .map
  | .slice _ => .slice

/-- A Go value as the serializers read it: `value.Uint()` of an unsigned integer, the bytes of a
string, `nil` pointers, maps and slices as `none`. -/
inductive Val
  | pointer (target : Option Val)
  | struct (fields : List Val)
  | int (v : ℤ)
  | uint (v : ℕ)
  | string (bytes : List UInt8)
  | array (elems : List Val)
  | map (entries : Option (List (Val × Val)))
  | slice (elems : Option (List Val))

/-! ### The values of each kind -/

/-- A pointer: `nil`, or one to a value of the element type. -/
def pointerValue (elem : Val → Bool) : Val → Bool
  | .pointer none => true
  | .pointer (some v) => elem v
  | _ => false

/-- A struct: one value per field, of the field's type. -/
def structValue (fields : List Val → Bool) : Val → Bool
  | .struct vs => fields vs
  | _ => false

/-- An `int`. -/
def intValue : Val → Bool
  | .int v => -2 ^ 63 ≤ v && v < 2 ^ 63
  | _ => false

/-- An unsigned integer of `width` bytes. -/
def uintValue (width : ℕ) : Val → Bool
  | .uint v => v < 2 ^ (8 * width)
  | _ => false

/-- A string, shorter than `2^63` bytes as every Go string. -/
def stringValue : Val → Bool
  | .string s => s.length < 2 ^ 63
  | _ => false

/-- An array of `len` values of the element type. -/
def arrayValue (len : ℕ) (elem : Val → Bool) : Val → Bool
  | .array vs => vs.length = len && vs.all elem
  | _ => false

/-- A map: `nil`, or fewer than `2^63` pairs of the key and the element type. -/
def mapValue (key elem : Val → Bool) : Val → Bool
  | .map none => true
  | .map (some entries) => entries.length < 2 ^ 63 && entries.all fun p => key p.1 && elem p.2
  | _ => false

/-- A slice: `nil`, or fewer than `2^63` values of the element type. -/
def sliceValue (elem : Val → Bool) : Val → Bool
  | .slice none => true
  | .slice (some vs) => vs.length < 2 ^ 63 && vs.all elem
  | _ => false

mutual

/-- The values of a type. -/
def Ty.hasType : Ty → Val → Bool
  | .pointer elem => pointerValue elem.hasType
  | .struct _ fields => structValue fields.haveTypes
  | .int => intValue
  | .uint8 => uintValue 1
  | .uint32 => uintValue 4
  | .uint64 => uintValue 8
  | .string => stringValue
  | .array len elem => arrayValue len elem.hasType
  | .map key elem => mapValue key.hasType elem.hasType
  | .slice elem => sliceValue elem.hasType

/-- One value per field, each of the field's type. -/
def Fields.haveTypes : Fields → List Val → Bool
  | .nil, [] => true
  | .cons _ type rest, v :: vs => type.hasType v && rest.haveTypes vs
  | _, _ => false

end

/-- The fields with their `gv` tags, as a list. -/
def Fields.toList : Fields → List (Option String × Ty)
  | .nil => []
  | .cons gv type rest => (gv, type) :: rest.toList

/-! ### Serialized values -/

/-- `SerializedValue`. -/
structure SerializedValue where
  typeStack : List ℕ
  data : List UInt8
  deriving DecidableEq, Repr

/-- `SerializedValue.MarshalBinary()`: the lengths of the stack and of the data, the stack and
the data. -/
def SerializedValue.marshalBinary (value : SerializedValue) : List UInt8 :=
  putBE 8 value.typeStack.length ++ putBE 8 value.data.length ++
    (value.typeStack.map (putBE 8)).flatten ++ value.data

/-- A kind serializer with its element types fixed: `TypeSerialize` on a `*reflect.Value`. -/
abbrev Serializer := Option Val → Except String SerializedValue

/-- What `reflect` panics with when a serializer gets a value of another kind; `serializeValue`
never passes one (`Ty.hasType`). -/
def kindMismatch : String := "reflect: call of a method on a Value of another kind"

/-- `strconv.Quote` on a tag without quotes or control characters. -/
def quote (s : String) : String := "\"" ++ s ++ "\""

/-- `strconv.Atoi`: an optional sign and at least one decimal digit, in the range of `int`. -/
def atoi (s : String) : Except String ℤ :=
  let (neg, digits) : Bool × List Char := match s.toList with
    | '-' :: ds => (true, ds)
    | '+' :: ds => (false, ds)
    | ds => (false, ds)
  if digits = [] ∨ digits.all Char.isDigit = false then
    .error ("strconv.Atoi: parsing " ++ quote s ++ ": invalid syntax")
  else
    let n : ℤ := digits.foldl (fun acc c => acc * 10 + ((c.toNat - '0'.toNat : ℕ) : ℤ)) 0
    let v := if neg then -n else n
    if v < -2 ^ 63 ∨ 2 ^ 63 ≤ v then
      .error ("strconv.Atoi: parsing " ++ quote s ++ ": value out of range")
    else .ok v

/-! ### The kind serializers of `NewContext`

Each takes the tag `ctx_type` and the serializers of its element types. -/

/-- The serializer of `reflect.Pointer`: `0x01` for a `nil` pointer, `0x00` and the target's data
otherwise; the stack is the tag over the target's. -/
def pointerSerialize (ctxType : ℕ) (elemSerialize : Serializer) (value : Option Val) :
    Except String SerializedValue := do
  let (data, elemValue) ← (match value with
    | none => pure ([], none)
    | some (.pointer none) => pure ([0x01], none)
    | some (.pointer (some v)) => pure ([0x00], some v)
    | some _ => throw kindMismatch : Except String (List UInt8 × Option Val))
  let elem ← elemSerialize elemValue
  pure ⟨ctxType :: elem.typeStack, data ++ elem.data⟩

/-- The loop of the struct serializer over the visible fields, with the map `m` from `gv` index
to the marshalled field and `num_fields`.  A field without a `gv` tag, or with an empty one, is
skipped, and so is every field of a `nil` value. -/
def structFields : List (Option String × Serializer) → Option (List Val) →
    (ℤ → Option (List UInt8)) → ℕ → Except String ((ℤ → Option (List UInt8)) × ℕ)
  | [], _, m, numFields => pure (m, numFields)
  | (gv, fieldSerialize) :: rest, values, m, numFields =>
    let next := values.map List.tail
    match gv, values with
    | none, _ => structFields rest next m numFields
    | some _, none => structFields rest next m numFields
    | some gvTag, some vs =>
      if gvTag = "" then structFields rest next m numFields
      else match vs with
        | [] => throw kindMismatch
        | v :: _ => do
          let fieldIndex ← atoi gvTag
          let fieldSer ← fieldSerialize (some v)
          structFields rest next (Function.update m fieldIndex (some fieldSer.marshalBinary))
            (numFields + 1)

/-- The serializer of `reflect.Struct`: the fields with a `gv` tag, marshalled and listed by
their index, encoded as a `[][]byte` by `listSerialize`; the stack is the tag alone. -/
def structSerialize (ctxType : ℕ) (name : String) (fields : List (Option String × Serializer))
    (listSerialize : Serializer) (value : Option Val) : Except String SerializedValue := do
  let values ← match value with
    | none => pure none
    | some (.struct vs) => pure (some vs)
    | some _ => throw kindMismatch
  let (m, numFields) ← structFields fields values (fun _ => none) 0
  let fieldList ← (List.range numFields).mapM fun (i : ℕ) =>
    match m i with
    | some bytes => pure bytes
    | none => throw (name ++ " missing gv:" ++ toString i)
  let listSerial ← listSerialize
    (some (.slice (some (fieldList.map fun bytes => .slice (some (bytes.map fun b => .uint b.toNat))))))
  pure ⟨[ctxType], listSerial.data⟩

/-- The serializer of `reflect.Int`: `value.Uint()` panics on a value of kind `int`. -/
def intSerialize (ctxType : ℕ) : Serializer
  | none => pure ⟨[ctxType], []⟩
  | some _ => throw "reflect: call of reflect.Value.Uint on int Value"

/-- The serializer of `reflect.Uint32`: four bytes, zero for the type alone. -/
def uint32Serialize (ctxType : ℕ) : Serializer
  | none => pure ⟨[ctxType], putBE 4 0⟩
  | some (.uint v) => pure ⟨[ctxType], putBE 4 v⟩
  | some _ => throw kindMismatch

/-- The serializer of `reflect.String`: the length in eight bytes, then the bytes. -/
def stringSerialize (ctxType : ℕ) : Serializer
  | none => pure ⟨[ctxType], []⟩
  | some (.string s) => pure ⟨[ctxType], putBE 8 s.length ++ s⟩
  | some _ => throw kindMismatch

/-- The serializer of `reflect.Array`.  Eight zero bytes for an empty array; for a non-empty one
the loop serializes every element but appends to a `data` declared inside its branch, which
shadows the one returned, so the data is `nil`.  The stack is the tag over the element type's. -/
def arraySerialize (ctxType : ℕ) (elemSerialize : Serializer) (value : Option Val) :
    Except String SerializedValue := do
  let data ← (match value with
    | none => pure []
    | some (.array []) => pure (putBE 8 0)
    | some (.array vs) => do
      let _ ← vs.mapM fun v => elemSerialize (some v)
      pure []
    | some _ => throw kindMismatch : Except String (List UInt8))
  let elem ← elemSerialize none
  pure ⟨ctxType :: elem.typeStack, data⟩

/-- One pass of the `MapRange` loop on the accumulators `key_data`, `val_data`, `key_types` and
`val_types`: the stacks are taken while `key_types` is `nil`. -/
def mapStep (acc : List UInt8 × List UInt8 × List ℕ × List ℕ)
    (kv : SerializedValue × SerializedValue) : List UInt8 × List UInt8 × List ℕ × List ℕ :=
  let (keyData, valData, keyTypes, valTypes) := acc
  let (keyTypes, valTypes) :=
    if keyTypes = [] then (kv.1.typeStack, kv.2.typeStack) else (keyTypes, valTypes)
  (keyData ++ kv.1.data, valData ++ kv.2.data, keyTypes, valTypes)

/-- The serializer of `reflect.Map`.  A non-empty map: its length, the keys' data, then the
values' data, under the tag and the stacks of its first pair.  Otherwise eight `0xFF` bytes for a
`nil` map, eight zero bytes for an empty one, under the tag and the key and element types'
stacks. -/
def mapSerialize (ctxType : ℕ) (keySerialize elemSerialize : Serializer) :
    Serializer
  | some (.map (some (e :: es))) => do
    let pairs ← (e :: es).mapM fun (k, v) => do
      let key ← keySerialize (some k)
      let val ← elemSerialize (some v)
      pure (key, val)
    let (keyData, valData, keyTypes, valTypes) := pairs.foldl mapStep ([], [], [], [])
    pure ⟨ctxType :: (keyTypes ++ valTypes), putBE 8 pairs.length ++ keyData ++ valData⟩
  | none => typeOnly []
  | some (.map none) => typeOnly (List.replicate 8 0xFF)
  | some (.map (some [])) => typeOnly (putBE 8 0)
  | some _ => throw kindMismatch
where
  /-- The code after the `if` chain, for a value that is not a non-empty map. -/
  typeOnly (data : List UInt8) : Except String SerializedValue := do
    let key ← keySerialize none
    let elem ← elemSerialize none
    pure ⟨ctxType :: (key.typeStack ++ elem.typeStack), data⟩

/-- The serializer of `reflect.Uint8`: one byte. -/
def uint8Serialize (ctxType : ℕ) : Serializer
  | none => pure ⟨[ctxType], []⟩
  | some (.uint v) => pure ⟨[ctxType], [UInt8.ofNat v]⟩
  | some _ => throw kindMismatch

/-- The serializer of `reflect.Uint64`: eight bytes. -/
def uint64Serialize (ctxType : ℕ) : Serializer
  | none => pure ⟨[ctxType], []⟩
  | some (.uint v) => pure ⟨[ctxType], putBE 8 v⟩
  | some _ => throw kindMismatch

/-- The serializer of `reflect.Slice`.  A non-empty slice: its length and its elements' data,
under the stack `[ctx_type, ctx_type]` over its first element's (the loop sets `type_stack` to
the tag over the element's stack at the first element, and the return puts the tag on it once
more).  Otherwise eight `0xFF` bytes for a `nil` slice, eight zero bytes for an empty one, under
the element type's stack alone. -/
def sliceSerialize (ctxType : ℕ) (elemSerialize : Serializer) : Serializer
  | some (.slice (some (v :: vs))) => do
    let first ← elemSerialize (some v)
    let elements ← vs.mapM fun v => elemSerialize (some v)
    pure ⟨ctxType :: ctxType :: first.typeStack,
      putBE 8 (vs.length + 1) ++ first.data ++ (elements.map SerializedValue.data).flatten⟩
  | none => typeOnly []
  | some (.slice none) => typeOnly (List.replicate 8 0xFF)
  | some (.slice (some [])) => typeOnly (putBE 8 0)
  | some _ => throw kindMismatch
where
  /-- The code after the `if` chain, for a value that is not a non-empty slice. -/
  typeOnly (data : List UInt8) : Except String SerializedValue := do
    let elem ← elemSerialize none
    pure ⟨elem.typeStack, data⟩

/-! ### `serializeValue` -/

section

variable (kinds : Kind → Option ℕ)

/-- `ctx.Kinds[kind]`: the kind's serializer with its registered tag, an error for a kind without
one. -/
def withKind (kind : Kind) (serialize : ℕ → Serializer) : Serializer := fun value =>
  match kinds kind with
  | none => throw ("Don\x27t know how to serialize kind " ++ kind.name)
  | some ctxType => serialize ctxType value

/-- `serializeValue` at `[][]byte`, the type of the struct serializer's `field_list`. -/
def byteListsSerialize : Serializer :=
  withKind kinds .slice fun c => sliceSerialize c
    (withKind kinds .slice fun c => sliceSerialize c (withKind kinds .uint8 uint8Serialize))

mutual

/-- `serializeValue(ctx, t, value)`. -/
def serializeValue : Ty → Serializer
  | .pointer elem => withKind kinds .pointer fun c => pointerSerialize c (serializeValue elem)
  | .struct name fields => withKind kinds .struct fun c =>
    structSerialize c name (fieldSerializers fields) (byteListsSerialize kinds)
  | .int => withKind kinds .int intSerialize
  | .uint8 => withKind kinds .uint8 uint8Serialize
  | .uint32 => withKind kinds .uint32 uint32Serialize
  | .uint64 => withKind kinds .uint64 uint64Serialize
  | .string => withKind kinds .string stringSerialize
  | .array _ elem => withKind kinds .array fun c => arraySerialize c (serializeValue elem)
  | .map key elem => withKind kinds .map fun c =>
    mapSerialize c (serializeValue key) (serializeValue elem)
  | .slice elem => withKind kinds .slice fun c => sliceSerialize c (serializeValue elem)

/-- The `gv` tag and the serializer of each visible field. -/
def fieldSerializers : Fields → List (Option String × Serializer)
  | .nil => []
  | .cons gv type rest => (gv, serializeValue type) :: fieldSerializers rest

end

theorem fieldSerializers_eq :
    ∀ fields : Fields,
      fieldSerializers kinds fields = fields.toList.map fun f => (f.1, serializeValue kinds f.2)
  | .nil => rfl
  | .cons _ _ rest => congrArg _ (fieldSerializers_eq rest)

end

/-! ### Reading a successful run -/

@[simp] theorem bind_eq_ok {ε α β : Type} {x : Except ε α} {f : α → Except ε β} {b : β} :
    x >>= f = .ok b ↔ ∃ a, x = .ok a ∧ f a = .ok b := by
  cases x <;> simp [bind, Except.bind]

@[simp] theorem pure_eq_ok {ε α : Type} {a b : α} : (pure a : Except ε α) = .ok b ↔ a = b := by
  simp [pure, Except.pure]

theorem mapM_eq_ok {ε α β : Type} {f : α → Except ε β} :
    ∀ {l : List α} {r : List β}, l.mapM f = .ok r ↔ List.Forall₂ (fun a b => f a = .ok b) l r
  | [], r => by cases r <;> simp only [List.mapM_nil, List.Forall₂.nil, pure, Except.pure,
      Except.ok.injEq, List.forall₂_nil_left_iff, reduceCtorEq]
  | a :: l, r => by
    cases r <;> simp [-List.mapM, List.mapM_cons, mapM_eq_ok, pure, Except.pure]

theorem withKind_eq_ok {kinds : Kind → Option ℕ} {kind : Kind} {serialize : ℕ → Serializer}
    {value : Option Val} {s : SerializedValue} :
    withKind kinds kind serialize value = .ok s ↔ ∃ c, kinds kind = some c ∧ serialize c value = .ok s := by
  unfold withKind
  cases kinds kind <;> simp [throw, throwThe, MonadExceptOf.throw]

end Graphvent
