import Graphvent.Go.Binary
import Mathlib.Logic.Function.Basic
import Mathlib.Data.List.Nodup

/-!
# The registries of a `Context`

`NewContext` (`graphvent.go`) builds a `Context` by registering the serializers of eleven
`reflect.Kind`s, two Go types, four extensions, five signals and the GQL node type; a program
may then register more.  The maps come in forward/reverse pairs (`Extensions`/`ExtensionTypes`,
`Policies`/`PolicyTypes`, `Signals`/`SignalTypes`, `Types`/`TypeReflects`, `Kinds`/`KindTypes`),
each pair a `Registry` here, and `Nodes` lists the extensions of each node type.

* `Context.checkExtensions_none`: `RegisterNodeType` accepts only lists of distinct registered
  extensions;
* `Registry.Inverse.add`, `Registry.PartialInverse.add`: what a new entry keeps of each pair, the
  first for `RegisterKind` and `RegisterType`, which check both maps, the second for the other
  three, which check only the forward map;
* `Context.registerTagged_error`, `Context.registerBoth_error`: a call that returns an error
  leaves its registry as it was.

The tags are `uint64` hashes (`Hash(base, name)`, a SHA-512 digest truncated to 64 bits, is a
parameter); Go types are any type with decidable equality and a name.  The serializer functions
are only checked for `nil` (a `Bool` per function), and the extension `Data`, the database, the
logger and the node map are not modelled.
-/

namespace Graphvent

/-- `reflect.Kind`. -/
inductive Kind
  | invalid | bool | int | int8 | int16 | int32 | int64 | uint | uint8 | uint16 | uint32
  | uint64 | uintptr | float32 | float64 | complex64 | complex128 | array | chan | func
  | interface | map | pointer | slice | string | struct | unsafePointer
  deriving DecidableEq, Repr

/-- `reflect.Kind.String()`. -/
def Kind.name : Kind → String
  | .invalid => "invalid" | .bool => "bool" | .int => "int" | .int8 => "int8"
  | .int16 => "int16" | .int32 => "int32" | .int64 => "int64" | .uint => "uint"
  | .uint8 => "uint8" | .uint16 => "uint16" | .uint32 => "uint32" | .uint64 => "uint64"
  | .uintptr => "uintptr" | .float32 => "float32" | .float64 => "float64"
  | .complex64 => "complex64" | .complex128 => "complex128" | .array => "array"
  | .chan => "chan" | .func => "func" | .interface => "interface" | .map => "map"
  | .pointer => "ptr" | .slice => "slice" | .string => "string" | .struct => "struct"
  | .unsafePointer => "unsafe.Pointer"

/-- A pair of Go maps registering values under keys: `fwd` from a key to its value and `rev`
back. -/
structure Registry (κ ν : Type) where
  fwd : κ → Option ν
  rev : ν → Option κ

namespace Registry

variable {κ ν : Type}

/-- Two empty maps. -/
def empty : Registry κ ν := ⟨fun _ => none, fun _ => none⟩

/-- Each map is the inverse of the other. -/
def Inverse (r : Registry κ ν) : Prop := ∀ k v, r.fwd k = some v ↔ r.rev v = some k

/-- Every reverse entry is matched by the forward map, and every registered value has a
reverse entry. -/
structure PartialInverse (r : Registry κ ν) : Prop where
  rev_fwd : ∀ v k, r.rev v = some k → r.fwd k = some v
  fwd_rev : ∀ k v, r.fwd k = some v → (r.rev v).isSome

variable {r : Registry κ ν} {k : κ} {v : ν}

theorem empty_inverse : (empty : Registry κ ν).Inverse := by
  simp [Inverse, empty]

theorem Inverse.partialInverse (h : r.Inverse) : r.PartialInverse :=
  ⟨fun v k hv => (h k v).2 hv, fun k v hk => by simp [(h k v).1 hk]⟩

variable [DecidableEq κ] [DecidableEq ν]

/-- `fwd[k] = v; rev[v] = k`. -/
def add (r : Registry κ ν) (k : κ) (v : ν) : Registry κ ν :=
  ⟨Function.update r.fwd k (some v), Function.update r.rev v (some k)⟩

@[simp] theorem add_fwd (r : Registry κ ν) (k : κ) (v : ν) (k' : κ) :
    (r.add k v).fwd k' = if k' = k then some v else r.fwd k' :=
  Function.update_apply _ _ _ _

@[simp] theorem add_rev (r : Registry κ ν) (k : κ) (v : ν) (v' : ν) :
    (r.add k v).rev v' = if v' = v then some k else r.rev v' :=
  Function.update_apply _ _ _ _

theorem Inverse.add (h : r.Inverse) (hk : r.fwd k = none) (hv : r.rev v = none) :
    (r.add k v).Inverse := by
  intro k' v'
  simp only [add_fwd, add_rev]
  by_cases hkk : k' = k <;> by_cases hvv : v' = v
  · simp [hkk, hvv]
  · simp only [hkk, hvv, if_true, if_false, Option.some.injEq]
    exact ⟨fun e => absurd e.symm hvv, fun e => (by rw [(h k v').2 e] at hk; cases hk)⟩
  · simp only [hkk, hvv, if_true, if_false, Option.some.injEq]
    exact ⟨fun e => (by rw [(h k' v).1 e] at hv; cases hv), fun e => absurd e.symm hkk⟩
  · simp only [hkk, hvv, if_false]
    exact h k' v'

theorem PartialInverse.add (h : r.PartialInverse) (hk : r.fwd k = none) :
    (r.add k v).PartialInverse where
  rev_fwd v' k' hv' := by
    simp only [add_rev, add_fwd] at hv' ⊢
    split_ifs at hv' with hvv
    · cases hv'
      simp [hvv]
    · have hne : k' ≠ k := fun e => by
        have := h.rev_fwd v' k' hv'
        rw [e, hk] at this
        cases this
      simp [hne, h.rev_fwd v' k' hv']
  fwd_rev k' v' hk' := by
    simp only [add_rev, add_fwd] at hk' ⊢
    by_cases hvv : v' = v
    · simp [hvv]
    · rw [if_neg hvv]
      split_ifs at hk'
      · exact absurd (Option.some.inj hk').symm hvv
      · exact h.fwd_rev k' v' hk'

theorem fwd_add_of_isSome {k' : κ} (hk : r.fwd k = none) (h' : (r.fwd k').isSome) :
    (r.add k v).fwd k' = r.fwd k' := by
  have : k' ≠ k := fun e => by simp [e, hk] at h'
  simp [this]

end Registry

/-- `NodeInfo`: the extensions a node type requires. -/
structure NodeInfo where
  extensions : List ℕ

/-- The registries of a `Context`. -/
structure Context (ρ : Type) where
  /-- `Extensions` (the `Type` of each `ExtensionInfo`) and `ExtensionTypes`. -/
  extensions : Registry ℕ ρ
  /-- `Policies` and `PolicyTypes`. -/
  policies : Registry ℕ ρ
  /-- `Signals` and `SignalTypes`. -/
  signals : Registry ℕ ρ
  /-- `Nodes`. -/
  nodes : ℕ → Option NodeInfo
  /-- `Types` (the `Type` of each `TypeInfo`) and `TypeReflects`. -/
  types : Registry ℕ ρ
  /-- `Kinds` (the serialized type of each `KindInfo`) and `KindTypes`. -/
  kinds : Registry Kind ℕ

namespace Context

variable {ρ : Type}

/-- The maps `NewContext` starts from, all empty. -/
def empty : Context ρ :=
  ⟨.empty, .empty, .empty, fun _ => none, .empty, .empty⟩

/-- The invariant of the registries. -/
structure Inv (ctx : Context ρ) : Prop where
  extensions : ctx.extensions.PartialInverse
  policies : ctx.policies.PartialInverse
  signals : ctx.signals.PartialInverse
  types : ctx.types.Inverse
  kinds : ctx.kinds.Inverse
  nodes : ∀ t info, ctx.nodes t = some info →
    info.extensions.Nodup ∧ ∀ e ∈ info.extensions, (ctx.extensions.fwd e).isSome

theorem empty_inv : (empty : Context ρ).Inv :=
  ⟨Registry.empty_inverse.partialInverse, Registry.empty_inverse.partialInverse,
    Registry.empty_inverse.partialInverse, Registry.empty_inverse, Registry.empty_inverse,
    fun _ _ h => by simp [empty] at h⟩

/-! ### The `Register` methods

Each returns the context after the call and the error it returns (`none` for `nil`). -/

section NodeType

variable (ctx : Context ρ)

/-- The loop of `RegisterNodeType` over `extensions`, with the set `ext_found`. -/
def checkExtensions (nodeType : ℕ) : List ℕ → List ℕ → Option String
  | _, [] => none
  | found, ext :: rest =>
    if (ctx.extensions.fwd ext).isNone then
      some ("Cannot register node type " ++ toString nodeType ++ ", required extension " ++
        toString ext ++ " not in context")
    else if ext ∈ found then
      some ("Duplicate extension " ++ toString ext ++ " found in extension list")
    else checkExtensions nodeType (ext :: found) rest

/-- `RegisterNodeType`. -/
def registerNodeType (nodeType : ℕ) (extensions : List ℕ) : Context ρ × Option String :=
  if (ctx.nodes nodeType).isSome then
    (ctx, some ("Cannot register node type " ++ toString nodeType ++
      ", type already exists in context"))
  else
    match checkExtensions ctx nodeType [] extensions with
    | some e => (ctx, some e)
    | none => ({ ctx with nodes := Function.update ctx.nodes nodeType (some ⟨extensions⟩) }, none)

variable {ctx}

theorem checkExtensions_none {t : ℕ} :
    ∀ {found exts : List ℕ}, checkExtensions ctx t found exts = none →
      exts.Nodup ∧ (∀ e ∈ exts, (ctx.extensions.fwd e).isSome) ∧ ∀ e ∈ exts, e ∉ found
  | _, [], _ => by simp
  | found, ext :: rest, h => by
    unfold checkExtensions at h
    split_ifs at h with h₁ h₂
    obtain ⟨hnd, hreg, hnf⟩ := checkExtensions_none h
    refine ⟨List.nodup_cons.2 ⟨fun hm => hnf ext hm (List.mem_cons_self _ _), hnd⟩, ?_, ?_⟩
    · simpa [Option.isNone_iff_eq_none, Option.isSome_iff_ne_none] using And.intro h₁ hreg
    · intro e he
      rcases List.mem_cons.1 he with rfl | he
      · exact h₂
      · exact fun hf => hnf e he (List.mem_cons_of_mem _ hf)

end NodeType

section Tagged

variable [DecidableEq ρ]

/-- `RegisterPolicy`, `RegisterSignal` and `RegisterExtension`: the tag must be free in the
forward map `r`; the reverse map is not checked. -/
def registerTagged (r : Registry ℕ ρ) (what : String) (tag : ℕ) (reflectType : ρ) :
    Registry ℕ ρ × Option String :=
  if (r.fwd tag).isSome then
    (r, some ("Cannot register " ++ what ++ " of type " ++ toString tag ++
      ", type already exists in context"))
  else (r.add tag reflectType, none)

variable (ctx : Context ρ)

/-- `RegisterPolicy`. -/
def registerPolicy (reflectType : ρ) (policyType : ℕ) : Context ρ × Option String :=
  let r := registerTagged ctx.policies "policy" policyType reflectType
  ({ ctx with policies := r.1 }, r.2)

/-- `RegisterSignal`. -/
def registerSignal (reflectType : ρ) (signalType : ℕ) : Context ρ × Option String :=
  let r := registerTagged ctx.signals "signal" signalType reflectType
  ({ ctx with signals := r.1 }, r.2)

/-- `RegisterExtension` (the extension's `Data` is not modelled). -/
def registerExtension (reflectType : ρ) (extType : ℕ) : Context ρ × Option String :=
  let r := registerTagged ctx.extensions "extension" extType reflectType
  ({ ctx with extensions := r.1 }, r.2)

variable {ctx}

theorem registerTagged_error {r : Registry ℕ ρ} {what : String} {tag : ℕ} {τ : ρ} {e : String}
    (h : (registerTagged r what tag τ).2 = some e) : (registerTagged r what tag τ).1 = r := by
  unfold registerTagged at h ⊢
  split_ifs at h ⊢
  rfl

theorem registerTagged_partialInverse {r : Registry ℕ ρ} (hr : r.PartialInverse) (what : String)
    (tag : ℕ) (τ : ρ) : (registerTagged r what tag τ).1.PartialInverse := by
  unfold registerTagged
  split_ifs with h
  · exact hr
  · exact hr.add (by simpa using h)

theorem registerTagged_fwd {r : Registry ℕ ρ} {what : String} {tag k : ℕ} {τ : ρ}
    (hk : (r.fwd k).isSome) : (registerTagged r what tag τ).1.fwd k = r.fwd k := by
  unfold registerTagged
  split_ifs with h
  · rfl
  · exact Registry.fwd_add_of_isSome (by simpa using h) hk

end Tagged

section Both

variable {κ ν : Type} [DecidableEq κ] [DecidableEq ν]

/-- `RegisterKind` and `RegisterType`: the key must be free in the forward map and the value in
the reverse map, and both functions must be non-`nil`. -/
def registerBoth (r : Registry κ ν) (k : κ) (v : ν) (keyTaken valueTaken : String)
    (serialize deserialize : Bool) : Registry κ ν × Option String :=
  if (r.fwd k).isSome then (r, some keyTaken)
  else if (r.rev v).isSome then (r, some valueTaken)
  else if !deserialize then (r, some "Cannot register field without deserialize function")
  else if !serialize then (r, some "Cannot register field without serialize function")
  else (r.add k v, none)

theorem registerBoth_error {r : Registry κ ν} {k : κ} {v : ν} {m₁ m₂ : String} {s d : Bool}
    {e : String} (h : (registerBoth r k v m₁ m₂ s d).2 = some e) :
    (registerBoth r k v m₁ m₂ s d).1 = r := by
  unfold registerBoth at h ⊢
  split_ifs at h ⊢ <;> rfl

theorem registerBoth_inverse {r : Registry κ ν} (hr : r.Inverse) (k : κ) (v : ν)
    (m₁ m₂ : String) (s d : Bool) : (registerBoth r k v m₁ m₂ s d).1.Inverse := by
  unfold registerBoth
  split_ifs with h₁ h₂ <;> first | exact hr | exact hr.add (by simpa using h₁) (by simpa using h₂)

end Both

/-- `RegisterKind`. -/
def registerKind (ctx : Context ρ) (kind : Kind) (ctxType : ℕ) (serialize deserialize : Bool) :
    Context ρ × Option String :=
  let r := registerBoth ctx.kinds kind ctxType
    ("Cannot register kind " ++ kind.name ++ ", kind already exists in context")
    ("0x" ++ hex ctxType ++ " is already registered, cannot use for " ++ kind.name)
    serialize deserialize
  ({ ctx with kinds := r.1 }, r.2)

/-- `RegisterType`. -/
def registerType [DecidableEq ρ] [ToString ρ] (ctx : Context ρ) (reflectType : ρ) (ctxType : ℕ)
    (serialize deserialize : Bool) : Context ρ × Option String :=
  let r := registerBoth ctx.types ctxType reflectType
    ("Cannot register field of type " ++ toString ctxType ++ ", type already exists in context")
    ("Cannot register field with type " ++ toString reflectType ++
      ", type already registered in context")
    serialize deserialize
  ({ ctx with types := r.1 }, r.2)

end Context

end Graphvent
