import Graphvent.Context.Registry

/-!
# `NewContext` and the calls after it

A program builds its `Context` with `NewContext` and may then call the six `Register` methods in
any order, going on after a call that returns an error.  A `Registration` is one such call,
`runAll` a sequence of them, and `newContext` the calls `NewContext` makes, stopping at the first
error.

* `Registration.apply_error`: a call that returns an error leaves the context as it was;
* `Registration.apply_inv`: every call keeps `Context.Inv`: `Types` and `Kinds` stay in
  bijection with their reverse maps, the other three pairs keep every reverse entry matched, and
  every node type lists distinct registered extensions;
* `registries_after_newContext`: so `Context.Inv` holds after `NewContext` and any calls, and
  each of those calls that fails changes nothing;
* `newContext_stale_entries`: but `RegisterSignal` of a Go type already registered, under a new
  tag, leaves `Signals` and `SignalTypes` out of step, and `RegisterType` accepts a tag that
  `KindTypes` already holds.

The Go types are the eleven `NewContext` registers and any other by its name.  `Hash(base, name)`
is a parameter; `asciiHash`, which spells `base`, a zero byte and `name` as one big-endian number,
stands in for it where a concrete context is needed.
-/

namespace Graphvent

/-! ### Calls -/

/-- A call of one of the six `Register` methods. -/
inductive Registration (ρ : Type)
  | nodeType (nodeType : ℕ) (extensions : List ℕ)
  | policy (reflectType : ρ) (policyType : ℕ)
  | signal (reflectType : ρ) (signalType : ℕ)
  | extension (reflectType : ρ) (extType : ℕ)
  | kind (kind : Kind) (ctxType : ℕ) (serialize deserialize : Bool)
  | type (reflectType : ρ) (ctxType : ℕ) (serialize deserialize : Bool)

namespace Registration

open Context

variable {ρ : Type} [DecidableEq ρ] [ToString ρ]

/-- The call on `ctx`: the context after it and the error it returns. -/
def apply : Registration ρ → Context ρ → Context ρ × Option String
  | nodeType t exts, ctx => ctx.registerNodeType t exts
  | policy τ t, ctx => ctx.registerPolicy τ t
  | signal τ t, ctx => ctx.registerSignal τ t
  | extension τ t, ctx => ctx.registerExtension τ t
  | kind k t s d, ctx => ctx.registerKind k t s d
  | type τ t s d, ctx => ctx.registerType τ t s d

variable {ctx : Context ρ}

/-- **A failed call changes nothing.** -/
theorem apply_error {r : Registration ρ} {e : String} (h : (r.apply ctx).2 = some e) :
    (r.apply ctx).1 = ctx := by
  cases r with
  | nodeType t exts =>
    simp only [apply, registerNodeType] at h ⊢
    split_ifs at h ⊢
    · rfl
    · cases hchk : checkExtensions ctx t [] exts <;> simp [hchk] at h ⊢
  | policy | signal | extension =>
    simp only [apply, registerPolicy, registerSignal, registerExtension] at h ⊢
    rw [registerTagged_error h]
  | kind | type =>
    simp only [apply, registerKind, registerType] at h ⊢
    rw [registerBoth_error h]

/-- **Every call keeps the invariant.** -/
theorem apply_inv (hc : ctx.Inv) (r : Registration ρ) : (r.apply ctx).1.Inv := by
  cases r with
  | nodeType t exts =>
    simp only [apply, registerNodeType]
    split_ifs
    · exact hc
    · split
      · exact hc
      · rename_i hchk
        obtain ⟨hnd, hreg, -⟩ := checkExtensions_none hchk
        refine { hc with nodes := fun t' info h => ?_ }
        by_cases ht : t' = t
        · subst ht
          simp only [Function.update_same, Option.some.injEq] at h
          exact h ▸ ⟨hnd, hreg⟩
        · exact hc.nodes t' info (by simpa [Function.update_noteq ht] using h)
  | policy τ t => exact { hc with policies := registerTagged_partialInverse hc.policies _ _ _ }
  | signal τ t => exact { hc with signals := registerTagged_partialInverse hc.signals _ _ _ }
  | extension τ t =>
    refine { hc with
      extensions := registerTagged_partialInverse hc.extensions _ _ _
      nodes := fun t' info h => ?_ }
    obtain ⟨hnd, hreg⟩ := hc.nodes t' info h
    exact ⟨hnd, fun e he => by
      simp only [apply, registerExtension, registerTagged_fwd (hreg e he), hreg e he]⟩
  | kind k t s d => exact { hc with kinds := registerBoth_inverse hc.kinds _ _ _ _ _ _ }
  | type τ t s d => exact { hc with types := registerBoth_inverse hc.types _ _ _ _ _ _ }

end Registration

/-! ### Runs -/

section Runs

variable {ρ : Type} [DecidableEq ρ] [ToString ρ]

/-- The calls one after the other, each on the context the one before left, whatever it
returned. -/
def runAll (calls : List (Registration ρ)) (ctx : Context ρ) : Context ρ :=
  calls.foldl (fun c r => (r.apply c).1) ctx

/-- The calls one after the other, returning the first error, as `NewContext` does. -/
def runUntilError (calls : List (Registration ρ)) (ctx : Context ρ) : Except String (Context ρ) :=
  calls.foldlM (fun c r => match r.apply c with
    | (c', none) => .ok c'
    | (_, some e) => .error e) ctx

theorem runUntilError_cons (r : Registration ρ) (rs : List (Registration ρ)) (ctx : Context ρ) :
    runUntilError (r :: rs) ctx = match r.apply ctx with
      | (c', none) => runUntilError rs c'
      | (_, some e) => .error e := by
  simp only [runUntilError, List.foldlM_cons]
  split <;> rfl

theorem runAll_inv {ctx : Context ρ} (hc : ctx.Inv) (calls : List (Registration ρ)) :
    (runAll calls ctx).Inv := by
  induction calls generalizing ctx with
  | nil => exact hc
  | cons r rs ih => exact ih (Registration.apply_inv hc r)

theorem runUntilError_inv {ctx ctx' : Context ρ} (hc : ctx.Inv) :
    ∀ {calls : List (Registration ρ)}, runUntilError calls ctx = .ok ctx' → ctx'.Inv
  | [], h => by cases h; exact hc
  | r :: rs, h => by
    have hr := Registration.apply_inv hc r
    rw [runUntilError_cons] at h
    rcases hra : r.apply ctx with ⟨c', _ | e⟩ <;> rw [hra] at h hr
    · exact runUntilError_inv hr h
    · cases h

end Runs

/-! ### `NewContext` -/

/-- The Go types `NewContext` registers, and any other by its name. -/
inductive GoType
  | signalDirection | reqState
  | lockableExt | listenerExt | groupExt | gqlExt
  | stopSignal | createSignal | startSignal | readSignal | readResultSignal
  | named (name : String)
  deriving DecidableEq

/-- `reflect.Type.String()`. -/
def GoType.name : GoType → String
  | .signalDirection => "graphvent.SignalDirection"
  | .reqState => "graphvent.ReqState"
  | .lockableExt => "*graphvent.LockableExt"
  | .listenerExt => "*graphvent.ListenerExt"
  | .groupExt => "*graphvent.GroupExt"
  | .gqlExt => "*graphvent.GQLExt"
  | .stopSignal => "*graphvent.StopSignal"
  | .createSignal => "*graphvent.CreateSignal"
  | .startSignal => "*graphvent.StartSignal"
  | .readSignal => "*graphvent.ReadSignal"
  | .readResultSignal => "*graphvent.ReadResultSignal"
  | .named n => n

instance : ToString GoType := ⟨GoType.name⟩

section Tags

variable (hash : String → String → ℕ)

/-- `NewExtType(name)`. -/
def newExtType (name : String) : ℕ := hash "ExtType" name

/-- `NewNodeType(name)`. -/
def newNodeType (name : String) : ℕ := hash "NodeType" name

/-- `NewSignalType(name)`. -/
def newSignalType (name : String) : ℕ := hash "SignalType" name

/-- `NewSerializedType(name)`. -/
def newSerializedType (name : String) : ℕ := hash "SerializedType" name

/-- The calls `NewContext` makes, in its order.  Every serializer it passes is non-`nil`. -/
def newContextCalls : List (Registration GoType) :=
  [.kind .pointer (newSerializedType hash "pointer") true true,
   .kind .struct (newSerializedType hash "struct") true true,
   .kind .int (newSerializedType hash "int") true true,
   .kind .uint32 (newSerializedType hash "uint32") true true,
   .kind .string (newSerializedType hash "string") true true,
   .kind .array (newSerializedType hash "array") true true,
   .kind .interface (newSerializedType hash "interface") true true,
   .kind .map (newSerializedType hash "map") true true,
   .kind .uint8 (newSerializedType hash "uint8") true true,
   .kind .uint64 (newSerializedType hash "uint64") true true,
   .kind .slice (newSerializedType hash "slice") true true,
   .type .signalDirection (newSerializedType hash "SignalDirection") true true,
   .type .reqState (newSerializedType hash "ReqState") true true,
   .extension .lockableExt (newExtType hash "LOCKABLE"),
   .extension .listenerExt (newExtType hash "LISTENER"),
   .extension .groupExt (newExtType hash "GROUP"),
   .extension .gqlExt (newExtType hash "GQL"),
   .signal .stopSignal (newSignalType hash "STOP"),
   .signal .createSignal (newSignalType hash "CREATE"),
   .signal .startSignal (newSignalType hash "START"),
   .signal .readSignal (newSignalType hash "READ"),
   .signal .readResultSignal (newSignalType hash "READ_RESULT"),
   .nodeType (newNodeType hash "GQL") [newExtType hash "GROUP", newExtType hash "GQL"]]

/-- `NewContext(db, log)`, up to `BuildSchema`. -/
def newContext : Except String (Context GoType) :=
  runUntilError (newContextCalls hash) .empty

end Tags

/-- **The registries after `NewContext`.**  Whatever calls follow `NewContext`, `Types` and
`TypeReflects`, and `Kinds` and `KindTypes`, stay inverse; every entry of `ExtensionTypes`,
`PolicyTypes` and `SignalTypes` points back to an entry of its forward map with that Go type and
every Go type registered forward has a reverse entry; every node type lists distinct registered
extensions; and a call that returns an error leaves the context as it was. -/
theorem registries_after_newContext {hash : String → String → ℕ} {ctx : Context GoType}
    (h : newContext hash = .ok ctx) (calls : List (Registration GoType)) :
    (runAll calls ctx).Inv ∧
      ∀ (r : Registration GoType) (e : String), (r.apply (runAll calls ctx)).2 = some e →
        (r.apply (runAll calls ctx)).1 = runAll calls ctx :=
  ⟨runAll_inv (runUntilError_inv Context.empty_inv h) calls, fun _ _ => Registration.apply_error⟩

/-- A stand-in for `Hash`: the bytes of `base`, a zero byte and the bytes of `name`, read as one
big-endian number. -/
def asciiHash (base name : String) : ℕ :=
  (base.toList ++ Char.ofNat 0 :: name.toList).foldl (fun acc c => acc * 256 + c.toNat) 0

theorem asciiHash_newContext_registries :
    ∃ ctx, newContext asciiHash = .ok ctx ∧ (runAll [] ctx).Inv ∧
      ∀ (r : Registration GoType) (e : String), (r.apply (runAll [] ctx)).2 = some e →
        (r.apply (runAll [] ctx)).1 = runAll [] ctx :=
  ⟨_, rfl, @registries_after_newContext asciiHash _ rfl []⟩

/-- After `NewContext`, `RegisterSignal` of `*StopSignal` again, under the tag `0` that no signal
holds, is accepted: `Signals` still sends the tag of `STOP` to `*StopSignal` but `SignalTypes`
sends `*StopSignal` to `0`.  And `RegisterType` of a new Go type under the tag of the kind `int`
is accepted: the tag is then both in `Types` and in `KindTypes`. -/
theorem newContext_stale_entries :
    ∃ ctx, newContext asciiHash = .ok ctx ∧
      ¬ (runAll [.signal .stopSignal 0] ctx).signals.Inverse ∧
      ((runAll [.type (.named "T") (newSerializedType asciiHash "int") true true] ctx).types.fwd
          (newSerializedType asciiHash "int")).isSome ∧
      ((runAll [.type (.named "T") (newSerializedType asciiHash "int") true true] ctx).kinds.rev
          (newSerializedType asciiHash "int")).isSome :=
  ⟨_, rfl, fun hinv =>
    absurd ((hinv (newSignalType asciiHash "STOP") .stopSignal).1 (by decide)) (by decide),
    by decide, by decide⟩

end Graphvent
