import Mathlib.Data.List.Dedup

/-!
# The lockable extension: data

The data the lockable extension of graphvent works on, as the Go source declares it:

* `ReqState`, `ReqInfo` and `LockableExt` (`lockable.go`), with `newLockableExt`
  (`NewLockableExt`);
* the signals the extension reads and sends (`signal.go`): a header with a UUID and a
  direction, and the payload of `LinkSignal`, `LockSignal`, `SuccessSignal` and `ErrorSignal`;
  every other signal type is `SignalKind.other`;
* `Message`: a signal on its way from a node to a node (`Messages.Add`).

UUIDs and node IDs are compared only for equality and are modelled by natural numbers; `0` is
the zero UUID `uuid.UUID{}`.  A Go `map[NodeID]ReqInfo` is a `ReqMap`: its entries in some
iteration order, each key once (the `nodup` field).  Reading an absent key gives the zero
`ReqInfo`, as in Go.
-/

namespace Graphvent

/-- `ReqState`: the state of a lockable, and of each of its requirements as it sees it. -/
inductive ReqState
  | unlocked
  | unlocking
  | locked
  | locking
  | abortingLock
  deriving DecidableEq, Repr

/-- `ReqInfo`: a requirement's sub-state and the UUID of the request in flight to it. -/
structure ReqInfo where
  state : ReqState
  msgID : ℕ
  deriving DecidableEq, Repr

/-- The zero `ReqInfo{Unlocked, uuid.UUID{}}`. -/
def ReqInfo.zero : ReqInfo := ⟨.unlocked, 0⟩

/-- A Go `map[NodeID]ReqInfo`: its entries in iteration order, each key once. -/
structure ReqMap where
  entries : List (ℕ × ReqInfo)
  nodup : (entries.map Prod.fst).Nodup

namespace ReqMap

/-- The empty map (also the nil map: no write ever goes to a nil `Requirements`). -/
def empty : ReqMap := ⟨[], List.nodup_nil⟩

/-- The keys, in iteration order. -/
def keys (m : ReqMap) : List ℕ := m.entries.map Prod.fst

/-- `v, found := m[id]`. -/
def find? (m : ReqMap) (id : ℕ) : Option ReqInfo :=
  (m.entries.find? fun e => e.1 = id).map Prod.snd

/-- `m[id]`, the zero value when `id` is absent. -/
def get (m : ReqMap) (id : ℕ) : ReqInfo := (m.find? id).getD .zero

theorem nodup_map_set {l : List (ℕ × ReqInfo)} (h : (l.map Prod.fst).Nodup) (id : ℕ)
    (info : ReqInfo) :
    ((l.map fun e => if e.1 = id then (id, info) else e).map Prod.fst).Nodup := by
  rw [List.map_map]
  convert h using 2
  funext e
  by_cases he : e.1 = id <;> simp [he]

/-- `m[id] = info`: overwrites the entry of `id`, or adds one. -/
def set (m : ReqMap) (id : ℕ) (info : ReqInfo) : ReqMap :=
  if h : id ∈ m.keys then
    ⟨m.entries.map fun e => if e.1 = id then (id, info) else e, nodup_map_set m.nodup id info⟩
  else
    ⟨m.entries ++ [(id, info)], by
      rw [List.map_append]
      exact m.nodup.append (List.nodup_singleton _) (List.disjoint_singleton.2 h)⟩

/-- `delete(m, id)`. -/
def erase (m : ReqMap) (id : ℕ) : ReqMap :=
  ⟨m.entries.filter fun e => e.1 ≠ id, m.nodup.sublist ((List.filter_sublist _).map _)⟩

theorem eq_of_mem {m : ReqMap} {e e' : ℕ × ReqInfo} (he : e ∈ m.entries)
    (he' : e' ∈ m.entries) (h : e.1 = e'.1) : e = e' :=
  List.inj_on_of_nodup_map m.nodup he he' h

theorem mem_keys {m : ReqMap} {id : ℕ} : id ∈ m.keys ↔ ∃ info, (id, info) ∈ m.entries := by
  simp [keys]

@[simp] theorem find?_eq_some {m : ReqMap} {id : ℕ} {info : ReqInfo} :
    m.find? id = some info ↔ (id, info) ∈ m.entries := by
  constructor
  · intro h
    obtain ⟨e, he, rfl⟩ := Option.map_eq_some'.1 h
    have hid : e.1 = id := by simpa using List.find?_some he
    simpa [← hid] using List.mem_of_find?_eq_some he
  · intro h
    have hs : (m.entries.find? fun e => decide (e.1 = id)).isSome :=
      List.find?_isSome.2 ⟨(id, info), h, by simp⟩
    obtain ⟨e, he⟩ := Option.isSome_iff_exists.1 hs
    have hid : e.1 = id := by simpa using List.find?_some he
    obtain rfl := eq_of_mem (List.mem_of_find?_eq_some he) h hid
    simp [find?, he]

@[simp] theorem find?_eq_none {m : ReqMap} {id : ℕ} : m.find? id = none ↔ id ∉ m.keys := by
  simp only [find?, Option.map_eq_none', List.find?_eq_none, decide_eq_true_eq, mem_keys,
    not_exists]
  exact ⟨fun h x hx => h _ hx rfl, fun h e he hid => h e.2 (hid ▸ he)⟩

theorem mem_set {m : ReqMap} {id : ℕ} {info : ReqInfo} {e : ℕ × ReqInfo} :
    e ∈ (m.set id info).entries ↔ e = (id, info) ∨ (e ∈ m.entries ∧ e.1 ≠ id) := by
  unfold set
  split
  · rename_i h
    obtain ⟨i0, hi0⟩ := mem_keys.1 h
    simp only [List.mem_map]
    constructor
    · rintro ⟨e0, he0, rfl⟩
      by_cases h0 : e0.1 = id <;> simp [h0, he0]
    · rintro (rfl | ⟨he, hne⟩)
      · exact ⟨_, hi0, by simp⟩
      · exact ⟨e, he, by simp [hne]⟩
  · rename_i h
    simp only [List.mem_append, List.mem_singleton]
    constructor
    · rintro (he | rfl)
      · exact .inr ⟨he, fun hid => h (mem_keys.2 ⟨e.2, by simpa [← hid] using he⟩)⟩
      · exact .inl rfl
    · rintro (rfl | ⟨he, -⟩) <;> simp [*]

theorem mem_erase {m : ReqMap} {id : ℕ} {e : ℕ × ReqInfo} :
    e ∈ (m.erase id).entries ↔ e ∈ m.entries ∧ e.1 ≠ id := by
  simp [erase]

theorem set_ne_nil (m : ReqMap) (id : ℕ) (info : ReqInfo) : (m.set id info).entries ≠ [] :=
  List.ne_nil_of_mem (mem_set.2 (.inl rfl))

theorem get_eq_of_mem {m : ReqMap} {id : ℕ} {info : ReqInfo} (h : (id, info) ∈ m.entries) :
    m.get id = info := by
  simp [get, find?_eq_some.2 h]

theorem mem_get {m : ReqMap} {id : ℕ} (h : id ∈ m.keys) : (id, m.get id) ∈ m.entries := by
  obtain ⟨info, hi⟩ := mem_keys.1 h
  rwa [get_eq_of_mem hi]

@[simp] theorem get_set_self (m : ReqMap) (id : ℕ) (info : ReqInfo) :
    (m.set id info).get id = info :=
  get_eq_of_mem (mem_set.2 (.inl rfl))

theorem get_set_ne {m : ReqMap} {id id' : ℕ} (info : ReqInfo) (h : id' ≠ id) (hk : id' ∈ m.keys) :
    (m.set id info).get id' = m.get id' :=
  get_eq_of_mem (mem_set.2 (.inr ⟨mem_get hk, h⟩))

theorem keys_set_of_mem {m : ReqMap} {id : ℕ} (info : ReqInfo) (h : id ∈ m.keys) :
    (m.set id info).keys = m.keys := by
  rw [set, dif_pos h]
  simpa [keys, Function.comp_def, apply_ite Prod.fst] using fun _ _ _ h => h.symm

theorem keys_set_of_not_mem {m : ReqMap} {id : ℕ} (info : ReqInfo) (h : id ∉ m.keys) :
    (m.set id info).keys = m.keys ++ [id] := by
  rw [set, dif_neg h]
  simp [keys]

end ReqMap

/-- `LockableExt`: the lock state of a node, its owner, the request being served and its
requirements. -/
structure LockableExt where
  state : ReqState
  reqID : Option ℕ
  owner : Option ℕ
  pendingOwner : Option ℕ
  pendingID : ℕ
  requirements : ReqMap

/-- `NewLockableExt(requirements)`: unlocked, no owner, every requirement unlocked. -/
def newLockableExt (requirements : List ℕ) : LockableExt where
  state := .unlocked
  reqID := none
  owner := none
  pendingOwner := none
  pendingID := 0
  requirements := ⟨requirements.dedup.map fun id => (id, .zero), by
    simpa [List.map_map, Function.comp_def] using List.nodup_dedup requirements⟩

/-! ### Signals and messages -/

/-- `SignalDirection`. -/
inductive SignalDirection
  | up
  | down
  | direct
  deriving DecidableEq, Repr

/-- The payload of a signal, by its Go type. -/
inductive SignalKind
  /-- `LinkSignal{NodeID, Action}`. -/
  | link (nodeID : ℕ) (action : String)
  /-- `LockSignal{State}`. -/
  | lock (state : String)
  /-- `SuccessSignal`, answering the request `reqID`. -/
  | success (reqID : ℕ)
  /-- `ErrorSignal{Error}`, answering the request `reqID`. -/
  | error (reqID : ℕ) (error : String)
  /-- Any other signal type (status, read, stop, ...), which the lockable only forwards. -/
  | other (type : String)
  deriving DecidableEq, Repr

/-- The request a success or error signal answers (`ResponseID()`). -/
def SignalKind.reqID? : SignalKind → Option ℕ
  | .success reqID => some reqID
  | .error reqID _ => some reqID
  | _ => none

/-- A signal: its `SignalHeader` (UUID and direction) and its payload. -/
structure Signal where
  id : ℕ
  dir : SignalDirection
  kind : SignalKind
  deriving DecidableEq, Repr

/-- `NewLockSignal(state)`, whose fresh UUID is `id`. -/
def newLockSignal (id : ℕ) (state : String) : Signal := ⟨id, .direct, .lock state⟩

/-- `NewLinkSignal(action, nodeID)`, whose fresh UUID is `id`. -/
def newLinkSignal (id : ℕ) (action : String) (nodeID : ℕ) : Signal :=
  ⟨id, .direct, .link nodeID action⟩

/-- `NewSuccessSignal(reqID)`, whose fresh UUID is `id`. -/
def newSuccessSignal (id reqID : ℕ) : Signal := ⟨id, .direct, .success reqID⟩

/-- `NewErrorSignal(reqID, err)`, whose fresh UUID is `id`. -/
def newErrorSignal (id reqID : ℕ) (err : String) : Signal := ⟨id, .direct, .error reqID err⟩

/-- A message: `signal` sent by `source` to `dest` (the signature is not modelled). -/
structure Message where
  source : ℕ
  dest : ℕ
  signal : Signal
  deriving DecidableEq, Repr

/-- `Changes`: the names of the fields a handler changed. -/
abbrev Changes := List String

/-- The panic of a nil pointer dereference. -/
def nilDereference : String := "runtime error: invalid memory address or nil pointer dereference"

/-- `*p`: panics on a nil pointer. -/
def deref {α : Type} : Option α → Except String α
  | some a => .ok a
  | none => .error nilDereference

end Graphvent
