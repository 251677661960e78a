import Graphvent.Go.Runtime

/-!
# The node database: `WriteNodes` and `readNodeBytes`

`WriteNodes(ctx, nodes)` (`node.go`) stores every node of a `NodeMap` under the bytes of its
ID: a 12-byte `DBHeader` (the magic `NODE_DB_MAGIC` and the hash of the node's type,
big-endian) followed by the bytes of `node.Serialize()`, all in one badger transaction.  It
first builds the bytes of every node, in the order `range` visits the map, and returns the first
error of `getNodeBytes` (a nil node, or a `Serialize` error) before the transaction starts.
`readNodeBytes(ctx, id)` gets the value stored under the ID, checks its length and its magic,
and returns the type hash and the bytes after the header.

* `writeNodes_error`: a nil node, or one that fails to serialize, makes `WriteNodes` return an
  error and leave the store as it was;
* `writeNodes_ok`: when badger refuses none of the writes, `WriteNodes` of nodes that all
  serialize, with non-empty IDs, succeeds;
* `readNodeBytes_writeNodes`: after `WriteNodes` succeeds, reading a node's ID gives back its type
  hash and its serialized bytes, provided the nodes of the map that share an ID are one node;
  two different nodes with one ID are written under one key, and the later `Set` wins;
* `readNodeBytes_safe`: `readNodeBytes` never panics and reads only inside the stored value;
  `readNodeBytes_malformed`: a value shorter than the header or with another magic gives an
  error.

A Go `string` is a sequence of bytes, so a `NodeID` is its bytes and `NodeID.Serialize()`,
`[]byte(id)`, returns them.  The badger store is the map from keys to the values it holds
(`Badger.get`); the writes `txn.Set` refuses besides an empty key (badger's reserved prefix, its
size limits, a transaction grown too big) are a field of the store.  What the database code reads
of a node is its `ID()`, the `Hash()` of its `Type()` (a SHA-256 digest cut to 64 bits, taken as
given) and what its `Serialize()` returns (`DBNode`).  The log lines are not modelled.
-/

namespace Graphvent

open GoM

/-! ### IDs, nodes and the header -/

/-- `NodeID`: a Go `string`, that is, a sequence of bytes. -/
structure NodeID where
  bytes : List UInt8
  deriving DecidableEq, Repr

/-- `NodeID.Serialize`: `[]byte(id)`. -/
def NodeID.serialize (id : NodeID) : List UInt8 := id.bytes

/-- The bytes of a Go string constant. -/
def goString (s : String) : List UInt8 := s.toUTF8.data.toList

/-- What the database code reads of a `Node`: `ID()`, `Type().Hash()` and `Serialize()`. -/
structure DBNode where
  id : NodeID
  typeHash : UInt64
  serialized : Except String (List UInt8)
  deriving DecidableEq

/-- A Go map keyed by `NodeID`: its entries in the order `range` visits them, each key once.  Go
leaves that order unspecified, so every result holds for every order. -/
structure NodeMap (ν : Type) where
  entries : List (NodeID × ν)
  nodup : (entries.map Prod.fst).Nodup

/-- The non-nil nodes of a `NodeMap`. -/
def NodeMap.nodes (m : NodeMap (Option DBNode)) : List DBNode := m.entries.filterMap Prod.snd

/-- Any two nodes of the map with the same ID are the same node. -/
def NodeMap.idsDistinct (m : NodeMap (Option DBNode)) : Prop :=
  ∀ n ∈ m.nodes, ∀ n' ∈ m.nodes, n.id = n'.id → n = n'

instance : DecidablePred NodeMap.idsDistinct := fun m =>
  inferInstanceAs (Decidable (∀ n ∈ m.nodes, ∀ n' ∈ m.nodes, n.id = n'.id → n = n'))

/-- `NODE_DB_MAGIC`. -/
def nodeDBMagic : UInt32 := 0x2491df14

/-- `NODE_DB_HEADER_LEN`. -/
def nodeDBHeaderLen : ℕ := 12

/-- `DBHeader`. -/
structure DBHeader where
  magic : UInt32
  typeHash : UInt64
  deriving DecidableEq, Repr

/-- `DBHeader.Serialize`: the magic and the type hash, big-endian.  A header with another magic
panics; the panic's message is the error here. -/
def DBHeader.serialize (header : DBHeader) : Except String (List UInt8) :=
  if header.magic ≠ nodeDBMagic then
    .error ("Serializing header with invalid magic " ++ hex header.magic.toNat)
  else .ok (putBE 4 header.magic.toNat ++ putBE 8 header.typeHash.toNat)

/-- `NewDBHeader(node_type)`, for a type whose `Hash()` is `typeHash`. -/
def newDBHeader (typeHash : UInt64) : DBHeader := ⟨nodeDBMagic, typeHash⟩

theorem serialize_newDBHeader (typeHash : UInt64) :
    (newDBHeader typeHash).serialize =
      .ok (putBE 4 nodeDBMagic.toNat ++ putBE 8 typeHash.toNat) :=
  if_neg (not_not.2 rfl)

/-- `fmt.Errorf("DB_SERIALIZE_ERROR: %e", err)`, for an error `errors.New` or `fmt.Errorf` made:
a pointer to a struct holding the text.  `%e` is a verb for numbers, so `fmt` does not call
`Error()`: it prints the pointer as `&` and the struct, and reports the verb on its string
field. -/
def dbSerializeError (err : String) : String :=
  "DB_SERIALIZE_ERROR: &\x7b%!e(string=" ++ err ++ ")\x7d"

/-- The error of `getNodeBytes` for a nil node. -/
def nilNodeError : String := "DB_SERIALIZE_ERROR: cannot serialize nil node"

/-- `getNodeBytes(ctx, node)`: the header of the node's type, then its serialization. -/
def getNodeBytes : Option DBNode → Except String (List UInt8)
  | none => .error nilNodeError
  | some node =>
    match node.serialized with
    | .error err => .error (dbSerializeError err)
    | .ok ser => (newDBHeader node.typeHash).serialize.map (· ++ ser)

/-- The value stored for a node of type hash `typeHash` that serializes to `ser`. -/
def nodeRecord (typeHash : UInt64) (ser : List UInt8) : List UInt8 :=
  putBE 4 nodeDBMagic.toNat ++ putBE 8 typeHash.toNat ++ ser

theorem getNodeBytes_of_ok {n : DBNode} {ser : List UInt8} (h : n.serialized = .ok ser) :
    getNodeBytes (some n) = .ok (nodeRecord n.typeHash ser) := by
  rw [getNodeBytes, h]
  simp only [serialize_newDBHeader]
  rfl

theorem getNodeBytes_of_error {n : DBNode} {err : String} (h : n.serialized = .error err) :
    getNodeBytes (some n) = .error (dbSerializeError err) := by
  rw [getNodeBytes, h]

/-! ### Badger -/

/-- The errors of badger these functions meet. -/
inductive BadgerError
  /-- `ErrEmptyKey`: `Get` or `Set` of an empty key. -/
  | emptyKey
  /-- `ErrKeyNotFound`: `Get` of a key the store does not hold. -/
  | keyNotFound
  /-- Another error of `txn.Set`. -/
  | refused (err : String)
  deriving DecidableEq, Repr

/-- `Error()` of a badger error. -/
def BadgerError.text : BadgerError → String
  | .emptyKey => "Key cannot be empty"
  | .keyNotFound => "Key not found"
  | .refused err => err

/-- A badger database: the value it stores under each key, and the writes `txn.Set` refuses
besides an empty key. -/
structure Badger where
  /-- The value stored under each key. -/
  get : List UInt8 → Option (List UInt8)
  /-- The error of `txn.Set(key, value)` after the writes `pending` of its transaction, if
  any. -/
  refuses : List (List UInt8 × List UInt8) → List UInt8 → List UInt8 → Option String

namespace Badger

/-- The store after `key` is set to `value`. -/
def put (db : Badger) (key value : List UInt8) : Badger :=
  { db with get := fun k => if k = key then some value else db.get k }

/-- `txn.Set(key, value)` in a transaction whose earlier writes are `pending`. -/
def set (db : Badger) (pending : List (List UInt8 × List UInt8)) (key value : List UInt8) :
    Except BadgerError (List (List UInt8 × List UInt8)) :=
  if key = [] then .error .emptyKey else
  match db.refuses pending key value with
  | some err => .error (.refused err)
  | none => .ok (pending ++ [(key, value)])

/-- The loop of `WriteNodes`'s transaction: `txn.Set` of each key and value in turn, up to the
first error. -/
def setAll (db : Badger) (pending : List (List UInt8 × List UInt8)) :
    List (List UInt8 × List UInt8) → Except BadgerError (List (List UInt8 × List UInt8))
  | [] => .ok pending
  | (key, value) :: writes => do db.setAll (← db.set pending key value) writes

/-- `txn.Commit()`: the writes in order, so that the last write of a key wins. -/
def commit (db : Badger) : List (List UInt8 × List UInt8) → Badger
  | [] => db
  | (key, value) :: writes => (db.put key value).commit writes

/-- `DB.Update` with `WriteNodes`'s transaction: committed when every `Set` succeeds, discarded
with the first error otherwise. -/
def update (db : Badger) (writes : List (List UInt8 × List UInt8)) :
    Except BadgerError Unit × Badger :=
  match db.setAll [] writes with
  | .error err => (.error err, db)
  | .ok pending => (.ok (), db.commit pending)

/-- `txn.Get(key)` in `DB.View`, and the copy `item.Value` hands over. -/
def view (db : Badger) (key : List UInt8) : Except BadgerError (List UInt8) :=
  if key = [] then .error .emptyKey else
  match db.get key with
  | some value => .ok value
  | none => .error .keyNotFound

theorem view_of_get {db : Badger} {key value : List UInt8} (hk : key ≠ []) (h : db.get key = some value) :
    db.view key = .ok value := by
  rw [view, if_neg hk, h]

theorem setAll_eq_ok {db : Badger} :
    ∀ {pending writes pending'}, db.setAll pending writes = .ok pending' →
      pending' = pending ++ writes ∧ ∀ w ∈ writes, w.1 ≠ []
  | _, [], _, h => by cases h; simp
  | pending, (key, value) :: writes, _, h => by
    unfold setAll set at h
    split_ifs at h with hk
    · cases h
    split at h
    · cases h
    · obtain ⟨rfl, hw⟩ := setAll_eq_ok h
      refine ⟨by rw [List.append_assoc, List.singleton_append], ?_⟩
      rintro w (_ | ⟨_, hw'⟩)
      · exact hk
      · exact hw w hw'

theorem setAll_of_accepts {db : Badger} (hacc : ∀ p k v, db.refuses p k v = none) :
    ∀ {pending writes}, (∀ w ∈ writes, w.1 ≠ []) → db.setAll pending writes = .ok (pending ++ writes)
  | _, [], _ => by simp [setAll]
  | pending, (key, value) :: writes, hk => by
    have hkey : key ≠ [] := hk _ (List.mem_cons_self _ _)
    rw [setAll, set, if_neg hkey, hacc, bind, Except.instMonad]
    simp only [Except.bind]
    rw [setAll_of_accepts hacc fun w hw => hk w (List.mem_cons_of_mem _ hw), List.append_assoc,
      List.singleton_append]

theorem get_commit_of_not_mem (key : List UInt8) :
    ∀ (db : Badger) (writes : List (List UInt8 × List UInt8)), key ∉ writes.map Prod.fst →
      (db.commit writes).get key = db.get key
  | _, [], _ => rfl
  | db, (k, v) :: writes, h => by
    simp only [List.map_cons, List.mem_cons, not_or] at h
    rw [commit, get_commit_of_not_mem key _ writes h.2]
    exact if_neg h.1

theorem get_commit_of_mem {key value : List UInt8} :
    ∀ (db : Badger) (writes : List (List UInt8 × List UInt8)), (key, value) ∈ writes →
      (∀ v, (key, v) ∈ writes → v = value) → (db.commit writes).get key = some value
  | _, [], h, _ => absurd h (List.not_mem_nil _)
  | db, (k, v) :: writes, h, hv => by
    rw [commit]
    by_cases hw : (key, value) ∈ writes
    · exact get_commit_of_mem _ writes hw fun v' h' => hv v' (List.mem_cons_of_mem _ h')
    · obtain ⟨rfl, rfl⟩ : key = k ∧ value = v := by simpa [hw] using h
      have hk : key ∉ writes.map Prod.fst := fun hk => by
        obtain ⟨⟨_, v'⟩, hm, rfl⟩ := List.mem_map.1 hk
        exact hw (hv v' (List.mem_cons_of_mem _ hm) ▸ hm)
      rw [get_commit_of_not_mem key _ writes hk]
      exact if_pos rfl

theorem update_eq_ok {db : Badger} {writes : List (List UInt8 × List UInt8)}
    (h : (db.update writes).1 = .ok ()) :
    (db.update writes).2 = db.commit writes ∧ ∀ w ∈ writes, w.1 ≠ [] := by
  unfold update at h ⊢
  split at h
  · cases h
  · rename_i heq
    obtain ⟨rfl, hk⟩ := setAll_eq_ok heq
    exact ⟨rfl, hk⟩

end Badger

/-! ### `WriteNodes` -/

/-- The first loop of `WriteNodes`: the key and the bytes of each node, in the order `range`
visits them, or the first error of `getNodeBytes` (for a nil node, `nilNodeError`). -/
def nodeWrites : List (Option DBNode) → Except String (List (List UInt8 × List UInt8))
  | [] => .ok []
  | none :: _ => .error nilNodeError
  | some node :: nodes => do
    let nodeBytes ← getNodeBytes (some node)
    let writes ← nodeWrites nodes
    pure ((node.id.serialize, nodeBytes) :: writes)

/-- `WriteNodes(ctx, nodes)`: its error, and the store after it (`none` is a nil map). -/
def writeNodes (db : Badger) : Option (NodeMap (Option DBNode)) → Except String Unit × Badger
  | none => (.error "Cannot write nil map to DB", db)
  | some nodes =>
    match nodeWrites (nodes.entries.map Prod.snd) with
    | .error err => (.error err, db)
    | .ok writes => ((db.update writes).1.mapError BadgerError.text, (db.update writes).2)

theorem getNodeBytes_none : getNodeBytes none = .error nilNodeError := rfl

theorem mem_nodeWrites :
    ∀ {nodes : List (Option DBNode)} {writes}, nodeWrites nodes = .ok writes →
      ∀ w, w ∈ writes ↔
        ∃ n ser, some n ∈ nodes ∧ n.serialized = .ok ser ∧ w = (n.id.serialize, nodeRecord n.typeHash ser)
  | [], _, h, w => by cases h; simp
  | none :: _, _, h, _ => by cases h
  | some n :: nodes, writes, h, w => by
    rcases hs : n.serialized with err | ser
    · rw [nodeWrites, getNodeBytes_of_error hs] at h
      cases h
    · rw [nodeWrites, getNodeBytes_of_ok hs] at h
      rcases hr : nodeWrites nodes with err | rest
      · rw [hr] at h
        cases h
      · rw [hr] at h
        cases h
        rw [List.mem_cons, mem_nodeWrites hr]
        constructor
        · rintro (rfl | ⟨n', ser', hn', hs', rfl⟩)
          · exact ⟨n, ser, List.mem_cons_self _ _, hs, rfl⟩
          · exact ⟨n', ser', List.mem_cons_of_mem _ hn', hs', rfl⟩
        · rintro ⟨n', ser', hn' | ⟨_, hn'⟩, hs', rfl⟩
          · rw [hs] at hs'
            cases hs'
            exact .inl rfl
          · exact .inr ⟨n', ser', hn', hs', rfl⟩

theorem nodeWrites_error :
    ∀ {nodes : List (Option DBNode)}, (none ∈ nodes ∨ ∃ n err, some n ∈ nodes ∧ n.serialized = .error err) →
      ∃ err, nodeWrites nodes = .error err
  | [], h => by simp at h
  | none :: _, _ => ⟨_, rfl⟩
  | some n :: nodes, h => by
    rcases hs : n.serialized with err | ser
    · exact ⟨dbSerializeError err, by rw [nodeWrites, getNodeBytes_of_error hs]; rfl⟩
    · have hr : none ∈ nodes ∨ ∃ n err, some n ∈ nodes ∧ n.serialized = .error err := by
        rcases h with h | ⟨n', err, hn' | ⟨_, hn'⟩, he⟩
        · exact .inl (by simpa using h)
        · rw [hs] at he
          cases he
        · exact .inr ⟨n', err, hn', he⟩
      obtain ⟨err, he⟩ := nodeWrites_error hr
      exact ⟨err, by rw [nodeWrites, getNodeBytes_of_ok hs]; simp only [he]; rfl⟩

theorem nodeWrites_ok :
    ∀ {nodes : List (Option DBNode)}, (∀ node ∈ nodes, ∃ n ser, node = some n ∧ n.serialized = .ok ser) →
      ∃ writes, nodeWrites nodes = .ok writes
  | [], _ => ⟨[], rfl⟩
  | node :: nodes, h => by
    obtain ⟨n, ser, rfl, hs⟩ := h node (List.mem_cons_self _ _)
    obtain ⟨writes, hw⟩ := nodeWrites_ok fun node hn => h node (List.mem_cons_of_mem _ hn)
    exact ⟨_, by rw [nodeWrites, getNodeBytes_of_ok hs]; simp only [hw]; rfl⟩

/-- A nil node, or a node that fails to serialize, makes `WriteNodes` return an error before its
transaction: the store is left as it was. -/
theorem writeNodes_error (db : Badger) (m : NodeMap (Option DBNode))
    (hbad : (∃ k, (k, none) ∈ m.entries) ∨
      ∃ k n err, (k, some n) ∈ m.entries ∧ n.serialized = .error err) :
    (∃ err, (writeNodes db (some m)).1 = .error err) ∧ (writeNodes db (some m)).2 = db := by
  obtain ⟨err, he⟩ := @nodeWrites_error (m.entries.map Prod.snd) (by
    rcases hbad with ⟨k, hk⟩ | ⟨k, n, err, hk, he⟩
    · exact .inl (List.mem_map_of_mem _ hk)
    · exact .inr ⟨n, err, List.mem_map_of_mem _ hk, he⟩)
  refine ⟨⟨err, ?_⟩, ?_⟩ <;> simp only [writeNodes, he]

/-- When badger refuses none of the writes, `WriteNodes` of nodes that all serialize, under
non-empty IDs, succeeds. -/
theorem writeNodes_ok (db : Badger) (m : NodeMap (Option DBNode))
    (hacc : ∀ p k v, db.refuses p k v = none)
    (hser : ∀ e ∈ m.entries, ∃ n ser, e.2 = some n ∧ n.serialized = .ok ser ∧ n.id.bytes ≠ []) :
    (writeNodes db (some m)).1 = .ok () := by
  obtain ⟨writes, hw⟩ := @nodeWrites_ok (m.entries.map Prod.snd) (by
    simp only [List.mem_map]
    rintro _ ⟨e, he, rfl⟩
    obtain ⟨n, ser, hn, hs, -⟩ := hser e he
    exact ⟨n, ser, hn, hs⟩)
  have hkeys : ∀ w ∈ writes, w.1 ≠ [] := by
    intro w hmem
    obtain ⟨n, ser, hn, -, rfl⟩ := (mem_nodeWrites hw w).1 hmem
    obtain ⟨e, he, hen⟩ := List.mem_map.1 hn
    obtain ⟨n', ser', hn', -, hid⟩ := hser e he
    rw [hen] at hn'
    cases hn'
    exact hid
  simp only [writeNodes, hw, Badger.update, Badger.setAll_of_accepts hacc hkeys]
  rfl

/-! ### `readNodeBytes` -/

/-- The errors `readNodeBytes` returns. -/
inductive ReadError
  /-- The error of `DB.View`: `Get` of an empty key, or of a key the store does not hold. -/
  | badger (err : BadgerError)
  /-- `header for %s is %d/%d bytes`. -/
  | shortHeader (id : NodeID) (len : ℕ)
  /-- `header for %s, invalid magic 0x%x`. -/
  | invalidMagic (id : NodeID) (magic : UInt32)
  deriving DecidableEq, Repr

/-- The text of the error, as the bytes of a Go string (`%s` of an ID writes its bytes). -/
def ReadError.text : ReadError → List UInt8
  | .badger err => goString err.text
  | .shortHeader id len => goString "header for " ++ id.bytes ++
      goString (" is " ++ toString len ++ "/" ++ toString nodeDBHeaderLen ++ " bytes")
  | .invalidMagic id magic => goString "header for " ++ id.bytes ++
      goString (", invalid magic 0x" ++ hex magic.toNat)

/-- `readNodeBytes(ctx, id)`: the type hash and a copy of the bytes after the header.  `bytes`
is the copy `append` makes of the stored value; its capacity past its length is never read
(`readNodeBytes_safe`). -/
def readNodeBytes (db : Badger) (id : NodeID) : GoM (Except ReadError (UInt64 × List UInt8)) :=
  match db.view id.serialize with
  | .error err => pure (.error (.badger err))
  | .ok value =>
    let bytes : GoSlice := ⟨value, []⟩
    if bytes.bytes.length < nodeDBHeaderLen then
      pure (.error (.shortHeader id bytes.bytes.length))
    else do
      let magic := UInt32.ofNat (getBE (← bytes.slice 0 4).bytes)
      let typeHash := UInt64.ofNat (getBE (← bytes.slice 4 12).bytes)
      if magic ≠ nodeDBMagic then pure (.error (.invalidMagic id magic)) else do
      makeSlice 1 ((bytes.bytes.length : ℤ) - nodeDBHeaderLen)
      let nodeBytes ← bytes.sliceFrom nodeDBHeaderLen
      pure (.ok (typeHash, nodeBytes.bytes))

theorem readNodeBytes_of_short {db : Badger} {id : NodeID} {value : List UInt8}
    (hv : db.view id.serialize = .ok value) (hlen : value.length < nodeDBHeaderLen) :
    readNodeBytes db id = pure (.error (.shortHeader id value.length)) := by
  rw [readNodeBytes, hv]
  exact if_pos hlen

theorem readNodeBytes_of_badMagic {db : Badger} {id : NodeID} {value : List UInt8}
    (hv : db.view id.serialize = .ok value) (hlen : nodeDBHeaderLen ≤ value.length)
    (hm : UInt32.ofNat (getBE (value.take 4)) ≠ nodeDBMagic) :
    readNodeBytes db id = ⟨[.slice 0 4, .slice 4 12],
      .ok (.error (.invalidMagic id (UInt32.ofNat (getBE (value.take 4)))))⟩ := by
  have h12 : (12 : ℤ) ≤ value.length := by unfold nodeDBHeaderLen at hlen; omega
  have hcap : (⟨value, []⟩ : GoSlice).cap = value.length := by simp [GoSlice.cap, GoSlice.backing]
  rw [readNodeBytes, hv]
  dsimp only
  rw [if_neg (by omega), GoSlice.slice_of_le le_rfl (by decide) (by omega), bind_ok rfl,
    GoSlice.slice_of_le (by decide) (by decide) (by omega), bind_ok rfl]
  simp only [GoSlice.backing, List.append_nil, List.drop_zero, Int.reduceSub, Int.reduceToNat]
  rw [if_pos hm]
  rfl

/-- A value with the magic: the bytes after the header are copied into a slice of their
length, which `make` allocates when it fits in memory. -/
theorem readNodeBytes_of_magic {db : Badger} {id : NodeID} {value : List UInt8}
    (hv : db.view id.serialize = .ok value) (hlen : nodeDBHeaderLen ≤ value.length)
    (hm : UInt32.ofNat (getBE (value.take 4)) = nodeDBMagic)
    (hfit : value.length ≤ nodeDBHeaderLen + maxAlloc) :
    readNodeBytes db id =
      ⟨[.slice 0 4, .slice 4 12, .make (value.length - 12), .slice 12 value.length],
        .ok (.ok (UInt64.ofNat (getBE ((value.drop 4).take 8)), value.drop 12))⟩ := by
  have h12 : (12 : ℤ) ≤ value.length := by unfold nodeDBHeaderLen at hlen; omega
  have hcap : (⟨value, []⟩ : GoSlice).cap = value.length := by simp [GoSlice.cap, GoSlice.backing]
  have hmake : ¬(((value.length : ℤ) - nodeDBHeaderLen) < 0 ∨
      (maxAlloc : ℤ) < (1 : ℕ) * ((value.length : ℤ) - nodeDBHeaderLen)) := by
    unfold nodeDBHeaderLen at hfit ⊢; omega
  rw [readNodeBytes, hv]
  dsimp only
  rw [if_neg (by omega), GoSlice.slice_of_le le_rfl (by decide) (by omega), bind_ok rfl,
    GoSlice.slice_of_le (by decide) (by decide) (by omega), bind_ok rfl]
  simp only [GoSlice.backing, List.append_nil, List.drop_zero, Int.reduceSub, Int.reduceToNat]
  rw [if_neg (not_not.2 hm), bind_ok (by rw [result_makeSlice, if_neg hmake]),
    GoSlice.sliceFrom_of_le (by decide) (by simp [nodeDBHeaderLen]; omega), bind_ok rfl]
  simp [nodeDBHeaderLen]

theorem readNodeBytes_of_record {db : Badger} {id : NodeID} {typeHash : UInt64}
    {ser : List UInt8} (hv : db.view id.serialize = .ok (nodeRecord typeHash ser))
    (hfit : ser.length ≤ maxAlloc) :
    (readNodeBytes db id).result = .ok (.ok (typeHash, ser)) := by
  have h₁₂ : (putBE 4 nodeDBMagic.toNat ++ putBE 8 typeHash.toNat).length = 12 := by simp
  have hlen : (nodeRecord typeHash ser).length = nodeDBHeaderLen + ser.length := by
    rw [nodeRecord, List.length_append, h₁₂]
    rfl
  have hmagic : UInt32.ofNat (getBE ((nodeRecord typeHash ser).take 4)) = nodeDBMagic := by
    rw [nodeRecord, List.append_assoc, take_putBE_append, getBE_putBE]
    rfl
  have hh : typeHash.toNat % 256 ^ 8 = typeHash.toNat := Nat.mod_eq_of_lt typeHash.toNat_lt_size
  rw [readNodeBytes_of_magic hv (by omega) hmagic (by omega), nodeRecord, List.drop_left' h₁₂]
  simp only [List.append_assoc, drop_putBE_append, take_putBE_append, getBE_putBE, hh,
    uint64_ofNat_toNat]

/-- `readNodeBytes` never panics on a value that fits in memory, and every slice it takes lies
inside the value. -/
theorem readNodeBytes_safe (db : Badger) (id : NodeID)
    (hfit : ∀ value, db.view id.serialize = .ok value → value.length ≤ nodeDBHeaderLen + maxAlloc) :
    (∃ r, (readNodeBytes db id).result = .ok r) ∧
      ∀ a ∈ (readNodeBytes db id).trace,
        ∃ value, db.view id.serialize = .ok value ∧ a.within value.length := by
  rcases hv : db.view id.serialize with err | value
  · rw [readNodeBytes, hv]
    exact ⟨⟨_, rfl⟩, fun a ha => absurd ha (List.not_mem_nil a)⟩
  have hin : ∀ a ∈ [Access.slice 0 4, .slice 4 12, .make (value.length - 12),
      .slice 12 value.length], nodeDBHeaderLen ≤ value.length → a.within value.length := by
    simp only [List.mem_cons, List.mem_singleton, List.not_mem_nil, or_false, nodeDBHeaderLen]
    rintro a (rfl | rfl | rfl | rfl) h <;> simp only [Access.within] <;> omega
  by_cases hlen : value.length < nodeDBHeaderLen
  · rw [readNodeBytes_of_short hv hlen]
    exact ⟨⟨_, rfl⟩, fun a ha => absurd ha (List.not_mem_nil a)⟩
  by_cases hm : UInt32.ofNat (getBE (value.take 4)) = nodeDBMagic
  · rw [readNodeBytes_of_magic hv (by omega) hm (hfit value hv)]
    exact ⟨⟨_, rfl⟩, fun a ha => ⟨value, rfl, hin a ha (by omega)⟩⟩
  · rw [readNodeBytes_of_badMagic hv (by omega) hm]
    exact ⟨⟨_, rfl⟩, fun a ha => ⟨value, rfl, hin a (by simp only [List.mem_cons, List.mem_singleton] at ha ⊢; tauto) (by omega)⟩⟩

/-- The record of a node of type hash `7` with the byte `1`, the only value of the store, under
`"a"`. -/
theorem readNodeBytes_safe_a :
    (∃ r, (readNodeBytes ⟨fun k => if k = [0x61] then some (nodeRecord 7 [1]) else none,
        fun _ _ _ => none⟩ ⟨[0x61]⟩).result = .ok r) ∧
      ∀ a ∈ (readNodeBytes ⟨fun k => if k = [0x61] then some (nodeRecord 7 [1]) else none,
          fun _ _ _ => none⟩ ⟨[0x61]⟩).trace,
        ∃ value, Badger.view ⟨fun k => if k = [0x61] then some (nodeRecord 7 [1]) else none,
          fun _ _ _ => none⟩ [0x61] = .ok value ∧ a.within value.length :=
  readNodeBytes_safe _ _ fun value h => by
    obtain rfl : nodeRecord 7 [1] = value := Except.ok.inj h
    decide

/-- A value shorter than the header, or with another magic, gives an error, and `readNodeBytes`
reads only inside it. -/
theorem readNodeBytes_malformed {db : Badger} {id : NodeID} {value : List UInt8}
    (hget : db.get id.serialize = some value)
    (hbad : value.length < nodeDBHeaderLen ∨ UInt32.ofNat (getBE (value.take 4)) ≠ nodeDBMagic) :
    (∃ err, (readNodeBytes db id).result = .ok (.error err)) ∧
      ∀ a ∈ (readNodeBytes db id).trace, a.within value.length := by
  by_cases hk : id.serialize = []
  · have hv : db.view id.serialize = .error .emptyKey := if_pos hk
    rw [readNodeBytes, hv]
    exact ⟨⟨_, rfl⟩, fun a ha => absurd ha (List.not_mem_nil a)⟩
  have hv := Badger.view_of_get hk hget
  by_cases hlen : value.length < nodeDBHeaderLen
  · rw [readNodeBytes_of_short hv hlen]
    exact ⟨⟨_, rfl⟩, fun a ha => absurd ha (List.not_mem_nil a)⟩
  · rw [readNodeBytes_of_badMagic hv (by omega) (hbad.resolve_left hlen)]
    unfold nodeDBHeaderLen at hlen
    refine ⟨⟨_, rfl⟩, ?_⟩
    simp only [List.mem_cons, List.mem_singleton, List.not_mem_nil, or_false]
    rintro a (rfl | rfl) <;> simp only [Access.within] <;> omega

theorem NodeID.serialize_injective : Function.Injective NodeID.serialize :=
  fun ⟨_⟩ ⟨_⟩ h => congrArg NodeID.mk h

theorem NodeMap.mem_nodes {m : NodeMap (Option DBNode)} {n : DBNode} :
    n ∈ m.nodes ↔ some n ∈ m.entries.map Prod.snd := by
  simp [NodeMap.nodes, List.mem_filterMap]

/-- **Read after write.**  After `WriteNodes` succeeds, the ID of a node of the map reads back
as its type hash and its bytes, when the nodes of the map that share an ID are one node (and the
bytes, a Go slice, fit in memory). -/
theorem readNodeBytes_writeNodes {db : Badger} {m : NodeMap (Option DBNode)}
    (hw : (writeNodes db (some m)).1 = .ok ()) (hid : m.idsDistinct) {k : NodeID} {n : DBNode}
    {ser : List UInt8} (hn : (k, some n) ∈ m.entries) (hs : n.serialized = .ok ser)
    (hfit : ser.length ≤ maxAlloc) :
    (readNodeBytes (writeNodes db (some m)).2 n.id).result = .ok (.ok (n.typeHash, ser)) := by
  rcases hr : nodeWrites (m.entries.map Prod.snd) with err | writes
  · simp only [writeNodes, hr] at hw
    cases hw
  have hu : (db.update writes).1 = .ok () := by
    simp only [writeNodes, hr] at hw
    rcases h1 : (db.update writes).1 with e | _
    · rw [h1] at hw
      cases hw
    · rfl
  obtain ⟨hdb, hkeys⟩ := Badger.update_eq_ok hu
  have hmem : (n.id.serialize, nodeRecord n.typeHash ser) ∈ writes :=
    (mem_nodeWrites hr _).2 ⟨n, ser, List.mem_map_of_mem _ hn, hs, rfl⟩
  have honly : ∀ v, (n.id.serialize, v) ∈ writes → v = nodeRecord n.typeHash ser := by
    intro v hv
    obtain ⟨n', ser', hn', hs', he⟩ := (mem_nodeWrites hr _).1 hv
    obtain ⟨hkey, rfl⟩ := Prod.mk.inj he
    obtain rfl := hid n' (NodeMap.mem_nodes.2 hn') n (NodeMap.mem_nodes.2 (List.mem_map_of_mem _ hn))
      (NodeID.serialize_injective hkey).symm
    rw [hs] at hs'
    cases hs'
    rfl
  have hget := Badger.get_commit_of_mem db writes hmem honly
  simp only [writeNodes, hr, hdb]
  exact readNodeBytes_of_record (Badger.view_of_get (hkeys _ hmem) hget) hfit

/-! ### The node database -/

/-- An empty store that refuses no write. -/
def Badger.empty : Badger := ⟨fun _ => none, fun _ _ _ => none⟩

/-- A map of two nodes, under the keys `"1"` and `"2"`. -/
def twoNodes (first second : DBNode) : NodeMap (Option DBNode) :=
  ⟨[(⟨[0x31]⟩, some first), (⟨[0x32]⟩, some second)], by simp⟩

/-- **The node database.**  After `WriteNodes` succeeds, every node of the map reads back as its
type hash and its serialized bytes, provided the nodes of the map that share an ID are one node;
a nil node or a node that fails to serialize makes `WriteNodes` return an error and leave the
store as it was; and a stored value shorter than the header or with another magic gives an error,
with every slice inside the value. -/
theorem writeNodes_readBack (db : Badger) (m : NodeMap (Option DBNode)) :
    ((writeNodes db (some m)).1 = .ok () → m.idsDistinct →
      ∀ k n ser, (k, some n) ∈ m.entries → n.serialized = .ok ser → ser.length ≤ maxAlloc →
        (readNodeBytes (writeNodes db (some m)).2 n.id).result = .ok (.ok (n.typeHash, ser))) ∧
    (((∃ k, (k, none) ∈ m.entries) ∨
        ∃ k n err, (k, some n) ∈ m.entries ∧ n.serialized = .error err) →
      (∃ err, (writeNodes db (some m)).1 = .error err) ∧ (writeNodes db (some m)).2 = db) ∧
    (∀ id value, db.get id.serialize = some value →
      (value.length < nodeDBHeaderLen ∨ UInt32.ofNat (getBE (value.take 4)) ≠ nodeDBMagic) →
      (∃ err, (readNodeBytes db id).result = .ok (.error err)) ∧
        ∀ a ∈ (readNodeBytes db id).trace, a.within value.length) :=
  ⟨fun hw hid _ _ _ hn hs hfit => readNodeBytes_writeNodes hw hid hn hs hfit,
    writeNodes_error db m, fun _ _ hget hbad => readNodeBytes_malformed hget hbad⟩

theorem twoNodes_readBack :
    (writeNodes Badger.empty (some (twoNodes ⟨⟨[0x61]⟩, 7, .ok [1]⟩ ⟨⟨[0x62]⟩, 9, .ok [2]⟩))).1 =
        .ok () ∧
      (twoNodes ⟨⟨[0x61]⟩, 7, .ok [1]⟩ ⟨⟨[0x62]⟩, 9, .ok [2]⟩).idsDistinct ∧
      (readNodeBytes (writeNodes Badger.empty
        (some (twoNodes ⟨⟨[0x61]⟩, 7, .ok [1]⟩ ⟨⟨[0x62]⟩, 9, .ok [2]⟩))).2 ⟨[0x61]⟩).result =
        .ok (.ok (7, [1])) :=
  by
  refine ⟨by decide, by decide, (writeNodes_readBack _ _).1 ?_ ?_ ⟨[0x31]⟩ ⟨⟨[0x61]⟩, 7, .ok [1]⟩
    [1] (List.mem_cons_self _ _) rfl ?_⟩ <;> decide

/-- Two different nodes with one ID, in either order of the map: the node visited first reads
back as the other one. -/
theorem sameID_overwrites :
    (writeNodes Badger.empty (some (twoNodes ⟨⟨[0x61]⟩, 0, .ok [1]⟩ ⟨⟨[0x61]⟩, 0, .ok [2]⟩))).1 =
        .ok () ∧
      (readNodeBytes (writeNodes Badger.empty
        (some (twoNodes ⟨⟨[0x61]⟩, 0, .ok [1]⟩ ⟨⟨[0x61]⟩, 0, .ok [2]⟩))).2 ⟨[0x61]⟩).result =
        .ok (.ok (0, [2])) ∧
      (writeNodes Badger.empty (some (twoNodes ⟨⟨[0x61]⟩, 0, .ok [2]⟩ ⟨⟨[0x61]⟩, 0, .ok [1]⟩))).1 =
        .ok () ∧
      (readNodeBytes (writeNodes Badger.empty
        (some (twoNodes ⟨⟨[0x61]⟩, 0, .ok [2]⟩ ⟨⟨[0x61]⟩, 0, .ok [1]⟩))).2 ⟨[0x61]⟩).result =
        .ok (.ok (0, [1])) := by
  decide

end Graphvent
