import Graphvent.Node.States

/-!
# Loading nodes back: `WriteNode`, `LoadNode` and the graph node

`LoadNodeRecurse(ctx, id, nodes)` (`node.go`) returns the node that the map `nodes` already
holds under `id`.  Otherwise it reads the node's record with `readNodeBytes`, looks its type
hash up in `ctx.Types`, and hands the bytes after the header to that type's `Load` function,
together with `nodes`, so that `Load` can load the nodes it refers to.  `LoadNode(ctx, id)`
starts from an empty map.  `WriteNode(ctx, node)` stores one node the way `WriteNodes` stores
each node of a map.  `GraphNode`, the node that other nodes embed, serializes to nothing, and
`LoadGraphNode` rebuilds it from its ID.

* `loadNodeRecurse_cached`, `loadNodeRecurse_of_read`: a node in the map is returned without
  reading the store; otherwise the record read back goes to the type registry (`loadRecord`);
* `writeNode_eq_writeNodes`: `WriteNode` of a node does what `WriteNodes` does with the map
  holding that node alone;
* `loadNode_writeNodes`: after `WriteNodes` succeeds, `LoadNode` of the ID of a node of the map
  hands that node's type hash and serialized bytes to the registry, provided the nodes of the map
  that share an ID are one node;
* `graphNode_roundTrip`: a `GraphNode` written by `WriteNode` loads back as `NewGraphNode` of its
  ID, with the same ID and no listeners, whatever listeners the written node had.  A record of
  that type with bytes after the header fails to load.

`ctx.Types` maps a type hash to the node type registered under it, whose `Load` function may be
nil (`NodeDef`).  The `Load` functions are parameters.  The log lines are not modelled.
-/

namespace Graphvent

open GoM

variable {ν : Type}

/-- What `ctx.Types` holds for a node type: its `Load(ctx, id, data, nodes)`, `none` when it is
nil. -/
structure NodeDef (ν : Type) where
  load : Option (NodeID → List UInt8 → NodeMap ν → Except (List UInt8) ν)

/-- The errors of `LoadNodeRecurse`. -/
inductive LoadError
  /-- An error of `readNodeBytes`. -/
  | read (err : ReadError)
  /-- `0x%x is not a known node type: %+s`. -/
  | unknownType (typeHash : UInt64) (bytes : List UInt8)
  /-- `0x%x is an invalid node type, nil Load`. -/
  | nilLoad (typeHash : UInt64)
  /-- An error of the type's `Load`. -/
  | load (err : List UInt8)
  deriving DecidableEq, Repr

/-- The text of the error, as the bytes of a Go string (`%s` of a byte slice writes its bytes). -/
def LoadError.text : LoadError → List UInt8
  | .read err => err.text
  | .unknownType typeHash bytes =>
    goString ("0x" ++ hex typeHash.toNat ++ " is not a known node type: ") ++ bytes
  | .nilLoad typeHash => goString ("0x" ++ hex typeHash.toNat ++ " is an invalid node type, nil Load")
  | .load err => err

/-- The end of `LoadNodeRecurse`: the node type registered under `typeHash` loads the bytes read
back. -/
def loadRecord (types : UInt64 → Option (NodeDef ν)) (id : NodeID) (typeHash : UInt64)
    (bytes : List UInt8) (nodes : NodeMap ν) : Except LoadError ν :=
  match types typeHash with
  | none => .error (.unknownType typeHash bytes)
  | some ⟨none⟩ => .error (.nilLoad typeHash)
  | some ⟨some load⟩ => (load id bytes nodes).mapError .load

/-- `LoadNodeRecurse(ctx, id, nodes)`. -/
def loadNodeRecurse (db : Badger) (types : UInt64 → Option (NodeDef ν)) (id : NodeID)
    (nodes : NodeMap ν) : GoM (Except LoadError ν) :=
  match nodes.entries.lookup id with
  | some node => pure (.ok node)
  | none => do
    match ← readNodeBytes db id with
    | .error err => pure (.error (.read err))
    | .ok (typeHash, bytes) => pure (loadRecord types id typeHash bytes nodes)

/-- `LoadNode(ctx, id)`: `LoadNodeRecurse` from an empty map. -/
def loadNode (db : Badger) (types : UInt64 → Option (NodeDef ν)) (id : NodeID) :
    GoM (Except LoadError ν) :=
  loadNodeRecurse db types id NodeMap.empty

/-- `WriteNode(ctx, node)`: its error, and the store after it.  A nil node stops at
`getNodeBytes`, with `nilNodeError`. -/
def writeNode (db : Badger) : Option DBNode → Except String Unit × Badger
  | none => (.error nilNodeError, db)
  | some node =>
    match getNodeBytes (some node) with
    | .error err => (.error err, db)
    | .ok nodeBytes => ((db.update [(node.id.serialize, nodeBytes)]).1.mapError BadgerError.text,
        (db.update [(node.id.serialize, nodeBytes)]).2)

/-! ### `LoadNodeRecurse` -/

theorem loadNodeRecurse_cached {db : Badger} {types : UInt64 → Option (NodeDef ν)} {id : NodeID}
    {nodes : NodeMap ν} {node : ν} (h : nodes.entries.lookup id = some node) :
    loadNodeRecurse db types id nodes = pure (.ok node) := by
  rw [loadNodeRecurse, h]

theorem loadNodeRecurse_of_read {db : Badger} {types : UInt64 → Option (NodeDef ν)} {id : NodeID}
    {nodes : NodeMap ν} (h : nodes.entries.lookup id = none) {typeHash : UInt64}
    {bytes : List UInt8} (hr : (readNodeBytes db id).result = .ok (.ok (typeHash, bytes))) :
    (loadNodeRecurse db types id nodes).result = .ok (loadRecord types id typeHash bytes nodes) := by
  rw [loadNodeRecurse, h, result_bind hr]
  rfl

theorem loadNode_of_read {db : Badger} {types : UInt64 → Option (NodeDef ν)} {id : NodeID}
    {typeHash : UInt64} {bytes : List UInt8}
    (hr : (readNodeBytes db id).result = .ok (.ok (typeHash, bytes))) :
    (loadNode db types id).result = .ok (loadRecord types id typeHash bytes NodeMap.empty) :=
  @loadNodeRecurse_of_read ν db types id NodeMap.empty rfl typeHash bytes hr

/-! ### `WriteNode` -/

/-- The map that holds `node` alone. -/
def NodeMap.single (node : DBNode) : NodeMap (Option DBNode) :=
  ⟨[(node.id, some node)], List.nodup_singleton _⟩

/-- **`WriteNode` is `WriteNodes` of one node.** -/
theorem writeNode_eq_writeNodes (db : Badger) (node : DBNode) :
    writeNode db (some node) = writeNodes db (some (NodeMap.single node)) := by
  rcases hs : node.serialized with err | ser
  · simp only [writeNode, writeNodes, NodeMap.single, getNodeBytes_of_error hs, List.map_cons,
      List.map_nil, nodeWrites]
    rfl
  · simp only [writeNode, writeNodes, NodeMap.single, getNodeBytes_of_ok hs, List.map_cons,
      List.map_nil, nodeWrites]
    rfl

/-! ### The graph node -/

/-- A `GraphNode` as the database code sees it: its ID, the hash of its type
`NodeType("graph_node")`, and `GraphNode.Serialize()`, which returns no bytes and no error. -/
def graphNodeDB (typeHash : UInt64) (id : NodeID) : DBNode := ⟨id, typeHash, .ok []⟩

/-- `NewGraphNode(id)`: the ID and an empty listener map. -/
def newGraphNode (id : NodeID) : NodeID × NodeMap ℕ := (id, NodeMap.empty)

/-- `LoadGraphNode(ctx, id, data, nodes)`: a graph node has no bytes of its own. -/
def loadGraphNode (id : NodeID) (data : List UInt8) (_nodes : NodeMap (NodeID × NodeMap ℕ)) :
    Except (List UInt8) (NodeID × NodeMap ℕ) :=
  if data.length > 0 then
    .error (goString "Attempted to load a graph_node with data " ++ data ++
      goString ", should have been 0 length")
  else .ok (newGraphNode id)

/-! ### Writing, then loading -/

/-- **Load after write.**  After `WriteNodes` succeeds, `LoadNode` of the ID of a node of the map
reads back that node's type hash and serialized bytes and hands them to the node type registered
under the hash: an unknown hash and a nil `Load` are errors, and otherwise the result is what
`Load` makes of the bytes.  This holds when the nodes of the map that share an ID are one node
and the bytes, a Go slice, fit in memory. -/
theorem loadNode_writeNodes {db : Badger} {m : NodeMap (Option DBNode)}
    (hw : (writeNodes db (some m)).1 = .ok ()) (hid : m.idsDistinct)
    (types : UInt64 → Option (NodeDef ν)) {k : NodeID} {n : DBNode} {ser : List UInt8}
    (hn : (k, some n) ∈ m.entries) (hs : n.serialized = .ok ser) (hfit : ser.length ≤ maxAlloc) :
    (loadNode (writeNodes db (some m)).2 types n.id).result =
      .ok (loadRecord types n.id n.typeHash ser NodeMap.empty) :=
  loadNode_of_read (readNodeBytes_writeNodes hw hid hn hs hfit)

/-- The nodes `"a"` (type hash `5`, no bytes) and `"b"` written together, with only the type
hash `5` registered: `"a"` loads back. -/
theorem twoNodes_loadNode :
    (writeNodes Badger.empty (some (twoNodes ⟨⟨[0x61]⟩, 5, .ok []⟩ ⟨⟨[0x62]⟩, 9, .ok [2]⟩))).1 =
        .ok () ∧
      (twoNodes ⟨⟨[0x61]⟩, 5, .ok []⟩ ⟨⟨[0x62]⟩, 9, .ok [2]⟩).idsDistinct ∧
      (loadNode (writeNodes Badger.empty
          (some (twoNodes ⟨⟨[0x61]⟩, 5, .ok []⟩ ⟨⟨[0x62]⟩, 9, .ok [2]⟩))).2
          (fun h => if h = 5 then some ⟨some loadGraphNode⟩ else none) ⟨[0x61]⟩).result =
        .ok (loadRecord (fun h => if h = 5 then some ⟨some loadGraphNode⟩ else none) ⟨[0x61]⟩ 5 []
          NodeMap.empty) := by
  refine ⟨by decide, by decide, @loadNode_writeNodes _ Badger.empty _ ?_ ?_ _ ⟨[0x31]⟩
    ⟨⟨[0x61]⟩, 5, .ok []⟩ [] (List.mem_cons_self _ _) rfl ?_⟩ <;> decide

/-- **A graph node survives the database, its listeners do not.**  With `LoadGraphNode`
registered for the graph node's type, and a store that refuses no write, `WriteNode` of a graph
node with a non-empty ID succeeds, and `LoadNode` of its ID then gives `NewGraphNode` of that ID:
the same ID and an empty listener map, whatever listeners the written node had.  A stored record
of that type that has bytes after its header fails to load, with `LoadGraphNode`'s error. -/
theorem graphNode_roundTrip (db : Badger) (hacc : ∀ p k v, db.refuses p k v = none)
    (types : UInt64 → Option (NodeDef (NodeID × NodeMap ℕ))) (typeHash : UInt64)
    (htype : types typeHash = some ⟨some loadGraphNode⟩) (id : NodeID) (hid : id.bytes ≠ []) :
    (writeNode db (some (graphNodeDB typeHash id))).1 = .ok () ∧
      (loadNode (writeNode db (some (graphNodeDB typeHash id))).2 types id).result =
        .ok (.ok (newGraphNode id)) ∧
      ∀ db' data, db'.get id.serialize = some (nodeRecord typeHash data) → data ≠ [] →
        data.length ≤ maxAlloc →
        ∃ err, (loadNode db' types id).result = .ok (.error (.load err)) := by
  have hw : (writeNodes db (some (NodeMap.single (graphNodeDB typeHash id)))).1 = .ok () :=
    writeNodes_ok _ _ hacc fun e he => by
      obtain rfl := List.mem_singleton.1 he
      exact ⟨_, [], rfl, rfl, hid⟩
  have hd : (NodeMap.single (graphNodeDB typeHash id)).idsDistinct := by
    intro a ha b hb _
    simp only [NodeMap.nodes, NodeMap.single, List.filterMap_cons, List.filterMap_nil,
      List.mem_singleton] at ha hb
    rw [ha, hb]
  rw [writeNode_eq_writeNodes]
  refine ⟨hw, ?_, fun db' data hget hne hfit => ?_⟩
  · refine (loadNode_of_read
      (readNodeBytes_writeNodes hw hd (List.mem_singleton_self _) rfl (Nat.zero_le _))).trans ?_
    simp only [graphNodeDB, loadRecord, htype, loadGraphNode]
    rfl
  · have hv := Badger.view_of_get hid hget
    rw [loadNode_of_read (readNodeBytes_of_record hv hfit), loadRecord, htype]
    refine ⟨goString "Attempted to load a graph_node with data " ++ data ++
      goString ", should have been 0 length", ?_⟩
    simp only [loadGraphNode, if_pos (List.length_pos.2 hne)]
    rfl

/-- The graph node `"a"`, of type hash `5`, in the empty store; and a record of that type with
the one data byte `1`, stored under `"a"`, fails to load. -/
theorem graphNode_a_roundTrip :
    (writeNode Badger.empty (some (graphNodeDB 5 ⟨[0x61]⟩))).1 = .ok () ∧
      (loadNode (writeNode Badger.empty (some (graphNodeDB 5 ⟨[0x61]⟩))).2
          (fun h => if h = 5 then some ⟨some loadGraphNode⟩ else none) ⟨[0x61]⟩).result =
        .ok (.ok (newGraphNode ⟨[0x61]⟩)) ∧
      ∃ err, (loadNode (Badger.empty.put [0x61] (nodeRecord 5 [1]))
          (fun h => if h = 5 then some ⟨some loadGraphNode⟩ else none) ⟨[0x61]⟩).result =
        .ok (.error (.load err)) :=
  have h := graphNode_roundTrip Badger.empty (fun _ _ _ => rfl)
    (fun h => if h = 5 then some ⟨some loadGraphNode⟩ else none) 5 (if_pos rfl) ⟨[0x61]⟩
    (by decide)
  ⟨h.1, h.2.1, h.2.2 _ [1] rfl (by decide) (by decide)⟩

end Graphvent
