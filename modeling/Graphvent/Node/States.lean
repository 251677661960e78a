import Mathlib.Data.List.Nodup
import Graphvent.Lockable.Basic
import Graphvent.Node.Database

/-!
# Holding the state of nodes: `UseStates` and `UpdateStates`

`UseMoreStates(ctx, new_nodes, nodes, nodes_fn)` (`node.go`) checks that `new_nodes` holds no nil
node and no ID twice (`checkForDuplicate`), read-locks each node whose ID is not yet in the map
`nodes`, adds it, calls `nodes_fn(nodes)`, and then deletes and read-unlocks the nodes it locked.
`UpdateMoreStates` write-locks and adds the nodes whose IDs are not in its map, with no check (a
method call on a nil interface panics with the nil dereference of the Go runtime), and calls
`nodes_fn`; `UpdateStates` runs it on an empty map, writes the map to the database with
`WriteNodes` when `nodes_fn` returned nil, and unlocks every node of the map.

A callback (`NodesFn`) may call `UseMoreStates` (or, under `UpdateStates`, `UpdateMoreStates`) on
the map it is given, to any depth, and otherwise leaves the map alone.  The lock operations are
recorded in a log.

* `useMoreStates_law`: `UseMoreStates` read-locks exactly the nodes of its list whose IDs are not
  in the map, each once, runs the callback, read-unlocks the same nodes and restores the map;
  what the callback does in between never touches a node held by an outer call and takes every
  node through whole rounds of `RLock`, `RUnlock`.  A nil node or a repeated ID is an error before
  any lock.
* `updateStates_law`: without nil nodes, `UpdateStates` write-locks each node it adds to its map
  once, writes exactly that map when `nodes_fn` returned nil, and unlocks each node once.
* `updateStates_nil_panics`: a nil node panics in `node.ID()` after the nodes before it have been
  write-locked, and nothing unlocks them.

Go visits a map in an unspecified order; the model's unlocking loop visits the map in the order
its entries were added, and every result here counts the operations on each node, whatever the
order.  The log lines are not modelled.
-/

namespace Graphvent

/-! ### Maps of nodes -/

namespace NodeMap

variable {ν μ : Type}

theorem ext_entries {m m' : NodeMap ν} (h : m.entries = m'.entries) : m = m' := by
  cases m
  cases m'
  cases h
  rfl

/-- `NodeMap{}`. -/
def empty : NodeMap ν := ⟨[], List.nodup_nil⟩

/-- The keys, in iteration order. -/
def keys (m : NodeMap ν) : List NodeID := m.entries.map Prod.fst

/-- `m[id] = v`: overwrites the entry of `id`, or adds one. -/
def set (m : NodeMap ν) (id : NodeID) (v : ν) : NodeMap ν :=
  if h : id ∈ m.keys then
    ⟨m.entries.map fun e => if e.1 = id then (id, v) else e, by
      rw [List.map_map]
      convert m.nodup using 2
      funext e
      by_cases he : e.1 = id <;> simp [he]⟩
  else
    ⟨m.entries ++ [(id, v)], by
      rw [List.map_append]
      exact m.nodup.append (List.nodup_singleton _) (List.disjoint_singleton.2 h)⟩

/-- `delete(m, id)`. -/
def erase (m : NodeMap ν) (id : NodeID) : NodeMap ν :=
  ⟨m.entries.filter fun e => e.1 ≠ id, m.nodup.sublist ((List.filter_sublist _).map _)⟩

/-- The same keys with `f` applied to every value. -/
def mapValues (f : ν → μ) (m : NodeMap ν) : NodeMap μ :=
  ⟨m.entries.map fun e => (e.1, f e.2), by rw [List.map_map]; exact m.nodup⟩

theorem set_of_not_mem {m : NodeMap ν} {id : NodeID} (h : id ∉ m.keys) (v : ν) :
    (m.set id v).entries = m.entries ++ [(id, v)] := by
  rw [set, dif_neg h]

theorem keys_set_of_not_mem {m : NodeMap ν} {id : NodeID} (h : id ∉ m.keys) (v : ν) :
    (m.set id v).keys = m.keys ++ [id] := by
  rw [keys, set_of_not_mem h, List.map_append]
  rfl

@[simp] theorem entries_erase (m : NodeMap ν) (id : NodeID) :
    (m.erase id).entries = m.entries.filter fun e => e.1 ≠ id := rfl

end NodeMap

/-! ### Callbacks and lock operations -/

/-- A lock operation on a node. -/
inductive LockEvent (ν : Type)
  | rlock (n : ν)
  | runlock (n : ν)
  | lock (n : ν)
  | unlock (n : ν)
  deriving DecidableEq, Repr

/-- The node a lock operation is on. -/
def LockEvent.node {ν : Type} : LockEvent ν → ν
  | .rlock n | .runlock n | .lock n | .unlock n => n

/-- A `NodesFn` that calls `UseMoreStates` (under `UpdateStates`, `UpdateMoreStates`) on the map it
is given, to any depth, and otherwise leaves the map alone.  Errors are their texts, `none` being
`nil`. -/
inductive NodesFn (ν : Type)
  /-- Returns `err`. -/
  | ret (err : Option (List UInt8))
  /-- Calls `UseMoreStates(ctx, nodes, m, fn)` on its map `m`, then goes on as `next` says of the
  error that call returned. -/
  | more (nodes : List (Option ν)) (fn : NodesFn ν) (next : Option (List UInt8) → NodesFn ν)

/-- The map handed to the callbacks, and the lock operations done so far. -/
structure StatesRun (ν : Type) where
  nodes : NodeMap ν
  log : List (LockEvent ν)

/-- How a call of the state helpers ends. -/
inductive Outcome
  /-- It returned this error (`none` is `nil`). -/
  | returned (err : Option (List UInt8))
  /-- It panicked with this message. -/
  | panicked (msg : String)
  deriving DecidableEq, Repr

section

variable {ν : Type} (toDB : ν → DBNode)

/-! ### `UseStates` -/

/-- The loop of `checkForDuplicate`, with the IDs `found` so far. -/
def checkFrom (found : List NodeID) : List (Option ν) → Option (List UInt8)
  | [] => none
  | none :: _ => some (goString "Cannot get state of nil node")
  | some n :: nodes =>
    if (toDB n).id ∈ found then
      some (goString "Attempted to get state of " ++ (toDB n).id.bytes ++ goString " twice")
    else checkFrom ((toDB n).id :: found) nodes

/-- `checkForDuplicate(nodes)`. -/
def checkForDuplicate (nodes : List (Option ν)) : Option (List UInt8) := checkFrom toDB [] nodes

/-- The locking loop of `UseMoreStates`: read-locks each node whose ID is not yet in the map, and
adds it to the map and to `locked_nodes`. -/
def rlockNew : List ν → StatesRun ν × List ν → StatesRun ν × List ν
  | [], r => r
  | n :: nodes, (s, locked) =>
    if (toDB n).id ∈ s.nodes.keys then rlockNew nodes (s, locked)
    else rlockNew nodes (⟨s.nodes.set (toDB n).id n, s.log ++ [.rlock n]⟩, locked ++ [n])

/-- The unlocking loop of `UseMoreStates`: deletes each node from the map and read-unlocks it. -/
def runlockAll : List ν → StatesRun ν → StatesRun ν
  | [], s => s
  | n :: nodes, s => runlockAll nodes ⟨s.nodes.erase (toDB n).id, s.log ++ [.runlock n]⟩

/-- `UseMoreStates(ctx, new_nodes, nodes, nodes_fn)`, where `fn` runs `nodes_fn`: its error and
the state after it.  The locking loop reads the nodes that are not nil, which after
`checkForDuplicate` are all of them. -/
def useMoreStates (nodes : List (Option ν))
    (fn : StatesRun ν → Option (List UInt8) × StatesRun ν) (s : StatesRun ν) :
    Option (List UInt8) × StatesRun ν :=
  match checkForDuplicate toDB nodes with
  | some err => (some err, s)
  | none =>
    let locked := rlockNew toDB (nodes.filterMap id) (s, [])
    let r := fn locked.1
    (r.1, runlockAll toDB locked.2 r.2)

/-- Runs a callback given to `UseMoreStates`. -/
def NodesFn.use : NodesFn ν → StatesRun ν → Option (List UInt8) × StatesRun ν
  | .ret err, s => (err, s)
  | .more nodes fn next, s =>
    let r := useMoreStates toDB nodes (NodesFn.use fn) s
    NodesFn.use (next r.1) r.2

/-- `UseStates(ctx, init_nodes, nodes_fn)`: `UseMoreStates` on an empty map. -/
def useStates (nodes : List (Option ν)) (fn : NodesFn ν) (log : List (LockEvent ν)) :
    Option (List UInt8) × StatesRun ν :=
  useMoreStates toDB nodes (NodesFn.use toDB fn) ⟨NodeMap.empty, log⟩

/-! ### `UpdateStates` -/

/-- The locking loop of `UpdateMoreStates`: write-locks each node whose ID is not yet in the map
and adds it; `node.ID()` of a nil node panics. -/
def lockNew : List (Option ν) → StatesRun ν → Option String × StatesRun ν
  | [], s => (none, s)
  | none :: _, s => (some nilDereference, s)
  | some n :: nodes, s =>
    if (toDB n).id ∈ s.nodes.keys then lockNew nodes s
    else lockNew nodes ⟨s.nodes.set (toDB n).id n, s.log ++ [.lock n]⟩

/-- `UpdateMoreStates(ctx, nodes, locked_nodes, nodes_fn)`, where `fn` runs `nodes_fn`. -/
def updateMoreStates (nodes : List (Option ν)) (fn : StatesRun ν → Outcome × StatesRun ν)
    (s : StatesRun ν) : Outcome × StatesRun ν :=
  match lockNew toDB nodes s with
  | (some msg, s) => (.panicked msg, s)
  | (none, s) => fn s

/-- Runs a callback given to `UpdateMoreStates`; a panic unwinds through it. -/
def NodesFn.update : NodesFn ν → StatesRun ν → Outcome × StatesRun ν
  | .ret err, s => (.returned err, s)
  | .more nodes fn next, s =>
    let r := updateMoreStates toDB nodes (NodesFn.update fn) s
    match r.1 with
    | .returned err => NodesFn.update (next err) r.2
    | .panicked msg => (.panicked msg, r.2)

/-- The unlocking loop of `UpdateStates`: unlocks every node of the map. -/
def unlockAll (s : StatesRun ν) : StatesRun ν :=
  ⟨s.nodes, s.log ++ s.nodes.entries.map fun e => .unlock e.2⟩

/-- `UpdateStates(ctx, nodes, nodes_fn)`: how it ends, the map and the lock log after it, and the
store. -/
def updateStates (db : Badger) (nodes : List (Option ν)) (fn : NodesFn ν)
    (log : List (LockEvent ν)) : Outcome × StatesRun ν × Badger :=
  let r := updateMoreStates toDB nodes (NodesFn.update toDB fn) ⟨NodeMap.empty, log⟩
  match r.1 with
  | .panicked msg => (.panicked msg, r.2, db)
  | .returned (some err) => (.returned (some err), unlockAll r.2, db)
  | .returned none =>
    let w := writeNodes db (some (r.2.nodes.mapValues (some ∘ toDB)))
    (.returned (match w.1 with | .ok () => none | .error e => some (goString e)),
      unlockAll r.2, w.2)

/-! ### The loops of `UseMoreStates` -/

theorem checkFrom_eq_none : ∀ (found : List NodeID) (nodes : List (Option ν)),
    checkFrom toDB found nodes = none ↔
      none ∉ nodes ∧ ((nodes.filterMap id).map fun n => (toDB n).id).Nodup ∧
        ∀ x ∈ (nodes.filterMap id).map fun n => (toDB n).id, x ∉ found
  | _, [] => by simp [checkFrom]
  | _, none :: _ => by simp [checkFrom]
  | found, some n :: nodes => by
    have hids : ((some n :: nodes).filterMap id).map (fun n => (toDB n).id) =
        (toDB n).id :: (nodes.filterMap id).map (fun n => (toDB n).id) := rfl
    rw [checkFrom, hids, List.nodup_cons, List.forall_mem_cons]
    split_ifs with h
    · simp only [reduceCtorEq, false_iff]
      exact fun hc => hc.2.2.1 h
    · rw [checkFrom_eq_none _ nodes]
      simp only [List.mem_cons, reduceCtorEq, false_or, not_or]
      constructor
      · rintro ⟨hn, hnd, hf⟩
        exact ⟨hn, ⟨fun hm => (hf _ hm).1 rfl, hnd⟩, h, fun x hx => (hf x hx).2⟩
      · rintro ⟨hn, ⟨hne, hnd⟩, -, hf⟩
        exact ⟨hn, hnd, fun x hx => ⟨fun he => hne (he ▸ hx), hf x hx⟩⟩

/-- The nodes of a list whose IDs are not among `keys`. -/
def newNodes (keys : List NodeID) (nodes : List ν) : List ν :=
  nodes.filter fun n => (toDB n).id ∉ keys

theorem rlockNew_eq : ∀ (nodes : List ν) (s : StatesRun ν) (locked : List ν),
    (nodes.map fun n => (toDB n).id).Nodup →
      (rlockNew toDB nodes (s, locked)).1.nodes.entries =
          s.nodes.entries ++ (newNodes toDB s.nodes.keys nodes).map (fun n => ((toDB n).id, n)) ∧
        (rlockNew toDB nodes (s, locked)).1.log =
          s.log ++ (newNodes toDB s.nodes.keys nodes).map .rlock ∧
        (rlockNew toDB nodes (s, locked)).2 = locked ++ newNodes toDB s.nodes.keys nodes
  | [], s, locked, _ => by simp [rlockNew, newNodes]
  | n :: nodes, s, locked, hnd => by
    rw [List.map_cons, List.nodup_cons] at hnd
    by_cases h : (toDB n).id ∈ s.nodes.keys
    · rw [rlockNew, if_pos h, newNodes, List.filter_cons_of_neg (by simpa using h)]
      exact rlockNew_eq nodes s locked hnd.2
    · rw [rlockNew, if_neg h]
      obtain ⟨he, hl, hk⟩ := rlockNew_eq nodes ⟨s.nodes.set (toDB n).id n, s.log ++ [.rlock n]⟩
        (locked ++ [n]) hnd.2
      have hkeys := NodeMap.keys_set_of_not_mem h n
      have hnew : newNodes toDB (s.nodes.keys ++ [(toDB n).id]) nodes =
          newNodes toDB s.nodes.keys nodes := by
        refine List.filter_congr fun m hm => ?_
        have : (toDB m).id ≠ (toDB n).id := fun he => hnd.1 (List.mem_map.2 ⟨m, hm, he⟩)
        simp [this]
      rw [hkeys, hnew] at he hl hk
      rw [newNodes, List.filter_cons_of_pos (by simpa using h), ← newNodes]
      refine ⟨?_, ?_, ?_⟩
      · rw [he, NodeMap.set_of_not_mem h]
        simp
      · rw [hl]
        simp
      · rw [hk]
        simp

theorem runlockAll_eq : ∀ (locked : List ν) (s : StatesRun ν),
    (runlockAll toDB locked s).nodes.entries =
        s.nodes.entries.filter (fun e => e.1 ∉ locked.map fun n => (toDB n).id) ∧
      (runlockAll toDB locked s).log = s.log ++ locked.map .runlock
  | [], s => by simp [runlockAll]
  | n :: locked, s => by
    obtain ⟨he, hl⟩ := runlockAll_eq locked ⟨s.nodes.erase (toDB n).id, s.log ++ [.runlock n]⟩
    rw [runlockAll, he, hl]
    refine ⟨?_, by simp⟩
    rw [NodeMap.entries_erase, List.filter_filter]
    refine List.filter_congr fun e _ => ?_
    simp only [List.map_cons, List.mem_cons, not_or, Bool.decide_and, decide_not]
    exact Bool.and_comm _ _

/-- `k` rounds of `RLock` then `RUnlock` on `n`. -/
def rounds (n : ν) (k : ℕ) : List (LockEvent ν) := (List.replicate k [.rlock n, .runlock n]).flatten

variable [DecidableEq ν]

/-! ### Read locks taken and released -/

/-- A stretch of the lock log that leaves alone the nodes whose IDs are `held` and takes every
other node through whole rounds of `RLock`, `RUnlock`: it never read-locks a node it holds, never
read-unlocks one it does not hold, and releases every node it locks. -/
structure Released (held : List NodeID) (seg : List (LockEvent ν)) : Prop where
  avoids : ∀ e ∈ seg, (toDB e.node).id ∉ held
  inRounds : ∀ n, ∃ k, seg.filter (fun e => e.node = n) = rounds n k

theorem Released.nil (held : List NodeID) : Released toDB held [] :=
  ⟨fun _ h => absurd h (List.not_mem_nil _), fun _ => ⟨0, rfl⟩⟩

theorem Released.append {held : List NodeID} {a b : List (LockEvent ν)}
    (ha : Released toDB held a) (hb : Released toDB held b) : Released toDB held (a ++ b) where
  avoids e he := (List.mem_append.1 he).elim (ha.avoids e) (hb.avoids e)
  inRounds n := by
    obtain ⟨k, hk⟩ := ha.inRounds n
    obtain ⟨j, hj⟩ := hb.inRounds n
    refine ⟨k + j, ?_⟩
    rw [List.filter_append, hk, hj, rounds, rounds, rounds, List.replicate_add, List.flatten_append]

omit [DecidableEq ν] in
theorem filter_map_node {g : ν → LockEvent ν} (hg : ∀ x, (g x).node = x) (l : List ν) (n : ν)
    [DecidableEq ν] : (l.map g).filter (fun e => e.node = n) = (l.filter (· = n)).map g := by
  rw [List.filter_map]
  congr 1
  exact List.filter_congr fun x _ => by simp [hg]

theorem Released.wrap {held : List NodeID} {new : List ν} {mid : List (LockEvent ν)}
    (hfresh : ∀ n ∈ new, (toDB n).id ∉ held) (hnd : (new.map fun n => (toDB n).id).Nodup)
    (hmid : Released toDB (held ++ new.map fun n => (toDB n).id) mid) :
    Released toDB held (new.map .rlock ++ mid ++ new.map .runlock) where
  avoids e he := by
    rcases List.mem_append.1 he with he | he
    · rcases List.mem_append.1 he with he | he
      · obtain ⟨n, hn, rfl⟩ := List.mem_map.1 he
        exact hfresh n hn
      · exact fun h => hmid.avoids e he (List.mem_append_left _ h)
    · obtain ⟨n, hn, rfl⟩ := List.mem_map.1 he
      exact hfresh n hn
  inRounds n := by
    rw [List.filter_append, List.filter_append,
      filter_map_node (g := LockEvent.rlock) (fun _ => rfl),
      filter_map_node (g := LockEvent.runlock) (fun _ => rfl), List.filter_eq]
    by_cases hn : n ∈ new
    · have hmidn : mid.filter (fun e => e.node = n) = [] := by
        refine List.filter_eq_nil_iff.2 fun e he h => hmid.avoids e he ?_
        rw [of_decide_eq_true h]
        exact List.mem_append_right _ (List.mem_map_of_mem _ hn)
      rw [hmidn, List.count_eq_one_of_mem (hnd.of_map _) hn]
      exact ⟨1, rfl⟩
    · obtain ⟨k, hk⟩ := hmid.inRounds n
      rw [hk, List.count_eq_zero_of_not_mem hn]
      exact ⟨k, by simp⟩

/-! ### `UseMoreStates` -/

/-- What a callback of `UseMoreStates` may do to the state: leave the map as it found it, and add
to the log a stretch that leaves the map's nodes alone and releases every lock it takes. -/
def UseSpec (fn : StatesRun ν → Option (List UInt8) × StatesRun ν) : Prop :=
  ∀ s, (fn s).2.nodes = s.nodes ∧
    ∃ seg, (fn s).2.log = s.log ++ seg ∧ Released toDB s.nodes.keys seg

/-- A call that passes the check read-locks the nodes whose IDs are not in the map, runs the
callback, and read-unlocks the same nodes, restoring the map. -/
theorem useMoreStates_ok {fn : StatesRun ν → Option (List UInt8) × StatesRun ν}
    (hfn : UseSpec toDB fn) {nodes : List (Option ν)} (hc : checkForDuplicate toDB nodes = none)
    (s : StatesRun ν) :
    (useMoreStates toDB nodes fn s).2.nodes = s.nodes ∧
      ∃ mid, (useMoreStates toDB nodes fn s).2.log = s.log ++
          ((newNodes toDB s.nodes.keys (nodes.filterMap id)).map .rlock ++ mid ++
            (newNodes toDB s.nodes.keys (nodes.filterMap id)).map .runlock) ∧
        Released toDB (s.nodes.keys ++
          (newNodes toDB s.nodes.keys (nodes.filterMap id)).map fun n => (toDB n).id) mid := by
  obtain ⟨-, hnd, -⟩ := (checkFrom_eq_none toDB [] nodes).1 hc
  obtain ⟨he, hl, hk⟩ := rlockNew_eq toDB (nodes.filterMap id) s [] hnd
  obtain ⟨hn₁, mid, hmid, hrel⟩ := hfn (rlockNew toDB (nodes.filterMap id) (s, [])).1
  obtain ⟨he₂, hl₂⟩ := runlockAll_eq toDB (rlockNew toDB (nodes.filterMap id) (s, [])).2
    (fn (rlockNew toDB (nodes.filterMap id) (s, [])).1).2
  have hkeys : (rlockNew toDB (nodes.filterMap id) (s, [])).1.nodes.keys = s.nodes.keys ++
      (newNodes toDB s.nodes.keys (nodes.filterMap id)).map fun n => (toDB n).id := by
    rw [NodeMap.keys, he, List.map_append, List.map_map]
    rfl
  simp only [useMoreStates, hc]
  refine ⟨NodeMap.ext_entries ?_, mid, ?_, hkeys ▸ hrel⟩
  · rw [he₂, hn₁, he, hk, List.nil_append, List.filter_append]
    conv_rhs => rw [← List.append_nil s.nodes.entries]
    congr 1
    · refine List.filter_eq_self.2 fun e he' => ?_
      simp only [List.mem_map, not_exists, not_and, decide_eq_true_eq]
      intro n hn hne
      exact (List.mem_filter.1 hn).2 |> of_decide_eq_true <| hne ▸ List.mem_map_of_mem _ he'
    · refine List.filter_eq_nil_iff.2 fun e he' => ?_
      obtain ⟨n, hn, rfl⟩ := List.mem_map.1 he'
      simpa using List.mem_map_of_mem (fun n => (toDB n).id) hn
  · rw [hl₂, hmid, hl, hk, List.nil_append]
    simp only [List.append_assoc]

theorem useSpec_useMoreStates {fn : StatesRun ν → Option (List UInt8) × StatesRun ν}
    (hfn : UseSpec toDB fn) (nodes : List (Option ν)) : UseSpec toDB (useMoreStates toDB nodes fn) := by
  intro s
  rcases hc : checkForDuplicate toDB nodes with _ | err
  · obtain ⟨hn, mid, hl, hrel⟩ := useMoreStates_ok toDB hfn hc s
    obtain ⟨-, hnd, -⟩ := (checkFrom_eq_none toDB [] nodes).1 hc
    refine ⟨hn, _, hl, Released.wrap toDB (fun n hn => ?_) ?_ hrel⟩
    · exact of_decide_eq_true (List.mem_filter.1 hn).2
    · exact hnd.sublist ((List.filter_sublist _).map _)
  · have he : useMoreStates toDB nodes fn s = (some err, s) := by simp only [useMoreStates, hc]
    rw [he]
    exact ⟨rfl, [], (List.append_nil _).symm, Released.nil toDB _⟩

theorem useSpec_use : ∀ fn : NodesFn ν, UseSpec toDB (NodesFn.use toDB fn)
  | .ret _, _ => ⟨rfl, [], (List.append_nil _).symm, Released.nil toDB _⟩
  | .more nodes fn next, s => by
    obtain ⟨hn₁, seg₁, hl₁, hr₁⟩ := useSpec_useMoreStates toDB (useSpec_use fn) nodes s
    obtain ⟨hn₂, seg₂, hl₂, hr₂⟩ := useSpec_use (next (useMoreStates toDB nodes (NodesFn.use toDB fn) s).1)
      (useMoreStates toDB nodes (NodesFn.use toDB fn) s).2
    rw [hn₁] at hn₂ hr₂
    exact ⟨hn₂, seg₁ ++ seg₂, by rw [NodesFn.use, hl₂, hl₁, List.append_assoc], hr₁.append toDB hr₂⟩

/-- **`UseMoreStates`.**  For every callback that calls `UseMoreStates` on its map to any depth,
`UseMoreStates` restores the map; a nil node or a repeated ID is an error returned before any
lock; otherwise it read-locks exactly the nodes whose IDs are not in the map, each once, and
read-unlocks them after the callback, and what the callback does in between leaves those nodes
and the map's nodes alone and takes every node through whole rounds of `RLock`, `RUnlock`. -/
theorem useMoreStates_law (fn : NodesFn ν) (nodes : List (Option ν)) (s : StatesRun ν) :
    (useMoreStates toDB nodes (NodesFn.use toDB fn) s).2.nodes = s.nodes ∧
    ((none ∈ nodes ∨ ¬((nodes.filterMap id).map fun n => (toDB n).id).Nodup) →
      ∃ err, useMoreStates toDB nodes (NodesFn.use toDB fn) s = (some err, s)) ∧
    (none ∉ nodes → ((nodes.filterMap id).map fun n => (toDB n).id).Nodup →
      ∃ mid, (useMoreStates toDB nodes (NodesFn.use toDB fn) s).2.log = s.log ++
          ((newNodes toDB s.nodes.keys (nodes.filterMap id)).map .rlock ++ mid ++
            (newNodes toDB s.nodes.keys (nodes.filterMap id)).map .runlock) ∧
        Released toDB (s.nodes.keys ++
          (newNodes toDB s.nodes.keys (nodes.filterMap id)).map fun n => (toDB n).id) mid) := by
  refine ⟨(useSpec_useMoreStates toDB (useSpec_use toDB fn) nodes s).1, fun hbad => ?_,
    fun hn hnd => (useMoreStates_ok toDB (useSpec_use toDB fn)
      ((checkFrom_eq_none toDB [] nodes).2 ⟨hn, hnd, fun _ _ => List.not_mem_nil _⟩) s).2⟩
  rcases hc : checkForDuplicate toDB nodes with _ | err
  · obtain ⟨hn, hnd, -⟩ := (checkFrom_eq_none toDB [] nodes).1 hc
    exact absurd hbad (not_or.2 ⟨hn, not_not.2 hnd⟩)
  · exact ⟨err, by simp only [useMoreStates, hc]⟩

/-! ### `UpdateStates` -/

omit [DecidableEq ν] in
theorem map_some_filterMap_id : ∀ {nodes : List (Option ν)}, none ∉ nodes →
    (nodes.filterMap id).map some = nodes
  | [], _ => rfl
  | none :: _, h => absurd (List.mem_cons_self _ _) h
  | some n :: nodes, h => by
    show (n :: nodes.filterMap id).map some = _
    rw [List.map_cons, map_some_filterMap_id fun h' => h (List.mem_cons_of_mem _ h')]

/-- The nodes of a list that `UpdateMoreStates` locks: those whose ID is neither among `keys` nor
that of an earlier node of the list. -/
def firstNew : List NodeID → List ν → List ν
  | _, [] => []
  | keys, n :: nodes =>
    if (toDB n).id ∈ keys then firstNew keys nodes
    else n :: firstNew (keys ++ [(toDB n).id]) nodes

omit [DecidableEq ν] in
theorem mem_firstNew : ∀ (keys : List NodeID) (nodes : List ν), ∀ n ∈ nodes,
    (toDB n).id ∈ keys ++ (firstNew toDB keys nodes).map fun n => (toDB n).id
  | _, [], _, h => absurd h (List.not_mem_nil _)
  | keys, m :: nodes, n, h => by
    rw [firstNew]
    split_ifs with hm
    · rcases List.mem_cons.1 h with rfl | h
      · exact List.mem_append_left _ hm
      · exact mem_firstNew keys nodes n h
    · rw [List.map_cons, ← List.singleton_append, ← List.append_assoc]
      rcases List.mem_cons.1 h with rfl | h
      · exact List.mem_append_left _ (List.mem_append_right _ (List.mem_singleton_self _))
      · exact mem_firstNew _ nodes n h

omit [DecidableEq ν] in
theorem lockNew_map_some : ∀ (nodes : List ν) (s : StatesRun ν),
    (lockNew toDB (nodes.map some) s).1 = none ∧
      (lockNew toDB (nodes.map some) s).2.nodes.entries =
        s.nodes.entries ++ (firstNew toDB s.nodes.keys nodes).map (fun n => ((toDB n).id, n)) ∧
      (lockNew toDB (nodes.map some) s).2.log =
        s.log ++ (firstNew toDB s.nodes.keys nodes).map .lock
  | [], s => by simp [lockNew, firstNew]
  | n :: nodes, s => by
    by_cases h : (toDB n).id ∈ s.nodes.keys
    · simp only [List.map_cons, lockNew, if_pos h, firstNew]
      exact lockNew_map_some nodes s
    · obtain ⟨h₁, h₂, h₃⟩ := lockNew_map_some nodes ⟨s.nodes.set (toDB n).id n, s.log ++ [.lock n]⟩
      rw [NodeMap.keys_set_of_not_mem h] at h₂ h₃
      simp only [List.map_cons, lockNew, if_neg h, firstNew]
      refine ⟨h₁, ?_, ?_⟩
      · rw [h₂, NodeMap.set_of_not_mem h]
        simp
      · rw [h₃]
        simp

omit [DecidableEq ν] in
/-- The locking loop stops at the first nil node, with the nodes before it locked. -/
theorem lockNew_append_none : ∀ (pre : List ν) (post : List (Option ν)) (s : StatesRun ν),
    lockNew toDB (pre.map some ++ none :: post) s =
      (some nilDereference, (lockNew toDB (pre.map some) s).2)
  | [], _, _ => rfl
  | n :: pre, post, s => by
    simp only [List.map_cons, List.cons_append, lockNew]
    split_ifs <;> exact lockNew_append_none pre post _

/-- The callback and every call it nests name no nil node. -/
def NodesFn.noNil : NodesFn ν → Prop
  | .ret _ => True
  | .more nodes fn next => none ∉ nodes ∧ fn.noNil ∧ ∀ err, (next err).noNil

/-- What a callback of `UpdateMoreStates` that names no nil node does: it returns, having added
to the map nodes with new IDs, each write-locked once. -/
def GrowSpec (fn : StatesRun ν → Outcome × StatesRun ν) : Prop :=
  ∀ s, ∃ err, ∃ added : List ν, (fn s).1 = .returned err ∧
    (fn s).2.nodes.entries = s.nodes.entries ++ added.map (fun n => ((toDB n).id, n)) ∧
    (fn s).2.log = s.log ++ added.map .lock

omit [DecidableEq ν] in
theorem updateMoreStates_of_ne {nodes : List (Option ν)} (hnodes : none ∉ nodes)
    (fn : StatesRun ν → Outcome × StatesRun ν) (s : StatesRun ν) :
    updateMoreStates toDB nodes fn s = fn (lockNew toDB nodes s).2 := by
  have h₁ := (lockNew_map_some toDB (nodes.filterMap id) s).1
  rw [map_some_filterMap_id hnodes] at h₁
  rw [updateMoreStates]
  split
  · rename_i heq
    rw [heq] at h₁
    cases h₁
  · rename_i heq
    rw [heq]

omit [DecidableEq ν] in
theorem growSpec_updateMoreStates {fn : StatesRun ν → Outcome × StatesRun ν}
    (hfn : GrowSpec toDB fn) {nodes : List (Option ν)} (hnodes : none ∉ nodes) :
    GrowSpec toDB (updateMoreStates toDB nodes fn) := by
  intro s
  obtain ⟨-, h₂, h₃⟩ := lockNew_map_some toDB (nodes.filterMap id) s
  rw [map_some_filterMap_id hnodes] at h₂ h₃
  obtain ⟨err, added, he, hn, hl⟩ := hfn (lockNew toDB nodes s).2
  rw [updateMoreStates_of_ne toDB hnodes]
  exact ⟨err, _ ++ added, he, by rw [hn, h₂, List.map_append, List.append_assoc],
    by rw [hl, h₃, List.map_append, List.append_assoc]⟩

omit [DecidableEq ν] in
theorem mem_keys_updateMoreStates {fn : StatesRun ν → Outcome × StatesRun ν}
    (hfn : GrowSpec toDB fn) {nodes : List (Option ν)} (hnodes : none ∉ nodes) (s : StatesRun ν)
    {n : ν} (hn : some n ∈ nodes) :
    (toDB n).id ∈ (updateMoreStates toDB nodes fn s).2.nodes.keys := by
  obtain ⟨-, h₂, -⟩ := lockNew_map_some toDB (nodes.filterMap id) s
  rw [map_some_filterMap_id hnodes] at h₂
  obtain ⟨-, added, -, he, -⟩ := hfn (lockNew toDB nodes s).2
  rw [updateMoreStates_of_ne toDB hnodes, NodeMap.keys, he, h₂, List.append_assoc,
    List.map_append, ← NodeMap.keys, List.map_append, List.map_map, ← List.append_assoc]
  exact List.mem_append_left _
    (mem_firstNew toDB s.nodes.keys _ n (List.mem_filterMap.2 ⟨some n, hn, rfl⟩))

omit [DecidableEq ν] in
theorem growSpec_update : ∀ fn : NodesFn ν, fn.noNil → GrowSpec toDB (NodesFn.update toDB fn)
  | .ret err, _, s => ⟨err, [], rfl, by simp [NodesFn.update], by simp [NodesFn.update]⟩
  | .more nodes fn next, ⟨hnodes, hfn, hnext⟩, s => by
    obtain ⟨err, added, he, hn, hl⟩ :=
      growSpec_updateMoreStates toDB (growSpec_update fn hfn) hnodes s
    obtain ⟨err', added', he', hn', hl'⟩ := growSpec_update (next err) (hnext err)
      (updateMoreStates toDB nodes (NodesFn.update toDB fn) s).2
    have hu : NodesFn.update toDB (.more nodes fn next) s = NodesFn.update toDB (next err)
        (updateMoreStates toDB nodes (NodesFn.update toDB fn) s).2 := by
      rw [NodesFn.update]
      simp only [he]
    rw [hu]
    exact ⟨err', added ++ added', he', by rw [hn', hn, List.map_append, List.append_assoc],
      by rw [hl', hl, List.map_append, List.append_assoc]⟩

omit [DecidableEq ν] in
/-- After `UpdateMoreStates` returns, `UpdateStates` unlocks every node of the map, and writes the
map to the database exactly when the callback returned nil. -/
theorem updateStates_of_returned {db : Badger} {nodes : List (Option ν)} {fn : NodesFn ν}
    {log : List (LockEvent ν)} {err : Option (List UInt8)}
    (h : (updateMoreStates toDB nodes (NodesFn.update toDB fn) ⟨NodeMap.empty, log⟩).1 =
      .returned err) :
    (updateStates toDB db nodes fn log).2.1 =
        unlockAll (updateMoreStates toDB nodes (NodesFn.update toDB fn) ⟨NodeMap.empty, log⟩).2 ∧
      (err = none → (updateStates toDB db nodes fn log).2.2 = (writeNodes db (some
        ((updateMoreStates toDB nodes (NodesFn.update toDB fn) ⟨NodeMap.empty, log⟩).2.nodes.mapValues
          (some ∘ toDB)))).2) ∧
      (∀ e, err = some e →
        (updateStates toDB db nodes fn log).1 = .returned (some e) ∧
          (updateStates toDB db nodes fn log).2.2 = db) := by
  unfold updateStates
  dsimp only
  rw [h]
  rcases err with _ | e
  · exact ⟨rfl, fun _ => rfl, fun e he => absurd he (by simp)⟩
  · exact ⟨rfl, fun he => absurd he (by simp), fun e' he => by cases he; exact ⟨rfl, rfl⟩⟩

omit [DecidableEq ν] in
/-- **`UpdateStates` without nil nodes.**  When neither its list nor any nested call names a nil
node, `UpdateStates` write-locks each node it adds to its map once, the map holding a node of
every ID its list names; it unlocks each of them once after the write, and it calls `WriteNodes`
on exactly that map when the callback returned nil, and otherwise returns the callback's error
with the store untouched. -/
theorem updateStates_law (db : Badger) (nodes : List (Option ν)) (fn : NodesFn ν)
    (log : List (LockEvent ν)) (hnodes : none ∉ nodes) (hfn : fn.noNil) :
    ∃ err, ∃ added : List ν,
      (updateMoreStates toDB nodes (NodesFn.update toDB fn) ⟨NodeMap.empty, log⟩).1 =
        .returned err ∧
      (added.map fun n => (toDB n).id).Nodup ∧
      (∀ n, some n ∈ nodes → (toDB n).id ∈ added.map fun n => (toDB n).id) ∧
      (updateStates toDB db nodes fn log).2.1.nodes.entries =
        added.map (fun n => ((toDB n).id, n)) ∧
      (updateStates toDB db nodes fn log).2.1.log = log ++ added.map .lock ++ added.map .unlock ∧
      (err = none → (updateStates toDB db nodes fn log).2.2 =
        (writeNodes db (some ((updateStates toDB db nodes fn log).2.1.nodes.mapValues
          (some ∘ toDB)))).2) ∧
      (∀ e, err = some e →
        (updateStates toDB db nodes fn log).1 = .returned (some e) ∧
          (updateStates toDB db nodes fn log).2.2 = db) := by
  have hgrow := growSpec_update toDB fn hfn
  obtain ⟨err, added, he, hn, hl⟩ := growSpec_updateMoreStates toDB hgrow hnodes ⟨NodeMap.empty, log⟩
  obtain ⟨hs, hw, herr⟩ := @updateStates_of_returned ν toDB db _ _ _ _ he
  have hentries : (updateStates toDB db nodes fn log).2.1.nodes.entries =
      added.map (fun n => ((toDB n).id, n)) := by
    rw [hs, unlockAll, hn]
    rfl
  have hkeys : (updateStates toDB db nodes fn log).2.1.nodes.keys = added.map fun n => (toDB n).id := by
    rw [NodeMap.keys, hentries, List.map_map]
    rfl
  refine ⟨err, added, he, hkeys ▸ (updateStates toDB db nodes fn log).2.1.nodes.nodup, fun n hmem => ?_,
    hentries, ?_, fun h => by rw [hw h, hs]; rfl, herr⟩
  · have := mem_keys_updateMoreStates toDB hgrow hnodes ⟨NodeMap.empty, log⟩ hmem
    rwa [← hkeys, hs]
  · rw [hs, unlockAll, hl, hn]
    simp [NodeMap.empty]

/-- `UpdateStates` of the nodes `"a"` and `"b"`, whose callback calls `UpdateMoreStates` on
`"b"` again and on `"c"`, then returns `nil`. -/
theorem updateStates_nested :
    ∃ (nodes : List (Option DBNode)) (fn : NodesFn DBNode),
      nodes = [some ⟨⟨[0x61]⟩, 5, .ok []⟩, some ⟨⟨[0x62]⟩, 5, .ok [1]⟩] ∧
      fn = .more [some ⟨⟨[0x62]⟩, 5, .ok [1]⟩, some ⟨⟨[0x63]⟩, 5, .ok [2]⟩] (.ret none)
        (fun _ => .ret none) ∧
      ∃ err, ∃ added : List DBNode,
        (updateMoreStates (fun n => n) nodes (NodesFn.update (fun n => n) fn)
          ⟨NodeMap.empty, []⟩).1 = .returned err ∧
        (added.map fun n => n.id).Nodup ∧
        (∀ n, some n ∈ nodes → n.id ∈ added.map fun n => n.id) ∧
        (updateStates (fun n => n) Badger.empty nodes fn []).2.1.nodes.entries =
          added.map (fun n => (n.id, n)) ∧
        (updateStates (fun n => n) Badger.empty nodes fn []).2.1.log =
          [] ++ added.map .lock ++ added.map .unlock ∧
        (err = none → (updateStates (fun n => n) Badger.empty nodes fn []).2.2 =
          (writeNodes Badger.empty (some ((updateStates (fun n => n) Badger.empty nodes fn
            []).2.1.nodes.mapValues (some ∘ fun n => n)))).2) ∧
        (∀ e, err = some e →
          (updateStates (fun n => n) Badger.empty nodes fn []).1 = .returned (some e) ∧
            (updateStates (fun n => n) Badger.empty nodes fn []).2.2 = Badger.empty) :=
  ⟨_, _, rfl, rfl, updateStates_law (fun n => n) Badger.empty _ _ [] (by decide)
    ⟨by decide, trivial, fun _ => trivial⟩⟩

omit [DecidableEq ν] in
/-- **A nil node in `UpdateStates`.**  When the list of `UpdateStates` holds a nil node, `node.ID()`
panics in the locking loop after the nodes before it have been write-locked: the store is
untouched, and the log ends with those locks, which nothing unlocks. -/
theorem updateStates_nil_panics (db : Badger) (pre : List ν) (post : List (Option ν))
    (fn : NodesFn ν) (log : List (LockEvent ν)) :
    (updateStates toDB db (pre.map some ++ none :: post) fn log).1 = .panicked nilDereference ∧
      (updateStates toDB db (pre.map some ++ none :: post) fn log).2.2 = db ∧
      (updateStates toDB db (pre.map some ++ none :: post) fn log).2.1.log =
        log ++ (firstNew toDB [] pre).map .lock ∧
      ∀ n ∈ pre, (toDB n).id ∈ (firstNew toDB [] pre).map fun n => (toDB n).id := by
  have hu : updateMoreStates toDB (pre.map some ++ none :: post) (NodesFn.update toDB fn)
      ⟨NodeMap.empty, log⟩ =
        (.panicked nilDereference, (lockNew toDB (pre.map some) ⟨NodeMap.empty, log⟩).2) := by
    rw [updateMoreStates, lockNew_append_none]
  obtain ⟨-, -, hl⟩ := lockNew_map_some toDB pre ⟨NodeMap.empty, log⟩
  unfold updateStates
  dsimp only
  rw [hu]
  exact ⟨rfl, rfl, hl, mem_firstNew toDB [] pre⟩

end

end Graphvent
