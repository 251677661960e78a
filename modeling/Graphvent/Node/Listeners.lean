import Graphvent.Node.States

/-!
# The listeners of a `GraphNode`

A `GraphNode` (`node.go`) keeps a map from listener IDs to channels of signals.
`RegisterChannel(id, listener)` adds the channel unless the ID already has one;
`UnregisterChannel(id)` deletes it, and panics ("Attempting to unregister non-registered
listener", with `listeners_lock` still held) when the ID has none.  `Signal` sends the signal on
every listener's channel with a `select` whose `default` case fires when the buffer is full (no
receiver is waiting in the model); such a listener is handed to a goroutine that sends
`listener_closed` on the channel and closes it, and is deleted from the map.

* `signal_sent_or_removed`: after `Signal`, every listener registered before it either has the
  signal queued on its channel or has been deleted from the map;
* `unregister_panics_when_matched`: a client that registers a channel with room for `r` more
  signals, receives nothing while `r + 1` signals go out, and then unregisters, makes
  `UnregisterChannel` panic, although its `UnregisterChannel` follows its own `RegisterChannel`;
  so does a client that registers the same ID twice and unregisters it twice.

Channels are named by numbers, so that one channel may be registered under several IDs; a
channel's buffer never holds more than its capacity (`Chan.fits`).  Go's `range` visits the map
in an unspecified order; the model visits it in the order the entries were added, and
`sendAll_spec` holds for every order.
-/

namespace Graphvent

/-- A buffered Go channel of signals: its capacity and the signals queued in it. -/
structure Chan (σ : Type) where
  cap : ℕ
  queue : List σ
  fits : queue.length ≤ cap

/-- `ch <- signal` on a channel whose buffer has room. -/
def Chan.push {σ : Type} (ch : Chan σ) (signal : σ) (h : ch.queue.length < ch.cap) : Chan σ :=
  ⟨ch.cap, ch.queue ++ [signal], by rw [List.length_append, List.length_singleton]; exact h⟩

/-- What the listener methods of a `GraphNode` read and write. -/
structure GraphNode (σ : Type) where
  /-- `listeners`: the channel of each listener ID. -/
  listeners : NodeMap ℕ
  /-- The channels, by number. -/
  chans : ℕ → Chan σ
  /-- The channels handed to goroutines that send `listener_closed` on them and close them. -/
  closing : List ℕ

/-- A call on a `GraphNode`. -/
inductive ListenerOp (σ : Type)
  /-- `RegisterChannel(id, listener)`. -/
  | register (id : NodeID) (ch : ℕ)
  /-- `UnregisterChannel(id)`. -/
  | unregister (id : NodeID)
  /-- `Signal(ctx, signal, nodes)`. -/
  | signal (signal : σ)

/-- The panic of `UnregisterChannel` on an ID with no listener. -/
def unregisterPanic : String := "Attempting to unregister non-registered listener"

section

variable {σ : Type}

/-- The loop of `Signal` over the listeners, in the order `range` visits them: sends `signal` on
a listener's channel when its buffer has room, and otherwise starts the goroutine that closes the
channel and marks the listener closed. -/
def sendAll (signal : σ) :
    List (NodeID × ℕ) → (ℕ → Chan σ) × List ℕ × List NodeID → (ℕ → Chan σ) × List ℕ × List NodeID
  | [], r => r
  | (id, c) :: ls, (chans, closing, closed) =>
    if h : (chans c).queue.length < (chans c).cap then
      sendAll signal ls (fun c' => if c' = c then (chans c).push signal h else chans c', closing,
        closed)
    else sendAll signal ls (chans, closing ++ [c], closed ++ [id])

namespace GraphNode

/-- `node.Signal(ctx, signal, nodes)`: the sends, then `delete(node.listeners, id)` for every
closed listener. -/
def signal (node : GraphNode σ) (signal : σ) : GraphNode σ :=
  let r := sendAll signal node.listeners.entries (node.chans, node.closing, [])
  ⟨r.2.2.foldl NodeMap.erase node.listeners, r.1, r.2.1⟩

/-- `node.RegisterChannel(id, listener)`. -/
def registerChannel (node : GraphNode σ) (id : NodeID) (ch : ℕ) : GraphNode σ :=
  if id ∈ node.listeners.keys then node else { node with listeners := node.listeners.set id ch }

/-- `node.UnregisterChannel(id)`; its panic is the error. -/
def unregisterChannel (node : GraphNode σ) (id : NodeID) : Except String (GraphNode σ) :=
  if id ∈ node.listeners.keys then .ok { node with listeners := node.listeners.erase id }
  else .error unregisterPanic

/-- One call. -/
def apply (node : GraphNode σ) : ListenerOp σ → Except String (GraphNode σ)
  | .register id ch => .ok (node.registerChannel id ch)
  | .unregister id => node.unregisterChannel id
  | .signal s => .ok (node.signal s)

/-- A sequence of calls, up to the first panic. -/
def run (node : GraphNode σ) : List (ListenerOp σ) → Except String (GraphNode σ)
  | [] => .ok node
  | op :: ops => do (← node.apply op).run ops

theorem run_cons (node : GraphNode σ) (op : ListenerOp σ) (ops : List (ListenerOp σ)) :
    node.run (op :: ops) = node.apply op >>= fun n => n.run ops := rfl

end GraphNode

/-- Whether every `UnregisterChannel(id)` of a sequence follows a `RegisterChannel(id)` that no
earlier `UnregisterChannel(id)` matched; `pending` holds the IDs of the registrations not matched
yet. -/
def matchedFrom (pending : List NodeID) : List (ListenerOp σ) → Bool
  | [] => true
  | .register id _ :: ops => matchedFrom (id :: pending) ops
  | .unregister id :: ops => id ∈ pending && matchedFrom (pending.erase id) ops
  | .signal _ :: ops => matchedFrom pending ops

/-- Every `UnregisterChannel(id)` follows a `RegisterChannel(id)` of its own. -/
def Matched (ops : List (ListenerOp σ)) : Prop := matchedFrom [] ops = true

/-! ### `Signal` -/

theorem sendAll_spec (signal : σ) : ∀ (ls : List (NodeID × ℕ)) (chans : ℕ → Chan σ)
    (closing : List ℕ) (closed : List NodeID),
    (∃ more, (sendAll signal ls (chans, closing, closed)).2.2 = closed ++ more) ∧
    ∀ c, ((sendAll signal ls (chans, closing, closed)).1 c).cap = (chans c).cap ∧
      ∃ k, ((sendAll signal ls (chans, closing, closed)).1 c).queue =
          (chans c).queue ++ List.replicate k signal ∧
        ∀ id, (id, c) ∈ ls → id ∈ (sendAll signal ls (chans, closing, closed)).2.2 ∨ 0 < k
  | [], _, _, _ => ⟨⟨[], (List.append_nil _).symm⟩,
      fun _ => ⟨rfl, 0, (List.append_nil _).symm, fun _ h => absurd h (List.not_mem_nil _)⟩⟩
  | (id, c') :: ls, chans, closing, closed => by
    rw [sendAll]
    split_ifs with h
    · obtain ⟨hmore, hc⟩ := sendAll_spec signal ls
        (fun c'' => if c'' = c' then (chans c').push signal h else chans c'') closing closed
      refine ⟨hmore, fun c => ?_⟩
      obtain ⟨hcap, k, hq, hk⟩ := hc c
      by_cases hcc : c = c'
      · subst hcc
        rw [if_pos rfl] at hcap hq
        refine ⟨hcap, k + 1, ?_, fun _ _ => .inr k.succ_pos⟩
        rw [hq, Chan.push, List.append_assoc, List.singleton_append, ← List.replicate_succ]
      · rw [if_neg hcc] at hcap hq
        refine ⟨hcap, k, hq, fun id' hm => ?_⟩
        rcases List.mem_cons.1 hm with he | hm
        · exact absurd (Prod.mk.inj he).2 hcc
        · exact hk id' hm
    · obtain ⟨⟨more, hmore⟩, hc⟩ := sendAll_spec signal ls chans (closing ++ [c']) (closed ++ [id])
      refine ⟨⟨[id] ++ more, by rw [hmore, List.append_assoc]⟩, fun c => ?_⟩
      obtain ⟨hcap, k, hq, hk⟩ := hc c
      refine ⟨hcap, k, hq, fun id' hm => ?_⟩
      rcases List.mem_cons.1 hm with he | hm
      · obtain ⟨rfl, -⟩ := Prod.mk.inj he
        exact .inl (by rw [hmore]; simp)
      · exact hk id' hm

theorem foldl_erase_entries {ν : Type} : ∀ (closed : List NodeID) (m : NodeMap ν),
    (closed.foldl NodeMap.erase m).entries = m.entries.filter fun e => e.1 ∉ closed
  | [], m => by simp
  | id :: closed, m => by
    rw [List.foldl_cons, foldl_erase_entries closed, NodeMap.entries_erase, List.filter_filter]
    refine List.filter_congr fun e _ => ?_
    simp only [List.mem_cons, not_or, Bool.decide_and, decide_not]
    exact Bool.and_comm _ _

namespace GraphNode

theorem signal_listeners (node : GraphNode σ) (s : σ) :
    (node.signal s).listeners.entries = node.listeners.entries.filter fun e =>
      e.1 ∉ (sendAll s node.listeners.entries (node.chans, node.closing, [])).2.2 :=
  foldl_erase_entries _ _

theorem not_mem_keys_signal {node : GraphNode σ} {id : NodeID} (h : id ∉ node.listeners.keys)
    (s : σ) : id ∉ (node.signal s).listeners.keys := by
  simp only [NodeMap.keys, signal_listeners, List.mem_map, List.mem_filter] at h ⊢
  rintro ⟨e, ⟨he, -⟩, rfl⟩
  exact h ⟨e, he, rfl⟩

/-- **`Signal`.**  After `Signal`, every listener registered before it has the signal queued on
its channel (and is still registered), or has been deleted from the map. -/
theorem signal_sent_or_removed (node : GraphNode σ) (s : σ) {id : NodeID} {c : ℕ}
    (h : (id, c) ∈ node.listeners.entries) :
    id ∉ (node.signal s).listeners.keys ∨
      ((id, c) ∈ (node.signal s).listeners.entries ∧
        ∃ k, 0 < k ∧ ((node.signal s).chans c).queue = (node.chans c).queue ++ List.replicate k s) := by
  obtain ⟨-, hc⟩ := sendAll_spec s node.listeners.entries node.chans node.closing []
  obtain ⟨-, k, hq, hk⟩ := hc c
  by_cases hid : id ∈ (sendAll s node.listeners.entries (node.chans, node.closing, [])).2.2
  · refine .inl fun hmem => ?_
    obtain ⟨e, he, rfl⟩ := List.mem_map.1 hmem
    rw [signal_listeners, List.mem_filter] at he
    exact of_decide_eq_true he.2 hid
  · refine .inr ⟨?_, k, (hk id h).resolve_left hid, hq⟩
    rw [signal_listeners, List.mem_filter]
    exact ⟨h, decide_eq_true hid⟩

theorem cap_signal (node : GraphNode σ) (s : σ) (c : ℕ) :
    ((node.signal s).chans c).cap = (node.chans c).cap :=
  ((sendAll_spec s node.listeners.entries node.chans node.closing []).2 c).1

theorem run_signals_not_mem (s : σ) {id : NodeID} : ∀ (k : ℕ) (node : GraphNode σ),
    id ∉ node.listeners.keys →
      ∃ node', node.run (List.replicate k (.signal s)) = .ok node' ∧ id ∉ node'.listeners.keys
  | 0, node, h => ⟨node, rfl, h⟩
  | k + 1, node, h => run_signals_not_mem s k (node.signal s) (not_mem_keys_signal h s)

theorem run_signals (s : σ) (id : NodeID) (c : ℕ) : ∀ (k : ℕ) (node : GraphNode σ),
    (id, c) ∈ node.listeners.entries →
    ∃ node', node.run (List.replicate k (.signal s)) = .ok node' ∧
      (id ∉ node'.listeners.keys ∨ ((node'.chans c).cap = (node.chans c).cap ∧
        (node.chans c).queue.length + k ≤ (node'.chans c).queue.length))
  | 0, node, _ => ⟨node, rfl, .inr ⟨rfl, le_refl _⟩⟩
  | k + 1, node, h => by
    rcases signal_sent_or_removed node s h with hout | ⟨hm, j, hj, hq⟩
    · obtain ⟨node', hrun, hout'⟩ := run_signals_not_mem s k (node.signal s) hout
      exact ⟨node', hrun, .inl hout'⟩
    · obtain ⟨node', hrun, hout⟩ := run_signals s id c k (node.signal s) hm
      refine ⟨node', hrun, hout.imp (fun h => h) fun ⟨hcap, hlen⟩ => ⟨hcap.trans (cap_signal node s c), ?_⟩⟩
      rw [hq, List.length_append, List.length_replicate] at hlen
      omega

theorem run_append : ∀ (ops₁ ops₂ : List (ListenerOp σ)) (node : GraphNode σ),
    node.run (ops₁ ++ ops₂) = node.run ops₁ >>= fun n => n.run ops₂
  | [], _, _ => rfl
  | op :: ops₁, ops₂, node => by
    rw [List.cons_append, run_cons, run_cons]
    cases node.apply op with
    | error e => rfl
    | ok n => exact run_append ops₁ ops₂ n

theorem mem_registerChannel {node : GraphNode σ} {id : NodeID} (h : id ∉ node.listeners.keys)
    (c : ℕ) : (id, c) ∈ (node.registerChannel id c).listeners.entries := by
  rw [registerChannel, if_neg h]
  exact (NodeMap.set_of_not_mem h c).symm ▸ List.mem_append_right _ (List.mem_singleton_self _)

theorem not_mem_keys_erase {ν : Type} (m : NodeMap ν) (id : NodeID) : id ∉ (m.erase id).keys := by
  simp [NodeMap.keys]

end GraphNode

theorem matchedFrom_signals (s : σ) (pending : List NodeID) :
    ∀ (k : ℕ) (ops : List (ListenerOp σ)),
      matchedFrom pending (List.replicate k (.signal s) ++ ops) = matchedFrom pending ops
  | 0, _ => rfl
  | k + 1, ops => matchedFrom_signals s pending k ops

open GraphNode in
/-- **Unregistering a matched listener can panic.**  For an ID with no listener, a client that
registers a channel with room for `r` more signals, receives nothing while `r + 1` signals go out,
and then unregisters, makes `UnregisterChannel` panic: `Signal` deleted its listener when the
buffer was full.  A client that registers the same ID twice and unregisters it twice panics too:
the second `RegisterChannel` did nothing.  In both sequences every `UnregisterChannel` follows a
`RegisterChannel` of its own. -/
theorem unregister_panics_when_matched (node : GraphNode σ) (id : NodeID)
    (hid : id ∉ node.listeners.keys) :
    (∀ (c : ℕ) (s : σ),
      Matched (.register id c :: (List.replicate ((node.chans c).cap - (node.chans c).queue.length + 1)
        (.signal s) ++ [.unregister id])) ∧
      node.run (.register id c :: (List.replicate ((node.chans c).cap - (node.chans c).queue.length + 1)
        (.signal s) ++ [.unregister id])) = .error unregisterPanic) ∧
    (∀ c₁ c₂ : ℕ,
      Matched ([.register id c₁, .register id c₂, .unregister id, .unregister id] :
        List (ListenerOp σ)) ∧
      node.run [.register id c₁, .register id c₂, .unregister id, .unregister id] =
        .error unregisterPanic) := by
  refine ⟨fun c s => ⟨?_, ?_⟩, fun c₁ c₂ => ⟨by simp [Matched, matchedFrom], ?_⟩⟩
  · simp [Matched, matchedFrom, matchedFrom_signals]
  · obtain ⟨node', hrun, hout⟩ := run_signals s id c
      ((node.chans c).cap - (node.chans c).queue.length + 1) (node.registerChannel id c)
      (mem_registerChannel hid c)
    have hgone : id ∉ node'.listeners.keys := by
      refine hout.resolve_right fun ⟨hcap, hlen⟩ => ?_
      have hfits := (node'.chans c).fits
      have hfits₀ := (node.chans c).fits
      rw [hcap] at hfits
      exact absurd hlen (by simp only [registerChannel, if_neg hid] at hfits ⊢; omega)
    simp only [run_cons, apply, bind, Except.bind]
    rw [run_append, hrun]
    simp only [run_cons, apply, bind, Except.bind, unregisterChannel, if_neg hgone]
  · have hmem : id ∈ (node.registerChannel id c₁).listeners.keys :=
      List.mem_map_of_mem Prod.fst (mem_registerChannel hid c₁)
    have hsecond : (node.registerChannel id c₁).registerChannel id c₂ =
        node.registerChannel id c₁ := if_pos hmem
    simp only [run_cons, apply, bind, Except.bind, hsecond, unregisterChannel, if_pos hmem,
      not_mem_keys_erase, if_false]

theorem oneSlot_unregister_panics :
    (⟨[0x61]⟩ : NodeID) ∉ (NodeMap.empty : NodeMap ℕ).keys ∧
      GraphNode.run ⟨NodeMap.empty, fun _ => ⟨1, [], by decide⟩, []⟩
          [.register ⟨[0x61]⟩ 0, .signal (7 : ℕ), .signal 7, .unregister ⟨[0x61]⟩] =
        .error unregisterPanic :=
  ⟨List.not_mem_nil _, ((unregister_panics_when_matched _ _ (List.not_mem_nil _)).1 0 7).2⟩

end

end Graphvent
