import Graphvent.Lockable.Invariant
import Mathlib.Data.Multiset.Basic

/-!
# A network of lockable nodes

Every node of the network holds a `LockableExt`, changed only by `LockableExt.process`.  The
messages in flight form a multiset and are delivered in any order.  Besides a delivery, a step
may inject a `LinkSignal`, or a `LockSignal` with state `"lock"` or `"unlock"`, from any node to
any node, as `LockLockable` and `UnlockLockable` do from a node to itself.  Success and error
signals are only ever sent by the handlers.

UUIDs come from one counter, `Network.next`, which every new signal takes and advances; `sent`
and `delivered` record every message sent and every message delivered, in order, so that a
property of the replies to a request can be read off a state.  A delivery whose processing panics is not a step (the node has crashed);
`Network.Panics` says that a state has such a message in flight.
-/

namespace Graphvent

/-- The state of a network of lockable nodes. -/
structure Network where
  /-- The extension of every node. -/
  exts : ℕ → LockableExt
  /-- The messages in flight. -/
  inflight : Multiset Message
  /-- The next fresh UUID. -/
  next : ℕ
  /-- Every message sent so far. -/
  sent : List Message
  /-- Every message delivered so far. -/
  delivered : List Message

namespace Network

/-- What can happen next. -/
inductive Event
  /-- The message `m` in flight is processed by its destination. -/
  | deliver (m : Message)
  /-- `source` sends `LinkSignal(action, nodeID)` to `dest`. -/
  | link (source dest nodeID : ℕ) (action : String)
  /-- `source` sends `LockSignal("unlock")` (if `unlock`) or `LockSignal("lock")` to `dest`. -/
  | lock (source dest : ℕ) (unlock : Bool)

/-- The network with no message sent, node `n` having requirements `reqs n`. -/
def init (reqs : ℕ → List ℕ) : Network :=
  ⟨fun n => newLockableExt (reqs n), 0, 1, [], []⟩

/-- Node `source` sends a new signal with the next UUID. -/
def inject (s : Network) (source dest : ℕ) (signal : ℕ → Signal) : Network :=
  { s with
    inflight := ⟨source, dest, signal s.next⟩ ::ₘ s.inflight
    next := s.next + 1
    sent := s.sent ++ [⟨source, dest, signal s.next⟩] }

/-- The step of an event, `none` when it is not possible: a message not in flight, or one whose
processing panics. -/
def step (s : Network) : Event → Option Network
  | .deliver m =>
    if m ∈ s.inflight then
      match (s.exts m.dest).process m.dest s.next m.source m.signal with
      | .ok (ext, out, _) =>
        some ⟨Function.update s.exts m.dest ext, s.inflight.erase m + out, s.next + out.length,
          s.sent ++ out, s.delivered ++ [m]⟩
      | .error _ => none
    else none
  | .link source dest nodeID action =>
    some (s.inject source dest fun id => newLinkSignal id action nodeID)
  | .lock source dest unlock =>
    some (s.inject source dest fun id => newLockSignal id (if unlock then "unlock" else "lock"))

/-- One step of the network. -/
def Step (s s' : Network) : Prop := ∃ e, s.step e = some s'

/-- The states reached from `init reqs`. -/
def Reachable (reqs : ℕ → List ℕ) (s : Network) : Prop :=
  Relation.ReflTransGen Step (init reqs) s

/-- Delivering a message in flight makes its destination panic. -/
def Panics (s : Network) : Prop :=
  ∃ m ∈ s.inflight, ∃ e, (s.exts m.dest).process m.dest s.next m.source m.signal = .error e

/-- A sequence of events, run from `s`. -/
def run (s : Network) : List Event → Option Network
  | [] => some s
  | e :: es => (s.step e).bind fun s' => s'.run es

theorem run_reflTransGen {s s' : Network} {es : List Event} (h : s.run es = some s') :
    Relation.ReflTransGen Step s s' := by
  induction es generalizing s with
  | nil => cases h; exact .refl
  | cons e es ih =>
    obtain ⟨s₁, h₁, h₂⟩ := Option.bind_eq_some.1 h
    exact .head ⟨e, h₁⟩ (ih h₂)

theorem reachable_of_run {reqs : ℕ → List ℕ} {s : Network} (es : List Event)
    (h : (init reqs).run es = some s) : Reachable reqs s :=
  run_reflTransGen h

/-- The replies sent so far to the request with UUID `id`. -/
def replies (s : Network) (id : ℕ) : List Message :=
  s.sent.filter fun m => m.signal.kind.reqID? = some id

/-- The number of `SuccessSignal`s for the request `id` that node `n` has received. -/
def successesReceived (s : Network) (n : ℕ) (id : ℕ) : ℕ :=
  (s.delivered.filter fun m => m.dest = n ∧ m.signal.kind = .success id).length

theorem step_deliver {s : Network} {m : Message} (hm : m ∈ s.inflight) {ext : LockableExt}
    {out : List Message} {changes : Changes}
    (hp : (s.exts m.dest).process m.dest s.next m.source m.signal = .ok (ext, out, changes)) :
    s.step (.deliver m) = some ⟨Function.update s.exts m.dest ext, s.inflight.erase m + out,
      s.next + out.length, s.sent ++ out, s.delivered ++ [m]⟩ := by
  simp [step, hm, hp]

/-! ### Every node is a reachable lockable -/

theorem step_exts {s s' : Network} {e : Event} (h : s.step e = some s') (n : ℕ) :
    s'.exts n = s.exts n ∨ ∃ fresh source signal out changes,
      (s.exts n).process n fresh source signal = .ok (s'.exts n, out, changes) := by
  cases e with
  | deliver m =>
    simp only [step] at h
    split at h
    · split at h
      · rename_i ext out changes hp
        cases h
        by_cases hn : n = m.dest
        · subst hn
          exact .inr ⟨_, _, _, out, changes, by simpa using hp⟩
        · exact .inl (Function.update_noteq hn _ _)
      · cases h
    · cases h
  | link => cases h; exact .inl rfl
  | lock => cases h; exact .inl rfl

/-- **Every node of a reachable network holds a reachable lockable**, so `WellFormed` holds of
it and processing a signal there never dereferences a nil pointer. -/
theorem Reachable.ext_reachable {reqs : ℕ → List ℕ} {s : Network}
    (hs : Reachable reqs s) (n : ℕ) : LockableExt.Reachable n (s.exts n) := by
  induction hs with
  | refl => exact .init (reqs n)
  | tail _ hst ih =>
    obtain ⟨e, he⟩ := hst
    obtain h | ⟨_, _, _, _, _, hp⟩ := step_exts he n
    · rwa [h]
    · exact .process ih hp

/-! ### Lock atomicity, replies and panics on fixed schedules

Nodes `1`, `2`, `3` start without requirements; node `3` links `2` under `1` and locks `1`. -/

/-- `2` is locked for `1` as part of locking `1`; then `2` sends itself `LockSignal("unlock")`
(`UnlockLockable`), which `HandleLockSignal` grants to any sender when there are no
requirements.  Node `1` still counts `2` as `Locked`, but `2` is unlocked. -/
theorem unlock_behind_owner :
    ∃ s, Reachable (fun _ => []) s ∧ (s.exts 1).requirements.find? 2 = some ⟨.locked, 0⟩ ∧
      (s.exts 2).state = .unlocked :=
  ⟨_, reachable_of_run [.link 3 1 2 "add", .deliver ⟨3, 1, newLinkSignal 1 "add" 2⟩,
    .lock 3 1 false, .deliver ⟨3, 1, newLockSignal 3 "lock"⟩,
    .deliver ⟨1, 2, newLockSignal 4 "lock"⟩, .deliver ⟨2, 1, newSuccessSignal 5 4⟩,
    .lock 2 2 true, .deliver ⟨2, 2, newLockSignal 7 "unlock"⟩] rfl, by decide⟩

/-- `2` is locked by `3` before `3` locks `1`, so `2` answers `1` with
`ErrorSignal("not_unlocked")`.  `HandleErrorSignal` moves `1` to `AbortingLock` and, as no
requirement is `Locked`, sends nothing: no message is left in flight, `1` stays in
`AbortingLock` and the lock request `5` of `3` is never answered. -/
theorem abort_never_answered :
    ∃ s, Reachable (fun _ => []) s ∧ s.inflight = 0 ∧ (s.exts 1).state = .abortingLock ∧
      ⟨3, 1, newLockSignal 5 "lock"⟩ ∈ s.sent ∧ s.replies 5 = [] :=
  ⟨_, reachable_of_run [.link 3 1 2 "add", .deliver ⟨3, 1, newLinkSignal 1 "add" 2⟩,
    .deliver ⟨1, 3, newSuccessSignal 2 1⟩,
    .lock 3 2 false, .deliver ⟨3, 2, newLockSignal 3 "lock"⟩,
    .deliver ⟨2, 3, newSuccessSignal 4 3⟩,
    .lock 3 1 false, .deliver ⟨3, 1, newLockSignal 5 "lock"⟩,
    .deliver ⟨1, 2, newLockSignal 6 "lock"⟩,
    .deliver ⟨2, 1, newErrorSignal 7 6 "not_unlocked"⟩] rfl, by decide⟩

/-- `UnlockLockable` on an unlocked node: `HandleLockSignal` answers the node itself with
`ErrorSignal("not_locked")`, and its own `HandleErrorSignal` then panics. -/
theorem unlockLockable_panics : ∃ s, Reachable (fun _ => []) s ∧ Panics s :=
  ⟨_, reachable_of_run [.lock 1 1 true, .deliver ⟨1, 1, newLockSignal 1 "unlock"⟩] rfl,
    ⟨1, 1, newErrorSignal 2 1 "not_locked"⟩, by decide, _, rfl⟩

/-! ### Forwarding cycles -/

/-- The graph along which `Down` signals are forwarded: `p → r` for each requirement `r`. -/
def RequirementEdge (s : Network) (p r : ℕ) : Prop := r ∈ (s.exts p).requirements.keys

/-- The graph along which `Up` signals are forwarded: `p → o` when `o ≠ p` owns `p`. -/
def OwnerEdge (s : Network) (p o : ℕ) : Prop := (s.exts p).owner = some o ∧ o ≠ p

theorem selfLink_reachable :
    ∃ s, Reachable (fun _ => []) s ∧ RequirementEdge s 1 1 :=
  ⟨_, reachable_of_run [.link 1 1 1 "add", .deliver ⟨1, 1, newLinkSignal 1 "add" 1⟩] rfl,
    by unfold RequirementEdge; decide⟩

theorem ownerCycle_reachable :
    ∃ s, Reachable (fun _ => []) s ∧ OwnerEdge s 1 2 ∧ OwnerEdge s 2 1 :=
  ⟨_, reachable_of_run [.lock 1 2 false, .deliver ⟨1, 2, newLockSignal 1 "lock"⟩,
    .lock 2 1 false, .deliver ⟨2, 1, newLockSignal 3 "lock"⟩] rfl,
    by unfold OwnerEdge; decide, by unfold OwnerEdge; decide⟩

/-- Neither forwarding graph stays acyclic. -/
theorem forwarding_graphs_cyclic :
    (∃ s, Reachable (fun _ => []) s ∧ Relation.TransGen (RequirementEdge s) 1 1) ∧
      ∃ s, Reachable (fun _ => []) s ∧ Relation.TransGen (OwnerEdge s) 1 1 := by
  obtain ⟨s, hs, h⟩ := selfLink_reachable
  obtain ⟨s', hs', h12, h21⟩ := ownerCycle_reachable
  exact ⟨⟨s, hs, .single h⟩, s', hs', .tail (.single h12) h21⟩

theorem step_forward {s : Network} {m : Message} (hm : m ∈ s.inflight) {out : List Message}
    (hp : (s.exts m.dest).process m.dest s.next m.source m.signal = .ok (s.exts m.dest, out, [])) :
    ∃ s', s.step (.deliver m) = some s' ∧ s'.exts = s.exts ∧
      s'.inflight = s.inflight.erase m + out ∧ s'.sent = s.sent ++ out :=
  ⟨_, step_deliver hm hp, Function.update_eq_self _ _, rfl, rfl⟩

/-- A `Down` signal in flight to a node that requires itself is re-sent to it at least `n`
times, for every `n`, with no extension changed. -/
theorem down_self_loop {p : ℕ} {signal : Signal} (hd : signal.dir = .down) :
    ∀ (n : ℕ) (s : Network) (q : ℕ), ⟨q, p, signal⟩ ∈ s.inflight → RequirementEdge s p p →
      ∃ s', Relation.ReflTransGen Step s s' ∧ s'.exts = s.exts ∧
        s.sent.count ⟨p, p, signal⟩ + n ≤ s'.sent.count ⟨p, p, signal⟩
  | 0, s, _, _, _ => ⟨s, .refl, rfl, le_refl _⟩
  | n + 1, s, _, hm, hp => by
    obtain ⟨s₁, h₁, he, hi, hsent⟩ := step_forward hm (LockableExt.process_down hd)
    dsimp only at hi hsent
    have hmem : (⟨p, p, signal⟩ : Message) ∈
        (s.exts p).requirements.keys.map fun id => (⟨p, id, signal⟩ : Message) :=
      List.mem_map.2 ⟨p, hp, rfl⟩
    obtain ⟨s', hs', hexts, hcount⟩ := down_self_loop hd n s₁ p
      (by rw [hi]; exact Multiset.mem_add.2 (.inr (by simpa using hmem)))
      (by rwa [RequirementEdge, he])
    refine ⟨s', .head ⟨_, h₁⟩ hs', hexts.trans he, le_trans ?_ hcount⟩
    have := List.count_pos_iff.2 hmem
    rw [hsent, List.count_append]
    omega

/-- An `Up` signal in flight to a node `p` owned by `o`, itself owned by `p`, is re-sent from
`p` to `o` at least `n` times, for every `n`, with no extension changed. -/
theorem up_owner_cycle {p o : ℕ} {signal : Signal} (hd : signal.dir = .up) :
    ∀ (n : ℕ) (s : Network) (q : ℕ), ⟨q, p, signal⟩ ∈ s.inflight → OwnerEdge s p o →
      OwnerEdge s o p → ∃ s', Relation.ReflTransGen Step s s' ∧ s'.exts = s.exts ∧
        s.sent.count ⟨p, o, signal⟩ + n ≤ s'.sent.count ⟨p, o, signal⟩
  | 0, s, _, _, _, _ => ⟨s, .refl, rfl, le_refl _⟩
  | n + 1, s, _, hm, hpo, hop => by
    obtain ⟨s₁, h₁, he₁, hi₁, hsent₁⟩ := step_forward hm (LockableExt.process_up hd hpo.1 hpo.2)
    obtain ⟨s₂, h₂, he₂, hi₂, hsent₂⟩ := step_forward (s := s₁) (m := ⟨p, o, signal⟩)
      (by simp [hi₁]) (LockableExt.process_up hd (by rw [he₁]; exact hop.1) hop.2)
    dsimp only at hsent₁ hsent₂
    obtain ⟨s', hs', hexts, hcount⟩ := up_owner_cycle (p := p) (o := o) hd n s₂ o
      (by simp [hi₂]) (by rwa [OwnerEdge, he₂, he₁]) (by rwa [OwnerEdge, he₂, he₁])
    refine ⟨s', .head ⟨_, h₁⟩ (.head ⟨_, h₂⟩ hs'), hexts.trans (he₂.trans he₁), le_trans ?_ hcount⟩
    rw [hsent₂, hsent₁]
    simp only [List.append_assoc, List.count_append, List.count_singleton_self]
    omega

/-- **Forwarding around a cycle never has to stop.**  A node can become a requirement of
itself, and two nodes owners of each other.  A `Down` signal then sent to the first, or an `Up`
signal sent to either of the second, is re-sent without bound, and no extension changes on the
way. -/
theorem forwarding_unbounded :
    (∃ s, Reachable (fun _ => []) s ∧ RequirementEdge s 1 1) ∧
    (∃ s, Reachable (fun _ => []) s ∧ OwnerEdge s 1 2 ∧ OwnerEdge s 2 1) ∧
    (∀ (s : Network) (q p : ℕ) (kind : SignalKind) (n : ℕ), RequirementEdge s p p →
      ∃ s', Relation.ReflTransGen Step (s.inject q p fun id => ⟨id, .down, kind⟩) s' ∧
        s'.exts = s.exts ∧ n ≤ s'.sent.count ⟨p, p, ⟨s.next, .down, kind⟩⟩) ∧
    (∀ (s : Network) (q p o : ℕ) (kind : SignalKind) (n : ℕ), OwnerEdge s p o →
      OwnerEdge s o p → ∃ s', Relation.ReflTransGen Step (s.inject q p fun id => ⟨id, .up, kind⟩) s' ∧
        s'.exts = s.exts ∧ n ≤ s'.sent.count ⟨p, o, ⟨s.next, .up, kind⟩⟩) := by
  refine ⟨selfLink_reachable, ownerCycle_reachable, fun s q p kind n hp => ?_,
    fun s q p o kind n hpo hop => ?_⟩
  · obtain ⟨s', hs', he, h⟩ := @down_self_loop p ⟨s.next, .down, kind⟩ rfl n
      (s.inject q p fun id => ⟨id, .down, kind⟩) q
      (by simp [inject]) hp
    exact ⟨s', hs', he, by omega⟩
  · obtain ⟨s', hs', he, h⟩ := @up_owner_cycle p o ⟨s.next, .up, kind⟩ rfl n
      (s.inject q p fun id => ⟨id, .up, kind⟩) q
      (by simp [inject]) hpo hop
    exact ⟨s', hs', he, by omega⟩

end Network

end Graphvent
