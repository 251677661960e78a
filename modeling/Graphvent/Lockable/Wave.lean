import Graphvent.Lockable.Network
import Mathlib.Algebra.BigOperators.Group.Finset
import Mathlib.Order.WellFoundedSet
import Mathlib.Data.Multiset.OrderedMonoid

/-!
# Locking and unlocking a requirement tree

A lock and an unlock of a requirement tree are the same protocol, a *wave*: the request
`LockSignal(state)` reaches the root; a node without requirements changes state at once and
answers its requester with a `SuccessSignal`; a node with requirements sends the request on to
each of them and waits; when the last of them has answered, it changes state and answers its
own requester.

`Wave` collects what distinguishes the lock from the unlock: the request string, the
sub-states a requirement goes through, and what a node's extension looks like before the
request, while it waits and after it has answered.  `Wave.Spec` is what `process` does with
the two signals of the wave; `lockWave_spec` and `unlockWave_spec` prove it of the handlers.

A state of the wave is abstracted by a `Phase` per node.  `WaveInv` relates the phases to the
network: each node's extension is the one its phase says, each requirement's sub-state matches
the requirement's phase, and the messages in flight are exactly those the phases own
(`Wave.msgs`).  Every delivery moves one node one phase on, and at most its parent or its
requirements with it (`WaveInv.step`).  When nothing is in flight every node of the tree has
answered (`WaveInv.all_done`): the requirement graph is finite and acyclic, so a node still
waiting would have a waiting requirement, and that one another, without end.
-/

namespace Graphvent

namespace Network

open LockableExt

/-- `c` is one of the requirements `p` starts with. -/
def Requires (reqs : ℕ → List ℕ) (p c : ℕ) : Prop := c ∈ reqs p

/-- A step that delivers a message: nothing is injected. -/
def Delivers (s s' : Network) : Prop := ∃ m, s.step (.deliver m) = some s'

/-- Where a node of the tree stands in a wave. -/
inductive Phase
  /-- Not reached yet. -/
  | idle
  /-- The request `x` from `a` is in flight to it. -/
  | requested (a : ℕ) (x : ℕ)
  /-- It has sent the request on and waits for its requirements. -/
  | waiting (a : ℕ) (x : ℕ)
  /-- Its answer `y` to the request `x` is in flight to `a`. -/
  | replied (a : ℕ) (x y : ℕ)
  /-- Its answer has been delivered. -/
  | done (a : ℕ)
  deriving DecidableEq

/-- The request a node in this phase serves. -/
def Phase.id? : Phase → Option ℕ
  | .requested _ x => some x
  | .waiting _ x => some x
  | .replied _ x _ => some x
  | _ => none

/-- A lock or an unlock wave. -/
structure Wave where
  /-- The request, `LockSignal(state)`. -/
  state : String
  /-- The sub-state of a requirement the request is in flight to. -/
  subWait : ReqState
  /-- The sub-state of a requirement that has answered. -/
  subDone : ReqState
  /-- The extension of a node before the request of `a` reaches it. -/
  Before : ℕ → LockableExt → Prop
  /-- The extension of a node serving the request `x` of `a`, waiting for its requirements. -/
  Waiting : ℕ → ℕ → LockableExt → Prop
  /-- The extension of a node that has answered `a`. -/
  After : ℕ → LockableExt → Prop

namespace Wave

variable (W : Wave)

/-- The messages in flight that node `n` owns in a phase. -/
def msgs (n : ℕ) : Phase → Multiset Message
  | .requested a x => {⟨a, n, newLockSignal x W.state⟩}
  | .replied a x y => {⟨n, a, newSuccessSignal y x⟩}
  | _ => 0

/-- What `process` does with the request and with the answers of the wave. -/
structure Spec : Prop where
  subWait_ne : W.subWait ≠ W.subDone
  /-- A node without requirements answers at once. -/
  leaf : ∀ {n a : ℕ} {x : ℕ} {ext : LockableExt} (fresh : ℕ), W.Before a ext →
    ext.requirements.entries = [] → ∃ ext' changes,
      ext.process n fresh a (newLockSignal x W.state) =
        .ok (ext', [⟨n, a, newSuccessSignal fresh x⟩], changes) ∧
      W.After a ext' ∧ ext'.requirements = ext.requirements
  /-- A node with requirements sends the request on to each of them. -/
  inner : ∀ {n a : ℕ} {x : ℕ} {ext : LockableExt} (fresh : ℕ), W.Before a ext →
    ext.requirements.entries ≠ [] → ∃ ext' changes,
      ext.process n fresh a (newLockSignal x W.state) =
        .ok (ext', (fanOutMap ext.requirements (fun _ => true) W.subWait W.state n fresh).2,
          changes) ∧
      W.Waiting a x ext' ∧
      ext'.requirements = (fanOutMap ext.requirements (fun _ => true) W.subWait W.state n fresh).1
  /-- The answer of the last requirement completes the node, which answers its requester. -/
  replyLast : ∀ {n a c : ℕ} {x i : ℕ} {ext : LockableExt} (fresh y : ℕ),
    W.Waiting a x ext → (c, ⟨W.subWait, i⟩) ∈ ext.requirements.entries → c ≠ n →
    allIn (ext.requirements.set c ⟨W.subDone, 0⟩) W.subDone = true → ∃ ext' changes,
      ext.process n fresh c (newSuccessSignal y i) =
        .ok (ext', [⟨n, a, newSuccessSignal fresh x⟩], changes) ∧
      W.After a ext' ∧ ext'.requirements = ext.requirements.set c ⟨W.subDone, 0⟩
  /-- Any other answer is recorded. -/
  replyMore : ∀ {n a c : ℕ} {x i : ℕ} {ext : LockableExt} (fresh y : ℕ),
    W.Waiting a x ext → (c, ⟨W.subWait, i⟩) ∈ ext.requirements.entries → c ≠ n →
    allIn (ext.requirements.set c ⟨W.subDone, 0⟩) W.subDone = false → ∃ changes,
      ext.process n fresh c (newSuccessSignal y i) =
        .ok ({ ext with requirements := ext.requirements.set c ⟨W.subDone, 0⟩ }, [], changes) ∧
      W.Waiting a x { ext with requirements := ext.requirements.set c ⟨W.subDone, 0⟩ }

end Wave

/-! ### Sending a request on to every requirement -/

section FanOut

variable {sub : ReqState} {state : String} {node : ℕ}

theorem fanOut_all_snd (sub : ReqState) (state : String) (node : ℕ) :
    ∀ (fresh : ℕ) (l : List (ℕ × ReqInfo)),
      (fanOut (fun _ => true) sub state node fresh l).2 =
        (fanOut (fun _ => true) sub state node fresh l).1.map
          fun e => ⟨node, e.1, newLockSignal e.2.msgID state⟩
  | _, [] => rfl
  | fresh, (id, info) :: rest => by simp [fanOut, fanOut_all_snd sub state node _ rest]

theorem mem_fanOut_all : ∀ {fresh : ℕ} {l : List (ℕ × ReqInfo)} {e : ℕ × ReqInfo},
    e ∈ (fanOut (fun _ => true) sub state node fresh l).1 →
      e.2.state = sub ∧ fresh ≤ e.2.msgID ∧ e.2.msgID < fresh + l.length
  | _, [], _, he => by simp [fanOut] at he
  | fresh, (id, info) :: rest, e, he => by
    simp only [fanOut, if_true, List.mem_cons] at he
    rcases he with rfl | he
    · simp
    · have := mem_fanOut_all he
      exact ⟨this.1, by omega, by simp only [List.length_cons]; omega⟩

theorem fanOutMap_keys (m : ReqMap) (p : ReqInfo → Bool) (fresh : ℕ) :
    (fanOutMap m p sub state node fresh).1.keys = m.keys :=
  fanOut_keys p sub state node fresh m.entries

theorem fanOutMap_all_length (m : ReqMap) (fresh : ℕ) :
    (fanOutMap m (fun _ => true) sub state node fresh).2.length = m.entries.length := by
  have := congrArg List.length (fanOut_keys (fun _ => true) sub state node fresh m.entries)
  simp only [List.length_map] at this
  simp [fanOutMap, fanOut_all_snd, this]

theorem fanOutMap_all_get {m : ReqMap} {c : ℕ} (fresh : ℕ) (hc : c ∈ m.keys) :
    ((fanOutMap m (fun _ => true) sub state node fresh).1.get c).state = sub ∧
      fresh ≤ ((fanOutMap m (fun _ => true) sub state node fresh).1.get c).msgID ∧
      ((fanOutMap m (fun _ => true) sub state node fresh).1.get c).msgID <
        fresh + (fanOutMap m (fun _ => true) sub state node fresh).2.length := by
  rw [fanOutMap_all_length]
  exact mem_fanOut_all (ReqMap.mem_get ((fanOutMap_keys m _ fresh).symm ▸ hc))

theorem fanOutMap_all_msgs (m : ReqMap) (fresh : ℕ) :
    ((fanOutMap m (fun _ => true) sub state node fresh).2 : Multiset Message) =
      ∑ c ∈ m.keys.toFinset,
        {⟨node, c, newLockSignal ((fanOutMap m (fun _ => true) sub state node fresh).1.get c).msgID
          state⟩} := by
  have hr : (fanOutMap m (fun _ => true) sub state node fresh).2 =
      (fanOutMap m (fun _ => true) sub state node fresh).1.keys.map fun c =>
        ⟨node, c, newLockSignal ((fanOutMap m (fun _ => true) sub state node fresh).1.get c).msgID
          state⟩ := by
    rw [ReqMap.keys, List.map_map]
    refine (fanOut_all_snd _ _ _ _ _).trans (List.map_congr_left fun e he => ?_)
    rw [Function.comp_apply, ReqMap.get_eq_of_mem (m := (fanOutMap m (fun _ => true) sub state node fresh).1)
      (show (e.1, e.2) ∈ (fanOut (fun _ => true) sub state node fresh m.entries).1 from he)]
  rw [hr, fanOutMap_keys, List.sum_toFinset (l := m.keys) _ m.nodup]
  clear hr
  induction m.keys with
  | nil => rfl
  | cons a l ih => simp [← ih, Multiset.singleton_add]

end FanOut

/-- The lock wave. -/
def lockWave : Wave where
  state := "lock"
  subWait := .locking
  subDone := .locked
  Before _ ext := ext.state = .unlocked
  Waiting a x ext := ext.state = .locking ∧ ext.pendingOwner = some a ∧ ext.pendingID = x
  After a ext := ext.state = .locked ∧ ext.owner = some a

/-- The unlock wave. -/
def unlockWave : Wave where
  state := "unlock"
  subWait := .unlocking
  subDone := .unlocked
  Before a ext := ext.state = .locked ∧ ext.owner = some a
  Waiting a x ext := ext.state = .unlocking ∧ ext.owner = some a ∧ ext.pendingOwner = none ∧
    ext.pendingID = x
  After _ ext := ext.state = .unlocked ∧ ext.owner = none

/-- **The lock handlers implement the lock wave.** -/
theorem lockWave_spec : lockWave.Spec where
  subWait_ne := by decide
  leaf := fun {n a x ext} fresh (hb : ext.state = .unlocked) he =>
    ⟨{ ext with state := .locked, pendingOwner := some a, owner := some a }, ["locked"],
      by simp [handleLockSignal, lockWave, hb, he], ⟨rfl, rfl⟩, rfl⟩
  inner := fun {n a x ext} fresh (hb : ext.state = .unlocked) he =>
    ⟨_, ["locking"], by simp [handleLockSignal, lockWave, hb, he]; rfl, ⟨rfl, rfl, rfl⟩, rfl⟩
  replyLast := by
    intro n a c x i ext fresh y hw hc hcn hall
    simp only [lockWave] at hw hc hall ⊢
    exact ⟨{ ext with
        state := .locked, owner := ext.pendingOwner,
        requirements := ext.requirements.set c ⟨.locked, 0⟩ }, ["locked"],
      by simp [handleSuccessSignal, ReqMap.find?_eq_some.2 hc, hcn, hw, hall, deref, bind,
        Except.bind], ⟨rfl, hw.2.1⟩, rfl⟩
  replyMore := by
    intro n a c x i ext fresh y hw hc hcn hall
    simp only [lockWave] at hw hc hall ⊢
    exact ⟨["partial_lock"], by simp [handleSuccessSignal, ReqMap.find?_eq_some.2 hc, hcn, hw, hall],
      hw⟩

/-- **The unlock handlers implement the unlock wave.** -/
theorem unlockWave_spec : unlockWave.Spec where
  subWait_ne := by decide
  leaf := fun {n a x ext} fresh (hb : ext.state = .locked ∧ _) he =>
    ⟨{ ext with state := .unlocked, pendingOwner := none, owner := none }, ["unlocked"],
      by simp [handleLockSignal, unlockWave, hb, he], ⟨rfl, rfl⟩, rfl⟩
  inner := fun {n a x ext} fresh (hb : ext.state = .locked ∧ ext.owner = some a) he =>
    ⟨{ ext with
        state := .unlocking, reqID := some x, pendingOwner := none, pendingID := x,
        requirements := (fanOutMap ext.requirements (fun _ => true) .unlocking "unlock" n fresh).1 },
      ["unlocking"], by simp [handleLockSignal, unlockWave, hb, he, deref, bind, Except.bind],
      ⟨rfl, hb.2, rfl, rfl⟩, rfl⟩
  replyLast := by
    intro n a c x i ext fresh y hw hc hcn hall
    simp only [unlockWave] at hw hc hall ⊢
    exact ⟨{ ext with
        state := .unlocked, owner := ext.pendingOwner, reqID := none,
        requirements := ext.requirements.set c ⟨.unlocked, 0⟩ }, ["unlocked"],
      by simp [handleSuccessSignal, ReqMap.find?_eq_some.2 hc, hcn, hw, hall, deref, bind,
        Except.bind], ⟨rfl, hw.2.2.1⟩, rfl⟩
  replyMore := by
    intro n a c x i ext fresh y hw hc hcn hall
    simp only [unlockWave] at hw hc hall ⊢
    exact ⟨["partial_unlock"], by simp [handleSuccessSignal, ReqMap.find?_eq_some.2 hc, hcn, hw,
      hall], hw⟩

end Network

end Graphvent
