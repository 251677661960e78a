import Graphvent.Lockable.Wave

/-!
# Replies that answer nothing

A reply counts for `HandleSuccessSignal` only when its sender is a requirement and its `ReqID`
is the `MsgID` recorded for that requirement; any other success is ignored.
`HandleErrorSignal` checks neither: on a lockable that is `Locking`, an `Error("not_unlocked")`
from any node, answering any request, aborts the lock and writes `Requirements[source]`, which
adds a requirement when the sender is not one.

* `notUnlocked_aborts`: an `Error("not_unlocked")` from any node, with any `ReqID`, aborts a
  lock in progress;
* `notUnlocked_adds_requirement`: sent by a node that is not a requirement, it adds that node.
-/

namespace Graphvent

namespace LockableExt

open Network

variable {ext : LockableExt} {node fresh source : ℕ}

theorem fanOutMap_get_of_not {m : ReqMap} {p : ReqInfo → Bool} {sub : ReqState} {state : String}
    {id : ℕ} (hk : id ∈ m.keys) (hp : p (m.get id) = false) :
    (fanOutMap m p sub state node fresh).1.get id = m.get id := by
  have hk' : id ∈ (fanOutMap m p sub state node fresh).1.keys := by rwa [fanOutMap_keys]
  obtain ⟨info, hi, h⟩ := mem_fanOut (ReqMap.mem_get hk')
  rw [ReqMap.get_eq_of_mem hi] at hp ⊢
  rcases h with ⟨h, -⟩ | ⟨-, h⟩
  · rw [hp] at h
    cases h
  · exact h

/-- `HandleErrorSignal` on `"not_unlocked"` while `Locking`: the sender's entry is written with
sub-state `Unlocked`, and every `Locked` requirement is sent an unlock. -/
theorem process_notUnlocked_of_locking (hs : ext.state = .locking) (id x : ℕ) :
    ext.process node fresh source (newErrorSignal id x "not_unlocked") =
      .ok ({ ext with
              state := .abortingLock,
              requirements := (fanOutMap (ext.requirements.set source
                { ext.requirements.get source with state := .unlocked })
                (fun info => info.state = .locked) .unlocking "unlock" node fresh).1 },
        (fanOutMap (ext.requirements.set source
          { ext.requirements.get source with state := .unlocked })
          (fun info => info.state = .locked) .unlocking "unlock" node fresh).2, ["requirements"]) := by
  show ext.handleErrorSignal node fresh source "not_unlocked" = _
  unfold handleErrorSignal
  exact if_pos hs

/-- **An `Error("not_unlocked")` aborts any lock in progress.**  `HandleErrorSignal` checks
neither the sender nor the `ReqID`: from any node, answering any request, the reply moves a
`Locking` lockable to `AbortingLock` and records the sender as an `Unlocked` requirement. -/
theorem notUnlocked_aborts (hs : ext.state = .locking) (node fresh source id x : ℕ) :
    ∃ r, ext.process node fresh source (newErrorSignal id x "not_unlocked") = .ok r ∧
      r.1.state = .abortingLock ∧ source ∈ r.1.requirements.keys ∧
      (r.1.requirements.get source).state = .unlocked := by
  have hk : source ∈ (ext.requirements.set source
      { ext.requirements.get source with state := .unlocked }).keys :=
    ReqMap.mem_keys.2 ⟨_, ReqMap.mem_set.2 (.inl rfl)⟩
  refine ⟨_, process_notUnlocked_of_locking hs id x, rfl, by rwa [fanOutMap_keys], ?_⟩
  rw [fanOutMap_get_of_not hk (by simp), ReqMap.get_set_self]

/-- A lock requested of a lockable whose one requirement is node `2` is aborted by an
`Error("not_unlocked")` from node `3`, which is no requirement, answering request `9`, which
was never sent. -/
theorem foreignError_aborts_lock :
    ∃ ext, Reachable 0 ext ∧ ext.state = .locking ∧ 3 ∉ ext.requirements.keys ∧
      ∃ r, ext.process 0 6 3 (newErrorSignal 7 9 "not_unlocked") = .ok r ∧
        r.1.state = .abortingLock ∧ 3 ∈ r.1.requirements.keys ∧
        (r.1.requirements.get 3).state = .unlocked :=
  ⟨_, @Reachable.process 0 _ _ 5 1 (newLockSignal 4 "lock") _ _ (.init [2]) rfl, rfl, by decide,
    notUnlocked_aborts rfl 0 6 3 7 9⟩

/-- **A reply adds a requirement.**  Sent to a `Locking` lockable by a node that is not one of
its requirements, an `Error("not_unlocked")` appends the sender to `Requirements`, which no
`Link` asked for. -/
theorem notUnlocked_adds_requirement (hs : ext.state = .locking) (node fresh source id x : ℕ)
    (hsrc : source ∉ ext.requirements.keys) :
    ∃ r, ext.process node fresh source (newErrorSignal id x "not_unlocked") = .ok r ∧
      r.1.requirements.keys = ext.requirements.keys ++ [source] :=
  ⟨_, process_notUnlocked_of_locking hs id x, by
    rw [fanOutMap_keys, ReqMap.keys_set_of_not_mem _ hsrc]⟩

/-- Node `3` becomes a requirement of a lockable that only requires node `2`. -/
theorem foreignError_adds_requirement :
    ∃ ext, Reachable 0 ext ∧ ext.state = .locking ∧ ext.requirements.keys = [2] ∧
      ∃ r, ext.process 0 6 3 (newErrorSignal 7 9 "not_unlocked") = .ok r ∧
        r.1.requirements.keys = [2, 3] :=
  ⟨_, @Reachable.process 0 _ _ 5 1 (newLockSignal 4 "lock") _ _ (.init [2]) rfl, rfl, rfl,
    notUnlocked_adds_requirement rfl 0 6 3 7 9 (by decide)⟩

end LockableExt

end Graphvent
