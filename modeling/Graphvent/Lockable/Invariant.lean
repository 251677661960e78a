import Graphvent.Lockable.Process

/-!
# The shape of every reachable lockable

`LockableExt.Reachable node` is the set of extensions that `process` reaches from
`newLockableExt reqs` when it is fed any sequence of signals from any senders: replies that
answer nothing, forged replies and requests arriving in the middle of a transaction included.
Every such extension is `WellFormed`:

* it has an owner exactly when it is `Locked` or `Unlocking`;
* it has a pending owner and a request ID while `Locking` or `AbortingLock`;
* it has requirements while `Locking`, `Unlocking` or `AbortingLock`;
* each requirement's sub-state is one its state allows (`subStates`).

`reachable_wellFormed` proves this, and that `process` then never dereferences a nil pointer:
the only panic left is the one on `"not_locked"`.  The induction carries one more fact,
`Inv.unlocking_pendingOwner`: an unlocking lockable has no pending owner, which is what its
`Owner` becomes when the unlock completes.
-/

namespace Graphvent

namespace LockableExt

/-- The sub-states a requirement may have while its lockable is in state `s`. -/
def subStates : ReqState → List ReqState
  | .unlocked => [.unlocked]
  | .locked => [.locked]
  | .locking => [.locking, .locked]
  | .unlocking => [.unlocking, .unlocked]
  | .abortingLock => [.locking, .unlocking, .unlocked]

/-- The shape of a reachable `LockableExt`. -/
structure WellFormed (ext : LockableExt) : Prop where
  owner_isSome : ext.owner.isSome ↔ ext.state = .locked ∨ ext.state = .unlocking
  pending_isSome : ext.state = .locking ∨ ext.state = .abortingLock →
    ext.pendingOwner.isSome ∧ ext.reqID.isSome
  requirements_ne_nil : ext.state = .locking ∨ ext.state = .unlocking ∨
    ext.state = .abortingLock → ext.requirements.entries ≠ []
  subState : ∀ e ∈ ext.requirements.entries, e.2.state ∈ subStates ext.state

/-- The inductive invariant. -/
structure Inv (ext : LockableExt) extends WellFormed ext : Prop where
  unlocking_pendingOwner : ext.state = .unlocking → ext.pendingOwner = none

/-- The extensions `process` reaches from `NewLockableExt(reqs)`. -/
inductive Reachable (node : ℕ) : LockableExt → Prop
  | init (reqs : List ℕ) : Reachable node (newLockableExt reqs)
  | process {ext ext' : LockableExt} {fresh : ℕ} {source : ℕ} {signal : Signal}
      {out : List Message} {changes : Changes} :
      Reachable node ext → ext.process node fresh source signal = .ok (ext', out, changes) →
      Reachable node ext'

/-- A handler's outcome keeps `Inv`; the only panic it may raise is the one on
`"not_locked"`. -/
def InvOutcome : Handled → Prop
  | .ok r => Inv r.1
  | .error e => e = notLockedPanic

theorem inv_newLockableExt (reqs : List ℕ) : Inv (newLockableExt reqs) where
  owner_isSome := by simp [newLockableExt]
  pending_isSome := by simp [newLockableExt]
  requirements_ne_nil := by simp [newLockableExt]
  subState := by simp [newLockableExt, ReqInfo.zero, subStates]
  unlocking_pendingOwner := by simp [newLockableExt]

variable {ext : LockableExt} {node : ℕ} {fresh : ℕ} {source : ℕ}

theorem Inv.owner_eq_none (h : Inv ext) (hs : ext.state ≠ .locked ∧ ext.state ≠ .unlocking) :
    ext.owner = none := by
  simpa [hs.1, hs.2] using h.owner_isSome

theorem Inv.with_requirements (h : Inv ext) (m : ReqMap)
    (hne : ext.state = .locking ∨ ext.state = .unlocking ∨ ext.state = .abortingLock →
      m.entries ≠ [])
    (hsub : ∀ e ∈ m.entries, e.2.state ∈ subStates ext.state) :
    Inv { ext with requirements := m } where
  owner_isSome := h.owner_isSome
  pending_isSome := h.pending_isSome
  requirements_ne_nil := hne
  subState := hsub
  unlocking_pendingOwner := h.unlocking_pendingOwner

theorem Inv.set_requirement (h : Inv ext) (id : ℕ) {info : ReqInfo}
    (hs : info.state ∈ subStates ext.state) :
    Inv { ext with requirements := ext.requirements.set id info } :=
  h.with_requirements _ (fun _ => ReqMap.set_ne_nil _ _ _) fun e he => by
    rcases ReqMap.mem_set.1 he with rfl | ⟨he, -⟩
    · exact hs
    · exact h.subState e he

theorem handleLinkSignal_inv (h : Inv ext) (sigID : ℕ) (nodeID : ℕ) (action : String) :
    InvOutcome (ext.handleLinkSignal node fresh source sigID nodeID action) := by
  unfold handleLinkSignal
  split
  · rename_i hs
    split
    · split
      · exact h
      · exact h.set_requirement _ (by simp [hs, subStates, ReqInfo.zero])
    · split
      · refine h.with_requirements _ (by simp [hs]) fun e he => ?_
        exact h.subState e (ReqMap.mem_erase.1 he).1
      · exact h
    · exact h
  · exact h

theorem handleLockSignal_inv (h : Inv ext) (sigID : ℕ) (state : String) :
    InvOutcome (ext.handleLockSignal node fresh source sigID state) := by
  unfold handleLockSignal
  split
  · split
    · rename_i hs
      have ho := h.owner_eq_none (by simp [hs])
      split
      · rename_i hl
        refine ⟨⟨by simp, by simp, by simp, ?_⟩, by simp⟩
        simp [List.length_eq_zero.1 hl]
      · rename_i hl
        refine ⟨⟨by simp [ho], by simp, fun _ => fanOut_ne_nil (by simpa using hl), ?_⟩, by simp⟩
        intro e he
        obtain ⟨_, _, ⟨-, hst⟩ | ⟨hf, -⟩⟩ := mem_fanOut he
        · simp [hst, subStates]
        · simp at hf
    · exact h
  · split
    · rename_i hs
      obtain ⟨o, ho⟩ := Option.isSome_iff_exists.1 (h.owner_isSome.2 (.inl hs))
      split
      · rename_i hl
        refine ⟨⟨by simp, by simp, by simp, ?_⟩, by simp⟩
        simp [List.length_eq_zero.1 hl]
      · rename_i hl
        simp only [ho, deref, bind, Except.bind]
        split
        · refine ⟨⟨by simp [ho], by simp, fun _ => fanOut_ne_nil (by simpa using hl), ?_⟩,
            by simp⟩
          intro e he
          obtain ⟨_, _, ⟨-, hst⟩ | ⟨hf, -⟩⟩ := mem_fanOut he
          · simp [hst, subStates]
          · simp at hf
        · exact h
    · exact h
  · exact h

theorem handleErrorSignal_inv (h : Inv ext) (error : String) :
    InvOutcome (ext.handleErrorSignal node fresh source error) := by
  unfold handleErrorSignal
  dsimp only
  split
  · split
    · rename_i hs
      obtain ⟨hp, hr⟩ := h.pending_isSome (.inl hs)
      refine ⟨⟨by simp [h.owner_eq_none (by simp [hs])], by simp [hp, hr],
        fun _ => fanOut_ne_nil (ReqMap.set_ne_nil _ _ _), fun e he => ?_⟩, by simp⟩
      obtain ⟨info, hi, ⟨-, hst⟩ | ⟨hl, rfl⟩⟩ := mem_fanOut he
      · simp [hst, subStates]
      · rcases ReqMap.mem_set.1 hi with heq | ⟨hold, -⟩
        · rw [(Prod.ext_iff.1 heq).2]
          simp [subStates]
        · have := h.subState _ hold
          simp only [hs, subStates, List.mem_cons, List.mem_singleton, List.not_mem_nil,
            or_false] at this
          simp only [decide_eq_false_iff_not] at hl
          simp [this.resolve_right hl, subStates]
    · exact h
  · rfl
  · exact h

theorem handleSuccessSignal_inv (h : Inv ext) (reqID : ℕ) :
    InvOutcome (ext.handleSuccessSignal node fresh source reqID) := by
  unfold handleSuccessSignal
  by_cases hsn : source = node
  · rw [if_pos hsn]
    exact h
  rw [if_neg hsn]
  rcases hinfo : ext.requirements.find? source with _ | info
  · exact h
  have hsub := h.subState _ (ReqMap.find?_eq_some.1 hinfo)
  dsimp only
  by_cases hid : info.msgID ≠ reqID
  · rw [if_pos hid]
    exact h
  rw [if_neg hid]
  split
  · split
    · rename_i hs
      split
      · rename_i hall
        obtain ⟨o, ho⟩ := Option.isSome_iff_exists.1 (h.pending_isSome (.inl hs)).1
        simp only [ho, deref, bind, Except.bind]
        refine ⟨⟨by simp [ho], by simp, by simp, fun e he => ?_⟩, by simp⟩
        simp [(allIn_iff.1 hall) e he, subStates]
      · exact h.set_requirement _ (by simp [hs, subStates])
    · split
      · rename_i hs
        exact h.set_requirement _ (by simp [hs, subStates])
      · exact h
  · split
    · rename_i hiu
      have hs : ext.state = .unlocking ∨ ext.state = .abortingLock := by
        rw [hiu] at hsub
        cases hst : ext.state <;> simp [hst, subStates] at hsub ⊢
      split
      · rename_i hall
        split
        · rename_i hs1
          obtain ⟨o, ho⟩ := Option.isSome_iff_exists.1 (h.owner_isSome.2 (.inr hs1))
          simp only [ho, deref, bind, Except.bind]
          refine ⟨⟨by simp [h.unlocking_pendingOwner hs1], by simp, by simp, fun e he => ?_⟩,
            by simp⟩
          simp [(allIn_iff.1 hall) e he, subStates]
        · split
          · rename_i hs2
            obtain ⟨hp, hr⟩ := h.pending_isSome (.inr hs2)
            obtain ⟨o, ho⟩ := Option.isSome_iff_exists.1 hp
            obtain ⟨r, hr⟩ := Option.isSome_iff_exists.1 hr
            simp only [ho, hr, deref, bind, Except.bind]
            refine ⟨⟨by simp [h.owner_eq_none (by simp [hs2])], by simp, by simp,
              fun e he => ?_⟩, by simp⟩
            simp [(allIn_iff.1 hall) e he, subStates]
          · rename_i hs1 hs2
            exact absurd hs (by simp [hs1, hs2])
      · exact h.set_requirement _ (by rcases hs with hs | hs <;> simp [hs, subStates])
    · exact h

theorem process_inv (h : Inv ext) (node : ℕ) (fresh : ℕ) (source : ℕ)
    (signal : Signal) : InvOutcome (ext.process node fresh source signal) := by
  unfold process
  split
  · split
    · split <;> exact h
    · exact h
  · exact h
  · split
    · exact handleLinkSignal_inv h _ _ _
    · exact handleLockSignal_inv h _ _
    · exact handleErrorSignal_inv h _
    · exact handleSuccessSignal_inv h _
    · exact h

theorem Reachable.inv (hr : Reachable node ext) : Inv ext := by
  induction hr with
  | init reqs => exact inv_newLockableExt reqs
  | @process _ _ fresh source signal _ _ _ hp ih =>
    have := process_inv ih node fresh source signal
    rwa [hp] at this

/-- **Every reachable lockable is well formed**, and processing any signal in it never
dereferences a nil `Owner`, `PendingOwner` or `ReqID`. -/
theorem reachable_wellFormed (hr : Reachable node ext) :
    ext.WellFormed ∧
      ∀ fresh source signal, ext.process node fresh source signal ≠ .error nilDereference := by
  refine ⟨hr.inv.toWellFormed, fun fresh source signal he => ?_⟩
  have := process_inv hr.inv node fresh source signal
  rw [he] at this
  exact absurd this (by simp [InvOutcome, nilDereference, notLockedPanic])

/-- The lockable `0` requiring `1` and `2`, after a lock request from `3`, is `Locking`: it has
a pending owner, and no signal makes it dereference `nil`. -/
theorem locking_wellFormed :
    ∃ ext, Reachable 0 ext ∧ ext.state = .locking ∧ ext.WellFormed ∧
      ∀ fresh source signal, ext.process 0 fresh source signal ≠ .error nilDereference :=
  have hr := @Reachable.process 0 _ _ 5 3 (newLockSignal 4 "lock") _ _ (.init [1, 2]) rfl
  ⟨_, hr, rfl, reachable_wellFormed hr⟩

/-- A lockable without requirements, locked by node `1`, is released by an unlock from node
`2`: `HandleLockSignal` compares the sender with `Owner` only when there are requirements. -/
theorem unlock_from_non_owner :
    ∃ ext, Reachable 0 ext ∧ ext.owner = some 1 ∧
      ∃ r, ext.process 0 3 2 (newLockSignal 2 "unlock") = .ok r ∧ r.1.owner = none :=
  ⟨_, @Reachable.process 0 _ _ 2 1 (newLockSignal 1 "lock") _ _ (.init []) rfl, rfl, _, rfl, rfl⟩

end LockableExt

end Graphvent
