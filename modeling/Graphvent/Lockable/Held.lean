import Graphvent.Lockable.Tree

/-!
# A held tree stays held

Once a lock wave has completed over a tree of a requirement forest (`lock_unlock_tree`), every
node of the tree is `Locked` with every requirement `Locked`.  This file shows that nothing but
an unlock sent to a node of the tree can change it: lock and link requests from any node to any
node, unlocks sent to nodes outside the tree, and every message these cause, delivered in any
order, leave the extension of every node of the tree as it is.

The argument is an invariant of the whole network, `Network.Held`, over a set `S` of frozen nodes:

* a node of `S` keeps its extension; being `Locked` with its requirements `Locked`, it answers
  every request with an `ErrorSignal` and sends nothing else (`Frozen.process`);
* a node outside `S` is `Guarded`: a requirement of it in `S` is `Unlocked` or `Locking` in it,
  and it is then neither `Locked` nor `Unlocking`.  Such a node never sends `"unlock"` to a node
  of `S`, since it sends one only to a requirement it holds `Locked`, or to one that has just
  answered it with a `SuccessSignal` (`Guarded.process`);
* no message in flight is an unlock to a node of `S`, or a `SuccessSignal` from one, and every
  message is `Direct`.

`Held.step` proves that every event but an unlock sent to a node of `S` keeps it, and
`held_tree_stable` starts it from the end of a lock wave.  A requirement of `S` that a node
outside gains on the way (by `"add"`, or by an `ErrorSignal("not_unlocked")` from a node it
does not require) is covered by `Guarded`.
-/

namespace Graphvent

namespace LockableExt

theorem mem_fanOut_msgs {p : ReqInfo → Bool} {sub : ReqState} {state : String} {node : ℕ} :
    ∀ {fresh : ℕ} {l : List (ℕ × ReqInfo)} {m : Message}, m ∈ (fanOut p sub state node fresh l).2 →
      ∃ info, (m.dest, info) ∈ l ∧ p info = true ∧ m.source = node ∧ m.signal.dir = .direct ∧
        m.signal.kind = .lock state
  | _, [], _, hm => by simp [fanOut] at hm
  | fresh, (id, info) :: rest, m, hm => by
    unfold fanOut at hm
    split at hm <;> rename_i hp
    · rcases List.mem_cons.1 hm with rfl | hm
      · exact ⟨info, List.mem_cons_self _ _, hp, rfl, rfl, rfl⟩
      · obtain ⟨i, hi, h⟩ := mem_fanOut_msgs hm
        exact ⟨i, List.mem_cons_of_mem _ hi, h⟩
    · obtain ⟨i, hi, h⟩ := mem_fanOut_msgs hm
      exact ⟨i, List.mem_cons_of_mem _ hi, h⟩

/-- The extension of a node of a held tree: `Locked`, with every requirement `Locked`. -/
structure Frozen (ext : LockableExt) : Prop where
  locked : ext.state = .locked
  reqs_locked : ∀ e ∈ ext.requirements.entries, e.2.state = .locked

variable {ext ext' : LockableExt} {node fresh source : ℕ} {out : List Message} {ch : Changes}

theorem handleSuccessSignal_of_locked (h : ∀ e ∈ ext.requirements.entries, e.2.state = .locked)
    (reqID : ℕ) : ext.handleSuccessSignal node fresh source reqID = .ok (ext, [], []) := by
  unfold handleSuccessSignal
  by_cases hsn : source = node
  · rw [if_pos hsn]
  rw [if_neg hsn]
  rcases hinfo : ext.requirements.find? source with _ | info
  · rfl
  have hl : info.state = .locked := h _ (ReqMap.find?_eq_some.1 hinfo)
  simp [hl]

/-- A frozen node answers every direct signal but an unlock with at most one
`ErrorSignal("not_unlocked")`, and stays as it is. -/
theorem Frozen.process (hF : Frozen ext) {signal : Signal} (hd : signal.dir = .direct)
    (hu : signal.kind ≠ .lock "unlock")
    (h : ext.process node fresh source signal = .ok (ext', out, ch)) :
    ext' = ext ∧ ∀ m ∈ out, m.source = node ∧ m.signal.dir = .direct ∧
      ∃ r, m.signal.kind = .error r "not_unlocked" := by
  obtain ⟨id, dir, kind⟩ := signal
  subst hd
  have hnu : ext.state ≠ .unlocked := by rw [hF.locked]; decide
  cases kind with
  | link nodeID action =>
    simp only [LockableExt.process, handleLinkSignal, if_neg hnu, Except.ok.injEq,
      Prod.mk.injEq] at h
    obtain ⟨rfl, rfl, -⟩ := h
    simp [newErrorSignal]
  | lock state =>
    simp only [LockableExt.process] at h
    unfold handleLockSignal at h
    split at h
    · rw [if_neg hnu] at h
      obtain ⟨rfl, rfl, -⟩ := Prod.mk.inj (Except.ok.inj h)
      simp [newErrorSignal]
    · exact absurd rfl hu
    · obtain ⟨rfl, rfl, -⟩ := Prod.mk.inj (Except.ok.inj h)
      simp
  | error r e =>
    simp only [LockableExt.process] at h
    unfold handleErrorSignal at h
    split at h
    · rw [if_neg (by rw [hF.locked]; decide)] at h
      obtain ⟨rfl, rfl, -⟩ := Prod.mk.inj (Except.ok.inj h)
      simp
    · cases h
    · obtain ⟨rfl, rfl, -⟩ := Prod.mk.inj (Except.ok.inj h)
      simp
  | success r =>
    simp only [LockableExt.process, handleSuccessSignal_of_locked hF.reqs_locked] at h
    obtain ⟨rfl, rfl, -⟩ := Prod.mk.inj (Except.ok.inj h)
    simp
  | other t =>
    obtain ⟨rfl, rfl, -⟩ := Prod.mk.inj (Except.ok.inj h)
    simp

/-! ### Nodes outside the held set -/

section Guarded

variable (S : ℕ → Prop)

/-- A node outside a held set `S`: a requirement of it in `S` is `Unlocked` or `Locking` in it,
and it is then neither `Locked` nor `Unlocking`. -/
def Guarded (ext : LockableExt) : Prop :=
  ∀ e ∈ ext.requirements.entries, S e.1 →
    (e.2.state = .unlocked ∨ e.2.state = .locking) ∧ ext.state ≠ .locked ∧
      ext.state ≠ .unlocking

/-- A message a node outside `S` may send: from it, direct, and no unlock to a node of `S`. -/
def Harmless (node : ℕ) (m : Message) : Prop :=
  m.source = node ∧ m.signal.dir = .direct ∧ (S m.dest → m.signal.kind ≠ .lock "unlock")

variable {S}

theorem harmless_error (dest id reqID : ℕ) (err : String) :
    Harmless S node ⟨node, dest, newErrorSignal id reqID err⟩ :=
  ⟨rfl, rfl, fun _ h => nomatch h⟩

theorem harmless_success (dest id reqID : ℕ) :
    Harmless S node ⟨node, dest, newSuccessSignal id reqID⟩ :=
  ⟨rfl, rfl, fun _ h => nomatch h⟩

theorem harmless_nil : ∀ m ∈ ([] : List Message), Harmless S node m :=
  fun _ hm => absurd hm (List.not_mem_nil _)

theorem Guarded.of_ok {e : LockableExt} {msgs : List Message} {c : Changes}
    (h : (.ok (e, msgs, c) : Handled) = .ok (ext', out, ch)) (hG : Guarded S e)
    (hm : ∀ m ∈ msgs, Harmless S node m) : Guarded S ext' ∧ ∀ m ∈ out, Harmless S node m := by
  obtain ⟨rfl, rfl, -⟩ := Prod.mk.inj (Except.ok.inj h)
  exact ⟨hG, hm⟩

theorem Guarded.set {ext' : LockableExt} (hG : Guarded S ext) {id : ℕ} (hid : ¬ S id)
    {info : ReqInfo} (hreq : ext'.requirements = ext.requirements.set id info)
    (hst : ext'.state = ext.state ∨ ext'.state ≠ .locked ∧ ext'.state ≠ .unlocking) :
    Guarded S ext' := by
  intro e he hS
  rw [hreq, ReqMap.mem_set] at he
  rcases he with rfl | ⟨he, -⟩
  · exact absurd hS hid
  obtain ⟨h₁, h₂, h₃⟩ := hG e he hS
  rcases hst with h | h
  · exact ⟨h₁, h ▸ h₂, h ▸ h₃⟩
  · exact ⟨h₁, h⟩

theorem Guarded.handleLinkSignal (hG : Guarded S ext) {sigID nodeID : ℕ} {action : String}
    (h : ext.handleLinkSignal node fresh source sigID nodeID action = .ok (ext', out, ch)) :
    Guarded S ext' ∧ ∀ m ∈ out, Harmless S node m := by
  unfold LockableExt.handleLinkSignal at h
  by_cases hs : ext.state = .unlocked
  · rw [if_pos hs] at h
    split at h
    · split_ifs at h
      · exact Guarded.of_ok h hG (List.forall_mem_singleton.2 (harmless_error _ _ _ _))
      · obtain ⟨rfl, rfl, -⟩ := Prod.mk.inj (Except.ok.inj h)
        refine ⟨fun e he hS => ?_, List.forall_mem_singleton.2 (harmless_success _ _ _)⟩
        rw [ReqMap.mem_set] at he
        rcases he with rfl | ⟨he, -⟩
        · exact ⟨.inl rfl, by simp [hs]⟩
        · exact hG e he hS
    · split_ifs at h
      · exact Guarded.of_ok h (fun e he => hG e (ReqMap.mem_erase.1 he).1)
          (List.forall_mem_singleton.2 (harmless_success _ _ _))
      · exact Guarded.of_ok h hG (List.forall_mem_singleton.2 (harmless_error _ _ _ _))
    · exact Guarded.of_ok h hG (List.forall_mem_singleton.2 (harmless_error _ _ _ _))
  · rw [if_neg hs] at h
    exact Guarded.of_ok h hG (List.forall_mem_singleton.2 (harmless_error _ _ _ _))

theorem guarded_of_entries_nil (h : ext.requirements.entries = []) : Guarded S ext :=
  fun _ he => absurd (h ▸ he) (List.not_mem_nil _)

theorem Guarded.handleLockSignal (hG : Guarded S ext) {sigID : ℕ} {state : String}
    (h : ext.handleLockSignal node fresh source sigID state = .ok (ext', out, ch)) :
    Guarded S ext' ∧ ∀ m ∈ out, Harmless S node m := by
  unfold LockableExt.handleLockSignal at h
  split at h
  · split_ifs at h with hs hz
    · exact Guarded.of_ok h (guarded_of_entries_nil (List.length_eq_zero.1 hz))
        (List.forall_mem_singleton.2 (harmless_success _ _ _))
    · obtain ⟨rfl, rfl, -⟩ := Prod.mk.inj (Except.ok.inj h)
      refine ⟨fun e he hS => ⟨?_, by simp, by simp⟩, fun m hm => ?_⟩
      · obtain ⟨info, hi, ⟨-, hl⟩ | ⟨-, rfl⟩⟩ := mem_fanOut he
        · exact .inr hl
        · exact (hG _ hi hS).1
      · obtain ⟨-, -, -, h₁, h₂, h₃⟩ := mem_fanOut_msgs hm
        exact ⟨h₁, h₂, fun _ => by rw [h₃]; decide⟩
    · exact Guarded.of_ok h hG (List.forall_mem_singleton.2 (harmless_error _ _ _ _))
  · split_ifs at h with hs hz
    · exact Guarded.of_ok h (guarded_of_entries_nil (List.length_eq_zero.1 hz))
        (List.forall_mem_singleton.2 (harmless_success _ _ _))
    · -- a locked node holds no requirement of `S`
      have hno : ∀ e ∈ ext.requirements.entries, ¬ S e.1 := fun e he hS =>
        (hG e he hS).2.1 hs
      cases ho : ext.owner <;> simp only [ho, deref, bind, Except.bind] at h
      · cases h
      split_ifs at h
      · obtain ⟨rfl, rfl, -⟩ := Prod.mk.inj (Except.ok.inj h)
        refine ⟨fun e he hS => ?_, fun m hm => ?_⟩
        · obtain ⟨info, hi, -⟩ := mem_fanOut he
          exact (hno _ hi hS).elim
        · obtain ⟨info, hi, -, h₁, h₂, -⟩ := mem_fanOut_msgs hm
          exact ⟨h₁, h₂, fun hS => (hno _ hi hS).elim⟩
      · exact Guarded.of_ok h hG harmless_nil
    · exact Guarded.of_ok h hG (List.forall_mem_singleton.2 (harmless_error _ _ _ _))
  · exact Guarded.of_ok h hG harmless_nil

theorem Guarded.handleErrorSignal (hG : Guarded S ext) {error : String}
    (h : ext.handleErrorSignal node fresh source error = .ok (ext', out, ch)) :
    Guarded S ext' ∧ ∀ m ∈ out, Harmless S node m := by
  unfold LockableExt.handleErrorSignal at h
  split at h
  · split_ifs at h with hs
    · obtain ⟨rfl, rfl, -⟩ := Prod.mk.inj (Except.ok.inj h)
      -- after the write, a requirement in `S` is still `Unlocked` or `Locking`
      have hsub : ∀ e ∈ (ext.requirements.set source
          { ext.requirements.get source with state := .unlocked }).entries, S e.1 →
          e.2.state = .unlocked ∨ e.2.state = .locking := by
        intro e he hS
        rcases ReqMap.mem_set.1 he with rfl | ⟨he, -⟩
        · exact .inl rfl
        · exact (hG e he hS).1
      have hnl : ∀ e ∈ (ext.requirements.set source
          { ext.requirements.get source with state := .unlocked }).entries, S e.1 →
          e.2.state ≠ .locked := fun e he hS => by
        rcases hsub e he hS with h | h <;> rw [h] <;> decide
      refine ⟨fun e he hS => ⟨?_, by simp, by simp⟩, fun m hm => ?_⟩
      · obtain ⟨info, hi, ⟨hp, -⟩ | ⟨-, rfl⟩⟩ := mem_fanOut he
        · exact absurd (of_decide_eq_true hp) (hnl _ hi hS)
        · exact hsub _ hi hS
      · obtain ⟨info, hi, hp, h₁, h₂, -⟩ := mem_fanOut_msgs hm
        exact ⟨h₁, h₂, fun hS => absurd (of_decide_eq_true hp) (hnl _ hi hS)⟩
    · exact Guarded.of_ok h hG harmless_nil
  · cases h
  · exact Guarded.of_ok h hG harmless_nil

theorem Guarded.handleSuccessSignal (hG : Guarded S ext) (hsrc : ¬ S source) {reqID : ℕ}
    (h : ext.handleSuccessSignal node fresh source reqID = .ok (ext', out, ch)) :
    Guarded S ext' ∧ ∀ m ∈ out, Harmless S node m := by
  unfold LockableExt.handleSuccessSignal at h
  by_cases hsn : source = node
  · rw [if_pos hsn] at h
    exact Guarded.of_ok h hG harmless_nil
  rw [if_neg hsn] at h
  rcases hinfo : ext.requirements.find? source with _ | info <;> rw [hinfo] at h
  · exact Guarded.of_ok h hG harmless_nil
  dsimp only at h
  -- the requirements in `S` after writing the entry of `source` are the ones before
  have hset : ∀ info e, e ∈ (ext.requirements.set source info).entries → S e.1 →
      e ∈ ext.requirements.entries := fun info e he hS => by
    rcases ReqMap.mem_set.1 he with rfl | ⟨he, -⟩
    · exact absurd hS hsrc
    · exact he
  by_cases hid : info.msgID ≠ reqID
  · rw [if_pos hid] at h
    exact Guarded.of_ok h hG harmless_nil
  rw [if_neg hid] at h
  by_cases hlk : info.state = .locking
  · rw [if_pos hlk] at h
    split at h
    · split at h
      · rename_i hall
        -- the last requirement is locked: none of them is in `S`
        cases ho : ext.pendingOwner <;> simp only [ho, deref, bind, Except.bind] at h
        · cases h
        obtain ⟨rfl, rfl, -⟩ := Prod.mk.inj (Except.ok.inj h)
        refine ⟨fun e he hS => ?_, List.forall_mem_singleton.2 (harmless_success _ _ _)⟩
        have hlocked := (allIn_iff.1 hall) e he
        rcases (hG e (hset _ e he hS) hS).1 with h' | h' <;> rw [h'] at hlocked <;> cases hlocked
      · exact Guarded.of_ok h (hG.set hsrc rfl (.inl rfl)) harmless_nil
    · split at h
      · exact Guarded.of_ok h (hG.set hsrc rfl (.inl rfl))
          (List.forall_mem_singleton.2 ⟨rfl, rfl, fun hS => absurd hS hsrc⟩)
      · exact Guarded.of_ok h hG harmless_nil
  rw [if_neg hlk] at h
  by_cases hul : info.state = .unlocking
  · rw [if_pos hul] at h
    split at h
    · split at h
      · cases ho : ext.owner <;> simp only [ho, deref, bind, Except.bind] at h
        · cases h
        exact Guarded.of_ok h (hG.set hsrc rfl (.inr ⟨by simp, by simp⟩))
          (List.forall_mem_singleton.2 (harmless_success _ _ _))
      · split at h
        · cases hr : ext.reqID <;> cases hp : ext.pendingOwner <;>
            simp only [hr, hp, deref, bind, Except.bind] at h <;> cases h
          exact ⟨hG.set hsrc rfl (.inr ⟨by simp, by simp⟩),
            List.forall_mem_singleton.2 (harmless_error _ _ _ _)⟩
        · exact Guarded.of_ok h (hG.set hsrc rfl (.inr ⟨by simp, by simp⟩)) harmless_nil
    · exact Guarded.of_ok h (hG.set hsrc rfl (.inl rfl)) harmless_nil
  · rw [if_neg hul] at h
    exact Guarded.of_ok h hG harmless_nil

/-- A guarded node stays guarded, and sends only harmless messages, on every direct signal but a
`SuccessSignal` from a node of `S`. -/
theorem Guarded.process (hG : Guarded S ext) {signal : Signal} (hd : signal.dir = .direct)
    (hs : ∀ r, signal.kind = .success r → ¬ S source)
    (h : ext.process node fresh source signal = .ok (ext', out, ch)) :
    Guarded S ext' ∧ ∀ m ∈ out, Harmless S node m := by
  obtain ⟨id, dir, kind⟩ := signal
  subst hd
  cases kind with
  | link nodeID action => exact hG.handleLinkSignal h
  | lock state => exact hG.handleLockSignal h
  | error r e => exact hG.handleErrorSignal h
  | success r => exact hG.handleSuccessSignal (hs r rfl) h
  | other t => exact Guarded.of_ok h hG harmless_nil

end Guarded

end LockableExt

namespace Network

open LockableExt

section Held

variable (S : ℕ → Prop) (s₀ : Network)

/-- The invariant of a network whose nodes in `S` keep the extensions they have in `s₀`: the
other nodes are guarded, and no message in flight is an unlock to a node of `S` or a
`SuccessSignal` from one. -/
structure Held (s : Network) : Prop where
  frozen : ∀ n, S n → s.exts n = s₀.exts n
  guarded : ∀ y, ¬ S y → Guarded S (s.exts y)
  direct : ∀ m ∈ s.inflight, m.signal.dir = .direct
  no_unlock : ∀ m ∈ s.inflight, S m.dest → m.signal.kind ≠ .lock "unlock"
  no_success : ∀ m ∈ s.inflight, S m.source → ∀ r, m.signal.kind ≠ .success r

/-- Every event but an unlock sent to a node of `S`. -/
def Spares : Event → Prop
  | .lock _ dest unlock => unlock = true → ¬ S dest
  | _ => True

variable {S s₀} {s s' : Network}

theorem Held.add (hH : Held S s₀ s) {exts : ℕ → LockableExt} {inflight : Multiset Message}
    {next : ℕ} {sent delivered : List Message} (hexts : ∀ n, S n → exts n = s₀.exts n)
    (hG : ∀ y, ¬ S y → Guarded S (exts y)) {out : List Message}
    (hin : ∀ m ∈ inflight, m ∈ s.inflight ∨ m ∈ out)
    (hout : ∀ m ∈ out, m.signal.dir = .direct ∧ (S m.dest → m.signal.kind ≠ .lock "unlock") ∧
      (S m.source → ∀ r, m.signal.kind ≠ .success r)) :
    Held S s₀ ⟨exts, inflight, next, sent, delivered⟩ where
  frozen := hexts
  guarded := hG
  direct m hm := (hin m hm).elim (hH.direct m) fun h => (hout m h).1
  no_unlock m hm := (hin m hm).elim (hH.no_unlock m) fun h => (hout m h).2.1
  no_success m hm := (hin m hm).elim (hH.no_success m) fun h => (hout m h).2.2

/-- One event that spares `S` keeps the invariant, when the nodes of `S` are frozen in `s₀`. -/
theorem Held.step (hF : ∀ n, S n → Frozen (s₀.exts n)) (hH : Held S s₀ s) {e : Event}
    (he : Spares S e) (h : s.step e = some s') : Held S s₀ s' := by
  cases e with
  | deliver m =>
    simp only [Network.step] at h
    split_ifs at h with hm
    split at h
    · rename_i ext out ch hp
      cases h
      have hin : ∀ m' ∈ s.inflight.erase m + ↑out, m' ∈ s.inflight ∨ m' ∈ out := fun m' h' =>
        (Multiset.mem_add.1 h').imp Multiset.mem_of_mem_erase Multiset.mem_coe.1
      by_cases hS : S m.dest
      · have hfr := hF _ hS
        rw [← hH.frozen _ hS] at hfr
        obtain ⟨rfl, hout⟩ := hfr.process (hH.direct m hm) (hH.no_unlock m hm hS) hp
        rw [Function.update_eq_self]
        refine hH.add hH.frozen hH.guarded hin fun m' h' => ?_
        obtain ⟨-, hd, r, hr⟩ := hout m' h'
        exact ⟨hd, fun _ h => by simp [hr] at h, fun _ _ h => by simp [hr] at h⟩
      · obtain ⟨hG, hout⟩ := (hH.guarded _ hS).process (hH.direct m hm)
          (fun r hr hS' => hH.no_success m hm hS' r hr) hp
        refine hH.add (fun n hn => ?_) (fun y hy => ?_) hin fun m' h' => ?_
        · rw [Function.update_noteq (by rintro rfl; exact hS hn)]
          exact hH.frozen n hn
        · rcases eq_or_ne y m.dest with rfl | hne
          · rw [Function.update_same]
            exact hG
          · rw [Function.update_noteq hne]
            exact hH.guarded y hy
        · obtain ⟨hsrc, hd, hu⟩ := hout m' h'
          exact ⟨hd, hu, fun hS' => absurd (hsrc ▸ hS') hS⟩
    · cases h
  | link source dest nodeID action =>
    cases h
    exact hH.add hH.frozen hH.guarded (fun m hm => (Multiset.mem_cons.1 hm).symm.imp_right
      fun h => List.mem_singleton.2 h)
      (List.forall_mem_singleton.2 ⟨rfl, fun _ h => by simp [newLinkSignal] at h,
        fun _ _ h => by simp [newLinkSignal] at h⟩)
  | lock source dest unlock =>
    cases h
    refine hH.add hH.frozen hH.guarded (fun m hm => (Multiset.mem_cons.1 hm).symm.imp_right
      fun h => List.mem_singleton.2 h) (List.forall_mem_singleton.2 ⟨rfl, fun hS => ?_,
        fun _ _ h => by simp [newLockSignal] at h⟩)
    cases unlock
    · simp [newLockSignal]
    · exact absurd hS (he rfl)

/-- A run of events that spare `S` keeps the invariant. -/
theorem Held.run (hF : ∀ n, S n → Frozen (s₀.exts n)) (hH : Held S s₀ s) {es : List Event}
    (hes : ∀ e ∈ es, Spares S e) (h : s.run es = some s') : Held S s₀ s' := by
  induction es generalizing s with
  | nil => cases h; exact hH
  | cons e es ih =>
    obtain ⟨s₁, h₁, h₂⟩ := Option.bind_eq_some.1 h
    exact ih (hH.step hF (hes e (List.mem_cons_self _ _)) h₁)
      (fun e he => hes e (List.mem_cons_of_mem _ he)) h₂

end Held

theorem reflTransGen_of_run_deliver {s s' : Network} :
    ∀ {ms : List Message}, s.run (ms.map .deliver) = some s' → Relation.ReflTransGen Delivers s s'
  | [], h => by cases h; exact .refl
  | m :: ms, h => by
    obtain ⟨s₁, h₁, h₂⟩ := Option.bind_eq_some.1 h
    exact .head ⟨m, h₁⟩ (reflTransGen_of_run_deliver h₂)

/-- **A held tree stays held.**  Every node starts unlocked with the requirements `reqs`, a forest
whose nodes `N` holds and of which `root` is a root.  `q` sends `LockSignal("lock")` to `root`
and the messages are delivered until none is left.  From there, every run of events in which no
`LockSignal("unlock")` is sent to a node of the tree leaves every node of the tree with the
extension it had: lock and link requests from any node to any node, unlocks sent to other nodes,
and every message they cause, in any order. -/
theorem held_tree_stable {reqs : ℕ → List ℕ} {root q : ℕ} {N : Finset ℕ}
    (hN : ∀ p c, c ∈ reqs p → p ∈ N ∧ c ∈ N)
    (hacyc : ∀ n, ¬ Relation.TransGen (Requires reqs) n n)
    (hforest : ∀ c p p', c ∈ reqs p → c ∈ reqs p' → p = p')
    (hroot : ∀ p, root ∉ reqs p) (s : Network)
    (hs : Relation.ReflTransGen Delivers
      ((init reqs).inject q root fun id => newLockSignal id "lock") s)
    (h0 : s.inflight = 0) (es : List Event) (s' : Network) (h : s.run es = some s')
    (hes : ∀ x n, Event.lock x n true ∈ es → ¬ Relation.ReflTransGen (Requires reqs) root n) :
    ∀ n, Relation.ReflTransGen (Requires reqs) root n → s'.exts n = s.exts n := by
  have hT := forest_wf hN hacyc hforest hroot
  let T : Tree := ⟨reqs, root, insert root N⟩
  obtain ⟨φ, hI⟩ := (WaveInv.start_lock q hT).delivers lockWave_spec hT hs
  -- every node of the tree is locked, and so holds its requirements locked
  have hlocked : ∀ n, T.Mem n → (s.exts n).state = .locked := fun n hn => by
    obtain ⟨a, ha⟩ := Tree.Mem.requester (T := T) q hn
    exact (hI.after hT h0 hn ha).1
  have hreach : Reachable reqs s :=
    .head ⟨.lock q root false, rfl⟩ (hs.mono fun _ _ ⟨m, hm⟩ => ⟨.deliver m, hm⟩)
  have hF : ∀ n, T.Mem n → Frozen (s.exts n) := fun n hn => by
    refine ⟨hlocked n hn, fun e he => ?_⟩
    have := (hreach.ext_reachable n).inv.subState e he
    rw [hlocked n hn] at this
    simpa [subStates] using this
  -- a node outside the tree requires no node of it
  have hG : ∀ y, ¬ T.Mem y → Guarded T.Mem (s.exts y) := fun y hy e he hS => by
    have hk : e.1 ∈ reqs y := by
      have := List.mem_map_of_mem Prod.fst he
      rwa [show (s.exts y).requirements.entries.map Prod.fst = _ from hI.keys y,
        List.mem_dedup] at this
    rcases hS.cases_tail with hr | ⟨p, hp, hc⟩
    · exact (hroot y (by simpa [hr] using hk)).elim
    · exact absurd (hforest _ _ _ hc hk ▸ hp) hy
  have hH : Held T.Mem s s :=
    ⟨fun _ _ => rfl, hG, by simp [h0], by simp [h0], by simp [h0]⟩
  refine (hH.run hF (fun e he => ?_) h).frozen
  cases e with
  | lock x n unlock =>
    rintro rfl
    exact hes x n he
  | _ => trivial

/-- The lock of `twoLeaves` from `0` completes; then `5` asks `1` and `2` for the lock and asks
`3` to link `9`: the nodes `1`, `2` and `3` keep their extensions. -/
theorem twoLeaves_held_stable :
    ∃ s, Relation.ReflTransGen Delivers
        ((init twoLeaves).inject 0 1 fun id => newLockSignal id "lock") s ∧ s.inflight = 0 ∧
      ∃ s', s.run [.lock 5 1 false, .deliver ⟨5, 1, newLockSignal 7 "lock"⟩, .lock 5 2 false,
          .link 5 3 9 "add"] = some s' ∧
        ∀ n, Relation.ReflTransGen (Requires twoLeaves) 1 n → s'.exts n = s.exts n := by
  obtain ⟨s, s', hs, h0, hs'⟩ : ∃ s s',
      ((init twoLeaves).inject 0 1 fun id => newLockSignal id "lock").run
        ([⟨0, 1, newLockSignal 1 "lock"⟩, ⟨1, 2, newLockSignal 2 "lock"⟩,
          ⟨1, 3, newLockSignal 3 "lock"⟩, ⟨2, 1, newSuccessSignal 4 2⟩,
          ⟨3, 1, newSuccessSignal 5 3⟩, ⟨1, 0, newSuccessSignal 6 1⟩].map .deliver) = some s ∧
      s.inflight = 0 ∧
      s.run [.lock 5 1 false, .deliver ⟨5, 1, newLockSignal 7 "lock"⟩, .lock 5 2 false,
        .link 5 3 9 "add"] = some s' :=
    ⟨_, _, rfl, by decide, rfl⟩
  exact ⟨s, reflTransGen_of_run_deliver hs, h0, s', hs',
    held_tree_stable twoLeaves_held twoLeaves_acyclic twoLeaves_forest twoLeaves_root s
      (reflTransGen_of_run_deliver hs) h0 _ s' hs' fun x n h => by simp at h⟩

end Network

end Graphvent
