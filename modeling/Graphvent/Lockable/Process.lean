import Graphvent.Lockable.Basic

/-!
# The lockable extension: signal handlers

`LockableExt.process` is `(*LockableExt).Process` of `lockable.go`, with the four handlers it
dispatches to (`HandleLinkSignal`, `HandleLockSignal`, `HandleErrorSignal`,
`HandleSuccessSignal`).  Each is a pure function of the extension, the node it belongs to, the
sender and the signal, returning the extension after it, the messages it sends (all from
`node`) and its `Changes`, or `.error` for a Go panic: the `panic` on `"not_locked"` and the
nil pointer dereferences `*ext.Owner`, `*ext.PendingOwner`, `*ext.ReqID` (`deref`).

`uuid.New()` is modelled by a supply of fresh UUIDs: the `k`-th signal a handler creates takes
`fresh + k` (`fanOut` numbers the signals of its loop in order), so a call that sends `n`
messages uses UUIDs below `fresh + n` only.  Go iterates a map in random order; here the loops
run over `ReqMap.entries`, one of those orders.
-/

namespace Graphvent

namespace LockableExt

/-- What a handler returns: the extension after it, the messages it sends and the fields it
changed, or the message of a panic. -/
abbrev Handled := Except String (LockableExt × List Message × Changes)

/-- The loops `for id, info := range(ext.Requirements)` that send `LockSignal(state)` to every
requirement whose `info` passes `p`, setting its sub-state to `sub` and its `MsgID` to the UUID
of that signal.  The other entries are kept. -/
def fanOut (p : ReqInfo → Bool) (sub : ReqState) (state : String) (node : ℕ) :
    ℕ → List (ℕ × ReqInfo) → List (ℕ × ReqInfo) × List Message
  | _, [] => ([], [])
  | fresh, (id, info) :: rest =>
    if p info then
      let r := fanOut p sub state node (fresh + 1) rest
      ((id, ⟨sub, fresh⟩) :: r.1, ⟨node, id, newLockSignal fresh state⟩ :: r.2)
    else
      let r := fanOut p sub state node fresh rest
      ((id, info) :: r.1, r.2)

theorem fanOut_keys (p : ReqInfo → Bool) (sub : ReqState) (state : String) (node : ℕ) :
    ∀ (fresh : ℕ) (l : List (ℕ × ReqInfo)),
      (fanOut p sub state node fresh l).1.map Prod.fst = l.map Prod.fst
  | _, [] => rfl
  | fresh, (id, info) :: rest => by
    unfold fanOut
    split <;> simp [fanOut_keys p sub state node _ rest]

theorem mem_fanOut {p : ReqInfo → Bool} {sub : ReqState} {state : String} {node : ℕ} :
    ∀ {fresh : ℕ} {l : List (ℕ × ReqInfo)} {e : ℕ × ReqInfo},
      e ∈ (fanOut p sub state node fresh l).1 →
        ∃ info, (e.1, info) ∈ l ∧ (p info = true ∧ e.2.state = sub ∨ p info = false ∧ e.2 = info)
  | _, [], _, he => by simp [fanOut] at he
  | fresh, (id, info) :: rest, e, he => by
    unfold fanOut at he
    split at he <;> rename_i hp <;> simp only [List.mem_cons] at he
    · rcases he with rfl | he
      · exact ⟨info, by simp, .inl ⟨hp, rfl⟩⟩
      · obtain ⟨i, hi, h⟩ := mem_fanOut he
        exact ⟨i, List.mem_cons_of_mem _ hi, h⟩
    · rcases he with rfl | he
      · exact ⟨info, by simp, .inr ⟨by simpa using hp, rfl⟩⟩
      · obtain ⟨i, hi, h⟩ := mem_fanOut he
        exact ⟨i, List.mem_cons_of_mem _ hi, h⟩

theorem fanOut_ne_nil {p : ReqInfo → Bool} {sub : ReqState} {state : String} {node : ℕ}
    {fresh : ℕ} {l : List (ℕ × ReqInfo)} (h : l ≠ []) :
    (fanOut p sub state node fresh l).1 ≠ [] := by
  intro h'
  have := fanOut_keys p sub state node fresh l
  rw [h'] at this
  exact h (List.map_eq_nil_iff.1 this.symm)

/-- `fanOut` on the entries of a map. -/
def fanOutMap (m : ReqMap) (p : ReqInfo → Bool) (sub : ReqState) (state : String)
    (node : ℕ) (fresh : ℕ) : ReqMap × List Message :=
  let r := fanOut p sub state node fresh m.entries
  (⟨r.1, by rw [fanOut_keys]; exact m.nodup⟩, r.2)

/-- All requirements are in sub-state `s` (`locked == reqs` after counting them). -/
def allIn (m : ReqMap) (s : ReqState) : Bool :=
  m.entries.countP (fun e => e.2.state = s) = m.entries.length

@[simp] theorem allIn_iff {m : ReqMap} {s : ReqState} :
    allIn m s = true ↔ ∀ e ∈ m.entries, e.2.state = s := by
  simp [allIn, List.countP_eq_length]

/-- The panic of `HandleErrorSignal` on `"not_locked"`. -/
def notLockedPanic : String :=
  "RECEIVED not_locked, meaning a node thought it held a lock it didn\x27t"

/-- `HandleErrorSignal`.  Only `"not_unlocked"` and `"not_locked"` matter: the first aborts a
lock in progress (the sender's sub-state becomes `Unlocked`, every `Locked` requirement is sent
an unlock), the second panics. -/
def handleErrorSignal (ext : LockableExt) (node : ℕ) (fresh : ℕ) (source : ℕ)
    (error : String) : Handled :=
  match error with
  | "not_unlocked" =>
    if ext.state = .locking then
      let reqs := ext.requirements.set source
        { ext.requirements.get source with state := .unlocked }
      let r := fanOutMap reqs (fun info => info.state = .locked) .unlocking "unlock" node fresh
      .ok ({ ext with state := .abortingLock, requirements := r.1 }, r.2, ["requirements"])
    else .ok (ext, [], ["requirements"])
  | "not_locked" => .error notLockedPanic
  | _ => .ok (ext, [], [])

/-- `HandleLinkSignal`: in state `Unlocked`, add or remove the requirement `nodeID`; every
outcome is answered to the sender. -/
def handleLinkSignal (ext : LockableExt) (node : ℕ) (fresh : ℕ) (source : ℕ)
    (sigID : ℕ) (nodeID : ℕ) (action : String) : Handled :=
  if ext.state = .unlocked then
    match action with
    | "add" =>
      if nodeID ∈ ext.requirements.keys then
        .ok (ext, [⟨node, source, newErrorSignal fresh sigID "already_requirement"⟩], [])
      else
        .ok ({ ext with requirements := ext.requirements.set nodeID .zero },
          [⟨node, source, newSuccessSignal fresh sigID⟩], ["requirement_added"])
    | "remove" =>
      if nodeID ∈ ext.requirements.keys then
        .ok ({ ext with requirements := ext.requirements.erase nodeID },
          [⟨node, source, newSuccessSignal fresh sigID⟩], ["requirement_removed"])
      else
        .ok (ext, [⟨node, source, newErrorSignal fresh sigID "can\x27t link: not_requirement"⟩],
          [])
    | _ => .ok (ext, [⟨node, source, newErrorSignal fresh sigID "unknown_action"⟩], [])
  else .ok (ext, [⟨node, source, newErrorSignal fresh sigID "not_unlocked"⟩], [])

/-- `HandleSuccessSignal`: a reply from the requirement `source` to the request `reqID`.  It
counts only if `source` is a requirement whose `MsgID` is `reqID`; it then completes the
requirement's transition and, once every requirement has, the lockable's. -/
def handleSuccessSignal (ext : LockableExt) (node : ℕ) (fresh : ℕ) (source : ℕ)
    (reqID : ℕ) : Handled :=
  if source = node then .ok (ext, [], []) else
  match ext.requirements.find? source with
  | none => .ok (ext, [], [])
  | some info =>
    if info.msgID ≠ reqID then .ok (ext, [], [])
    else if info.state = .locking then
      if ext.state = .locking then
        let reqs := ext.requirements.set source ⟨.locked, 0⟩
        if allIn reqs .locked then do
          let owner ← deref ext.pendingOwner
          .ok ({ ext with state := .locked, owner := ext.pendingOwner, requirements := reqs },
            [⟨node, owner, newSuccessSignal fresh ext.pendingID⟩], ["locked"])
        else .ok ({ ext with requirements := reqs }, [], ["partial_lock"])
      else if ext.state = .abortingLock then
        .ok ({ ext with requirements := ext.requirements.set source ⟨.unlocking, fresh⟩ },
          [⟨node, source, newLockSignal fresh "unlock"⟩], [])
      else .ok (ext, [], [])
    else if info.state = .unlocking then
      let reqs := ext.requirements.set source ⟨.unlocked, 0⟩
      if allIn reqs .unlocked then
        if ext.state = .unlocking then do
          let previousOwner ← deref ext.owner
          .ok ({ ext with
                  state := .unlocked, owner := ext.pendingOwner, reqID := none,
                  requirements := reqs },
            [⟨node, previousOwner, newSuccessSignal fresh ext.pendingID⟩], ["unlocked"])
        else if ext.state = .abortingLock then do
          let id ← deref ext.reqID
          let pendingOwner ← deref ext.pendingOwner
          .ok ({ ext with state := .unlocked, pendingOwner := ext.owner, requirements := reqs },
            [⟨node, pendingOwner, newErrorSignal fresh id "not_unlocked"⟩], ["lock_aborted"])
        else .ok ({ ext with state := .unlocked, requirements := reqs }, [], [])
      else .ok ({ ext with requirements := reqs }, [], ["partial_unlock"])
    else .ok (ext, [], [])

/-- `HandleLockSignal`: `"lock"` and `"unlock"` requests.  A lockable without requirements
changes state at once; one with requirements fans the request out and waits for the replies. -/
def handleLockSignal (ext : LockableExt) (node : ℕ) (fresh : ℕ) (source : ℕ)
    (sigID : ℕ) (state : String) : Handled :=
  match state with
  | "lock" =>
    if ext.state = .unlocked then
      if ext.requirements.entries.length = 0 then
        .ok ({ ext with state := .locked, pendingOwner := some source, owner := some source },
          [⟨node, source, newSuccessSignal fresh sigID⟩], ["locked"])
      else
        let r := fanOutMap ext.requirements (fun _ => true) .locking "lock" node fresh
        .ok ({ ext with
                state := .locking, reqID := some sigID, pendingOwner := some source,
                pendingID := sigID, requirements := r.1 }, r.2, ["locking"])
    else .ok (ext, [⟨node, source, newErrorSignal fresh sigID "not_unlocked"⟩], [])
  | "unlock" =>
    if ext.state = .locked then
      if ext.requirements.entries.length = 0 then
        .ok ({ ext with state := .unlocked, pendingOwner := none, owner := none },
          [⟨node, source, newSuccessSignal fresh sigID⟩], ["unlocked"])
      else do
        let owner ← deref ext.owner
        if source = owner then
          let r := fanOutMap ext.requirements (fun _ => true) .unlocking "unlock" node fresh
          .ok ({ ext with
                  state := .unlocking, reqID := some sigID, pendingOwner := none,
                  pendingID := sigID, requirements := r.1 }, r.2, ["unlocking"])
        else .ok (ext, [], [])
    else .ok (ext, [⟨node, source, newErrorSignal fresh sigID "not_locked"⟩], [])
  | _ => .ok (ext, [], [])

/-- `Process`: `Up` signals go on to the owner (unless it is the node itself), `Down` signals
to every requirement, and `Direct` link, lock, error and success signals to their handlers. -/
def process (ext : LockableExt) (node : ℕ) (fresh : ℕ) (source : ℕ)
    (signal : Signal) : Handled :=
  match signal.dir with
  | .up =>
    match ext.owner with
    | some owner => if owner ≠ node then .ok (ext, [⟨node, owner, signal⟩], []) else .ok (ext, [], [])
    | none => .ok (ext, [], [])
  | .down => .ok (ext, ext.requirements.keys.map fun id => ⟨node, id, signal⟩, [])
  | .direct =>
    match signal.kind with
    | .link nodeID action => ext.handleLinkSignal node fresh source signal.id nodeID action
    | .lock state => ext.handleLockSignal node fresh source signal.id state
    | .error _ error => ext.handleErrorSignal node fresh source error
    | .success reqID => ext.handleSuccessSignal node fresh source reqID
    | .other _ => .ok (ext, [], [])

@[simp] theorem process_lock {ext : LockableExt} {node : ℕ} {fresh : ℕ} {source : ℕ}
    {id : ℕ} {state : String} :
    ext.process node fresh source (newLockSignal id state) =
      ext.handleLockSignal node fresh source id state := rfl

@[simp] theorem process_success {ext : LockableExt} {node : ℕ} {fresh : ℕ}
    {source : ℕ} {id reqID : ℕ} :
    ext.process node fresh source (newSuccessSignal id reqID) =
      ext.handleSuccessSignal node fresh source reqID := rfl

/-- A reply from a node that is not a requirement is ignored. -/
theorem handleSuccessSignal_of_find?_eq_none {ext : LockableExt} {node fresh source reqID : ℕ}
    (h : ext.requirements.find? source = none) :
    ext.handleSuccessSignal node fresh source reqID = .ok (ext, [], []) := by
  simp [handleSuccessSignal, h]

theorem process_down {ext : LockableExt} {node : ℕ} {fresh : ℕ} {source : ℕ}
    {signal : Signal} (h : signal.dir = .down) :
    ext.process node fresh source signal =
      .ok (ext, ext.requirements.keys.map fun id => ⟨node, id, signal⟩, []) := by
  simp [process, h]

theorem process_up {ext : LockableExt} {node : ℕ} {fresh : ℕ} {source : ℕ}
    {signal : Signal} {owner : ℕ} (h : signal.dir = .up) (ho : ext.owner = some owner)
    (hne : owner ≠ node) :
    ext.process node fresh source signal = .ok (ext, [⟨node, owner, signal⟩], []) := by
  simp [process, h, ho, hne]

end LockableExt

end Graphvent
