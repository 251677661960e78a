import Graphvent.Node.Listeners

/-!
# Buffered channels: `Context.Send`, the listener extension and `WaitForResponse`

Every node has a buffered channel of messages (`MsgChan`), and a listener extension a buffered
channel of signals (`ListenerExt.Chan`).  Both are written to with a `select` whose `default`
case fires when the buffer is full; what that case does is the difference between them.

* `Context.Send(messages)` (`part_007`, `part_008`) goes through the messages in order.  It panics
  on a message to `ZeroID` ("Can't send to null ID"), returns the error of `getNode` when the
  destination is neither in the context's map of nodes nor loadable, and returns
  `SIGNAL_OVERFLOW` when the destination's buffer is full.  `send_queues`: whatever it returns,
  the messages before the one it stopped at are on their destinations' channels, each channel
  getting its own messages after what it held and in the order of the list, and that message's
  own turn gives the error returned; so a failed `Send` has already sent a prefix of its
  messages.  `send_sent_of_room`: when every destination is found and has room for all of its
  messages, `Send` sends them all.
* `ListenerExt.Process` (`part_000`) sends a signal on the listener's channel, and drops it when
  the buffer is full (`LISTENER_OVERFLOW` is only logged).  `process_all`: with no reader, the
  channel keeps the oldest signals and drops the newest.
* `WaitForResponse(listener, timeout, req_id)` (`part_003`) receives from a channel until a
  response to `req_id` comes, and returns it with the signals received before it; a closed
  channel, and the timeout when `timeout > 0`, end it with the signals received so far.

`Listening` puts the last two together: a listener extension whose channel is read by one
`WaitForResponse`, under any interleaving of the signals the node processes, the waiter's
receives and the timeout.  `listening_run`: at every point, what the waiter has received followed
by what the buffer holds is a sublist of the signals offered to the channel, in their order, and
is all of them while they fit in the buffer; the waiter returns only the first response to its
request, with no error, or `LISTENER_TIMEOUT` when the timeout is armed; a listener extension's
channel is never closed, so it never returns `LISTENER_CLOSED`.

`ZeroID`, the `Node` record that holds `MsgChan`, and the `LoadNode` that `getNode` falls back to
are not in the sources: `zeroID` and `loadNode` are parameters, and a node is given by the number
of its channel.  Signals are compared by their `ResponseID`, a natural number as UUIDs are
elsewhere in the model.
-/

namespace Graphvent

/-! ### `Context.Send` -/

/-- What `Context.Send` returns. -/
inductive SendResult
  /-- `nil`: every message is on its destination's channel. -/
  | sent
  /-- The error of `getNode` for the destination (`NodeNotFoundError` or another). -/
  | notFound (err : String)
  /-- `SIGNAL_OVERFLOW: <dest> - <stack>`: the destination's buffer was full. -/
  | overflow (dest : NodeID)
  /-- `panic("Can't send to null ID")`. -/
  | panicked (msg : String)
  deriving DecidableEq

/-- `NodeNotFoundError`. -/
def nodeNotFoundError : String := "Node not found in DB"

/-- The panic of `Send` on a message to `ZeroID`. -/
def nullIDPanic : String := "Can\x27t send to null ID"

section Send

variable {μ : Type} (zeroID : NodeID) (loadNode : NodeID → Except String ℕ) (nodes : NodeMap ℕ)

/-- `ctx.getNode(id)`: the node in the context's map, else the one `LoadNode` returns; a node is
the number of its `MsgChan`. -/
def getNode (id : NodeID) : Except String ℕ :=
  match nodes.entries.lookup id with
  | some c => .ok c
  | none => loadNode id

/-- One turn of the loop of `Send`: the message is on its destination's channel, or the error (or
panic) that ends `Send`.  A message is its `Dest` and the rest of it. -/
def sendMessage (chans : ℕ → Chan (NodeID × μ)) (msg : NodeID × μ) :
    Except SendResult (ℕ → Chan (NodeID × μ)) :=
  if msg.1 = zeroID then .error (.panicked nullIDPanic) else
  match getNode loadNode nodes msg.1 with
  | .error err => .error (.notFound err)
  | .ok c =>
    if h : (chans c).queue.length < (chans c).cap then
      .ok (Function.update chans c ((chans c).push msg h))
    else .error (.overflow msg.1)

/-- `ctx.Send(messages)`, with the channels it leaves. -/
def send : List (NodeID × μ) → (ℕ → Chan (NodeID × μ)) → SendResult × (ℕ → Chan (NodeID × μ))
  | [], chans => (.sent, chans)
  | msg :: msgs, chans =>
    match sendMessage zeroID loadNode nodes chans msg with
    | .ok chans' => send msgs chans'
    | .error r => (r, chans)

/-- The messages of `msgs` that `getNode` sends to channel `c`. -/
def routedTo (c : ℕ) (msgs : List (NodeID × μ)) : List (NodeID × μ) :=
  msgs.filter fun msg => (getNode loadNode nodes msg.1).toOption = some c

@[simp] theorem routedTo_nil (c : ℕ) : routedTo loadNode nodes c ([] : List (NodeID × μ)) = [] :=
  rfl

theorem routedTo_append (c : ℕ) (msgs msgs' : List (NodeID × μ)) :
    routedTo loadNode nodes c (msgs ++ msgs') =
      routedTo loadNode nodes c msgs ++ routedTo loadNode nodes c msgs' :=
  List.filter_append _ _

theorem routedTo_single {c : ℕ} {msg : NodeID × μ} (h : getNode loadNode nodes msg.1 = .ok c) :
    routedTo loadNode nodes c [msg] = [msg] := by
  simp [routedTo, h, Except.toOption]

/-- A turn that sends puts the message at the end of its destination's buffer and changes no
other channel. -/
theorem sendMessage_ok {chans chans' : ℕ → Chan (NodeID × μ)} {msg : NodeID × μ}
    (h : sendMessage zeroID loadNode nodes chans msg = .ok chans') (c : ℕ) :
    (chans' c).cap = (chans c).cap ∧
      (chans' c).queue = (chans c).queue ++ routedTo loadNode nodes c [msg] := by
  unfold sendMessage at h
  split at h
  · cases h
  split at h
  · cases h
  · rename_i c' hc'
    split at h
    · cases h
      rcases eq_or_ne c c' with rfl | hne
      · simp [routedTo_single loadNode nodes hc', Chan.push]
      · simp [routedTo, hc', hne, hne.symm, Except.toOption]
    · cases h

/-- The loop of `Send`, whatever it returns: it has sent a prefix `sent` of the messages, each
channel getting its own messages of `sent` after what it held, in order; it returns `nil` when
that prefix is the whole list, and otherwise the error of the next message's own turn. -/
theorem send_queues (msgs : List (NodeID × μ)) (chans : ℕ → Chan (NodeID × μ)) :
    ∃ sent rest, msgs = sent ++ rest ∧
      (∀ c, ((send zeroID loadNode nodes msgs chans).2 c).cap = (chans c).cap ∧
        ((send zeroID loadNode nodes msgs chans).2 c).queue =
          (chans c).queue ++ routedTo loadNode nodes c sent) ∧
      (rest = [] → (send zeroID loadNode nodes msgs chans).1 = .sent) ∧
      ∀ msg rest', rest = msg :: rest' →
        sendMessage zeroID loadNode nodes (send zeroID loadNode nodes msgs chans).2 msg =
          .error (send zeroID loadNode nodes msgs chans).1 := by
  induction msgs generalizing chans with
  | nil => exact ⟨[], [], rfl, fun c => ⟨rfl, by simp [send]⟩, fun _ => rfl, fun _ _ h => nomatch h⟩
  | cons msg msgs ih =>
    rw [send]
    split
    · rename_i chans' h
      obtain ⟨sent, rest, rfl, hq, hnil, hcons⟩ := ih chans'
      refine ⟨msg :: sent, rest, rfl, fun c => ?_, hnil, hcons⟩
      obtain ⟨hcap, hmsg⟩ := sendMessage_ok zeroID loadNode nodes h c
      rw [(hq c).1, (hq c).2, hcap, hmsg, List.append_assoc, ← routedTo_append]
      exact ⟨rfl, rfl⟩
    · rename_i r h
      refine ⟨[], msg :: msgs, rfl, fun c => ⟨rfl, by simp⟩, fun h => absurd h (List.cons_ne_nil _ _), ?_⟩
      rintro _ _ ⟨⟩
      exact h

/-- When no message goes to `ZeroID`, every destination is found, and every channel has room for
all the messages sent to it, `Send` sends them all. -/
theorem send_sent_of_room (msgs : List (NodeID × μ)) (chans : ℕ → Chan (NodeID × μ))
    (hdest : ∀ msg ∈ msgs, msg.1 ≠ zeroID ∧ ∃ c, getNode loadNode nodes msg.1 = .ok c)
    (hroom : ∀ c, (chans c).queue.length + (routedTo loadNode nodes c msgs).length ≤
      (chans c).cap) :
    (send zeroID loadNode nodes msgs chans).1 = .sent := by
  obtain ⟨sent, rest, rfl, hq, hnil, hcons⟩ := send_queues zeroID loadNode nodes msgs chans
  cases rest with
  | nil => exact hnil rfl
  | cons msg rest =>
    have hstop := hcons msg rest rfl
    obtain ⟨hzero, c, hc⟩ := hdest msg (by simp)
    have hlen := hroom c
    rw [routedTo_append, ← List.singleton_append, routedTo_append,
      routedTo_single loadNode nodes hc] at hlen
    simp only [sendMessage, if_neg hzero, hc, (hq c).1, (hq c).2] at hstop
    split at hstop
    · cases hstop
    · rename_i hfull
      simp only [List.length_append, List.length_singleton] at hlen hfull
      omega

end Send

/-- One message to a node of the context's map, whose channel has room for it. -/
theorem send_oneMessage :
    (send ⟨[]⟩ (fun _ => .error nodeNotFoundError) ⟨[(⟨[0x61]⟩, 0)], by decide⟩
      [(⟨[0x61]⟩, (7 : ℕ))] fun _ => ⟨1, [], Nat.zero_le _⟩).1 = .sent :=
  send_sent_of_room _ _ _ _ _
    (fun msg hm => by rw [List.mem_singleton.1 hm]; exact ⟨by decide, 0, rfl⟩)
    (fun c => by unfold routedTo; simpa using List.length_filter_le _ [((⟨[0x61]⟩ : NodeID), (7 : ℕ))])

/-! ### The listener extension and `WaitForResponse` -/

section Listener

variable {σ : Type}

/-- `ListenerExt`: the buffer size it was made or loaded with, and its channel, which has that
capacity. -/
structure ListenerExt (σ : Type) where
  buffer : ℕ
  chan : Chan σ
  cap_eq : chan.cap = buffer

/-- `NewListenerExt(buffer)`. -/
def newListenerExt (buffer : ℕ) : ListenerExt σ := ⟨buffer, ⟨buffer, [], Nat.zero_le _⟩, rfl⟩

/-- `ext.Process(ctx, node, source, signal)`: sends the signal on the channel, or drops it when the
buffer is full; it returns no messages. -/
def ListenerExt.process (ext : ListenerExt σ) (signal : σ) : ListenerExt σ :=
  if h : ext.chan.queue.length < ext.chan.cap then ⟨ext.buffer, ext.chan.push signal h, ext.cap_eq⟩
  else ext

/-- `<- ext.Chan` on a buffer that holds a signal: the oldest one, and the rest. -/
def ListenerExt.recv (ext : ListenerExt σ) : Option (σ × ListenerExt σ) :=
  match h : ext.chan.queue with
  | [] => none
  | s :: rest => some (s, ⟨ext.buffer, ⟨ext.chan.cap, rest, by
      have := ext.chan.fits
      rw [h, List.length_cons] at this
      omega⟩, ext.cap_eq⟩)

@[simp] theorem ListenerExt.process_buffer (ext : ListenerExt σ) (signal : σ) :
    (ext.process signal).buffer = ext.buffer := by
  unfold ListenerExt.process; split <;> rfl

theorem ListenerExt.process_queue (ext : ListenerExt σ) (signal : σ) :
    (ext.process signal).chan.queue =
      ext.chan.queue ++ if ext.chan.queue.length < ext.buffer then [signal] else [] := by
  unfold ListenerExt.process
  by_cases h : ext.chan.queue.length < ext.chan.cap
  · rw [dif_pos h, if_pos (ext.cap_eq ▸ h)]; rfl
  · rw [dif_neg h, if_neg (ext.cap_eq ▸ h), List.append_nil]

theorem ListenerExt.recv_eq_some {ext ext' : ListenerExt σ} {s : σ}
    (h : ext.recv = some (s, ext')) :
    ext.chan.queue = s :: ext'.chan.queue ∧ ext'.buffer = ext.buffer := by
  unfold ListenerExt.recv at h
  split at h
  · cases h
  · cases h
    exact ⟨by assumption, rfl⟩

/-- With no reader, a listener keeps the oldest signals its buffer has room for and drops the
rest. -/
theorem ListenerExt.process_all (ext : ListenerExt σ) (signals : List σ) :
    (signals.foldl ListenerExt.process ext).buffer = ext.buffer ∧
      (signals.foldl ListenerExt.process ext).chan.queue =
        ext.chan.queue ++ signals.take (ext.buffer - ext.chan.queue.length) := by
  induction signals generalizing ext with
  | nil => simp
  | cons s signals ih =>
    obtain ⟨hbuf, hq⟩ := ih (ext.process s)
    refine ⟨by rw [List.foldl_cons, hbuf, process_buffer], ?_⟩
    rw [List.foldl_cons, hq, process_buffer, process_queue]
    have := ext.cap_eq ▸ ext.chan.fits
    split_ifs with h
    · rw [List.length_append, List.length_singleton, List.append_assoc,
        show ext.buffer - ext.chan.queue.length = ext.buffer - (ext.chan.queue.length + 1) + 1
          by omega, List.take_succ_cons, List.singleton_append]
    · simp [show ext.buffer - ext.chan.queue.length = 0 by omega]

/-- `WaitForResponse(listener, timeout, req_id)` in its loop with the signals it has received
(`signals`), or returned `(resp, signals, err)`. -/
inductive Waiter (σ : Type)
  | waiting (signals : List σ)
  | returned (resp : Option σ) (signals : List σ) (err : Option String)

/-- The errors of `WaitForResponse`. -/
def listenerClosed : String := "LISTENER_CLOSED"

def listenerTimeout : String := "LISTENER_TIMEOUT"

variable (respID : σ → Option ℕ) (reqID : ℕ) (timeout : ℤ)

/-- The receive case of the loop: `none` is the `nil` that a closed channel gives; `respID` is the
`ResponseID()` of a `ResponseSignal`, and `none` for other signals. -/
def Waiter.receive : Waiter σ → Option σ → Waiter σ
  | .waiting signals, none => .returned none signals (some listenerClosed)
  | .waiting signals, some signal =>
    if respID signal = some reqID then .returned (some signal) signals none
    else .waiting (signals ++ [signal])
  | w, _ => w

/-- The timeout case of the loop; with `timeout ≤ 0` the timeout channel is nil and never ready. -/
def Waiter.timedOut : Waiter σ → Waiter σ
  | .waiting signals =>
    if 0 < timeout then .returned none signals (some listenerTimeout) else .waiting signals
  | w => w

/-- What the waiter has taken from the channel. -/
def Waiter.received : Waiter σ → List σ
  | .waiting signals => signals
  | .returned resp signals _ => signals ++ resp.toList

/-- A listener extension and the one `WaitForResponse` that reads its channel. -/
structure Listening (σ : Type) where
  ext : ListenerExt σ
  waiter : Waiter σ

/-- What can happen next. -/
inductive ListenEvent (σ : Type)
  /-- The node runs `ext.Process` on a signal. -/
  | process (signal : σ)
  /-- The waiter's `<- listener` takes the oldest signal of the buffer. -/
  | receive
  /-- The timeout channel is ready. -/
  | timeout

/-- The signal an event offers to the channel. -/
def ListenEvent.offered : ListenEvent σ → Option σ
  | .process signal => some signal
  | _ => none

/-- One event; `none` when it cannot happen (a receive on an empty buffer, or once the waiter has
returned). -/
def Listening.step (l : Listening σ) : ListenEvent σ → Option (Listening σ)
  | .process signal => some ⟨l.ext.process signal, l.waiter⟩
  | .receive =>
    match l.waiter, l.ext.recv with
    | .waiting _, some (s, ext') => some ⟨ext', l.waiter.receive respID reqID (some s)⟩
    | _, _ => none
  | .timeout => some ⟨l.ext, l.waiter.timedOut timeout⟩

/-- A sequence of events. -/
def Listening.run (l : Listening σ) : List (ListenEvent σ) → Option (Listening σ)
  | [] => some l
  | e :: es => (l.step respID reqID timeout e).bind fun l' => l'.run es

/-- What `WaitForResponse` has returned, or collected so far, is right: no signal it collected is
a response to `reqID`, and it returns either a response to `reqID` with no error, or no response
and `LISTENER_TIMEOUT` with the timeout armed. -/
def Waiter.Answers : Waiter σ → Prop
  | .waiting signals => ∀ s ∈ signals, respID s ≠ some reqID
  | .returned resp signals err => (∀ s ∈ signals, respID s ≠ some reqID) ∧
      ((∃ r, resp = some r ∧ respID r = some reqID ∧ err = none) ∨
        (resp = none ∧ 0 < timeout ∧ err = some listenerTimeout))

/-- The invariant of a listener and its waiter, once the signals `offered` have been offered to
the channel (what it held at the start, then what the node processed): no signal is lost from the
buffer, duplicated or reordered, nothing is dropped while the offered signals fit, and the waiter
is right. -/
structure Listening.Inv (offered : List σ) (l : Listening σ) : Prop where
  sublist : List.Sublist (l.waiter.received ++ l.ext.chan.queue) offered
  exact : offered.length ≤ l.ext.buffer → l.waiter.received ++ l.ext.chan.queue = offered
  answers : l.waiter.Answers respID reqID timeout

theorem Waiter.received_receive {signals : List σ} (s : σ) :
    ((Waiter.waiting signals).receive respID reqID (some s)).received = signals ++ [s] := by
  simp only [Waiter.receive]
  split_ifs <;> rfl

theorem Waiter.answers_receive {signals : List σ} (s : σ)
    (h : (Waiter.waiting signals).Answers respID reqID timeout) :
    ((Waiter.waiting signals).receive respID reqID (some s)).Answers respID reqID timeout := by
  simp only [Waiter.receive]
  split_ifs with hs
  · exact ⟨h, .inl ⟨s, rfl, hs, rfl⟩⟩
  · intro s' hs'
    rcases List.mem_append.1 hs' with hs' | hs'
    · exact h s' hs'
    · rw [List.mem_singleton.1 hs']; exact hs

theorem Waiter.timeout_spec (w : Waiter σ) :
    (w.timedOut timeout).received = w.received ∧
      (w.Answers respID reqID timeout → (w.timedOut timeout).Answers respID reqID timeout) := by
  cases w with
  | waiting signals =>
    simp only [Waiter.timedOut]
    split_ifs with h
    · exact ⟨by simp [received], fun ha => ⟨ha, .inr ⟨rfl, h, rfl⟩⟩⟩
    · exact ⟨rfl, id⟩
  | returned => exact ⟨rfl, id⟩

/-- One event keeps the invariant, the offered signals growing by what the event offers. -/
theorem Listening.Inv.step {offered : List σ} {l l' : Listening σ} {e : ListenEvent σ}
    (hI : l.Inv respID reqID timeout offered) (h : l.step respID reqID timeout e = some l') :
    l'.Inv respID reqID timeout (offered ++ e.offered.toList) := by
  cases e with
  | process signal =>
    cases h
    obtain ⟨hsub, hexact, hans⟩ := hI
    have hfits := l.ext.cap_eq ▸ l.ext.chan.fits
    simp only [ListenEvent.offered, Option.toList_some]
    refine ⟨?_, fun hlen => ?_, hans⟩ <;> dsimp only <;> rw [ListenerExt.process_queue]
    · split_ifs
      · rw [← List.append_assoc]; exact hsub.append (List.Sublist.refl _)
      · rw [List.append_nil]; exact hsub.trans (List.sublist_append_left _ _)
    · simp only [List.length_append, List.length_singleton, ListenerExt.process_buffer] at hlen
      have heq := hexact (by omega)
      have : l.ext.chan.queue.length < l.ext.buffer := by
        have := congrArg List.length heq
        rw [List.length_append] at this
        omega
      rw [if_pos this, ← List.append_assoc, heq]
  | receive =>
    obtain ⟨ext, w⟩ := l
    simp only [Listening.step] at h
    split at h
    · rename_i signals s ext' hrecv
      cases h
      obtain ⟨hq, hbuf⟩ := ListenerExt.recv_eq_some hrecv
      obtain ⟨hsub, hexact, hans⟩ := hI
      have hsame : (Waiter.waiting signals).received ++ ext.chan.queue =
          ((Waiter.waiting signals).receive respID reqID (some s)).received ++ ext'.chan.queue := by
        rw [Waiter.received_receive, hq, List.append_assoc, List.singleton_append]; rfl
      simp only [ListenEvent.offered, Option.toList_none, List.append_nil]
      exact ⟨hsame ▸ hsub, fun hlen => hsame ▸ hexact (hbuf ▸ hlen),
        Waiter.answers_receive respID reqID timeout s hans⟩
    · cases h
  | timeout =>
    cases h
    obtain ⟨hsub, hexact, hans⟩ := hI
    obtain ⟨hrec, hans'⟩ := l.waiter.timeout_spec respID reqID timeout
    simp only [ListenEvent.offered, Option.toList_none, List.append_nil]
    exact ⟨hrec ▸ hsub, fun hlen => hrec ▸ hexact hlen, hans' hans⟩

/-- The signals a sequence of events offers to the channel, in order. -/
def offeredBy (events : List (ListenEvent σ)) : List σ := events.filterMap ListenEvent.offered

/-- Every run keeps the invariant. -/
theorem Listening.Inv.run {offered : List σ} {l l' : Listening σ} {events : List (ListenEvent σ)}
    (hI : l.Inv respID reqID timeout offered) (h : l.run respID reqID timeout events = some l') :
    l'.Inv respID reqID timeout (offered ++ offeredBy events) := by
  induction events generalizing offered l with
  | nil => cases h; simpa [offeredBy] using hI
  | cons e events ih =>
    obtain ⟨l₁, h₁, h₂⟩ := Option.bind_eq_some.1 h
    have := ih (hI.step respID reqID timeout h₁) h₂
    cases e <;> simpa [offeredBy, ListenEvent.offered] using this

/-- A listener extension read by one `WaitForResponse` that starts with nothing received, under
any interleaving of processed signals, receives and timeouts: what the waiter has received,
followed by the buffer, is a sublist of the signals the channel held and was offered, in their
order, and all of them while they fit in the buffer; the waiter has collected no response to its
request, and returns either the first one with no error, or `LISTENER_TIMEOUT` with the timeout
armed, never `LISTENER_CLOSED`. -/
theorem listening_run (ext : ListenerExt σ) (events : List (ListenEvent σ)) (l : Listening σ)
    (h : (⟨ext, .waiting []⟩ : Listening σ).run respID reqID timeout events = some l) :
    l.Inv respID reqID timeout (ext.chan.queue ++ offeredBy events) := by
  refine Listening.Inv.run respID reqID timeout ?_ h
  exact ⟨by simp [Waiter.received], fun _ => by simp [Waiter.received], by simp [Waiter.Answers]⟩

/-- A listener with room for one signal, whose waiter waits for the response to request `6`:
the response comes second, finds the buffer full and is dropped, and the waiter receives only the
first signal. -/
theorem listening_dropsResponse :
    ∃ l, (⟨newListenerExt 1, .waiting []⟩ : Listening ℕ).run some 6 0
        [.process 5, .process 6, .receive] = some l ∧
      l.Inv some 6 0 ((newListenerExt 1).chan.queue ++ offeredBy [.process 5, .process 6, .receive]) ∧
      l.waiter.received = [5] ∧ l.ext.chan.queue = [] :=
  ⟨_, rfl, listening_run some 6 0 _ _ _ rfl, rfl, rfl⟩

end Listener

end Graphvent
