import Graphvent.Lockable.Wave
import Mathlib.Algebra.Order.BigOperators.Group.Finset

/-!
# A wave over a requirement tree

The invariant `WaveInv` of a lock or unlock wave over a requirement tree, and what follows from
it:

* `WaveInv.start`: it holds once the request is sent to the root of a tree whose nodes all
  stand as the wave expects;
* `WaveInv.step`: delivering any message in flight is a step (no handler panics), keeps the
  invariant and moves the phases on (`rank` grows);
* `WaveInv.quiescent_reachable`: so some order of deliveries empties the network;
* `WaveInv.schedule_bounded`: and every order does: no sequence of deliveries is longer than
  `4 * |T.nodes| - rank`, and none stops with a message in flight (`lock_unlock_schedules_end`
  for a lock and then an unlock of a tree of unlocked nodes);
* `WaveInv.all_done`: when nothing is in flight, every node of the tree has answered its
  requester, and the requester of the root has received exactly one answer.
-/

namespace Graphvent

namespace Network

open LockableExt

/-- A requirement tree: every node's requirements, the root, and a finite set of nodes that
holds the tree. -/
structure Tree where
  reqs : ℕ → List ℕ
  root : ℕ
  nodes : Finset ℕ

namespace Tree

variable (T : Tree)

/-- `n` is the root or one of its transitive requirements. -/
def Mem (n : ℕ) : Prop := Relation.ReflTransGen (Requires T.reqs) T.root n

/-- `a` is the node whose request reaches `n`: `q` for the root, the parent for the others. -/
def Requester (q n a : ℕ) : Prop := (n = T.root ∧ a = q) ∨ (T.Mem a ∧ n ∈ T.reqs a)

/-- The requirement graph is a forest, `root` is the root of its tree and `nodes` holds the
tree. -/
structure WF : Prop where
  nodes : ∀ n, T.Mem n → n ∈ T.nodes
  acyclic : ∀ n, ¬ Relation.TransGen (Requires T.reqs) n n
  parent_unique : ∀ {c p p'}, c ∈ T.reqs p → c ∈ T.reqs p' → p = p'
  root_top : ∀ p, T.root ∉ T.reqs p

variable {T}

theorem Mem.root : T.Mem T.root := .refl

theorem Mem.child {p c : ℕ} (h : T.Mem p) (hc : c ∈ T.reqs p) : T.Mem c := h.tail hc

theorem Mem.requester {n : ℕ} (q : ℕ) (h : T.Mem n) : ∃ a, T.Requester q n a := by
  rcases h.cases_tail with rfl | ⟨p, hp, hc⟩
  · exact ⟨q, .inl ⟨rfl, rfl⟩⟩
  · exact ⟨p, .inr ⟨hp, hc⟩⟩

theorem requester_child {p c : ℕ} (q : ℕ) (hp : T.Mem p) (hc : c ∈ T.reqs p) :
    T.Requester q c p :=
  .inr ⟨hp, hc⟩

namespace WF

variable (hT : T.WF)
include hT

theorem ne_of_mem {p c : ℕ} (hc : c ∈ T.reqs p) : c ≠ p := by
  rintro rfl
  exact hT.acyclic c (.single hc)

theorem not_mem_of_mem {p c : ℕ} (hc : c ∈ T.reqs p) : p ∉ T.reqs c :=
  fun h => hT.acyclic p (.tail (.single hc) h)

theorem ne_root {p c : ℕ} (hc : c ∈ T.reqs p) : c ≠ T.root := by
  rintro rfl
  exact hT.root_top p hc

theorem requester_unique {q n a a' : ℕ} (h : T.Requester q n a) (h' : T.Requester q n a') :
    a = a' := by
  rcases h with ⟨rfl, rfl⟩ | ⟨-, h⟩ <;> rcases h' with ⟨h₁, rfl⟩ | ⟨-, h'⟩
  · rfl
  · exact absurd h' (hT.root_top _)
  · exact absurd (h₁ ▸ h) (hT.root_top _)
  · exact hT.parent_unique h h'

end WF

end Tree

/-! ### Phases -/

namespace Phase

/-- The phases of a node serving the request `x` of `a`: requested, waiting or replied. -/
def Serving (a x : ℕ) : Phase → Prop
  | .requested a' x' | .waiting a' x' | .replied a' x' _ => a' = a ∧ x' = x
  | _ => False

/-- How far a phase has got. -/
def rank : Phase → ℕ
  | .idle => 0
  | .requested .. => 1
  | .waiting .. => 2
  | .replied .. => 3
  | .done _ => 4

theorem Serving.unique {ph : Phase} {a a' x x' : ℕ} (h : ph.Serving a x) (h' : ph.Serving a' x') :
    a = a' ∧ x = x' := by
  cases ph <;> simp only [Serving] at h h' <;> exact ⟨h.1.symm.trans h'.1, h.2.symm.trans h'.2⟩

theorem Serving.ne_done {ph : Phase} {a x b : ℕ} (h : ph.Serving a x) : ph ≠ .done b := by
  rintro rfl
  exact h

theorem rank_le (ph : Phase) : ph.rank ≤ 4 := by
  cases ph <;> simp [rank]

end Phase

namespace Wave

variable (W : Wave)

/-- The extension of a node in a phase, requested by `a`. -/
def NodeOK (a : ℕ) : Phase → LockableExt → Prop
  | .idle, ext => W.Before a ext
  | .requested a' _, ext => a' = a ∧ W.Before a ext
  | .waiting a' x, ext => a' = a ∧ W.Waiting a x ext
  | .replied a' _ _, ext => a' = a ∧ W.After a ext
  | .done a', ext => a' = a ∧ W.After a ext

/-- The phase of a requirement of `p` and its sub-state `info` in `p`, by the phase of `p`: the
requirements of a waiting node are served or done, those of a node that has answered are done,
and the others have not been reached. -/
def ChildOK (p : ℕ) : Phase → Phase → ReqInfo → Prop
  | .waiting _ _, ph, info => (info.state = W.subWait ∧ ph.Serving p info.msgID) ∨
      (info.state = W.subDone ∧ ph = .done p)
  | .replied .., ph, _ => ph = .done p
  | .done _, ph, _ => ph = .done p
  | _, ph, _ => ph = .idle

variable {W}

theorem ChildOK.of_serving {p a x : ℕ} {ph ph' : Phase} {info : ReqInfo}
    (h : W.ChildOK p ph ph' info) (hs : ph'.Serving a x) :
    (∃ a' x', ph = .waiting a' x') ∧ info.state = W.subWait ∧ info.msgID = x := by
  cases ph with
  | waiting a' x' =>
    rcases h with ⟨hst, hs'⟩ | ⟨-, rfl⟩
    · exact ⟨⟨a', x', rfl⟩, hst, (hs'.unique hs).2⟩
    · exact absurd rfl hs.ne_done
  | idle | requested | replied | done =>
    simp only [ChildOK] at h
    subst h
    exact (hs : False).elim

theorem NodeOK.eq_of_serving {a₀ a x : ℕ} {ph : Phase} {ext : LockableExt}
    (h : W.NodeOK a₀ ph ext) (hs : ph.Serving a x) : a = a₀ := by
  cases ph <;> simp only [Phase.Serving, NodeOK] at h hs <;> exact hs.1 ▸ h.1

end Wave

/-! ### The invariant -/

section Invariant

variable (W : Wave) (T : Tree) (q : ℕ)

/-- What the phases say of a node of the tree and of its requirements. -/
structure NodeInv (φ : ℕ → Phase) (s : Network) (n : ℕ) : Prop where
  ok : ∀ a, T.Requester q n a → W.NodeOK a (φ n) (s.exts n)
  edge : ∀ c ∈ T.reqs n, W.ChildOK n (φ n) (φ c) ((s.exts n).requirements.get c)
  pending : ∀ a x, φ n = .waiting a x → ∃ c ∈ T.reqs n, φ c ≠ .done n

/-- The invariant of a wave over the tree `T`, requested by `q` with the request `xr`: the
phases `φ` describe the network `s`. -/
structure WaveInv (xr : ℕ) (φ : ℕ → Phase) (s : Network) : Prop where
  keys : ∀ n, (s.exts n).requirements.keys = (T.reqs n).dedup
  outside : ∀ n, ¬ T.Mem n → φ n = .idle
  root_active : φ T.root ≠ .idle
  node : ∀ n, T.Mem n → NodeInv W T q φ s n
  inflight : s.inflight = ∑ n ∈ T.nodes, W.msgs n (φ n)
  xr_lt : xr < s.next
  ids : ∀ n x, (φ n).id? = some x → x < s.next ∧ (x = xr ↔ n = T.root)
  delivered_lt : ∀ m ∈ s.delivered, ∀ r, m.signal.kind = .success r → r < s.next
  received : s.successesReceived q xr = if φ T.root = .done q then 1 else 0

/-- The sum of the ranks of the phases of the tree. -/
def rank (φ : ℕ → Phase) : ℕ := ∑ n ∈ T.nodes, (φ n).rank

variable {W T q} {xr : ℕ} {φ φ' : ℕ → Phase} {s s' : Network}

/-! #### Frame lemmas -/

theorem NodeInv.congr {n : ℕ} (h : NodeInv W T q φ s n) (hn : φ' n = φ n)
    (hc : ∀ c ∈ T.reqs n, φ' c = φ c) (he : s'.exts n = s.exts n) : NodeInv W T q φ' s' n where
  ok a ha := by rw [hn, he]; exact h.ok a ha
  edge c hc' := by rw [hn, he, hc c hc']; exact h.edge c hc'
  pending a x hw := by
    obtain ⟨c, hc', hne⟩ := h.pending a x (hn ▸ hw)
    exact ⟨c, hc', hc c hc' ▸ hne⟩

theorem NodeInv.child_serving {k n x : ℕ} (h : NodeInv W T q φ s k) (hn : n ∈ T.reqs k)
    (hk : φ' k = φ k) (hc : ∀ c ∈ T.reqs k, c ≠ n → φ' c = φ c) (he : s'.exts k = s.exts k)
    (hs : (φ n).Serving k x) (hs' : (φ' n).Serving k x) : NodeInv W T q φ' s' k where
  ok a ha := by rw [hk, he]; exact h.ok a ha
  edge c hc' := by
    rw [hk, he]
    by_cases hcn : c = n
    · subst hcn
      obtain ⟨⟨a', x', hw⟩, hst, hid⟩ := (h.edge c hc').of_serving hs
      rw [hw]
      exact .inl ⟨hst, hid ▸ hs'⟩
    · rw [hc c hc' hcn]
      exact h.edge c hc'
  pending a x hw := by
    obtain ⟨c, hc', hne⟩ := h.pending a x (hk ▸ hw)
    by_cases hcn : c = n
    · exact ⟨c, hc', hcn ▸ hs'.ne_done⟩
    · exact ⟨c, hc', hc c hc' hcn ▸ hne⟩

theorem inflight_update {N S : Finset ℕ} (hS : S ⊆ N) {g g' : ℕ → Multiset Message}
    {m : Message} {out : List Message} (hg : ∀ k ∈ N, k ∉ S → g' k = g k)
    (hm : ∑ k ∈ S, g k = {m}) (hout : ∑ k ∈ S, g' k = ↑out) :
    (∑ k ∈ N, g k).erase m + ↑out = ∑ k ∈ N, g' k := by
  rw [← Finset.sum_sdiff hS, hm, ← Finset.sum_sdiff hS (f := g'), hout,
    Finset.sum_congr rfl fun k hk => hg k (Finset.mem_sdiff.1 hk).1 (Finset.mem_sdiff.1 hk).2,
    add_comm _ ({m} : Multiset Message), Multiset.singleton_add, Multiset.erase_cons_head]

theorem NodeInv.of_serving {k n : ℕ} (h : NodeInv W T q φ s k) (hk : φ' k = φ k)
    (hc : ∀ c ∈ T.reqs k, c ≠ n → φ' c = φ c) (he : s'.exts k = s.exts k)
    (hs : n ∈ T.reqs k → ∃ x, (φ n).Serving k x ∧ (φ' n).Serving k x) :
    NodeInv W T q φ' s' k := by
  by_cases hn : n ∈ T.reqs k
  · obtain ⟨x, hs, hs'⟩ := hs hn
    exact h.child_serving hn hk hc he hs hs'
  · exact h.congr hk (fun c hc' => hc c hc' fun hcn => hn (hcn ▸ hc')) he

theorem NodeInv.done_of_replied {n a x y : ℕ} (h : NodeInv W T q φ s n)
    (hφ : φ n = .replied a x y) (hn : φ' n = .done a) (hc : ∀ c ∈ T.reqs n, φ' c = φ c)
    (he : s'.exts n = s.exts n) : NodeInv W T q φ' s' n where
  ok b hb := by simpa only [hn, he, hφ, Wave.NodeOK] using h.ok b hb
  edge c hc' := by simpa only [hn, he, hc c hc', hφ, Wave.ChildOK] using h.edge c hc'
  pending _ _ hw := by simp [hn] at hw

/-! #### One delivery -/

/-- The network after `m` is delivered and processed into the extension `ext` and the messages
`out`, as `step` computes it. -/
@[simps]
def afterDelivery (s : Network) (m : Message) (ext : LockableExt) (out : List Message) : Network :=
  ⟨Function.update s.exts m.dest ext, s.inflight.erase m + ↑out, s.next + out.length,
    s.sent ++ out, s.delivered ++ [m]⟩

theorem successesReceived_afterDelivery (s : Network) (m : Message) (ext : LockableExt)
    (out : List Message) (n id : ℕ) :
    (s.afterDelivery m ext out).successesReceived n id =
      s.successesReceived n id + if m.dest = n ∧ m.signal.kind = .success id then 1 else 0 := by
  simp only [successesReceived, afterDelivery_delivered, List.filter_append, List.length_append]
  split <;> simp [*]

theorem WaveInv.mem_inflight (hT : T.WF) (hI : WaveInv W T q xr φ s) {n : ℕ} {m : Message}
    (hn : T.Mem n) (hm : m ∈ W.msgs n (φ n)) : m ∈ s.inflight :=
  hI.inflight ▸ Multiset.mem_sum.2 ⟨n, hT.nodes n hn, hm⟩

theorem WaveInv.deliver (hT : T.WF) (hI : WaveInv W T q xr φ s) {m : Message}
    {ext : LockableExt} {out : List Message} (S : Finset ℕ) (hS : ∀ k ∈ S, T.Mem k)
    (hφ : ∀ k, k ∉ S → φ' k = φ k)
    (hkeys : ext.requirements.keys = (s.exts m.dest).requirements.keys)
    (hroot : φ' T.root ≠ .idle)
    (hnode : ∀ k, T.Mem k → NodeInv W T q φ' (s.afterDelivery m ext out) k)
    (hm : ∑ k ∈ S, W.msgs k (φ k) = {m}) (hout : ∑ k ∈ S, W.msgs k (φ' k) = ↑out)
    (hids : ∀ k ∈ S, ∀ x, (φ' k).id? = some x →
      (φ k).id? = some x ∨ s.next ≤ x ∧ x < s.next + out.length ∧ k ≠ T.root)
    (hmsg : ∀ r, m.signal.kind = .success r → r < s.next)
    (hrecv : (if φ' T.root = .done q then 1 else 0) =
      (if φ T.root = .done q then 1 else 0) +
        if m.dest = q ∧ m.signal.kind = .success xr then 1 else 0) :
    WaveInv W T q xr φ' (s.afterDelivery m ext out) where
  keys k := by
    by_cases hk : k = m.dest
    · subst hk
      simp [hkeys, hI.keys]
    · simp [Function.update_noteq hk, hI.keys]
  outside k hk := (hφ k fun hkS => hk (hS k hkS)).trans (hI.outside k hk)
  root_active := hroot
  node := hnode
  inflight := by
    rw [afterDelivery_inflight, hI.inflight]
    exact inflight_update (fun k hk => hT.nodes k (hS k hk)) (fun k _ hk => by rw [hφ k hk]) hm
      hout
  xr_lt := by
    have := hI.xr_lt
    simp only [afterDelivery_next]
    omega
  ids k x hx := by
    have hxr := hI.xr_lt
    simp only [afterDelivery_next]
    by_cases hk : k ∈ S
    · rcases hids k hk x hx with h | ⟨h₁, h₂, h₃⟩
      · have := hI.ids k x h
        exact ⟨by omega, this.2⟩
      · exact ⟨h₂, by constructor <;> intro h <;> [omega; exact absurd h h₃]⟩
    · have := hI.ids k x (hφ k hk ▸ hx)
      exact ⟨by omega, this.2⟩
  delivered_lt m' hm' r hr := by
    simp only [afterDelivery_delivered, List.mem_append, List.mem_singleton,
      afterDelivery_next] at hm' ⊢
    rcases hm' with hm' | rfl
    · have := hI.delivered_lt m' hm' r hr
      omega
    · have := hmsg r hr
      omega
  received := by rw [successesReceived_afterDelivery, hI.received, hrecv]

theorem WaveInv.requester_of_serving (hI : WaveInv W T q xr φ s) {n a x : ℕ} (hn : T.Mem n)
    (hs : (φ n).Serving a x) : T.Requester q n a := by
  obtain ⟨a₀, ha₀⟩ := hn.requester q
  exact ((hI.node n hn).ok a₀ ha₀).eq_of_serving hs ▸ ha₀

theorem rank_lt (hT : T.WF) {n : ℕ} (hn : T.Mem n) (hle : ∀ k, (φ k).rank ≤ (φ' k).rank)
    (hlt : (φ n).rank < (φ' n).rank) : rank T φ < rank T φ' :=
  Finset.sum_lt_sum (fun k _ => hle k) ⟨n, hT.nodes n hn, hlt⟩

theorem rank_le_update {n : ℕ} {ph : Phase} (h : (φ n).rank ≤ ph.rank) :
    rank T φ ≤ rank T (Function.update φ n ph) :=
  Finset.sum_le_sum fun k _ => by rcases eq_or_ne k n with rfl | hk <;> simp [*]

theorem rank_lt_update (hT : T.WF) {n : ℕ} (hn : T.Mem n) {ph : Phase}
    (h : (φ n).rank < ph.rank) : rank T φ < rank T (Function.update φ n ph) :=
  rank_lt hT hn (fun k => by rcases eq_or_ne k n with rfl | hk <;> simp [*, h.le]) (by simpa)

theorem update_ne_idle {n k : ℕ} {ph : Phase} (h : φ k ≠ .idle) (hph : ph ≠ .idle) :
    Function.update φ n ph k ≠ .idle := by
  by_cases hk : k = n
  · rwa [hk, Function.update_same]
  · rwa [Function.update_noteq hk]

end Invariant

/-! ### The four kinds of delivery -/

section Steps

variable {W : Wave} {T : Tree} {q xr : ℕ} {φ : ℕ → Phase} {s : Network}
variable (hW : W.Spec) (hT : T.WF) (hI : WaveInv W T q xr φ s)
include hW hT hI

/-- **A request reaches a node without requirements**, which answers at once. -/
theorem WaveInv.step_leaf {n a x : ℕ} (hn : T.Mem n) (hφ : φ n = .requested a x)
    (hl : T.reqs n = []) :
    ∃ s' φ', s.step (.deliver ⟨a, n, newLockSignal x W.state⟩) = some s' ∧
      WaveInv W T q xr φ' s' ∧ rank T φ < rank T φ' := by
  have ha := hI.requester_of_serving hn (hφ ▸ ⟨rfl, rfl⟩ : (φ n).Serving a x)
  have hb : W.Before a (s.exts n) := by
    have := (hI.node n hn).ok a ha
    rw [hφ] at this
    exact this.2
  have he : (s.exts n).requirements.entries = [] := by
    simpa [ReqMap.keys, hl] using hI.keys n
  obtain ⟨ext, ch, hp, hA, hreq⟩ := hW.leaf (n := n) (x := x) s.next hb he
  have hm := hI.mem_inflight hT hn (m := ⟨a, n, newLockSignal x W.state⟩) (by simp [hφ, Wave.msgs])
  set φ' := Function.update φ n (.replied a x s.next) with hφ'
  have hφn : φ' n = .replied a x s.next := Function.update_same _ _ _
  have hφk : ∀ k, k ≠ n → φ' k = φ k := fun k hk => Function.update_noteq hk _ _
  refine ⟨s.afterDelivery _ ext _, φ', step_deliver hm hp, ?_,
    rank_lt_update hT hn (by simp [hφ, Phase.rank])⟩
  refine hI.deliver hT {n} (by simpa using hn) (fun k hk => hφk k (by simpa using hk))
    (by rw [hreq]) (update_ne_idle hI.root_active (by simp)) (fun k hk => ?_)
    (by simp [hφ, Wave.msgs]) (by simp [hφn, Wave.msgs]) (fun k hk x' hx => ?_)
    (by simp [newLockSignal]) ?_
  · by_cases hkn : k = n
    · subst hkn
      refine ⟨fun a' ha' => ?_, by simp [hl], by simp [hφn]⟩
      rw [hT.requester_unique ha' ha, hφn]
      simpa [Wave.NodeOK] using hA
    · refine (hI.node k hk).of_serving (hφk k hkn) (fun c _ hc => hφk c hc)
        (Function.update_noteq hkn _ _) fun hnk => ⟨x, ?_, ?_⟩
      all_goals
        rw [hT.requester_unique (T.requester_child q hk hnk) ha]
        simp [hφn, hφ, Phase.Serving]
  · simp only [Finset.mem_singleton] at hk
    subst hk
    simp only [hφn, Phase.id?, Option.some.injEq] at hx
    simp [hφ, Phase.id?, hx]
  · by_cases hr : T.root = n
    · simp [hr, hφn, hφ, newLockSignal]
    · simp [hφk _ hr, newLockSignal]

/-- **A request reaches a node with requirements**, which sends it on to each of them. -/
theorem WaveInv.step_inner {n a x : ℕ} (hn : T.Mem n) (hφ : φ n = .requested a x)
    (hl : T.reqs n ≠ []) :
    ∃ s' φ', s.step (.deliver ⟨a, n, newLockSignal x W.state⟩) = some s' ∧
      WaveInv W T q xr φ' s' ∧ rank T φ < rank T φ' := by
  have ha := hI.requester_of_serving hn (hφ ▸ ⟨rfl, rfl⟩ : (φ n).Serving a x)
  have hb : W.Before a (s.exts n) := by
    have := (hI.node n hn).ok a ha
    rw [hφ] at this
    exact this.2
  have hkeys := hI.keys n
  have he : (s.exts n).requirements.entries ≠ [] := by
    intro he
    rw [ReqMap.keys, he] at hkeys
    exact hl ((List.dedup_eq_nil _).1 hkeys.symm)
  obtain ⟨ext, ch, hp, hWt, hreq⟩ := hW.inner (n := n) (x := x) s.next hb he
  have hm := hI.mem_inflight hT hn (m := ⟨a, n, newLockSignal x W.state⟩) (by simp [hφ, Wave.msgs])
  set r := fanOutMap (s.exts n).requirements (fun _ => true) W.subWait W.state n s.next with hr
  have hget : ∀ c ∈ T.reqs n, (r.1.get c).state = W.subWait ∧ s.next ≤ (r.1.get c).msgID ∧
      (r.1.get c).msgID < s.next + r.2.length :=
    fun c hc => fanOutMap_all_get s.next (by simp [hkeys, hc])
  have hidle : ∀ c ∈ T.reqs n, φ c = .idle := fun c hc => by
    have := (hI.node n hn).edge c hc
    rwa [hφ] at this
  set φ' : ℕ → Phase := fun k =>
    if k = n then .waiting a x else if k ∈ T.reqs n then .requested n (r.1.get k).msgID else φ k
  have hφn : φ' n = .waiting a x := if_pos rfl
  have hφc : ∀ c ∈ T.reqs n, φ' c = .requested n (r.1.get c).msgID := fun c hc => by
    simp [φ', hc, hT.ne_of_mem hc]
  have hφk : ∀ k, k ≠ n → k ∉ T.reqs n → φ' k = φ k := fun k h₁ h₂ => by simp [φ', h₁, h₂]
  have hnn : n ∉ (T.reqs n).toFinset := fun h => hT.ne_of_mem (List.mem_toFinset.1 h) rfl
  refine ⟨s.afterDelivery _ ext _, φ', step_deliver hm hp, ?_, ?_⟩
  · refine hI.deliver hT (insert n (T.reqs n).toFinset) (fun k hk => ?_) (fun k hk => ?_)
      (by rw [hreq, fanOutMap_keys]) ?_ (fun k hk => ?_) ?_ ?_ (fun k hk x' hx => ?_)
      (by simp [newLockSignal]) ?_
    · rcases Finset.mem_insert.1 hk with rfl | hk
      · exact hn
      · exact hn.child (List.mem_toFinset.1 hk)
    · simp only [Finset.mem_insert, List.mem_toFinset, not_or] at hk
      exact hφk k hk.1 hk.2
    · by_cases hr : T.root = n
      · simp [hr, hφn]
      · rw [hφk _ hr (hT.root_top n)]
        exact hI.root_active
    · by_cases hkn : k = n
      · subst hkn
        refine ⟨fun a' ha' => ?_, fun c hc => ?_, fun _ _ _ => ?_⟩
        · rw [hT.requester_unique ha' ha, hφn]
          simpa [Wave.NodeOK] using hWt
        · rw [hφn, hφc c hc]
          simpa [hreq] using Or.inl ⟨(hget c hc).1, rfl, rfl⟩
        · obtain ⟨c, hc⟩ := List.exists_mem_of_ne_nil _ hl
          exact ⟨c, hc, by simp [hφc c hc]⟩
      by_cases hkc : k ∈ T.reqs n
      · have hreqk := T.requester_child q hn hkc
        refine ⟨fun a' ha' => ?_, fun d hd => ?_, fun _ _ hw => ?_⟩
        · have := (hI.node k hk).ok n hreqk
          rw [hidle k hkc] at this
          rw [hT.requester_unique ha' hreqk, hφc k hkc]
          simpa [Function.update_noteq hkn, Wave.NodeOK] using this
        · have := (hI.node k hk).edge d hd
          rw [hidle k hkc] at this
          rw [hφc k hkc, hφk d (fun h => hT.not_mem_of_mem hkc (h ▸ hd))
            fun h => hkn (hT.parent_unique hd h)]
          simpa [Function.update_noteq hkn] using this
        · simp [hφc k hkc] at hw
      · refine (hI.node k hk).of_serving (hφk k hkn hkc)
          (fun c hc hcn => hφk c hcn fun h => hkn (hT.parent_unique hc h))
          (Function.update_noteq hkn _ _) fun hnk => ⟨x, ?_, ?_⟩
        all_goals
          rw [hT.requester_unique (T.requester_child q hk hnk) ha]
          simp [hφn, hφ, Phase.Serving]
    · rw [Finset.sum_insert hnn, hφ,
        Finset.sum_eq_zero fun c hc => by rw [hidle c (List.mem_toFinset.1 hc)]; rfl]
      simp [Wave.msgs]
    · have hfin : (s.exts n).requirements.keys.toFinset = (T.reqs n).toFinset := by
        rw [hkeys]
        ext
        simp
      rw [Finset.sum_insert hnn, hφn,
        Finset.sum_congr rfl fun c hc => by rw [hφc c (List.mem_toFinset.1 hc)],
        fanOutMap_all_msgs, hfin]
      simp [Wave.msgs]
    · rcases Finset.mem_insert.1 hk with rfl | hk
      · simp only [hφn, Phase.id?, Option.some.injEq] at hx
        simp [hφ, Phase.id?, hx]
      · have hk := List.mem_toFinset.1 hk
        simp only [hφc k hk, Phase.id?, Option.some.injEq] at hx
        subst hx
        exact .inr ⟨(hget k hk).2.1, (hget k hk).2.2, hT.ne_root hk⟩
    · by_cases hr : T.root = n
      · simp [hr, hφn, hφ, newLockSignal]
      · simp [hφk _ hr (hT.root_top n), newLockSignal]
  · refine rank_lt hT hn (fun k => ?_) (by simp [hφn, hφ, Phase.rank])
    by_cases hkn : k = n
    · simp [hkn, hφn, hφ, Phase.rank]
    by_cases hkc : k ∈ T.reqs n
    · simp [hφc k hkc, hidle k hkc, Phase.rank]
    · rw [hφk k hkn hkc]

omit hW in
/-- **The root's answer reaches its requester `q`**, which ignores it: the root is a requirement
of no node. -/
theorem WaveInv.step_root_reply {x y : ℕ} (hφ : φ T.root = .replied q x y) :
    ∃ s' φ', s.step (.deliver ⟨T.root, q, newSuccessSignal y x⟩) = some s' ∧
      WaveInv W T q xr φ' s' ∧ rank T φ < rank T φ' := by
  have hq : (s.exts q).process q s.next T.root (newSuccessSignal y x) = .ok (s.exts q, [], []) :=
    handleSuccessSignal_of_find?_eq_none
      (ReqMap.find?_eq_none.2 (by simpa [hI.keys q] using hT.root_top q))
  have hx : x < s.next ∧ (x = xr ↔ T.root = T.root) := hI.ids T.root x (by simp [hφ, Phase.id?])
  have hm := hI.mem_inflight hT .root (m := ⟨T.root, q, newSuccessSignal y x⟩)
    (by simp [hφ, Wave.msgs])
  set φ' := Function.update φ T.root (.done q)
  have hφr : φ' T.root = .done q := Function.update_same _ _ _
  have hφk : ∀ k, k ≠ T.root → φ' k = φ k := fun k hk => Function.update_noteq hk _ _
  have hex : ∀ k, (s.afterDelivery ⟨T.root, q, newSuccessSignal y x⟩ (s.exts q) []).exts k =
      s.exts k := by simp [Function.update_eq_self]
  refine ⟨s.afterDelivery _ (s.exts q) [], φ', step_deliver hm hq, ?_,
    rank_lt_update hT .root (by simp [hφ, Phase.rank])⟩
  refine hI.deliver hT {T.root} (by simp [Tree.Mem.root]) (fun k hk => hφk k (by simpa using hk))
    rfl (by simp [hφr]) (fun k hk => ?_) (by simp [hφ, Wave.msgs]) (by simp [hφr, Wave.msgs])
    (fun k hk x' hx' => ?_) (fun r hr => ?_) ?_
  · by_cases hkr : k = T.root
    · subst hkr
      exact (hI.node _ hk).done_of_replied hφ hφr (fun c hc => hφk c (hT.ne_root hc)) (hex _)
    · exact (hI.node k hk).of_serving (hφk k hkr) (fun c _ hc => hφk c hc) (hex k)
        fun h => absurd h (hT.root_top k)
  · simp only [Finset.mem_singleton] at hk
    subst hk
    simp [hφr, Phase.id?] at hx'
  · simp only [newSuccessSignal, SignalKind.success.injEq] at hr
    exact hr ▸ hx.1
  · simp [hφr, hφ, newSuccessSignal, hx.2.2 rfl]

/-- **The answer of a node reaches its parent**, which records it and, if it was the last one,
answers its own requester. -/
theorem WaveInv.step_child_reply {n p x y : ℕ} (hn : T.Mem n) (hnr : n ≠ T.root)
    (hφ : φ n = .replied p x y) :
    ∃ s' φ', s.step (.deliver ⟨n, p, newSuccessSignal y x⟩) = some s' ∧
      WaveInv W T q xr φ' s' ∧ rank T φ < rank T φ' := by
  have hs : (φ n).Serving p x := hφ ▸ ⟨rfl, rfl⟩
  obtain ⟨hp, hnp⟩ : T.Mem p ∧ n ∈ T.reqs p := by
    rcases hI.requester_of_serving hn hs with ⟨h, -⟩ | h
    · exact absurd h hnr
    · exact h
  have hne : n ≠ p := hT.ne_of_mem hnp
  obtain ⟨⟨a', x', hwp⟩, hst, hid⟩ := ((hI.node p hp).edge n hnp).of_serving hs
  obtain ⟨a₀, ha₀⟩ := hp.requester q
  have hwait := (hI.node p hp).ok a₀ ha₀
  rw [hwp] at hwait
  obtain ⟨rfl, hwait⟩ := hwait
  have hkey : ∀ c ∈ T.reqs p, c ∈ (s.exts p).requirements.keys := by simp [hI.keys p]
  have hentry : (n, ⟨W.subWait, x⟩) ∈ (s.exts p).requirements.entries := by
    have := ReqMap.mem_get (hkey n hnp)
    rwa [show (s.exts p).requirements.get n = ⟨W.subWait, x⟩ by rw [← hst, ← hid]] at this
  have hx : x < s.next ∧ (x = xr ↔ n = T.root) := hI.ids n x (by simp [hφ, Phase.id?])
  have hm := hI.mem_inflight hT hn (m := ⟨n, p, newSuccessSignal y x⟩) (by simp [hφ, Wave.msgs])
  have hcn : ∀ c ∈ T.reqs n, c ≠ n ∧ c ≠ p := fun c hc =>
    ⟨hT.ne_of_mem hc, fun h => hT.not_mem_of_mem hnp (h ▸ hc)⟩
  have hrecv : ¬ (p = q ∧ (newSuccessSignal y x).kind = .success xr) := by
    simp only [newSuccessSignal, SignalKind.success.injEq]
    exact fun h => hnr (hx.2.1 h.2)
  by_cases hall : allIn ((s.exts p).requirements.set n ⟨W.subDone, 0⟩) W.subDone = true
  · obtain ⟨ext, ch, hpr, hA, hreq⟩ := hW.replyLast (n := p) s.next y hwait hentry hne hall
    set φ' := Function.update (Function.update φ n (.done p)) p (.replied a' x' s.next)
    have hφn : φ' n = .done p := by simp [φ', hne]
    have hφp : φ' p = .replied a' x' s.next := Function.update_same _ _ _
    have hφk : ∀ k, k ≠ n → k ≠ p → φ' k = φ k := fun k h₁ h₂ => by simp [φ', h₁, h₂]
    refine ⟨s.afterDelivery _ ext _, φ', step_deliver hm hpr, ?_,
      (rank_lt_update hT hn (by simp [hφ, Phase.rank])).trans_le
        (rank_le_update (by simp [Function.update_noteq (Ne.symm hne), hwp, Phase.rank]))⟩
    refine hI.deliver hT {n, p} (by simp [hn, hp]) (fun k hk => ?_)
      (by rw [hreq, ReqMap.keys_set_of_mem _ (hkey n hnp)])
      (update_ne_idle (update_ne_idle hI.root_active (by simp)) (by simp)) (fun k hk => ?_)
      (by simp [Finset.sum_pair hne, hφ, hwp, Wave.msgs])
      (by simp [Finset.sum_pair hne, hφn, hφp, Wave.msgs]) (fun k hk x'' hx'' => ?_)
      (fun r hr => ?_) ?_
    · simp only [Finset.mem_insert, Finset.mem_singleton, not_or] at hk
      exact hφk k hk.1 hk.2
    · by_cases hkp : k = p
      · subst hkp
        refine ⟨fun b hb => ?_, fun c hc => ?_, fun _ _ hw => by simp [hφp] at hw⟩
        · rw [hT.requester_unique hb ha₀, hφp]
          simpa [Wave.NodeOK] using hA
        · rw [hφp]
          by_cases hc' : c = n
          · exact hc' ▸ hφn
          · have hold := (hI.node k hk).edge c hc
            rw [hwp] at hold
            have hdone : ((s.exts k).requirements.get c).state = W.subDone := by
              have := (allIn_iff.1 hall) _ (ReqMap.mem_get
                (by rw [ReqMap.keys_set_of_mem _ (hkey n hnp)]; exact hkey c hc))
              rwa [ReqMap.get_set_ne _ hc' (hkey c hc)] at this
            rcases hold with ⟨h, -⟩ | ⟨-, h⟩
            · exact absurd (h.symm.trans hdone) hW.subWait_ne
            · rw [hφk c hc' (hT.ne_of_mem hc)]
              exact h
      by_cases hkn : k = n
      · rw [hkn]
        exact (hI.node n hn).done_of_replied hφ hφn (fun c hc => hφk c (hcn c hc).1 (hcn c hc).2)
          (Function.update_noteq hne _ _)
      · refine (hI.node k hk).of_serving (hφk k hkn hkp)
          (fun c hc hcp => hφk c (fun h => hkp (hT.parent_unique (h ▸ hc) hnp)) hcp)
          (Function.update_noteq hkp _ _) fun hpk => ⟨x', ?_, ?_⟩
        all_goals
          rw [hT.requester_unique (T.requester_child q hk hpk) ha₀]
          simp [hφp, hwp, Phase.Serving]
    · simp only [Finset.mem_insert, Finset.mem_singleton] at hk
      rcases hk with rfl | rfl
      · simp [hφn, Phase.id?] at hx''
      · simp only [hφp, Phase.id?, Option.some.injEq] at hx''
        simp [hwp, Phase.id?, hx'']
    · simp only [newSuccessSignal, SignalKind.success.injEq] at hr
      exact hr ▸ hx.1
    · by_cases hr : T.root = p
      · simp [hr, hφp, hwp, hrecv]
      · simp [hφk _ (Ne.symm hnr) hr, hrecv]
  · obtain ⟨ch, hpr, hWt⟩ :=
      hW.replyMore (n := p) s.next y hwait hentry hne (Bool.eq_false_iff.2 hall)
    set φ' := Function.update φ n (.done p)
    have hφn : φ' n = .done p := Function.update_same _ _ _
    have hφk : ∀ k, k ≠ n → φ' k = φ k := fun k hk => Function.update_noteq hk _ _
    refine ⟨s.afterDelivery _ _ [], φ', step_deliver hm hpr, ?_,
      rank_lt_update hT hn (by simp [hφ, Phase.rank])⟩
    refine hI.deliver hT {n} (by simp [hn]) (fun k hk => hφk k (by simpa using hk))
      (ReqMap.keys_set_of_mem _ (hkey n hnp)) (update_ne_idle hI.root_active (by simp))
      (fun k hk => ?_) (by simp [hφ, Wave.msgs]) (by simp [hφn, Wave.msgs])
      (fun k hk x'' hx'' => ?_) (fun r hr => ?_) (by simp [hφk _ (Ne.symm hnr), hrecv])
    · by_cases hkp : k = p
      · subst hkp
        refine ⟨fun b hb => ?_, fun c hc => ?_, fun _ _ _ => ?_⟩
        · rw [hT.requester_unique hb ha₀, hφk _ (Ne.symm hne), hwp]
          simpa [Wave.NodeOK] using hWt
        · rw [hφk _ (Ne.symm hne), hwp]
          by_cases hc' : c = n
          · subst hc'
            simpa [hφn] using Or.inr ⟨rfl, rfl⟩
          · have := (hI.node k hk).edge c hc
            rw [hwp] at this
            simpa [hφk c hc', ReqMap.get_set_ne _ hc' (hkey c hc)] using this
        · obtain ⟨e, he, hne'⟩ : ∃ e ∈ ((s.exts k).requirements.set n ⟨W.subDone, 0⟩).entries,
              e.2.state ≠ W.subDone := by
            simpa only [allIn_iff, not_forall, Classical.not_imp, exists_prop] using hall
          rcases ReqMap.mem_set.1 he with rfl | ⟨he, hen⟩
          · exact absurd rfl hne'
          · have hc : e.1 ∈ T.reqs k := by
              simpa [hI.keys k] using ReqMap.mem_keys.2 ⟨e.2, he⟩
            have hold := (hI.node k hk).edge e.1 hc
            rw [hwp, ReqMap.get_eq_of_mem he] at hold
            rcases hold with ⟨-, hserv⟩ | ⟨h, -⟩
            · exact ⟨e.1, hc, (hφk _ hen).symm ▸ hserv.ne_done⟩
            · exact absurd h hne'
      by_cases hkn : k = n
      · rw [hkn]
        exact (hI.node n hn).done_of_replied hφ hφn (fun c hc => hφk c (hcn c hc).1)
          (Function.update_noteq hne _ _)
      · exact (hI.node k hk).of_serving (hφk k hkn) (fun c _ hc => hφk c hc)
          (Function.update_noteq hkp _ _) fun h => absurd (hT.parent_unique h hnp) hkp
    · simp only [Finset.mem_singleton] at hk
      subst hk
      simp [hφn, Phase.id?] at hx''
    · simp only [newSuccessSignal, SignalKind.success.injEq] at hr
      exact hr ▸ hx.1

/-- **Every message in flight can be delivered**: its handler does not panic, the invariant is
kept and the phases move on. -/
theorem WaveInv.step {m : Message} (hm : m ∈ s.inflight) :
    ∃ s' φ', s.step (.deliver m) = some s' ∧ WaveInv W T q xr φ' s' ∧ rank T φ < rank T φ' := by
  rw [hI.inflight] at hm
  obtain ⟨n, -, hmn⟩ := Multiset.mem_sum.1 hm
  have hn : T.Mem n := by
    by_contra h
    simp [hI.outside n h, Wave.msgs] at hmn
  cases hφ : φ n with
  | idle | waiting | done => simp [hφ, Wave.msgs] at hmn
  | requested a x =>
    obtain rfl : m = ⟨a, n, newLockSignal x W.state⟩ := by simpa [hφ, Wave.msgs] using hmn
    by_cases hl : T.reqs n = []
    · exact hI.step_leaf hW hT hn hφ hl
    · exact hI.step_inner hW hT hn hφ hl
  | replied a x y =>
    obtain rfl : m = ⟨n, a, newSuccessSignal y x⟩ := by simpa [hφ, Wave.msgs] using hmn
    by_cases hr : n = T.root
    · subst hr
      obtain rfl : a = q := by
        rcases hI.requester_of_serving hn (hφ ▸ ⟨rfl, rfl⟩ : (φ T.root).Serving a x) with
          ⟨-, h⟩ | ⟨-, h⟩
        · exact h
        · exact absurd h (hT.root_top a)
      exact hI.step_root_reply hT hφ
    · exact hI.step_child_reply hW hT hn hr hφ

end Steps

/-! ### Whole runs -/

section Runs

variable {W : Wave} {T : Tree} {q xr : ℕ} {φ : ℕ → Phase} {s : Network}

theorem step_deliver_mem {s s' : Network} {m : Message} (h : s.step (.deliver m) = some s') :
    m ∈ s.inflight := by
  simp only [step] at h
  split at h
  · assumption
  · cases h

theorem rank_le_card (T : Tree) (φ : ℕ → Phase) : rank T φ ≤ 4 * T.nodes.card := by
  simpa [mul_comm] using Finset.sum_le_card_nsmul T.nodes _ 4 fun k _ => (φ k).rank_le

/-- **The invariant holds along every run of deliveries.** -/
theorem WaveInv.delivers (hW : W.Spec) (hT : T.WF) (hI : WaveInv W T q xr φ s) {s' : Network}
    (h : Relation.ReflTransGen Delivers s s') : ∃ φ', WaveInv W T q xr φ' s' := by
  induction h with
  | refl => exact ⟨φ, hI⟩
  | tail _ hst ih =>
    obtain ⟨φ₁, h₁⟩ := ih
    obtain ⟨m, hm⟩ := hst
    obtain ⟨s₂, φ₂, h₂, hI₂, -⟩ := h₁.step hW hT (step_deliver_mem hm)
    rw [hm, Option.some.injEq] at h₂
    exact ⟨φ₂, h₂ ▸ hI₂⟩

/-- **Some order of deliveries empties the network**: each delivery raises `rank`, which is
bounded. -/
theorem WaveInv.quiescent_reachable (hW : W.Spec) (hT : T.WF) (hI : WaveInv W T q xr φ s) :
    ∃ s', Relation.ReflTransGen Delivers s s' ∧ s'.inflight = 0 := by
  obtain ⟨k, hk⟩ : ∃ k, 4 * T.nodes.card - rank T φ = k := ⟨_, rfl⟩
  induction k using Nat.strong_induction_on generalizing φ s with
  | _ k ih =>
    by_cases h0 : s.inflight = 0
    · exact ⟨s, .refl, h0⟩
    obtain ⟨m, hm⟩ := Multiset.exists_mem_of_ne_zero h0
    obtain ⟨s', φ', hs', hI', hlt⟩ := hI.step hW hT hm
    have := rank_le_card T φ'
    obtain ⟨s'', h'', h0''⟩ := ih _ (by omega) hI' rfl
    exact ⟨s'', .head ⟨m, hs'⟩ h'', h0''⟩

theorem WaveInv.run_deliver (hW : W.Spec) (hT : T.WF) (hI : WaveInv W T q xr φ s)
    {ms : List Message} {s' : Network} (h : s.run (ms.map .deliver) = some s') :
    ∃ φ', WaveInv W T q xr φ' s' ∧ rank T φ + ms.length ≤ rank T φ' := by
  induction ms generalizing φ s with
  | nil =>
    cases h
    exact ⟨φ, hI, le_rfl⟩
  | cons m ms ih =>
    obtain ⟨s₁, h₁, h₂⟩ := Option.bind_eq_some.1 h
    obtain ⟨s₂, φ₁, hs₂, hI₁, hlt⟩ := hI.step hW hT (step_deliver_mem h₁)
    rw [h₁, Option.some.injEq] at hs₂
    subst hs₂
    obtain ⟨φ', hI', hle⟩ := ih hI₁ h₂
    exact ⟨φ', hI', by rw [List.length_cons]; omega⟩

/-- **Every schedule of deliveries ends, with nothing in flight.**  From a state of the
invariant, no sequence of deliveries is longer than `4 * |T.nodes| - rank T φ`, and every state
such a sequence reaches can deliver each message it has in flight: whatever order the messages
are delivered in, the wave stops, and only once the network is empty. -/
theorem WaveInv.schedule_bounded (hW : W.Spec) (hT : T.WF) (hI : WaveInv W T q xr φ s)
    {ms : List Message} {s' : Network} (h : s.run (ms.map .deliver) = some s') :
    ms.length ≤ 4 * T.nodes.card - rank T φ ∧
      ∀ m ∈ s'.inflight, ∃ s'', s'.step (.deliver m) = some s'' := by
  obtain ⟨φ', hI', hle⟩ := hI.run_deliver hW hT h
  have := rank_le_card T φ'
  refine ⟨by omega, fun m hm => ?_⟩
  obtain ⟨s'', -, hs'', -⟩ := hI'.step hW hT hm
  exact ⟨s'', hs''⟩

/-- **When nothing is in flight, every node of the tree has answered**: the root its requester
`q`, every other node its parent. -/
theorem WaveInv.all_done (hT : T.WF) (hI : WaveInv W T q xr φ s) (h0 : s.inflight = 0) :
    φ T.root = .done q ∧ ∀ p c, T.Mem p → c ∈ T.reqs p → φ c = .done p := by
  have hquiet : ∀ n, T.Mem n → W.msgs n (φ n) = 0 := fun n hn =>
    Finset.sum_eq_zero_iff.1 (hI.inflight ▸ h0) n (hT.nodes n hn)
  -- a waiting node would have a waiting requirement, below it in the finite acyclic tree
  have hwait : ∀ n, T.Mem n → ∀ a x, φ n ≠ .waiting a x := by
    haveI : IsStrictOrder ℕ fun c p => Relation.TransGen (Requires T.reqs) p c :=
      { irrefl := hT.acyclic, trans := fun _ _ _ h₁ h₂ => h₂.trans h₁ }
    intro n hn
    refine (Set.Finite.wellFoundedOn (r := fun c p => Relation.TransGen (Requires T.reqs) p c)
      T.nodes.finite_toSet).induction (hT.nodes n hn)
      (P := fun n => T.Mem n → ∀ a x, φ n ≠ .waiting a x) (fun p _ ih hp a x hw => ?_) hn
    obtain ⟨c, hc, hnd⟩ := (hI.node p hp).pending a x hw
    have hedge := (hI.node p hp).edge c hc
    rw [hw] at hedge
    rcases hedge with ⟨-, hserv⟩ | ⟨-, h⟩
    · have hcm := hp.child hc
      obtain ⟨a', x', hφc⟩ : ∃ a' x', φ c = .waiting a' x' := by
        have hq := hquiet c hcm
        revert hserv hq
        cases φ c <;> simp [Phase.Serving, Wave.msgs]
      exact ih c (hT.nodes c hcm) (.single hc) hcm a' x' hφc
    · exact hnd h
  have hroot : φ T.root = .done q := by
    have hok := (hI.node T.root .root).ok q (.inl ⟨rfl, rfl⟩)
    have hq := hquiet T.root .root
    have hw := hwait T.root .root
    have ha := hI.root_active
    revert hok hq hw ha
    cases φ T.root <;> simp [Wave.NodeOK, Wave.msgs]
    exact fun h _ => h
  have hdone : ∀ n, T.Mem n → ∃ a, φ n = .done a := by
    intro n hn
    induction hn with
    | refl => exact ⟨q, hroot⟩
    | tail hp hc ih =>
      obtain ⟨a, ha⟩ := ih
      have := (hI.node _ hp).edge _ hc
      rw [ha] at this
      exact ⟨_, this⟩
  refine ⟨hroot, fun p c hp hc => ?_⟩
  obtain ⟨a, ha⟩ := hdone p hp
  have := (hI.node p hp).edge c hc
  rwa [ha] at this

theorem WaveInv.after (hT : T.WF) (hI : WaveInv W T q xr φ s) (h0 : s.inflight = 0) {n a : ℕ}
    (hn : T.Mem n) (ha : T.Requester q n a) : W.After a (s.exts n) := by
  obtain ⟨hφr, hφc⟩ := hI.all_done hT h0
  have hok := (hI.node n hn).ok a ha
  rcases ha with ⟨rfl, rfl⟩ | ⟨hp, hc⟩
  · rw [hφr] at hok
    exact hok.2
  · rw [hφc a n hp hc] at hok
    exact hok.2

/-- **The invariant holds once the request is sent** to the root of a tree whose nodes all stand
as the wave expects, with nothing in flight. -/
theorem WaveInv.start (hT : T.WF) (h0 : s.inflight = 0)
    (hkeys : ∀ n, (s.exts n).requirements.keys = (T.reqs n).dedup)
    (hbefore : ∀ n a, T.Mem n → T.Requester q n a → W.Before a (s.exts n))
    (hdel : ∀ m ∈ s.delivered, ∀ r, m.signal.kind = .success r → r < s.next) :
    WaveInv W T q s.next (fun n => if n = T.root then .requested q s.next else .idle)
      (s.inject q T.root fun id => newLockSignal id W.state) where
  keys := hkeys
  outside n hn := by simp [show n ≠ T.root from fun h => hn (h ▸ .root)]
  root_active := by simp
  node n hn := by
    refine ⟨fun a ha => ?_, fun c hc => ?_, fun a x hw => ?_⟩
    · by_cases hr : n = T.root
      · subst hr
        rw [hT.requester_unique ha (.inl ⟨rfl, rfl⟩)]
        simpa [Wave.NodeOK] using hbefore _ q hn (.inl ⟨rfl, rfl⟩)
      · simpa [hr, Wave.NodeOK] using hbefore n a hn ha
    · by_cases hr : n = T.root <;> simp [hr, hT.ne_root hc, Wave.ChildOK]
    · by_cases hr : n = T.root <;> simp [hr] at hw
  inflight := by
    rw [Finset.sum_eq_single T.root (fun n _ hn => by simp [hn, Wave.msgs])
      fun h => absurd (hT.nodes _ .root) h]
    simp [inject, h0, Wave.msgs]
  xr_lt := by simp [inject]
  ids n x hx := by
    by_cases hr : n = T.root
    · simp only [hr, if_true, Phase.id?, Option.some.injEq] at hx
      simp [inject, hr, ← hx]
    · simp [hr, Phase.id?] at hx
  delivered_lt m hm r hr := by
    have := hdel m hm r hr
    simp only [inject]
    omega
  received := by
    rw [if_neg (by simp)]
    simp only [successesReceived, inject, List.length_eq_zero, List.filter_eq_nil_iff,
      decide_eq_true_eq, not_and]
    exact fun m hm _ hk => (hdel m hm _ hk).ne rfl

/-- A finished lock wave leaves every node of the tree as an unlock wave expects it, so an
unlock request from `q` to the root starts one. -/
theorem WaveInv.unlock_start (hT : T.WF) (hI : WaveInv lockWave T q xr φ s)
    (h0 : s.inflight = 0) :
    WaveInv unlockWave T q s.next (fun n => if n = T.root then .requested q s.next else .idle)
      (s.inject q T.root fun id => newLockSignal id unlockWave.state) :=
  WaveInv.start hT h0 hI.keys (fun _ _ hn ha => hI.after hT h0 hn ha) hI.delivered_lt

theorem WaveInv.start_lock (q : ℕ) (hT : T.WF) :
    WaveInv lockWave T q (init T.reqs).next
      (fun n => if n = T.root then .requested q (init T.reqs).next else .idle)
      ((init T.reqs).inject q T.root fun id => newLockSignal id lockWave.state) :=
  WaveInv.start hT rfl (fun n => by simp [init, newLockableExt, ReqMap.keys, Function.comp_def])
    (fun _ _ _ _ => rfl) (by simp [init])

end Runs

/-! ### Locking and unlocking a tree of a requirement forest -/

theorem forest_wf {reqs : ℕ → List ℕ} {root : ℕ} {N : Finset ℕ}
    (hN : ∀ p c, c ∈ reqs p → p ∈ N ∧ c ∈ N)
    (hacyc : ∀ n, ¬ Relation.TransGen (Requires reqs) n n)
    (hforest : ∀ c p p', c ∈ reqs p → c ∈ reqs p' → p = p')
    (hroot : ∀ p, root ∉ reqs p) : Tree.WF ⟨reqs, root, insert root N⟩ := by
  refine ⟨fun n hn => ?_, hacyc, fun h h' => hforest _ _ _ h h', hroot⟩
  rcases hn.cases_tail with rfl | ⟨p, -, hp⟩
  · exact Finset.mem_insert_self _ _
  · exact Finset.mem_insert_of_mem (hN p n hp).2

/-- **Locking and then unlocking a tree of a finite requirement forest.**  Every node starts
unlocked with the requirements `reqs`, which form a finite forest of which `root` is a root, and
nothing is in flight.  `q` sends `LockSignal("lock")` to `root`, and nothing else is injected.
Some order of deliveries empties the network; and in every state with nothing in flight that
any order of deliveries reaches, the root is locked with owner `q`, every other node of its tree
is locked with its parent as owner, and `q` has received exactly one `SuccessSignal` for the
request.  If `q` then sends `LockSignal("unlock")` to `root`, some order of deliveries empties
the network again, and whenever it is empty every node of the tree is unlocked with no owner
and `q` has received exactly one `SuccessSignal` for the unlock. -/
theorem lock_unlock_tree {reqs : ℕ → List ℕ} {root q : ℕ}
    (hfin : ∃ N : Finset ℕ, ∀ p c, c ∈ reqs p → p ∈ N ∧ c ∈ N)
    (hacyc : ∀ n, ¬ Relation.TransGen (Requires reqs) n n)
    (hforest : ∀ c p p', c ∈ reqs p → c ∈ reqs p' → p = p')
    (hroot : ∀ p, root ∉ reqs p) :
    (∃ s, Relation.ReflTransGen Delivers
      ((init reqs).inject q root fun id => newLockSignal id "lock") s ∧ s.inflight = 0) ∧
    ∀ s, Relation.ReflTransGen Delivers
      ((init reqs).inject q root fun id => newLockSignal id "lock") s → s.inflight = 0 →
      (s.exts root).state = .locked ∧ (s.exts root).owner = some q ∧
      (∀ p c, Relation.ReflTransGen (Requires reqs) root p → c ∈ reqs p →
        (s.exts c).state = .locked ∧ (s.exts c).owner = some p) ∧
      s.successesReceived q (init reqs).next = 1 ∧
      (∃ s', Relation.ReflTransGen Delivers
        (s.inject q root fun id => newLockSignal id "unlock") s' ∧ s'.inflight = 0) ∧
      ∀ s', Relation.ReflTransGen Delivers
        (s.inject q root fun id => newLockSignal id "unlock") s' → s'.inflight = 0 →
        (∀ n, Relation.ReflTransGen (Requires reqs) root n →
          (s'.exts n).state = .unlocked ∧ (s'.exts n).owner = none) ∧
        s'.successesReceived q s.next = 1 := by
  obtain ⟨N, hN⟩ := hfin
  let T : Tree := ⟨reqs, root, insert root N⟩
  have hT : T.WF := forest_wf hN hacyc hforest hroot
  have hI₁ := WaveInv.start_lock q hT
  refine ⟨hI₁.quiescent_reachable lockWave_spec hT, fun s hs h0 => ?_⟩
  obtain ⟨φ, hI⟩ := hI₁.delivers lockWave_spec hT hs
  have hAr := hI.after hT h0 .root (.inl ⟨rfl, rfl⟩)
  have hAc : ∀ p c, T.Mem p → c ∈ reqs p → lockWave.After p (s.exts c) := fun p c hp hc =>
    hI.after hT h0 (hp.child hc) (T.requester_child q hp hc)
  refine ⟨hAr.1, hAr.2, hAc, by simpa [(hI.all_done hT h0).1] using hI.received, ?_⟩
  have hI₂ := hI.unlock_start hT h0
  refine ⟨hI₂.quiescent_reachable unlockWave_spec hT, fun s' hs' h0' => ?_⟩
  obtain ⟨φ', hI'⟩ := hI₂.delivers unlockWave_spec hT hs'
  refine ⟨fun n hn => ?_, by simpa [(hI'.all_done hT h0').1] using hI'.received⟩
  obtain ⟨a, ha⟩ := Tree.Mem.requester (T := T) q hn
  exact hI'.after hT h0' hn ha

/-- **Every schedule of a lock, then of an unlock, of a tree ends.**  Every node starts unlocked
with the requirements `reqs`, a forest whose nodes `N` holds and of which `root` is a root, and
nothing is in flight.  After `q` sends `LockSignal("lock")` to `root`, no sequence of deliveries
is longer than `4 * |insert root N|`, and none gets stuck: in every state it reaches, each
message in flight can be delivered.  Once the network is empty and `q` sends
`LockSignal("unlock")` to `root`, the same holds of the unlock.  So whatever order the messages
are delivered in, each wave stops, and only when nothing is left in flight. -/
theorem lock_unlock_schedules_end {reqs : ℕ → List ℕ} {root q : ℕ} {N : Finset ℕ}
    (hN : ∀ p c, c ∈ reqs p → p ∈ N ∧ c ∈ N)
    (hacyc : ∀ n, ¬ Relation.TransGen (Requires reqs) n n)
    (hforest : ∀ c p p', c ∈ reqs p → c ∈ reqs p' → p = p')
    (hroot : ∀ p, root ∉ reqs p) :
    (∀ (ms : List Message) (s : Network),
      ((init reqs).inject q root fun id => newLockSignal id "lock").run (ms.map .deliver) =
        some s →
      ms.length ≤ 4 * (insert root N).card ∧
        ∀ m ∈ s.inflight, ∃ s', s.step (.deliver m) = some s') ∧
    ∀ s, Relation.ReflTransGen Delivers
      ((init reqs).inject q root fun id => newLockSignal id "lock") s → s.inflight = 0 →
      ∀ (ms : List Message) (s' : Network),
        (s.inject q root fun id => newLockSignal id "unlock").run (ms.map .deliver) = some s' →
        ms.length ≤ 4 * (insert root N).card ∧
          ∀ m ∈ s'.inflight, ∃ s'', s'.step (.deliver m) = some s'' := by
  have hT := forest_wf hN hacyc hforest hroot
  have hI₁ := WaveInv.start_lock q hT
  refine ⟨fun ms s h => ?_, fun s hs h0 ms s' h => ?_⟩
  · obtain ⟨hle, hstuck⟩ := hI₁.schedule_bounded lockWave_spec hT h
    exact ⟨hle.trans (Nat.sub_le _ _), hstuck⟩
  · obtain ⟨φ, hI⟩ := hI₁.delivers lockWave_spec hT hs
    obtain ⟨hle, hstuck⟩ := (hI.unlock_start hT h0).schedule_bounded unlockWave_spec hT h
    exact ⟨hle.trans (Nat.sub_le _ _), hstuck⟩

/-- The requirements of a tree of three nodes: `1` requires `2` and `3`. -/
def twoLeaves (n : ℕ) : List ℕ := if n = 1 then [2, 3] else []

theorem twoLeaves_held (p c : ℕ) (h : c ∈ twoLeaves p) :
    p ∈ ({1, 2, 3} : Finset ℕ) ∧ c ∈ ({1, 2, 3} : Finset ℕ) := by
  unfold twoLeaves at h
  split_ifs at h with hp <;> simp_all

theorem requires_twoLeaves_lt {p c : ℕ} (h : Requires twoLeaves p c) : p < c := by
  unfold Requires twoLeaves at h
  split_ifs at h with hp <;> simp at h
  omega

theorem twoLeaves_acyclic (n : ℕ) : ¬ Relation.TransGen (Requires twoLeaves) n n := by
  have hlt : ∀ a b, Relation.TransGen (Requires twoLeaves) a b → a < b := fun a b h => by
    induction h with
    | single h => exact requires_twoLeaves_lt h
    | tail _ h ih => exact ih.trans (requires_twoLeaves_lt h)
  exact fun h => lt_irrefl n (hlt n n h)

theorem twoLeaves_forest (c p p' : ℕ) (h : c ∈ twoLeaves p) (h' : c ∈ twoLeaves p') :
    p = p' := by
  unfold twoLeaves at h h'
  split_ifs at h h' <;> simp_all

theorem twoLeaves_root (p : ℕ) : 1 ∉ twoLeaves p := by
  unfold twoLeaves
  split_ifs <;> simp

theorem twoLeaves_lock_unlock :
    (∃ s, Relation.ReflTransGen Delivers
      ((init twoLeaves).inject 0 1 fun id => newLockSignal id "lock") s ∧ s.inflight = 0) ∧
    ∀ s, Relation.ReflTransGen Delivers
      ((init twoLeaves).inject 0 1 fun id => newLockSignal id "lock") s → s.inflight = 0 →
      (s.exts 1).state = .locked ∧ (s.exts 1).owner = some 0 ∧
      (∀ p c, Relation.ReflTransGen (Requires twoLeaves) 1 p → c ∈ twoLeaves p →
        (s.exts c).state = .locked ∧ (s.exts c).owner = some p) ∧
      s.successesReceived 0 (init twoLeaves).next = 1 ∧
      (∃ s', Relation.ReflTransGen Delivers
        (s.inject 0 1 fun id => newLockSignal id "unlock") s' ∧ s'.inflight = 0) ∧
      ∀ s', Relation.ReflTransGen Delivers
        (s.inject 0 1 fun id => newLockSignal id "unlock") s' → s'.inflight = 0 →
        (∀ n, Relation.ReflTransGen (Requires twoLeaves) 1 n →
          (s'.exts n).state = .unlocked ∧ (s'.exts n).owner = none) ∧
        s'.successesReceived 0 s.next = 1 :=
  lock_unlock_tree ⟨_, twoLeaves_held⟩ twoLeaves_acyclic twoLeaves_forest twoLeaves_root

theorem twoLeaves_schedules_end :
    (∀ (ms : List Message) (s : Network),
      ((init twoLeaves).inject 0 1 fun id => newLockSignal id "lock").run (ms.map .deliver) =
        some s →
      ms.length ≤ 4 * (insert 1 ({1, 2, 3} : Finset ℕ)).card ∧
        ∀ m ∈ s.inflight, ∃ s', s.step (.deliver m) = some s') ∧
    ∀ s, Relation.ReflTransGen Delivers
      ((init twoLeaves).inject 0 1 fun id => newLockSignal id "lock") s → s.inflight = 0 →
      ∀ (ms : List Message) (s' : Network),
        (s.inject 0 1 fun id => newLockSignal id "unlock").run (ms.map .deliver) = some s' →
        ms.length ≤ 4 * (insert 1 ({1, 2, 3} : Finset ℕ)).card ∧
          ∀ m ∈ s'.inflight, ∃ s'', s'.step (.deliver m) = some s'' :=
  lock_unlock_schedules_end twoLeaves_held twoLeaves_acyclic twoLeaves_forest twoLeaves_root

end Network

end Graphvent
