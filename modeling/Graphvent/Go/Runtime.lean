import Graphvent.Go.Binary

/-!
# The Go runtime under the parsers

`ParseSerializedValue` and `readNodeBytes` slice the bytes they are given with indices they read
from those bytes, so what the Go runtime does there is part of their behaviour.  `s[lo:hi]` is
legal up to the *capacity* of `s`: an index past `len(s)` reads the bytes the backing array
holds after the slice, and only an index past the capacity panics.  `make` panics on a negative
length or on one whose memory exceeds `maxAlloc`.  `int(x)` of a `uint64`, and `int`
arithmetic, wrap.

A computation `GoM` returns a value or panics with a `RuntimePanic`, and records every slice
expression it evaluates and every slice it allocates (`Access`), those before a panic included.

* `bind_ok`, `bind_error`: a `do` block runs one step at a time;
* `slice_of_le`, `result_slice_eq_ok`: `s[lo:hi]` with `0 ≤ lo ≤ hi ≤ cap(s)` gives the bytes
  from `lo` to `hi` of the backing array, and only then returns;
* `sliceFrom_of_le`, `result_sliceFrom_eq_ok`: the same for `s[lo:]`, up to `len(s)`;
* `wrapInt_of_mem`: `int` arithmetic is exact inside the range of `int`.
-/

namespace Graphvent

/-- `maxAlloc` on linux/amd64: `make` refuses more than `1 << 48` bytes. -/
def maxAlloc : ℕ := 2 ^ 48

/-- `int` arithmetic: the result taken modulo `2^64`, as a signed number. -/
def wrapInt (x : ℤ) : ℤ := goInt (x % 2 ^ 64).toNat

theorem wrapInt_of_mem {x : ℤ} (h₀ : -2 ^ 63 ≤ x) (h₁ : x < 2 ^ 63) : wrapInt x = x := by
  unfold wrapInt goInt
  rcases le_or_lt 0 x with hx | hx
  · rw [Int.emod_eq_of_lt hx (by omega), if_pos (by omega), Int.toNat_of_nonneg hx]
  · have he : x % 2 ^ 64 = x + 2 ^ 64 := by omega
    rw [he, if_neg (by omega)]
    omega

/-- `int` arithmetic changes a result by a multiple of `2^64`, into the range of `int`. -/
theorem wrapInt_spec (x : ℤ) :
    -2 ^ 63 ≤ wrapInt x ∧ wrapInt x < 2 ^ 63 ∧ ∃ k : ℤ, wrapInt x = x + 2 ^ 64 * k := by
  have h₀ := Int.emod_nonneg x (by decide : (2 : ℤ) ^ 64 ≠ 0)
  have h₁ := Int.emod_lt_of_pos x (by decide : (0 : ℤ) < 2 ^ 64)
  have h₂ := Int.emod_add_ediv x (2 ^ 64)
  have ht : ((x % 2 ^ 64).toNat : ℤ) = x % 2 ^ 64 := Int.toNat_of_nonneg h₀
  unfold wrapInt goInt
  split_ifs with h
  · exact ⟨by omega, by omega, -(x / 2 ^ 64), by omega⟩
  · exact ⟨by omega, by omega, -(x / 2 ^ 64) - 1, by omega⟩

theorem goInt_of_lt {v : ℕ} (h : v < 2 ^ 63) : goInt v = v := if_pos h

theorem goInt_neg {v : ℕ} (h : 2 ^ 63 ≤ v) : goInt v < 0 ↔ v < 2 ^ 64 := by
  unfold goInt
  rw [if_neg (by omega)]
  omega

/-- A Go `[]byte`: its bytes, then the bytes of the backing array after them, up to its
capacity. -/
structure GoSlice where
  bytes : List UInt8
  spare : List UInt8
  deriving DecidableEq, Repr

namespace GoSlice

/-- The backing array from the start of the slice. -/
def backing (s : GoSlice) : List UInt8 := s.bytes ++ s.spare

/-- `cap(s)`. -/
def cap (s : GoSlice) : ℕ := s.backing.length

theorem length_le_cap (s : GoSlice) : s.bytes.length ≤ s.cap := by
  simp [cap, backing]

end GoSlice

/-- A run-time panic. -/
inductive RuntimePanic
  /-- `s[lo:hi]` with `hi` outside `0 … cap(s)`. -/
  | sliceAcap (hi : ℤ) (cap : ℕ)
  /-- `s[lo:hi]` with `lo` outside `0 … hi`; `s[lo:]` with `lo` outside `0 … len(s)`. -/
  | sliceB (lo hi : ℤ)
  /-- `make` of a negative length, or of more than `maxAlloc` bytes. -/
  | makeSliceLen
  deriving DecidableEq, Repr

/-- The panic's `Error()`: a negative index is reported without the bound. -/
def RuntimePanic.error : RuntimePanic → String
  | .sliceAcap hi cap =>
    if hi < 0 then "runtime error: slice bounds out of range [:" ++ toString hi ++ "]"
    else "runtime error: slice bounds out of range [:" ++ toString hi ++ "] with capacity " ++
      toString cap
  | .sliceB lo hi =>
    if lo < 0 then "runtime error: slice bounds out of range [" ++ toString lo ++ ":]"
    else "runtime error: slice bounds out of range [" ++ toString lo ++ ":" ++ toString hi ++ "]"
  | .makeSliceLen => "runtime error: makeslice: len out of range"

/-- What a computation does to memory. -/
inductive Access
  /-- The slice expression `s[lo:hi]`; `s[lo:]` is `s[lo:len(s)]`. -/
  | slice (lo hi : ℤ)
  /-- `make([]T, len)`. -/
  | make (len : ℤ)
  deriving DecidableEq, Repr

/-- A slice expression reads inside the first `len` bytes of the slice it indexes; an
allocation reads nothing. -/
def Access.within (len : ℕ) : Access → Prop
  | .slice lo hi => 0 ≤ lo ∧ lo ≤ hi ∧ hi ≤ len
  | .make _ => True

instance (len : ℕ) : DecidablePred (Access.within len)
  | .slice _ _ => inferInstanceAs (Decidable (_ ∧ _ ∧ _))
  | .make _ => inferInstanceAs (Decidable True)

/-- A computation of the Go runtime: the accesses it makes, and its value or its panic. -/
structure GoM (α : Type) where
  trace : List Access
  result : Except RuntimePanic α

/-- Outcomes are compared by `decide`, so that a run on a given input can be checked. -/
instance decEqExcept {ε α : Type} [DecidableEq ε] [DecidableEq α] : DecidableEq (Except ε α)
  | .ok a, .ok b => decidable_of_iff (a = b) ⟨congrArg _, Except.ok.inj⟩
  | .error a, .error b => decidable_of_iff (a = b) ⟨congrArg _, Except.error.inj⟩
  | .ok _, .error _ => isFalse fun h => Except.noConfusion h
  | .error _, .ok _ => isFalse fun h => Except.noConfusion h

instance : Monad GoM where
  pure a := ⟨[], .ok a⟩
  bind x f := match x.result with
    | .ok a => ⟨x.trace ++ (f a).trace, (f a).result⟩
    | .error e => ⟨x.trace, .error e⟩

namespace GoM

variable {α β : Type}

/-- Records an access. -/
def access (a : Access) : GoM Unit := ⟨[a], .ok ()⟩

/-- Raises a run-time panic. -/
def raise (p : RuntimePanic) : GoM α := ⟨[], .error p⟩

@[simp] theorem trace_pure (a : α) : (pure a : GoM α).trace = [] := rfl

@[simp] theorem result_pure (a : α) : (pure a : GoM α).result = .ok a := rfl

theorem bind_ok {x : GoM α} {f : α → GoM β} {a : α} (h : x.result = .ok a) :
    x >>= f = ⟨x.trace ++ (f a).trace, (f a).result⟩ := by
  show (match x.result with
    | .ok a => (⟨x.trace ++ (f a).trace, (f a).result⟩ : GoM β)
    | .error e => ⟨x.trace, .error e⟩) = _
  rw [h]

theorem bind_error {x : GoM α} {f : α → GoM β} {e : RuntimePanic} (h : x.result = .error e) :
    x >>= f = ⟨x.trace, .error e⟩ := by
  show (match x.result with
    | .ok a => (⟨x.trace ++ (f a).trace, (f a).result⟩ : GoM β)
    | .error e => ⟨x.trace, .error e⟩) = _
  rw [h]

theorem result_bind {x : GoM α} {a : α} (h : x.result = .ok a) (f : α → GoM β) :
    (x >>= f).result = (f a).result := by
  rw [bind_ok h]

theorem result_bind_eq_ok {x : GoM α} {f : α → GoM β} {b : β} (h : (x >>= f).result = .ok b) :
    ∃ a, x.result = .ok a ∧ (f a).result = .ok b ∧ (x >>= f).trace = x.trace ++ (f a).trace := by
  rcases hx : x.result with e | a
  · rw [bind_error hx] at h
    cases h
  · rw [bind_ok hx] at h ⊢
    exact ⟨a, rfl, h, rfl⟩

theorem trace_isPrefix_bind (x : GoM α) (f : α → GoM β) : x.trace <+: (x >>= f).trace := by
  rcases hx : x.result with e | a
  · exact ⟨[], by rw [bind_error hx, List.append_nil]⟩
  · exact ⟨(f a).trace, by rw [bind_ok hx]⟩

end GoM

open GoM

namespace GoSlice

/-- `s[lo:hi]`: legal for `0 ≤ lo ≤ hi ≤ cap(s)`; the result keeps the backing array after
`hi` as its spare capacity. -/
def slice (s : GoSlice) (lo hi : ℤ) : GoM GoSlice := do
  access (.slice lo hi)
  if hi < 0 ∨ s.cap < hi then raise (.sliceAcap hi s.cap)
  else if lo < 0 ∨ hi < lo then raise (.sliceB lo hi)
  else pure ⟨(s.backing.drop lo.toNat).take (hi - lo).toNat, s.backing.drop hi.toNat⟩

/-- `s[lo:]`: legal for `0 ≤ lo ≤ len(s)`. -/
def sliceFrom (s : GoSlice) (lo : ℤ) : GoM GoSlice := do
  access (.slice lo s.bytes.length)
  if lo < 0 ∨ s.bytes.length < lo then raise (.sliceB lo s.bytes.length)
  else pure ⟨s.bytes.drop lo.toNat, s.spare⟩

variable {s : GoSlice} {lo hi : ℤ}

theorem slice_of_le (h₀ : 0 ≤ lo) (h₁ : lo ≤ hi) (h₂ : hi ≤ s.cap) :
    s.slice lo hi = ⟨[.slice lo hi],
      .ok ⟨(s.backing.drop lo.toNat).take (hi - lo).toNat, s.backing.drop hi.toNat⟩⟩ := by
  rw [slice, bind_ok rfl, if_neg (by omega), if_neg (by omega)]
  rfl

theorem result_slice_of_le (h₀ : 0 ≤ lo) (h₁ : lo ≤ hi) (h₂ : hi ≤ s.cap) :
    (s.slice lo hi).result =
      .ok ⟨(s.backing.drop lo.toNat).take (hi - lo).toNat, s.backing.drop hi.toNat⟩ := by
  rw [slice_of_le h₀ h₁ h₂]

theorem result_slice_eq_ok {r : GoSlice} (h : (s.slice lo hi).result = .ok r) :
    0 ≤ lo ∧ lo ≤ hi ∧ hi ≤ s.cap ∧
      r = ⟨(s.backing.drop lo.toNat).take (hi - lo).toNat, s.backing.drop hi.toNat⟩ := by
  rw [slice, bind_ok rfl] at h
  split_ifs at h with h₁ h₂
  · cases h
  · cases h
  · cases h
    exact ⟨by omega, by omega, by omega, rfl⟩

@[simp] theorem trace_slice : (s.slice lo hi).trace = [.slice lo hi] := by
  rw [slice, bind_ok rfl]
  split_ifs <;> rfl

theorem backing_drop_take {n : ℕ} (k : ℕ) (h : n + k ≤ s.bytes.length) :
    (s.backing.drop n).take k = (s.bytes.drop n).take k := by
  rw [backing, List.drop_append_of_le_length (by omega), List.take_append_of_le_length]
  simp only [List.length_drop]
  omega

theorem sliceFrom_of_le (h₀ : 0 ≤ lo) (h₁ : lo ≤ s.bytes.length) :
    s.sliceFrom lo = ⟨[.slice lo s.bytes.length], .ok ⟨s.bytes.drop lo.toNat, s.spare⟩⟩ := by
  rw [sliceFrom, bind_ok rfl, if_neg (by omega)]
  rfl

theorem result_sliceFrom_eq_ok {r : GoSlice} (h : (s.sliceFrom lo).result = .ok r) :
    0 ≤ lo ∧ lo ≤ s.bytes.length ∧ r = ⟨s.bytes.drop lo.toNat, s.spare⟩ := by
  rw [sliceFrom, bind_ok rfl] at h
  split_ifs at h with h₁
  · cases h
  · cases h
    exact ⟨by omega, by omega, rfl⟩

@[simp] theorem trace_sliceFrom : (s.sliceFrom lo).trace = [.slice lo s.bytes.length] := by
  rw [sliceFrom, bind_ok rfl]
  split_ifs <;> rfl

end GoSlice

/-- `make([]T, len)` for elements of `size` bytes: the length is checked, the elements are the
zero value. -/
def makeSlice (size : ℕ) (len : ℤ) : GoM Unit := do
  access (.make len)
  if len < 0 ∨ (maxAlloc : ℤ) < size * len then raise .makeSliceLen else pure ()

@[simp] theorem trace_makeSlice (size : ℕ) (len : ℤ) :
    (makeSlice size len).trace = [.make len] := by
  rw [makeSlice, bind_ok rfl]
  split_ifs <;> rfl

theorem result_makeSlice (size : ℕ) (len : ℤ) :
    (makeSlice size len).result =
      if len < 0 ∨ (maxAlloc : ℤ) < size * len then .error .makeSliceLen else .ok () := by
  rw [makeSlice, bind_ok rfl]
  split_ifs <;> rfl

end Graphvent
