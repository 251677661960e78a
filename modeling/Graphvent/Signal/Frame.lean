import Graphvent.Go.Runtime

/-!
# Framing a signal: `SerializeSignal` and `ParseSignal`

`SerializeSignal(signal, block_size)` (`signal.go`) puts a 20-byte `SignalHeader` before the
bytes of `signal.Serialize()`: the magic `0x753a64de`, the hash of the signal's type and a
length, each big-endian; when `block_size > 0` it pads the frame with zero bytes up to a
multiple of `block_size` and counts the padding in the length.  The frame is one
`make([]byte, 20 + len + pad_req)`, which panics above `maxAlloc`.  `ParseSignal(ctx, data)`
checks the magic and that the length is that of everything after the header, and hands those
bytes to the loader registered in `ctx.Signals` under the type hash.

* `parseSignal_serializeSignal`: for a frame that fits, the checks pass and the loader gets the
  body followed by the `padReq` zero bytes; the padding is empty exactly when `block_size ≤ 0`
  or the header and body already fill whole blocks.  So with AES's block size 16 a one-byte
  body reaches the loader with eleven zero bytes after it (`oneByte_frame_roundTrip`).
* `serializeSignal_padding`: the padding is shorter than a block and makes the frame a whole
  number of blocks, so `CryptBlocks` in `NewECDHProxySignal` gets whole AES blocks; a frame of
  more than `maxAlloc` bytes panics in `make` instead (`serializeSignal_hugeBlock`: a one-byte
  body at `block_size = 2^50`).

Bytes are `UInt8`.  A signal is any value with a `Serialize()` result and the hash of its type
(`Hash(signal.Type())`, a SHA-512 digest truncated to 64 bits, is a parameter); a loader is a
function of the bytes after the header.  `int` arithmetic wraps (`wrapInt`).
-/

namespace Graphvent

open GoM

/-! ### The frame -/

/-- `SIGNAL_SER_MAGIC`. -/
def signalSerMagic : ℕ := 0x753a64de

/-- `SIGNAL_SER_HEADER_LENGTH`. -/
def signalSerHeaderLength : ℕ := 20

/-- `pad_req`: the zero bytes that fill a frame whose body has `len` bytes up to a multiple of
`block_size`, none when `block_size ≤ 0`. -/
def padReq (blockSize : ℤ) (len : ℕ) : ℕ :=
  if blockSize > 0 then
    let pad := blockSize - ((signalSerHeaderLength + len : ℕ) : ℤ) % blockSize
    if pad ≠ blockSize then pad.toNat else 0
  else 0

section

variable {σ τ : Type} (serialize : σ → Except String (List UInt8)) (hashType : σ → UInt64)

/-- `SerializeSignal(signal, block_size)`, for signals whose `Serialize()` is `serialize` and
whose `Hash(Type())` is `hashType`: the error of `Serialize()`, or the frame that `make`
allocates and the header and the body are copied into. -/
def serializeSignal (signal : σ) (blockSize : ℤ) : GoM (Except String (List UInt8)) :=
  match serialize signal with
  | .error err => pure (.error err)
  | .ok signalSer => do
    let padReq := padReq blockSize signalSer.length
    makeSlice 1 (wrapInt (signalSerHeaderLength + signalSer.length + padReq))
    pure (.ok (putBE 4 signalSerMagic ++ putBE 8 (hashType signal).toNat ++
      putBE 8 ((signalSer.length + padReq) % 2 ^ 64) ++ signalSer ++ List.replicate padReq 0))

/-- `ParseSignal(ctx, data)`, where `signals` is `ctx.Signals` with the `Load` function of each
registered signal type. -/
def parseSignal (signals : UInt64 → Option (List UInt8 → Except String τ)) (data : List UInt8) :
    Except String τ :=
  if data.length < signalSerHeaderLength then .error "data shorter than header length" else
  let magic := getBE (data.take 4)
  let typeHash := getBE ((data.drop 4).take 8)
  let length := getBE ((data.drop 12).take 8)
  if magic ≠ signalSerMagic then .error ("signal magic mismatch 0x" ++ hex magic) else
  let left : ℤ := data.length - signalSerHeaderLength
  if goInt length ≠ left then
    .error ("signal length mismatch " ++ toString length ++ "/" ++ toString left)
  else
    match signals (UInt64.ofNat typeHash) with
    | none => .error ("0x" ++ hex typeHash ++ " is not a known signal type")
    | some load => load (data.drop signalSerHeaderLength)

/-! ### The padding -/

theorem padReq_eq_zero_iff (blockSize : ℤ) (len : ℕ) :
    padReq blockSize len = 0 ↔
      blockSize ≤ 0 ∨ ((signalSerHeaderLength + len : ℕ) : ℤ) % blockSize = 0 := by
  unfold padReq
  dsimp only
  split_ifs with hbs
  · have h₁ := Int.emod_nonneg ((signalSerHeaderLength + len : ℕ) : ℤ) (ne_of_gt hbs)
    have h₂ := Int.emod_lt_of_pos ((signalSerHeaderLength + len : ℕ) : ℤ) hbs
    omega
  · omega
  · simp [le_of_not_lt hbs]

theorem padReq_of_nonpos {blockSize : ℤ} (h : blockSize ≤ 0) (len : ℕ) : padReq blockSize len = 0 :=
  if_neg (not_lt.2 h)

/-- With a positive block size the padding is shorter than a block and completes the header and
body to a whole number of blocks, the boundary case (a remainder of `0`, where `pad` is the whole
block) included. -/
theorem padReq_spec {blockSize : ℤ} (hbs : 0 < blockSize) (len : ℕ) :
    (padReq blockSize len : ℤ) < blockSize ∧
      ((signalSerHeaderLength + len + padReq blockSize len : ℕ) : ℤ) % blockSize = 0 := by
  rw [Nat.cast_add]
  unfold padReq
  rw [if_pos hbs]
  dsimp only
  generalize ((signalSerHeaderLength + len : ℕ) : ℤ) = n
  have h₀ := Int.emod_nonneg n (ne_of_gt hbs)
  have h₁ := Int.emod_lt_of_pos n hbs
  split_ifs with hpad
  · rw [Int.toNat_of_nonneg (by omega)]
    refine ⟨by omega, ?_⟩
    rw [show n + (blockSize - n % blockSize) = blockSize * (n / blockSize + 1) by
      rw [Int.emod_def]; ring]
    exact Int.mul_emod_right _ _
  · simp only [Nat.cast_zero, add_zero]
    exact ⟨hbs, by omega⟩


/-- `aes.BlockSize`. -/
def aesBlockSize : ℕ := 16

/-- Whether `CryptBlocks(dst, src)` of a CBC encrypter panics ("crypto/cipher: input not full
blocks"): when `src` is not a whole number of blocks. -/
def cryptBlocksPanics (blockSize : ℕ) (src : List UInt8) : Bool := src.length % blockSize != 0

/-! ### The frame, and reading it back -/

/-- A frame that fits in `maxAlloc` bytes is allocated: `SerializeSignal` returns the header,
whose length field is that of the rest, then the body and its padding. -/
theorem serializeSignal_of_fit {signal : σ} {body : List UInt8} {blockSize : ℤ}
    (hser : serialize signal = .ok body)
    (hfit : signalSerHeaderLength + body.length + padReq blockSize body.length ≤ maxAlloc) :
    (serializeSignal serialize hashType signal blockSize).result =
      .ok (.ok (putBE 4 signalSerMagic ++ (putBE 8 (hashType signal).toNat ++
        (putBE 8 (body ++ List.replicate (padReq blockSize body.length) 0).length ++
          (body ++ List.replicate (padReq blockSize body.length) 0))))) := by
  simp only [maxAlloc, signalSerHeaderLength] at hfit
  have hw : wrapInt ((signalSerHeaderLength + body.length + padReq blockSize body.length : ℕ) :
      ℤ) = (signalSerHeaderLength + body.length + padReq blockSize body.length : ℕ) :=
    wrapInt_of_mem (by omega) (by simp only [signalSerHeaderLength]; omega)
  have hmk : (makeSlice 1 (wrapInt (signalSerHeaderLength + body.length +
      padReq blockSize body.length : ℕ))).result = .ok () := by
    rw [result_makeSlice, hw, if_neg (by simp only [maxAlloc, signalSerHeaderLength]; omega)]
  simp only [serializeSignal, hser, Nat.cast_add] at hmk ⊢
  rw [result_bind hmk, result_pure, List.length_append, List.length_replicate,
    Nat.mod_eq_of_lt (by omega)]
  simp only [List.append_assoc]

/-- A frame of more than `maxAlloc` bytes (and fewer than `2^64`, as every sum of two Go `int`s)
makes `make` panic. -/
theorem serializeSignal_of_huge {signal : σ} {body : List UInt8} {blockSize : ℤ}
    (hser : serialize signal = .ok body)
    (hbig : maxAlloc < signalSerHeaderLength + body.length + padReq blockSize body.length)
    (hint : signalSerHeaderLength + body.length + padReq blockSize body.length < 2 ^ 64) :
    (serializeSignal serialize hashType signal blockSize).result = .error .makeSliceLen := by
  have hmk : (makeSlice 1 (wrapInt (signalSerHeaderLength + body.length +
      padReq blockSize body.length : ℕ))).result = .error .makeSliceLen := by
    obtain ⟨h₀, h₁, k, hk⟩ := wrapInt_spec
      ((signalSerHeaderLength + body.length + padReq blockSize body.length : ℕ) : ℤ)
    simp only [maxAlloc] at hbig
    rw [result_makeSlice, if_pos (by simp only [maxAlloc]; push_cast at hk ⊢; omega)]
  simp only [serializeSignal, hser, Nat.cast_add] at hmk ⊢
  rw [bind_error hmk]

variable (signals : UInt64 → Option (List UInt8 → Except String τ))

/-- `ParseSignal` of a frame with the magic, the hash `h` and the length of the rest: the
checks pass and the loader registered under `h` gets the rest. -/
theorem parseSignal_frame (h : UInt64) (rest : List UInt8) (hlen : rest.length < 2 ^ 63) :
    parseSignal signals
        (putBE 4 signalSerMagic ++ (putBE 8 h.toNat ++ (putBE 8 rest.length ++ rest))) =
      match signals h with
      | none => .error ("0x" ++ hex h.toNat ++ " is not a known signal type")
      | some load => load rest := by
  have h₄ : (putBE 4 signalSerMagic).length = 4 := length_putBE _ _
  have h₈ : ∀ v, (putBE 8 v).length = 8 := length_putBE _
  have h₁₂ : (putBE 4 signalSerMagic ++ putBE 8 h.toNat).length = 12 := by simp
  have h₂₀ : (putBE 4 signalSerMagic ++ putBE 8 h.toNat ++ putBE 8 rest.length).length = 20 := by
    simp
  have hh : h.toNat % 256 ^ 8 = h.toNat := Nat.mod_eq_of_lt h.toNat_lt_size
  have hl : rest.length % 256 ^ 8 = rest.length := Nat.mod_eq_of_lt (by omega)
  have hm : signalSerMagic % 256 ^ 4 = signalSerMagic := by decide
  have hgo : goInt rest.length = rest.length := if_pos hlen
  unfold parseSignal
  simp only [signalSerHeaderLength]
  rw [if_neg (by simp only [List.length_append, h₄, h₈]; omega), List.take_left' h₄,
    List.drop_left' h₄, List.take_left' (h₈ _), ← List.append_assoc, List.drop_left' h₁₂,
    List.take_left' (h₈ _), ← List.append_assoc, List.drop_left' h₂₀]
  simp only [getBE_putBE, hh, hl, hm, hgo, uint64_ofNat_toNat, ne_eq, not_true_eq_false,
    if_false, List.length_append, h₄, h₈]
  rw [if_neg (by push_cast; omega)]

/-- **Parsing a serialized signal.**  For a signal whose `Serialize()` gives `body` and whose
type hash has the loader `load` registered, and a frame that fits in `maxAlloc` bytes,
`SerializeSignal` returns a frame on which `ParseSignal` passes the magic and length checks and
calls `load` on `body` followed by `padReq` zero bytes.  The padding, counted in the header's
length, is empty exactly when `block_size ≤ 0` or the header and body already fill whole
blocks. -/
theorem parseSignal_serializeSignal {signal : σ} {body : List UInt8} {blockSize : ℤ}
    {load : List UInt8 → Except String τ} (hser : serialize signal = .ok body)
    (hload : signals (hashType signal) = some load)
    (hfit : signalSerHeaderLength + body.length + padReq blockSize body.length ≤ maxAlloc) :
    (∃ frame, (serializeSignal serialize hashType signal blockSize).result = .ok (.ok frame) ∧
      parseSignal signals frame = load (body ++ List.replicate (padReq blockSize body.length) 0)) ∧
    (padReq blockSize body.length = 0 ↔
      blockSize ≤ 0 ∨ ((signalSerHeaderLength + body.length : ℕ) : ℤ) % blockSize = 0) := by
  refine ⟨⟨_, serializeSignal_of_fit serialize hashType hser hfit, ?_⟩,
    padReq_eq_zero_iff blockSize body.length⟩
  rw [parseSignal_frame signals _ _ (by
    simp only [List.length_append, List.length_replicate, maxAlloc, signalSerHeaderLength] at hfit ⊢
    omega), hload]

/-- **The padding of a frame.**  For a signal whose `Serialize()` gives `body`: with
`block_size ≤ 0` there is no padding; otherwise the padding is shorter than a block and the
frame is a whole number of blocks.  A frame of at most `maxAlloc` bytes is returned: it has
`20 + len(body) + pad_req` bytes and its header's `Length` is `uint64(len(body) + pad_req)`, and
at AES's block size `CryptBlocks` does not panic on it.  A larger frame (below `2^64` bytes)
makes `make` panic. -/
theorem serializeSignal_padding {signal : σ} {body : List UInt8}
    (hser : serialize signal = .ok body) (blockSize : ℤ) :
    (blockSize ≤ 0 → padReq blockSize body.length = 0) ∧
    (0 < blockSize → (padReq blockSize body.length : ℤ) < blockSize ∧
      ((signalSerHeaderLength + body.length + padReq blockSize body.length : ℕ) : ℤ) %
        blockSize = 0) ∧
    (signalSerHeaderLength + body.length + padReq blockSize body.length ≤ maxAlloc →
      ∃ frame, (serializeSignal serialize hashType signal blockSize).result = .ok (.ok frame) ∧
        frame.length = signalSerHeaderLength + body.length + padReq blockSize body.length ∧
        getBE ((frame.drop 12).take 8) = body.length + padReq blockSize body.length ∧
        (blockSize = aesBlockSize → cryptBlocksPanics aesBlockSize frame = false)) ∧
    (maxAlloc < signalSerHeaderLength + body.length + padReq blockSize body.length →
      signalSerHeaderLength + body.length + padReq blockSize body.length < 2 ^ 64 →
      (serializeSignal serialize hashType signal blockSize).result = .error .makeSliceLen) := by
  refine ⟨fun h => padReq_of_nonpos h _, fun h => padReq_spec h _,
    fun hfit => ⟨_, serializeSignal_of_fit serialize hashType hser hfit, ?_, ?_, ?_⟩,
    serializeSignal_of_huge serialize hashType hser⟩
  · simp only [List.length_append, length_putBE, List.length_replicate, signalSerHeaderLength]
    omega
  · rw [show (12 : ℕ) = 4 + 8 from rfl, ← List.drop_drop]
    simp only [drop_putBE_append, take_putBE_append, getBE_putBE, List.length_append,
      List.length_replicate]
    simp only [maxAlloc, signalSerHeaderLength] at hfit
    exact Nat.mod_eq_of_lt (by omega)
  · rintro rfl
    have := (padReq_spec (show (0 : ℤ) < (aesBlockSize : ℕ) by decide) body.length).2
    simp only [cryptBlocksPanics, aesBlockSize, List.length_append, length_putBE,
      List.length_replicate, bne_eq_false_iff_eq, signalSerHeaderLength] at this ⊢
    omega

end

/-- With AES's block size 16, a one-byte body reaches the loader with eleven zero bytes after it:
the loader here returns the bytes it gets. -/
theorem oneByte_frame_roundTrip :
    (∃ frame, (serializeSignal (fun _ : Unit => .ok [0x7b]) (fun _ => 0) () 16).result =
        .ok (.ok frame) ∧
      parseSignal (fun h => if h = 0 then some Except.ok else none) frame =
        (.ok ([0x7b] ++ List.replicate 11 0) : Except String (List UInt8))) ∧
    (padReq 16 1 = 0 ↔ (16 : ℤ) ≤ 0 ∨ ((signalSerHeaderLength + 1 : ℕ) : ℤ) % 16 = 0) :=
  parseSignal_serializeSignal (fun _ : Unit => .ok [0x7b]) (fun _ => 0)
    (fun h => if h = 0 then some Except.ok else none) rfl rfl (by decide)

theorem oneByte_aes_frame :
    ((16 : ℤ) ≤ 0 → padReq 16 [(0x7b : UInt8)].length = 0) ∧
    ((0 : ℤ) < 16 → (padReq 16 [(0x7b : UInt8)].length : ℤ) < 16 ∧
      ((signalSerHeaderLength + [(0x7b : UInt8)].length + padReq 16 [(0x7b : UInt8)].length : ℕ) :
        ℤ) % 16 = 0) ∧
    (signalSerHeaderLength + [(0x7b : UInt8)].length + padReq 16 [(0x7b : UInt8)].length ≤
        maxAlloc →
      ∃ frame, (serializeSignal (fun _ : Unit => .ok [0x7b]) (fun _ => 0) () 16).result =
          .ok (.ok frame) ∧
        frame.length = signalSerHeaderLength + [(0x7b : UInt8)].length +
          padReq 16 [(0x7b : UInt8)].length ∧
        getBE ((frame.drop 12).take 8) =
          [(0x7b : UInt8)].length + padReq 16 [(0x7b : UInt8)].length ∧
        ((16 : ℤ) = aesBlockSize → cryptBlocksPanics aesBlockSize frame = false)) ∧
    (maxAlloc < signalSerHeaderLength + [(0x7b : UInt8)].length +
        padReq 16 [(0x7b : UInt8)].length →
      signalSerHeaderLength + [(0x7b : UInt8)].length + padReq 16 [(0x7b : UInt8)].length <
        2 ^ 64 →
      (serializeSignal (fun _ : Unit => .ok [0x7b]) (fun _ => 0) () 16).result =
        .error .makeSliceLen) :=
  serializeSignal_padding (fun _ : Unit => .ok [0x7b]) (fun _ => 0) rfl 16

/-- At `block_size = 2^50` a one-byte body needs a frame of `2^50` bytes, above `maxAlloc`:
`SerializeSignal` panics in `make` where the claim promises a frame. -/
theorem serializeSignal_hugeBlock :
    (serializeSignal (fun _ : Unit => .ok [0x7b]) (fun _ => 0) () (2 ^ 50)).result =
      .error .makeSliceLen := by
  decide

end Graphvent
