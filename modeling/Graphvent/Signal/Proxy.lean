import Graphvent.Node.Database
import Graphvent.Signal.Frame

/-!
# The encrypted proxy signal: `NewECDHProxySignal` and `ParseECDHProxySignal`

`NewECDHProxySignal(source, dest, signal, shared_secret)` (`signal.go`) frames `signal` with
`SerializeSignal` at AES's block size, encrypts the frame with AES in CBC mode, under the key
`shared_secret[:32]` and a random IV, and carries the IV and the ciphertext.
`ParseECDHProxySignal(ctx, signal, shared_secret)` decrypts the data under the IV the signal
carries and hands the plaintext to `ParseSignal`.

* `cbcDecrypt_cbcEncrypt`: CBC decryption undoes CBC encryption of whole blocks, whatever the
  block cipher;
* `parseECDHProxySignal_newECDHProxySignal`: so a proxy signal built under a shared secret and
  read under any secret with the same first 32 bytes gives the loader of the signal's type the
  signal's bytes followed by the padding of its frame;
* `newECDHProxySignal_panics_iff`: `NewECDHProxySignal` panics only on a secret whose capacity is
  below 32 bytes or on a frame too large for `make`: the frame is always whole blocks, so
  `CryptBlocks` never panics;
* `parseECDHProxySignal_panics_iff`: `ParseECDHProxySignal` panics, rather than returning an
  error, on a proxy signal whose IV is not one block or whose data is not whole blocks, and both
  fields come from the sender.

Both functions slice the secret with `shared_secret[:32]`, which is legal up to the capacity of
the slice, so a secret shorter than 32 bytes is extended by whatever its backing array holds
after it (`proxyCipher_of_le`).  AES is any block cipher on 16-byte blocks (`BlockCipher`), one
per key, and `crypto/cipher`'s CBC mode is written out.  The IV is what `rand.Reader.Read`
returns, a parameter.  A call ends in a panic with its message (the outer error) or returns an
error or a value.  The `BaseSignal` header of the proxy signal is not modelled.
-/

namespace Graphvent

/-! ### AES in CBC mode -/

/-- `subtle.XORBytes(dst, x, y)`: the bytes of `x` and `y` xored pairwise, as many as the shorter
has. -/
def xorBytes (x y : List UInt8) : List UInt8 := List.zipWith (· ^^^ ·) x y

theorem uint8_xor_xor_cancel (a b : UInt8) : (a ^^^ b) ^^^ b = a :=
  congrArg UInt8.mk (by rw [BitVec.xor_assoc, BitVec.xor_self, BitVec.xor_zero] :
    (a.toBitVec ^^^ b.toBitVec) ^^^ b.toBitVec = a.toBitVec)

@[simp] theorem length_xorBytes (x y : List UInt8) :
    (xorBytes x y).length = min x.length y.length :=
  List.length_zipWith _ _ _

theorem xorBytes_xorBytes : ∀ {x y : List UInt8}, x.length ≤ y.length →
    xorBytes (xorBytes x y) y = x
  | [], _, _ => rfl
  | _ :: _, [], h => absurd h (by simp)
  | a :: x, b :: y, h => by
    simp only [xorBytes, List.zipWith_cons_cons, uint8_xor_xor_cancel, List.cons.injEq, true_and]
    exact xorBytes_xorBytes (Nat.le_of_succ_le_succ h)

/-- A block cipher on AES's 16-byte blocks: the `Encrypt` and `Decrypt` of a `cipher.Block`, each
mapping a block to a block, `Decrypt` undoing `Encrypt`. -/
structure BlockCipher where
  encrypt : List UInt8 → List UInt8
  decrypt : List UInt8 → List UInt8
  length_encrypt : ∀ b : List UInt8, b.length = aesBlockSize → (encrypt b).length = aesBlockSize
  decrypt_encrypt : ∀ b : List UInt8, b.length = aesBlockSize → decrypt (encrypt b) = b

/-- `aes.NewCipher(key)`: the cipher of the key, for a key of 16, 24 or 32 bytes. -/
def aesNewCipher (aes : List UInt8 → BlockCipher) (key : List UInt8) :
    Except String BlockCipher :=
  if key.length = 16 ∨ key.length = 24 ∨ key.length = 32 then .ok (aes key)
  else .error ("crypto/aes: invalid key size " ++ toString key.length)

/-- `CryptBlocks` of `cipher.NewCBCEncrypter(b, iv)` over `n` blocks of `src`: each block is
xored with the ciphertext block before it, `iv` for the first, and encrypted. -/
def cbcEncrypt (b : BlockCipher) : List UInt8 → ℕ → List UInt8 → List UInt8
  | _, 0, _ => []
  | iv, n + 1, src =>
    let c := b.encrypt (xorBytes (src.take aesBlockSize) iv)
    c ++ cbcEncrypt b c n (src.drop aesBlockSize)

/-- `CryptBlocks` of `cipher.NewCBCDecrypter(b, iv)` over `n` blocks of `src`: each block is
decrypted and xored with the ciphertext block before it, `iv` for the first. -/
def cbcDecrypt (b : BlockCipher) : List UInt8 → ℕ → List UInt8 → List UInt8
  | _, 0, _ => []
  | iv, n + 1, src =>
    xorBytes (b.decrypt (src.take aesBlockSize)) iv ++
      cbcDecrypt b (src.take aesBlockSize) n (src.drop aesBlockSize)

section

variable (b : BlockCipher)

theorem length_cbcEncrypt : ∀ {iv : List UInt8} (n : ℕ) {src : List UInt8},
    iv.length = aesBlockSize → src.length = aesBlockSize * n →
    (cbcEncrypt b iv n src).length = aesBlockSize * n
  | _, 0, _, _, _ => rfl
  | iv, n + 1, src, hiv, hsrc => by
    have hc := b.length_encrypt (xorBytes (src.take aesBlockSize) iv)
      (by simp only [length_xorBytes, List.length_take, hiv, hsrc, aesBlockSize]; omega)
    rw [cbcEncrypt, List.length_append, hc, length_cbcEncrypt n hc
      (by rw [List.length_drop, hsrc, Nat.mul_succ, Nat.add_sub_cancel]), Nat.mul_succ,
      Nat.add_comm]

/-- **CBC decryption undoes CBC encryption** of `n` whole blocks under one IV, for every block
cipher. -/
theorem cbcDecrypt_cbcEncrypt : ∀ {iv : List UInt8} (n : ℕ) {src : List UInt8},
    iv.length = aesBlockSize → src.length = aesBlockSize * n →
    cbcDecrypt b iv n (cbcEncrypt b iv n src) = src
  | _, 0, src, _, hsrc => (List.length_eq_zero.1 (by simpa using hsrc)).symm
  | iv, n + 1, src, hiv, hsrc => by
    have hp : (src.take aesBlockSize).length = aesBlockSize := by
      rw [List.length_take, hsrc]; simp [aesBlockSize]
    have hx : (xorBytes (src.take aesBlockSize) iv).length = aesBlockSize := by
      rw [length_xorBytes, hp, hiv, min_self]
    have hc := b.length_encrypt _ hx
    have hrest : (src.drop aesBlockSize).length = aesBlockSize * n := by
      rw [List.length_drop, hsrc, Nat.mul_succ, Nat.add_sub_cancel]
    rw [cbcEncrypt, cbcDecrypt, List.take_left' hc, List.drop_left' hc, b.decrypt_encrypt _ hx,
      xorBytes_xorBytes (by rw [hp, hiv]), cbcDecrypt_cbcEncrypt n hc hrest, List.take_append_drop]

end

/-! ### The proxy signal -/

/-- `ECDHProxySignal`, without its `BaseSignal` header. -/
structure ECDHProxySignal where
  source : NodeID
  dest : NodeID
  iv : List UInt8
  data : List UInt8
  deriving DecidableEq, Repr

/-- The error of both functions on a nil secret. -/
def needSharedSecret : String := "need shared_secret"

/-- The panic of `CryptBlocks` on data that is not whole blocks. -/
def inputNotFullBlocks : String := "crypto/cipher: input not full blocks"

/-- The panic of `cipher.NewCBCDecrypter` on an IV that is not one block. -/
def ivLengthPanic : String := "cipher.NewCBCDecrypter: IV length must equal block size"

/-- The start both functions share: a nil secret is an error, and otherwise the cipher is
`aes.NewCipher(shared_secret[:32])`, the slice panicking when the secret's capacity is below 32. -/
def proxyCipher (aes : List UInt8 → BlockCipher) : Option GoSlice →
    Except String (Except String BlockCipher)
  | none => .ok (.error needSharedSecret)
  | some secret =>
    match (secret.slice 0 32).result with
    | .error p => .error p.error
    | .ok key => .ok (aesNewCipher aes key.bytes)

section

variable {σ τ : Type} (aes : List UInt8 → BlockCipher) (serialize : σ → Except String (List UInt8))
  (hashType : σ → UInt64) (signals : UInt64 → Option (List UInt8 → Except String τ))

/-- `NewECDHProxySignal(source, dest, signal, shared_secret)`, where `random` is what
`rand.Reader.Read` puts in the IV, or its error. -/
def newECDHProxySignal (source dest : NodeID) (signal : σ) (sharedSecret : Option GoSlice)
    (random : Except String (List UInt8)) : Except String (Except String ECDHProxySignal) :=
  match proxyCipher aes sharedSecret with
  | .error p => .error p
  | .ok (.error e) => .ok (.error e)
  | .ok (.ok aesKey) =>
    match (serializeSignal serialize hashType signal aesBlockSize).result with
    | .error p => .error p.error
    | .ok (.error e) => .ok (.error e)
    | .ok (.ok ser) =>
      match random with
      | .error e => .ok (.error e)
      | .ok iv =>
        if iv.length ≠ aesBlockSize then .ok (.error "Not enough bytes read for IV")
        else if cryptBlocksPanics aesBlockSize ser then .error inputNotFullBlocks
        else .ok (.ok ⟨source, dest, iv, cbcEncrypt aesKey iv (ser.length / aesBlockSize) ser⟩)

/-- `ParseECDHProxySignal(ctx, signal, shared_secret)`, where `signals` is `ctx.Signals` with the
`Load` function of each registered signal type. -/
def parseECDHProxySignal (signal : ECDHProxySignal) (sharedSecret : Option GoSlice) :
    Except String (Except String τ) :=
  match proxyCipher aes sharedSecret with
  | .error p => .error p
  | .ok (.error e) => .ok (.error e)
  | .ok (.ok aesKey) =>
    if signal.iv.length ≠ aesBlockSize then .error ivLengthPanic
    else if cryptBlocksPanics aesBlockSize signal.data then .error inputNotFullBlocks
    else .ok (parseSignal signals
      (cbcDecrypt aesKey signal.iv (signal.data.length / aesBlockSize) signal.data))

end

/-- With a capacity of 32 bytes or more the key is the first 32 bytes of the backing array,
those past the secret's length included. -/
theorem proxyCipher_of_le (aes : List UInt8 → BlockCipher) {secret : GoSlice}
    (h : 32 ≤ secret.cap) :
    proxyCipher aes (some secret) = .ok (.ok (aes (secret.backing.take 32))) := by
  have hlen : (secret.backing.take 32).length = 32 := by
    rw [List.length_take]; exact min_eq_left h
  unfold proxyCipher
  dsimp only
  rw [GoSlice.result_slice_of_le le_rfl (by decide) (by exact_mod_cast h)]
  change Except.ok (aesNewCipher aes (secret.backing.take 32)) = _
  rw [aesNewCipher, if_pos (Or.inr (Or.inr hlen))]

theorem proxyCipher_of_lt (aes : List UInt8 → BlockCipher) {secret : GoSlice}
    (h : secret.cap < 32) :
    proxyCipher aes (some secret) = .error (RuntimePanic.sliceAcap 32 secret.cap).error := by
  unfold proxyCipher
  dsimp only
  rw [GoSlice.slice, GoM.bind_ok rfl, if_pos (Or.inr (by exact_mod_cast h))]
  rfl

section

variable {σ τ : Type} (aes : List UInt8 → BlockCipher) (serialize : σ → Except String (List UInt8))
  (hashType : σ → UInt64) (signals : UInt64 → Option (List UInt8 → Except String τ))

theorem aesFrame_whole (body : List UInt8) (h w : ℕ) :
    cryptBlocksPanics aesBlockSize (putBE 4 signalSerMagic ++ (putBE 8 h ++ (putBE 8 w ++
      (body ++ List.replicate (padReq aesBlockSize body.length) 0)))) = false := by
  have := (padReq_spec (show (0 : ℤ) < (aesBlockSize : ℕ) by decide) body.length).2
  simp only [cryptBlocksPanics, List.length_append, length_putBE, List.length_replicate,
    signalSerHeaderLength, aesBlockSize, bne_eq_false_iff_eq] at this ⊢
  omega

/-- **A proxy signal reads back.**  For a signal whose `Serialize()` gives `body` and whose type
has the loader `load`, a frame that fits in `maxAlloc` bytes, a secret of at least 32 bytes of
capacity and an IV of one block, `NewECDHProxySignal` builds a proxy signal from `source` to
`dest` under that IV, and `ParseECDHProxySignal` of it, under any secret with the same first 32
bytes, calls `load` on `body` followed by the padding of the frame. -/
theorem parseECDHProxySignal_newECDHProxySignal {signal : σ} {body : List UInt8}
    {load : List UInt8 → Except String τ} (hser : serialize signal = .ok body)
    (hload : signals (hashType signal) = some load)
    (hfit : signalSerHeaderLength + body.length + padReq aesBlockSize body.length ≤ maxAlloc)
    (source dest : NodeID) {secret secret' : GoSlice} (hcap : 32 ≤ secret.cap)
    (hcap' : 32 ≤ secret'.cap) (hkey : secret'.backing.take 32 = secret.backing.take 32)
    {iv : List UInt8} (hiv : iv.length = aesBlockSize) :
    ∃ proxy, newECDHProxySignal aes serialize hashType source dest signal (some secret) (.ok iv) =
        .ok (.ok proxy) ∧ proxy.source = source ∧ proxy.dest = dest ∧ proxy.iv = iv ∧
      parseECDHProxySignal aes signals proxy (some secret') =
        .ok (load (body ++ List.replicate (padReq aesBlockSize body.length) 0)) := by
  have hframe := serializeSignal_of_fit serialize hashType hser hfit
  have hwhole := aesFrame_whole body (hashType signal).toNat
    (body ++ List.replicate (padReq aesBlockSize body.length) 0).length
  have hlen : (body ++ List.replicate (padReq aesBlockSize body.length) 0).length < 2 ^ 63 := by
    simp only [List.length_append, List.length_replicate, maxAlloc, signalSerHeaderLength] at hfit ⊢
    omega
  generalize hf : putBE 4 signalSerMagic ++ (putBE 8 (hashType signal).toNat ++
    (putBE 8 (body ++ List.replicate (padReq aesBlockSize body.length) 0).length ++
      (body ++ List.replicate (padReq aesBlockSize body.length) 0))) = frame at hframe hwhole
  replace hwhole : frame.length % aesBlockSize = 0 := by
    simpa only [cryptBlocksPanics, bne_eq_false_iff_eq] using hwhole
  have hn : frame.length = aesBlockSize * (frame.length / aesBlockSize) :=
    (Nat.mul_div_cancel' (Nat.dvd_of_mod_eq_zero hwhole)).symm
  have hct := length_cbcEncrypt (aes (secret.backing.take 32)) _ hiv hn
  refine ⟨⟨source, dest, iv, cbcEncrypt (aes (secret.backing.take 32)) iv
    (frame.length / aesBlockSize) frame⟩, ?_, rfl, rfl, rfl, ?_⟩
  · simp only [newECDHProxySignal, proxyCipher_of_le aes hcap, hframe, hiv, ne_eq,
      not_true_eq_false, if_false, cryptBlocksPanics, hwhole, bne_self_eq_false,
      Bool.false_eq_true]
  · simp only [parseECDHProxySignal, proxyCipher_of_le aes hcap', hkey, hiv, ne_eq,
      not_true_eq_false, if_false, cryptBlocksPanics, hct, ← hn, hwhole, bne_self_eq_false,
      Bool.false_eq_true]
    rw [cbcDecrypt_cbcEncrypt _ _ hiv hn, ← hf, parseSignal_frame signals _ _ hlen, hload]

/-- A one-byte signal of type hash `0` through a cipher that reverses each block, under the
secret of 32 bytes `7` and the IV of 16 bytes `1`. -/
theorem proxy_oneByte_roundTrip :
    ∃ proxy, newECDHProxySignal (fun _ => ⟨List.reverse, List.reverse,
          fun _ h => (List.length_reverse _).trans h, fun _ _ => List.reverse_reverse _⟩)
        (fun _ : Unit => .ok [0x7b]) (fun _ => 0) ⟨[0x61]⟩ ⟨[0x62]⟩ ()
        (some ⟨List.replicate 32 7, []⟩) (.ok (List.replicate 16 1)) = .ok (.ok proxy) ∧
      proxy.source = ⟨[0x61]⟩ ∧ proxy.dest = ⟨[0x62]⟩ ∧ proxy.iv = List.replicate 16 1 ∧
      parseECDHProxySignal (fun _ => ⟨List.reverse, List.reverse,
          fun _ h => (List.length_reverse _).trans h, fun _ _ => List.reverse_reverse _⟩)
        (fun h => if h = 0 then some Except.ok else none) proxy
        (some ⟨List.replicate 32 7, []⟩) =
        .ok (.ok ([0x7b] ++ List.replicate (padReq aesBlockSize 1) 0)) :=
  parseECDHProxySignal_newECDHProxySignal _ (fun _ : Unit => .ok [0x7b]) (fun _ => 0)
    (fun h => if h = 0 then some Except.ok else none) rfl rfl (by decide) _ _ (by decide)
    (by decide) rfl (by decide)

/-- **When `NewECDHProxySignal` panics.**  Given a secret and a signal whose `Serialize()`, like
every Go slice, is shorter than `2^63` bytes, it panics exactly when the secret's capacity is
below 32 bytes or the frame `SerializeSignal` allocates exceeds `maxAlloc`.  The frame at AES's
block size is whole blocks, so `CryptBlocks` never panics, whatever the IV. -/
theorem newECDHProxySignal_panics_iff (source dest : NodeID) (signal : σ) (secret : GoSlice)
    (random : Except String (List UInt8))
    (hslice : ∀ body, serialize signal = .ok body → body.length < 2 ^ 63) :
    (∃ msg, newECDHProxySignal aes serialize hashType source dest signal (some secret) random =
      .error msg) ↔ secret.cap < 32 ∨ ∃ body, serialize signal = .ok body ∧
        maxAlloc < signalSerHeaderLength + body.length + padReq aesBlockSize body.length := by
  rcases lt_or_le secret.cap 32 with h | h
  · simp only [newECDHProxySignal, proxyCipher_of_lt aes h, h, true_or, iff_true]
    exact ⟨_, rfl⟩
  rw [or_iff_right (not_lt.2 h)]
  rcases hser : serialize signal with e | body
  · simp [newECDHProxySignal, proxyCipher_of_le aes h, serializeSignal, hser]
  by_cases hfit : signalSerHeaderLength + body.length + padReq aesBlockSize body.length ≤ maxAlloc
  · rcases random with e | iv <;>
      simp [newECDHProxySignal, proxyCipher_of_le aes h, serializeSignal_of_fit serialize
        hashType hser hfit, hfit, aesFrame_whole]
    split_ifs <;> simp [hfit]
  · have hpad := (padReq_spec (show (0 : ℤ) < (aesBlockSize : ℕ) by decide) body.length).1
    have hbody := hslice body hser
    have h16 : aesBlockSize = 16 := rfl
    simp only [newECDHProxySignal, proxyCipher_of_le aes h, serializeSignal_of_huge serialize
      hashType hser (not_le.1 hfit) (by simp only [signalSerHeaderLength]; omega),
      Except.ok.injEq, exists_eq_left', not_le.1 hfit, iff_true]
    exact ⟨_, rfl⟩

/-- A secret of 31 bytes makes `NewECDHProxySignal` panic on a one-byte signal. -/
theorem proxy_shortSecret_panics :
    (∃ msg, newECDHProxySignal (fun _ => ⟨List.reverse, List.reverse,
          fun _ h => (List.length_reverse _).trans h, fun _ _ => List.reverse_reverse _⟩)
        (fun _ : Unit => .ok [0x7b]) (fun _ => 0) ⟨[0x61]⟩ ⟨[0x62]⟩ ()
        (some ⟨List.replicate 31 7, []⟩) (.ok (List.replicate 16 1)) = .error msg) ↔
      (⟨List.replicate 31 7, []⟩ : GoSlice).cap < 32 ∨
        ∃ body, (fun _ : Unit => (.ok [0x7b] : Except String (List UInt8))) () = .ok body ∧
          maxAlloc < signalSerHeaderLength + body.length + padReq aesBlockSize body.length :=
  newECDHProxySignal_panics_iff _ (fun _ : Unit => .ok [0x7b]) (fun _ => 0) _ _ () _ _
    fun body h => by cases h; decide

/-- **`ParseECDHProxySignal` panics on a malformed proxy signal.**  Given a secret, it panics
exactly when the secret's capacity is below 32 bytes, when the IV the signal carries is not one
block, or when its data is not whole blocks; it never reports these as errors. -/
theorem parseECDHProxySignal_panics_iff (proxy : ECDHProxySignal) (secret : GoSlice) :
    (∃ msg, parseECDHProxySignal aes signals proxy (some secret) = .error msg) ↔
      secret.cap < 32 ∨ proxy.iv.length ≠ aesBlockSize ∨
        proxy.data.length % aesBlockSize ≠ 0 := by
  rcases lt_or_le secret.cap 32 with h | h
  · simp only [parseECDHProxySignal, proxyCipher_of_lt aes h, h, true_or, iff_true]
    exact ⟨_, rfl⟩
  · simp only [parseECDHProxySignal, proxyCipher_of_le aes h, not_lt.2 h, false_or,
      cryptBlocksPanics, bne_iff_ne]
    by_cases hiv : proxy.iv.length = aesBlockSize
    · by_cases hd : proxy.data.length % aesBlockSize = 0 <;> simp [hiv, hd]
    · simp [hiv]

end

end Graphvent
