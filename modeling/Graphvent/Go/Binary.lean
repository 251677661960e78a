import Mathlib.Data.Nat.Defs
import Mathlib.Data.List.Basic
import Mathlib.Tactic.Ring

/-!
# `encoding/binary` and the integer conversions of Go

The signal frame, the database header and the serialized values all write their integers with
`binary.BigEndian`.  `putBE w v` is `PutUint32`/`PutUint64` (`w` = 4 or 8) and `getBE` is
`Uint32`/`Uint64`; `goInt` is the conversion `int(v)` of a `uint64`, and `hex` is `fmt`'s `%x`.

* `getBE_putBE`: reading back what was written gives the number modulo `256 ^ w`;
* `putBE_getBE`: writing back what was read gives the bytes.

Bytes are `UInt8`.
-/

namespace Graphvent

/-- `binary.BigEndian.PutUint32`/`PutUint64`: the `w` low bytes of `v`, most significant
first. -/
def putBE : ℕ → ℕ → List UInt8
  | 0, _ => []
  | w + 1, v => UInt8.ofNat (v / 256 ^ w) :: putBE w v

/-- `binary.BigEndian.Uint32`/`Uint64`: the number the bytes spell, most significant first. -/
def getBE (bytes : List UInt8) : ℕ := bytes.foldl (fun acc b => acc * 256 + b.toNat) 0

@[simp] theorem length_putBE (w v : ℕ) : (putBE w v).length = w := by
  induction w <;> simp [putBE, *]

theorem toNat_ofNat_uint8 (n : ℕ) : (UInt8.ofNat n).toNat = n % 256 := by
  simp [UInt8.toNat, UInt8.ofNat, BitVec.toNat_ofNat]

theorem foldl_getBE (a : ℕ) (l : List UInt8) :
    l.foldl (fun acc b => acc * 256 + b.toNat) a = a * 256 ^ l.length + getBE l := by
  induction l generalizing a with
  | nil => simp [getBE]
  | cons b l ih =>
    simp only [List.foldl_cons, getBE, List.length_cons, ih (a * 256 + b.toNat),
      ih (0 * 256 + b.toNat)]
    ring

theorem getBE_cons (b : UInt8) (l : List UInt8) :
    getBE (b :: l) = b.toNat * 256 ^ l.length + getBE l := by
  rw [getBE, List.foldl_cons, foldl_getBE]
  simp

@[simp] theorem getBE_putBE (w v : ℕ) : getBE (putBE w v) = v % 256 ^ w := by
  induction w with
  | zero => simp [putBE, getBE, Nat.mod_one]
  | succ w ih =>
    rw [putBE, getBE_cons, ih, length_putBE, toNat_ofNat_uint8, Nat.mod_pow_succ]
    ring

theorem getBE_lt : ∀ l : List UInt8, getBE l < 256 ^ l.length
  | [] => by simp [getBE]
  | b :: l => by
    have hb : b.toNat + 1 ≤ 256 := UInt8.toNat_lt_size b
    calc getBE (b :: l) = b.toNat * 256 ^ l.length + getBE l := getBE_cons b l
      _ < (b.toNat + 1) * 256 ^ l.length := by
        rw [Nat.succ_mul]
        exact Nat.add_lt_add_left (getBE_lt l) _
      _ ≤ 256 * 256 ^ l.length := Nat.mul_le_mul_right _ hb
      _ = 256 ^ (b :: l).length := by rw [List.length_cons, pow_succ, Nat.mul_comm]

theorem putBE_add_mul : ∀ w a v : ℕ, putBE w (a * 256 ^ w + v) = putBE w v
  | 0, _, _ => rfl
  | w + 1, a, v => by
    have hd : (a * 256 * 256 ^ w + v) / 256 ^ w = v / 256 ^ w + a * 256 := by
      rw [Nat.add_comm, Nat.add_mul_div_right _ _ (Nat.pos_pow_of_pos _ (by norm_num))]
    rw [show a * 256 ^ (w + 1) + v = a * 256 * 256 ^ w + v by ring, putBE, putBE, hd,
      putBE_add_mul w]
    congr 1
    exact UInt8.toNat.inj (by simp [toNat_ofNat_uint8])

theorem putBE_getBE : ∀ l : List UInt8, putBE l.length (getBE l) = l
  | [] => rfl
  | b :: l => by
    have hd : (b.toNat * 256 ^ l.length + getBE l) / 256 ^ l.length = b.toNat := by
      rw [Nat.add_comm, Nat.add_mul_div_right _ _ (Nat.pos_pow_of_pos _ (by norm_num)),
        Nat.div_eq_of_lt (getBE_lt l), Nat.zero_add]
    rw [List.length_cons, putBE, getBE_cons, putBE_add_mul, putBE_getBE l, hd]
    congr 1
    exact UInt8.toNat.inj (by simp [toNat_ofNat_uint8, Nat.mod_eq_of_lt (UInt8.toNat_lt_size b)])

@[simp] theorem take_putBE_append (w v : ℕ) (rest : List UInt8) :
    (putBE w v ++ rest).take w = putBE w v :=
  List.take_left' (length_putBE w v)

@[simp] theorem drop_putBE_append (w v : ℕ) (rest : List UInt8) :
    (putBE w v ++ rest).drop w = rest :=
  List.drop_left' (length_putBE w v)

theorem uint64_ofNat_toNat (h : UInt64) : UInt64.ofNat h.toNat = h := by
  apply UInt64.eq_of_toBitVec_eq
  simp [UInt64.ofNat, UInt64.toNat]

/-- `int(v)` for a `uint64` `v`: the bits read as a signed 64-bit integer. -/
def goInt (v : ℕ) : ℤ := if v < 2 ^ 63 then v else v - 2 ^ 64

/-- `fmt`'s `%x`: lower-case hexadecimal digits. -/
def hex (n : ℕ) : String := String.mk (Nat.toDigits 16 n)

end Graphvent
