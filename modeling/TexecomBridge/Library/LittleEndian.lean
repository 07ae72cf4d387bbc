import Mathlib.Data.UInt
import Mathlib.Tactic

/-!
# Little-endian naturals

`toBytes k n` is the `k`-byte little-endian form of `n`, `ofBytes` reads it back. The two are
inverse on `n < 256 ^ k` and on byte strings of length `k`.
-/

namespace LittleEndian

/-- The lowest `k` bytes of `n`, least significant first. -/
def toBytes : ℕ → ℕ → List UInt8
  | 0, _ => []
  | k + 1, n => UInt8.ofNat n :: toBytes k (n / 256)

/-- The number whose bytes, least significant first, are given. -/
def ofBytes : List UInt8 → ℕ
  | [] => 0
  | b :: bs => b.toNat + 256 * ofBytes bs

@[simp] lemma length_toBytes (k n : ℕ) : (toBytes k n).length = k := by
  induction k generalizing n with
  | zero => rfl
  | succ k ih => simp [toBytes, ih]

lemma ofBytes_toBytes {k n : ℕ} (h : n < 256 ^ k) : ofBytes (toBytes k n) = n := by
  induction k generalizing n with
  | zero => simp at h; simp [toBytes, ofBytes, h]
  | succ k ih =>
    have hdiv : n / 256 < 256 ^ k := by
      rw [pow_succ] at h
      exact Nat.div_lt_of_lt_mul (by omega)
    simp only [toBytes, ofBytes, ih hdiv, UInt8.toNat_ofNat']
    omega

lemma toBytes_ofBytes (bs : List UInt8) : toBytes bs.length (ofBytes bs) = bs := by
  induction bs with
  | nil => rfl
  | cons b bs ih =>
    have hb := b.toNat_lt
    have hdiv : (b.toNat + 256 * ofBytes bs) / 256 = ofBytes bs := by omega
    simp only [List.length_cons, toBytes, ofBytes, hdiv, ih, List.cons.injEq, and_true]
    apply UInt8.toNat_inj.mp
    rw [UInt8.toNat_ofNat']
    omega

lemma ofBytes_append (xs ys : List UInt8) :
    ofBytes (xs ++ ys) = ofBytes xs + 256 ^ xs.length * ofBytes ys := by
  induction xs with
  | nil => simp [ofBytes]
  | cons x xs ih =>
    simp only [List.cons_append, ofBytes, ih, List.length_cons, pow_succ]
    ring

lemma ofBytes_lt (bs : List UInt8) : ofBytes bs < 256 ^ bs.length := by
  induction bs with
  | nil => simp [ofBytes]
  | cons b bs ih =>
    have hb := b.toNat_lt
    simp only [ofBytes, List.length_cons, pow_succ]
    omega

/-- Or-ing in a value above the bits already present adds it. -/
lemma or_shiftLeft {a s : ℕ} (b : ℕ) (h : a < 2 ^ s) : a ||| b <<< s = a + 2 ^ s * b := by
  rw [Nat.or_comm, ← Nat.shiftLeft_add_eq_or_of_lt h, Nat.shiftLeft_eq]
  ring

/-! ### Words -/

/-- `write` and `read` are the `k`-byte little-endian codec of the words `W`. -/
structure IsCodec {W : Type*} (toNat : W → ℕ) (k : ℕ) (write : W → List UInt8)
    (read : List UInt8 → W) : Prop where
  injective : Function.Injective toNat
  toNat_lt : ∀ v, toNat v < 256 ^ k
  write_eq : ∀ v, write v = toBytes k (toNat v)
  toNat_read : ∀ p : List UInt8, k ≤ p.length → toNat (read p) = ofBytes (p.take k)

namespace IsCodec

variable {W : Type*} {toNat : W → ℕ} {k : ℕ} {write : W → List UInt8} {read : List UInt8 → W}

lemma length_write (c : IsCodec toNat k write read) (v : W) : (write v).length = k := by
  rw [c.write_eq, length_toBytes]

/-- A written word is read back, whatever follows it. -/
lemma read_write (c : IsCodec toNat k write read) (v : W) (rest : List UInt8) :
    read (write v ++ rest) = v := by
  apply c.injective
  have hlen := c.length_write v
  rw [c.toNat_read _ (by simp [hlen]), List.take_left' hlen, c.write_eq,
    ofBytes_toBytes (c.toNat_lt v)]

/-- A word that was read is written back as the bytes it came from. -/
lemma write_read (c : IsCodec toNat k write read) {p : List UInt8} (h : k ≤ p.length) :
    write (read p) = p.take k := by
  have hlen : (p.take k).length = k := by simp [h]
  have hback := toBytes_ofBytes (p.take k)
  rw [hlen] at hback
  rw [c.write_eq, c.toNat_read p h, hback]

end IsCodec

end LittleEndian
