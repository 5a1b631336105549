import Mathlib.Tactic.Ring
import Mathlib.Tactic.Linarith
import Mathlib.Data.List.Basic
import Mathlib.Data.Nat.Bitwise

/-!
# Fixed-width big-endian numbers

Writing a number in a fixed number of bytes keeps its residue, so that reading
the bytes back returns the number as soon as it fits. Operations on the single
bytes are operations on the numbers.
-/

namespace Rune.Core

/-- A string of bytes. -/
abbrev Bytes := List UInt8

/-- The `w` low-order bytes of `n`, the most significant first. -/
def putUint : ℕ → ℕ → Bytes
  | 0, _ => []
  | w + 1, n => UInt8.ofNat (n / 256 ^ w) :: putUint w n

/-- The number that big-endian bytes stand for. -/
def getUint (bs : Bytes) : ℕ := bs.foldl (fun n b => n * 256 + b.toNat) 0

@[simp] theorem length_putUint (w n : ℕ) : (putUint w n).length = w := by
  induction w with
  | zero => rfl
  | succ w ih => rw [putUint, List.length_cons, ih]

/-- Reading on from `k` shifts it past the written bytes. -/
theorem foldl_putUint (w n k : ℕ) :
    (putUint w n).foldl (fun m b => m * 256 + b.toNat) k = k * 256 ^ w + n % 256 ^ w := by
  induction w generalizing k with
  | zero => simp [putUint, Nat.mod_one]
  | succ w ih =>
    have hbyte : (UInt8.ofNat (n / 256 ^ w)).toNat = n / 256 ^ w % 256 := UInt8.toNat_ofNat'
    have hsplit : n % 256 ^ (w + 1) = n % 256 ^ w + 256 ^ w * (n / 256 ^ w % 256) := by
      rw [pow_succ, Nat.mod_mul]
    rw [putUint, List.foldl_cons, ih, hbyte, hsplit]
    ring

/-- Reading back what was written. -/
theorem getUint_putUint (w n : ℕ) : getUint (putUint w n) = n % 256 ^ w := by
  rw [getUint, foldl_putUint, Nat.zero_mul, Nat.zero_add]

theorem getUint_cons (b : UInt8) (bs : Bytes) :
    getUint (b :: bs) = b.toNat * 256 ^ bs.length + getUint bs := by
  have hshift : ∀ (l : Bytes) (k : ℕ),
      l.foldl (fun n b => n * 256 + b.toNat) k = k * 256 ^ l.length + getUint l := by
    intro l
    induction l with
    | nil => simp [getUint]
    | cons c l ih =>
      intro k
      rw [getUint, List.foldl_cons, List.foldl_cons, ih, ih, List.length_cons]
      ring
  rw [getUint, List.foldl_cons, hshift, Nat.zero_add]

theorem getUint_lt (bs : Bytes) : getUint bs < 256 ^ bs.length := by
  induction bs with
  | nil => simp [getUint]
  | cons b bs ih =>
    have hb : b.toNat < 256 := b.toNat_lt
    rw [getUint_cons, List.length_cons, pow_succ]
    nlinarith

/-- Bytes of one length are determined by their number. -/
theorem getUint_inj {as bs : Bytes} (hlen : as.length = bs.length)
    (h : getUint as = getUint bs) : as = bs := by
  induction as generalizing bs with
  | nil => exact (List.length_eq_zero_iff.mp hlen.symm).symm
  | cons a as ih =>
    cases bs with
    | nil => simp at hlen
    | cons b bs =>
      have hl : as.length = bs.length := by simpa using hlen
      have ha : getUint as < 256 ^ bs.length := hl ▸ getUint_lt as
      have hb := getUint_lt bs
      rw [getUint_cons, getUint_cons, hl] at h
      have hlow : getUint as = getUint bs := by
        have := congrArg (· % 256 ^ bs.length) h
        simpa only [Nat.mul_add_mod_of_lt ha, Nat.mul_add_mod_of_lt hb] using this
      rw [hlow, Nat.add_right_cancel_iff] at h
      rw [ih hl hlow, UInt8.toNat_inj.mp (Nat.eq_of_mul_eq_mul_right (by positivity) h)]

/-- Writing back what was read. -/
theorem putUint_getUint (bs : Bytes) : putUint bs.length (getUint bs) = bs := by
  apply getUint_inj (length_putUint _ _)
  rw [getUint_putUint, Nat.mod_eq_of_lt (getUint_lt bs)]

/-- A bitwise operation, byte by byte, is that operation on the numbers. -/
theorem getUint_zipWith {f : UInt8 → UInt8 → UInt8} {g : ℕ → ℕ → ℕ} {c : Bool → Bool → Bool}
    (hf : ∀ a b, (f a b).toNat = g a.toNat b.toNat)
    (hg : ∀ x y i, (g x y).testBit i = c (x.testBit i) (y.testBit i))
    {as bs : Bytes} (hlen : as.length = bs.length) (hzero : g 0 0 = 0) :
    getUint (List.zipWith f as bs) = g (getUint as) (getUint bs) := by
  induction as generalizing bs with
  | nil =>
    rw [List.length_eq_zero_iff.mp hlen.symm]
    simp [getUint, hzero]
  | cons a as ih =>
    cases bs with
    | nil => simp at hlen
    | cons b bs =>
      have hl : as.length = bs.length := by simpa using hlen
      have hpow : ∀ l : Bytes, (256 : ℕ) ^ l.length = 2 ^ (8 * l.length) := fun l => by
        rw [pow_mul]
        rfl
      have hz : (List.zipWith f as bs).length = bs.length := by simp [hl]
      have hbits : ∀ (x : UInt8) (l : Bytes) (i : ℕ), l.length = bs.length →
          (getUint (x :: l)).testBit i =
            if i < 8 * bs.length then (getUint l).testBit i
            else x.toNat.testBit (i - 8 * bs.length) := by
        intro x l i hlen
        have hlt := getUint_lt l
        rw [hpow, hlen] at hlt
        rw [getUint_cons, hpow, hlen, Nat.mul_comm, Nat.testBit_two_pow_mul_add _ hlt]
      refine Nat.eq_of_testBit_eq fun i => ?_
      rw [List.zipWith_cons_cons, hg, hbits _ _ i hz, hbits _ _ i hl, hbits _ _ i rfl, ih hl, hf]
      split <;> rw [hg]

/-- The complement. -/
theorem getUint_map_not (bs : Bytes) :
    getUint (bs.map (~~~ ·)) + getUint bs = 256 ^ bs.length - 1 := by
  induction bs with
  | nil => rfl
  | cons b bs ih =>
    have hb : (~~~b).toNat = 255 - b.toNat := UInt8.toNat_not b
    have hlt : b.toNat < 256 := b.toNat_lt
    rw [List.map_cons, getUint_cons, getUint_cons, hb, List.length_map, List.length_cons]
    have hsum : (255 - b.toNat) * 256 ^ bs.length + b.toNat * 256 ^ bs.length =
        255 * 256 ^ bs.length := by
      rw [← Nat.add_mul]
      congr 1
      omega
    omega

end Rune.Core
