import Mathlib.Data.List.Basic
import Mathlib.Tactic.Ring

/-!
# Byte buffers, exact reads and big-endian numbers

A buffer that is cut or padded to a length keeps what it held only until an exact read fills it, so
such a read depends on the length alone (`readExact_resize`). A number written in `k` bytes reads
back modulo `256 ^ k` (`getBE_putBE`).
-/

namespace Bytes

variable {α : Type*}

/-- `v` cut, or padded with `x`, to length `n`. -/
def resize (v : List α) (n : ℕ) (x : α) : List α := v.take n ++ List.replicate (n - v.length) x

@[simp] theorem length_resize (v : List α) (n : ℕ) (x : α) : (resize v n x).length = n := by
  simp only [resize, List.length_append, List.length_take, List.length_replicate]
  omega

/-- The buffer filled from the stream and what is left of it, or nothing at the end of the
stream. -/
def readExact (buff bs : List α) : Option (List α × List α) :=
  if buff.length ≤ bs.length then some (bs.take buff.length, bs.drop buff.length) else none

theorem readExact_resize (v bs : List α) (n : ℕ) (x : α) : readExact (resize v n x) bs
    = if n ≤ bs.length then some (bs.take n, bs.drop n) else none := by
  simp [readExact]

theorem readExact_append {v : List α} {n : ℕ} {x : α} {a : List α} (h : a.length = n)
    (bs : List α) : readExact (resize v n x) (a ++ bs) = some (a, bs) := by
  subst h
  rw [readExact_resize, if_pos (by simp), List.take_left, List.drop_left]

theorem of_readExact {v : List α} {n : ℕ} {x : α} {bs a rest : List α}
    (h : readExact (resize v n x) bs = some (a, rest)) : a.length = n ∧ bs = a ++ rest := by
  rw [readExact_resize] at h
  split_ifs at h with hn
  cases h
  exact ⟨List.length_take_of_le hn, (List.take_append_drop n bs).symm⟩

theorem readExact_short {v : List α} {n : ℕ} {x : α} {bs : List α} (h : bs.length < n) :
    readExact (resize v n x) bs = none := by
  rw [readExact_resize, if_neg (by omega)]

/-- `n` in `k` bytes, the highest first. -/
def putBE : ℕ → ℕ → List UInt8
  | 0, _ => []
  | k + 1, n => UInt8.ofNat (n / 256 ^ k) :: putBE k n

def getBE (bs : List UInt8) : ℕ := bs.foldl (fun acc b => acc * 256 + b.toNat) 0

@[simp] theorem length_putBE (k n : ℕ) : (putBE k n).length = k := by
  induction k with
  | zero => rfl
  | succ k ih => rw [putBE, List.length_cons, ih]

theorem foldl_putBE (k n acc : ℕ) :
    (putBE k n).foldl (fun acc b => acc * 256 + b.toNat) acc = acc * 256 ^ k + n % 256 ^ k := by
  induction k generalizing acc with
  | zero => simp [putBE, Nat.mod_one]
  | succ k ih =>
    have hmod : n % (256 ^ k * 256) = n % 256 ^ k + 256 ^ k * (n / 256 ^ k % 256) := Nat.mod_mul
    have hbyte : (UInt8.ofNat (n / 256 ^ k)).toNat = n / 256 ^ k % 256 := UInt8.toNat_ofNat'
    rw [putBE, List.foldl_cons, ih, hbyte, Nat.pow_succ, hmod]
    ring

theorem getBE_putBE (k n : ℕ) : getBE (putBE k n) = n % 256 ^ k := by
  rw [getBE, foldl_putBE, Nat.zero_mul, Nat.zero_add]

theorem getBE_putBE_of_lt {k n : ℕ} (h : n < 256 ^ k) : getBE (putBE k n) = n := by
  rw [getBE_putBE, Nat.mod_eq_of_lt h]

theorem foldl_getBE (bs : List UInt8) (acc : ℕ) :
    bs.foldl (fun acc b => acc * 256 + b.toNat) acc = acc * 256 ^ bs.length + getBE bs := by
  induction bs generalizing acc with
  | nil => simp [getBE]
  | cons b bs ih =>
    rw [getBE, List.foldl_cons, List.foldl_cons, ih, ih (0 * 256 + b.toNat), List.length_cons,
      Nat.pow_succ]
    ring

theorem getBE_cons (b : UInt8) (bs : List UInt8) :
    getBE (b :: bs) = b.toNat * 256 ^ bs.length + getBE bs := by
  rw [getBE, List.foldl_cons, foldl_getBE, Nat.zero_mul, Nat.zero_add]

theorem getBE_lt (bs : List UInt8) : getBE bs < 256 ^ bs.length := by
  induction bs with
  | nil => simp [getBE]
  | cons b bs ih =>
    have hb : b.toNat + 1 ≤ 256 := b.toNat_lt
    have hmul := Nat.mul_le_mul_right (256 ^ bs.length) hb
    rw [getBE_cons, List.length_cons, Nat.pow_succ]
    rw [Nat.add_mul, Nat.one_mul] at hmul
    omega

theorem putBE_add (k n m : ℕ) : putBE k (m * 256 ^ k + n) = putBE k n := by
  induction k generalizing n m with
  | zero => rfl
  | succ k ih =>
    have hsplit : m * 256 ^ (k + 1) + n = 256 ^ k * (m * 256) + n := by
      rw [Nat.pow_succ]
      ring
    have hlow : m * 256 ^ (k + 1) + n = (m * 256) * 256 ^ k + n := by
      rw [Nat.pow_succ]
      ring
    have hbyte : UInt8.ofNat ((m * 256 ^ (k + 1) + n) / 256 ^ k) = UInt8.ofNat (n / 256 ^ k) := by
      rw [hsplit, Nat.mul_add_div (Nat.pow_pos (by omega))]
      apply UInt8.toNat_inj.1
      simp only [UInt8.toNat_ofNat']
      omega
    rw [putBE, putBE, hbyte, hlow, ih]

/-- Bytes are the number they read as, written in as many bytes. -/
theorem putBE_getBE (bs : List UInt8) : putBE bs.length (getBE bs) = bs := by
  induction bs with
  | nil => rfl
  | cons b bs ih =>
    have hdiv : (b.toNat * 256 ^ bs.length + getBE bs) / 256 ^ bs.length = b.toNat := by
      rw [Nat.mul_comm, Nat.mul_add_div (Nat.pow_pos (by omega)), Nat.div_eq_of_lt (getBE_lt bs),
        Nat.add_zero]
    rw [getBE_cons, List.length_cons, putBE, hdiv, putBE_add, ih, UInt8.ofNat_toNat]

end Bytes
