import Mathlib.Data.List.Basic
import Mathlib.Tactic.IntervalCases

/-!
# Bit prefixes of byte strings

A byte string is read as a string of bits, most significant bit of the first
byte first. `keepBits n bs` keeps the first `n` bits of `bs` and clears the
others. `clearBit k bs` clears the bit at position `k` in place; clearing the
last kept bit shortens the prefix by one (`clearBit_keepBits`), so clearing one
bit after the other visits every shorter prefix.

`mask n w` is the `w`-byte mask with `n` leading ones, and `andBytes` is the
bytewise conjunction, which with a mask is `keepBits` (`andBytes_mask`).
-/

namespace BitPrefix

/-- A byte with its first `k` bits set (`k ≤ 8`). -/
def topOnes (k : Nat) : UInt8 := UInt8.ofNat (256 - 2 ^ (8 - k))

def keepBits : Nat → List UInt8 → List UInt8
  | _, [] => []
  | n, b :: bs => (b &&& topOnes (min n 8)) :: keepBits (n - 8) bs

/-- Clears the bit at position `k`. -/
def clearBit (k : Nat) (bs : List UInt8) : List UInt8 :=
  bs.modify (k / 8) fun b => b &&& ~~~(1 <<< UInt8.ofNat (7 - k % 8))

/-- The `w`-byte mask with `n` leading ones. -/
def mask (n w : Nat) : List UInt8 := keepBits n (List.replicate w 0xff)

def andBytes (xs ys : List UInt8) : List UInt8 := xs.zipWith (· &&& ·) ys

/-! ## Bytes -/

theorem topOnes_and_topOnes {i j : Nat} (hi : i ≤ 8) (hj : j ≤ 8) :
    topOnes i &&& topOnes j = topOnes (min i j) := by
  interval_cases i <;> interval_cases j <;> decide

theorem topOnes_clear {k : Nat} (hk : k < 8) :
    topOnes (k + 1) &&& ~~~(1 <<< UInt8.ofNat (7 - k)) = topOnes k := by
  interval_cases k <;> decide

@[simp] theorem and_topOnes_zero (b : UInt8) : b &&& topOnes 0 = 0 := by
  rw [show topOnes 0 = 0 from rfl, UInt8.and_zero]

@[simp] theorem and_topOnes_eight (b : UInt8) : b &&& topOnes 8 = b := by
  rw [show topOnes 8 = -1 from rfl, UInt8.and_neg_one]

/-! ## Changing a byte of a concatenation -/

theorem modify_append_left {xs : List UInt8} {i : Nat} (h : i < xs.length) (ys : List UInt8)
    (f : UInt8 → UInt8) : (xs ++ ys).modify i f = xs.modify i f ++ ys := by
  induction xs generalizing i with
  | nil => simp at h
  | cons x xs ih =>
    cases i with
    | zero => rfl
    | succ i => simp [ih (by simpa using h)]

theorem modify_append_right (xs ys : List UInt8) (i : Nat) (f : UInt8 → UInt8) :
    (xs ++ ys).modify (xs.length + i) f = xs ++ ys.modify i f :=
  List.modifyTailIdx_add _ i xs ys

/-! ## Prefixes -/

@[simp] theorem length_keepBits (n : Nat) (bs : List UInt8) :
    (keepBits n bs).length = bs.length := by
  induction bs generalizing n with
  | nil => rfl
  | cons b bs ih => simp [keepBits, ih]

theorem keepBits_zero (bs : List UInt8) : keepBits 0 bs = List.replicate bs.length 0 := by
  induction bs with
  | nil => rfl
  | cons b bs ih => simp [keepBits, ih, List.replicate_succ]

theorem keepBits_of_le {n : Nat} {bs : List UInt8} (h : 8 * bs.length ≤ n) :
    keepBits n bs = bs := by
  induction bs generalizing n with
  | nil => rfl
  | cons b bs ih =>
    rw [List.length_cons] at h
    rw [keepBits, Nat.min_eq_right (by omega), and_topOnes_eight, ih (by omega)]

theorem keepBits_keepBits (m n : Nat) (bs : List UInt8) :
    keepBits m (keepBits n bs) = keepBits (min m n) bs := by
  induction bs generalizing m n with
  | nil => rfl
  | cons b bs ih =>
    simp only [keepBits, List.cons.injEq]
    constructor
    · rw [UInt8.and_assoc, topOnes_and_topOnes (Nat.min_le_right _ _) (Nat.min_le_right _ _)]
      congr 2
      omega
    · rw [ih]
      congr 1
      omega

theorem keepBits_append (n : Nat) (xs ys : List UInt8) :
    keepBits n (xs ++ ys) = keepBits n xs ++ keepBits (n - 8 * xs.length) ys := by
  induction xs generalizing n with
  | nil => simp [keepBits]
  | cons x xs ih =>
    simp only [List.cons_append, keepBits, ih, List.length_cons]
    congr 3
    omega

theorem keepBits_append_of_le {n : Nat} {xs : List UInt8} (h : n ≤ 8 * xs.length)
    (ys : List UInt8) :
    keepBits n (xs ++ ys) = keepBits n xs ++ List.replicate ys.length 0 := by
  rw [keepBits_append, Nat.sub_eq_zero_of_le h, keepBits_zero]

/-- Clearing the last kept bit shortens the prefix by one. -/
theorem clearBit_keepBits {m : Nat} {bs : List UInt8} (h : m < 8 * bs.length) :
    clearBit m (keepBits (m + 1) bs) = keepBits m bs := by
  induction bs generalizing m with
  | nil => simp at h
  | cons b bs ih =>
    rw [List.length_cons] at h
    by_cases hm : m < 8
    · -- The bit is in the first byte, and both sides keep nothing after it.
      have hrest : m + 1 - 8 = m - 8 := by omega
      rw [clearBit, keepBits, keepBits, Nat.div_eq_of_lt hm, Nat.mod_eq_of_lt hm,
        Nat.min_eq_left (by omega), Nat.min_eq_left (by omega), hrest, List.modify_zero_cons,
        UInt8.and_assoc, topOnes_clear hm]
    · have hdiv : m / 8 = (m - 8) / 8 + 1 := by omega
      have hmod : m % 8 = (m - 8) % 8 := by omega
      have hstep := ih (m := m - 8) (by omega)
      rw [clearBit] at hstep
      rw [clearBit, keepBits, keepBits, Nat.min_eq_right (by omega), Nat.min_eq_right (by omega),
        hdiv, hmod, List.modify_succ_cons, show m + 1 - 8 = m - 8 + 1 by omega, hstep]

/-! ## Masks -/

@[simp] theorem length_mask (n w : Nat) : (mask n w).length = w := by
  simp [mask]

theorem andBytes_mask {n w : Nat} {bs : List UInt8} (h : bs.length = w) :
    andBytes bs (mask n w) = keepBits n bs := by
  subst h
  induction bs generalizing n with
  | nil => rfl
  | cons b bs ih =>
    have ih' := ih (n := n - 8)
    rw [mask, andBytes] at ih'
    rw [mask, andBytes, List.length_cons, List.replicate_succ, keepBits, keepBits,
      List.zipWith_cons_cons, ih']
    congr 1
    rw [show (0xff : UInt8) = -1 from rfl, UInt8.neg_one_and]

end BitPrefix
