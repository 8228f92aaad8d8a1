import Mathlib.Algebra.Order.Ring.Nat
import Mathlib.Data.Nat.Log
import Mathlib.Tactic.IntervalCases
import Mathlib.Tactic.NormNum
import Mathlib.Tactic.Ring

/-!
# Rounding to binary64

Non-negative binary64 values between `2 ^ -30` and `2 ^ 35`, as integer multiples
of `unit = 2 ^ -82`, the last place of the smallest of them. `round num den` is
`num / den` rounded to 53 significant bits, ties to even.

`seconds ns` is the sum `float64(ns / 1e9) + float64(ns % 1e9) / 1e9`, each
operation rounded, and `wholeSeconds` its integer part. The roundings never drop a
second, but they can carry into the next one: `wholeSeconds_eq` says when
(`RoundsUp`).
-/

namespace Binary64

/-- The integer nearest to `a / b`, ties to even. -/
def nearest (a b : Nat) : Nat :=
  if 2 * (a % b) < b then a / b
  else if b < 2 * (a % b) then a / b + 1
  else if a / b % 2 = 0 then a / b
  else a / b + 1

/-- One, in units of the last place. -/
def one : Nat := 2 ^ 82

/-- The number of low bits that 53 significant bits leave out. -/
def dropped (num den : Nat) : Nat := Nat.log2 (num * one / den) - 52

def round (num den : Nat) : Nat :=
  nearest (num * one) (den * 2 ^ dropped num den) * 2 ^ dropped num den

def seconds (ns : Nat) : Nat :=
  round (ns / 10 ^ 9 * one + round (ns % 10 ^ 9) (10 ^ 9)) one

/-- The integer part of `seconds`. -/
def wholeSeconds (ns : Nat) : Nat := seconds ns / one

/-- Whether `seconds` carries into the next second: the duration is closer to it than
half of a last place, which is `2 ^ (k - 53)` from `2 ^ k` seconds on. -/
def RoundsUp (ns : Nat) : Prop :=
  (10 ^ 9 - ns % 10 ^ 9) * 2 ^ (53 - Nat.log2 (ns / 10 ^ 9)) < 10 ^ 9

instance (ns : Nat) : Decidable (RoundsUp ns) := inferInstanceAs (Decidable (_ < _))

/-! ## The nearest integer -/

theorem le_nearest (a b : Nat) : a / b ≤ nearest a b := by
  unfold nearest
  split <;> [rfl; split <;> [omega; split <;> omega]]

theorem nearest_le (a b : Nat) : nearest a b ≤ a / b + 1 := by
  unfold nearest
  split <;> [omega; split <;> [rfl; split <;> omega]]

theorem nearest_mul (a b : Nat) {c : Nat} (hc : 0 < c) :
    nearest (a * c) (b * c) = nearest a b := by
  unfold nearest
  rw [Nat.mul_div_mul_right _ _ hc, Nat.mul_mod_mul_right, ← Nat.mul_assoc]
  simp only [Nat.mul_lt_mul_right hc]

theorem nearest_le_of_le {a b k : Nat} (hb : 0 < b) (h : a ≤ k * b) : nearest a b ≤ k := by
  have hdiv : a / b ≤ k := Nat.div_le_of_le_mul (by rwa [Nat.mul_comm])
  rcases Nat.lt_or_eq_of_le hdiv with hlt | rfl
  · exact Nat.le_trans (nearest_le a b) hlt
  · have hmod : a % b = 0 := by
      have := Nat.div_add_mod' a b
      omega
    unfold nearest
    rw [hmod, Nat.mul_zero, if_pos hb]

theorem nearest_eq_iff {a b k : Nat} (hb : 0 < b) (heven : k % 2 = 0) (hlt : a < k * b) :
    nearest a b = k ↔ 2 * (k * b) ≤ 2 * a + b := by
  have hdm := Nat.div_add_mod' a b
  have hmod := Nat.mod_lt a hb
  have hdiv : a / b < k := (Nat.div_lt_iff_lt_mul hb).mpr hlt
  rcases Nat.lt_or_eq_of_le (show a / b + 1 ≤ k from hdiv) with hfar | rfl
  · have hle : (a / b + 1 + 1) * b ≤ k * b := Nat.mul_le_mul_right b hfar
    rw [Nat.add_mul, Nat.add_mul, Nat.one_mul] at hle
    have := nearest_le a b
    constructor <;> omega
  · rw [Nat.add_mul, Nat.one_mul]
    unfold nearest
    split
    · omega
    · split
      · omega
      · split <;> omega

/-! ## Rounding -/

theorem one_pos : 0 < one := by
  unfold one
  positivity

theorem round_one (n : Nat) :
    round n one = nearest n (2 ^ dropped n one) * 2 ^ dropped n one := by
  unfold round
  rw [Nat.mul_comm one, nearest_mul _ _ one_pos]

theorem round_le (num den : Nat) :
    round num den ≤ num * one / den + 2 ^ dropped num den := by
  unfold round
  calc nearest (num * one) (den * 2 ^ dropped num den) * 2 ^ dropped num den
      ≤ (num * one / (den * 2 ^ dropped num den) + 1) * 2 ^ dropped num den :=
        Nat.mul_le_mul_right _ (nearest_le _ _)
    _ = num * one / den / 2 ^ dropped num den * 2 ^ dropped num den + 2 ^ dropped num den := by
        rw [Nat.add_mul, Nat.one_mul, Nat.div_div_eq_div_mul]
    _ ≤ num * one / den + 2 ^ dropped num den :=
        Nat.add_le_add_right (Nat.div_mul_le_self _ _) _

theorem le_round_add (num den : Nat) : num * one / den ≤ round num den + 2 ^ dropped num den := by
  have hle := Nat.mul_le_mul_right (2 ^ dropped num den)
    (le_nearest (num * one) (den * 2 ^ dropped num den))
  rw [← Nat.div_div_eq_div_mul] at hle
  have hlt := Nat.lt_div_mul_add (a := num * one / den) (Nat.two_pow_pos (dropped num den))
  unfold round
  omega

theorem dropped_le {num den k : Nat} (h : num * one / den < 2 ^ (k + 53)) :
    dropped num den ≤ k := by
  unfold dropped
  rcases Nat.eq_zero_or_pos (num * one / den) with h0 | h0
  · simp [h0]
  · have := (Nat.log2_lt (by omega)).mpr h
    omega

/-! ## The fraction of a second -/

/-- Whether a fraction is within half of a last place of the next second is decided
before it is rounded: nanoseconds are not as close to that border as the rounding
could move them. -/
theorem one_le_round_iff {n k : Nat} (hn : n < 10 ^ 9) (hk : k ≤ 33) :
    one ≤ round n (10 ^ 9) + 2 ^ (k + 29) ↔ (10 ^ 9 - n) * 2 ^ (53 - k) < 10 ^ 9 := by
  have hd : 2 ^ dropped n (10 ^ 9) ≤ 2 ^ 29 := by
    refine Nat.pow_le_pow_right (by norm_num) (dropped_le ?_)
    unfold one
    omega
  have hup := round_le n (10 ^ 9)
  have hlow := le_round_add n (10 ^ 9)
  generalize round n (10 ^ 9) = r at *
  generalize 2 ^ dropped n (10 ^ 9) = u at *
  unfold one at *
  interval_cases k <;> omega

theorem round_fraction_lt {n : Nat} (h : n < 10 ^ 9) : round n (10 ^ 9) + 2 ^ 29 < one := by
  refine Nat.lt_of_not_le fun hle => ?_
  have := (one_le_round_iff (k := 0) h (Nat.zero_le _)).mp hle
  omega

/-! ## The sum -/

theorem round_lt_one {f : Nat} (h : f + 2 ^ 29 < one) : round f one < one := by
  have hle := round_le f one
  rw [Nat.mul_div_cancel _ one_pos] at hle
  have hd : 2 ^ dropped f one ≤ 2 ^ 29 := by
    refine Nat.pow_le_pow_right (by norm_num) (dropped_le ?_)
    rw [Nat.mul_div_cancel _ one_pos]
    exact Nat.lt_of_le_of_lt (Nat.le_add_right _ _) h
  omega

section Sum

variable {s f : Nat} (hs : s ≠ 0) (hf : f < one)
include hs hf

theorem dropped_of_seconds : dropped (s * one + f) one = Nat.log2 s + 30 := by
  have hlow := Nat.mul_le_mul_right one (Nat.log2_self_le hs)
  have hhigh := Nat.mul_le_mul_right one (Nat.succ_le_of_lt (Nat.lt_log2_self (n := s)))
  have hsum : s * one + f ≠ 0 := by
    have := Nat.mul_pos (Nat.pos_of_ne_zero hs) one_pos
    omega
  have hpow : ∀ j, 2 ^ (j + 82) = 2 ^ j * one := fun j => pow_add 2 j 82
  have hlog : Nat.log2 (s * one + f) = Nat.log2 s + 82 := by
    rw [Nat.log2_eq_iff hsum, Nat.add_right_comm, hpow, hpow]
    rw [Nat.succ_mul] at hhigh
    omega
  unfold dropped
  rw [Nat.mul_div_cancel _ one_pos, hlog]
  omega

/-- The sum rounds to a multiple of its last place between `s` and `s + 1`, and to
`s + 1` itself if it is closer to it than half of a last place. -/
theorem round_seconds (hlog : Nat.log2 s ≤ 33) :
    s * one ≤ round (s * one + f) one ∧ round (s * one + f) one ≤ (s + 1) * one ∧
      (round (s * one + f) one = (s + 1) * one ↔ one ≤ f + 2 ^ (Nat.log2 s + 29)) := by
  have hu : 0 < 2 ^ (Nat.log2 s + 30) := Nat.two_pow_pos _
  have hsplit : ∀ n, n * one = n * 2 ^ (52 - Nat.log2 s) * 2 ^ (Nat.log2 s + 30) := by
    intro n
    rw [Nat.mul_assoc, ← pow_add, show 52 - Nat.log2 s + (Nat.log2 s + 30) = 82 by omega, one]
  have heven : (s + 1) * 2 ^ (52 - Nat.log2 s) % 2 = 0 := by
    rw [show 52 - Nat.log2 s = 51 - Nat.log2 s + 1 by omega, pow_succ, ← Nat.mul_assoc,
      Nat.mul_mod_left]
  have hnext : (s + 1) * one = s * one + one := Nat.succ_mul s one
  have hhalf : 2 ^ (Nat.log2 s + 30) = 2 * 2 ^ (Nat.log2 s + 29) := pow_succ' 2 _
  rw [round_one, dropped_of_seconds hs hf]
  refine ⟨?_, ?_, ?_⟩
  · rw [hsplit s]
    refine Nat.mul_le_mul_right _ (Nat.le_trans ?_ (le_nearest _ _))
    rw [Nat.le_div_iff_mul_le hu]
    exact Nat.le_add_right _ _
  · rw [hsplit (s + 1)]
    refine Nat.mul_le_mul_right _ (nearest_le_of_le hu ?_)
    rw [← hsplit, hnext]
    omega
  · have hlt : s * one + f < (s + 1) * 2 ^ (52 - Nat.log2 s) * 2 ^ (Nat.log2 s + 30) := by
      rw [← hsplit, hnext]
      omega
    have hnear := nearest_eq_iff hu heven hlt
    rw [← hsplit, hnext] at hnear
    rw [hsplit (s + 1), Nat.mul_left_inj hu.ne', hnear]
    omega

end Sum

theorem wholeSeconds_eq {ns : Nat} (h : ns < 2 ^ 63) :
    wholeSeconds ns = ns / 10 ^ 9 + if RoundsUp ns then 1 else 0 := by
  have hmod : ns % 10 ^ 9 < 10 ^ 9 := Nat.mod_lt _ (by norm_num)
  have hfrac := round_fraction_lt hmod
  unfold wholeSeconds seconds
  rcases Nat.eq_zero_or_pos (ns / 10 ^ 9) with h0 | hpos
  · have hdown : ¬RoundsUp ns := by
      unfold RoundsUp
      rw [h0]
      simp only [Nat.log2_zero]
      omega
    rw [h0, if_neg hdown, Nat.zero_mul, Nat.zero_add]
    exact Nat.div_eq_of_lt (round_lt_one hfrac)
  · have hlog : Nat.log2 (ns / 10 ^ 9) ≤ 33 := by
      refine Nat.lt_succ_iff.mp ((Nat.log2_lt hpos.ne').mpr ?_)
      omega
    obtain ⟨hlow, hup, hcarry⟩ := round_seconds hpos.ne' (f := round (ns % 10 ^ 9) (10 ^ 9))
      (by omega) hlog
    rw [one_le_round_iff hmod hlog] at hcarry
    by_cases hr : RoundsUp ns
    · rw [if_pos hr, hcarry.mpr hr, Nat.mul_div_cancel _ one_pos]
    · rw [if_neg hr, Nat.add_zero]
      refine Nat.div_eq_of_lt_le hlow (Nat.lt_of_le_of_ne hup fun heq => hr (hcarry.mp heq))

/-- A carry: 16777216.999999999 s is read as 16777217 s. -/
example : wholeSeconds 16777216999999999 = 16777217 := by decide +kernel

end Binary64
