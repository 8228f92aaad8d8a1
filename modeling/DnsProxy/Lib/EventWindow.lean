import Mathlib.Data.List.Basic
import Mathlib.Data.List.Induction

/-!
# Events in a sliding window

Events that happen at natural times, and how many of them lie in a window of a given length.
The events are listed newest first, as they were admitted by a limiter.

* `Spread.bounded`: if each event is a window's length after the `n`-th one before it, no
  window has more than `n` of them.
* `Bounded.append`: two groups of events with a window's length between them.
* `attempts`: the events that a limiter admits, one attempt after the other.
* `Log`: a limiter that keeps the last `n` events it admitted, with its bound
  (`Log.bounded_attempts`).
-/

namespace EventWindow

variable {d n : Nat}

/-- The number of events from `w` on and before `w + d`. -/
def count (d w : Nat) (l : List Nat) : Nat := l.countP fun t => decide (w ≤ t ∧ t < w + d)

/-- No window of length `d` has more than `n` events. -/
def Bounded (d n : Nat) (l : List Nat) : Prop := ∀ w, count d w l ≤ n

theorem count_append (d w : Nat) (l m : List Nat) :
    count d w (l ++ m) = count d w l + count d w m := List.countP_append

theorem count_eq_zero {w : Nat} {l : List Nat} :
    count d w l = 0 ↔ ∀ t ∈ l, ¬(w ≤ t ∧ t < w + d) := by
  simp only [count, List.countP_eq_zero, decide_eq_true_eq]

theorem count_cons_of_mem {w t : Nat} (h : w ≤ t ∧ t < w + d) (l : List Nat) :
    count d w (t :: l) = count d w l + 1 := by
  rw [count, List.countP_cons_of_pos (by simpa using h)]
  rfl

theorem count_cons_of_not_mem {w t : Nat} (h : ¬(w ≤ t ∧ t < w + d)) (l : List Nat) :
    count d w (t :: l) = count d w l := by
  rw [count, List.countP_cons_of_neg (by simpa using h)]
  rfl

theorem Bounded.nil (d n : Nat) : Bounded d n [] := fun _ => Nat.zero_le _

theorem not_lt_of_far {x t w : Nat} (hfar : x + d ≤ t) (hx : w ≤ x) : ¬t < w + d :=
  Nat.not_lt.mpr (Nat.le_trans (Nat.add_le_add_right hx d) hfar)

/-- Each event is at least `d` after the `n`-th one before it, and after those before that. -/
def Spread (d n : Nat) : List Nat → Prop
  | [] => True
  | t :: older => (∀ x ∈ older.drop (n - 1), x + d ≤ t) ∧ Spread d n older

theorem Spread.bounded (hn : 0 < n) {l : List Nat} (h : Spread d n l) : Bounded d n l := by
  intro w
  induction l with
  | nil => exact Nat.zero_le _
  | cons t older ih =>
    obtain ⟨hfar, holder⟩ := h
    by_cases ht : w ≤ t ∧ t < w + d
    · -- an event of the window before `t` is one of the last `n - 1`
      have hdrop : count d w (older.drop (n - 1)) = 0 :=
        count_eq_zero.mpr fun x hx hxw => not_lt_of_far (hfar x hx) hxw.1 ht.2
      have htake : count d w (older.take (n - 1)) ≤ n - 1 :=
        Nat.le_trans List.countP_le_length (List.length_take_le _ _)
      have hsplit := count_append d w (older.take (n - 1)) (older.drop (n - 1))
      rw [List.take_append_drop, hdrop, Nat.add_zero] at hsplit
      rw [count_cons_of_mem ht, hsplit]
      exact Nat.add_le_of_le_sub hn htake
    · rw [count_cons_of_not_mem ht]
      exact ih holder

/-- If a window's length lies between the older events and the newer ones, no window has events
of both. -/
theorem Bounded.append {new old : List Nat} (hnew : Bounded d n new) (hold : Bounded d n old)
    (h : ∀ x ∈ old, ∀ y ∈ new, x + d ≤ y) : Bounded d n (new ++ old) := by
  intro w
  rw [count_append]
  by_cases hw : ∃ x ∈ old, w ≤ x ∧ x < w + d
  · obtain ⟨x, hx, hwx, -⟩ := hw
    have hzero : count d w new = 0 :=
      count_eq_zero.mpr fun y hy hyw => not_lt_of_far (h x hx y hy) hwx hyw.2
    rw [hzero, Nat.zero_add]
    exact hold w
  · have hzero : count d w old = 0 := count_eq_zero.mpr fun x hx hxw => hw ⟨x, hx, hxw⟩
    rw [hzero, Nat.add_zero]
    exact hnew w

/-! ## Limiters -/

section Limiter

variable {R : Type} (attempt : R → Nat → Bool × R)

/-- An attempt, with the admitted events before it. -/
def attemptOne (x : R × List Nat) (now : Nat) : R × List Nat :=
  let (ok, rl) := attempt x.1 now
  (rl, if ok then now :: x.2 else x.2)

/-- The limiter after attempts at these times, with the events it admitted. -/
def attempts (rl : R) (times : List Nat) : R × List Nat := times.foldl (attemptOne attempt) (rl, [])

theorem attempts_concat (rl : R) (times : List Nat) (now : Nat) :
    attempts attempt rl (times ++ [now]) = attemptOne attempt (attempts attempt rl times) now :=
  List.foldl_concat ..

theorem mem_attempts {rl : R} {times : List Nat} {t : Nat}
    (h : t ∈ (attempts attempt rl times).2) : t ∈ times := by
  induction times using List.reverseRecOn with
  | nil => cases h
  | append_singleton times now ih =>
    rw [attempts_concat] at h
    simp only [attemptOne] at h
    split at h
    · rcases List.mem_cons.mp h with rfl | hmem
      · exact List.mem_append_right _ (List.mem_singleton_self _)
      · exact List.mem_append_left _ (ih hmem)
    · exact List.mem_append_left _ (ih h)

end Limiter

/-! ## A log of the last events -/

/-- A limiter that keeps the times of the last events, oldest first. -/
structure Log where
  limit : Int
  times : List Nat := []
deriving DecidableEq, Repr

/-- Admits an event while the log is not full, and then if the oldest one is an interval ago.
A limit below one has no oldest event to look at, and admits none. -/
def Log.attempt (d : Nat) (rl : Log) (now : Nat) : Bool × Log :=
  if (rl.times.length : Int) < rl.limit then (true, { rl with times := rl.times ++ [now] })
  else
    match rl.times with
    | [] => (false, rl)
    | oldest :: rest =>
      if now < oldest + d then (false, rl) else (true, { rl with times := rest ++ [now] })

/-- The log has the last `n` of the admitted events, which are spread. -/
structure Log.Keeps (d n : Nat) (x : Log × List Nat) : Prop where
  limit : x.1.limit = n
  times : x.1.times = (x.2.take n).reverse
  sorted : x.2.Pairwise (· ≥ ·)
  spread : Spread d n x.2

variable {rl : Log} {passed : List Nat} {now : Nat}

theorem Log.Keeps.push (h : Log.Keeps d n (rl, passed)) (hroom : (rl.times.length : Int) < rl.limit)
    (hnow : ∀ t ∈ passed, t ≤ now) :
    Log.Keeps d n ({ rl with times := rl.times ++ [now] }, now :: passed) := by
  have hlen : passed.length < n := by
    have hlt := h.limit ▸ h.times ▸ hroom
    rw [List.length_reverse, List.length_take, Int.ofNat_lt] at hlt
    exact Nat.lt_of_not_le fun hle => Nat.lt_irrefl n (by rwa [Nat.min_eq_left hle] at hlt)
  obtain ⟨k, rfl⟩ : ∃ k, n = k + 1 :=
    Nat.exists_eq_succ_of_ne_zero (Nat.ne_of_gt (Nat.zero_lt_of_lt hlen))
  have hall : passed.take (k + 1) = passed := List.take_of_length_le (Nat.le_of_lt hlen)
  have hfit : passed.length ≤ k := Nat.le_of_lt_succ hlen
  refine ⟨h.limit, ?_, List.pairwise_cons.mpr ⟨hnow, h.sorted⟩, ?_, h.spread⟩
  · rw [List.take_succ_cons, List.take_of_length_le hfit, List.reverse_cons, h.times, hall]
  · rw [Nat.add_sub_cancel, List.drop_of_length_le hfit]
    exact nofun

theorem Log.Keeps.replace {oldest : Nat} {rest : List Nat} (h : Log.Keeps d n (rl, passed))
    (hfull : ¬(rl.times.length : Int) < rl.limit) (htimes : rl.times = oldest :: rest)
    (hfar : oldest + d ≤ now) (hnow : ∀ t ∈ passed, t ≤ now) :
    Log.Keeps d n ({ rl with times := rest ++ [now] }, now :: passed) := by
  have hlast : passed.take n = rest.reverse ++ [oldest] := by
    rw [← List.reverse_cons, ← htimes, h.times, List.reverse_reverse]
  have hlen : n = rest.length + 1 := by
    have hle : n ≤ (passed.take n).length := by
      rw [h.limit, h.times, List.length_reverse, Int.ofNat_lt] at hfull
      exact Nat.le_of_not_lt hfull
    have heq := Nat.le_antisymm hle (List.length_take_le n passed)
    rwa [hlast, List.length_append, List.length_reverse] at heq
  subst hlen
  obtain ⟨older, rfl⟩ : ∃ older, passed = rest.reverse ++ oldest :: older :=
    ⟨passed.drop (rest.length + 1), by rw [List.append_cons, ← hlast, List.take_append_drop]⟩
  have hsorted := List.pairwise_cons.mp (List.pairwise_append.mp h.sorted).2.1
  refine ⟨h.limit, ?_, List.pairwise_cons.mpr ⟨hnow, h.sorted⟩, ?_, h.spread⟩
  · rw [List.take_succ_cons, List.take_left' List.length_reverse, List.reverse_cons,
      List.reverse_reverse]
  · rw [Nat.add_sub_cancel, List.drop_left' List.length_reverse]
    refine List.forall_mem_cons.mpr ⟨hfar, fun x hx => ?_⟩
    exact Nat.le_trans (Nat.add_le_add_right (hsorted.1 x hx) d) hfar

theorem Log.Keeps.attemptOne (h : Log.Keeps d n (rl, passed)) (hnow : ∀ t ∈ passed, t ≤ now) :
    Log.Keeps d n (EventWindow.attemptOne (Log.attempt d) (rl, passed) now) := by
  unfold EventWindow.attemptOne Log.attempt
  dsimp only
  by_cases hroom : (rl.times.length : Int) < rl.limit
  · rw [if_pos hroom]
    exact h.push hroom hnow
  · rw [if_neg hroom]
    cases htimes : rl.times with
    | nil => exact h
    | cons oldest rest =>
      dsimp only
      split
      · exact h
      · next hfar => exact h.replace hroom htimes (Nat.le_of_not_lt hfar) hnow

theorem Log.keeps_attempts {times : List Nat} (hsorted : times.Pairwise (· ≤ ·)) :
    Log.Keeps d n (attempts (Log.attempt d) ⟨n, []⟩ times) := by
  induction times using List.reverseRecOn with
  | nil => exact ⟨rfl, by simp [attempts], .nil, trivial⟩
  | append_singleton times now ih =>
    obtain ⟨hbefore, -, hnow⟩ := List.pairwise_append.mp hsorted
    rw [attempts_concat]
    refine (ih hbefore).attemptOne fun t ht => ?_
    exact hnow t (mem_attempts _ ht) now (List.mem_singleton_self now)

theorem Log.attempts_of_nonpos {limit : Int} (h : limit ≤ 0) (times : List Nat) :
    attempts (Log.attempt d) ⟨limit, []⟩ times = (⟨limit, []⟩, []) := by
  have hroom : ¬((0 : Nat) : Int) < limit := Int.not_lt.mpr h
  induction times using List.reverseRecOn with
  | nil => rfl
  | append_singleton times now ih =>
    rw [attempts_concat, ih]
    simp only [EventWindow.attemptOne, Log.attempt, List.length_nil, if_neg hroom]
    rfl

/-- The log admits no more events than its limit in any window. -/
theorem Log.bounded_attempts (limit : Int) {times : List Nat} (hsorted : times.Pairwise (· ≤ ·)) :
    Bounded d limit.toNat (attempts (Log.attempt d) ⟨limit, []⟩ times).2 := by
  rcases Int.lt_or_le 0 limit with hpos | hneg
  · obtain ⟨n, rfl⟩ := Int.eq_ofNat_of_zero_le (Int.le_of_lt hpos)
    exact (Log.keeps_attempts hsorted).spread.bounded (Int.ofNat_lt.mp hpos)
  · rw [Log.attempts_of_nonpos hneg]
    exact Bounded.nil d _

end EventWindow
