import Mathlib.Data.List.Basic
import DnsProxy.Lib.BigEndian

/-!
# Slices that are checked at run time

A computation over byte strings that returns a value or an error, or panics because it
indexed out of range, and arrays of a fixed size cut out of a byte string.

* `Octets n`: the byte strings of length `n`.
* `index`, `slice`, `array`, `sliceFrom`: `b[i]`, `b[i:j]`, `b[i : i+n]` as an array and
  `b[i:]`, which panic outside of `b`.
* `array_skip`, `array_append`: reading from a concatenation, field by field.
* `Slice`: a slice that may have capacity left, and writing into it.
-/

namespace Checked

inductive Result (ε α : Type)
  | ok (a : α)
  | error (e : ε)
  | panic
deriving DecidableEq, Repr

variable {ε α β : Type}

namespace Result

def bind (r : Result ε α) (f : α → Result ε β) : Result ε β :=
  match r with
  | .ok a => f a
  | .error e => .error e
  | .panic => .panic

instance : Monad (Result ε) where
  pure := .ok
  bind := bind

@[simp] theorem ok_bind (a : α) (f : α → Result ε β) : (Result.ok a >>= f) = f a := rfl

@[simp] theorem error_bind (e : ε) (f : α → Result ε β) : (Result.error e >>= f) = .error e := rfl

@[simp] theorem panic_bind (f : α → Result ε β) : (Result.panic >>= f) = .panic := rfl

variable {r : Result ε α} {f : α → Result ε β}

theorem bind_eq_ok {b : β} : (r >>= f) = .ok b ↔ ∃ a, r = .ok a ∧ f a = .ok b := by
  cases r <;> simp

theorem bind_eq_panic : (r >>= f) = .panic ↔ r = .panic ∨ ∃ a, r = .ok a ∧ f a = .panic := by
  cases r <;> simp

@[simp] theorem pure_eq (a : α) : (pure a : Result ε α) = .ok a := rfl

/-- A computation that returns. -/
def Safe (r : Result ε α) : Prop := r ≠ .panic

@[simp] theorem safe_ok (a : α) : (Result.ok a : Result ε α).Safe := nofun

@[simp] theorem safe_error (e : ε) : (Result.error e : Result ε α).Safe := nofun

theorem Safe.bind (hr : r.Safe) (hf : ∀ a, (f a).Safe) : (r >>= f).Safe := by
  cases r with
  | ok a => exact hf a
  | error e => exact safe_error e
  | panic => exact absurd rfl hr

/-- The error of a computation under the name `f` gives to it. -/
def mapError {ε' : Type} (f : ε → ε') : Result ε α → Result ε' α
  | .ok a => .ok a
  | .error e => .error (f e)
  | .panic => .panic

@[simp] theorem mapError_ok {ε' : Type} (f : ε → ε') (a : α) :
    (Result.ok a).mapError f = .ok a := rfl

@[simp] theorem mapError_eq_ok {ε' : Type} {f : ε → ε'} {a : α} :
    r.mapError f = .ok a ↔ r = .ok a := by
  cases r <;> simp [mapError]

@[simp] theorem safe_mapError {ε' : Type} (f : ε → ε') (r : Result ε α) :
    (r.mapError f).Safe ↔ r.Safe := by
  cases r <;> simp [mapError, Safe]

section Fold

variable {f : β → α → Result ε β} {l : List α} {b : β}

theorem foldlM_eq_panic {P : α → Prop} (hpanic : ∀ b a, f b a = .panic ↔ P a)
    (herror : ∀ b a e, f b a ≠ .error e) : l.foldlM f b = .panic ↔ ∃ a ∈ l, P a := by
  induction l generalizing b with
  | nil => simp
  | cons a l ih =>
    rw [List.foldlM_cons, List.exists_mem_cons_iff]
    cases hstep : f b a with
    | ok b' =>
      have hnot : ¬ P a := mt (hpanic b a).mpr (by rw [hstep]; exact nofun)
      rw [ok_bind, ih]
      exact ⟨.inr, fun h => h.resolve_left hnot⟩
    | error e => exact absurd hstep (herror b a e)
    | panic => exact ⟨fun _ => .inl ((hpanic b a).mp hstep), fun _ => rfl⟩

theorem foldlM_eq_ok {g : β → α → β} (h : ∀ b a, f b a = .ok (g b a)) :
    l.foldlM f b = .ok (l.foldl g b) := by
  induction l generalizing b with
  | nil => rfl
  | cons a l ih => rw [List.foldlM_cons, h, ok_bind, ih, List.foldl_cons]

end Fold

end Result

/-! ## Arrays -/

/-- An array of `n` bytes. -/
@[ext] structure Octets (n : Nat) where
  val : List UInt8
  length_eq : val.length = n
deriving DecidableEq

namespace Octets

variable {n : Nat}

@[simp] theorem length_val (a : Octets n) : a.1.length = n := a.length_eq

/-- The zero value of an array. -/
def zero (n : Nat) : Octets n := ⟨List.replicate n 0, List.length_replicate⟩

/-- The bytes of `x`, most significant first. -/
def ofNat (n x : Nat) : Octets n := ⟨BigEndian.encode n x, BigEndian.length_encode n x⟩

end Octets

/-! ## Slices -/

/-- `b[i]`. -/
def index (b : List UInt8) (i : Nat) : Result ε UInt8 :=
  match b[i]? with
  | some x => .ok x
  | none => .panic

/-- `b[i:j]`, where `b` has no capacity beyond its length. -/
def slice (b : List UInt8) (i j : Nat) : Result ε (List UInt8) :=
  if i ≤ j ∧ j ≤ b.length then .ok ((b.drop i).take (j - i)) else .panic

/-- `b[i : i+n]`, copied to an array. -/
def array (b : List UInt8) (i n : Nat) : Result ε (Octets n) :=
  if h : i + n ≤ b.length then .ok ⟨(b.drop i).take n, by simp; omega⟩ else .panic

/-- `b[i:]`. -/
def sliceFrom (b : List UInt8) (i : Nat) : Result ε (List UInt8) :=
  if i ≤ b.length then .ok (b.drop i) else .panic

section Slices

variable {b p : List UInt8} {i n : Nat}

theorem index_of_drop {x : UInt8} {rest : List UInt8} (h : b.drop i = x :: rest) :
    (index b i : Result ε _) = .ok x := by
  have hget : b[i]? = some x := by rw [← List.head?_drop, h, List.head?_cons]
  rw [index, hget]

theorem array_eq_ok {a : Octets n} :
    (array b i n : Result ε _) = .ok a ↔ i + n ≤ b.length ∧ a.1 = (b.drop i).take n := by
  unfold array
  split
  · next h =>
    constructor
    · intro heq
      cases heq
      exact ⟨h, rfl⟩
    · rintro ⟨-, hval⟩
      exact congrArg Result.ok (Octets.ext hval.symm)
  · next h => exact ⟨nofun, fun hle => absurd hle.1 h⟩

theorem array_of_le (h : i + n ≤ b.length) :
    ∃ a : Octets n, (array b i n : Result ε _) = .ok a ∧ a.1 = (b.drop i).take n :=
  ⟨_, dif_pos h, rfl⟩

theorem array_safe (h : i + n ≤ b.length) : (array b i n : Result ε _).Safe := by
  obtain ⟨a, ha, -⟩ := @array_of_le ε b i n h
  rw [ha]
  exact Result.safe_ok a

theorem sliceFrom_safe (h : i ≤ b.length) : (sliceFrom b i : Result ε _).Safe := by
  simp [sliceFrom, h]

/-- What stands before the slice does not matter. -/
theorem array_skip (h : p.length ≤ i) :
    (array (p ++ b) i n : Result ε _) = array b (i - p.length) n := by
  have hdrop : (p ++ b).drop i = b.drop (i - p.length) := by
    rw [List.drop_append, List.drop_eq_nil_of_le h, List.nil_append]
  have hle : i + n ≤ (p ++ b).length ↔ i - p.length + n ≤ b.length := by
    rw [List.length_append]
    omega
  simp only [array, hdrop, hle]

@[simp] theorem array_append (a : Octets n) (b : List UInt8) :
    (array (a.1 ++ b) 0 n : Result ε _) = .ok a := by
  have hle : 0 + n ≤ (a.1 ++ b).length := by simp
  rw [array, dif_pos hle]
  exact congrArg Result.ok (Octets.ext (by simp))

@[simp] theorem array_self (a : Octets n) : (array a.1 0 n : Result ε _) = .ok a := by
  simpa using array_append a []

theorem sliceFrom_skip (h : p.length ≤ i) :
    (sliceFrom (p ++ b) i : Result ε _) = sliceFrom b (i - p.length) := by
  have hdrop : (p ++ b).drop i = b.drop (i - p.length) := by
    rw [List.drop_append, List.drop_eq_nil_of_le h, List.nil_append]
  have hle : i ≤ (p ++ b).length ↔ i - p.length ≤ b.length := by
    rw [List.length_append]
    omega
  simp only [sliceFrom, hdrop, hle]

@[simp] theorem sliceFrom_zero (b : List UInt8) : (sliceFrom b 0 : Result ε _) = .ok b := by
  simp [sliceFrom]

end Slices

/-! ## Slices with a capacity -/

/-- A slice of an array: its bytes, and those after it up to its capacity. -/
@[ext] structure Slice where
  bytes : List UInt8
  spare : List UInt8

namespace Slice

/-- The slice with `n` more bytes: in its own array if that is long enough, and copied to a
new one otherwise. -/
def extend (s : Slice) (n : Nat) : Slice :=
  if n ≤ s.spare.length then ⟨s.bytes ++ s.spare.take n, s.spare.drop n⟩
  else ⟨s.bytes ++ List.replicate n 0, []⟩

/-- `s[i] = x`. -/
def set (s : Slice) (i : Nat) (x : UInt8) : Result ε Slice :=
  if i < s.bytes.length then .ok { s with bytes := s.bytes.set i x } else .panic

/-- `bs` is written to `s[off:]`. -/
def write (s : Slice) (off : Nat) (bs : List UInt8) : Result ε Slice :=
  if off + bs.length ≤ s.bytes.length then
    .ok { s with bytes := s.bytes.take off ++ (bs ++ s.bytes.drop (off + bs.length)) }
  else .panic

theorem bytes_extend (s : Slice) (n : Nat) :
    ∃ tail, tail.length = n ∧ (s.extend n).bytes = s.bytes ++ tail := by
  unfold extend
  split
  · next h => exact ⟨_, List.length_take_of_le h, rfl⟩
  · exact ⟨_, List.length_replicate, rfl⟩

theorem write_between {s : Slice} {a b c bs : List UInt8} (h : s.bytes = a ++ (b ++ c))
    (hlen : bs.length = b.length) :
    (s.write a.length bs : Result ε _) = .ok { s with bytes := a ++ (bs ++ c) } := by
  have hfits : a.length + bs.length ≤ s.bytes.length := by simp [h, hlen]
  rw [write, if_pos hfits, h, List.take_left, hlen, List.drop_length_add_append,
    List.drop_left]

theorem set_between {s : Slice} {a c : List UInt8} {x : UInt8} (h : s.bytes = a ++ x :: c)
    (y : UInt8) :
    (s.set a.length y : Result ε _) = .ok { s with bytes := a ++ y :: c } := by
  have hfits : a.length < s.bytes.length := by simp [h]
  rw [set, if_pos hfits, h, List.set_append_right _ _ (Nat.le_refl _), Nat.sub_self,
    List.set_cons_zero]

end Slice

end Checked
