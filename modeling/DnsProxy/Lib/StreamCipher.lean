import Mathlib.Data.List.Basic

/-!
# Key streams

A stream cipher as a place in its key stream, which is a function from byte offsets to bytes.

* `xorFrom ks off m`: `m` with the key stream from the byte `off` on; pieces join into one
  (`xorFrom_append`), and doing it twice gives `m` back (`xorFrom_xorFrom`).
* `Cipher`: what has been used so far, with the operations that go on from there or to the
  start of a later block.
-/

namespace StreamCipher

def xorFrom (ks : Nat → UInt8) (off : Nat) : List UInt8 → List UInt8
  | [] => []
  | b :: bs => (ks off ^^^ b) :: xorFrom ks (off + 1) bs

variable {ks : Nat → UInt8} {off : Nat}

@[simp] theorem xorFrom_nil : xorFrom ks off [] = [] := rfl

@[simp] theorem length_xorFrom (m : List UInt8) : (xorFrom ks off m).length = m.length := by
  induction m generalizing off with
  | nil => rfl
  | cons b m ih => rw [xorFrom, List.length_cons, ih, List.length_cons]

theorem xorFrom_append (m n : List UInt8) :
    xorFrom ks off (m ++ n) = xorFrom ks off m ++ xorFrom ks (off + m.length) n := by
  induction m generalizing off with
  | nil => rfl
  | cons b m ih =>
    rw [List.cons_append, xorFrom, ih, xorFrom, List.cons_append, List.length_cons,
      Nat.add_assoc, Nat.add_comm 1 m.length]

theorem xorFrom_xorFrom (m : List UInt8) : xorFrom ks off (xorFrom ks off m) = m := by
  induction m generalizing off with
  | nil => rfl
  | cons b m ih => rw [xorFrom, xorFrom, ih, ← UInt8.xor_assoc, UInt8.xor_self, UInt8.zero_xor]

theorem xorFrom_zeros (n : Nat) :
    xorFrom ks off (List.replicate n 0) = (List.range n).map fun i => ks (off + i) := by
  induction n generalizing off with
  | zero => rfl
  | succ n ih =>
    rw [List.replicate_succ, xorFrom, ih, UInt8.xor_zero, List.range_succ_eq_map, List.map_cons,
      List.map_map]
    simp only [Function.comp_def, Nat.succ_eq_add_one, Nat.add_assoc, Nat.add_comm 1, Nat.add_zero]

/-- A cipher whose first `pos` bytes have been used. -/
structure Cipher where
  stream : Nat → UInt8
  pos : Nat := 0

namespace Cipher

def xorKeyStream (c : Cipher) (src : List UInt8) : List UInt8 × Cipher :=
  (xorFrom c.stream c.pos src, { c with pos := c.pos + src.length })

/-- Go on at the start of a block; there is no way back to a block that has been used. -/
def setCounter (blockSize : Nat) (c : Cipher) (counter : Nat) : Option Cipher :=
  if c.pos ≤ counter * blockSize then some { c with pos := counter * blockSize } else none

end Cipher

end StreamCipher
