import Mathlib.Data.List.Basic

/-!
# Byte streams that come in pieces

A stream of bytes that ends regularly or with an error, and the reader of it. A read
returns some of the bytes that are left, as many as happen to be there, and no other
choice than that is left to it: it never returns nothing without the end. The end may
come with the last bytes or after them.

`readFull` reads an exact number of bytes, by any number of reads. `readFull_enough`
and `readFull_short` say what it returns, which does not depend on the pieces.
`endsTogether` tells whether the end comes with the last byte.
-/

namespace ByteStream

/-- How a stream comes in: the most bytes that the read with this number can return,
and whether it reports the end when it returns the last byte. -/
structure Schedule where
  most : Nat → Nat
  most_pos : ∀ i, 0 < most i
  eager : Nat → Bool

/-- The number of the read that returns the last of `k` bytes, from the read `turn` on. -/
def Schedule.lastTurn (s : Schedule) (turn k : Nat) : Nat :=
  if s.most turn < k then s.lastTurn (turn + 1) (k - s.most turn) else turn
termination_by k
decreasing_by
  have := s.most_pos turn
  omega

/-- A stream from where it has been read to. `turn` counts the reads. -/
structure Reader (ε : Type) where
  schedule : Schedule
  turn : Nat
  data : List UInt8
  /-- The error at the end; without one the end is regular. -/
  failure : Option ε

inductive ReadError (ε : Type)
  | eof
  | unexpectedEOF
  | failed (e : ε)
deriving DecidableEq, Repr

/-- What a read returns, and the stream that it leaves. -/
structure Reading (ε : Type) where
  bytes : List UInt8
  err : Option (ReadError ε)
  rest : Reader ε

namespace Reader

variable {ε : Type}

/-- The error of a read at the end. -/
def ending (r : Reader ε) : ReadError ε :=
  match r.failure with
  | none => .eof
  | some e => .failed e

/-- A read into a buffer of the given size. -/
def read (r : Reader ε) (size : Nat) : Reading ε :=
  let n := min size (r.schedule.most r.turn)
  let rest := { r with turn := r.turn + 1, data := r.data.drop n }
  if r.data = [] then ⟨[], some r.ending, rest⟩
  else if rest.data = [] ∧ r.schedule.eager r.turn = true then
    ⟨r.data.take n, some r.ending, rest⟩
  else ⟨r.data.take n, none, rest⟩

variable {r : Reader ε} {size : Nat}

theorem read_nil (h : r.data = []) (size : Nat) :
    (r.read size).bytes = [] ∧ (r.read size).err = some r.ending := by
  simp [read, h]

theorem read_ne_nil (h : r.data ≠ []) (hsize : 0 < size) : (r.read size).bytes ≠ [] := by
  have hmost := r.schedule.most_pos r.turn
  have htake : r.data.take (min size (r.schedule.most r.turn)) ≠ [] := by
    have hmin : min size (r.schedule.most r.turn) ≠ 0 :=
      Nat.pos_iff_ne_zero.mp (Nat.lt_min.mpr ⟨hsize, hmost⟩)
    simp [List.take_eq_nil_iff, h, hmin]
  unfold read
  dsimp only
  rw [if_neg h]
  split
  · exact htake
  · exact htake

/-- A read takes its bytes off the stream, and reports the end only when they are the
last ones. -/
theorem read_spec (r : Reader ε) (size : Nat) :
    (r.read size).bytes ++ (r.read size).rest.data = r.data ∧
      (r.read size).bytes.length ≤ size ∧ (r.read size).rest.failure = r.failure ∧
      ∀ e, (r.read size).err = some e → e = r.ending ∧ (r.read size).rest.data = [] := by
  have hlen : (r.data.take (min size (r.schedule.most r.turn))).length ≤ size :=
    Nat.le_trans (List.length_take_le _ _) (Nat.min_le_left _ _)
  unfold read
  dsimp only
  split
  · next hnil => simp [hnil]
  · split
    · next hlast =>
      exact ⟨List.take_append_drop .., hlen, rfl,
        fun e he => ⟨(Option.some.inj he).symm, hlast.1⟩⟩
    · exact ⟨List.take_append_drop .., hlen, rfl, nofun⟩

theorem read_progress (hsize : 0 < size) (herr : (r.read size).err = none) :
    0 < (r.read size).bytes.length := by
  refine List.length_pos_of_ne_nil (read_ne_nil (fun hnil => ?_) hsize)
  rw [(read_nil hnil size).2] at herr
  cases herr

/-- The read that returns the last byte reports the end, when all reads have room. -/
def endsTogether (r : Reader ε) : Bool :=
  r.schedule.eager (r.schedule.lastTurn r.turn r.data.length)

theorem read_roomy (hne : r.data ≠ []) (hsize : r.data.length ≤ size) :
    if r.data.length ≤ r.schedule.most r.turn then
      (r.read size).rest.data = [] ∧ (r.read size).bytes = r.data ∧
        (r.read size).err = if r.endsTogether then some r.ending else none
    else (r.read size).rest.data ≠ [] ∧ (r.read size).err = none ∧
      (r.read size).rest.endsTogether = r.endsTogether := by
  split
  · next hle =>
    have hlast : r.schedule.lastTurn r.turn r.data.length = r.turn := by
      rw [Schedule.lastTurn, if_neg (Nat.not_lt.mpr hle)]
    have hmin : r.data.length ≤ min size (r.schedule.most r.turn) := Nat.le_min.mpr ⟨hsize, hle⟩
    simp only [read, if_neg hne, List.drop_of_length_le hmin, List.take_of_length_le hmin,
      endsTogether, hlast, true_and]
    split <;> simp
  · next hlt =>
    have hmost := Nat.lt_of_not_le hlt
    have hmin : min size (r.schedule.most r.turn) = r.schedule.most r.turn :=
      Nat.min_eq_right (Nat.le_of_lt (Nat.lt_of_lt_of_le hmost hsize))
    have hrest : r.data.drop (r.schedule.most r.turn) ≠ [] := by
      rw [ne_eq, List.drop_eq_nil_iff]
      exact hlt
    have hlast : r.schedule.lastTurn r.turn r.data.length =
        r.schedule.lastTurn (r.turn + 1) (r.data.length - r.schedule.most r.turn) := by
      rw [Schedule.lastTurn, if_pos hmost]
    simp [read, hne, hmin, hrest, endsTogether, hlast]

/-- The loop of `io.ReadAtLeast` for the whole buffer, after the bytes `got`. -/
def fill (r : Reader ε) (size : Nat) (got : List UInt8) : Reading ε :=
  if hlt : got.length < size then
    let one := r.read (size - got.length)
    match herr : one.err with
    | some e => ⟨got ++ one.bytes, some e, one.rest⟩
    | none =>
      have : 0 < one.bytes.length := read_progress (Nat.sub_pos_of_lt hlt) herr
      fill one.rest size (got ++ one.bytes)
  else ⟨got, none, r⟩
termination_by size - got.length
decreasing_by
  exact Nat.sub_lt_sub_left hlt (by rw [List.length_append]; exact Nat.lt_add_of_pos_right this)

/-- `io.ReadFull`. -/
def readFull (r : Reader ε) (size : Nat) : Reading ε :=
  let all := r.fill size []
  if size ≤ all.bytes.length then { all with err := none }
  else
    match all.err with
    | some .eof => if 0 < all.bytes.length then { all with err := some .unexpectedEOF } else all
    | _ => all

/-! ## What is read -/

/-- The loop takes what is missing off the stream, in whatever pieces, and ends early
only at the end of the stream. -/
theorem fill_spec (r : Reader ε) (size : Nat) (got : List UInt8) :
    (r.fill size got).bytes = got ++ r.data.take (size - got.length) ∧
      (r.fill size got).rest.data = r.data.drop (size - got.length) ∧
      (r.fill size got).rest.failure = r.failure ∧
      (r.data.length < size - got.length → (r.fill size got).err = some r.ending) := by
  fun_induction fill r size got with
  | case1 r got hlt one e herr =>
    obtain ⟨hdata, hlen, hfail, hend⟩ := r.read_spec (size - got.length)
    obtain ⟨rfl, hnil⟩ := hend e herr
    rw [hnil, List.append_nil] at hdata
    rw [hdata] at hlen
    refine ⟨?_, ?_, hfail, fun _ => rfl⟩
    · rw [hdata, List.take_of_length_le hlen]
    · rw [hnil, List.drop_of_length_le hlen]
  | case2 r got hlt one herr _ ih =>
    obtain ⟨hdata, hlen, hfail, -⟩ := r.read_spec (size - got.length)
    obtain ⟨hbytes, hrest, hfail', hend⟩ := ih
    have hleft : size - (got ++ one.bytes).length = size - got.length - one.bytes.length := by
      rw [List.length_append, Nat.sub_add_eq]
    rw [hleft] at hbytes hrest hend
    refine ⟨?_, ?_, hfail'.trans hfail, fun hshort => ?_⟩
    · rw [hbytes, ← hdata, List.take_append, List.take_of_length_le hlen, List.append_assoc]
    · rw [hrest, ← hdata, List.drop_append, List.drop_of_length_le hlen, List.nil_append]
    · rw [← hdata, List.length_append] at hshort
      rw [hend (Nat.lt_sub_iff_add_lt'.mpr hshort), ending, hfail, ending]
  | case3 r got hge =>
    have hzero : size - got.length = 0 := Nat.sub_eq_zero_of_le (Nat.not_lt.mp hge)
    simp [hzero]

/-- A stream that has the bytes gives them. -/
theorem readFull_enough (h : size ≤ r.data.length) :
    (r.readFull size).bytes = r.data.take size ∧ (r.readFull size).err = none ∧
      (r.readFull size).rest.data = r.data.drop size ∧
      (r.readFull size).rest.failure = r.failure := by
  obtain ⟨hbytes, hrest, hfail, -⟩ := r.fill_spec size []
  simp only [List.nil_append, List.length_nil, Nat.sub_zero] at hbytes hrest
  have hlen : size ≤ (r.fill size []).bytes.length := by
    rw [hbytes]
    exact Nat.le_of_eq (List.length_take_of_le h).symm
  unfold readFull
  dsimp only
  rw [if_pos hlen]
  exact ⟨hbytes, rfl, hrest, hfail⟩

/-- A stream that has too few gives an error: that of its end, or that it has ended in
the middle. -/
theorem readFull_short (h : r.data.length < size) :
    (r.readFull size).err =
      some (if r.failure.isNone = true ∧ r.data ≠ [] then .unexpectedEOF else r.ending) := by
  obtain ⟨hbytes, -, -, hend⟩ := r.fill_spec size []
  simp only [List.nil_append, List.length_nil, Nat.sub_zero] at hbytes hend
  rw [List.take_of_length_le (Nat.le_of_lt h)] at hbytes
  unfold readFull
  dsimp only
  rw [hbytes, hend h, if_neg (Nat.not_le.mpr h)]
  cases hf : r.failure with
  | some e => simp [ending, hf, hend h]
  | none => by_cases hnil : r.data = [] <;> simp [ending, hf, hnil, hend h, List.length_pos_iff]

end Reader

end ByteStream
