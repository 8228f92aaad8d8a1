import DnsProxy.Lib.BigEndian
import DnsProxy.Lib.ByteStream
import DnsProxy.Transport

/-!
# The stream of a DoQ response

`readMsg` as it reads from the stream, in whatever pieces the data comes. The error
decides whether the query is sent again: one that is marked with `errDoQProtocol` is
final.

* `readMsgFrom_eq`: the pieces make no difference, so that `readMsg` of the exchange,
  which has the data of the stream at once, is this function.
* `readMsgFrom_accepts_iff`: it succeeds for one well formed frame that is followed by
  FIN and holds a valid response, and every other stream that ended with FIN makes for
  a marked error.
-/

namespace DnsProxy.Transport

open Receipt
open ByteStream (Reader ReadError Schedule)

/-- The stream as it is read. FIN is `io.EOF`. -/
def QUICStream.reader (stream : QUICStream) (sch : Schedule) : Reader NetErr :=
  ⟨sch, 0, stream.data, stream.broken⟩

/-- The error for one of `io.ReadFull`. The end of the stream, in the middle or not, is
marked with `errDoQProtocol`. -/
def frameErr : ReadError NetErr → ExchErr
  | .eof => .invalid .frame
  | .unexpectedEOF => .invalid .frame
  | .failed e => .native e

/-- `readMsg` on a reader. The clock shows `received` when the frame is complete and
`decoded` when it has been looked at. -/
def readMsgFrom (c : Codec) (stream : Reader NetErr) (received decoded : Time) (req : Msg)
    (s : Session) : Attempt :=
  let lenBuf := stream.readFull 2
  match lenBuf.err with
  | some err => fail (frameErr err) s
  | none =>
    let msgLen := BigEndian.decode lenBuf.bytes
    if msgLen = 0 then fail (.invalid .frame) s
    else
      let respBuf := lenBuf.rest.readFull msgLen
      match respBuf.err with
      | some err => fail (frameErr err) s
      | none =>
        let extra := respBuf.rest.read 1
        if extra.bytes.length ≠ 0 then fail (.invalid .frame) s
        else
          match extra.err with
          | some .eof =>
            let wire := respBuf.bytes
            let (ticket, s) := (s.receive wire).reserve wire 0 false received
            match c.unpack wire with
            | none => fail (.invalid .unpack) (s.reject ticket decoded)
            | some m =>
              if m.id ≠ 0 then fail (.invalid .id) (s.reject ticket decoded)
              else
                match validateResponse c req m with
                | some e => fail (.invalid (.question e)) (s.reject ticket decoded)
                | none => ⟨some m, none, s.accept ticket m⟩
          | some (.failed e) => fail (.native e) s
          -- No read returns without data and without the end.
          | _ => fail (.native { code := 0 }) s

/-! ## The pieces make no difference -/

theorem msgLen_eq (b0 b1 : UInt8) :
    (b0.toUInt16 <<< 8 ||| b1.toUInt16).toNat = b0.toNat * 256 + b1.toNat := by
  have hshift : (b0.toUInt16 <<< 8).toNat = b0.toNat <<< 8 := by
    have hlt := b0.toNat_lt
    rw [UInt16.toNat_shiftLeft]
    simp [Nat.shiftLeft_eq]
    omega
  rw [UInt16.toNat_or, hshift, UInt8.toNat_toUInt16,
    ← Nat.shiftLeft_add_eq_or_of_lt b1.toNat_lt, Nat.shiftLeft_eq]

theorem decode_two (b0 b1 : UInt8) :
    BigEndian.decode [b0, b1] = (b0.toUInt16 <<< 8 ||| b1.toUInt16).toNat := by
  rw [msgLen_eq]
  simp [BigEndian.decode]

theorem frameErr_short (stream : QUICStream) {r : Reader NetErr} {size : Nat}
    (hfail : r.failure = stream.broken) (h : r.data.length < size) :
    ∃ err, (r.readFull size).err = some err ∧ frameErr err = stream.cutShort := by
  refine ⟨_, r.readFull_short h, ?_⟩
  unfold QUICStream.cutShort Reader.ending
  rw [hfail]
  cases stream.broken with
  | none => simp only [Option.isNone_none, true_and]; split <;> rfl
  | some e => rfl

theorem readFull_frame {r : Reader NetErr} {size : Nat} (h : size ≤ r.data.length) :
    (size < r.data.length → ((r.readFull size).rest.read 1).bytes.length ≠ 0) ∧
      (r.data.length = size → (r.readFull size).bytes = r.data ∧
        ((r.readFull size).rest.read 1).bytes.length = 0 ∧
        ((r.readFull size).rest.read 1).err = some r.ending) := by
  obtain ⟨hbytes, -, hrest, hfail⟩ := Reader.readFull_enough h
  refine ⟨fun hlt => ?_, fun heq => ?_⟩
  · have hmore : (r.readFull size).rest.data ≠ [] := by simp [hrest, hlt]
    simpa using Reader.read_ne_nil hmore Nat.one_pos
  · have hnone : (r.readFull size).rest.data = [] := by simp [hrest, heq]
    obtain ⟨hnil, hend⟩ := Reader.read_nil hnone 1
    refine ⟨by rw [hbytes, ← heq, List.take_length], by rw [hnil]; rfl, ?_⟩
    rw [hend, Reader.ending, hfail, Reader.ending]

theorem readMsgFrom_eq (c : Codec) (sch : Schedule) (stream : QUICStream) (req : Msg)
    (s : Session) :
    readMsgFrom c (stream.reader sch) stream.received stream.decoded req s =
      readMsg c stream req s := by
  have hcut : (stream.reader sch).data.length < 2 →
      ∃ err, ((stream.reader sch).readFull 2).err = some err ∧ frameErr err = stream.cutShort :=
    frameErr_short stream rfl
  have hreader : (stream.reader sch).data = stream.data := rfl
  unfold readMsgFrom readMsg
  dsimp only
  match hdata : stream.data with
  | [] =>
    obtain ⟨err, herr, hframe⟩ := hcut (by rw [hreader, hdata]; exact Nat.zero_lt_two)
    simp only [herr, hframe]
  | [b] =>
    obtain ⟨err, herr, hframe⟩ := hcut (by rw [hreader, hdata]; exact Nat.one_lt_two)
    simp only [herr, hframe]
  | b0 :: b1 :: data =>
    have htwo : 2 ≤ (stream.reader sch).data.length := by simp [hreader, hdata]
    obtain ⟨hlen, herr, hrest, hfail⟩ := Reader.readFull_enough htwo
    rw [hreader, hdata] at hlen hrest
    simp only [herr, hlen, List.take_succ_cons, List.take_zero, decode_two]
    generalize (b0.toUInt16 <<< 8 ||| b1.toUInt16).toNat = msgLen
    generalize ((stream.reader sch).readFull 2).rest = r at hrest hfail
    obtain rfl : r.data = data := hrest
    split
    · rfl
    · rcases Nat.lt_trichotomy r.data.length msgLen with hlt | heq | hgt
      · obtain ⟨err, herr, hframe⟩ := frameErr_short stream hfail hlt
        simp only [herr, hframe, if_pos hlt]
      · obtain ⟨-, herr, -, -⟩ := Reader.readFull_enough heq.ge
        obtain ⟨hbytes, hextra, hend⟩ := (readFull_frame heq.ge).2 heq
        simp only [herr, hextra, hend, hbytes, ne_eq, not_true_eq_false, if_false, heq,
          Nat.lt_irrefl, Reader.ending, hfail, QUICStream.reader]
        cases stream.broken <;> rfl
      · obtain ⟨-, herr, -, -⟩ := Reader.readFull_enough hgt.le
        have hextra := (readFull_frame hgt.le).1 hgt
        simp only [herr, if_pos hextra, if_neg hgt.not_gt, if_pos hgt]

/-! ## One frame -/

/-- The stream is a length, as many bytes and FIN, and the bytes are a valid response
to `req`. -/
structure Accepted (c : Codec) (req : Msg) (stream : QUICStream) (m : Msg) : Prop where
  frame : ∃ b0 b1 body, stream.data = b0 :: b1 :: body ∧
    body.length = b0.toNat * 256 + b1.toNat ∧ 1 ≤ body.length ∧ c.unpack body = some m
  fin : stream.broken = none
  id : m.id = 0
  valid : validateResponse c req m = none

section Frame

variable {c : Codec} {req : Msg} {stream : QUICStream} {m : Msg} {s : Session}

theorem readMsg_of_accepted (h : Accepted c req stream m) :
    (readMsg c stream req s).err = none ∧ (readMsg c stream req s).resp = some m := by
  obtain ⟨⟨b0, b1, body, hdata, hlen, hpos, hunpack⟩, hfin, hid, hvalid⟩ := h
  unfold readMsg
  simp only [hdata, msgLen_eq, ← hlen, Nat.lt_irrefl, if_false,
    if_neg (Nat.pos_iff_ne_zero.mp hpos), hfin, hunpack, hid, ne_eq, not_true_eq_false, hvalid,
    and_self]

theorem frame_of_readMsg (h : (readMsg c stream req s).err = none) :
    ∃ b0 b1 body, stream.data = b0 :: b1 :: body ∧
      body.length = b0.toNat * 256 + b1.toNat ∧ 1 ≤ body.length := by
  unfold readMsg at h
  match hdata : stream.data with
  | [] => simp [hdata, fail] at h
  | [b] => simp [hdata, fail] at h
  | b0 :: b1 :: body =>
    simp only [hdata, msgLen_eq] at h
    split_ifs at h with hzero hshort hlong
    · cases h
    · cases h
    · cases h
    · have hlen := Nat.le_antisymm (Nat.not_lt.mp hlong) (Nat.not_lt.mp hshort)
      refine ⟨b0, b1, body, rfl, hlen, ?_⟩
      rw [hlen]
      exact Nat.pos_of_ne_zero hzero

theorem accepted_of_readMsg (h : (readMsg c stream req s).err = none) :
    ∃ m, Accepted c req stream m := by
  obtain ⟨b0, b1, body, hdata, hlen, hone⟩ := frame_of_readMsg h
  unfold readMsg at h
  simp only [hdata, msgLen_eq, ← hlen, Nat.lt_irrefl, if_false,
    if_neg (Nat.pos_iff_ne_zero.mp hone)] at h
  split at h
  · cases h
  · next hfin =>
    split at h
    · cases h
    · next m hunpack =>
      split at h
      · cases h
      · next hid =>
        split at h
        · cases h
        · next hvalid =>
          exact ⟨m, ⟨b0, b1, body, hdata, hlen, hone, hunpack⟩, hfin, not_not.mp hid, hvalid⟩

theorem readMsg_isProtocol {e : ExchErr} (hfin : stream.broken = none)
    (h : (readMsg c stream req s).err = some e) : e.isProtocol = true := by
  have hcut : stream.cutShort = .invalid .frame := by simp [QUICStream.cutShort, hfin]
  unfold readMsg at h
  simp only [hcut, hfin] at h
  repeat' split at h
  all_goals first
    | (obtain rfl := Option.some.inj h; rfl)
    | cases h

end Frame

/-- For every stream and every way in which it is split into reads: `readMsg` succeeds
exactly if the stream is one well formed frame with a valid response and FIN, it
returns that response, and otherwise the error is marked with `errDoQProtocol` if the
stream ended with FIN. -/
theorem readMsgFrom_accepts_iff (c : Codec) (sch : Schedule) (stream : QUICStream) (req : Msg)
    (s : Session) :
    let a := readMsgFrom c (stream.reader sch) stream.received stream.decoded req s
    (a.err = none ↔ ∃ m, Accepted c req stream m) ∧
    (∀ m, Accepted c req stream m → a.resp = some m) ∧
    (stream.broken = none → ∀ e, a.err = some e → e.isProtocol = true) := by
  intro a
  have ha : a = readMsg c stream req s := readMsgFrom_eq c sch stream req s
  rw [ha]
  refine ⟨⟨accepted_of_readMsg, fun ⟨m, hm⟩ => (readMsg_of_accepted hm).1⟩, ?_, ?_⟩
  · intro m hm
    exact (readMsg_of_accepted hm).2
  · intro hfin e he
    exact readMsg_isProtocol hfin he

end DnsProxy.Transport
