import DnsProxy.Cache
import DnsProxy.DnsCrypt.Sizes
import DnsProxy.Lib.ByteStream

/-!
# Messages on a TCP connection

`writePrefixed` and `readPrefixed` of the proxy and of the DNSCrypt package: each message
stands behind its length in two bytes. A connection takes what is written to it up to some
byte, and what is read from it comes in whatever pieces.

* `readPrefixed_frame`, `readPrefixed_cut`: what is read off a stream that begins with a
  whole frame, and off one that ends before the frame does.
* `framing_round_trip`: what is read from a connection is what was written to it.
-/

namespace DnsProxy

open ByteStream (Reader ReadError Schedule)

/-! ## Writing -/

/-- A connection as it is written to. -/
structure Outgoing where
  sent : Bytes := []
  /-- How many more bytes it takes before it fails, without a number all. -/
  room : Option Nat := none
deriving DecidableEq, Repr

inductive WriteErr
  /-- The error of `proxyutil.LengthPrefix`. -/
  | frameLength (size : Nat)
  /-- `dnscrypt.ErrQueryTooLarge`. -/
  | queryTooLarge
  | connection
  | annotated (text : String) (e : WriteErr)
deriving DecidableEq, Repr

namespace Outgoing

def write (conn : Outgoing) (b : Bytes) : Option WriteErr × Outgoing :=
  match conn.room with
  | none => (none, { conn with sent := conn.sent ++ b })
  | some room =>
    if b.length ≤ room then (none, ⟨conn.sent ++ b, some (room - b.length)⟩)
    else (some .connection, ⟨conn.sent ++ b.take room, some 0⟩)

/-- `net.Buffers.WriteTo`. -/
def writeBuffers (conn : Outgoing) : List Bytes → Option WriteErr × Outgoing
  | [] => (none, conn)
  | b :: bs =>
    match conn.write b with
    | (some err, conn) => (some err, conn)
    | (none, conn) => conn.writeBuffers bs

end Outgoing

/-- `proxy.writePrefixed`. -/
def writePrefixed (b : Bytes) (conn : Outgoing) : Option WriteErr × Outgoing :=
  match lengthPrefix b.length with
  | none => (some (.frameLength b.length), conn)
  | some head => conn.writeBuffers [head, b]

/-- `dnscrypt.writePrefixed` on a connection. -/
def DnsCrypt.writePrefixedTo (b : Bytes) (conn : Outgoing) : Option WriteErr × Outgoing :=
  match lengthPrefix b.length with
  | none => (some .queryTooLarge, conn)
  | some head =>
    let (err, conn) := conn.writeBuffers [head, b]
    (err.map (.annotated "writing to connection"), conn)

/-! ## Reading -/

inductive FrameErr (ε : Type)
  | annotated (text : String) (e : ReadError ε)
  /-- `errTooLarge`. -/
  | tooLarge
deriving DecidableEq, Repr

section Reading

variable {ε : Type}

/-- `proxy.readPrefixed`. -/
def readPrefixed (conn : Reader ε) : Except (FrameErr ε) Bytes × Reader ε :=
  let l := conn.readFull 2
  match l.err with
  | some err => (.error (.annotated "reading len" err), l.rest)
  | none =>
    let packetLen := BigEndian.decode l.bytes
    if DnsCrypt.maxMsgSize < packetLen then (.error .tooLarge, l.rest)
    else
      let b := l.rest.readFull packetLen
      match b.err with
      | some err => (.error (.annotated "reading msg" err), b.rest)
      | none => (.ok b.bytes, b.rest)

/-- `dnscrypt.readPrefixed`. -/
def DnsCrypt.readPrefixed (conn : Reader ε) : Except (FrameErr ε) Bytes × Reader ε :=
  let l := conn.readFull 2
  match l.err with
  | some err => (.error (.annotated "reading msg len" err), l.rest)
  | none =>
    let packetLen := BigEndian.decode l.bytes
    let buf := l.rest.readFull packetLen
    match buf.err with
    | some err => (.error (.annotated "reading full message" err), buf.rest)
    | none => (.ok buf.bytes, buf.rest)

end Reading

/-! ## The two packages -/

/-- The packages that have the pair of functions. -/
inductive FramingPackage
  | proxy
  | dnscrypt
deriving DecidableEq, Repr

namespace FramingPackage

variable {ε : Type}

def writePrefixed : FramingPackage → Bytes → Outgoing → Option WriteErr × Outgoing
  | proxy => DnsProxy.writePrefixed
  | dnscrypt => DnsCrypt.writePrefixedTo

def readPrefixed : FramingPackage → Reader ε → Except (FrameErr ε) Bytes × Reader ε
  | proxy => DnsProxy.readPrefixed
  | dnscrypt => DnsCrypt.readPrefixed

/-- What the packages call the parts of a frame in their errors. -/
def lenText : FramingPackage → String
  | proxy => "reading len"
  | dnscrypt => "reading msg len"

def msgText : FramingPackage → String
  | proxy => "reading msg"
  | dnscrypt => "reading full message"

end FramingPackage

/-- A message behind its length. -/
def frame (m : Bytes) : Bytes := BigEndian.encode 2 m.length ++ m

@[simp] theorem length_frame (m : Bytes) : (frame m).length = m.length + 2 := by
  simp [frame, Nat.add_comm]

theorem take_frame (m : Bytes) (rest : Bytes) :
    (frame m ++ rest).take 2 = BigEndian.encode 2 m.length := by
  rw [frame, List.append_assoc]
  exact List.take_left' (BigEndian.length_encode 2 _)

theorem drop_frame (m : Bytes) (rest : Bytes) : (frame m ++ rest).drop 2 = m ++ rest := by
  rw [frame, List.append_assoc]
  exact List.drop_left' (BigEndian.length_encode 2 _)

theorem decode_length {m : Bytes} (h : m.length ≤ 65535) :
    BigEndian.decode (BigEndian.encode 2 m.length) = m.length :=
  BigEndian.decode_encode_of_lt (Nat.lt_succ_of_le h)

theorem decode_two_le {b : Bytes} (h : b.length = 2) : BigEndian.decode b ≤ 65535 := by
  match b, h with
  | [b0, b1], _ =>
    have h0 := b0.toNat_lt
    have h1 := b1.toNat_lt
    simp only [BigEndian.decode, List.foldl_cons, List.foldl_nil]
    omega

section Frames

variable {ε : Type} (pkg : FramingPackage)

theorem readPrefixed_eq (conn : Reader ε) :
    pkg.readPrefixed conn =
      match (conn.readFull 2).err with
      | some err => (.error (.annotated pkg.lenText err), (conn.readFull 2).rest)
      | none =>
        let b := (conn.readFull 2).rest.readFull (BigEndian.decode (conn.readFull 2).bytes)
        match b.err with
        | some err => (.error (.annotated pkg.msgText err), b.rest)
        | none => (.ok b.bytes, b.rest) := by
  cases pkg with
  | dnscrypt => rfl
  | proxy =>
    simp only [FramingPackage.readPrefixed, readPrefixed, FramingPackage.lenText,
      FramingPackage.msgText]
    rcases Nat.lt_or_ge conn.data.length 2 with hshort | henough
    · simp only [Reader.readFull_short hshort]
    · obtain ⟨hbytes, herr, -, -⟩ := Reader.readFull_enough henough
      have hle : ¬DnsCrypt.maxMsgSize < BigEndian.decode (conn.readFull 2).bytes := by
        rw [hbytes]
        exact Nat.not_lt.mpr (decode_two_le (List.length_take_of_le henough))
      simp only [herr, if_neg hle]

variable {conn conn' : Reader ε} {m : Bytes}

/-- A frame is taken off the stream. -/
theorem readPrefixed_frame {rest : Bytes} (hm : m.length ≤ 65535)
    (hdata : conn.data = frame m ++ rest) :
    ∃ conn', pkg.readPrefixed conn = (.ok m, conn') ∧ conn'.data = rest ∧
      conn'.failure = conn.failure := by
  have hlen : 2 ≤ conn.data.length := by
    rw [hdata, List.length_append, length_frame]
    exact Nat.le_add_right_of_le (Nat.le_add_left 2 _)
  obtain ⟨hbytes, herr, hrest, hfail⟩ := Reader.readFull_enough hlen
  rw [hdata, take_frame] at hbytes
  rw [hdata, drop_frame] at hrest
  have hbody : m.length ≤ (conn.readFull 2).rest.data.length := by simp [hrest]
  obtain ⟨hbytes', herr', hrest', hfail'⟩ := Reader.readFull_enough hbody
  rw [hrest, List.take_left] at hbytes'
  rw [hrest, List.drop_left] at hrest'
  refine ⟨((conn.readFull 2).rest.readFull m.length).rest, ?_, hrest', hfail'.trans hfail⟩
  simp only [readPrefixed_eq, herr, hbytes, decode_length hm, herr', hbytes']

/-- A stream that ends before the frame does gives an error. -/
theorem readPrefixed_cut (hm : m.length ≤ 65535) (hcut : conn.data <+: frame m)
    (hne : conn.data ≠ frame m) : ∃ err conn', pkg.readPrefixed conn = (.error err, conn') := by
  have hlt : conn.data.length < m.length + 2 := by
    rw [← length_frame]
    exact Nat.lt_of_le_of_ne hcut.length_le fun h => hne (hcut.eq_of_length h)
  rcases Nat.lt_or_ge conn.data.length 2 with hshort | henough
  · exact ⟨_, _, by rw [readPrefixed_eq, Reader.readFull_short hshort]⟩
  · obtain ⟨hbytes, herr, hrest, -⟩ := Reader.readFull_enough henough
    have hhead : (conn.readFull 2).bytes = BigEndian.encode 2 m.length := by
      obtain ⟨t, ht⟩ := hcut
      have htake := take_frame m []
      rwa [List.append_nil, ← ht, List.take_append_of_le_length henough, ← hbytes] at htake
    have hbody : (conn.readFull 2).rest.data.length < m.length := by
      rw [hrest, List.length_drop]
      exact (Nat.sub_lt_iff_lt_add henough).mpr hlt
    obtain ⟨err, herr'⟩ : ∃ err, ((conn.readFull 2).rest.readFull m.length).err = some err :=
      ⟨_, Reader.readFull_short hbody⟩
    refine ⟨.annotated pkg.msgText err, ((conn.readFull 2).rest.readFull m.length).rest, ?_⟩
    simp only [readPrefixed_eq, herr, hhead, decode_length hm, herr']

theorem readPrefixed_end (hdata : conn.data = []) :
    (pkg.readPrefixed conn).1 = .error (.annotated pkg.lenText conn.ending) := by
  have hshort : conn.data.length < 2 := by simp [hdata]
  rw [readPrefixed_eq, Reader.readFull_short hshort]
  simp [hdata]

/-! ## Many messages -/

theorem data_of_readPrefixed (h : pkg.readPrefixed conn = (.ok m, conn')) :
    conn.data = frame m ++ conn'.data ∧ m.length ≤ 65535 := by
  rw [readPrefixed_eq] at h
  rcases Nat.lt_or_ge conn.data.length 2 with hshort | henough
  · rw [Reader.readFull_short hshort] at h
    cases h
  · obtain ⟨hbytes, herr, hrest, -⟩ := Reader.readFull_enough henough
    have htwo : (conn.data.take 2).length = 2 := List.length_take_of_le henough
    rw [herr, hbytes] at h
    dsimp only at h
    generalize (conn.readFull 2).rest = body at h hrest
    rcases Nat.lt_or_ge body.data.length (BigEndian.decode (conn.data.take 2)) with hcut | hwhole
    · rw [Reader.readFull_short hcut] at h
      cases h
    · obtain ⟨hmsg, herr', hrest', -⟩ := Reader.readFull_enough hwhole
      rw [herr'] at h
      obtain ⟨hm, rfl⟩ := Prod.mk.inj h
      obtain rfl : _ = m := Except.ok.inj hm
      have hlen : (body.data.take (BigEndian.decode (conn.data.take 2))).length =
          BigEndian.decode (conn.data.take 2) := List.length_take_of_le hwhole
      have hhead : BigEndian.encode 2 (BigEndian.decode (conn.data.take 2)) =
          conn.data.take 2 := by
        have hencode := BigEndian.encode_decode (conn.data.take 2)
        rwa [htwo] at hencode
      constructor
      · rw [hmsg, hrest', frame, hlen, hhead, List.append_assoc, List.take_append_drop, hrest,
          List.take_append_drop]
      · rw [hmsg, hlen]
        exact decode_two_le htwo

theorem length_readPrefixed_lt (h : pkg.readPrefixed conn = (.ok m, conn')) :
    conn'.data.length < conn.data.length := by
  rw [(data_of_readPrefixed pkg h).1, List.length_append, length_frame]
  omega

/-- Messages one after the other, each behind its length. -/
def frames (msgs : List Bytes) : Bytes := (msgs.map frame).flatten

@[simp] theorem frames_nil : frames [] = [] := rfl

@[simp] theorem frames_cons (m : Bytes) (msgs : List Bytes) :
    frames (m :: msgs) = frame m ++ frames msgs := rfl

@[simp] theorem frames_append (msgs msgs' : List Bytes) :
    frames (msgs ++ msgs') = frames msgs ++ frames msgs' := by
  simp [frames]

/-- `writePrefixed` for one message after the other, up to the first that fails. -/
def FramingPackage.writeMsgs : List Bytes → Outgoing → Option WriteErr × Outgoing
  | [], conn => (none, conn)
  | m :: ms, conn =>
    match pkg.writePrefixed m conn with
    | (some err, conn) => (some err, conn)
    | (none, conn) => writeMsgs ms conn

/-- `readPrefixed` again and again until it fails: the messages, and the error. -/
def FramingPackage.readMsgs (conn : Reader ε) : List Bytes × FrameErr ε :=
  match h : pkg.readPrefixed conn with
  | (.error err, _) => ([], err)
  | (.ok m, conn') =>
    have : conn'.data.length < conn.data.length := length_readPrefixed_lt pkg h
    let (ms, err) := readMsgs conn'
    (m :: ms, err)
termination_by conn.data.length

theorem readMsgs_error {err : FrameErr ε} (h : pkg.readPrefixed conn = (.error err, conn')) :
    pkg.readMsgs conn = ([], err) := by
  rw [FramingPackage.readMsgs]
  split
  · next err' _ h' =>
    cases h.symm.trans h'
    rfl
  · next h' => cases h.symm.trans h'

theorem readMsgs_ok (h : pkg.readPrefixed conn = (.ok m, conn')) :
    pkg.readMsgs conn = (m :: (pkg.readMsgs conn').1, (pkg.readMsgs conn').2) := by
  rw [FramingPackage.readMsgs]
  split
  · next h' => cases h.symm.trans h'
  · next h' =>
    cases h.symm.trans h'
    rfl

theorem readMsgs_frames {msgs : List Bytes} {rest : Bytes} (hmsgs : ∀ m ∈ msgs, m.length ≤ 65535)
    (hdata : conn.data = frames msgs ++ rest) :
    ∃ conn', conn'.data = rest ∧ conn'.failure = conn.failure ∧
      pkg.readMsgs conn = (msgs ++ (pkg.readMsgs conn').1, (pkg.readMsgs conn').2) := by
  induction msgs generalizing conn with
  | nil => exact ⟨conn, hdata, rfl, rfl⟩
  | cons m ms ih =>
    rw [frames_cons, List.append_assoc] at hdata
    obtain ⟨conn₁, hread, hdata₁, hfail₁⟩ :=
      readPrefixed_frame pkg (hmsgs m List.mem_cons_self) hdata
    obtain ⟨conn', hdata', hfail', hrest⟩ :=
      ih (fun m hm => hmsgs m (List.mem_cons_of_mem _ hm)) hdata₁
    refine ⟨conn', hdata', hfail'.trans hfail₁, ?_⟩
    rw [readMsgs_ok pkg hread, hrest]
    rfl

theorem readMsgs_all {msgs : List Bytes} (hdata : conn.data = frames msgs)
    (hmsgs : ∀ b ∈ msgs, b.length ≤ 65535) : (pkg.readMsgs conn).1 = msgs := by
  obtain ⟨conn', hend, -, hread⟩ :=
    readMsgs_frames pkg hmsgs (hdata.trans (List.append_nil _).symm)
  rw [hread, readMsgs_error pkg (Prod.ext (readPrefixed_end pkg hend) rfl)]
  exact List.append_nil _

theorem writePrefixed_sent (hm : m.length ≤ 65535) (sent : Bytes) :
    pkg.writePrefixed m ⟨sent, none⟩ = (none, ⟨sent ++ frame m, none⟩) := by
  cases pkg <;>
    simp [FramingPackage.writePrefixed, writePrefixed, DnsCrypt.writePrefixedTo, lengthPrefix,
      Nat.not_lt.mpr hm, Outgoing.writeBuffers, Outgoing.write, frame]

theorem writeMsgs_sent {msgs : List Bytes} (hmsgs : ∀ m ∈ msgs, m.length ≤ 65535)
    (sent : Bytes) :
    pkg.writeMsgs msgs ⟨sent, none⟩ = (none, ⟨sent ++ frames msgs, none⟩) := by
  induction msgs generalizing sent with
  | nil => simp [FramingPackage.writeMsgs]
  | cons m ms ih =>
    rw [FramingPackage.writeMsgs, writePrefixed_sent pkg (hmsgs m List.mem_cons_self)]
    dsimp only
    rw [ih (fun m hm => hmsgs m (List.mem_cons_of_mem _ hm))]
    simp

theorem writePrefixed_tooLong (hm : 65535 < m.length) (conn : Outgoing) :
    ∃ err, pkg.writePrefixed m conn = (some err, conn) := by
  cases pkg with
  | proxy =>
    exact ⟨.frameLength m.length, by
      simp [FramingPackage.writePrefixed, writePrefixed, lengthPrefix, hm]⟩
  | dnscrypt =>
    exact ⟨.queryTooLarge, by
      simp [FramingPackage.writePrefixed, DnsCrypt.writePrefixedTo, lengthPrefix, hm]⟩

/-- In both packages: the messages that are written are read, in whatever pieces they come,
and then an error; a message that is too long is refused before anything is sent; and of a
frame that is cut off nothing is read. -/
theorem framing_round_trip (msgs : List Bytes) (hmsgs : ∀ m ∈ msgs, m.length ≤ 65535)
    (sch : Schedule) (failure : Option ε) :
    ∃ stream : Bytes,
      pkg.writeMsgs msgs {} = (none, { sent := stream }) ∧
      pkg.readMsgs ⟨sch, 0, stream, failure⟩ =
        (msgs, .annotated pkg.lenText (Reader.ending ⟨sch, 0, stream, failure⟩)) ∧
      (∀ m conn, 65535 < m.length → ∃ err, pkg.writePrefixed m conn = (some err, conn)) ∧
      ∀ m cut, m.length ≤ 65535 → cut <+: frame m → cut ≠ frame m →
        ∃ err, pkg.readMsgs ⟨sch, 0, stream ++ cut, failure⟩ = (msgs, err) := by
  have hcut : ∀ (cut : Bytes), ∃ conn' : Reader ε, conn'.data = cut ∧ conn'.failure = failure ∧
      pkg.readMsgs ⟨sch, 0, frames msgs ++ cut, failure⟩ =
        (msgs ++ (pkg.readMsgs conn').1, (pkg.readMsgs conn').2) :=
    fun cut => @readMsgs_frames ε pkg ⟨sch, 0, _, failure⟩ msgs cut hmsgs rfl
  refine ⟨frames msgs, by simpa using writeMsgs_sent pkg hmsgs [], ?_,
    fun m conn hm => writePrefixed_tooLong pkg hm conn, fun m cut hm hpre hne => ?_⟩
  · obtain ⟨conn', hdata, hfail, hread⟩ := hcut []
    rw [List.append_nil] at hread
    have hend := readMsgs_error pkg (Prod.ext (readPrefixed_end pkg hdata) rfl)
    rw [hread, hend]
    simp [Reader.ending, hfail]
  · obtain ⟨conn', hdata, -, hread⟩ := hcut cut
    obtain ⟨err, conn₂, herr⟩ :=
      readPrefixed_cut pkg hm (hdata ▸ hpre : conn'.data <+: frame m) (hdata ▸ hne)
    rw [hread, readMsgs_error pkg herr]
    exact ⟨err, by simp⟩

end Frames

/-- A stream that comes byte by byte. -/
def byteByByte : Schedule := ⟨fun _ => 1, fun _ => Nat.one_pos, fun _ => false⟩

theorem framing_round_trip_two :
    FramingPackage.proxy.readMsgs ⟨byteByByte, 0, [0, 3, 1, 2, 3, 0, 0], (none : Option Nat)⟩ =
      ([[1, 2, 3], []], .annotated "reading len" .eof) := by
  obtain ⟨stream, hwrite, hread, -⟩ :=
    @framing_round_trip Nat .proxy [[1, 2, 3], []] (by decide) byteByByte none
  have hstream : [0, 3, 1, 2, 3, 0, 0] = stream := congrArg (fun w => w.2.sent) hwrite
  rw [hstream]
  exact hread

theorem DnsCrypt.writePrefixedTo_eq (b sent : Bytes) :
    DnsCrypt.writePrefixedTo b { sent := sent } =
      match DnsCrypt.writePrefixed b with
      | .ok f => (none, { sent := sent ++ f })
      | _ => (some .queryTooLarge, { sent := sent }) := by
  unfold DnsCrypt.writePrefixedTo DnsCrypt.writePrefixed
  cases lengthPrefix b.length with
  | none => rfl
  | some head => simp [Outgoing.writeBuffers, Outgoing.write]

end DnsProxy
