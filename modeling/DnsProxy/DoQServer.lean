import DnsProxy.Framing
import DnsProxy.Respond

/-!
# The DoQ server

A client sends its query on a stream of its own. In DoQ v1 the message stands behind its
length, in the drafts it stands alone, and the answer has the form of the query. Which one
it is, is read off the first two bytes: they are the length of what follows, or else the
message is taken to start with them.

A message that stands alone starts with its id, so that it is taken for the other form when
the id happens to be its length less two.

* `readAll_delivers`: a stream that is shorter than the buffer is read to its end.
* `readAll_fits_iff`: one that is as long as the buffer is read to its end just if the end
  comes with the last byte.
* `framing_detected_iff`: both forms are told apart just for the messages without that id.
-/

namespace DnsProxy

open ByteStream (Reader ReadError Schedule)

/-! ## Reading the stream -/

inductive ReadAllErr (ε : Type)
  /-- `io.ErrShortBuffer`. -/
  | shortBuffer
  | read (e : ReadError ε)
deriving DecidableEq, Repr

/-- `readAll` into a buffer of the given size, after the bytes `got`. -/
def readAll {ε : Type} (r : Reader ε) (size : Nat) (got : Bytes) :
    Bytes × Option (ReadAllErr ε) :=
  if hlt : got.length < size then
    let one := r.read (size - got.length)
    match herr : one.err with
    | some .eof => (got ++ one.bytes, none)
    | some err => (got ++ one.bytes, some (.read err))
    | none =>
      have : 0 < one.bytes.length := Reader.read_progress (Nat.sub_pos_of_lt hlt) herr
      readAll one.rest size (got ++ one.bytes)
  else (got, some .shortBuffer)
termination_by size - got.length
decreasing_by
  exact Nat.sub_lt_sub_left hlt (by rw [List.length_append]; exact Nat.lt_add_of_pos_right this)

/-- A stream that is shorter than the buffer is read to its end. -/
theorem readAll_delivers {ε : Type} {r : Reader ε} {size : Nat} {got : Bytes}
    (hlen : got.length + r.data.length < size) (hend : r.failure = none) :
    readAll r size got = (got ++ r.data, none) := by
  have hending : ∀ r : Reader ε, r.failure = none → r.ending = .eof := by
    intro r hr
    rw [Reader.ending, hr]
  fun_induction readAll r size got with
  | case1 r got hlt one herr =>
    obtain ⟨hdata, -, -, hlast⟩ := r.read_spec (size - got.length)
    rw [(hlast _ herr).2, List.append_nil] at hdata
    rw [hdata]
  | case2 r got hlt one err hne herr =>
    obtain ⟨-, -, -, hlast⟩ := r.read_spec (size - got.length)
    exact absurd ((hlast _ herr).1.trans (hending r hend)) hne
  | case3 r got hlt one herr _ ih =>
    obtain ⟨hdata, -, hfail, -⟩ := r.read_spec (size - got.length)
    rw [← hdata, List.length_append, ← Nat.add_assoc, ← List.length_append] at hlen
    rw [ih hlen (hfail.trans hend), List.append_assoc, hdata]
  | case4 r got hge => exact absurd (Nat.lt_of_le_of_lt (Nat.le_add_right ..) hlen) hge

/-- A stream that is as long as the buffer: its bytes are read, but the end is seen only if it
comes with the last one. -/
theorem readAll_full {ε : Type} {r : Reader ε} {size : Nat} {got : Bytes}
    (hlen : got.length + r.data.length = size) (hend : r.failure = none) :
    readAll r size got = (got ++ r.data,
      if r.data ≠ [] ∧ r.endsTogether = true then none else some .shortBuffer) := by
  fun_induction readAll r size got with
  | case1 r got hlt one herr =>
    have hne : r.data ≠ [] := List.ne_nil_of_length_pos (by omega)
    have hroom := @Reader.read_roomy ε r (size - got.length) hne (by omega)
    split at hroom
    · obtain ⟨-, hbytes, herr'⟩ := hroom
      have htogether : r.endsTogether = true := by
        by_contra hnot
        rw [if_neg hnot] at herr'
        cases herr'.symm.trans herr
      rw [if_pos ⟨hne, htogether⟩, hbytes]
    · cases hroom.2.1.symm.trans herr
  | case2 r got hlt one err hne herr =>
    obtain ⟨-, -, -, hlast⟩ := r.read_spec (size - got.length)
    have hending : r.ending = .eof := by rw [Reader.ending, hend]
    exact absurd ((hlast _ herr).1.trans hending) hne
  | case3 r got hlt one herr _ ih =>
    obtain ⟨hdata, -, hfail, -⟩ := r.read_spec (size - got.length)
    have hne : r.data ≠ [] := List.ne_nil_of_length_pos (by omega)
    have hroom := @Reader.read_roomy ε r (size - got.length) hne (by omega)
    rw [ih (by rw [← hlen, ← hdata, List.length_append, List.length_append, Nat.add_assoc])
      (hfail.trans hend), List.append_assoc, hdata]
    split at hroom
    · -- the buffer is full, and the end has not been seen
      obtain ⟨hnil, -, herr'⟩ := hroom
      have hnot : ¬ r.endsTogether = true := by
        intro htogether
        rw [if_pos htogether] at herr'
        cases herr'.symm.trans herr
      rw [if_neg fun h => h.1 hnil, if_neg fun h => hnot h.2]
    · obtain ⟨hrest, -, htogether⟩ := hroom
      have hrest' : one.rest.data ≠ [] := hrest
      have htogether' : one.rest.endsTogether = r.endsTogether := htogether
      simp [hne, hrest', htogether']
  | case4 r got hge =>
    have hnil : r.data = [] := List.eq_nil_of_length_eq_zero (by omega)
    rw [hnil, List.append_nil, if_neg fun h => h.1 rfl]

theorem readAll_long {ε : Type} {r : Reader ε} {size : Nat} {got : Bytes} (hgot : got.length ≤ size)
    (hlen : size < got.length + r.data.length) :
    readAll r size got = (got ++ r.data.take (size - got.length), some .shortBuffer) := by
  fun_induction readAll r size got with
  | case1 r got hlt one herr =>
    obtain ⟨hdata, hle, -, hlast⟩ := r.read_spec (size - got.length)
    rw [(hlast _ herr).2, List.append_nil] at hdata
    rw [← hdata] at hlen
    omega
  | case2 r got hlt one err hne herr =>
    obtain ⟨hdata, hle, -, hlast⟩ := r.read_spec (size - got.length)
    rw [(hlast _ herr).2, List.append_nil] at hdata
    rw [← hdata] at hlen
    omega
  | case3 r got hlt one herr _ ih =>
    obtain ⟨hdata, hle, -, -⟩ := r.read_spec (size - got.length)
    have hdata' : one.bytes ++ one.rest.data = r.data := hdata
    have hle' : one.bytes.length ≤ size - got.length := hle
    rw [← hdata', List.length_append] at hlen
    rw [ih (by rw [List.length_append]; omega) (by rw [List.length_append]; omega), ← hdata',
      List.take_append, List.take_of_length_le hle', List.length_append, List.append_assoc,
      Nat.sub_sub]
  | case4 r got hge =>
    rw [Nat.sub_eq_zero_of_le (Nat.not_lt.mp hge), List.take_zero, List.append_nil]

/-! ## The request -/

inductive DoQVersion
  | v1Draft
  | v1
deriving DecidableEq, Repr

def minDNSPacketSize : Nat := 12 + 5

/-- The buffers have room for a message and its length. -/
def bytesPoolSize : Nat := 2 + DnsCrypt.maxMsgSize

/-- What becomes of a stream. -/
inductive StreamServed
  | shortRead
  /-- The connection is closed with `DoQCodeProtocolError`. -/
  | protocolError
  | request (req : Msg) (version : DoQVersion)
deriving DecidableEq

/-- The message in what was read, and the version that this makes it. -/
def quicPacket (buf : Bytes) : Bytes × DoQVersion :=
  let packetLen := BigEndian.decode (buf.take 2)
  if packetLen = buf.length - 2 then (buf.drop 2, .v1) else (buf, .v1Draft)

/-- `handleQUICStream` up to the request. -/
def handleQUICStream {ε : Type} (pf : Platform) (conn : QUICState) (stream : Reader ε) :
    StreamServed :=
  let (buf, err) := readAll stream bytesPoolSize []
  if err.isSome ∨ buf.length < minDNSPacketSize then .shortRead
  else
    let (packet, doqVersion) := quicPacket buf
    match pf.unpack packet with
    | none => .protocolError
    | some req => if validQUICMsg conn req then .request req doqVersion else .protocolError

/-! ## The answer -/

inductive RespondQUICErr
  /-- The connection is closed with `DoQCodeInternalError`. -/
  | noResponse
  | pack
  | frameLength
deriving DecidableEq, Repr

/-- `respondQUIC`, up to what is written to the stream. -/
def respondQUIC (pf : Platform) (doqVersion : DoQVersion) : Option Msg → Except RespondQUICErr Bytes
  | none => .error .noResponse
  | some resp =>
    match pf.pack resp with
    | none => .error .pack
    | some bytes =>
      match doqVersion with
      | .v1 =>
        match lengthPrefix bytes.length with
        | none => .error .frameLength
        | some head => .ok (head ++ bytes)
      | .v1Draft => .ok bytes

/-- What is written to the stream, after the pipeline of the proxy. -/
def Proxy.serveQUICStream {ε : Type} (pf : Platform) (p : Proxy) (rd : RecursionDetector)
    (h : Handling) (now : Instant) (addr : Addr) (conn : QUICState) (stream : Reader ε) :
    List Bytes :=
  match handleQUICStream pf conn stream with
  | .request req doqVersion =>
    match p.prepareReply pf rd h now ((Arrival.request req).context addr .quic) with
    | .error _ => []
    | .ok (res, _) =>
      match respondQUIC pf doqVersion res with
      | .error _ => []
      | .ok buf => if h.write.sent then [buf] else []
  | _ => []

/-- The form of an answer: behind its length, which has to fit, or alone. -/
def answerForm (pf : Platform) : DoQVersion → Msg → Option Bytes
  | .v1, res => (pf.pack res).bind fun b => if b.length ≤ 65535 then some (frame b) else none
  | .v1Draft, res => pf.pack res

theorem respondQUIC_of_form {pf : Platform} {version : DoQVersion} {res : Msg} {buf : Bytes}
    (h : answerForm pf version res = some buf) : respondQUIC pf version (some res) = .ok buf := by
  unfold respondQUIC
  cases version with
  | v1Draft =>
    simp only [answerForm] at h
    simp only [h]
  | v1 =>
    obtain ⟨b, hpack, hb⟩ := Option.bind_eq_some_iff.mp h
    split at hb
    · next hle =>
      obtain rfl := Option.some.inj hb
      simp [hpack, lengthPrefix, Nat.not_lt.mpr hle, frame]
    · cases hb

/-! ## Telling the forms apart -/

/-- The stream is processed as the request, and whatever the pipeline answers is written in
the form of the version. -/
structure ServedAs {ε : Type} (pf : Platform) (conn : QUICState) (stream : Reader ε) (req : Msg)
    (version : DoQVersion) : Prop where
  processed : handleQUICStream pf conn stream = .request req version
  answered : ∀ (p : Proxy) rd (h : Handling) now addr res err buf,
    p.prepareReply pf rd h now ((Arrival.request req).context addr .quic) = .ok (some res, err) →
    answerForm pf version res = some buf →
    p.serveQUICStream pf rd h now addr conn stream = if h.write.sent then [buf] else []

section Forms

variable {ε : Type} {pf : Platform} {conn : QUICState} {stream : Reader ε} {req : Msg}
  {version : DoQVersion}

theorem servedAs_iff : ServedAs pf conn stream req version ↔
    handleQUICStream pf conn stream = .request req version := by
  refine ⟨ServedAs.processed, fun hreq => ⟨hreq, ?_⟩⟩
  intro p rd h now addr res err buf hreply hform
  simp only [Proxy.serveQUICStream, hreq, hreply, respondQUIC_of_form hform]

theorem handleQUICStream_of_delivered {buf : Bytes} (hmin : minDNSPacketSize ≤ buf.length)
    (hread : readAll stream bytesPoolSize [] = (buf, none)) :
    handleQUICStream pf conn stream =
      match pf.unpack (quicPacket buf).1 with
      | none => .protocolError
      | some req =>
        if validQUICMsg conn req then .request req (quicPacket buf).2 else .protocolError := by
  have hlong : ¬(none : Option (ReadAllErr ε)).isSome ∧ ¬buf.length < minDNSPacketSize :=
    ⟨by simp, Nat.not_lt.mpr hmin⟩
  simp only [handleQUICStream, hread, if_neg (not_or.mpr hlong)]

theorem quicPacket_frame {m : Bytes} (hmax : m.length ≤ 65535) :
    quicPacket (frame m) = (m, .v1) := by
  have htake := take_frame m []
  have hdrop := drop_frame m []
  simp only [List.append_nil] at htake hdrop
  simp [quicPacket, htake, hdrop, decode_length hmax]

theorem quicPacket_draft_iff (m : Bytes) :
    (quicPacket m).2 = .v1Draft ↔ BigEndian.decode (m.take 2) ≠ m.length - 2 := by
  unfold quicPacket
  dsimp only
  split
  · next h => simp [h]
  · next h => simp [h]

/-- For every message that the server takes, and however the stream comes in as long as it is
read to its end: with its length before it the message is processed and answered as DoQ v1,
and alone it is processed and answered as a draft, just if its id is not its length less
two. -/
theorem framing_detected_iff {m : Bytes} (hmin : 17 ≤ m.length) (hmax : m.length ≤ 65535)
    (hunpack : pf.unpack m = some req) (hvalid : validQUICMsg conn req = true)
    {framed bare : Reader ε} (hframed : readAll framed bytesPoolSize [] = (frame m, none))
    (hbare : readAll bare bytesPoolSize [] = (m, none)) :
    (ServedAs pf conn framed req .v1 ∧ ServedAs pf conn bare req .v1Draft) ↔
      BigEndian.decode (m.take 2) ≠ m.length - 2 := by
  have hframe : ServedAs pf conn framed req .v1 := by
    have hlong : minDNSPacketSize ≤ (frame m).length := by
      rw [length_frame]
      exact Nat.le_add_right_of_le hmin
    rw [servedAs_iff, handleQUICStream_of_delivered hlong hframed, quicPacket_frame hmax]
    simp only [hunpack, hvalid, if_true]
  rw [and_iff_right hframe, servedAs_iff, handleQUICStream_of_delivered hmin hbare]
  constructor
  · intro hserved
    refine (quicPacket_draft_iff m).mp ?_
    split at hserved
    · cases hserved
    · split at hserved
      · exact (StreamServed.request.inj hserved).2
      · cases hserved
  · intro hid
    have hpacket : quicPacket m = (m, .v1Draft) := by simp [quicPacket, hid]
    simp only [hpacket, hunpack, hvalid, if_true]

end Forms

/-! ### Two queries -/

/-- The wire form of `exampleQuery` with another id below 256. -/
def queryWire (id : UInt8) : Bytes :=
  [0, id, 1, 0, 0, 1, 0, 0, 0, 0, 0, 0] ++ exampleOrgWire ++ [0, 1, 0, 1]

/-- A platform that knows the query with the ids 1 and 27. -/
def twoQueriesPlatform : Platform :=
  .ofTable [(exampleQuery, queryWire 1), ({ exampleQuery with id := 27 }, queryWire 27)]

/-- A stream with this data that is closed at its end. -/
def closedStream (data : Bytes) : Reader Nat := ⟨byteByByte, 0, data, none⟩

theorem closedStream_delivered {data : Bytes} (h : data.length < bytesPoolSize) :
    readAll (closedStream data) bytesPoolSize [] = (data, none) :=
  readAll_delivers (by rwa [List.length_nil, Nat.zero_add]) rfl

theorem framing_detected_one :
    ServedAs twoQueriesPlatform newQUICState (closedStream (frame (queryWire 1))) exampleQuery .v1 ∧
      ServedAs twoQueriesPlatform newQUICState (closedStream (queryWire 1)) exampleQuery .v1Draft :=
  (framing_detected_iff (by decide) (by decide) (by decide +kernel) (by decide +kernel)
    (closedStream_delivered (by decide)) (closedStream_delivered (by decide))).mpr (by decide)

/-- The query has 29 bytes. With the id 27 it is taken for a length and 27 bytes after it,
which are not a message, and the connection is closed. -/
theorem draft_query_refused :
    twoQueriesPlatform.unpack (queryWire 27) = some { exampleQuery with id := 27 } ∧
      validQUICMsg newQUICState { exampleQuery with id := 27 } = true ∧
      (queryWire 27).length = 29 ∧
      handleQUICStream twoQueriesPlatform newQUICState (closedStream (queryWire 27)) =
        .protocolError := by
  refine ⟨by decide +kernel, by decide +kernel, rfl, ?_⟩
  rw [handleQUICStream_of_delivered (by decide) (closedStream_delivered (by decide))]
  decide +kernel

/-! ### Streams that are as long as the buffer -/

section Full

variable {ε : Type} {r : Reader ε}

/-- What `readAll` should return for a buffer of the given size. -/
def readAllSpec (r : Reader ε) (size : Nat) : Bytes × Option (ReadAllErr ε) :=
  if r.data.length ≤ size then (r.data, none) else (r.data.take size, some .shortBuffer)

theorem readAll_of_ne (hend : r.failure = none) {size : Nat} (hne : r.data.length ≠ size) :
    readAll r size [] = readAllSpec r size := by
  unfold readAllSpec
  split
  · next hle =>
    have hlt : r.data.length < size := Nat.lt_of_le_of_ne hle hne
    rw [readAll_delivers (by simpa using hlt) hend, List.nil_append]
  · next hlt =>
    rw [readAll_long (Nat.zero_le _) (by simpa using hlt)]
    simp

theorem readAll_of_eq (hend : r.failure = none) {size : Nat} (heq : r.data.length = size) :
    readAll r size [] = readAllSpec r size ↔ 0 < size ∧ r.endsTogether = true := by
  have hpos : r.data ≠ [] ↔ 0 < size := by rw [← heq, List.length_pos_iff]
  rw [readAll_full (by simpa using heq) hend, readAllSpec, if_pos (Nat.le_of_eq heq),
    List.nil_append]
  by_cases h : r.data ≠ [] ∧ r.endsTogether = true
  · rw [if_pos h]
    exact ⟨fun _ => ⟨hpos.mp h.1, h.2⟩, fun _ => rfl⟩
  · rw [if_neg h]
    exact ⟨nofun, fun h' => absurd ⟨hpos.mpr h'.1, h'.2⟩ h⟩

theorem handleQUICStream_shortRead {pf : Platform} {conn : QUICState} {buf : Bytes}
    {err : ReadAllErr ε} (h : readAll r bytesPoolSize [] = (buf, some err)) :
    handleQUICStream pf conn r = .shortRead := by
  simp [handleQUICStream, h]

theorem handleQUICStream_ne_shortRead {pf : Platform} {conn : QUICState} {buf : Bytes}
    (hmin : minDNSPacketSize ≤ buf.length) (h : readAll r bytesPoolSize [] = (buf, none)) :
    handleQUICStream pf conn r ≠ .shortRead := by
  simp only [handleQUICStream, h, Option.isSome_none, Bool.false_eq_true, false_or,
    Nat.not_lt.mpr hmin, if_false]
  split
  · exact nofun
  · split <;> exact nofun

end Full

/-- `readAll` reads every stream that fits, and rejects the others, just if a stream that is as
long as the buffer has its end reported with its last byte. The largest requests are served
under the same condition. -/
theorem readAll_fits_iff {ε : Type} (r : Reader ε) (hend : r.failure = none) (size : Nat)
    (pf : Platform) (conn : QUICState) :
    (readAll r size [] = readAllSpec r size ∧
      (size = bytesPoolSize → minDNSPacketSize ≤ r.data.length → r.data.length ≤ size →
        handleQUICStream pf conn r ≠ .shortRead)) ↔
    (r.data.length = size → 0 < size ∧ r.endsTogether = true) := by
  constructor
  · rintro ⟨hread, -⟩ heq
    exact (readAll_of_eq hend heq).mp hread
  · intro h
    have hread : readAll r size [] = readAllSpec r size := by
      by_cases heq : r.data.length = size
      · exact (readAll_of_eq hend heq).mpr (h heq)
      · exact readAll_of_ne hend heq
    refine ⟨hread, ?_⟩
    rintro rfl hmin hle
    rw [readAllSpec, if_pos hle] at hread
    exact handleQUICStream_ne_shortRead hmin hread

/-- Three bytes go into a buffer of four, and into one of three if the end comes with the last of
them. -/
theorem readAll_fits_three :
    readAll (closedStream [1, 2, 3]) 4 [] = ([1, 2, 3], none) ∧
      readAll (⟨⟨fun _ => 2, fun _ => Nat.two_pos, fun _ => true⟩, 0, [1, 2, 3], none⟩ :
        Reader Nat) 3 [] = ([1, 2, 3], none) :=
  ⟨((readAll_fits_iff (closedStream [1, 2, 3]) rfl 4 twoQueriesPlatform newQUICState).mpr nofun).1,
    ((readAll_fits_iff (⟨⟨fun _ => 2, fun _ => Nat.two_pos, fun _ => true⟩, 0, [1, 2, 3], none⟩ :
      Reader Nat) rfl 3 twoQueriesPlatform newQUICState).mpr fun _ => ⟨by decide, rfl⟩).1⟩

/-- A stream of three bytes does not go into a buffer of three bytes when its end comes after
them, and a message of the greatest length with its length before it is not served. -/
theorem full_buffer_rejected :
    readAll (closedStream [1, 2, 3]) 3 [] = ([1, 2, 3], some .shortBuffer) ∧
      ∀ pf conn, handleQUICStream pf conn (closedStream (frame (List.replicate 65535 0))) =
        .shortRead := by
  have hfull : ∀ data : Bytes, readAll (closedStream data) data.length [] =
      (data, some .shortBuffer) := by
    intro data
    rw [readAll_full (by simp [closedStream]) rfl, if_neg fun h => Bool.false_ne_true h.2]
    rfl
  refine ⟨hfull [1, 2, 3], fun pf conn => ?_⟩
  have hsize : (frame (List.replicate 65535 0)).length = bytesPoolSize := by
    rw [length_frame, List.length_replicate]
    rfl
  have hread := hfull (frame (List.replicate 65535 0))
  rw [hsize] at hread
  exact handleQUICStream_shortRead hread

end DnsProxy
