import DnsProxy.Respond
import DnsProxy.Lib.BigEndian

/-!
# Malformed UDP queries

`udpHandlePacket` from the bytes of a datagram. A datagram that cannot be decoded is answered
with a format error if its header could be read, which the code takes from the header being
different from the zero value.

A header may be readable and all zero: an ordinary query with the id 0 and without flags. If
the rest of it cannot be decoded it gets no answer.

* `headerOf_eq_zero`: the headers that look as if nothing had been read.
* `serve_malformed`: what becomes of a datagram that cannot be decoded.
* `malformed_answered_iff`: when such a datagram is answered.
-/

namespace DnsProxy

/-! ## Headers -/

def headerSize : Nat := 12

/-- `Msg.setHdr`, on the bytes of a header. -/
def headerOf (packet : Bytes) : Msg :=
  let hi := packet.getD 2 0
  let lo := packet.getD 3 0
  { id := UInt16.ofNat (BigEndian.decode (packet.take 2))
    response := hi &&& 0x80 != 0
    opcode := (hi >>> 3 &&& 0xf).toNat
    authoritative := hi &&& 4 != 0
    truncated := hi &&& 2 != 0
    recursionDesired := hi &&& 1 != 0
    recursionAvailable := lo &&& 0x80 != 0
    zero := lo &&& 0x40 != 0
    authenticatedData := lo &&& 0x20 != 0
    checkingDisabled := lo &&& 0x10 != 0
    rcode := (lo &&& 0xf).toNat }

/-- What `dns.Msg.Unpack` leaves of a message that it cannot decode. -/
structure Unpacking (pf : Platform) where
  left : Bytes → Msg
  /-- A datagram without a header cannot be decoded, and nothing is set. -/
  short : ∀ packet, packet.length < headerSize → pf.unpack packet = none ∧ left packet = {}
  /-- The header is set first. -/
  header : ∀ packet, headerSize ≤ packet.length → pf.unpack packet = none →
    (left packet).header = headerOf packet
  /-- A reply has the header and at most a question that was decoded, and can be packed. -/
  packs : ∀ packet, pf.unpack packet = none → pf.pack (newMsgFORMERR (left packet)) ≠ none

/-- The id and the flags are all zero. -/
def ZeroStart (packet : Bytes) : Prop := packet.take 4 = [0, 0, 0, 0]

instance (packet : Bytes) : Decidable (ZeroStart packet) := inferInstanceAs (Decidable (_ = _))

theorem flags_hi_eq_zero : ∀ b : UInt8, (b &&& 0x80 = 0 ∧ (b >>> 3 &&& 0xf).toNat = 0 ∧
    b &&& 4 = 0 ∧ b &&& 2 = 0 ∧ b &&& 1 = 0) → b = 0 :=
  forall_byte (by decide +kernel)

theorem flags_lo_eq_zero : ∀ b : UInt8, (b &&& 0x80 = 0 ∧ b &&& 0x40 = 0 ∧ b &&& 0x20 = 0 ∧
    b &&& 0x10 = 0 ∧ (b &&& 0xf).toNat = 0) → b = 0 :=
  forall_byte (by decide +kernel)

theorem id_eq_zero {b c : UInt8} (h : UInt16.ofNat (BigEndian.decode [b, c]) = 0) :
    b = 0 ∧ c = 0 := by
  have hb := b.toNat_lt
  have hc := c.toNat_lt
  have hzero := congrArg UInt16.toNat h
  simp only [BigEndian.decode, List.foldl_cons, List.foldl_nil, UInt16.toNat_ofNat',
    UInt16.toNat_zero] at hzero
  have hboth : b.toNat = 0 ∧ c.toNat = 0 := by omega
  exact ⟨UInt8.toNat_inj.mp hboth.1, UInt8.toNat_inj.mp hboth.2⟩

/-- A header looks as if nothing had been read just if its id and its flags are zero. -/
theorem headerOf_eq_zero {packet : Bytes} (h : headerSize ≤ packet.length) :
    headerOf packet = {} ↔ ZeroStart packet := by
  obtain ⟨a, b, c, d, rest, rfl⟩ : ∃ a b c d rest, packet = a :: b :: c :: d :: rest := by
    match packet, h with
    | a :: b :: c :: d :: rest, _ => exact ⟨a, b, c, d, rest, rfl⟩
  constructor
  · intro heq
    simp only [headerOf, Msg.mk.injEq, List.getD_cons_succ, List.getD_cons_zero,
      bne_eq_false_iff_eq] at heq
    obtain ⟨hid, hqr, hopcode, haa, htc, hrd, hra, hz, had, hcd, hrcode, -⟩ := heq
    obtain ⟨rfl, rfl⟩ := id_eq_zero hid
    obtain rfl := flags_hi_eq_zero c ⟨hqr, hopcode, haa, htc, hrd⟩
    obtain rfl := flags_lo_eq_zero d ⟨hra, hz, had, hcd, hrcode⟩
    rfl
  · intro hzero
    obtain ⟨rfl, rfl, rfl, rfl⟩ : a = 0 ∧ b = 0 ∧ c = 0 ∧ d = 0 := by
      simpa [ZeroStart] using hzero
    simp [headerOf, BigEndian.decode, opcodeQuery, rcodeSuccess]

/-! ## Datagrams -/

section Packet

variable {pf : Platform} (x : Unpacking pf) (p : Proxy) (rd : RecursionDetector) (h : Handling)
  (now : Instant) (addr : Addr)

/-- `udpHandlePacket`: the messages that are written for a datagram. -/
def Proxy.udpHandlePacket (packet : Bytes) : List Msg :=
  p.serve pf rd h now addr .udp
    (match pf.unpack packet with
    | some req => .request req
    | none => .malformed (x.left packet))

/-- No middleware and no response handler is configured, and what is written is sent. -/
structure Handling.Plain (h : Handling) : Prop where
  middleware : h.middleware = fun d => .next d.res
  responseHandler : h.responseHandler = fun d => (d.res, none)
  write : h.write.sent = true

/-- What is promised for a datagram: if it has a header without the QR bit and cannot be
decoded, one format error with its id, and nothing if it is too short for a header. -/
structure FormatErrors (pf : Platform) (packet : Bytes) (sent : List Msg) : Prop where
  malformed : headerSize ≤ packet.length → packet.getD 2 0 &&& 0x80 = 0 →
    pf.unpack packet = none →
      ∃ m, sent = [m] ∧ m.id = UInt16.ofNat (BigEndian.decode (packet.take 2)) ∧
        m.rcode = rcodeFormatError
  short : packet.length < headerSize → sent = []

variable {x p rd h now addr} {packet : Bytes}

/-- A query that could not be decoded is answered without being validated or resolved. -/
theorem serve_malformed {left : Msg} (hplain : h.Plain) (hresp : left.response = false)
    (hzero : left.header ≠ {}) (hpack : pf.pack (newMsgFORMERR left) ≠ none) :
    p.serve pf rd h now addr .udp (.malformed left) = [newMsgFORMERR left] := by
  obtain ⟨wire, hwire⟩ := Option.ne_none_iff_exists'.mp hpack
  have hproc : p.processDNSRequest pf rd ((Arrival.malformed left).context addr .udp) now =
      .answered { (Arrival.malformed left).context addr .udp with
        isPrivateClient := p.privateNets addr } := by
    simp [Proxy.processDNSRequest, Arrival.context, hresp]
  have hprep : p.prepareReply pf rd h now ((Arrival.malformed left).context addr .udp) =
      .ok (some (newMsgFORMERR left), none) := by
    simp only [Proxy.prepareReply, hplain.middleware]
    rw [hproc]
    simp only [prepareResponse, hplain.responseHandler]
    rfl
  rw [Proxy.serve, if_pos ⟨rfl, hzero⟩, handleDNSRequest_sent, Proxy.requestPipeline, hprep]
  simp [Proxy.respond, Arrival.context, hwire, Handling.writeMsg, hplain.write]

theorem udpHandlePacket_malformed (hbad : pf.unpack packet = none) :
    p.udpHandlePacket x rd h now addr packet =
      p.serve pf rd h now addr .udp (.malformed (x.left packet)) := by
  rw [Proxy.udpHandlePacket, hbad]

theorem udpHandlePacket_zero (hbad : pf.unpack packet = none)
    (hzero : (x.left packet).header = {}) : p.udpHandlePacket x rd h now addr packet = [] := by
  rw [udpHandlePacket_malformed hbad]
  exact if_neg fun hanswer => hanswer.2 hzero

theorem udpHandlePacket_short (hshort : packet.length < headerSize) :
    p.udpHandlePacket x rd h now addr packet = [] := by
  obtain ⟨hbad, hleft⟩ := x.short packet hshort
  exact udpHandlePacket_zero hbad (by rw [hleft]; rfl)

theorem udpHandlePacket_answers (hplain : h.Plain) (hlen : headerSize ≤ packet.length)
    (hqr : packet.getD 2 0 &&& 0x80 = 0) (hbad : pf.unpack packet = none)
    (hstart : ¬ZeroStart packet) :
    p.udpHandlePacket x rd h now addr packet = [newMsgFORMERR (x.left packet)] := by
  have hheader := x.header packet hlen hbad
  have hresp : (x.left packet).response = false := by
    have hfield : (x.left packet).response = (packet.getD 2 0 &&& 0x80 != 0) :=
      congrArg Msg.response hheader
    rw [hfield, hqr]
    rfl
  have hzero : (x.left packet).header ≠ {} := by
    intro hzero
    exact hstart ((headerOf_eq_zero hlen).mp (hheader.symm.trans hzero))
  rw [udpHandlePacket_malformed hbad]
  exact serve_malformed hplain hresp hzero (x.packs packet hbad)

end Packet

/-- A datagram that cannot be decoded is answered just if its id and flags are not all zero. -/
theorem malformed_answered_iff {pf : Platform} (x : Unpacking pf) (p : Proxy)
    (rd : RecursionDetector) (h : Handling) (hplain : h.Plain) (now : Instant) (addr : Addr)
    (packet : Bytes) :
    FormatErrors pf packet (p.udpHandlePacket x rd h now addr packet) ↔
      ¬(headerSize ≤ packet.length ∧ pf.unpack packet = none ∧ ZeroStart packet) := by
  constructor
  · rintro hanswers ⟨hlen, hbad, hstart⟩
    have hof := (headerOf_eq_zero hlen).mpr hstart
    have hheader := (x.header packet hlen hbad).trans hof
    have hqr : packet.getD 2 0 &&& 0x80 = 0 := bne_eq_false_iff_eq.mp (congrArg Msg.response hof)
    obtain ⟨m, hm, -⟩ := hanswers.malformed hlen hqr hbad
    rw [udpHandlePacket_zero hbad hheader] at hm
    cases hm
  · intro hcond
    refine ⟨fun hlen hqr hbad => ?_, udpHandlePacket_short⟩
    have hstart : ¬ZeroStart packet := fun hstart => hcond ⟨hlen, hbad, hstart⟩
    refine ⟨_, udpHandlePacket_answers hplain hlen hqr hbad hstart, ?_, rfl⟩
    exact congrArg Msg.id (x.header packet hlen hbad)

/-! ## A query with the id 0 -/

/-- A platform that decodes nothing. -/
def headerPlatform : Platform :=
  { examplePlatform with pack := fun _ => some [], unpack := fun _ => none }

def headerUnpacking : Unpacking headerPlatform where
  left packet := if packet.length < headerSize then {} else headerOf packet
  short packet h := ⟨rfl, if_pos h⟩
  header packet h _ := by
    rw [if_neg (Nat.not_lt.mpr h)]
    rfl
  packs _ _ := nofun

/-- A query with the given id whose question is a label that is cut off. -/
def cutQuery (id : UInt8) : Bytes := [0, id, 0, 0, 0, 1, 0, 0, 0, 0, 0, 0, 0x3f]

def plainHandling : Handling where
  requestHandler d := (d.res, none)
  write := ⟨true, none⟩
  writeFailure := ⟨true, none⟩

theorem malformed_answered_id_one :
    plainHandling.Plain ∧ FormatErrors headerPlatform (cutQuery 1)
      (exampleProxy.udpHandlePacket headerUnpacking noRecursion plainHandling .epoch
        [192, 0, 2, 77] (cutQuery 1)) := by
  have hplain : plainHandling.Plain := ⟨rfl, rfl, rfl⟩
  refine ⟨hplain, (malformed_answered_iff headerUnpacking exampleProxy noRecursion plainHandling
    hplain .epoch [192, 0, 2, 77] (cutQuery 1)).mpr ?_⟩
  exact fun hzero => absurd hzero.2.2 (by decide)

/-- The same query is answered with the id 1, and not with the id 0. -/
theorem malformed_id_zero_dropped :
    (exampleProxy.udpHandlePacket headerUnpacking noRecursion plainHandling .epoch
        [192, 0, 2, 77] (cutQuery 1)).map (·.rcode) = [rcodeFormatError] ∧
      exampleProxy.udpHandlePacket headerUnpacking noRecursion plainHandling .epoch
        [192, 0, 2, 77] (cutQuery 0) = [] ∧
      ¬FormatErrors headerPlatform (cutQuery 0)
        (exampleProxy.udpHandlePacket headerUnpacking noRecursion plainHandling .epoch
          [192, 0, 2, 77] (cutQuery 0)) := by
  have hdropped : exampleProxy.udpHandlePacket headerUnpacking noRecursion plainHandling .epoch
      [192, 0, 2, 77] (cutQuery 0) = [] := by decide +kernel
  refine ⟨by decide +kernel, hdropped, fun hanswers => ?_⟩
  obtain ⟨m, hm, -⟩ := hanswers.malformed (by decide) (by decide) rfl
  rw [hdropped] at hm
  cases hm

end DnsProxy
