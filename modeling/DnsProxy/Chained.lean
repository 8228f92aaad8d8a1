import DnsProxy.DoHServer
import DnsProxy.DoQStream
import DnsProxy.TCPServer

/-!
# A proxy behind a proxy

The exchanges of the upstreams against the listeners of the proxy itself, from the request of
one proxy to the response that it gets from the other one, over each transport. What the far
proxy prepares for a request is arbitrary; how it gets to the near one is not.

* `decodeRawURL_encodeRawURL`: the parameter of a DoH request.
* `chained_exchange`: the near proxy gets the response that the far one has prepared, with the
  id of its own request, over TCP if it has been cut over UDP.
-/

namespace DnsProxy.Chained

open ByteStream (Reader Schedule)
open DnsCrypt (uncompressed)
open Transport

/-! ## The parameter of a DoH request -/

/-- A character of the URL alphabet of base64. -/
def base64Char (n : Nat) : UInt8 :=
  if n < 26 then (n + 65).toUInt8
  else if n < 52 then (n + 71).toUInt8
  else if n < 62 then (n - 4).toUInt8
  else if n = 62 then 45
  else 95

/-- Four numbers below 64 for three bytes each. One or two bytes may be left. -/
def base64Digits : Bytes → List Nat
  | [] => []
  | [x] => [x.toNat / 4, x.toNat % 4 * 16]
  | [x, y] => [x.toNat / 4, x.toNat % 4 * 16 + y.toNat / 16, y.toNat % 16 * 4]
  | x :: y :: z :: rest =>
    x.toNat / 4 :: (x.toNat % 4 * 16 + y.toNat / 16) :: (y.toNat % 16 * 4 + z.toNat / 64) ::
      z.toNat % 64 :: base64Digits rest

/-- `base64.RawURLEncoding.EncodeToString`. -/
def encodeRawURL (b : Bytes) : Bytes := (base64Digits b).map base64Char

theorem base64Value_base64Char : ∀ n < 64, base64Value (base64Char n) = some n := by decide

theorem base64Char_ne_lineEnd : ∀ n < 64, base64Char n ≠ 10 ∧ base64Char n ≠ 13 := by decide

theorem base64Digits_lt (b : Bytes) : ∀ n ∈ base64Digits b, n < 64 := by
  induction b using base64Digits.induct with
  | case1 => exact List.forall_mem_nil _
  | case2 x =>
    have hx := x.toNat_lt
    simp only [base64Digits, List.forall_mem_cons]
    exact ⟨by omega, by omega, List.forall_mem_nil _⟩
  | case3 x y =>
    have hx := x.toNat_lt
    have hy := y.toNat_lt
    simp only [base64Digits, List.forall_mem_cons]
    exact ⟨by omega, by omega, by omega, List.forall_mem_nil _⟩
  | case4 x y z rest ih =>
    have hx := x.toNat_lt
    have hy := y.toNat_lt
    have hz := z.toNat_lt
    simp only [base64Digits, List.forall_mem_cons]
    exact ⟨by omega, by omega, by omega, by omega, ih⟩

theorem toUInt8_eq {n : Nat} {x : UInt8} (h : n = x.toNat) : n.toUInt8 = x := by
  rw [h]
  exact UInt8.ofNat_toNat

theorem base64Bytes_base64Digits (b : Bytes) : base64Bytes (base64Digits b) = some b := by
  induction b using base64Digits.induct with
  | case1 => rfl
  | case2 x =>
    have hx := x.toNat_lt
    rw [base64Digits, base64Bytes, toUInt8_eq (x := x) (by omega)]
  | case3 x y =>
    have hx := x.toNat_lt
    have hy := y.toNat_lt
    rw [base64Digits, base64Bytes, toUInt8_eq (x := x) (by omega), toUInt8_eq (x := y) (by omega)]
  | case4 x y z rest ih =>
    have hx := x.toNat_lt
    have hy := y.toNat_lt
    have hz := z.toNat_lt
    rw [base64Digits, base64Bytes, ih, Option.map_some, toUInt8_eq (x := x) (by omega),
      toUInt8_eq (x := y) (by omega), toUInt8_eq (x := z) (by omega)]

/-- The server finds the bytes of the client in the URL. -/
theorem decodeRawURL_encodeRawURL (b : Bytes) : decodeRawURL (encodeRawURL b) = some b := by
  have hlt := base64Digits_lt b
  have hfilter : (encodeRawURL b).filter (fun c => c ≠ 10 ∧ c ≠ 13) = encodeRawURL b := by
    refine List.filter_eq_self.mpr fun c hc => ?_
    obtain ⟨n, hn, rfl⟩ := List.mem_map.mp hc
    exact decide_eq_true (base64Char_ne_lineEnd n (hlt n hn))
  have hvalues : (encodeRawURL b).mapM base64Value = some (base64Digits b) := by
    rw [encodeRawURL]
    generalize base64Digits b = ns at hlt
    induction ns with
    | nil => rfl
    | cons n ns ih =>
      obtain ⟨hn, hns⟩ := List.forall_mem_cons.mp hlt
      simp [List.mapM_cons, base64Value_base64Char n hn, ih hns]
  rw [decodeRawURL, hfilter, hvalues]
  exact base64Bytes_base64Digits b

/-! ## The far proxy -/

/-- A proxy whose listeners are the upstreams of another one, which has the address `addr`. -/
structure Far where
  codec : Codec
  proxy : Proxy
  addr : Addr
  /-- What there is while the request is handled. -/
  turn : Turn
  /-- How streams come in, at the far proxy and at the near one. -/
  up : Schedule
  down : Schedule
  doh : DoHServer
  /-- The address of the near proxy with its port, as an HTTP server has it. -/
  remoteAddr : Bytes
  /-- The response over HTTP declares its length, which only version 1 is sure to do. -/
  http1 : Bool
  quic : QUICState

/-- The errors of sending a request that has no wire form, or none that fits a frame. -/
def sendErr : NetErr := { code := 1 }

/-- `ReadMsgHeader`, for a message that has come in. -/
def readMsgHeader (wire : Bytes) : Read :=
  if wire.length < 12 then .shortRead else .frame { wire }

/-- `respondHTTPS`. -/
def respondHTTPS (pf : Platform) (http1 : Bool) (res : Option Msg) : HTTPResponse :=
  let internalError : HTTPResponse :=
    { statusCode := 500, dnsMessage := false, body := .ok { wire := [] } }
  match res with
  | none => internalError
  | some resp =>
    match pf.pack resp with
    | none => internalError
    | some bytes =>
      { contentLength := if http1 then bytes.length else -1, body := .ok { wire := bytes } }

/-- The buffer of the near proxy for a datagram. -/
def bufferSize (req : Msg) : Nat :=
  match req.isEdns0 with
  | none => 512
  | some opt => if 512 ≤ opt.udpSize then opt.udpSize.toNat else 512

namespace Far

variable (far : Far)

def pf : Platform := far.codec.toPlatform

/-- A datagram to the UDP listener, and the messages that are written for it. -/
def udpHandlePacket (packet : Bytes) : List Msg :=
  far.proxy.serve far.pf far.turn.rd far.turn.handling far.turn.now far.addr .udp
    (match far.pf.unpack packet with
    | some req => .request req
    | none => .malformed (far.codec.undecoded packet))

/-- The connection of the near proxy to the UDP listener, over which it sends `req`. -/
def udpConn (req : Msg) : Conn :=
  match far.pf.pack req with
  | none => { send := some sendErr }
  | some packet =>
    { reads := ((far.udpHandlePacket packet).filterMap far.pf.pack).map fun b =>
        readMsgHeader (b.take (bufferSize req)) }

/-- The connection to the TCP or TLS listener. -/
def streamConn (proto : Proto) (req : Msg) : Conn :=
  match far.pf.pack req with
  | none => { send := some sendErr }
  | some b =>
    match writePrefixed b {} with
    | (some _, _) => { send := some sendErr }
    | (none, conn) =>
      let client := far.proxy.handleTCPConnection far.pf far.addr proto (fun _ => far.turn) 0
        (⟨far.up, 0, conn.sent, none⟩ : Reader Empty) {}
      let read := FramingPackage.proxy.readMsgs
        (⟨far.down, 0, client.out.sent, none⟩ : Reader Empty)
      { reads := read.1.map readMsgHeader }

/-- `ServeHTTP`, up to what the client gets. A handler that writes nothing leaves an empty
response. -/
def serveDoH (r : HTTPRequest) : HTTPAttempt :=
  match serveHTTP far.pf far.doh r with
  | .panicked => .error sendErr
  | .refused statusCode =>
    .ok { statusCode, dnsMessage := false, body := .ok { wire := [] } }
  | .handled _ d =>
    match far.proxy.prepareReply far.pf far.turn.rd far.turn.handling far.turn.now d with
    | .error _ => .ok { dnsMessage := false, body := .ok { wire := [] } }
    | .ok (res, _) => .ok (respondHTTPS far.pf far.http1 res)

/-- The request of `exchangeHTTPSClient` for the bytes of a message; `user` is the user
information of the URL. -/
def httpRequest (user : Bytes × Bytes) (buf : Bytes) : HTTPRequest where
  method := .get
  tls := true
  remoteAddr := far.remoteAddr
  header _ := []
  basicAuth := user
  dnsParam := encodeRawURL buf
  body := some []

/-- `exchangeHTTPS`, up to the response. -/
def httpsAttempt (user : Bytes × Bytes) (req : Msg) : HTTPAttempt :=
  match far.pf.pack req with
  | none => .error sendErr
  | some buf => far.serveDoH (far.httpRequest user (0 :: 0 :: buf.drop 2))

/-- The stream on which the near proxy sends `req`. -/
def quicStream (req : Msg) : QUICStream :=
  match far.pf.pack req with
  | none => { send := some sendErr, data := [] }
  | some buf =>
    match lengthPrefix buf.length with
    | none => { send := some sendErr, data := [] }
    | some head =>
      { data := (far.proxy.serveQUICStream far.pf far.turn.rd far.turn.handling far.turn.now
          far.addr far.quic (⟨far.up, 0, head ++ buf, none⟩ : Reader Empty)).flatten }

end Far

/-- The request as it is sent over HTTPS and QUIC. -/
def unnumbered (req : Msg) : Msg := { req with id := 0 }

/-- How the near proxy reaches the far one. -/
inductive Link
  | udp
  | tcp
  | tls
  | https
  | quic
deriving DecidableEq, Repr

/-- What the exchange of the near proxy depends on beside the far one. -/
structure Near where
  /-- `dns.Id`. -/
  newID : UInt16
  /-- The connection or client is one that was used before. -/
  cached : Bool
  user : Bytes × Bytes

/-- The request that is sent over UDP. -/
def Near.udpRequest (near : Near) (req : Msg) : Msg :=
  if req.id = 0 then { req with id := near.newID } else req

/-- The request as it is sent over the link. -/
def Link.request (near : Near) (req : Msg) : Link → Msg
  | .udp => near.udpRequest req
  | .tcp | .tls => req
  | .https | .quic => unnumbered req

def Near.plainEnv (near : Near) (far : Far) (req : Msg) : PlainEnv where
  conns
    | .udp => (far.udpConn (near.udpRequest req), {})
    | .tcp => (far.streamConn .tcp req, {})
  newID := near.newID

/-- The exchange of the near proxy over the link. -/
def Near.exchange (near : Near) (far : Far) (req : Msg) : Link → Exchange
  | .udp => .plain ⟨.udp, false⟩ (near.plainEnv far req)
  | .tcp => .plain ⟨.tcp, false⟩ (near.plainEnv far req)
  | .tls =>
    .tls { conn := .ok near.cached, first := far.streamConn .tls req, second := {} }
  | .https =>
    .https { getClient := .ok near.cached, attempts := fun _ => far.httpsAttempt near.user req }
  | .quic =>
    let stream := far.quicStream (unnumbered req)
    .quic { getConnection := .ok near.cached, first := stream, second := stream }

/-! ## The response -/

/-- The far proxy prepares `res` for the request `sent` of the client at `addr`, and `b` is its
wire form, which is decoded to what it was. The near proxy does not take a response with another
id or question, nor one that is signed. -/
structure Far.Answers (far : Far) (addr : Addr) (proto : Proto) (sent res : Msg) (b : Bytes) :
    Prop where
  prepared : ∃ err, far.proxy.prepareAt far.pf addr proto far.turn (uncompressed sent) =
    .ok (some res, err)
  packed : far.pf.pack res = some b
  decoded : far.pf.unpack b = some (uncompressed res)
  header : 12 ≤ b.length
  fits : b.length ≤ 65535
  id : res.id = sent.id
  question : validateResponse far.codec sent res = none
  unsigned : isTsig res = false

/-- The response of the far proxy to a request over the link. -/
inductive Far.Gives (far : Far) (near : Near) : Link → Msg → Msg → Prop
  | udp {req res : Msg} {w b : Bytes} (hsent : Framed far.pf (near.udpRequest req) w)
      (hres : far.Answers far.addr .udp (near.udpRequest req) res b)
      (hbuf : b.length ≤ bufferSize (near.udpRequest req)) (hwhole : res.truncated = false) :
      Gives far near .udp req res
  /-- The response has been cut for UDP. -/
  | udpCut {req cut res : Msg} {w b : Bytes} (hsent : Framed far.pf (near.udpRequest req) w)
      (hcut : far.Answers far.addr .udp (near.udpRequest req) cut b)
      (hbuf : b.length ≤ bufferSize (near.udpRequest req)) (htruncated : cut.truncated = true)
      (htcp : Gives far near .tcp req res) : Gives far near .udp req res
  | tcp {req res : Msg} {w b : Bytes} (hsent : Framed far.pf req w)
      (hres : far.Answers far.addr .tcp req res b) : Gives far near .tcp req res
  | tls {req res : Msg} {w b : Bytes} (hsent : Framed far.pf req w)
      (hres : far.Answers far.addr .tls req res b) : Gives far near .tls req res
  | https {req res : Msg} {w b : Bytes} {peer : NetIP.AddrPort} {conf : DoHConfig}
      (hpeer : NetIP.parseAddrPort far.remoteAddr = some peer)
      (hconf : far.doh.httpConf = some conf)
      (hauth : ∀ ui ∈ conf.userinfo, matchesUserinfo ui near.user.1 near.user.2 = true)
      (hsent : far.pf.pack req = some w)
      (hdecoded : far.pf.unpack (0 :: 0 :: w.drop 2) = some (uncompressed (unnumbered req)))
      (hres : far.Answers peer.addr.bytes .https (unnumbered req) res b) :
      Gives far near .https req res
  | quic {req res : Msg} {w b : Bytes} (hsent : Framed far.pf (unnumbered req) w)
      (hmin : minDNSPacketSize ≤ w.length) (hmax : w.length < 65535)
      (hvalid : validQUICMsg far.quic (uncompressed (unnumbered req)) = true)
      (hres : far.Answers far.addr .quic (unnumbered req) res b) : Gives far near .quic req res

/-- The exchange succeeds with the response `m`. -/
def Returned (a : Attempt) (m : Msg) : Prop := a.err = none ∧ a.resp = some m

/-- The response with the id of the request. -/
def renumbered (req res : Msg) : Msg := { uncompressed res with id := req.id }

theorem truncated_renumbered (req res : Msg) : (renumbered req res).truncated = res.truncated := rfl

section Answers

variable {far : Far} {near : Near} {addr : Addr} {proto : Proto} {sent res : Msg} {b w : Bytes}

theorem Far.Answers.answer (h : far.Answers addr proto sent res b) :
    far.proxy.answer far.pf addr proto far.turn (uncompressed sent) = some b := by
  obtain ⟨err, hprepared⟩ := h.prepared
  simp [Proxy.answer, hprepared, h.packed, Option.filter, h.fits]

theorem Far.Answers.read (h : far.Answers addr proto sent res b) (udp : Bool) (s : Session) :
    Returned (readDNSResponse far.codec sent udp true [.frame { wire := b }] s)
      (uncompressed res) := by
  have hunpack : far.codec.unpack b = some (uncompressed res) := h.decoded
  have htsig : isTsig (uncompressed res) = false := h.unsigned
  have hid : (uncompressed res).id = sent.id := h.id
  have hquestion : validateResponse far.codec sent (uncompressed res) = none := h.question
  simp only [readDNSResponse, hunpack, htsig, hid, hquestion, Bool.false_eq_true, if_false,
    if_true, ne_eq, not_true_eq_false]
  exact ⟨rfl, rfl⟩

theorem readMsgHeader_eq (h : 12 ≤ b.length) : readMsgHeader b = .frame { wire := b } :=
  if_neg (Nat.not_lt.mpr h)

theorem udpConn_eq (hwrite : far.turn.handling.write.sent = true)
    (hsent : Framed far.pf sent w) (h : far.Answers far.addr .udp sent res b)
    (hbuf : b.length ≤ bufferSize sent) :
    far.udpConn sent = { reads := [.frame { wire := b }] } := by
  obtain ⟨err, hprepared⟩ := h.prepared
  have hserved : far.udpHandlePacket w = [res] := by
    simp only [Far.udpHandlePacket, hsent.decoded]
    show (far.proxy.handleDNSRequest _ _ _ _ _).sent = _
    rw [handleDNSRequest_sent, Proxy.requestPipeline,
      show far.proxy.prepareReply _ _ _ _ ((Arrival.request (uncompressed sent)).context _ _) = _
        from hprepared]
    simp [Proxy.respond, Arrival.context, h.packed, Handling.writeMsg, hwrite]
  simp [Far.udpConn, hsent.packed, hserved, h.packed, List.take_of_length_le hbuf,
    readMsgHeader_eq h.header]

theorem streamConn_eq (hstarted : far.turn.started = true)
    (hsent : Framed far.pf sent w) (h : far.Answers far.addr proto sent res b) :
    far.streamConn proto sent = { reads := [.frame { wire := b }] } := by
  have hwritten : writePrefixed w {} = (none, ⟨frame w, none⟩) :=
    writePrefixed_sent .proxy hsent.fits []
  have hanswers : far.proxy.answers far.pf far.addr proto (fun _ => far.turn) 0
      [uncompressed sent] = [b] := by
    rw [answers_cons, hstarted, closes_of_answer (by rw [h.answer]; exact Option.some_ne_none b),
      h.answer]
    rfl
  have hserved : far.proxy.handleTCPConnection far.pf far.addr proto (fun _ => far.turn) 0
      (⟨far.up, 0, frame w, none⟩ : Reader Empty) {} = ⟨⟨frame b, none⟩, true⟩ := by
    have hrun : far.proxy.handleTCPConnection far.pf far.addr proto (fun _ => far.turn) 0
        (⟨far.up, 0, frame w, none⟩ : Reader Empty) ⟨⟨[], none⟩, false⟩ = _ :=
      handleTCPConnection_eq (.cons hsent .nil) (fun _ => far.turn) 0 (by simp) []
    simpa [hanswers] using hrun
  have hread : (FramingPackage.proxy.readMsgs
      (⟨far.down, 0, frame b, none⟩ : Reader Empty)).1 = [b] :=
    readMsgs_all .proxy (by simp) (by simpa using h.fits)
  simp [Far.streamConn, hsent.packed, hwritten, hserved, hread, readMsgHeader_eq h.header]

theorem httpsAttempt_eq {req : Msg} {peer : NetIP.AddrPort} {conf : DoHConfig}
    (hpeer : NetIP.parseAddrPort far.remoteAddr = some peer) (hconf : far.doh.httpConf = some conf)
    (hauth : ∀ ui ∈ conf.userinfo, matchesUserinfo ui near.user.1 near.user.2 = true)
    (hsent : far.pf.pack req = some w)
    (hdecoded : far.pf.unpack (0 :: 0 :: w.drop 2) = some (uncompressed (unnumbered req)))
    (h : far.Answers peer.addr.bytes .https (unnumbered req) res b) :
    far.httpsAttempt near.user req = .ok (respondHTTPS far.pf far.http1 (some res)) := by
  obtain ⟨err, hprepared⟩ := h.prepared
  have hreq : newDoHReq far.pf (far.httpRequest near.user (0 :: 0 :: w.drop 2)) =
      .ok (uncompressed (unnumbered req)) := by
    simp only [newDoHReq, dohBytes, Far.httpRequest, decodeRawURL_encodeRawURL, hdecoded,
      List.length_cons, Nat.succ_ne_zero, if_false]
  have haccepted : ¬Refused far.pf conf (far.httpRequest near.user (0 :: 0 :: w.drop 2)) := by
    rintro (⟨-, htls⟩ | hdenied | ⟨code, hcode⟩)
    · cases htls
    · unfold checkBasicAuth at hdenied
      split at hdenied
      · cases hdenied
      · next ui hui => cases (hauth ui hui).symm.trans hdenied
    · cases hreq.symm.trans hcode
  obtain ⟨req', hreq', hserve⟩ := serveHTTP_accepted hconf hpeer haccepted
  obtain rfl : _ = req' := Except.ok.inj (hreq.symm.trans hreq')
  have hreal : realIPFromHdrs (far.httpRequest near.user (0 :: 0 :: w.drop 2)) = none := by
    have hempty : NetIP.parseAddr (WhiteSpace.trimSpace []) = none := by decide +kernel
    simp [realIPFromHdrs, Far.httpRequest, hempty, firstForwarded]
  rw [hreal] at hserve
  simp only [Far.httpsAttempt, hsent, Far.serveDoH, hserve, handledFor]
  rw [show far.proxy.prepareReply far.pf far.turn.rd far.turn.handling far.turn.now
      (newDNSContext .https (uncompressed (unnumbered req)) peer) = _ from hprepared]

theorem exchangeHTTPSClient_eq {req : Msg}
    (h : far.Answers addr .https (unnumbered req) res b) (s : Session) :
    Returned (exchangeHTTPSClient far.codec req s
      (.ok (respondHTTPS far.pf far.http1 (some res)))) (renumbered req res) := by
  have hunpack : far.codec.unpack b = some (uncompressed res) := h.decoded
  have hid : (uncompressed res).id = 0 := h.id
  have hquestion : validateResponse far.codec req { uncompressed res with id := req.id } = none :=
    h.question
  have hlength : ¬(b.length = 0 ∨ maxBodySize < b.length) := by
    rw [not_or]
    exact ⟨Nat.ne_of_gt (Nat.lt_of_lt_of_le (by decide) h.header), Nat.not_lt.mpr h.fits⟩
  -- The length that is declared is the length of the body.
  have hdeclared : ∀ n : Int, n = (if far.http1 then (b.length : Int) else -1) →
      ¬(maxBodySize : Int) < n ∧ ¬(0 ≤ n ∧ (b.length : Int) ≠ n) := by
    have hfits : (b.length : Int) ≤ maxBodySize := Int.ofNat_le.mpr h.fits
    rintro n rfl
    cases far.http1 with
    | true => exact ⟨by simpa using hfits, by simp⟩
    | false => exact ⟨by simp [maxBodySize], by simp⟩
  obtain ⟨hmax, hsame⟩ := hdeclared _ rfl
  simp only [exchangeHTTPSClient, respondHTTPS, h.packed, hmax, hlength, hsame, hunpack, hid,
    hquestion, ne_eq, not_true_eq_false, if_false, Bool.not_true, Bool.false_eq_true]
  exact ⟨rfl, rfl⟩

theorem quicStream_eq (hwrite : far.turn.handling.write.sent = true)
    {req : Msg} (hsent : Framed far.pf (unnumbered req) w)
    (hmin : minDNSPacketSize ≤ w.length) (hmax : w.length < 65535)
    (hvalid : validQUICMsg far.quic (uncompressed (unnumbered req)) = true)
    (h : far.Answers far.addr .quic (unnumbered req) res b) :
    far.quicStream (unnumbered req) = { data := frame b } := by
  obtain ⟨err, hprepared⟩ := h.prepared
  have hprefix : lengthPrefix w.length = some (BigEndian.encode 2 w.length) :=
    if_neg (Nat.not_lt.mpr (Nat.le_of_lt hmax))
  have hread : readAll (⟨far.up, 0, frame w, none⟩ : Reader Empty) bytesPoolSize [] =
      (frame w, none) := by
    refine readAll_delivers ?_ rfl
    rw [List.length_nil, Nat.zero_add, length_frame]
    exact Nat.add_lt_add_right hmax 2 |>.trans_eq rfl
  have hrequest : handleQUICStream far.pf far.quic (⟨far.up, 0, frame w, none⟩ : Reader Empty) =
      .request (uncompressed (unnumbered req)) .v1 := by
    have hlong : minDNSPacketSize ≤ (frame w).length := by
      rw [length_frame]
      exact Nat.le_add_right_of_le hmin
    rw [handleQUICStream_of_delivered hlong hread, quicPacket_frame (Nat.le_of_lt hmax)]
    simp only [hsent.decoded, hvalid, if_true]
  have hform : answerForm far.pf .v1 res = some (frame b) := by
    simp [answerForm, h.packed, h.fits]
  have hserved : far.proxy.serveQUICStream far.pf far.turn.rd far.turn.handling far.turn.now
      far.addr far.quic (⟨far.up, 0, frame w, none⟩ : Reader Empty) = [frame b] := by
    rw [(servedAs_iff.mpr hrequest).answered _ _ _ _ _ res err _ hprepared hform, if_pos hwrite]
  simp only [Far.quicStream, hsent.packed, hprefix]
  rw [show BigEndian.encode 2 w.length ++ w = frame w from rfl, hserved]
  simp

theorem readMsg_eq (hwrite : far.turn.handling.write.sent = true)
    {req : Msg} (hsent : Framed far.pf (unnumbered req) w)
    (hmin : minDNSPacketSize ≤ w.length) (hmax : w.length < 65535)
    (hvalid : validQUICMsg far.quic (uncompressed (unnumbered req)) = true)
    (h : far.Answers far.addr .quic (unnumbered req) res b) (s : Session) :
    Returned (exchangeQUIC far.codec (unnumbered req) (far.quicStream (unnumbered req)) s)
      (uncompressed res) := by
  have hstream := quicStream_eq hwrite hsent hmin hmax hvalid h
  have haccepted : Accepted far.codec (unnumbered req) (far.quicStream (unnumbered req))
      (uncompressed res) := by
    obtain ⟨b0, b1, henc⟩ : ∃ b0 b1, BigEndian.encode 2 b.length = [b0, b1] :=
      List.length_eq_two.mp (BigEndian.length_encode 2 _)
    have hlen := decode_length h.fits
    rw [henc] at hlen
    refine ⟨⟨b0, b1, b, ?_, ?_, Nat.le_trans (by decide) h.header, h.decoded⟩, ?_, h.id,
      h.question⟩
    · rw [hstream, frame, henc]
      rfl
    · rw [← hlen]
      simp [BigEndian.decode]
    · rw [hstream]
      rfl
  have hsend : (far.quicStream (unnumbered req)).send = none := by rw [hstream]
  rw [exchangeQUIC, hsend]
  exact readMsg_of_accepted haccepted

end Answers

/-! ## The exchange -/

theorem dialExchange_returned {c : Codec} {p : PlainDNS} (hp : p.bootstrap = false)
    {env : PlainEnv} {net : Network} {req sent res : Msg} {reads : List Read}
    (hconn : (env.conns net).1 = { reads })
    (hsent : PlainDNS.setRequestForNetwork env req net = sent)
    (h : ∀ s, Returned (readDNSResponse c sent (net = .udp) true reads s) (uncompressed res))
    (s : Session) : Returned (p.dialExchange c env net req s) (renumbered req res) := by
  obtain ⟨herr, hresp⟩ := h s
  unfold PlainDNS.dialExchange
  simp only [hsent, hconn, PlainDNS.exchangeWithConn, hp, Bool.not_false, herr, hresp,
    Option.any_none, Bool.and_false, Bool.false_eq_true, if_false, Option.map_some]
  exact ⟨rfl, rfl⟩

theorem exchange_udp {c : Codec} {env : PlainEnv} {req m : Msg} {s : Session}
    (hdialer : env.getDialer = none)
    (h : Returned (PlainDNS.dialExchange c ⟨.udp, false⟩ env .udp req s) m) :
    PlainDNS.exchange c ⟨.udp, false⟩ env req s =
      if m.truncated then PlainDNS.dialExchange c ⟨.udp, false⟩ env .tcp req
        (PlainDNS.dialExchange c ⟨.udp, false⟩ env .udp req s).session
      else PlainDNS.dialExchange c ⟨.udp, false⟩ env .udp req s := by
  obtain ⟨herr, hresp⟩ := h
  simp only [PlainDNS.exchange, hdialer, herr, hresp, Bool.false_and, Bool.false_eq_true, if_false,
    ne_eq, not_true_eq_false, Option.any_none, Bool.and_false]

section Exchanges

variable {far : Far} {near : Near} {req res : Msg} {w b : Bytes}

theorem udp_returned (hwrite : far.turn.handling.write.sent = true)
    (hsent : Framed far.pf (near.udpRequest req) w)
    (hres : far.Answers far.addr .udp (near.udpRequest req) res b)
    (hbuf : b.length ≤ bufferSize (near.udpRequest req)) (s : Session) :
    Returned (PlainDNS.dialExchange far.codec ⟨.udp, false⟩ (near.plainEnv far req) .udp req s)
      (renumbered req res) := by
  have hconn : ((near.plainEnv far req).conns .udp).1 = { reads := [.frame { wire := b }] } :=
    udpConn_eq hwrite hsent hres hbuf
  have hset : PlainDNS.setRequestForNetwork (near.plainEnv far req) req .udp =
      near.udpRequest req := if_neg (not_not.mpr rfl)
  exact dialExchange_returned rfl hconn hset (fun s => hres.read true s) s

theorem tcp_returned (hstarted : far.turn.started = true)
    (h : far.Gives near .tcp req res) (net : Network) (s : Session) :
    Returned (PlainDNS.dialExchange far.codec ⟨net, false⟩ (near.plainEnv far req) .tcp req s)
      (renumbered req res) := by
  cases h with
  | @tcp _ _ w b hsent hres =>
    have hconn : ((near.plainEnv far req).conns .tcp).1 = { reads := [.frame { wire := b }] } :=
      streamConn_eq hstarted hsent hres
    have hset : PlainDNS.setRequestForNetwork (near.plainEnv far req) req .tcp = req :=
      if_pos (by decide)
    exact dialExchange_returned rfl hconn hset (fun s => hres.read false s) s

/-- The near proxy gets the response that the far one has prepared, with the id of its request,
over every link: over TCP if the response has been cut for UDP, and without the id on the wire
over HTTPS and QUIC. -/
theorem chained_exchange (hstarted : far.turn.started = true)
    (hwrite : far.turn.handling.write.sent = true)
    {link : Link} (h : far.Gives near link req res) (s : Session)
    (hs : s.start req.id ≠ none) :
    Returned ((near.exchange far req link).run far.codec req s)
      (renumbered req res) := by
  obtain ⟨s', hs'⟩ := Option.ne_none_iff_exists'.mp hs
  suffices hattempts : Returned ((near.exchange far req link).attempts far.codec req s')
      (renumbered req res) by
    unfold Exchange.run owned
    rw [hs']
    exact hattempts
  cases h with
  | udp hsent hres hbuf hwhole =>
    have hudp := udp_returned hwrite hsent hres hbuf s'
    show Returned (PlainDNS.exchange far.codec ⟨.udp, false⟩ (near.plainEnv far req) req s') _
    rw [exchange_udp rfl hudp, truncated_renumbered, if_neg (ne_true_of_eq_false hwhole)]
    exact hudp
  | udpCut hsent hcut hbuf htruncated htcp =>
    have hudp := udp_returned hwrite hsent hcut hbuf s'
    show Returned (PlainDNS.exchange far.codec ⟨.udp, false⟩ (near.plainEnv far req) req s') _
    rw [exchange_udp rfl hudp, truncated_renumbered, if_pos htruncated]
    exact tcp_returned hstarted htcp .udp _
  | tcp hsent hres => exact tcp_returned hstarted (.tcp hsent hres) .tcp s'
  | tls hsent hres =>
    obtain ⟨herr, hresp⟩ := hres.read false s'
    have hid : renumbered req res = uncompressed res := by rw [renumbered, ← hres.id]; rfl
    simp only [Near.exchange, Exchange.attempts, dotExchange, dotExchangeWithConn,
      streamConn_eq hstarted hsent hres, herr]
    exact ⟨herr, hresp.trans (congrArg some hid.symm)⟩
  | https hpeer hconf hauth hsent hdecoded hres =>
    obtain ⟨herr, hresp⟩ := exchangeHTTPSClient_eq hres s'
    have hattempt := httpsAttempt_eq hpeer hconf hauth hsent hdecoded hres
    simp only [Near.exchange, Exchange.attempts, dohExchange, hattempt, retryHTTPS, herr,
      Option.any_none, Bool.and_false, Bool.false_eq_true, if_false]
    exact ⟨herr, hresp⟩
  | quic hsent hmin hmax hvalid hres =>
    obtain ⟨herr, hresp⟩ := readMsg_eq hwrite hsent hmin hmax hvalid hres s'
    have hattempts : doqAttempts far.codec
        { getConnection := .ok near.cached, first := far.quicStream (unnumbered req),
          second := far.quicStream (unnumbered req) } (unnumbered req) near.cached s' =
        exchangeQUIC far.codec (unnumbered req) (far.quicStream (unnumbered req)) s' := by
      simp only [doqAttempts, herr]
    show Returned (doqExchange _ _ _ _) _
    simp only [doqExchange]
    rw [show doqAttempts _ _ { req with id := 0 } _ _ = _ from hattempts, hresp]
    exact ⟨herr, rfl⟩

end Exchanges

/-! ## A response that is cut for UDP -/

/-- The response without its answer. -/
def cutAnswer (id : UInt16) : Msg := { answerWith id with truncated := true, answer := [] }

def cutAnswerWire (id : UInt8) : Bytes :=
  [0, id, 0x83, 0x80, 0, 1, 0, 0, 0, 0, 0, 0] ++ exampleOrgWire ++ [0, 1, 0, 1]

def chainedTable : List (Msg × Bytes) :=
  [(exampleQuery, queryWire 1), (unnumbered exampleQuery, queryWire 0),
    (answerWith 1, answerWire 1), (answerWith 0, answerWire 0),
    (cutAnswer 1, cutAnswerWire 1), (cutAnswer 0, cutAnswerWire 0)]

/-- A far proxy that cuts its responses for UDP. -/
def cuttingFar : Far where
  codec := ⟨.ofTable chainedTable, fun _ => {}, fun a b => a == b⟩
  proxy := exampleProxy
  addr := [192, 0, 2, 77]
  turn :=
    { rd := noRecursion
      handling :=
        { requestHandler := fun d =>
            (some (if d.proto = .udp then cutAnswer d.req.id else answerWith d.req.id), none)
          write := ⟨true, none⟩
          writeFailure := ⟨true, none⟩ }
      now := .epoch }
  up := byteByByte
  down := byteByByte
  doh := dohServer none
  remoteAddr := ascii "9.9.9.9:4321"
  http1 := true
  quic := newQUICState

def freshNear : Near := ⟨7, false, ([], [])⟩

/-- The near proxy gets the whole response, over TCP and over HTTPS. -/
theorem chained_exchange_cut :
    Returned ((freshNear.exchange cuttingFar exampleQuery .udp).run cuttingFar.codec exampleQuery
        ⟨none, []⟩) exampleAnswer ∧
      Returned ((freshNear.exchange cuttingFar exampleQuery .https).run cuttingFar.codec
        exampleQuery ⟨none, []⟩) exampleAnswer := by
  have hcut : cuttingFar.Answers cuttingFar.addr .udp exampleQuery (cutAnswer 1)
      (cutAnswerWire 1) :=
    ⟨⟨none, by decide +kernel⟩, by decide +kernel, by decide +kernel, by decide, by decide, rfl,
      by decide +kernel, rfl⟩
  have htcp : cuttingFar.Gives freshNear .tcp exampleQuery (answerWith 1) :=
    .tcp (w := queryWire 1) (b := answerWire 1) ⟨by decide +kernel, by decide +kernel, by decide⟩
      ⟨⟨none, by decide +kernel⟩, by decide +kernel, by decide +kernel, by decide, by decide, rfl,
        by decide +kernel, rfl⟩
  have hudp : cuttingFar.Gives freshNear .udp exampleQuery (answerWith 1) :=
    .udpCut (w := queryWire 1) ⟨by decide +kernel, by decide +kernel, by decide⟩ hcut (by decide)
      rfl htcp
  have hhttps : cuttingFar.Gives freshNear .https exampleQuery (answerWith 0) :=
    .https (w := queryWire 1) (b := answerWire 0) (by decide +kernel : _ = some peer9999) rfl
      (fun ui hui => by cases hui) (by decide +kernel) (by decide +kernel)
      ⟨⟨none, by decide +kernel⟩, by decide +kernel, by decide +kernel, by decide, by decide, rfl,
        by decide +kernel, rfl⟩
  exact ⟨chained_exchange rfl rfl hudp ⟨none, []⟩ (Option.some_ne_none _),
    chained_exchange rfl rfl hhttps ⟨none, []⟩ (Option.some_ne_none _)⟩

end DnsProxy.Chained
