import DnsProxy.DnsCrypt.Session

/-!
# An exchange of a DNSCrypt upstream

`dnsCrypt.Exchange` asks over UDP first, and over TCP if the response is marked as truncated.
Either way the client and the server have a connection of their own for the exchange. A
datagram is cut to the buffer of the side that reads it.

* `exchangeUDP_fits`, `exchangeTCP_fits`: one exchange over each protocol.
* `exchange_complete`: the client gets the whole message that the handler wrote, if the query
  fits into the buffers of both sides, and what is left of the message over UDP into the
  client's.
-/

namespace DnsProxy.DnsCrypt

open Checked
open ByteStream (Reader Schedule)

/-- The clients of an upstream, and what they use of the network. -/
structure Endpoints where
  /-- `udpSize` of the client and of the server. -/
  clientSize : Nat
  serverSize : Nat
  /-- The pieces in which the bytes of a connection come. -/
  upSchedule : Schedule
  downSchedule : Schedule
  /-- `observer.Decoded`. -/
  decoded : Msg → Option Err

namespace Endpoints

/-- The stream to the server, after which the client sends nothing more. -/
def up (net : Endpoints) (b : Bytes) : Reader Unit := ⟨net.upSchedule, 0, b, none⟩

def down (net : Endpoints) (b : Bytes) : Reader Unit := ⟨net.downSchedule, 0, b, none⟩

end Endpoints

section Exchanges

variable (v : Serves) (info : ResolverInfo) (net : Endpoints)

/-- What `ExchangeConnContext` does with a response. -/
def finishExchange (b : Bytes) (nonce : Nonce) : Result Err Msg := do
  let resp ← clientDecrypt v.crypto v.pf b nonce info |>.mapError (.annotated "decrypting response")
  match net.decoded resp with
  | some err => .error (.annotated "decrypting response" err)
  | none => return resp

/-- `ExchangeContext` of the client for UDP, without a datagram lost on the way; the one with
the query is the one with this number on the server's socket. -/
def exchangeUDP (q : Query) (turn drawn : Nat) : Result Err Msg := do
  let (b, nonce) ← (clientEncrypt v.crypto v.pf net.clientSize q.unixNano q.random q.msg
    info).mapError (.annotated "encrypting")
  match (v.serveUDPLoop net.serverSize turn b ⟨[], drawn⟩).out with
  | [] => .error (.annotated "reading response" (.library "read"))
  | c :: _ => finishExchange v info net (c.take net.clientSize) nonce

/-- `ExchangeContext` of the client for TCP. -/
def exchangeTCP (q : Query) (drawn : Nat) : Result Err Msg := do
  let (b, nonce) ← (q.wire v info maxMsgSize).mapError (.annotated "encrypting")
  match writePrefixedTo b {} with
  | (some err, _) => .error (.annotated "writing query" (ofWriteErr err))
  | (none, conn) =>
    let served := (v.handleTCPConnection (fun _ => true) 0 (net.up conn.sent) ⟨{}, drawn⟩).2
    match DnsCrypt.readPrefixed (net.down served.out.sent) with
    | (.error _, _) => .error (.annotated "reading response" (.library "read"))
    | (.ok c, _) => finishExchange v info net c nonce

/-- `dnsCrypt.Exchange` with a certificate. Each exchange has its own clock and random bytes. -/
def exchange (req : Msg) (udp tcp : UInt64 × Octets 4) (turn drawn drawn' : Nat) :
    Result Err Msg := do
  let resp ← (exchangeUDP v info net ⟨req, udp.1, udp.2⟩ turn drawn).mapError
    (.annotated "exchanging")
  if resp.truncated then
    (exchangeTCP v info net ⟨req, tcp.1, tcp.2⟩ drawn').mapError (.annotated "exchanging")
  else return resp

end Exchanges

section Fitting

variable {v : Serves} {info : ResolverInfo} {net : Endpoints} {turn : Nat} {q : Query}
  {reply : Msg}

/-- What is left of a message over UDP. -/
def Serves.cut (v : Serves) (q : Query) (reply : Msg) : Msg :=
  uncompressed (normalize v.pf .udp (uncompressed q.msg) reply)

/-- What `Fits` is for TCP: the query fits into both buffers, the response into that of the
client. -/
structure FitsUDP (v : Serves) (net : Endpoints) (turn : Nat) (q : Query) (reply : Msg) :
    Prop where
  packed : ∃ p, v.pf.pack q.msg = some p ∧ v.pf.unpack p = some (uncompressed q.msg) ∧
    minDNSPacketSize ≤ p.length ∧
    queryHeaderLength + (paddedSize p.length + tagSize) ≤ min net.clientSize net.serverSize
  question : q.msg.question.length = 1
  isQuery : q.msg.response = false
  handler : ∃ next, v.handler .udp turn (uncompressed q.msg) = .write reply next ∧
    next none = .done none
  carried : ∃ p, v.pf.pack (normalize v.pf .udp (uncompressed q.msg) reply) = some p ∧
    v.pf.unpack p = some (v.cut q reply) ∧ minDNSPacketSize ≤ p.length ∧
    responseHeaderLength + (paddedSize p.length + tagSize) ≤ net.clientSize
  decoded : net.decoded (v.cut q reply) = none

/-- Over a connection of its own the message is not cut. -/
structure FitsTCP (v : Serves) (net : Endpoints) (q : Query) (reply : Msg) : Prop
    extends Fits v 0 q reply where
  whole : v.pf.truncate reply (maxMsgSize - 64) = uncompressed reply
  decoded : net.decoded (uncompressed reply) = none

theorem finishExchange_ok {b : Bytes} {nonce : Nonce} {r : Msg}
    (hdec : clientDecrypt v.crypto v.pf b nonce info = .ok r) (hok : net.decoded r = none) :
    finishExchange v info net b nonce = .ok r := by
  simp only [finishExchange, hdec, Result.mapError_ok, Result.ok_bind, hok, Result.pure_eq]

/-- Over UDP the client gets what `normalize` leaves of the message. -/
theorem exchangeUDP_fits (hc : v.crypto.Lawful) (hinfo : Agrees v info)
    (h : FitsUDP v net turn q reply) (drawn : Nat) :
    exchangeUDP v info net q turn drawn = .ok (v.cut q reply) := by
  obtain ⟨p, hp, hunpack, hshort, hlong⟩ := h.packed
  obtain ⟨next, hhandler, hnext⟩ := h.handler
  obtain ⟨p', hp', hunpack', hshort', hlong'⟩ := h.carried
  obtain ⟨b, nonce, hwire, hlength⟩ :=
    wire_of_packed hc hinfo hp (hlong.trans (Nat.min_le_left _ _))
  have hread : b.take net.serverSize = b :=
    List.take_of_length_le (hlength.trans_le (hlong.trans (Nat.min_le_right _ _)))
  have hlen : ¬ b.length < minDNSPacketSize := by
    have hsize := paddedSize_eq p.length
    simp only [minUDPQuestionSize] at hsize
    show ¬ b.length < 17
    omega
  obtain ⟨enc, henc, hback⟩ := clientDecrypt_serverEncrypt hc v.server.resolverCert info
    { queryOf v info with nonce } hinfo.esVersion hinfo.sharedKey hp' hunpack' hshort'
    (v.draws.random drawn) (v.draws.unixNano drawn)
  have hfits : enc.take net.clientSize = enc :=
    List.take_of_length_le ((length_serverEncrypt hc hp' henc).trans_le hlong')
  have hwritten : v.udpWriteMsg (uncompressed q.msg) { queryOf v info with nonce } reply
      ⟨[], drawn⟩ = (.ok (), ⟨[enc], drawn + 1⟩) := by
    rw [Serves.udpWriteMsg, Serves.encrypt, henc, Result.mapError_ok]
    rfl
  have hserved := serveDNS_one hhandler hnext hwritten h.question h.isQuery
  have hsent : (v.serveUDPLoop net.serverSize turn b ⟨[], drawn⟩).out = [enc] := by
    simp only [Serves.serveUDPLoop, hread, if_neg hlen, Serves.serveUDPMsg,
      isEncrypted_wire hinfo hwire, Bool.true_eq_false, if_false,
      serverDecrypt_wire hc hinfo hp hunpack hshort hwire, hserved]
  simp only [exchangeUDP, show clientEncrypt _ _ _ _ _ _ _ = _ from hwire, Result.mapError_ok,
    Result.ok_bind, hsent, hfits]
  exact finishExchange_ok hback h.decoded

/-- Over TCP the client gets the message as far as a frame has room for it. -/
theorem exchangeTCP_fits (hc : v.crypto.Lawful) (hinfo : Agrees v info)
    (h : Fits v 0 q reply) (hok : net.decoded (v.response q reply) = none) (drawn : Nat) :
    exchangeTCP v info net q drawn = .ok (v.response q reply) := by
  obtain ⟨b, nonce, hwire, -⟩ := wire_of_fits hc hinfo h
  have hlen := (wire_eq_ok hinfo hwire).1
  have hsent : writePrefixedTo b {} = (none, ⟨frame b, none⟩) :=
    writePrefixed_sent .dnscrypt hlen []
  obtain ⟨enc, hmsg, hle, hback⟩ := handleTCPMsg_wire hc hinfo h hwire drawn
  -- The server reads the query, and then the end of the stream.
  have hup : (net.up (frame b)).data = frame b ++ [] := (List.append_nil _).symm
  obtain ⟨conn', hread, hrest, -⟩ := readPrefixed_frame .dnscrypt hlen hup
  obtain ⟨conn₂, hend⟩ : ∃ conn₂, DnsCrypt.readPrefixed conn' = (.error _, conn₂) :=
    ⟨_, Prod.ext (readPrefixed_end .dnscrypt hrest) rfl⟩
  have hserved : (v.handleTCPConnection (fun _ => true) 0 (net.up (frame b)) ⟨{}, drawn⟩).2 =
      ⟨⟨frame enc, none⟩, drawn + 1⟩ := by
    rw [Serves.handleTCPConnection_ok rfl hread, hmsg]
    exact congrArg Prod.snd (Serves.handleTCPConnection_error rfl hend)
  have hdown : (net.down (frame enc)).data = frame enc ++ [] := (List.append_nil _).symm
  obtain ⟨conn₃, hresp, -⟩ := readPrefixed_frame .dnscrypt hle hdown
  simp only [exchangeTCP, hwire, Result.mapError_ok, Result.ok_bind, hsent, hserved,
    show DnsCrypt.readPrefixed (net.down (frame enc)) = _ from hresp]
  exact finishExchange_ok hback hok

theorem FitsTCP.response_eq (h : FitsTCP v net q reply) :
    v.response q reply = uncompressed reply := by
  have hwhole : v.pf.truncate reply (65535 - 64) = uncompressed reply := h.whole
  simp [Serves.response, normalize, dnsSize, hwhole, uncompressed]

theorem cut_eq_of_not_truncated
    (hmarks : ∀ n, (v.pf.truncate reply n).truncated = false →
      uncompressed (v.pf.truncate reply n) = uncompressed reply)
    (h : (v.cut q reply).truncated = false) : v.cut q reply = uncompressed reply := by
  have hfalse : (v.pf.truncate reply (dnsSize .udp (uncompressed q.msg) - 64)).truncated =
      false := by
    simpa [Serves.cut, normalize, uncompressed, apply_ite] using h
  simp only [Serves.cut, normalize, hfalse, Bool.false_eq_true, false_and, if_false]
  exact hmarks _ hfalse

/-- The client gets the whole message that the handler wrote, however the bytes come: the one
for the datagram, or, if that is marked as truncated, the one for the message over TCP. -/
theorem exchange_complete (hc : v.crypto.Lawful) (hinfo : Agrees v info) {req reply' : Msg}
    {udp tcp : UInt64 × Octets 4} (hudp : FitsUDP v net turn ⟨req, udp.1, udp.2⟩ reply)
    (hmarks : ∀ n, (v.pf.truncate reply n).truncated = false →
      uncompressed (v.pf.truncate reply n) = uncompressed reply)
    (htcp : (v.cut ⟨req, udp.1, udp.2⟩ reply).truncated = true →
      FitsTCP v net ⟨req, tcp.1, tcp.2⟩ reply')
    (drawn drawn' : Nat) :
    exchange v info net req udp tcp turn drawn drawn' =
      .ok (uncompressed
        (if (v.cut ⟨req, udp.1, udp.2⟩ reply).truncated then reply' else reply)) := by
  simp only [exchange, exchangeUDP_fits hc hinfo hudp drawn, Result.mapError_ok, Result.ok_bind]
  cases hmark : (v.cut ⟨req, udp.1, udp.2⟩ reply).truncated with
  | true =>
    have hfits := htcp hmark
    have hdecoded : net.decoded (v.response ⟨req, tcp.1, tcp.2⟩ reply') = none :=
      hfits.response_eq ▸ hfits.decoded
    rw [if_pos rfl, if_pos rfl, exchangeTCP_fits hc hinfo hfits.toFits hdecoded,
      hfits.response_eq, Result.mapError_ok]
  | false =>
    rw [if_neg Bool.false_ne_true, if_neg Bool.false_ne_true, Result.pure_eq,
      cut_eq_of_not_truncated hmarks hmark]

end Fitting

/-! ## A response that is cut over UDP -/

def exampleEndpoints : Endpoints where
  clientSize := 1252
  serverSize := 1252
  upSchedule := byteByByte
  downSchedule := byteByByte
  decoded _ := none

/-- `exampleAnswer` with twenty addresses. -/
def manyAddresses : Msg :=
  { exampleAnswer with
    answer := (List.range 20).map fun n => ⟨exampleOrg, classINET, 60, .a [192, 0, 2, n.toUInt8]⟩ }

def manyAddressesWire : Bytes :=
  [0, 1, 0x81, 0x80, 0, 1, 0, 20, 0, 0, 0, 0] ++ exampleOrgWire ++ [0, 1, 0, 1] ++
    (List.range 20).flatMap fun n =>
      exampleOrgWire ++ [0, 1, 0, 1, 0, 0, 0, 60, 0, 4, 192, 0, 2, n.toUInt8]

/-- What is left of it in 512 bytes, without the addresses. -/
def noAddresses : Msg := { manyAddresses with truncated := true, answer := [] }

def noAddressesWire : Bytes :=
  [0, 1, 0x83, 0x80, 0, 1, 0, 0, 0, 0, 0, 0] ++ exampleOrgWire ++ [0, 1, 0, 1]

/-- `Truncate` keeps seventeen of the addresses. -/
def cuttingPlatform : Platform :=
  { Platform.ofTable [(exampleQuery, exampleQueryWire), (manyAddresses, manyAddressesWire),
      (noAddresses, noAddressesWire)] with
    truncate := fun m n =>
      if m = manyAddresses ∧ max n 512 < manyAddressesWire.length then
        { m with truncated := true, answer := m.answer.take 17 }
      else { m with compress := false } }

def manyServes : Serves :=
  { exampleServes with
    pf := cuttingPlatform
    handler := fun _ _ _ => .write manyAddresses fun _ => .done none }

theorem cuttingPlatform_roundTrips (m : Msg) : cuttingPlatform.RoundTrips m :=
  Platform.ofTable_roundTrips (by decide +kernel) m

theorem manyAddresses_marks (n : Nat)
    (h : (cuttingPlatform.truncate manyAddresses n).truncated = false) :
    uncompressed (cuttingPlatform.truncate manyAddresses n) = uncompressed manyAddresses := by
  simp only [cuttingPlatform] at h ⊢
  split at h
  · cases h
  · next hfits =>
    rw [if_neg hfits]
    rfl

theorem manyServes_fitsUDP (stamp : UInt64 × Octets 4) :
    FitsUDP manyServes exampleEndpoints 0 ⟨exampleQuery, stamp.1, stamp.2⟩ manyAddresses := by
  have hquery : cuttingPlatform.pack exampleQuery = some exampleQueryWire := by decide +kernel
  have hcut : cuttingPlatform.pack noAddresses = some noAddressesWire := by decide +kernel
  have hnormal : normalize cuttingPlatform .udp (uncompressed exampleQuery) manyAddresses =
      noAddresses := by decide +kernel
  refine ⟨⟨_, hquery, cuttingPlatform_roundTrips _ _ hquery, by decide, by decide⟩, rfl, rfl,
    ⟨_, rfl, rfl⟩, ⟨noAddressesWire, ?_, ?_, by decide, by decide⟩, rfl⟩
  · show cuttingPlatform.pack (normalize cuttingPlatform .udp _ _) = _
    rw [hnormal, hcut]
  · show cuttingPlatform.unpack _ = some (uncompressed (normalize cuttingPlatform .udp _ _))
    rw [hnormal]
    exact cuttingPlatform_roundTrips _ _ hcut

theorem manyServes_fitsTCP (stamp : UInt64 × Octets 4) :
    FitsTCP manyServes exampleEndpoints ⟨exampleQuery, stamp.1, stamp.2⟩ manyAddresses := by
  have hquery : cuttingPlatform.pack exampleQuery = some exampleQueryWire := by decide +kernel
  have hlong : cuttingPlatform.pack manyAddresses = some manyAddressesWire := by decide +kernel
  have hnormal : normalize cuttingPlatform .tcp (uncompressed exampleQuery) manyAddresses =
      manyAddresses := by decide +kernel
  refine ⟨⟨⟨_, hquery, cuttingPlatform_roundTrips _ _ hquery, by decide, by decide⟩, rfl, rfl,
    ⟨_, rfl, rfl⟩, ⟨manyAddressesWire, ?_, ?_, by decide +kernel, by decide +kernel⟩⟩, ?_, rfl⟩
  · show cuttingPlatform.pack (normalize cuttingPlatform .tcp _ _) = _
    rw [hnormal, hlong]
  · show cuttingPlatform.unpack _ = some (uncompressed (normalize cuttingPlatform .tcp _ _))
    rw [hnormal]
    exact cuttingPlatform_roundTrips _ _ hlong
  · show cuttingPlatform.truncate manyAddresses (65535 - 64) = manyAddresses
    decide +kernel

/-- The answer is marked as truncated over UDP, and comes whole over TCP. -/
theorem exchange_complete_tcp :
    (manyServes.cut ⟨exampleQuery, 1, Octets.zero 4⟩ manyAddresses).truncated = true ∧
      exchange manyServes exampleInfo exampleEndpoints exampleQuery (1, Octets.zero 4)
        (2, Octets.zero 4) 0 0 0 = .ok manyAddresses := by
  have hmark : (manyServes.cut ⟨exampleQuery, 1, Octets.zero 4⟩ manyAddresses).truncated =
      true := by
    decide +kernel
  have hinfo : Agrees manyServes exampleInfo := ⟨rfl, rfl, rfl⟩
  have hresult := exchange_complete tagCrypto_lawful hinfo (manyServes_fitsUDP (1, Octets.zero 4))
    manyAddresses_marks (fun _ => manyServes_fitsTCP (2, Octets.zero 4)) 0 0
  rw [if_pos hmark] at hresult
  exact ⟨hmark, hresult⟩

end DnsProxy.DnsCrypt
