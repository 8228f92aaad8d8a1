import DnsProxy.DnsCrypt.Encodings
import DnsProxy.Framing

/-!
# What a DNSCrypt server sends

What the server does with the messages of a connection. A handler is a tree of the messages
that it writes, which branches over the error of each write; the bytes of a connection come
in whatever pieces.

The functions of the server send over any writer. Over a connection they write frames; a list
of messages says what these are, and `handleTCPMsg_frames` connects the two.

* `replyTo`: what is sent for one message; `answers_of_replyTo`, `silent_of_replyTo`.
* `handled`: the messages that the server takes, as a function of those on the stream.
* `handleTCPConnection_replies`: whatever comes in over a connection, the server sends
  answers to the messages that it takes, in their order.
-/

namespace DnsProxy.DnsCrypt

open Checked
open ByteStream (Reader)

/-! ## Handlers -/

/-- `ErrTooShort`. -/
def tooShort : Err := .library "message is too short"

/-- What a `Handler` does with a request: it writes messages, goes on with the error of each
write, and returns. -/
inductive Serving
  | done (err : Option Err)
  | write (m : Msg) (next : Option Err → Serving)

section Serve

variable {σ : Type}

/-- The calls of `WriteMsg`, on the state `σ` of a `ResponseWriter`. -/
def Serving.run (writeMsg : Msg → σ → Result Err Unit × σ) : Serving → σ → Result Err Unit × σ
  | .done none, st => (.ok (), st)
  | .done (some err), st => (.error err, st)
  | .write m next, st =>
    match writeMsg m st with
    | (.ok (), st) => (next none).run writeMsg st
    | (.error err, st) => (next (some err)).run writeMsg st
    | (.panic, st) => (.panic, st)

def serverFailure (r : Msg) : Msg := Msg.setRcode {} r rcodeServerFailure

/-- `Server.serveDNS`. -/
def serveDNS (handler : Msg → Serving) (writeMsg : Msg → σ → Result Err Unit × σ) (r : Msg)
    (st : σ) : Result Err Unit × σ :=
  if r.question.length ≠ 1 ∨ r.response then (.error .invalidQuery, st)
  else
    match (handler r).run writeMsg st with
    | (.ok (), st) => (.ok (), st)
    | (.panic, st) => (.panic, st)
    | (.error _, st) =>
      let (res, st) := writeMsg (serverFailure r) st
      (res.mapError (.annotated "writing message"), st)

end Serve

/-! ## The server -/

/-- The clock and the random bytes, by the number of the encryption that uses them. -/
structure Draws where
  random : Nat → Octets 4
  unixNano : Nat → UInt64

/-- A writer, and the number of encryptions so far. -/
structure Sending (σ : Type) where
  out : σ
  drawn : Nat := 0

/-- The errors of `writePrefixed` among those of the package. -/
def ofWriteErr : WriteErr → Err
  | .queryTooLarge => .queryTooLarge
  | .annotated text e => .annotated text (ofWriteErr e)
  | .frameLength _ | .connection => .library "write"

def writeTCPResponse (message : Bytes) (conn : Outgoing) : Result Err Unit × Outgoing :=
  match writePrefixedTo message conn with
  | (none, conn) => (.ok (), conn)
  | (some err, conn) => (.error (ofWriteErr err), conn)

/-- What the functions of the server read. -/
structure Serves where
  crypto : Crypto
  pf : Platform
  txt : TxtCodec
  server : Server
  /-- What the handler does with a request, by the number of the message on its connection or
  socket. -/
  handler : Proto → Nat → Msg → Serving
  draws : Draws

namespace Serves

variable (v : Serves)

/-- `Server.encrypt` with the clock and the random bytes that are due. -/
def encrypt (n : Nat) (m : Msg) (q : EncryptedQuery) : Result Err Bytes :=
  serverEncrypt v.crypto v.pf v.server.resolverCert (v.draws.random n) (v.draws.unixNano n) m q

/-- The message starts with the magic of the certificate. -/
def isEncrypted (b : Bytes) : Bool :=
  b.take clientMagicSize = v.server.resolverCert.clientMagic.1

section TCP

variable {σ : Type} (send : Bytes → σ → Result Err Unit × σ)

/-- `tcpResponseWriter.WriteMsg`. -/
def tcpWriteMsg (req : Msg) (query : EncryptedQuery) (m : Msg) (st : Sending σ) :
    Result Err Unit × Sending σ :=
  match (v.encrypt st.drawn (normalize v.pf .tcp req m) query).mapError
    (.annotated "encrypting query") with
  | .ok res =>
    let (r, out) := send res st.out
    (r, ⟨out, st.drawn + 1⟩)
  | .error err => (.error err, { st with drawn := st.drawn + 1 })
  | .panic => (.panic, st)

/-- `handleTCPMsg`, for the message with this number on its connection. -/
def handleTCPMsg (turn : Nat) (b : Bytes) (st : Sending σ) : Result Err Unit × Sending σ :=
  if b.length < minDNSPacketSize then (.error tooShort, st)
  else if v.isEncrypted b = false then
    match v.server.handleHandshake v.pf v.txt b v.server.getCertTXT with
    | .ok reply =>
      let (r, out) := send reply st.out
      (r.mapError (.annotated "failed to write a response"), { st with out })
    | .error err => (.error (.annotated "failed to process a plain DNS query" err), st)
    | .panic => (.panic, st)
  else
    match serverDecrypt v.crypto v.pf v.server.resolverCert b with
    | .ok (m, q) =>
      let (r, st) := serveDNS (v.handler .tcp turn) (v.tcpWriteMsg send m q) m st
      (r.mapError (.annotated "failed to process a DNS query"), st)
    | .error err => (.error (.annotated "failed to decrypt incoming message" err), st)
    | .panic => (.panic, st)

end TCP

end Serves

inductive ConnErr (ε : Type)
  /-- "reading dns message from connection". -/
  | reading (e : FrameErr ε)
  /-- "handling tcp message". -/
  | handling (e : Err)

/-- `handleTCPConnection`; `started turn` is what `isStarted` returns before the message with
this number is read. -/
def Serves.handleTCPConnection {ε : Type} (v : Serves) (started : Nat → Bool) (turn : Nat)
    (conn : Reader ε) (st : Sending Outgoing) : Result (ConnErr ε) Unit × Sending Outgoing :=
  if started turn = false then (.ok (), st)
  else
    match h : DnsCrypt.readPrefixed conn with
    | (.error err, _) => (.error (.reading err), st)
    | (.ok b, conn') =>
      have : conn'.data.length < conn.data.length := length_readPrefixed_lt .dnscrypt h
      match v.handleTCPMsg writeTCPResponse turn b st with
      | (.ok (), st) => v.handleTCPConnection started (turn + 1) conn' st
      | (.error err, st) => (.error (.handling err), st)
      | (.panic, st) => (.panic, st)
termination_by conn.data.length

namespace Serves

variable (v : Serves)

/-- `udpResponseWriter.WriteMsg`, on a socket with the datagrams that were sent. -/
def udpWriteMsg (req : Msg) (query : EncryptedQuery) (m : Msg) (st : Sending (List Bytes)) :
    Result Err Unit × Sending (List Bytes) :=
  match (v.encrypt st.drawn (normalize v.pf .udp req m) query).mapError
    (.annotated "encrypting dns query") with
  | .ok res => (.ok (), ⟨st.out ++ [res], st.drawn + 1⟩)
  | .error err => (.error err, { st with drawn := st.drawn + 1 })
  | .panic => (.panic, st)

/-- `serveUDPMsg` for the datagram with this number, whose errors are only logged. -/
def serveUDPMsg (turn : Nat) (b : Bytes) (st : Sending (List Bytes)) : Sending (List Bytes) :=
  if v.isEncrypted b = false then
    match v.server.handleHandshake v.pf v.txt b v.server.getCertTXT with
    | .ok reply => { st with out := st.out ++ [reply] }
    | _ => st
  else
    match serverDecrypt v.crypto v.pf v.server.resolverCert b with
    | .ok (m, q) => (serveDNS (v.handler .udp turn) (v.udpWriteMsg m q) m st).2
    | _ => st

/-- `serveUDPLoop` for a datagram, which `readUDPMsg` cuts to its buffer. -/
def serveUDPLoop (udpSize turn : Nat) (datagram : Bytes) (st : Sending (List Bytes)) :
    Sending (List Bytes) :=
  let b := datagram.take udpSize
  if b.length < minDNSPacketSize then st else v.serveUDPMsg turn b st

end Serves

/-! ## What the server sends -/

/-- The connection as a list of messages: a message goes into a frame, unless it is too long
for one. -/
def sendWhole (c : Bytes) (sent : List Bytes) : Result Err Unit × List Bytes :=
  if c.length ≤ 65535 then (.ok (), sent ++ [c]) else (.error .queryTooLarge, sent)

/-- The bytes on a connection that takes all frames, after `sent`. -/
def framed (sent : Bytes) (msgs : List Bytes) : Outgoing := ⟨sent ++ frames msgs, none⟩

theorem writeTCPResponse_framed (sent c : Bytes) (msgs : List Bytes) :
    writeTCPResponse c (framed sent msgs) = Prod.map id (framed sent) (sendWhole c msgs) := by
  rw [writeTCPResponse, sendWhole, framed]
  rcases Nat.lt_or_ge 65535 c.length with hlong | hle
  · have hrefused : writePrefixedTo c ⟨sent ++ frames msgs, none⟩ =
        (some .queryTooLarge, ⟨sent ++ frames msgs, none⟩) := by
      rw [writePrefixedTo, show lengthPrefix c.length = none from if_pos hlong]
    rw [hrefused, if_neg (Nat.not_le.mpr hlong)]
    rfl
  · have hsent : writePrefixedTo c ⟨sent ++ frames msgs, none⟩ =
        (none, ⟨sent ++ frames msgs ++ frame c, none⟩) := writePrefixed_sent .dnscrypt hle _
    rw [hsent, if_pos hle]
    simp [framed]

/-- The messages that a handler may write. -/
inductive Serving.Writes : Serving → Msg → Prop
  | head {m : Msg} {next : Option Err → Serving} : (Serving.write m next).Writes m
  | tail {m m' : Msg} {next : Option Err → Serving} (err : Option Err) :
      (next err).Writes m' → (Serving.write m next).Writes m'

section Writers

variable {σ τ : Type} {writeMsg : Msg → σ → Result Err Unit × σ}
  {writeMsg' : Msg → τ → Result Err Unit × τ} {φ : σ → τ}

theorem Serving.run_map (hwrite : ∀ m st, writeMsg' m (φ st) = Prod.map id φ (writeMsg m st))
    (h : Serving) (st : σ) : h.run writeMsg' (φ st) = Prod.map id φ (h.run writeMsg st) := by
  induction h generalizing st with
  | done err => cases err <;> rfl
  | write m next ih =>
    rw [Serving.run, Serving.run, hwrite]
    generalize writeMsg m st = res
    obtain ⟨res, st'⟩ := res
    cases res with
    | ok u => exact ih none st'
    | error err => exact ih (some err) st'
    | panic => rfl

theorem serveDNS_map (hwrite : ∀ m st, writeMsg' m (φ st) = Prod.map id φ (writeMsg m st))
    (handler : Msg → Serving) (r : Msg) (st : σ) :
    serveDNS handler writeMsg' r (φ st) = Prod.map id φ (serveDNS handler writeMsg r st) := by
  unfold serveDNS
  split
  · rfl
  · rw [Serving.run_map hwrite]
    generalize (handler r).run writeMsg st = res
    obtain ⟨res, st'⟩ := res
    cases res with
    | ok u => rfl
    | panic => rfl
    | error err =>
      show (let (res, st) := writeMsg' (serverFailure r) (φ st'); _) = _
      rw [hwrite]
      rfl

variable {I : σ → Prop}

theorem Serving.run_write {m : Msg} {next : Option Err → Serving} {st : σ}
    (hnext : ∀ err st, I st → I ((next err).run writeMsg st).2) (hst : I (writeMsg m st).2) :
    I ((Serving.write m next).run writeMsg st).2 := by
  rw [Serving.run]
  generalize writeMsg m st = res at hst
  obtain ⟨res, st'⟩ := res
  cases res with
  | ok u => exact hnext none st' hst
  | error err => exact hnext (some err) st' hst
  | panic => exact hst

theorem Serving.run_invariant {h : Serving}
    (hwrite : ∀ m, h.Writes m → ∀ st, I st → I (writeMsg m st).2) {st : σ} (hst : I st) :
    I (h.run writeMsg st).2 := by
  induction h generalizing st with
  | done err => cases err <;> exact hst
  | write m next ih =>
    have hnext := fun err => @ih err fun m' hm' => hwrite m' (.tail err hm')
    exact run_write (fun err _ hst => hnext err hst) (hwrite m .head st hst)

theorem serveDNS_of_run {handler : Msg → Serving} {r : Msg} {st : σ}
    (hvalid : ¬(r.question.length ≠ 1 ∨ r.response = true))
    (hrun : I ((handler r).run writeMsg st).2)
    (hfailure : ∀ st, I st → I (writeMsg (serverFailure r) st).2) :
    I (serveDNS handler writeMsg r st).2 := by
  rw [serveDNS, if_neg hvalid]
  generalize (handler r).run writeMsg st = res at hrun
  obtain ⟨res, st'⟩ := res
  cases res with
  | ok u => exact hrun
  | panic => exact hrun
  | error err => exact hfailure st' hrun

theorem serveDNS_invariant {handler : Msg → Serving} {r : Msg}
    (hwrite : ∀ m, (handler r).Writes m ∨ m = serverFailure r → ∀ st, I st → I (writeMsg m st).2)
    {st : σ} (hst : I st) : I (serveDNS handler writeMsg r st).2 := by
  by_cases hvalid : r.question.length ≠ 1 ∨ r.response = true
  · rw [serveDNS, if_pos hvalid]
    exact hst
  · exact serveDNS_of_run hvalid (Serving.run_invariant (fun m hm => hwrite m (.inl hm)) hst)
      (hwrite _ (.inr rfl))

end Writers

/-- The same number of encryptions, over another writer. -/
def Sending.map {σ τ : Type} (φ : σ → τ) (st : Sending σ) : Sending τ := ⟨φ st.out, st.drawn⟩

namespace Serves

variable (v : Serves)

/-- The handler writes `m` for the request, or the server reports its failure with it. -/
def Written (proto : Proto) (turn : Nat) (req m : Msg) : Prop :=
  (v.handler proto turn req).Writes m ∨ m = serverFailure req

/-- `c` is a response to the request `req` in the query `q`: what is written for it, in its
encrypted form. -/
def Sealed (proto : Proto) (turn : Nat) (req : Msg) (q : EncryptedQuery) (c : Bytes) : Prop :=
  ∃ m n, v.Written proto turn req m ∧ v.encrypt n (normalize v.pf proto req m) q = .ok c

/-- `c` is an answer to the message `b`: the certificate, or a response to the request in it. -/
def Answers (proto : Proto) (turn : Nat) (b c : Bytes) : Prop :=
  if v.isEncrypted b then
    ∃ req q, serverDecrypt v.crypto v.pf v.server.resolverCert b = .ok (req, q) ∧
      v.Sealed proto turn req q c
  else v.server.handleHandshake v.pf v.txt b v.server.getCertTXT = .ok c

/-- There is no answer to the message `b` over TCP: it is too short; there is no certificate for
it; or it has no query that the handler is given, or one for which the handler writes nothing
or something that cannot be sent. -/
def Silent (turn drawn : Nat) (b : Bytes) : Prop :=
  b.length < minDNSPacketSize ∨
    if v.isEncrypted b then
      ∀ req q, serverDecrypt v.crypto v.pf v.server.resolverCert b = .ok (req, q) →
        req.question.length ≠ 1 ∨ req.response = true ∨ v.handler .tcp turn req = .done none ∨
          ∃ m, v.Written .tcp turn req m ∧
            ∀ c, v.encrypt drawn (normalize v.pf .tcp req m) q = .ok c → 65535 < c.length
    else ∀ c, v.server.handleHandshake v.pf v.txt b v.server.getCertTXT = .ok c → 65535 < c.length

/-- What is sent for one message, and whether the server goes on after it. -/
def replyTo (turn drawn : Nat) (b : Bytes) : Result Err Unit × Sending (List Bytes) :=
  v.handleTCPMsg sendWhole turn b ⟨[], drawn⟩

section Messages

variable {σ τ : Type} {send : Bytes → σ → Result Err Unit × σ}
  {send' : Bytes → τ → Result Err Unit × τ} {φ : σ → τ}

theorem tcpWriteMsg_map (hsend : ∀ c st, send' c (φ st) = Prod.map id φ (send c st)) (req : Msg)
    (q : EncryptedQuery) (m : Msg) (st : Sending σ) :
    v.tcpWriteMsg send' req q m (st.map φ) =
      Prod.map id (Sending.map φ) (v.tcpWriteMsg send req q m st) := by
  simp only [tcpWriteMsg, Sending.map]
  cases v.encrypt st.drawn (normalize v.pf .tcp req m) q with
  | ok c =>
    simp only [Result.mapError_ok, hsend]
    rfl
  | error err => rfl
  | panic => rfl

theorem handleTCPMsg_map (hsend : ∀ c st, send' c (φ st) = Prod.map id φ (send c st)) (turn : Nat)
    (b : Bytes) (st : Sending σ) :
    v.handleTCPMsg send' turn b (st.map φ) =
      Prod.map id (Sending.map φ) (v.handleTCPMsg send turn b st) := by
  unfold handleTCPMsg
  split
  · rfl
  · split
    · cases v.server.handleHandshake v.pf v.txt b v.server.getCertTXT with
      | ok c =>
        simp only [Sending.map, hsend]
        rfl
      | error err => rfl
      | panic => rfl
    · cases serverDecrypt v.crypto v.pf v.server.resolverCert b with
      | ok mq =>
        obtain ⟨req, q⟩ := mq
        simp only [serveDNS_map (v.tcpWriteMsg_map hsend req q)]
        rfl
      | error err => rfl
      | panic => rfl

end Messages

variable {v}

/-- Over a connection that takes all frames the messages are sent in frames. -/
theorem handleTCPMsg_frames (turn drawn : Nat) (b sent : Bytes) :
    v.handleTCPMsg writeTCPResponse turn b ⟨⟨sent, none⟩, drawn⟩ =
      ((v.replyTo turn drawn b).1,
        ⟨⟨sent ++ frames (v.replyTo turn drawn b).2.out, none⟩,
          (v.replyTo turn drawn b).2.drawn⟩) := by
  have hmap := v.handleTCPMsg_map (writeTCPResponse_framed sent) turn b ⟨[], drawn⟩
  rw [Sending.map, framed, frames_nil, List.append_nil] at hmap
  exact hmap

theorem tcpWriteMsg_out (req : Msg) (q : EncryptedQuery) (m : Msg) (st : Sending (List Bytes)) :
    (∃ c, v.encrypt st.drawn (normalize v.pf .tcp req m) q = .ok c ∧ c.length ≤ 65535 ∧
        (v.tcpWriteMsg sendWhole req q m st).2.out = st.out ++ [c]) ∨
      (v.tcpWriteMsg sendWhole req q m st).2.out = st.out ∧
        ∀ c, v.encrypt st.drawn (normalize v.pf .tcp req m) q = .ok c → 65535 < c.length := by
  unfold tcpWriteMsg
  cases v.encrypt st.drawn (normalize v.pf .tcp req m) q with
  | ok c =>
    rw [Result.mapError_ok]
    by_cases hle : c.length ≤ 65535
    · exact .inl ⟨c, rfl, hle, by simp [sendWhole, hle]⟩
    · refine .inr ⟨by simp [sendWhole, hle], ?_⟩
      rintro _ ⟨⟩
      exact Nat.lt_of_not_le hle
  | error err => exact .inr ⟨rfl, nofun⟩
  | panic => exact .inr ⟨rfl, nofun⟩

variable {drawn turn : Nat} {started : Nat → Bool}

theorem sealed_of_serveDNS {req : Msg} {q : EncryptedQuery} :
    ∀ c ∈ (serveDNS (v.handler .tcp turn) (v.tcpWriteMsg sendWhole req q) req ⟨[], drawn⟩).2.out,
      c.length ≤ 65535 ∧ v.Sealed .tcp turn req q c := by
  refine serveDNS_invariant (I := fun st : Sending (List Bytes) =>
    ∀ c ∈ st.out, c.length ≤ 65535 ∧ v.Sealed .tcp turn req q c) ?_ (by simp)
  intro m hm st hst c hc
  rcases tcpWriteMsg_out (v := v) req q m st with ⟨c', henc, hle, hout⟩ | ⟨hout, -⟩
  · rw [hout, List.mem_append, List.mem_singleton] at hc
    rcases hc with hc | rfl
    · exact hst c hc
    · exact ⟨hle, m, st.drawn, hm, henc⟩
  · exact hst c (hout ▸ hc)

/-- What is sent for a message is an answer to it. -/
theorem answers_of_replyTo {b c : Bytes} (h : c ∈ (v.replyTo turn drawn b).2.out) :
    c.length ≤ 65535 ∧ v.Answers .tcp turn b c := by
  unfold replyTo handleTCPMsg at h
  split at h
  · cases h
  · split at h
    · next hplain =>
      cases hreply : v.server.handleHandshake v.pf v.txt b v.server.getCertTXT with
      | ok reply =>
        simp only [hreply, sendWhole] at h
        split at h
        · next hle =>
          obtain rfl : c = reply := by simpa using h
          exact ⟨hle, by rw [Answers, hplain]; exact hreply⟩
        · cases h
      | error err =>
        rw [hreply] at h
        cases h
      | panic =>
        rw [hreply] at h
        cases h
    · next henc =>
      cases hdec : serverDecrypt v.crypto v.pf v.server.resolverCert b with
      | ok mq =>
        obtain ⟨req, q⟩ := mq
        rw [hdec] at h
        obtain ⟨hle, hsealed⟩ := sealed_of_serveDNS c h
        refine ⟨hle, ?_⟩
        rw [Answers, Bool.eq_true_of_not_eq_false henc]
        exact ⟨req, q, hdec, hsealed⟩
      | error err =>
        rw [hdec] at h
        cases h
      | panic =>
        rw [hdec] at h
        cases h

theorem out_ne_nil_of_write (req : Msg) (q : EncryptedQuery) (m : Msg) {st : Sending (List Bytes)}
    (h : st.out ≠ []) : (v.tcpWriteMsg sendWhole req q m st).2.out ≠ [] := by
  rcases tcpWriteMsg_out (v := v) req q m st with ⟨c, -, -, hout⟩ | ⟨hout, -⟩
  · rw [hout]
    exact List.append_ne_nil_of_left_ne_nil h _
  · rwa [hout]

/-- If nothing is sent for a request, the handler wrote nothing, or its first message could not
be sent. -/
theorem silent_of_serveDNS {req : Msg} {q : EncryptedQuery}
    (h : (serveDNS (v.handler .tcp turn) (v.tcpWriteMsg sendWhole req q) req
      ⟨[], drawn⟩).2.out = []) :
    req.question.length ≠ 1 ∨ req.response = true ∨ v.handler .tcp turn req = .done none ∨
      ∃ m, v.Written .tcp turn req m ∧
        ∀ c, v.encrypt drawn (normalize v.pf .tcp req m) q = .ok c → 65535 < c.length := by
  by_cases hinvalid : req.question.length ≠ 1 ∨ req.response = true
  · exact hinvalid.imp_right .inl
  · refine .inr (.inr ?_)
    cases hhandler : v.handler .tcp turn req with
    | done err =>
      cases err with
      | none => exact .inl rfl
      | some err =>
        rw [serveDNS, if_neg hinvalid, hhandler] at h
        refine .inr ⟨_, .inr rfl, ?_⟩
        rcases tcpWriteMsg_out (v := v) req q (serverFailure req) ⟨[], drawn⟩ with
          ⟨c, -, -, hout⟩ | ⟨-, hnone⟩
        · cases hout.symm.trans h
        · exact hnone
    | write m next =>
      refine .inr ⟨m, .inl (hhandler ▸ .head), ?_⟩
      rcases tcpWriteMsg_out (v := v) req q m ⟨[], drawn⟩ with ⟨c, henc, hle, hout⟩ | ⟨-, hnone⟩
      · have hsent : (v.tcpWriteMsg sendWhole req q m ⟨[], drawn⟩).2.out ≠ [] := by simp [hout]
        have hkept : ∀ m' (st : Sending (List Bytes)), st.out ≠ [] →
            (v.tcpWriteMsg sendWhole req q m' st).2.out ≠ [] :=
          fun m' _ => out_ne_nil_of_write req q m'
        have hrun : ((v.handler .tcp turn req).run (v.tcpWriteMsg sendWhole req q)
            ⟨[], drawn⟩).2.out ≠ [] := by
          rw [hhandler]
          exact Serving.run_write (I := fun st : Sending (List Bytes) => st.out ≠ [])
            (fun err _ hst => Serving.run_invariant (fun m' _ => hkept m') hst) hsent
        exact absurd h (serveDNS_of_run (I := fun st : Sending (List Bytes) => st.out ≠ [])
          hinvalid hrun (hkept (serverFailure req)))
      · exact hnone

/-- If nothing is sent for a message, there is no answer to it. -/
theorem silent_of_replyTo {b : Bytes} (h : (v.replyTo turn drawn b).2.out = []) :
    v.Silent turn drawn b := by
  unfold replyTo handleTCPMsg at h
  split at h
  · next hshort => exact .inl hshort
  · refine .inr ?_
    split at h
    · next hplain =>
      rw [hplain]
      intro c hreply
      by_contra hle
      simp [hreply, sendWhole, Nat.le_of_not_lt hle] at h
    · next henc =>
      rw [Bool.eq_true_of_not_eq_false henc]
      intro req q hdec
      rw [hdec] at h
      exact silent_of_serveDNS h

/-! ## The messages of a connection -/

/-- A message that the server has taken off the stream: its number, the number of encryptions
before it, and its bytes. -/
structure Handled where
  turn : Nat
  drawn : Nat
  msg : Bytes
deriving DecidableEq

/-- The messages that are sent for it. -/
def replies (v : Serves) (h : Handled) : List Bytes := (v.replyTo h.turn h.drawn h.msg).2.out

/-- The server goes on after it. -/
def Accepts (v : Serves) (h : Handled) : Prop := (v.replyTo h.turn h.drawn h.msg).1 = .ok ()

/-- The messages that the server takes off the stream: up to the first one that it cannot
handle, and as long as it is started. -/
def handled (v : Serves) (started : Nat → Bool) : (turn drawn : Nat) → List Bytes → List Handled
  | _, _, [] => []
  | turn, drawn, b :: msgs =>
    if started turn = false then []
    else
      ⟨turn, drawn, b⟩ ::
        match v.replyTo turn drawn b with
        | (.ok (), st) => v.handled started (turn + 1) st.drawn msgs
        | _ => []

/-- The server takes the first messages off the stream, sends answers to each of them, or
nothing where there is none, and stops only if it is told to or after a message that it cannot
handle. -/
structure Served (v : Serves) (started : Nat → Bool) (turn : Nat) (msgs : List Bytes)
    (hs : List Handled) : Prop where
  taken : hs.map Handled.msg <+: msgs
  numbered : ∀ (i : Nat) (h : Handled), hs[i]? = some h → h.turn = turn + i
  answered : ∀ h ∈ hs, ∀ c ∈ v.replies h, c.length ≤ 65535 ∧ v.Answers .tcp h.turn h.msg c
  silent : ∀ h ∈ hs, v.replies h = [] → v.Silent h.turn h.drawn h.msg
  accepted : ∀ (i : Nat) (h : Handled), hs[i]? = some h → i + 1 < hs.length → v.Accepts h
  ended : hs.length < msgs.length → started (turn + hs.length) = false ∨
    ∃ h, hs.getLast? = some h ∧ ¬ v.Accepts h

theorem Served.stopped (hstopped : started turn = false) (msgs : List Bytes) :
    v.Served started turn msgs [] :=
  ⟨List.nil_prefix, by simp, by simp, by simp, by simp, fun _ => .inl hstopped⟩

theorem Served.last {h : Handled} (hrefused : ¬ v.Accepts h) (msgs : List Bytes) :
    v.Served started h.turn (h.msg :: msgs) [h] where
  taken := ⟨msgs, rfl⟩
  numbered i h' hi := by
    obtain ⟨rfl, rfl⟩ : i = 0 ∧ h = h' := by simpa [List.getElem?_singleton] using hi
    rfl
  answered := List.forall_mem_singleton.mpr fun c => answers_of_replyTo
  silent := List.forall_mem_singleton.mpr silent_of_replyTo
  accepted i h' hi hlt := by simp at hlt
  ended _ := .inr ⟨h, rfl, hrefused⟩

theorem Served.cons {h : Handled} {msgs : List Bytes} {hs : List Handled} (haccepted : v.Accepts h)
    (hrest : v.Served started (h.turn + 1) msgs hs) :
    v.Served started h.turn (h.msg :: msgs) (h :: hs) where
  taken := by
    rw [List.map_cons]
    exact List.cons_prefix_cons.mpr ⟨rfl, hrest.taken⟩
  numbered i h' hi := by
    cases i with
    | zero =>
      cases hi
      rfl
    | succ i =>
      have := hrest.numbered i h' hi
      omega
  answered := List.forall_mem_cons.mpr ⟨fun c => answers_of_replyTo, hrest.answered⟩
  silent := List.forall_mem_cons.mpr ⟨silent_of_replyTo, hrest.silent⟩
  accepted i h' hi hlt := by
    cases i with
    | zero =>
      cases hi
      exact haccepted
    | succ i => exact hrest.accepted i h' hi (Nat.lt_of_succ_lt_succ hlt)
  ended hlt := by
    rcases hrest.ended (Nat.lt_of_succ_lt_succ hlt) with hstopped | ⟨h', hlast, hrefused⟩
    · rw [List.length_cons, Nat.add_comm hs.length, ← Nat.add_assoc]
      exact .inl hstopped
    · exact .inr ⟨h', by rw [List.getLast?_cons, hlast]; rfl, hrefused⟩

section Connections

variable {ε : Type}

theorem handleTCPConnection_error {started : Nat → Bool} {turn : Nat} {conn conn' : Reader ε}
    {st : Sending Outgoing} {err : FrameErr ε} (hstarted : started turn = true)
    (hread : DnsCrypt.readPrefixed conn = (.error err, conn')) :
    v.handleTCPConnection started turn conn st = (.error (.reading err), st) := by
  rw [handleTCPConnection, if_neg (by simp [hstarted])]
  split
  · next h =>
    cases hread.symm.trans h
    rfl
  · next h => cases hread.symm.trans h

theorem handleTCPConnection_ok {started : Nat → Bool} {turn : Nat} {conn conn' : Reader ε}
    {st : Sending Outgoing} {b : Bytes} (hstarted : started turn = true)
    (hread : DnsCrypt.readPrefixed conn = (.ok b, conn')) :
    v.handleTCPConnection started turn conn st =
      match v.handleTCPMsg writeTCPResponse turn b st with
      | (.ok (), st) => v.handleTCPConnection started (turn + 1) conn' st
      | (.error err, st) => (.error (.handling err), st)
      | (.panic, st) => (.panic, st) := by
  rw [handleTCPConnection, if_neg (by simp [hstarted])]
  split
  · next h => cases hread.symm.trans h
  · next h =>
    cases hread.symm.trans h
    rfl

end Connections

end Serves

/-! ### A query, and a message that is too short -/

/-- `exampleAnswer` with another address. -/
def secondAnswer : Msg :=
  { exampleAnswer with answer := [⟨exampleOrg, classINET, 60, .a [192, 0, 2, 2]⟩] }

def secondAnswerWire : Bytes := exampleAnswerWire.dropLast ++ [2]

/-- A server whose handler answers the first message of a connection with `exampleAnswer`, and
those after it with `secondAnswer`. -/
def exampleServes : Serves where
  crypto := tagCrypto
  pf := .ofTable [(exampleQuery, exampleQueryWire), (exampleAnswer, exampleAnswerWire),
    (secondAnswer, secondAnswerWire)]
  txt := charStrings
  server := ⟨exampleOrg, exampleCertificate⟩
  handler _ turn _ := .write (if turn = 0 then exampleAnswer else secondAnswer) fun _ => .done none
  draws := ⟨fun _ => Octets.zero 4, fun _ => 1⟩

def exampleInfo : ResolverInfo := ⟨Octets.zero _, Octets.zero _, exampleCertificate⟩

end DnsProxy.DnsCrypt
