import DnsProxy.Platform
import DnsProxy.Receipt

/-!
# Exchanges with one upstream

`Exchange` of the plain, DoT, DoH, DoQ and DNSCrypt upstreams. What the network does
during an exchange is given with it: which calls fail, and which frames are received.
An exchange reports to the state that its caller gave (`Receipt`); what it received is
recorded beside that state.

A connection that has no more frames to give runs into the timeout.
-/

namespace DnsProxy.Transport

open Receipt

/-! ## Errors -/

/-- An error of the network, and what the exchanges ask about it. -/
structure NetErr where
  code : Nat
  /-- It is a `net.Error`. -/
  net : Bool := false
  /-- It is `io.EOF`. -/
  eof : Bool := false
  /-- `isExchangeTimeout`. -/
  timeout : Bool := false
  /-- It is one of the QUIC errors that `shouldRetry` names. -/
  connClosed : Bool := false
deriving DecidableEq, Repr

/-- The deadline of a connection. -/
def NetErr.deadline : NetErr := { code := 0, net := true, timeout := true }

/-- The errors of `validateResponse`, which all wrap `errQuestion`. -/
inductive QuestionErr
  | onlyOneAllowed (got : Nat)
  | mismatchedType (qtype : UInt16)
  | mismatchedName (name : Bytes)
deriving DecidableEq, Repr

/-- What is wrong with a complete response. -/
inductive Fault
  | shortRead
  | unpack
  | tsig
  | id
  | question (e : QuestionErr)
  | notResponse
  | status (code : Nat)
  | contentType
  | bodyLength
  | frame
  | decrypt
deriving DecidableEq, Repr

inductive ExchErr
  | stateReused
  | native (e : NetErr)
  | invalid (f : Fault)
deriving DecidableEq, Repr

namespace ExchErr

/-- The error as the state reports it. -/
def reported : ExchErr → ExchangeError
  | .native e => .native e.code
  | _ => .native 0

def isExpectedConnErr : ExchErr → Bool
  | .native e => !e.timeout && (e.net || e.eof)
  | _ => false

/-- `errors.Is(err, errQuestion)`. -/
def isQuestion : ExchErr → Bool
  | .invalid (.question _) => true
  | _ => false

/-- `errors.Is(err, errDNSProtocol)` for the errors of `readDNSResponse`, and
`errors.Is(err, errDoQProtocol)` for those of `readMsg`. -/
def isProtocol : ExchErr → Bool
  | .invalid _ => true
  | _ => false

def isExchangeTimeout : ExchErr → Bool
  | .native e => e.timeout
  | _ => false

def shouldRetry : ExchErr → Bool
  | .native e => !e.timeout && e.connClosed
  | _ => false

end ExchErr

/-- `errors.WithDeferred`: the first error decides. -/
def withDeferred (err : Option ExchErr) (deferred : Option NetErr) : Option ExchErr :=
  err.or (deferred.map .native)

/-! ## The state of an exchange -/

/-- The state that the caller gave, which may be nil, and the DNS messages received so
far. -/
structure Session where
  state : Option ExchangeState
  frames : List Bytes := []
deriving DecidableEq, Repr

namespace Session

def start (s : Session) (id : UInt16) : Option Session :=
  match s.state with
  | none => some s
  | some st => (st.start id).map fun st => { s with state := some st }

def receive (s : Session) (wire : Bytes) : Session := { s with frames := s.frames ++ [wire] }

def reserve (s : Session) (wire : Bytes) (id : UInt16) (udp : Bool) (now : Time) :
    Nat × Session :=
  match s.state with
  | none => (0, s)
  | some st =>
    let (ticket, st) := st.reserve wire id udp now
    (ticket, { s with state := some st })

def reserveCandidate (s : Session) (now : Time) : Nat × Session :=
  match s.state with
  | none => (0, s)
  | some st =>
    let (ticket, st) := st.reserveCandidate now
    (ticket, { s with state := some st })

def reject (s : Session) (ticket : Nat) (now : Time) : Session :=
  { s with state := s.state.map fun st => st.reject ticket now }

def accept (s : Session) (ticket : Nat) (response : Msg) : Session :=
  { s with state := s.state.map fun st => st.accept ticket response }

def finish (s : Session) (err : Option ExchErr) : Session :=
  { s with state := s.state.map fun st => st.finish (err.map ExchErr.reported) }

end Session

/-- What a function of the exchange returns, and the state it leaves. -/
structure Attempt where
  resp : Option Msg
  err : Option ExchErr
  session : Session
deriving DecidableEq, Repr

/-- An error without a response. -/
def fail (err : ExchErr) (s : Session) : Attempt := ⟨none, some err, s⟩

/-- What every `Exchange` does around the exchange proper. -/
def owned (req : Msg) (s : Session) (exchange : Session → Attempt) : Attempt :=
  match s.start req.id with
  | none => fail .stateReused s
  | some s =>
    let a := exchange s
    { a with session := a.session.finish a.err }

/-! ## Decoding -/

/-- What the exchanges use of other packages. -/
structure Codec extends Platform where
  /-- What `Unpack` leaves in a message that it cannot decode. -/
  undecoded : Bytes → Msg
  /-- `strings.EqualFold`. -/
  equalFold : Bytes → Bytes → Bool

def typeTSIG : UInt16 := 250

/-- `Msg.IsTsig`: the last additional record. -/
def isTsig (m : Msg) : Bool :=
  match m.extra.getLast? with
  | some r => r.rrtype == typeTSIG
  | none => false

def validateResponse (c : Codec) (req resp : Msg) : Option QuestionErr :=
  if resp.question.length ≠ 1 then some (.onlyOneAllowed resp.question.length)
  else
    let reqQ := req.firstQuestion
    let respQ := resp.firstQuestion
    if reqQ.qtype ≠ respQ.qtype then some (.mismatchedType respQ.qtype)
    else if !c.equalFold reqQ.name respQ.name then some (.mismatchedName respQ.name)
    else none

/-- A frame, with the clock when it was complete and when it had been looked at. -/
structure Frame where
  wire : Bytes
  received : Time := 0
  decoded : Time := 0
deriving DecidableEq, Repr

/-- What `ReadMsgHeader` returns. -/
inductive Read
  | frame (f : Frame)
  | shortRead
  | failed (e : NetErr)
deriving DecidableEq, Repr

def readDNSResponse (c : Codec) (req : Msg) (udp checkQuestion : Bool) :
    List Read → Session → Attempt
  | [], s => fail (.native .deadline) s
  | .failed e :: _, s => fail (.native e) s
  | .shortRead :: _, s => fail (.invalid .shortRead) s
  | .frame f :: reads, s =>
    let (ticket, s) := (s.receive f.wire).reserve f.wire req.id udp f.received
    match c.unpack f.wire with
    | none => ⟨some (c.undecoded f.wire), some (.invalid .unpack), s.reject ticket f.decoded⟩
    | some response =>
      -- no key is configured, so that no signature can be verified
      if isTsig response then
        ⟨some response, some (.invalid .tsig), s.reject ticket f.decoded⟩
      else if response.id ≠ req.id then
        if udp then readDNSResponse c req udp checkQuestion reads (s.reject ticket f.decoded)
        else ⟨some response, some (.invalid .id), s.reject ticket f.decoded⟩
      else
        match if checkQuestion then validateResponse c req response else none with
        | some e => ⟨some response, some (.invalid (.question e)), s.reject ticket f.decoded⟩
        | none => ⟨some response, none, s.accept ticket response⟩

/-! ## Plain DNS -/

inductive Network
  | udp
  | tcp
deriving DecidableEq, Repr

structure PlainDNS where
  net : Network
  bootstrap : Bool
deriving DecidableEq, Repr

/-- What happens on one connection. -/
structure Conn where
  dial : Option NetErr := none
  /-- The error of `SetDeadline` or `WriteMsg`. -/
  send : Option NetErr := none
  reads : List Read := []
  close : Option NetErr := none
deriving DecidableEq, Repr

structure PlainEnv where
  getDialer : Option NetErr := none
  /-- The first connection over each network, and the one after dialing again. -/
  conns : Network → Conn × Conn
  /-- `dns.Id`. -/
  newID : UInt16 := 0

namespace PlainDNS

def setRequestForNetwork (env : PlainEnv) (orig : Msg) (network : Network) : Msg :=
  if network ≠ .udp then orig
  else if orig.id = 0 then { orig with id := env.newID } else orig

def exchangeWithConn (c : Codec) (p : PlainDNS) (req : Msg) (conn : Conn) (network : Network)
    (s : Session) : Attempt :=
  match conn.send with
  | some e => fail (.native e) s
  | none => readDNSResponse c req (network = .udp) (!p.bootstrap) conn.reads s

/-- The exchange over the connection dialed again. -/
def dialAgain (c : Codec) (p : PlainDNS) (upstreamReq : Msg) (conn : Conn) (network : Network)
    (s : Session) : Attempt :=
  match conn.dial with
  | some e => fail (.native e) s
  | none =>
    let a := p.exchangeWithConn c upstreamReq conn network s
    { a with err := withDeferred a.err conn.close }

def dialExchange (c : Codec) (p : PlainDNS) (env : PlainEnv) (network : Network) (req : Msg)
    (s : Session) : Attempt :=
  let upstreamReq := setRequestForNetwork env req network
  let (conn, again) := env.conns network
  match conn.dial with
  | some e => fail (.native e) s
  | none =>
    let a := p.exchangeWithConn c upstreamReq conn network s
    let a :=
      if !p.bootstrap && a.err.any ExchErr.isExpectedConnErr then
        p.dialAgain c upstreamReq again network a.session
      else a
    { resp := a.resp.map fun resp => { resp with id := req.id }
      err := withDeferred a.err conn.close
      session := a.session }

/-- `Exchange` without what `owned` does around it. -/
def exchange (c : Codec) (p : PlainDNS) (env : PlainEnv) (req : Msg) (s : Session) : Attempt :=
  match env.getDialer with
  | some e => fail (.native e) s
  | none =>
    let a := p.dialExchange c env p.net req s
    if p.bootstrap && a.err.isSome then a
    else if p.net ≠ .udp then a
    else
      match a.resp with
      | none => a
      | some resp =>
        if !p.bootstrap && a.err.any ExchErr.isQuestion then
          p.dialExchange c env .tcp req a.session
        else if resp.truncated then p.dialExchange c env .tcp req a.session
        else a

end PlainDNS

/-! ## DNS over TLS -/

structure DoTEnv where
  getDialer : Option NetErr := none
  /-- Whether the first connection is from the pool, or the error of dialing it. -/
  conn : Except NetErr Bool
  first : Conn
  /-- The deadline has passed when the first connection has failed. -/
  expired : Bool := false
  second : Conn

def dotExchangeWithConn (c : Codec) (conn : Conn) (req : Msg) (s : Session) : Attempt :=
  match conn.send with
  | some e => fail (.native e) s
  | none =>
    let a := readDNSResponse c req false true conn.reads s
    match a.err with
    | some err => fail err a.session
    | none => a

def dotExchange (c : Codec) (env : DoTEnv) (req : Msg) (s : Session) : Attempt :=
  match env.getDialer, env.conn with
  | some e, _ => fail (.native e) s
  | none, .error e => fail (.native e) s
  | none, .ok cached =>
    let a := dotExchangeWithConn c env.first req s
    match a.err with
    | none => a
    | some err =>
      if !cached || err.isProtocol || env.expired then fail err a.session
      else
        match env.second.dial with
        | some e => fail (.native e) a.session
        | none => dotExchangeWithConn c env.second req a.session

/-! ## DNS over HTTPS -/

def maxBodySize : Nat := 65535

structure HTTPResponse where
  statusCode : Nat := 200
  /-- The content type is `application/dns-message`. -/
  dnsMessage : Bool := true
  contentLength : Int := -1
  /-- The first `dns.MaxMsgSize + 1` bytes of the body. -/
  body : Except NetErr Frame

/-- What happens in one call of `exchangeHTTPS`: packing, making and sending the request
fails, or there is a response. -/
abbrev HTTPAttempt := Except NetErr HTTPResponse

def exchangeHTTPSClient (c : Codec) (req : Msg) (s : Session) : HTTPAttempt → Attempt
  | .error e => fail (.native e) s
  | .ok httpResp =>
    if httpResp.statusCode ≠ 200 then fail (.invalid (.status httpResp.statusCode)) s
    else if !httpResp.dnsMessage then fail (.invalid .contentType) s
    else if (maxBodySize : Int) < httpResp.contentLength then fail (.invalid .bodyLength) s
    else
      match httpResp.body with
      | .error e => fail (.native e) s
      | .ok body =>
        if body.wire.length = 0 ∨ maxBodySize < body.wire.length then
          fail (.invalid .bodyLength) s
        else if 0 ≤ httpResp.contentLength ∧ (body.wire.length : Int) ≠ httpResp.contentLength then
          fail (.invalid .bodyLength) s
        else
          let (ticket, s) := (s.receive body.wire).reserve body.wire 0 false body.received
          match c.unpack body.wire with
          | none => fail (.invalid .unpack) (s.reject ticket body.decoded)
          | some resp =>
            if resp.id ≠ 0 then fail (.invalid .id) (s.reject ticket body.decoded)
            else
              let resp := { resp with id := req.id }
              match validateResponse c req resp with
              | some e => fail (.invalid (.question e)) (s.reject ticket body.decoded)
              | none => ⟨some resp, none, s.accept ticket resp⟩

structure DoHEnv where
  /-- Whether the client is cached, or the error of making one. -/
  getClient : Except NetErr Bool
  attempts : Nat → HTTPAttempt
  /-- The error of `resetClient` before the next attempt. -/
  resetClient : Nat → Option NetErr := fun _ => none

/-- The loop of at most `n` more attempts after the `i`-th one. -/
def retryHTTPS (c : Codec) (env : DoHEnv) (req : Msg) (isCached : Bool) :
    (n i : Nat) → Attempt → Attempt
  | 0, _, a => a
  | n + 1, i, a =>
    if isCached && a.err.any ExchErr.shouldRetry then
      match env.resetClient i with
      | some e => fail (.native e) a.session
      | none =>
        retryHTTPS c env req isCached n (i + 1)
          (exchangeHTTPSClient c req a.session (env.attempts (i + 1)))
    else a

def dohExchange (c : Codec) (env : DoHEnv) (req : Msg) (s : Session) : Attempt :=
  match env.getClient with
  | .error e => fail (.native e) s
  | .ok isCached =>
    let a := retryHTTPS c env req isCached 2 0 (exchangeHTTPSClient c req s (env.attempts 0))
    match a.err with
    | some err => fail err (a.session.finish (some err))
    | none => a

/-! ## DNS over QUIC -/

/-- What happens on one stream. -/
structure QUICStream where
  /-- The error of packing, opening the stream or writing. -/
  send : Option NetErr := none
  data : Bytes
  /-- The error after the data; without one the peer has closed the stream. -/
  failure : Option NetErr := none
  received : Time := 0
  decoded : Time := 0

/-- The error after the data that is not the end of the stream. -/
def QUICStream.broken (stream : QUICStream) : Option NetErr :=
  stream.failure.filter fun e => !e.eof

/-- The error of a read that ends before it is complete. -/
def QUICStream.cutShort (stream : QUICStream) : ExchErr :=
  match stream.broken with
  | none => .invalid .frame
  | some e => .native e

def readMsg (c : Codec) (stream : QUICStream) (req : Msg) (s : Session) : Attempt :=
  match stream.data with
  | b0 :: b1 :: data =>
    let msgLen := (b0.toUInt16 <<< 8 ||| b1.toUInt16).toNat
    if msgLen = 0 then fail (.invalid .frame) s
    else if data.length < msgLen then fail stream.cutShort s
    else if msgLen < data.length then fail (.invalid .frame) s
    else
      match stream.broken with
      | some e => fail (.native e) s
      | none =>
        let (ticket, s) := (s.receive data).reserve data 0 false stream.received
        match c.unpack data with
        | none => fail (.invalid .unpack) (s.reject ticket stream.decoded)
        | some m =>
          if m.id ≠ 0 then fail (.invalid .id) (s.reject ticket stream.decoded)
          else
            match validateResponse c req m with
            | some e => fail (.invalid (.question e)) (s.reject ticket stream.decoded)
            | none => ⟨some m, none, s.accept ticket m⟩
  | _ => fail stream.cutShort s

def exchangeQUIC (c : Codec) (req : Msg) (stream : QUICStream) (s : Session) : Attempt :=
  match stream.send with
  | some e => fail (.native e) s
  | none => readMsg c stream req s

structure DoQEnv where
  /-- Whether the connection is the cached one, or the error of opening one. -/
  getConnection : Except NetErr Bool
  first : QUICStream
  /-- The error of opening a new connection. -/
  reconnect : Option NetErr := none
  second : QUICStream

/-- The attempts of `Exchange`, with the request that has no id. -/
def doqAttempts (c : Codec) (env : DoQEnv) (req : Msg) (cached : Bool) (s : Session) : Attempt :=
  let a := exchangeQUIC c req env.first s
  match a.err with
  | none => a
  | some err =>
    if cached && !err.isProtocol && !err.isExchangeTimeout then
      match env.reconnect with
      | some e => fail (.native e) a.session
      | none => exchangeQUIC c req env.second a.session
    else a

def doqExchange (c : Codec) (env : DoQEnv) (req : Msg) (s : Session) : Attempt :=
  match env.getConnection with
  | .error e => fail (.native e) s
  | .ok cached =>
    let a := doqAttempts c env { req with id := 0 } cached s
    { a with resp := a.resp.map fun resp => { resp with id := req.id } }

/-! ## DNSCrypt -/

/-- What happens on one connection of the DNSCrypt client. -/
structure CryptConn where
  dial : Option NetErr := none
  /-- The error of encrypting or writing the query. -/
  send : Option NetErr := none
  read : Except NetErr Frame
  close : Option NetErr := none

structure DNSCryptEnv where
  certificate : Option NetErr := none
  /-- The decryption of a response, `none` if it is not authentic. -/
  decrypt : Bytes → Option Bytes
  udp : CryptConn
  tcp : CryptConn

/-- The errors of `dnsCryptReceipt.Decoded` for a decoded response. -/
def checkDecoded (c : Codec) (req response : Msg) : Option Fault :=
  if !response.response then some .notResponse
  else if response.id ≠ req.id then some .id
  else (validateResponse c req response).map .question

/-- `ExchangeConnContext` with the receipt as its observer. -/
def exchangeConnContext (c : Codec) (env : DNSCryptEnv) (req : Msg) (udp : Bool) (conn : CryptConn)
    (s : Session) : Attempt :=
  match conn.send, conn.read with
  | some e, _ => fail (.native e) s
  | none, .error e => fail (.native e) s
  | none, .ok f =>
    let (ticket, s) := s.reserveCandidate f.received
    match env.decrypt f.wire with
    | none => fail (.invalid .decrypt) (s.reject ticket f.decoded)
    | some wire =>
      let s := s.receive wire
      match c.unpack wire with
      | none => fail (.invalid .unpack) (s.reject ticket f.decoded)
      | some response =>
        match checkDecoded c req response with
        | some fault => fail (.invalid fault) (s.reject ticket f.decoded)
        | none =>
          ⟨some response, none,
            if udp && response.truncated then s.reject ticket f.decoded
            else s.accept ticket response⟩

def exchangeContext (c : Codec) (env : DNSCryptEnv) (req : Msg) (udp : Bool) (conn : CryptConn)
    (s : Session) : Attempt :=
  match conn.dial with
  | some e => fail (.native e) s
  | none =>
    let a := exchangeConnContext c env req udp conn s
    { a with err := withDeferred a.err conn.close }

def dnsCryptExchange (c : Codec) (env : DNSCryptEnv) (req : Msg) (s : Session) : Attempt :=
  match env.certificate with
  | some e => fail (.native e) s
  | none =>
    let a := exchangeContext c env req true env.udp s
    if a.err.isNone && a.resp.any Msg.truncated then
      exchangeContext c env req false env.tcp a.session
    else a

/-! ## All of them -/

/-- An upstream of one of the kinds, and what happens during an exchange. -/
inductive Exchange
  | plain (p : PlainDNS) (env : PlainEnv)
  | tls (env : DoTEnv)
  | https (env : DoHEnv)
  | quic (env : DoQEnv)
  | dnscrypt (env : DNSCryptEnv)

/-- The exchange without what `owned` does around it. -/
def Exchange.attempts (c : Codec) : Exchange → Msg → Session → Attempt
  | .plain p env => p.exchange c env
  | .tls env => dotExchange c env
  | .https env => dohExchange c env
  | .quic env => doqExchange c env
  | .dnscrypt env => dnsCryptExchange c env

def Exchange.run (c : Codec) (x : Exchange) (req : Msg) (s : Session) : Attempt :=
  owned req s (x.attempts c req)

end DnsProxy.Transport
