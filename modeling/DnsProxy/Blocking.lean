import DnsProxy.Lib.Interleaving
import DnsProxy.Transport

/-!
# Where an exchange waits

The exchanges of `Transport` as threads that share their state with its owner: each call
on the state is one atomic step, and the thread waits at each operation of the network.
Between any two steps, and while the thread waits, the owner may call `Expire` and
`Abandon`.

Results:
1. `exchange_run`, `exchange_reach`: without the calls of the owner the threads are the
   exchanges of `Transport`.
2. `exchange_expirable`: wherever a thread waits no reservation is outstanding, so that an
   `Expire` decides at once.

The argument is one rule: what follows a reservation releases it by `reject` or `accept`
before the thread waits again (`keeps_reserve`, `rejects`, `accepts`).
-/

namespace DnsProxy.Blocking

open Interleaving Interleaving.Prog Receipt Transport

/-! ## Threads -/

/-- The operations at which an exchange waits for the network. -/
inductive NetOp
  /-- Resolving the name of the server. -/
  | resolve
  | dial
  | write
  | read
  | close
deriving DecidableEq, Repr

abbrev Thread := Prog Session NetOp

/-- What a function of the exchange returns. -/
structure Returned where
  resp : Option Msg
  err : Option ExchErr
deriving DecidableEq, Repr

def fails (err : ExchErr) : Returned := ⟨none, some err⟩

/-- `start`, which tells whether the state could be taken. -/
def start (id : UInt16) : Thread Bool :=
  step fun s =>
    match s.start id with
    | some s => (true, s)
    | none => (false, s)

/-- A complete message, and the `reserve` for it. -/
def reserve (wire : Bytes) (id : UInt16) (udp : Bool) (now : Time) : Thread Nat :=
  step fun s => (s.receive wire).reserve wire id udp now

def reserveCandidate (now : Time) : Thread Nat := step fun s => s.reserveCandidate now

def receive (wire : Bytes) : Thread Unit := modify fun s => s.receive wire

def reject (ticket : Nat) (now : Time) : Thread Unit := modify fun s => s.reject ticket now

def accept (ticket : Nat) (response : Msg) : Thread Unit := modify fun s => s.accept ticket response

def finish (err : Option ExchErr) : Thread Unit := modify fun s => s.finish err

/-- `Transport.owned`, with what is awaited after the decision. -/
def owned (req : Msg) (exchange : Thread Returned) (join : Thread Unit) : Thread Returned := do
  let started ← start req.id
  if started then
    let r ← exchange
    finish r.err
    join
    return r
  else
    return fails .stateReused

/-! ## The exchanges -/

/-- `Transport.readDNSResponse`. -/
def readDNSResponse (c : Codec) (req : Msg) (udp checkQuestion : Bool) :
    List Read → Thread Returned
  | [] => do
    wait .read
    return fails (.native .deadline)
  | .failed e :: _ => do
    wait .read
    return fails (.native e)
  | .shortRead :: _ => do
    wait .read
    return fails (.invalid .shortRead)
  | .frame f :: reads => do
    wait .read
    let ticket ← reserve f.wire req.id udp f.received
    match c.unpack f.wire with
    | none =>
      reject ticket f.decoded
      return ⟨some (c.undecoded f.wire), some (.invalid .unpack)⟩
    | some response =>
      if isTsig response then
        reject ticket f.decoded
        return ⟨some response, some (.invalid .tsig)⟩
      else if response.id ≠ req.id then
        reject ticket f.decoded
        if udp then readDNSResponse c req udp checkQuestion reads
        else return ⟨some response, some (.invalid .id)⟩
      else
        match if checkQuestion then validateResponse c req response else none with
        | some e =>
          reject ticket f.decoded
          return ⟨some response, some (.invalid (.question e))⟩
        | none =>
          accept ticket response
          return ⟨some response, none⟩

namespace PlainDNS

def exchangeWithConn (c : Codec) (p : PlainDNS) (req : Msg) (conn : Conn) (network : Network) :
    Thread Returned := do
  wait .write
  match conn.send with
  | some e => return fails (.native e)
  | none => readDNSResponse c req (network = .udp) (!p.bootstrap) conn.reads

def dialAgain (c : Codec) (p : PlainDNS) (upstreamReq : Msg) (conn : Conn) (network : Network) :
    Thread Returned := do
  wait .dial
  match conn.dial with
  | some e => return fails (.native e)
  | none =>
    let r ← exchangeWithConn c p upstreamReq conn network
    wait .close
    return { r with err := withDeferred r.err conn.close }

def dialExchange (c : Codec) (p : PlainDNS) (env : PlainEnv) (network : Network) (req : Msg) :
    Thread Returned := do
  let upstreamReq := Transport.PlainDNS.setRequestForNetwork env req network
  wait .dial
  match (env.conns network).1.dial with
  | some e => return fails (.native e)
  | none =>
    let first ← exchangeWithConn c p upstreamReq (env.conns network).1 network
    let r ←
      if !p.bootstrap && first.err.any ExchErr.isExpectedConnErr then
        dialAgain c p upstreamReq (env.conns network).2 network
      else pure first
    wait .close
    return {
      resp := r.resp.map fun resp => { resp with id := req.id }
      err := withDeferred r.err (env.conns network).1.close }

def exchange (c : Codec) (p : PlainDNS) (env : PlainEnv) (req : Msg) : Thread Returned := do
  wait .resolve
  match env.getDialer with
  | some e => return fails (.native e)
  | none =>
    let r ← dialExchange c p env p.net req
    if p.bootstrap && r.err.isSome then return r
    else if p.net ≠ .udp then return r
    else
      match r.resp with
      | none => return r
      | some resp =>
        if !p.bootstrap && r.err.any ExchErr.isQuestion then dialExchange c p env .tcp req
        else if resp.truncated then dialExchange c p env .tcp req
        else return r

end PlainDNS

def dotExchangeWithConn (c : Codec) (conn : Conn) (req : Msg) : Thread Returned := do
  wait .write
  match conn.send with
  | some e => return fails (.native e)
  | none =>
    let r ← readDNSResponse c req false true conn.reads
    match r.err with
    | some err => return fails err
    | none => return r

def dotExchange (c : Codec) (env : DoTEnv) (req : Msg) : Thread Returned := do
  wait .resolve
  match env.getDialer, env.conn with
  | some e, _ => return fails (.native e)
  | none, .error e =>
    wait .dial
    return fails (.native e)
  | none, .ok cached =>
    wait .dial
    let r ← dotExchangeWithConn c env.first req
    match r.err with
    | none => return r
    | some err =>
      wait .close
      if !cached || err.isProtocol || env.expired then return fails err
      else
        wait .dial
        match env.second.dial with
        | some e => return fails (.native e)
        | none =>
          let r ← dotExchangeWithConn c env.second req
          wait .close
          return r

def exchangeHTTPSClient (c : Codec) (req : Msg) : HTTPAttempt → Thread Returned
  | .error e => do
    wait .write
    return fails (.native e)
  | .ok httpResp => do
    wait .write
    if httpResp.statusCode ≠ 200 then
      wait .close
      return fails (.invalid (.status httpResp.statusCode))
    else if !httpResp.dnsMessage then
      wait .close
      return fails (.invalid .contentType)
    else if (maxBodySize : Int) < httpResp.contentLength then
      wait .close
      return fails (.invalid .bodyLength)
    else
      wait .read
      match httpResp.body with
      | .error e =>
        wait .close
        return fails (.native e)
      | .ok body =>
        if body.wire.length = 0 ∨ maxBodySize < body.wire.length then
          wait .close
          return fails (.invalid .bodyLength)
        else if 0 ≤ httpResp.contentLength ∧
            (body.wire.length : Int) ≠ httpResp.contentLength then
          wait .close
          return fails (.invalid .bodyLength)
        else
          let ticket ← reserve body.wire 0 false body.received
          -- the deferred `reject` runs before the body is closed
          match c.unpack body.wire with
          | none =>
            reject ticket body.decoded
            wait .close
            return fails (.invalid .unpack)
          | some resp =>
            if resp.id ≠ 0 then
              reject ticket body.decoded
              wait .close
              return fails (.invalid .id)
            else
              match validateResponse c req { resp with id := req.id } with
              | some e =>
                reject ticket body.decoded
                wait .close
                return fails (.invalid (.question e))
              | none =>
                accept ticket { resp with id := req.id }
                wait .close
                return ⟨some { resp with id := req.id }, none⟩

def retryHTTPS (c : Codec) (env : DoHEnv) (req : Msg) (isCached : Bool) :
    (n i : Nat) → Returned → Thread Returned
  | 0, _, r => return r
  | n + 1, i, r =>
    if isCached && r.err.any ExchErr.shouldRetry then do
      wait .dial
      match env.resetClient i with
      | some e => return fails (.native e)
      | none =>
        let r ← exchangeHTTPSClient c req (env.attempts (i + 1))
        retryHTTPS c env req isCached n (i + 1) r
    else return r

def dohExchange (c : Codec) (env : DoHEnv) (req : Msg) : Thread Returned := do
  wait .dial
  match env.getClient with
  | .error e => return fails (.native e)
  | .ok isCached =>
    let first ← exchangeHTTPSClient c req (env.attempts 0)
    let r ← retryHTTPS c env req isCached 2 0 first
    match r.err with
    | some err =>
      finish (some err)
      wait .close
      return fails err
    | none => return r

/-- The length, the message and the end of the stream are read one after the other. -/
def readMsg (c : Codec) (stream : QUICStream) (req : Msg) : Thread Returned := do
  wait .read
  match stream.data with
  | b0 :: b1 :: data =>
    let msgLen := (b0.toUInt16 <<< 8 ||| b1.toUInt16).toNat
    if msgLen = 0 then return fails (.invalid .frame)
    else
      wait .read
      if data.length < msgLen then return fails stream.cutShort
      else
        wait .read
        if msgLen < data.length then return fails (.invalid .frame)
        else
          match stream.broken with
          | some e => return fails (.native e)
          | none =>
            let ticket ← reserve data 0 false stream.received
            match c.unpack data with
            | none =>
              reject ticket stream.decoded
              return fails (.invalid .unpack)
            | some m =>
              if m.id ≠ 0 then
                reject ticket stream.decoded
                return fails (.invalid .id)
              else
                match validateResponse c req m with
                | some e =>
                  reject ticket stream.decoded
                  return fails (.invalid (.question e))
                | none =>
                  accept ticket m
                  return ⟨some m, none⟩
  | _ => return fails stream.cutShort

def exchangeQUIC (c : Codec) (req : Msg) (stream : QUICStream) : Thread Returned := do
  wait .write
  match stream.send with
  | some e => return fails (.native e)
  | none => readMsg c stream req

def doqAttempts (c : Codec) (env : DoQEnv) (req : Msg) (cached : Bool) : Thread Returned := do
  let r ← exchangeQUIC c req env.first
  match r.err with
  | none => return r
  | some err =>
    wait .close
    if cached && !err.isProtocol && !err.isExchangeTimeout then
      wait .dial
      match env.reconnect with
      | some e => return fails (.native e)
      | none =>
        let r ← exchangeQUIC c req env.second
        wait .close
        return r
    else return r

def doqExchange (c : Codec) (env : DoQEnv) (req : Msg) : Thread Returned := do
  wait .dial
  match env.getConnection with
  | .error e => return fails (.native e)
  | .ok cached =>
    let r ← doqAttempts c env { req with id := 0 } cached
    return { r with resp := r.resp.map fun resp => { resp with id := req.id } }

def exchangeConnContext (c : Codec) (env : DNSCryptEnv) (req : Msg) (udp : Bool)
    (conn : CryptConn) : Thread Returned := do
  wait .write
  match conn.send, conn.read with
  | some e, _ => return fails (.native e)
  | none, .error e =>
    wait .read
    return fails (.native e)
  | none, .ok f =>
    wait .read
    let ticket ← reserveCandidate f.received
    match env.decrypt f.wire with
    | none =>
      reject ticket f.decoded
      return fails (.invalid .decrypt)
    | some wire =>
      receive wire
      match c.unpack wire with
      | none =>
        reject ticket f.decoded
        return fails (.invalid .unpack)
      | some response =>
        match checkDecoded c req response with
        | some fault =>
          reject ticket f.decoded
          return fails (.invalid fault)
        | none =>
          if udp && response.truncated then reject ticket f.decoded
          else accept ticket response
          return ⟨some response, none⟩

def exchangeContext (c : Codec) (env : DNSCryptEnv) (req : Msg) (udp : Bool) (conn : CryptConn) :
    Thread Returned := do
  wait .dial
  match conn.dial with
  | some e => return fails (.native e)
  | none =>
    let r ← exchangeConnContext c env req udp conn
    wait .close
    return { r with err := withDeferred r.err conn.close }

def dnsCryptExchange (c : Codec) (env : DNSCryptEnv) (req : Msg) : Thread Returned := do
  wait .resolve
  match env.certificate with
  | some e => return fails (.native e)
  | none =>
    let r ← exchangeContext c env req true env.udp
    if r.err.isNone && r.resp.any Msg.truncated then
      exchangeContext c env req false env.tcp
    else return r

/-- The exchange without what `owned` does around it. -/
def attempts (c : Codec) : Exchange → Msg → Thread Returned
  | .plain p env => PlainDNS.exchange c p env
  | .tls env => dotExchange c env
  | .https env => dohExchange c env
  | .quic env => doqExchange c env
  | .dnscrypt env => dnsCryptExchange c env

/-- `httpWork.join`: only the work of an HTTP client can be under way at the end. -/
def join : Exchange → Thread Unit
  | .https _ => wait .close
  | _ => return ()

/-- `Exchange` of an upstream. -/
def exchange (c : Codec) (x : Exchange) (req : Msg) : Thread Returned :=
  owned req (attempts c x req) (join x)

/-! ## Without the owner -/

/-- What a function of `Transport` returns and the state it leaves. -/
def outcome (a : Attempt) : Returned × Session := (⟨a.resp, a.err⟩, a.session)

theorem run_start (id : UInt16) (s : Session) :
    run (start id) s = ((s.start id).isSome, (s.start id).getD s) := by
  unfold start
  rw [run_step]
  cases s.start id <;> rfl

variable (c : Codec) (p : PlainDNS) (req : Msg)

theorem run_readDNSResponse (udp checkQuestion : Bool) (reads : List Read) (s : Session) :
    run (readDNSResponse c req udp checkQuestion reads) s =
      outcome (Transport.readDNSResponse c req udp checkQuestion reads s) := by
  induction reads generalizing s with
  | nil => rfl
  | cons r reads ih =>
    cases r with
    | failed e => rfl
    | shortRead => rfl
    | frame f =>
      simp only [readDNSResponse, Transport.readDNSResponse, reserve, run_bind, run_wait, run_step]
      cases c.unpack f.wire with
      | none => rfl
      | some response =>
        dsimp only
        split
        · rfl
        · split
          · cases udp with
            | true => exact ih _
            | false => rfl
          · generalize (if checkQuestion then validateResponse c req response else none) = fault
            cases fault <;> rfl

theorem run_exchangeWithConn (conn : Conn) (network : Network) (s : Session) :
    run (PlainDNS.exchangeWithConn c p req conn network) s =
      outcome (p.exchangeWithConn c req conn network s) := by
  simp only [PlainDNS.exchangeWithConn, Transport.PlainDNS.exchangeWithConn, run_bind, run_wait]
  cases conn.send with
  | some e => rfl
  | none => exact run_readDNSResponse ..

theorem run_dialAgain (conn : Conn) (network : Network) (s : Session) :
    run (PlainDNS.dialAgain c p req conn network) s =
      outcome (p.dialAgain c req conn network s) := by
  simp only [PlainDNS.dialAgain, Transport.PlainDNS.dialAgain, run_bind, run_wait]
  cases conn.dial with
  | some e => rfl
  | none =>
    simp only [run_bind, run_exchangeWithConn]
    rfl

theorem run_dialExchange (env : PlainEnv) (network : Network) (req : Msg) (s : Session) :
    run (PlainDNS.dialExchange c p env network req) s =
      outcome (p.dialExchange c env network req s) := by
  simp only [PlainDNS.dialExchange, Transport.PlainDNS.dialExchange, run_bind, run_wait]
  cases (env.conns network).1.dial with
  | some e => rfl
  | none =>
    simp only [run_bind, run_exchangeWithConn, outcome]
    generalize p.exchangeWithConn c _ _ network s = a
    cases (!p.bootstrap && a.err.any ExchErr.isExpectedConnErr) with
    | true =>
      simp only [if_true, run_bind, run_dialAgain]
      rfl
    | false => rfl

theorem run_plain (env : PlainEnv) (req : Msg) (s : Session) :
    run (PlainDNS.exchange c p env req) s = outcome (p.exchange c env req s) := by
  simp only [PlainDNS.exchange, Transport.PlainDNS.exchange, run_bind, run_wait]
  cases env.getDialer with
  | some e => rfl
  | none =>
    simp only [run_bind, run_dialExchange, outcome]
    split
    · rfl
    · split
      · rfl
      · obtain ⟨resp, err, session⟩ := p.dialExchange c env p.net req s
        cases resp with
        | none => rfl
        | some resp =>
          dsimp only
          split
          · exact run_dialExchange ..
          · split
            · exact run_dialExchange ..
            · rfl

theorem run_dotExchangeWithConn (conn : Conn) (req : Msg) (s : Session) :
    run (dotExchangeWithConn c conn req) s =
      outcome (Transport.dotExchangeWithConn c conn req s) := by
  simp only [dotExchangeWithConn, Transport.dotExchangeWithConn, run_bind, run_wait]
  cases conn.send with
  | some e => rfl
  | none =>
    simp only [run_bind, run_readDNSResponse, outcome]
    generalize Transport.readDNSResponse c req false true conn.reads s = a
    cases h : a.err with
    | some err => rfl
    | none => simp [h]

theorem run_tls (env : DoTEnv) (req : Msg) (s : Session) :
    run (dotExchange c env req) s = outcome (Transport.dotExchange c env req s) := by
  simp only [dotExchange, Transport.dotExchange, run_bind, run_wait]
  cases env.getDialer with
  | some e => rfl
  | none =>
    cases env.conn with
    | error e => rfl
    | ok cached =>
      simp only [run_bind, run_wait, run_dotExchangeWithConn, outcome]
      generalize Transport.dotExchangeWithConn c env.first req s = a
      cases h : a.err with
      | none => simp [h]
      | some err =>
        simp only [run_bind, run_wait]
        split
        · rfl
        · simp only [run_bind, run_wait]
          cases env.second.dial with
          | some e => rfl
          | none =>
            simp only [run_bind, run_dotExchangeWithConn]
            rfl

theorem run_exchangeHTTPSClient (x : HTTPAttempt) (s : Session) :
    run (exchangeHTTPSClient c req x) s =
      outcome (Transport.exchangeHTTPSClient c req s x) := by
  cases x with
  | error e => rfl
  | ok httpResp =>
    simp only [exchangeHTTPSClient, Transport.exchangeHTTPSClient, run_bind, run_wait]
    split
    · rfl
    split
    · rfl
    split
    · rfl
    simp only [run_bind, run_wait]
    cases httpResp.body with
    | error e => rfl
    | ok body =>
      dsimp only
      split
      · rfl
      split
      · rfl
      simp only [reserve, run_bind, run_step]
      cases c.unpack body.wire with
      | none => rfl
      | some resp =>
        dsimp only
        split
        · rfl
        · cases validateResponse c req { resp with id := req.id } <;> rfl

theorem run_retryHTTPS (env : DoHEnv) (req : Msg) (isCached : Bool) (n i : Nat) (a : Attempt) :
    run (retryHTTPS c env req isCached n i ⟨a.resp, a.err⟩) a.session =
      outcome (Transport.retryHTTPS c env req isCached n i a) := by
  induction n generalizing i a with
  | zero => rfl
  | succ n ih =>
    simp only [retryHTTPS, Transport.retryHTTPS]
    split
    · simp only [run_bind, run_wait]
      cases env.resetClient i with
      | some e => rfl
      | none =>
        simp only [run_bind, run_exchangeHTTPSClient, outcome]
        exact ih ..
    · rfl

theorem run_https (env : DoHEnv) (req : Msg) (s : Session) :
    run (dohExchange c env req) s = outcome (Transport.dohExchange c env req s) := by
  simp only [dohExchange, Transport.dohExchange, run_bind, run_wait]
  cases env.getClient with
  | error e => rfl
  | ok isCached =>
    simp only [run_bind, run_exchangeHTTPSClient, outcome, run_retryHTTPS]
    generalize Transport.retryHTTPS c env req isCached 2 0
      (Transport.exchangeHTTPSClient c req s (env.attempts 0)) = a
    cases h : a.err with
    | some err => rfl
    | none => simp [h]

theorem run_readMsg (stream : QUICStream) (req : Msg) (s : Session) :
    run (readMsg c stream req) s = outcome (Transport.readMsg c stream req s) := by
  simp only [readMsg, Transport.readMsg, run_bind, run_wait]
  rcases stream.data with - | ⟨b0, - | ⟨b1, data⟩⟩
  · rfl
  · rfl
  · dsimp only
    split
    · rfl
    simp only [run_bind, run_wait]
    split
    · rfl
    simp only [run_bind, run_wait]
    split
    · rfl
    cases stream.broken with
    | some e => rfl
    | none =>
      simp only [reserve, run_bind, run_step]
      cases c.unpack data with
      | none => rfl
      | some m =>
        dsimp only
        split
        · rfl
        · cases validateResponse c req m <;> rfl

theorem run_exchangeQUIC (stream : QUICStream) (s : Session) :
    run (exchangeQUIC c req stream) s = outcome (Transport.exchangeQUIC c req stream s) := by
  simp only [exchangeQUIC, Transport.exchangeQUIC, run_bind, run_wait]
  cases stream.send with
  | some e => rfl
  | none => exact run_readMsg ..

theorem run_doqAttempts (env : DoQEnv) (req : Msg) (cached : Bool) (s : Session) :
    run (doqAttempts c env req cached) s =
      outcome (Transport.doqAttempts c env req cached s) := by
  simp only [doqAttempts, Transport.doqAttempts, run_bind, run_exchangeQUIC, outcome]
  generalize Transport.exchangeQUIC c req env.first s = a
  cases h : a.err with
  | none => simp [h]
  | some err =>
    simp only [run_bind, run_wait]
    split
    · simp only [run_bind, run_wait]
      cases env.reconnect with
      | some e => rfl
      | none =>
        simp only [run_bind, run_exchangeQUIC]
        rfl
    · simp [h]

theorem run_quic (env : DoQEnv) (req : Msg) (s : Session) :
    run (doqExchange c env req) s = outcome (Transport.doqExchange c env req s) := by
  simp only [doqExchange, Transport.doqExchange, run_bind, run_wait]
  cases env.getConnection with
  | error e => rfl
  | ok cached =>
    simp only [run_bind, run_doqAttempts]
    rfl

theorem run_exchangeConnContext (env : DNSCryptEnv) (req : Msg) (udp : Bool) (conn : CryptConn)
    (s : Session) :
    run (exchangeConnContext c env req udp conn) s =
      outcome (Transport.exchangeConnContext c env req udp conn s) := by
  simp only [exchangeConnContext, Transport.exchangeConnContext, run_bind, run_wait]
  cases conn.send with
  | some e => rfl
  | none =>
    cases conn.read with
    | error e => rfl
    | ok f =>
      simp only [reserveCandidate, run_bind, run_wait, run_step]
      cases env.decrypt f.wire with
      | none => rfl
      | some wire =>
        simp only [receive, run_bind, run_modify]
        cases c.unpack wire with
        | none => rfl
        | some response =>
          dsimp only
          cases checkDecoded c req response with
          | some fault => rfl
          | none => cases (udp && response.truncated) <;> rfl

theorem run_exchangeContext (env : DNSCryptEnv) (req : Msg) (udp : Bool) (conn : CryptConn)
    (s : Session) :
    run (exchangeContext c env req udp conn) s =
      outcome (Transport.exchangeContext c env req udp conn s) := by
  simp only [exchangeContext, Transport.exchangeContext, run_bind, run_wait]
  cases conn.dial with
  | some e => rfl
  | none =>
    simp only [run_bind, run_exchangeConnContext]
    rfl

theorem run_dnscrypt (env : DNSCryptEnv) (req : Msg) (s : Session) :
    run (dnsCryptExchange c env req) s = outcome (Transport.dnsCryptExchange c env req s) := by
  simp only [dnsCryptExchange, Transport.dnsCryptExchange, run_bind, run_wait]
  cases env.certificate with
  | some e => rfl
  | none =>
    simp only [run_bind, run_exchangeContext, outcome]
    split
    · exact run_exchangeContext ..
    · rfl

theorem run_attempts (x : Exchange) (req : Msg) (s : Session) :
    run (attempts c x req) s = outcome (x.attempts c req s) := by
  cases x with
  | plain p env => exact run_plain c p env req s
  | tls env => exact run_tls c env req s
  | https env => exact run_https c env req s
  | quic env => exact run_quic c env req s
  | dnscrypt env => exact run_dnscrypt c env req s

/-- A thread without the calls of the owner is the exchange. -/
theorem exchange_run (x : Exchange) (req : Msg) (s : Session) :
    run (exchange c x req) s = outcome (x.run c req s) := by
  simp only [exchange, owned, Exchange.run, Transport.owned, run_bind, run_start]
  cases s.start req.id with
  | none => rfl
  | some s =>
    simp only [Option.isSome_some, Option.getD_some, if_true, run_bind, run_attempts, outcome]
    cases x <;> rfl

/-- What the exchange returns alone is one of the things it can come to. -/
theorem exchange_reach (x : Exchange) (req : Msg) (s : Session) (rely : Session → Session → Prop) :
    Reach rely (exchange c x req, s)
      (.ret ⟨(x.run c req s).resp, (x.run c req s).err⟩, (x.run c req s).session) := by
  have h := reach_run rely (exchange c x req) s
  rwa [exchange_run] at h

/-! ## With the owner -/

/-- What the owner of the state may do meanwhile. -/
inductive Owner : Session → Session → Prop
  | expire (s : Session) : Owner s { s with state := s.state.map ExchangeState.expire }
  | abandon (s : Session) : Owner s { s with state := s.state.map ExchangeState.abandon }

/-- No reservation is outstanding. -/
def Idle (s : Session) : Prop := ∀ st, s.state = some st → st.reserved = false

/-- If a reservation is outstanding, it is the one with this ticket. -/
def Holding (ticket : Nat) (s : Session) : Prop :=
  ∀ st, s.state = some st → st.reserved = true →
    ticket = st.ticket ∧ ticket ≠ 0 ∧ st.finished = false

theorem Owner.reserved {s s' : Session} {st' : ExchangeState} (h : Owner s s')
    (hst' : s'.state = some st') :
    ∃ st, s.state = some st ∧
      (st'.reserved = true →
        st.reserved = true ∧ st'.ticket = st.ticket ∧ st'.finished = st.finished) := by
  cases h with
  | expire =>
    obtain ⟨st, hst, rfl⟩ := Option.map_eq_some_iff.mp hst'
    refine ⟨st, hst, ?_⟩
    cases hr : st.reserved <;> cases hf : st.finished <;>
      simp [ExchangeState.expire, ExchangeState.completeLocked, hr, hf]
  | abandon =>
    obtain ⟨st, hst, rfl⟩ := Option.map_eq_some_iff.mp hst'
    refine ⟨st, hst, ?_⟩
    cases hf : st.finished <;>
      simp [ExchangeState.abandon, ExchangeState.completeLocked, hf]

theorem idle_stable : Stable Owner Idle := by
  intro s s' h hs st' hst'
  obtain ⟨st, hst, hkeep⟩ := h.reserved hst'
  cases hr : st'.reserved with
  | false => rfl
  | true => exact absurd (hkeep hr).1 (by simp [hs st hst])

theorem holding_stable (ticket : Nat) : Stable Owner (Holding ticket) := by
  intro s s' h hs st' hst' hr
  obtain ⟨st, hst, hkeep⟩ := h.reserved hst'
  obtain ⟨hr, ht, hf⟩ := hkeep hr
  rw [ht, hf]
  exact hs st hst hr

/-! ### What each call does to a reservation -/

variable {st : ExchangeState}

theorem completeLocked_reserved (h : st.finished = false) (r : ExchangeResult) :
    (st.completeLocked r).reserved = false := by
  simp [ExchangeState.completeLocked, h]

theorem reserveCandidate_holding (h : st.reserved = false) (now : Time)
    (hr : (st.reserveCandidate now).2.reserved = true) :
    (st.reserveCandidate now).1 = (st.reserveCandidate now).2.ticket ∧
      (st.reserveCandidate now).1 ≠ 0 ∧ (st.reserveCandidate now).2.finished = false := by
  unfold ExchangeState.reserveCandidate at hr ⊢
  split at hr
  · exact absurd hr (by simp [h])
  · next hfree =>
    have hf : st.finished = false := by
      cases hf : st.finished with
      | false => rfl
      | true => exact absurd hfree (by simp [hf])
    split at hr
    · exact absurd hr (by simp [completeLocked_reserved hf])
    · next hlate =>
      rw [if_neg hfree, if_neg hlate]
      exact ⟨rfl, Nat.succ_ne_zero _, hf⟩

theorem reject_releases {ticket : Nat}
    (h : st.reserved = true → ticket = st.ticket ∧ ticket ≠ 0 ∧ st.finished = false) (now : Time) :
    (st.reject ticket now).reserved = false := by
  cases hr : st.reserved with
  | false => simp [ExchangeState.reject, hr]
  | true =>
    obtain ⟨rfl, ht, hf⟩ := h hr
    simp only [ExchangeState.reject, beq_iff_eq, ht, if_false, hf, hr]
    simp only [Bool.not_true, Bool.or_self, bne_self_eq_false]
    split
    · exact absurd ‹false = true› Bool.false_ne_true
    · split
      · exact completeLocked_reserved rfl _
      · rfl

theorem accept_releases {ticket : Nat}
    (h : st.reserved = true → ticket = st.ticket ∧ ticket ≠ 0 ∧ st.finished = false)
    (response : Msg) : (st.accept ticket response).reserved = false := by
  cases hr : st.reserved with
  | false => simp [ExchangeState.accept, hr]
  | true =>
    obtain ⟨rfl, ht, hf⟩ := h hr
    simp [ExchangeState.accept, ht, hf, hr, completeLocked_reserved hf]

/-! ### The rules -/

/-- The thread waits, and ends, with no reservation. -/
abbrev Keeps {α : Type} (p : Thread α) : Prop := Triple Owner (fun _ => Idle) Idle p fun _ => Idle

/-- From the reservation with this ticket the thread first releases it. -/
abbrev Releases {α : Type} (ticket : Nat) (p : Thread α) : Prop :=
  Triple Owner (fun _ => Idle) (Holding ticket) p fun _ => Idle

section Rules

variable {α : Type} {p : Thread α} {ticket : Nat} {now : Time}

theorem keeps_return (a : α) : Keeps (pure a) := @Triple.ret _ _ _ _ _ a (fun _ => Idle) idle_stable

theorem keeps_wait (op : NetOp) : Keeps (wait op) := Triple.wait idle_stable fun _ hs => hs

theorem keeps_waits (op : NetOp) (hp : Keeps p) : Keeps (wait op >>= fun _ => p) :=
  (keeps_wait op).bind fun _ => hp

theorem keeps_closes (a : α) : Keeps (wait .close >>= fun _ => pure a) :=
  keeps_waits .close (keeps_return a)

theorem keeps_finish (err : Option ExchErr) : Keeps (finish err) := by
  refine Triple.modify idle_stable idle_stable fun s hs st' hst' => ?_
  obtain ⟨st, hst, rfl⟩ := Option.map_eq_some_iff.mp hst'
  cases hf : st.finished with
  | false => exact completeLocked_reserved hf _
  | true => simpa [ExchangeState.finish, ExchangeState.completeLocked, hf] using hs st hst

theorem keeps_start (id : UInt16) : Keeps (start id) := by
  refine Triple.step idle_stable (fun _ => idle_stable) fun s hs => ?_
  rcases hstate : s.state with - | st
  · simpa [Session.start, hstate] using hs
  · cases h : st.started with
    | true => simpa [Session.start, ExchangeState.start, hstate, h] using hs
    | false =>
      have hidle : Idle { s with state := some { st with started := true, original := id } } := by
        rintro st' ⟨⟩
        exact hs st hstate
      simpa [Session.start, ExchangeState.start, hstate, h] using hidle

theorem keeps_reserveCandidate {f : Nat → Thread α} (hf : ∀ ticket, Releases ticket (f ticket)) :
    Keeps (reserveCandidate now >>= f) := by
  refine Triple.bind (Triple.step idle_stable holding_stable fun s hs => ?_) hf
  rcases hstate : s.state with - | st
  · simp [Session.reserveCandidate, hstate, Holding]
  · simp only [Session.reserveCandidate, hstate]
    rintro st' ⟨⟩ hr
    exact reserveCandidate_holding (hs st hstate) now hr

theorem keeps_reserve {f : Nat → Thread α} {wire : Bytes} {id : UInt16} {udp : Bool}
    (hf : ∀ ticket, Releases ticket (f ticket)) : Keeps (reserve wire id udp now >>= f) := by
  refine Triple.bind (Triple.step idle_stable holding_stable fun s hs => ?_) hf
  rcases hstate : s.state with - | st
  · simp [Session.reserve, Session.receive, hstate, Holding]
  · simp only [Session.reserve, Session.receive, hstate, ExchangeState.reserve]
    rintro st' ⟨⟩ hr
    split at hr
    · next hc =>
      rw [if_pos hc]
      exact reserveCandidate_holding (hs st hstate) now hr
    · exact absurd hr (by simp [hs st hstate])

theorem releases_receive {wire : Bytes} (hp : Releases ticket p) :
    Releases ticket (receive wire >>= fun _ => p) := by
  refine Triple.bind (Triple.modify (holding_stable ticket) (holding_stable ticket) ?_) fun _ => hp
  exact fun s hs => hs

theorem releases_reject : Releases ticket (reject ticket now) := by
  refine Triple.modify (holding_stable ticket) idle_stable fun s hs st' hst' => ?_
  obtain ⟨st, hst, rfl⟩ := Option.map_eq_some_iff.mp hst'
  exact reject_releases (hs st hst) now

theorem releases_accept {response : Msg} : Releases ticket (accept ticket response) := by
  refine Triple.modify (holding_stable ticket) idle_stable fun s hs st' hst' => ?_
  obtain ⟨st, hst, rfl⟩ := Option.map_eq_some_iff.mp hst'
  exact accept_releases (hs st hst) response

theorem rejects (hp : Keeps p) : Releases ticket (reject ticket now >>= fun _ => p) :=
  releases_reject.bind fun _ => hp

theorem accepts {response : Msg} (hp : Keeps p) :
    Releases ticket (accept ticket response >>= fun _ => p) :=
  releases_accept.bind fun _ => hp

end Rules

/-! ### The exchanges keep them -/

theorem keeps_readDNSResponse (udp checkQuestion : Bool) (reads : List Read) :
    Keeps (readDNSResponse c req udp checkQuestion reads) := by
  induction reads with
  | nil => exact keeps_waits .read (keeps_return _)
  | cons r reads ih =>
    cases r with
    | failed e => exact keeps_waits .read (keeps_return _)
    | shortRead => exact keeps_waits .read (keeps_return _)
    | frame f =>
      refine keeps_waits .read (keeps_reserve fun ticket => ?_)
      split
      · exact rejects (keeps_return _)
      · split
        · exact rejects (keeps_return _)
        · split
          · refine rejects ?_
            split
            · exact ih
            · exact keeps_return _
          · split
            · exact rejects (keeps_return _)
            · exact accepts (keeps_return _)

theorem keeps_exchangeWithConn (conn : Conn) (network : Network) :
    Keeps (PlainDNS.exchangeWithConn c p req conn network) := by
  refine keeps_waits .write ?_
  split
  · exact keeps_return _
  · exact keeps_readDNSResponse ..

theorem keeps_dialAgain (conn : Conn) (network : Network) :
    Keeps (PlainDNS.dialAgain c p req conn network) := by
  refine keeps_waits .dial ?_
  split
  · exact keeps_return _
  · exact (keeps_exchangeWithConn ..).bind fun _ => keeps_closes _

theorem keeps_dialExchange (env : PlainEnv) (network : Network) (req : Msg) :
    Keeps (PlainDNS.dialExchange c p env network req) := by
  refine keeps_waits .dial ?_
  split
  · exact keeps_return _
  · refine (keeps_exchangeWithConn ..).bind fun first => ?_
    have hend : ∀ r : Returned, Keeps (do
        wait .close
        return {
          resp := r.resp.map fun resp => { resp with id := req.id }
          err := withDeferred r.err (env.conns network).1.close : Returned }) :=
      fun r => keeps_closes _
    split
    · exact (keeps_dialAgain ..).bind hend
    · exact (keeps_return _).bind hend

theorem keeps_plain (env : PlainEnv) (req : Msg) : Keeps (PlainDNS.exchange c p env req) := by
  refine keeps_waits .resolve ?_
  split
  · exact keeps_return _
  · refine (keeps_dialExchange ..).bind fun r => ?_
    split
    · exact keeps_return _
    · split
      · exact keeps_return _
      · split
        · exact keeps_return _
        · split
          · exact keeps_dialExchange ..
          · split
            · exact keeps_dialExchange ..
            · exact keeps_return _

theorem keeps_dotExchangeWithConn (conn : Conn) (req : Msg) :
    Keeps (dotExchangeWithConn c conn req) := by
  refine keeps_waits .write ?_
  split
  · exact keeps_return _
  · refine (keeps_readDNSResponse ..).bind fun r => ?_
    split <;> exact keeps_return _

theorem keeps_tls (env : DoTEnv) (req : Msg) : Keeps (dotExchange c env req) := by
  refine keeps_waits .resolve ?_
  split
  · exact keeps_return _
  · exact keeps_waits .dial (keeps_return _)
  · refine keeps_waits .dial ((keeps_dotExchangeWithConn ..).bind fun r => ?_)
    split
    · exact keeps_return _
    · refine keeps_waits .close ?_
      split
      · exact keeps_return _
      · refine keeps_waits .dial ?_
        split
        · exact keeps_return _
        · exact (keeps_dotExchangeWithConn ..).bind fun _ => keeps_closes _

theorem keeps_exchangeHTTPSClient (x : HTTPAttempt) : Keeps (exchangeHTTPSClient c req x) := by
  cases x with
  | error e => exact keeps_waits .write (keeps_return _)
  | ok httpResp =>
    refine keeps_waits .write ?_
    split
    · exact keeps_closes _
    split
    · exact keeps_closes _
    split
    · exact keeps_closes _
    refine keeps_waits .read ?_
    split
    · exact keeps_closes _
    split
    · exact keeps_closes _
    split
    · exact keeps_closes _
    refine keeps_reserve fun ticket => ?_
    split
    · exact rejects (keeps_closes _)
    split
    · exact rejects (keeps_closes _)
    split
    · exact rejects (keeps_closes _)
    · exact accepts (keeps_closes _)

theorem keeps_retryHTTPS (env : DoHEnv) (req : Msg) (isCached : Bool) (n i : Nat) (r : Returned) :
    Keeps (retryHTTPS c env req isCached n i r) := by
  induction n generalizing i r with
  | zero => exact keeps_return r
  | succ n ih =>
    unfold retryHTTPS
    split
    · refine keeps_waits .dial ?_
      split
      · exact keeps_return _
      · exact (keeps_exchangeHTTPSClient ..).bind fun r => ih (i + 1) r
    · exact keeps_return r

theorem keeps_https (env : DoHEnv) (req : Msg) : Keeps (dohExchange c env req) := by
  refine keeps_waits .dial ?_
  split
  · exact keeps_return _
  · refine (keeps_exchangeHTTPSClient ..).bind fun first =>
      (keeps_retryHTTPS ..).bind fun r => ?_
    split
    · exact (keeps_finish _).bind fun _ => keeps_closes _
    · exact keeps_return _

theorem keeps_readMsg (stream : QUICStream) (req : Msg) : Keeps (readMsg c stream req) := by
  refine keeps_waits .read ?_
  split
  · dsimp only
    split
    · exact keeps_return _
    refine keeps_waits .read ?_
    split
    · exact keeps_return _
    refine keeps_waits .read ?_
    split
    · exact keeps_return _
    split
    · exact keeps_return _
    refine keeps_reserve fun ticket => ?_
    split
    · exact rejects (keeps_return _)
    split
    · exact rejects (keeps_return _)
    split
    · exact rejects (keeps_return _)
    · exact accepts (keeps_return _)
  · exact keeps_return _

theorem keeps_exchangeQUIC (stream : QUICStream) : Keeps (exchangeQUIC c req stream) := by
  refine keeps_waits .write ?_
  split
  · exact keeps_return _
  · exact keeps_readMsg ..

theorem keeps_quic (env : DoQEnv) (req : Msg) : Keeps (doqExchange c env req) := by
  refine keeps_waits .dial ?_
  split
  · exact keeps_return _
  · refine Triple.bind ?_ fun r => keeps_return _
    refine (keeps_exchangeQUIC ..).bind fun r => ?_
    split
    · exact keeps_return _
    · refine keeps_waits .close ?_
      split
      · refine keeps_waits .dial ?_
        split
        · exact keeps_return _
        · exact (keeps_exchangeQUIC ..).bind fun _ => keeps_closes _
      · exact keeps_return _

theorem keeps_exchangeConnContext (env : DNSCryptEnv) (req : Msg) (udp : Bool) (conn : CryptConn) :
    Keeps (exchangeConnContext c env req udp conn) := by
  refine keeps_waits .write ?_
  split
  · exact keeps_return _
  · exact keeps_waits .read (keeps_return _)
  · refine keeps_waits .read (keeps_reserveCandidate fun ticket => ?_)
    split
    · exact rejects (keeps_return _)
    · refine releases_receive ?_
      split
      · exact rejects (keeps_return _)
      · split
        · exact rejects (keeps_return _)
        · split
          · exact rejects (keeps_return _)
          · exact accepts (keeps_return _)

theorem keeps_exchangeContext (env : DNSCryptEnv) (req : Msg) (udp : Bool) (conn : CryptConn) :
    Keeps (exchangeContext c env req udp conn) := by
  refine keeps_waits .dial ?_
  split
  · exact keeps_return _
  · exact (keeps_exchangeConnContext ..).bind fun _ => keeps_closes _

theorem keeps_dnscrypt (env : DNSCryptEnv) (req : Msg) : Keeps (dnsCryptExchange c env req) := by
  refine keeps_waits .resolve ?_
  split
  · exact keeps_return _
  · refine (keeps_exchangeContext ..).bind fun r => ?_
    split
    · exact keeps_exchangeContext ..
    · exact keeps_return _

theorem keeps_exchange (x : Exchange) (req : Msg) : Keeps (exchange c x req) := by
  have hattempts : Keeps (attempts c x req) := by
    cases x with
    | plain p env => exact keeps_plain c p env req
    | tls env => exact keeps_tls c env req
    | https env => exact keeps_https c env req
    | quic env => exact keeps_quic c env req
    | dnscrypt env => exact keeps_dnscrypt c env req
  have hjoin : Keeps (join x) := by
    cases x with
    | https env => exact keeps_wait .close
    | _ => exact keeps_return ()
  refine (keeps_start req.id).bind fun started => ?_
  split
  · exact hattempts.bind fun r => (keeps_finish r.err).bind fun _ =>
      hjoin.bind fun _ => keeps_return r
  · exact keeps_return _

/-! ## An exchange that waits can be expired -/

/-- The session of an exchange whose caller gave a fresh state with this cutoff, or none. -/
def opened (cutoff : Option Time) : Session := { state := cutoff.map newExchangeState }

theorem expire_decides (h : st.reserved = false) :
    st.expire.finished = true ∧
      st.expire.result =
        if st.finished then st.result else { err := some .deadlineExceeded } := by
  cases hf : st.finished <;> simp [ExchangeState.expire, ExchangeState.completeLocked, h, hf]

/-- On every transport, whatever the peers and the owner do: wherever the exchange waits for
the network no reservation is outstanding, and an `Expire` leaves a decision, the deadline
unless there already was one. -/
theorem exchange_expirable (c : Codec) (x : Exchange) (req : Msg) (cutoff : Option Time)
    {op : NetOp} {p : Thread Returned} {s : Session}
    (hreach : Reach Owner (exchange c x req, opened cutoff) (p, s)) (hwaits : p.waitsAt = some op) :
    Idle s ∧ ∀ st, s.state = some st →
      st.expire.finished = true ∧
        st.expire.result =
          if st.finished then st.result else { err := some .deadlineExceeded } := by
  have hopened : Idle (opened cutoff) := by
    intro st hst
    obtain ⟨t, -, rfl⟩ := Option.map_eq_some_iff.mp hst
    rfl
  have hidle : Idle s := (keeps_exchange c x req).safe_of_reach hopened hreach hwaits
  exact ⟨hidle, fun st hst => expire_decides (hidle st hst)⟩

/-- A codec that knows one truncated answer to `exampleQuery`. -/
def truncatedCodec : Codec :=
  { Platform.ofTable [({ exampleAnswer with truncated := true }, exampleAnswerWire)] with
    undecoded := fun _ => {}
    equalFold := fun a b => a == b }

/-- A DNSCrypt exchange in which the response over UDP is truncated. -/
def truncatedExchange : Exchange :=
  .dnscrypt
    { decrypt := some
      udp := { read := .ok ⟨exampleAnswerWire, 1, 2⟩ }
      tcp := { read := .error .deadline } }

/-- The first nine steps of the exchange end at the dial of the fallback to TCP. -/
def atFallback : Thread Returned × Session :=
  advance^[9] (exchange truncatedCodec truncatedExchange exampleQuery, opened (some 0))

theorem exchange_expirable_at_fallback :
    atFallback.1.waitsAt = some .dial ∧ atFallback.2.state.isSome = true ∧ Idle atFallback.2 := by
  have hwaits : atFallback.1.waitsAt = some .dial := by decide +kernel
  refine ⟨hwaits, by decide +kernel, ?_⟩
  have hreach := reach_advance Owner 9
    (exchange truncatedCodec truncatedExchange exampleQuery, opened (some 0))
  exact (exchange_expirable truncatedCodec truncatedExchange exampleQuery (some 0) hreach hwaits).1

end DnsProxy.Blocking
