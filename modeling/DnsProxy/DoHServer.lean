import DnsProxy.Lib.NetIP
import DnsProxy.Lib.WhiteSpace
import DnsProxy.Proxy

/-!
# Requests over HTTPS

`ServeHTTP` up to the handling of the DNS request: the checks of the HTTP request, and
the address of the client, which is the address of the peer or comes from the headers
that a proxy in front of the server adds.

* `serveHTTP_unspoofed_iff`: the headers are used for trusted peers only, and nothing
  else is wrong with the address. But a request with such a header makes the handler
  ask the set of trusted proxies, which may be nil.
* `serveHTTP_forwarded`: an untrusted peer cannot tell by the answer which of these
  headers it has sent.
-/

namespace DnsProxy

open NetIP (AddrPort parseAddr parseAddrPort)

/-! ## The request -/

inductive HTTPMethod
  | get
  | post
  | other
deriving DecidableEq, Repr

/-- The headers that the handler reads by name. -/
inductive HTTPHeader
  | cfConnectingIP
  | trueClientIP
  | xRealIP
  | xForwardedFor
  | contentType
deriving DecidableEq, Repr

structure HTTPRequest where
  method : HTTPMethod
  /-- The request is encrypted. -/
  tls : Bool
  remoteAddr : Bytes
  /-- `Header.Get`, which is empty for a header that is not there. -/
  header : HTTPHeader → Bytes
  /-- `BasicAuth`. -/
  basicAuth : Bytes × Bytes
  /-- The parameter `dns` of the URL. -/
  dnsParam : Bytes
  /-- The body as it is read through the limit, `none` for an error. -/
  body : Option Bytes

/-! ## The DNS request -/

/-- The value of a character in the URL alphabet of base64. -/
def base64Value (c : UInt8) : Option Nat :=
  if 65 ≤ c ∧ c ≤ 90 then some (c.toNat - 65)
  else if 97 ≤ c ∧ c ≤ 122 then some (c.toNat - 71)
  else if 48 ≤ c ∧ c ≤ 57 then some (c.toNat + 4)
  else if c = 45 then some 62
  else if c = 95 then some 63
  else none

/-- The bytes of four characters each. Two or three characters may be left. -/
def base64Bytes : List Nat → Option Bytes
  | [] => some []
  | [_] => none
  | [a, b] => some [(a * 4 + b / 16).toUInt8]
  | [a, b, c] => some [(a * 4 + b / 16).toUInt8, (b % 16 * 16 + c / 4).toUInt8]
  | a :: b :: c :: d :: rest =>
    (base64Bytes rest).map fun bytes =>
      (a * 4 + b / 16).toUInt8 :: (b % 16 * 16 + c / 4).toUInt8 :: (c % 4 * 64 + d).toUInt8 :: bytes

/-- `base64.RawURLEncoding.DecodeString`, which skips line ends. -/
def decodeRawURL (s : Bytes) : Option Bytes :=
  ((s.filter fun c => c ≠ 10 ∧ c ≠ 13).mapM base64Value).bind base64Bytes

/-- The bytes of the DNS request, or the status code of the refusal. -/
def dohBytes (r : HTTPRequest) : Except Nat Bytes :=
  match r.method with
  | .get =>
    match decodeRawURL r.dnsParam with
    | some buf => if buf.length = 0 then .error 400 else .ok buf
    | none => .error 400
  | .post =>
    if r.header .contentType ≠ ascii "application/dns-message" then .error 415
    else
      match r.body with
      | some buf => .ok buf
      | none => .error 400
  | .other => .error 405

def newDoHReq (pf : Platform) (r : HTTPRequest) : Except Nat Msg :=
  match dohBytes r with
  | .error code => .error code
  | .ok buf =>
    match pf.unpack buf with
    | some req => .ok req
    | none => .error 400

/-! ## The address of the client -/

/-- The text before the first comma, unless that is empty. -/
def firstForwarded (xff : Bytes) : Bytes :=
  let firstComma := xff.idxOf 44
  if 0 < firstComma then xff.take firstComma else xff

def realIPFromHdrs (r : HTTPRequest) : Option NetIP.Addr :=
  match [HTTPHeader.cfConnectingIP, .trueClientIP, .xRealIP].findSome? fun h =>
      parseAddr (WhiteSpace.trimSpace (r.header h)) with
  | some realIP => some realIP
  | none => parseAddr (WhiteSpace.trimSpace (firstForwarded (r.header .xForwardedFor)))

/-- The address of the client, and that of the peer when the first is from the
headers. Zero addresses for a peer whose address is no address. -/
def remoteAddr (r : HTTPRequest) : AddrPort × AddrPort :=
  match parseAddrPort r.remoteAddr with
  | none => (.zero, .zero)
  | some host =>
    match realIPFromHdrs r with
    | none => (host, .zero)
    | some realIP => (⟨realIP, 0⟩, host)

/-! ## The handler -/

structure Userinfo where
  username : Bytes
  /-- Empty if there is none. -/
  password : Bytes

/-- What the handler reads of the `HTTPConfig` of a proxy. -/
structure DoHConfig where
  insecureEnabled : Bool
  userinfo : Option Userinfo

structure DoHServer where
  httpConf : Option DoHConfig
  /-- `Contains`; `none` is the nil interface. -/
  trustedProxies : Option (NetIP.Addr → Bool)

def matchesUserinfo (ui : Userinfo) (user pass : Bytes) : Bool :=
  user = ui.username && pass = ui.password

def checkBasicAuth (conf : DoHConfig) (r : HTTPRequest) : Bool :=
  match conf.userinfo with
  | none => true
  | some ui => matchesUserinfo ui r.basicAuth.1 r.basicAuth.2

/-- The address of the context is without the zone and the port. -/
def newDNSContext (proto : Proto) (req : Msg) (addr : AddrPort) : DNSContext :=
  { addr := addr.addr.bytes, proto := proto, req := req }

inductive HTTPOutcome
  | panicked
  | refused (statusCode : Nat)
  /-- Handled as a DNS request of `raddr`. -/
  | handled (raddr : AddrPort) (d : DNSContext)
deriving DecidableEq

def handledFor (raddr : AddrPort) (req : Msg) : HTTPOutcome :=
  .handled raddr (newDNSContext .https req raddr)

def serveHTTP (pf : Platform) (s : DoHServer) (r : HTTPRequest) : HTTPOutcome :=
  match s.httpConf with
  | none => .panicked
  | some conf =>
    if !conf.insecureEnabled && !r.tls then .refused 404
    else
      let (raddr, prx) := remoteAddr r
      if !checkBasicAuth conf r then .refused 401
      else
        match newDoHReq pf r with
        | .error statusCode => .refused statusCode
        | .ok req =>
          if prx.isValid then
            match s.trustedProxies with
            -- A method of a nil interface.
            | none => .panicked
            | some contains => handledFor (if contains prx.addr then raddr else prx) req
          else handledFor raddr req

/-! ## Peers -/

/-- The peer is a trusted proxy. Without a set no peer is. -/
def DoHServer.trusts (s : DoHServer) (peer : AddrPort) : Bool :=
  s.trustedProxies.any fun contains => contains peer.addr

/-- The client that a peer may speak for. -/
def DoHServer.clientOf (s : DoHServer) (peer : AddrPort) (r : HTTPRequest) : AddrPort :=
  if s.trusts peer then (realIPFromHdrs r).elim peer fun realIP => ⟨realIP, 0⟩ else peer

/-- The handler returns, and the request is handled for the client of the peer. -/
def Unspoofed (pf : Platform) (s : DoHServer) (peer : AddrPort) (r : HTTPRequest) : Prop :=
  serveHTTP pf s r ≠ .panicked ∧
    ∀ raddr d, serveHTTP pf s r = .handled raddr d →
      raddr = s.clientOf peer r ∧ d.addr = raddr.addr.bytes

/-- The request is refused before the address is of interest. -/
def Refused (pf : Platform) (conf : DoHConfig) (r : HTTPRequest) : Prop :=
  (conf.insecureEnabled = false ∧ r.tls = false) ∨ checkBasicAuth conf r = false ∨
    ∃ statusCode, newDoHReq pf r = .error statusCode

section Serve

variable {pf : Platform} {s : DoHServer} {conf : DoHConfig} {r : HTTPRequest}

theorem serveHTTP_refused (hconf : s.httpConf = some conf) (h : Refused pf conf r) :
    ∃ statusCode, serveHTTP pf s r = .refused statusCode := by
  unfold serveHTTP
  simp only [hconf]
  split
  · exact ⟨404, rfl⟩
  · next hsecure =>
    split
    · exact ⟨401, rfl⟩
    · next hauth =>
      rcases h with ⟨hins, htls⟩ | hbad | ⟨code, hcode⟩
      · simp [hins, htls] at hsecure
      · simp [hbad] at hauth
      · exact ⟨code, by simp [hcode]⟩

theorem serveHTTP_accepted {peer : AddrPort} (hconf : s.httpConf = some conf)
    (hpeer : parseAddrPort r.remoteAddr = some peer) (h : ¬ Refused pf conf r) :
    ∃ req, newDoHReq pf r = .ok req ∧
      serveHTTP pf s r =
        match realIPFromHdrs r, s.trustedProxies with
        | none, _ => handledFor peer req
        | some _, none => .panicked
        | some realIP, some contains =>
          handledFor (if contains peer.addr then ⟨realIP, 0⟩ else peer) req := by
  simp only [Refused, not_or, not_and, not_exists, Bool.not_eq_false] at h
  obtain ⟨hsecure, hauth, hreq⟩ := h
  obtain ⟨req, hreq⟩ : ∃ req, newDoHReq pf r = .ok req := by
    cases hr : newDoHReq pf r with
    | error code => exact absurd hr (hreq code)
    | ok req => exact ⟨req, rfl⟩
  have hcheck : (!conf.insecureEnabled && !r.tls) = false := by
    cases hins : conf.insecureEnabled with
    | false => simp [hsecure hins]
    | true => rfl
  have hvalid := NetIP.parseAddrPort_isValid hpeer
  have hzero : AddrPort.zero.isValid = false := rfl
  refine ⟨req, hreq, ?_⟩
  simp only [serveHTTP, hconf, hcheck, Bool.false_eq_true, if_false, remoteAddr, hpeer, hauth,
    Bool.not_true, hreq]
  cases realIPFromHdrs r with
  | none => simp only [hzero, Bool.false_eq_true, if_false]
  | some realIP => simp only [hvalid, if_true]; cases s.trustedProxies <;> rfl

theorem handled_of_handledFor {raddr raddr' : AddrPort} {req : Msg} {d : DNSContext}
    (h : handledFor raddr req = .handled raddr' d) :
    raddr' = raddr ∧ d.addr = raddr'.addr.bytes := by
  obtain ⟨rfl, rfl⟩ := HTTPOutcome.handled.inj h
  exact ⟨rfl, rfl⟩

theorem unspoofed_of_handledFor {peer raddr : AddrPort} {req : Msg}
    (h : serveHTTP pf s r = handledFor raddr req) (hclient : raddr = s.clientOf peer r) :
    Unspoofed pf s peer r := by
  refine ⟨by rw [h]; exact nofun, fun raddr' d hd => ?_⟩
  rw [h] at hd
  obtain ⟨rfl, haddr⟩ := handled_of_handledFor hd
  exact ⟨hclient, haddr⟩

theorem unspoofed_of_refused {peer : AddrPort} (hconf : s.httpConf = some conf)
    (h : Refused pf conf r) : Unspoofed pf s peer r := by
  obtain ⟨code, hcode⟩ := serveHTTP_refused hconf h
  exact ⟨by rw [hcode]; exact nofun, fun raddr d hd => by rw [hcode] at hd; cases hd⟩

end Serve

/-- For every request of a peer that has an address: the handler returns and takes the
client from the headers for trusted peers only, exactly if the proxy has an
`HTTPConfig`, and it has a set of trusted proxies, or the request has no header with an
address, or it is refused. -/
theorem serveHTTP_unspoofed_iff (pf : Platform) (s : DoHServer) (r : HTTPRequest)
    (peer : AddrPort) (hpeer : parseAddrPort r.remoteAddr = some peer) :
    Unspoofed pf s peer r ↔
      ∃ conf, s.httpConf = some conf ∧
        (s.trustedProxies.isSome = true ∨ realIPFromHdrs r = none ∨ Refused pf conf r) := by
  cases hconf : s.httpConf with
  | none =>
    have hpanic : serveHTTP pf s r = .panicked := by simp [serveHTTP, hconf]
    simp [Unspoofed, hpanic]
  | some conf =>
    simp only [Option.some.injEq, exists_eq_left']
    by_cases href : Refused pf conf r
    · simp [href, unspoofed_of_refused hconf href]
    · obtain ⟨req, -, hserve⟩ := serveHTTP_accepted hconf hpeer href
      cases hreal : realIPFromHdrs r with
      | none =>
        simp only [hreal] at hserve
        have hclient : peer = s.clientOf peer r := by simp [DoHServer.clientOf, hreal]
        simp [unspoofed_of_handledFor hserve hclient]
      | some realIP =>
        cases htrusted : s.trustedProxies with
        | none =>
          simp only [hreal, htrusted] at hserve
          simp [href, Unspoofed, hserve]
        | some contains =>
          simp only [hreal, htrusted] at hserve
          have hclient : (if contains peer.addr then ⟨realIP, 0⟩ else peer) =
              s.clientOf peer r := by
            simp [DoHServer.clientOf, DoHServer.trusts, hreal, htrusted]
          simp [unspoofed_of_handledFor hserve hclient]

/-- The request with other headers about the client. -/
def HTTPRequest.forwarded (r : HTTPRequest) (header : HTTPHeader → Bytes) : HTTPRequest :=
  { r with header := fun h => if h = .contentType then r.header h else header h }

theorem remoteAddr_untrusted {s : DoHServer} {r : HTTPRequest} {peer : AddrPort}
    {contains : NetIP.Addr → Bool} (hpeer : parseAddrPort r.remoteAddr = some peer)
    (hset : s.trustedProxies = some contains) (htrust : s.trusts peer = false) :
    (if (remoteAddr r).2.isValid then
        if contains (remoteAddr r).2.addr then (remoteAddr r).1 else (remoteAddr r).2
      else (remoteAddr r).1) = peer := by
  have hnot : contains peer.addr = false := by simpa [DoHServer.trusts, hset] using htrust
  have hvalid := NetIP.parseAddrPort_isValid hpeer
  unfold remoteAddr
  simp only [hpeer]
  cases realIPFromHdrs r with
  | none => rfl
  | some realIP => simp [hvalid, hnot]

/-- What the handler does for an untrusted peer, without the headers about the
client. -/
theorem serveHTTP_untrusted (pf : Platform) {s : DoHServer} {r : HTTPRequest} {peer : AddrPort}
    (hpeer : parseAddrPort r.remoteAddr = some peer) (hset : s.trustedProxies.isSome = true)
    (htrust : s.trusts peer = false) :
    serveHTTP pf s r =
      match s.httpConf with
      | none => .panicked
      | some conf =>
        if !conf.insecureEnabled && !r.tls then .refused 404
        else if !checkBasicAuth conf r then .refused 401
        else
          match newDoHReq pf r with
          | .error statusCode => .refused statusCode
          | .ok req => handledFor peer req := by
  obtain ⟨contains, hset⟩ := Option.isSome_iff_exists.mp hset
  have haddr := remoteAddr_untrusted hpeer hset htrust
  unfold serveHTTP
  cases s.httpConf with
  | none => rfl
  | some conf =>
    cases newDoHReq pf r with
    | error code => rfl
    | ok req =>
      simp only [hset]
      rw [← haddr]
      split_ifs <;> rfl

/-- The headers about the client make no difference to what an untrusted peer gets. -/
theorem serveHTTP_forwarded (pf : Platform) {s : DoHServer} {r : HTTPRequest} {peer : AddrPort}
    (header : HTTPHeader → Bytes) (hpeer : parseAddrPort r.remoteAddr = some peer)
    (hset : s.trustedProxies.isSome = true) (htrust : s.trusts peer = false) :
    serveHTTP pf s (r.forwarded header) = serveHTTP pf s r := by
  have hpeer' : parseAddrPort (r.forwarded header).remoteAddr = some peer := hpeer
  rw [serveHTTP_untrusted pf hpeer hset htrust, serveHTTP_untrusted pf hpeer' hset htrust]
  rfl

/-! ## A proxy that trusts no one -/

def queryPlatform : Platform := .ofTable [(exampleQuery, exampleQueryWire)]

/-- A query of 9.9.9.9 with the header `X-Real-IP`. -/
def realIPRequest : HTTPRequest where
  method := .post
  tls := true
  remoteAddr := ascii "9.9.9.9:4321"
  header
    | .xRealIP => ascii "1.2.3.4"
    | .contentType => ascii "application/dns-message"
    | _ => []
  basicAuth := ([], [])
  dnsParam := []
  body := some exampleQueryWire

def peer9999 : AddrPort := ⟨⟨[9, 9, 9, 9], []⟩, 4321⟩

/-- A server that trusts the addresses of `trusted`. -/
def dohServer (trusted : Option (NetIP.Addr → Bool)) : DoHServer :=
  ⟨some ⟨false, none⟩, trusted⟩

/-- With a set of trusted proxies the query is handled for the peer or for the client
in the header, as the set says. -/
theorem serveHTTP_unspoofed_trusted :
    (∃ d, serveHTTP queryPlatform (dohServer (some fun _ => true)) realIPRequest =
      .handled ⟨⟨[1, 2, 3, 4], []⟩, 0⟩ d) ∧
    (∃ d, serveHTTP queryPlatform (dohServer (some fun _ => false)) realIPRequest =
      .handled peer9999 d) ∧
    Unspoofed queryPlatform (dohServer (some fun _ => true)) peer9999 realIPRequest ∧
    Unspoofed queryPlatform (dohServer (some fun _ => false)) peer9999 realIPRequest := by
  have hpeer : parseAddrPort realIPRequest.remoteAddr = some peer9999 := by decide +kernel
  refine ⟨⟨newDNSContext .https exampleQuery ⟨⟨[1, 2, 3, 4], []⟩, 0⟩, ?_⟩,
    ⟨newDNSContext .https exampleQuery peer9999, ?_⟩, ?_, ?_⟩
  · decide +kernel
  · decide +kernel
  · exact (serveHTTP_unspoofed_iff _ _ _ _ hpeer).mpr ⟨_, rfl, .inl rfl⟩
  · exact (serveHTTP_unspoofed_iff _ _ _ _ hpeer).mpr ⟨_, rfl, .inl rfl⟩

/-- Without a set, which stands for trusting no one, the same query makes the handler
panic; without the header it is handled for the peer. -/
theorem serveHTTP_nilTrustedProxies :
    parseAddrPort realIPRequest.remoteAddr = some peer9999 ∧
    serveHTTP queryPlatform (dohServer none) realIPRequest = .panicked ∧
    serveHTTP queryPlatform (dohServer none) (realIPRequest.forwarded fun _ => []) =
      .handled peer9999 (newDNSContext .https exampleQuery peer9999) ∧
    ¬ Unspoofed queryPlatform (dohServer none) peer9999 realIPRequest := by
  have hpanic : serveHTTP queryPlatform (dohServer none) realIPRequest = .panicked := by
    decide +kernel
  refine ⟨by decide +kernel, hpanic, by decide +kernel, fun h => h.1 hpanic⟩

end DnsProxy
