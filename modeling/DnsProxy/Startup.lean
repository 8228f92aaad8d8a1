import Mathlib
import DnsProxy.Lib.Custody

/-!
# Starting the proxy

`Start` binds the listeners of all protocols one after the other, and creates and starts the
DNSCrypt servers. If anything fails on the way, what was opened is closed again.

Sockets, listeners and servers are numbered in the order in which they are opened. Beside the fields
of the proxy the state has the number of them, and those that were closed. A configured
address stands for what comes of the attempts to listen on it.

* `Opening`: what is open is in a field of the proxy, or in the hands of the function that runs.
* `start_spec`: what `Start` leaves when it succeeds and when it fails.
-/

namespace DnsProxy.Startup

open Std.Do

set_option mvcgen.warning false

inductive Proto
  | udp
  | tcp
  | tls
  | https
  | h3
  | quic
  | dnscryptUDP
  | dnscryptTCP
deriving DecidableEq, Repr

inductive Err
  | alreadyStarted
  | noListenAddrs
  | noTLSConfig (proto : Proto)
  | noDNSCryptConfig (proto : Proto)
  | cancelled
  | bind (proto : Proto)
  | badType (proto : Proto)
  | bufferSize
  | socketOptions
  | listenEarly
  | invalidDNSCrypt
  | newServer (proto : Proto)
  | startServer (index : Nat)
deriving DecidableEq, Repr

/-! ## The configuration -/

/-- `attempt` tells which attempts to bind the address succeed. -/
structure UDPAddr where
  attempt : Nat → Bool
  /-- The connection is a `*net.UDPConn`. -/
  isUDPConn : Bool := true
  bufferSet : Bool := true
  optionsSet : Bool := true

structure TCPAddr where
  attempt : Nat → Bool
  /-- The listener is a `*net.TCPListener`. -/
  isTCPListener : Bool := true

structure TLSAddr where
  attempt : Nat → Bool

structure HTTPAddr where
  attempt : Nat → Bool
  /-- The address of the listener is a `*net.TCPAddr`. -/
  isTCPAddr : Bool := true
  /-- `quic.ListenAddrEarly` succeeds. -/
  listensH3 : Bool := true

structure QUICAddr where
  attempt : Nat → Bool
  /-- `ListenEarly` of the transport succeeds. -/
  listens : Bool := true

structure DNSCryptAddr where
  /-- The configuration of the server is valid. -/
  valid : Bool := true
  bound : Bool := true
  optionsSet : Bool := true

structure HTTPConfig where
  http3Enabled : Bool := false
  listenAddresses : Option (List HTTPAddr) := none

/-- What `Start` reads of the proxy. A slice that is nil is `none`. -/
structure Config where
  bindRetryCount : Nat := 0
  udpBufferSize : Nat := 0
  udpListenAddr : Option (List UDPAddr) := none
  tcpListenAddr : Option (List TCPAddr) := none
  tlsListenAddr : Option (List TLSAddr) := none
  httpConf : Option HTTPConfig := none
  quicListenAddr : Option (List QUICAddr) := none
  dnsCryptUDPListenAddr : Option (List DNSCryptAddr) := none
  dnsCryptTCPListenAddr : Option (List DNSCryptAddr) := none
  hasTLSConf : Bool := false
  hasResolverCert : Bool := false
  hasProviderName : Bool := false
  /-- The context is done before the listeners are bound, or after all servers are started. -/
  cancelledBefore : Bool := false
  cancelledAfter : Bool := false

namespace Config

def httpListenAddr (cfg : Config) : Option (List HTTPAddr) :=
  cfg.httpConf.bind HTTPConfig.listenAddresses

def hasListenAddrs (cfg : Config) : Bool :=
  cfg.udpListenAddr.isSome || cfg.tcpListenAddr.isSome || cfg.tlsListenAddr.isSome ||
    cfg.httpListenAddr.isSome || cfg.quicListenAddr.isSome ||
    cfg.dnsCryptUDPListenAddr.isSome || cfg.dnsCryptTCPListenAddr.isSome

def validateTLSConfig (cfg : Config) : Option Err :=
  if cfg.hasTLSConf then none
  else if cfg.tlsListenAddr.isSome then some (.noTLSConfig .tls)
  else if cfg.httpListenAddr.isSome then some (.noTLSConfig .https)
  else if cfg.quicListenAddr.isSome then some (.noTLSConfig .quic)
  else none

def validateListenAddrs (cfg : Config) : Option Err :=
  if !cfg.hasListenAddrs then some .noListenAddrs
  else
    match cfg.validateTLSConfig with
    | some err => some err
    | none =>
      if cfg.hasResolverCert && cfg.hasProviderName then none
      else if cfg.dnsCryptTCPListenAddr.isSome then some (.noDNSCryptConfig .dnscryptTCP)
      else if cfg.dnsCryptUDPListenAddr.isSome then some (.noDNSCryptConfig .dnscryptUDP)
      else none

/-- What the net package returns has the type of its network. -/
def NetTypes (cfg : Config) : Prop :=
  (∀ a ∈ cfg.udpListenAddr.getD [], a.isUDPConn = true) ∧
    ∀ a ∈ cfg.tcpListenAddr.getD [], a.isTCPListener = true

end Config

/-! ## The proxy -/

/-- A DNSCrypt server, with the socket of its run if it was started. -/
structure DNSCryptServer where
  addr : DNSCryptAddr
  proto : Proto
  socket : Option Nat := none

/-- The fields of the proxy for what it listens on and serves with. -/
inductive Field
  | tcpListen
  | udpListen
  | tlsListen
  | httpsServer
  | httpsListen
  | h3Server
  | h3Listen
  | quicListen
  | quicTransports
  | quicConns
deriving DecidableEq, Repr

/-- A server that is nil is an empty list. -/
@[ext]
structure Proxy where
  started : Bool := false
  /-- There is a function that cancels the serving context. -/
  servingCancel : Bool := false
  fields : Field → List Nat := fun _ => []
  dnsCryptServers : List DNSCryptServer := []

def Proxy.set (p : Proxy) (field : Field) (l : List Nat) : Proxy :=
  { p with fields := Function.update p.fields field l }

/-- The proxy has a way to close `x`. -/
def Proxy.Owns (p : Proxy) (x : Nat) : Prop :=
  (∃ field, x ∈ p.fields field) ∨ ∃ s ∈ p.dnsCryptServers, s.socket = some x

structure World where
  proxy : Proxy := {}
  opened : Nat := 0
  closed : List Nat := []

abbrev M := EStateM Err World

def openResource : M Nat := modifyGet fun w => (w.opened, { w with opened := w.opened + 1 })

def close (x : Nat) : M Unit := modify fun w => { w with closed := w.closed ++ [x] }

/-- `x` is appended to a field. -/
def keep (field : Field) (x : Nat) : M Unit :=
  modify fun w => { w with proxy := w.proxy.set field (w.proxy.fields field ++ [x]) }

/-- `x` replaces what is in a field. -/
def assign (field : Field) (x : Nat) : M Unit :=
  modify fun w => { w with proxy := w.proxy.set field [x] }

section Functions

variable (cfg : Config)

/-- The attempts from the `i`-th one on, of which `n` are left. -/
def bindAttempts (proto : Proto) (attempt : Nat → Bool) (i : Nat) : Nat → M Nat
  | 0 => throw (.bind proto)
  | n + 1 => if attempt i then openResource else bindAttempts proto attempt (i + 1) n

def bindWithRetry (proto : Proto) (attempt : Nat → Bool) : M Nat :=
  bindAttempts proto attempt 0 (cfg.bindRetryCount + 1)

def listenUDP (a : UDPAddr) : M Nat := do
  let conn ← bindWithRetry cfg .udp a.attempt
  if !a.isUDPConn then
    -- the connection is not closed here
    throw (.badType .udp)
  if 0 < cfg.udpBufferSize && !a.bufferSet then
    close conn
    throw .bufferSize
  if !a.optionsSet then
    close conn
    throw .socketOptions
  return conn

def initUDPListeners : M Unit := do
  for a in cfg.udpListenAddr.getD [] do
    let pc ← listenUDP cfg a
    keep .udpListen pc

def listenTCP (a : TCPAddr) : M Nat := do
  let ln ← bindWithRetry cfg .tcp a.attempt
  if !a.isTCPListener then
    -- nor is the listener here
    throw (.badType .tcp)
  return ln

def initTCPListeners : M Unit := do
  for a in cfg.tcpListenAddr.getD [] do
    let ln ← listenTCP cfg a
    keep .tcpListen ln

def initTLSListeners : M Unit := do
  for a in cfg.tlsListenAddr.getD [] do
    let l ← bindWithRetry cfg .tls a.attempt
    keep .tlsListen l

def listenHTTP (a : HTTPAddr) : M Nat := do
  let tcpListen ← bindWithRetry cfg .https a.attempt
  if !a.isTCPAddr then
    close tcpListen
    throw (.badType .https)
  return tcpListen

def listenH3 (a : HTTPAddr) : M Nat := do
  if a.listensH3 then openResource else throw (.bind .h3)

def listenHTTPAddr (http3Enabled : Bool) (a : HTTPAddr) : M Unit := do
  let ln ← listenHTTP cfg a
  keep .httpsListen ln
  if http3Enabled then
    let quicListen ← listenH3 a
    keep .h3Listen quicListen

def initHTTPSListeners : M Unit := do
  match cfg.httpConf with
  | none => pure ()
  | some httpConf =>
    let server ← openResource
    assign .httpsServer server
    if httpConf.http3Enabled then
      let server ← openResource
      assign .h3Server server
    for a in httpConf.listenAddresses.getD [] do
      listenHTTPAddr cfg httpConf.http3Enabled a

/-- The connection, the listener and the transport. -/
def listenQUIC (a : QUICAddr) : M (Nat × Nat × Nat) := do
  let conn ← bindWithRetry cfg .quic a.attempt
  let tr ← openResource
  if !a.listens then
    close tr
    close conn
    throw .listenEarly
  let l ← openResource
  return (conn, l, tr)

def initQUICListeners : M Unit := do
  for a in cfg.quicListenAddr.getD [] do
    let (conn, ln, tr) ← listenQUIC cfg a
    keep .quicConns conn
    keep .quicTransports tr
    keep .quicListen ln

def startListeners : M Unit := do
  initUDPListeners cfg
  initTCPListeners cfg
  initTLSListeners cfg
  initHTTPSListeners cfg
  initQUICListeners cfg

def newDNSCryptServer (proto : Proto) (a : DNSCryptAddr) : M DNSCryptServer := do
  if a.valid then return { addr := a, proto := proto } else throw (.newServer proto)

def addDNSCryptServer (proto : Proto) (a : DNSCryptAddr) : M Unit := do
  let s ← newDNSCryptServer proto a
  modify fun w => { w with
    proxy := { w.proxy with dnsCryptServers := w.proxy.dnsCryptServers ++ [s] } }

def initDNSCryptServers : M Unit := do
  let udp := cfg.dnsCryptUDPListenAddr.getD []
  let tcp := cfg.dnsCryptTCPListenAddr.getD []
  if udp.isEmpty && tcp.isEmpty then return ()
  if !(cfg.hasResolverCert && cfg.hasProviderName) then throw .invalidDNSCrypt
  for a in udp do
    addDNSCryptServer .dnscryptUDP a
  for a in tcp do
    addDNSCryptServer .dnscryptTCP a

/-- `Start` of the DNSCrypt server `i`, with the error that is made of its error. -/
def startDNSCryptServer (i : Nat) : M Unit := do
  match (← get).proxy.dnsCryptServers[i]? with
  | none => pure ()
  | some s =>
    if s.socket.isSome || !s.addr.bound then throw (.startServer i)
    let socket ← openResource
    if s.proto = .dnscryptUDP && !s.addr.optionsSet then
      close socket
      throw (.startServer i)
    modify fun w => { w with
      proxy := { w.proxy with
        dnsCryptServers := w.proxy.dnsCryptServers.set i { s with socket := some socket } } }

def startDNSCryptServers : M Unit := do
  for i in List.range (← get).proxy.dnsCryptServers.length do
    startDNSCryptServer i

/-- All of them are closed; what their `Close` returns is left out. -/
def closeAll (closers : List Nat) : M Unit :=
  modify fun w => { w with closed := w.closed ++ closers }

/-- What is in a field is closed, and the field is cleared. -/
def closeField (field : Field) : M Unit := do
  closeAll ((← get).proxy.fields field)
  modify fun w => { w with proxy := w.proxy.set field [] }

/-- The fields in the order in which they are closed. -/
def closingOrder : List Field :=
  [.tcpListen, .udpListen, .tlsListen, .httpsServer, .httpsListen, .h3Server, .h3Listen,
    .quicListen, .quicTransports, .quicConns]

def closeListeners : M Unit := do
  for field in closingOrder do
    closeField field

/-- A server that was not started is skipped. -/
def shutdownDNSCryptServers : M Unit := do
  closeAll ((← get).proxy.dnsCryptServers.flatMap fun s => s.socket.toList)

def startServing : M Unit := do
  startListeners cfg
  initDNSCryptServers cfg
  startDNSCryptServers
  if cfg.cancelledAfter then throw .cancelled
  modify fun w => { w with proxy := { w.proxy with started := true } }

/-- What `Start` does when it fails after the checks, and `Shutdown` in another order. -/
def cleanUp : M Unit := do
  closeListeners
  shutdownDNSCryptServers
  modify fun w => { w with proxy := { w.proxy with dnsCryptServers := [], servingCancel := false } }

def start : M Unit := do
  if (← get).proxy.started then throw .alreadyStarted
  if let some err := cfg.validateListenAddrs then throw err
  if cfg.cancelledBefore then throw .cancelled
  modify fun w => { w with proxy := { w.proxy with servingCancel := true } }
  try startServing cfg
  catch err =>
    cleanUp
    throw err

/-- The upstreams, which `Shutdown` closes too, are left out. -/
def shutdown : M Unit := do
  if (← get).proxy.started then
    modify fun w => { w with proxy := { w.proxy with started := false } }
    cleanUp

end Functions

/-! ## What is open is known -/

/-- Of what was opened, all that is not closed is the proxy's or one of `l`. The proxy is not
started, and the fields `nils` are empty. -/
structure Opening (l : List Nat) (nils : List Field) (w : World) : Prop where
  held : ∀ x < w.opened, x ∈ w.closed ∨ w.proxy.Owns x ∨ x ∈ l
  idle : w.proxy.started = false
  empty : ∀ field ∈ nils, w.proxy.fields field = []

namespace Opening

variable {l : List Nat} {nils : List Field} {w : World} {x : Nat}

theorem weaken (h : Opening l nils w) : Opening l [] w := ⟨h.held, h.idle, nofun⟩

theorem mono (h : Opening l nils w) {l' : List Nat} (hl : ∀ x ∈ l, x ∈ l') : Opening l' nils w :=
  ⟨fun x hx => (h.held x hx).imp_right (.imp_right (hl x)), h.idle, h.empty⟩

theorem opened (h : Opening l nils w) :
    Opening (w.opened :: l) nils { w with opened := w.opened + 1 } where
  held y hy := by
    rcases Nat.lt_succ_iff_lt_or_eq.mp hy with hlt | rfl
    · exact (h.held y hlt).imp_right (.imp_right (List.mem_cons_of_mem _))
    · exact .inr (.inr List.mem_cons_self)
  idle := h.idle
  empty := h.empty

theorem closed (h : Opening (x :: l) nils w) :
    Opening l nils { w with closed := w.closed ++ [x] } where
  held y hy := by
    rcases h.held y hy with hclosed | howned | hmem
    · exact .inl (List.mem_append_left _ hclosed)
    · exact .inr (.inl howned)
    · rcases List.mem_cons.mp hmem with rfl | hmem
      · exact .inl (List.mem_append_right _ (List.mem_singleton_self _))
      · exact .inr (.inr hmem)
  idle := h.idle
  empty := h.empty

theorem handedOver (h : Opening (x :: l) nils w) {p : Proxy} {nils' : List Field}
    (howns : ∀ {y}, w.proxy.Owns y ∨ y = x → p.Owns y) (hidle : p.started = w.proxy.started)
    (hempty : ∀ field ∈ nils', p.fields field = []) : Opening l nils' { w with proxy := p } where
  held y hy := by
    rcases h.held y hy with hclosed | howned | hmem
    · exact .inl hclosed
    · exact .inr (.inl (howns (.inl howned)))
    · rcases List.mem_cons.mp hmem with rfl | hmem
      · exact .inr (.inl (howns (.inr rfl)))
      · exact .inr (.inr hmem)
  idle := hidle.trans h.idle
  empty := hempty

theorem cleared (h : Opening l nils w) (field : Field) :
    Opening l (nils ++ [field])
      { w with proxy := w.proxy.set field [], closed := w.closed ++ w.proxy.fields field } where
  held y hy := by
    rcases h.held y hy with hclosed | (⟨field', hmem⟩ | hserver) | hmem
    · exact .inl (List.mem_append_left _ hclosed)
    · rcases eq_or_ne field' field with rfl | hne
      · exact .inl (List.mem_append_right _ hmem)
      · exact .inr (.inl (.inl ⟨field', by simpa [Proxy.set, hne] using hmem⟩))
    · exact .inr (.inl (.inr hserver))
    · exact .inr (.inr hmem)
  idle := h.idle
  empty := by
    intro field' hmem
    rcases eq_or_ne field' field with rfl | hne
    · simp [Proxy.set]
    · have hnils : field' ∈ nils := by simpa [hne] using hmem
      simpa [Proxy.set, hne] using h.empty field' hnils

end Opening

namespace Proxy

variable {p : Proxy} {x y : Nat}

theorem owns_set_append (field : Field) (h : p.Owns y ∨ y = x) :
    (p.set field (p.fields field ++ [x])).Owns y := by
  rcases h with (⟨field', hy⟩ | hserver) | rfl
  · refine .inl ⟨field', ?_⟩
    rcases eq_or_ne field' field with rfl | hne
    · simp [set, hy]
    · simpa [set, hne] using hy
  · exact .inr hserver
  · exact .inl ⟨field, by simp [set]⟩

theorem owns_set_singleton {field : Field} (hempty : p.fields field = []) (h : p.Owns y ∨ y = x) :
    (p.set field [x]).Owns y := by
  have hset := owns_set_append field h
  rwa [hempty, List.nil_append] at hset

theorem empty_set {nils : List Field} (h : ∀ field ∈ nils, p.fields field = []) {field : Field}
    (hfield : field ∉ nils) (l : List Nat) :
    ∀ field' ∈ nils, (p.set field l).fields field' = [] := by
  intro field' hmem
  have hne : field' ≠ field := ne_of_mem_of_not_mem hmem hfield
  simpa [set, hne] using h field' hmem

theorem owns_set_server {i : Nat} {s : DNSCryptServer} (hi : p.dnsCryptServers[i]? = some s)
    (hsocket : s.socket = none) (h : p.Owns y ∨ y = x) :
    { p with dnsCryptServers := p.dnsCryptServers.set i { s with socket := some x } }.Owns y := by
  rcases h with (hfield | ⟨t, ht, hy⟩) | rfl
  · exact .inl hfield
  · rcases Custody.mem_set_or_eq hi ht { s with socket := some x } with hmem | rfl
    · exact .inr ⟨t, hmem, hy⟩
    · rw [hsocket] at hy
      cases hy
  · exact .inr ⟨_, List.mem_set (List.getElem?_eq_some_iff.mp hi).1 _, rfl⟩

end Proxy

/-! ## The functions -/

section Specs

variable (cfg : Config) {l : List Nat} {nils : List Field}

@[spec]
theorem openResource_spec :
    ⦃fun w => ⌜Opening l nils w⌝⦄ openResource ⦃⇓ x w => ⌜Opening (x :: l) nils w⌝⦄ := by
  mvcgen [openResource]
  next w h _ => exact h.opened

@[spec]
theorem close_spec (x : Nat) :
    ⦃fun w => ⌜Opening (x :: l) nils w⌝⦄ close x ⦃⇓ _ w => ⌜Opening l nils w⌝⦄ := by
  mvcgen [close]
  next w h _ => exact h.closed

@[spec]
theorem keep_spec {field : Field} (hfield : field ∉ nils) (x : Nat) :
    ⦃fun w => ⌜Opening (x :: l) nils w⌝⦄ keep field x ⦃⇓ _ w => ⌜Opening l nils w⌝⦄ := by
  mvcgen [keep]
  next w h _ =>
  exact h.handedOver (Proxy.owns_set_append field) rfl (Proxy.empty_set h.empty hfield _)

@[spec]
theorem assign_spec {field : Field} (hfield : field ∉ nils) (x : Nat) :
    ⦃fun w => ⌜Opening (x :: l) (field :: nils) w⌝⦄ assign field x
    ⦃⇓ _ w => ⌜Opening l nils w⌝⦄ := by
  mvcgen [assign]
  next w h _ =>
  obtain ⟨hnil, hnils⟩ := List.forall_mem_cons.mp h.empty
  exact h.handedOver (Proxy.owns_set_singleton hnil) rfl (Proxy.empty_set hnils hfield _)

theorem bindAttempts_spec (proto : Proto) (attempt : Nat → Bool) (n i : Nat) :
    ⦃fun w => ⌜Opening [] nils w⌝⦄ bindAttempts proto attempt i n
    ⦃post⟨fun x w => ⌜Opening [x] nils w⌝, fun _ w => ⌜Opening [] [] w⌝⟩⦄ := by
  induction n generalizing i with
  | zero =>
    mvcgen [bindAttempts]
    next h => exact h.weaken
  | succ n ih =>
    mvcgen [bindAttempts, ih]
    next => exact id

@[spec]
theorem bindWithRetry_spec (proto : Proto) (attempt : Nat → Bool) :
    ⦃fun w => ⌜Opening [] nils w⌝⦄ bindWithRetry cfg proto attempt
    ⦃post⟨fun x w => ⌜Opening [x] nils w⌝, fun _ w => ⌜Opening [] [] w⌝⟩⦄ :=
  bindAttempts_spec proto attempt (cfg.bindRetryCount + 1) 0

@[spec]
theorem listenUDP_spec (a : UDPAddr) (ha : a.isUDPConn = true) :
    ⦃fun w => ⌜Opening [] nils w⌝⦄ listenUDP cfg a
    ⦃post⟨fun x w => ⌜Opening [x] nils w⌝, fun _ w => ⌜Opening [] [] w⌝⟩⦄ := by
  mvcgen [listenUDP]
  -- the branch that leaves the connection open is not taken
  case vc3 => simp_all
  all_goals next h => exact h.weaken

@[spec]
theorem listenTCP_spec (a : TCPAddr) (ha : a.isTCPListener = true) :
    ⦃fun w => ⌜Opening [] nils w⌝⦄ listenTCP cfg a
    ⦃post⟨fun x w => ⌜Opening [x] nils w⌝, fun _ w => ⌜Opening [] [] w⌝⟩⦄ := by
  mvcgen [listenTCP]
  simp_all

@[spec]
theorem listenHTTP_spec (a : HTTPAddr) :
    ⦃fun w => ⌜Opening [] nils w⌝⦄ listenHTTP cfg a
    ⦃post⟨fun x w => ⌜Opening [x] nils w⌝, fun _ w => ⌜Opening [] [] w⌝⟩⦄ := by
  mvcgen [listenHTTP]
  next h => exact h.weaken

@[spec]
theorem listenH3_spec (a : HTTPAddr) :
    ⦃fun w => ⌜Opening [] nils w⌝⦄ listenH3 a
    ⦃post⟨fun x w => ⌜Opening [x] nils w⌝, fun _ w => ⌜Opening [] [] w⌝⟩⦄ := by
  mvcgen [listenH3]
  case vc2 => exact id
  next h => exact h.weaken

@[spec]
theorem listenQUIC_spec (a : QUICAddr) :
    ⦃fun w => ⌜Opening [] nils w⌝⦄ listenQUIC cfg a
    ⦃post⟨fun (conn, ln, tr) w => ⌜Opening [conn, tr, ln] nils w⌝,
      fun _ w => ⌜Opening [] [] w⌝⟩⦄ := by
  mvcgen [listenQUIC]
  case vc12 h => exact h.weaken
  next h => exact h.mono (by simp)

/-- The fields of the HTTP servers. -/
abbrev servers : List Field := [.httpsServer, .h3Server]

@[spec]
theorem initUDPListeners_spec (h : cfg.NetTypes) :
    ⦃fun w => ⌜Opening [] servers w⌝⦄ initUDPListeners cfg
    ⦃post⟨fun _ w => ⌜Opening [] servers w⌝, fun _ w => ⌜Opening [] [] w⌝⟩⦄ := by
  mvcgen [initUDPListeners] invariants
  · post⟨fun _ w => ⌜Opening [] servers w⌝, fun _ w => ⌜Opening [] [] w⌝⟩
  case vc2.ha _ _ _ a _ haddrs _ _ _ =>
    exact h.1 a (haddrs ▸ List.mem_append_right _ List.mem_cons_self)
  case vc6.hfield => decide

@[spec]
theorem initTCPListeners_spec (h : cfg.NetTypes) :
    ⦃fun w => ⌜Opening [] servers w⌝⦄ initTCPListeners cfg
    ⦃post⟨fun _ w => ⌜Opening [] servers w⌝, fun _ w => ⌜Opening [] [] w⌝⟩⦄ := by
  mvcgen [initTCPListeners] invariants
  · post⟨fun _ w => ⌜Opening [] servers w⌝, fun _ w => ⌜Opening [] [] w⌝⟩
  case vc2.ha _ _ _ a _ haddrs _ _ _ =>
    exact h.2 a (haddrs ▸ List.mem_append_right _ List.mem_cons_self)
  case vc6.hfield => decide

@[spec]
theorem initTLSListeners_spec :
    ⦃fun w => ⌜Opening [] servers w⌝⦄ initTLSListeners cfg
    ⦃post⟨fun _ w => ⌜Opening [] servers w⌝, fun _ w => ⌜Opening [] [] w⌝⟩⦄ := by
  mvcgen [initTLSListeners] invariants
  · post⟨fun _ w => ⌜Opening [] servers w⌝, fun _ w => ⌜Opening [] [] w⌝⟩
  decide

@[spec]
theorem listenHTTPAddr_spec (http3Enabled : Bool) (a : HTTPAddr) :
    ⦃fun w => ⌜Opening [] [] w⌝⦄ listenHTTPAddr cfg http3Enabled a
    ⦃post⟨fun _ w => ⌜Opening [] [] w⌝, fun _ w => ⌜Opening [] [] w⌝⟩⦄ := by
  mvcgen [listenHTTPAddr]
  case vc5.hfield => exact List.not_mem_nil
  case vc10 => exact id
  case vc13 => exact fun _ _ => List.not_mem_nil

@[spec]
theorem initHTTPSListeners_spec :
    ⦃fun w => ⌜Opening [] servers w⌝⦄ initHTTPSListeners cfg
    ⦃post⟨fun _ w => ⌜Opening [] [] w⌝, fun _ w => ⌜Opening [] [] w⌝⟩⦄ := by
  mvcgen [initHTTPSListeners] invariants
  · post⟨fun _ w => ⌜Opening [] [] w⌝, fun _ w => ⌜Opening [] [] w⌝⟩
  · post⟨fun _ w => ⌜Opening [] [] w⌝, fun _ w => ⌜Opening [] [] w⌝⟩
  case vc1 h => exact h.weaken
  case vc7.hfield => decide
  case vc14.hfield => decide
  next h => exact h.weaken

@[spec]
theorem initQUICListeners_spec :
    ⦃fun w => ⌜Opening [] [] w⌝⦄ initQUICListeners cfg
    ⦃post⟨fun _ w => ⌜Opening [] [] w⌝, fun _ w => ⌜Opening [] [] w⌝⟩⦄ := by
  mvcgen [initQUICListeners] invariants
  · post⟨fun _ w => ⌜Opening [] [] w⌝, fun _ w => ⌜Opening [] [] w⌝⟩
  all_goals exact List.not_mem_nil

@[spec]
theorem startListeners_spec (h : cfg.NetTypes) :
    ⦃fun w => ⌜Opening [] servers w⌝⦄ startListeners cfg
    ⦃post⟨fun _ w => ⌜Opening [] [] w⌝, fun _ w => ⌜Opening [] [] w⌝⟩⦄ := by
  mvcgen [startListeners]

@[spec]
theorem addDNSCryptServer_spec (proto : Proto) (a : DNSCryptAddr) :
    ⦃fun w => ⌜Opening [] [] w⌝⦄ addDNSCryptServer proto a
    ⦃post⟨fun _ w => ⌜Opening [] [] w⌝, fun _ w => ⌜Opening [] [] w⌝⟩⦄ := by
  mvcgen [addDNSCryptServer, newDNSCryptServer]
  next w h _ _ =>
  refine ⟨fun x hx => (h.held x hx).imp_right (.imp_left ?_), h.idle, nofun⟩
  rintro (hfield | ⟨s, hs, hsocket⟩)
  · exact .inl hfield
  · exact .inr ⟨s, List.mem_append_left _ hs, hsocket⟩

@[spec]
theorem initDNSCryptServers_spec :
    ⦃fun w => ⌜Opening [] [] w⌝⦄ initDNSCryptServers cfg
    ⦃post⟨fun _ w => ⌜Opening [] [] w⌝, fun _ w => ⌜Opening [] [] w⌝⟩⦄ := by
  mvcgen [initDNSCryptServers] invariants
  · post⟨fun _ w => ⌜Opening [] [] w⌝, fun _ w => ⌜Opening [] [] w⌝⟩
  · post⟨fun _ w => ⌜Opening [] [] w⌝, fun _ w => ⌜Opening [] [] w⌝⟩

@[spec]
theorem startDNSCryptServer_spec (i : Nat) :
    ⦃fun w => ⌜Opening [] [] w⌝⦄ startDNSCryptServer i
    ⦃post⟨fun _ w => ⌜Opening [] [] w⌝, fun _ w => ⌜Opening [] [] w⌝⟩⦄ := by
  mvcgen [startDNSCryptServer, openResource, close, -openResource_spec, -close_spec]
  case vc3 h _ _ _ _ _ _ _ _ => exact h.opened.closed
  case vc4 w h s hs _ hnew _ _ _ _ =>
    have hsocket : s.socket = none := by
      cases hs : s.socket with
      | none => rfl
      | some x => simp [hs] at hnew
    exact h.opened.handedOver (Proxy.owns_set_server hs hsocket) rfl nofun

@[spec]
theorem startDNSCryptServers_spec :
    ⦃fun w => ⌜Opening [] [] w⌝⦄ startDNSCryptServers
    ⦃post⟨fun _ w => ⌜Opening [] [] w⌝, fun _ w => ⌜Opening [] [] w⌝⟩⦄ := by
  mvcgen [startDNSCryptServers] invariants
  · post⟨fun _ w => ⌜Opening [] [] w⌝, fun _ w => ⌜Opening [] [] w⌝⟩

@[spec]
theorem closeListeners_spec :
    ⦃fun w => ⌜Opening [] [] w⌝⦄ closeListeners ⦃⇓ _ w => ⌜Opening [] closingOrder w⌝⦄ := by
  mvcgen [closeListeners, closeField, closeAll] invariants
  · ⇓ (⟨done, _, _⟩, _) w => ⌜Opening [] done w⌝
  case vc1 field _ _ _ _ h _ _ => exact h.cleared field

theorem mem_closingOrder (field : Field) : field ∈ closingOrder := by
  cases field <;> decide

/-- Nothing is open, and the proxy is as it was made. -/
def Idle (w : World) : Prop := w.proxy = {} ∧ ∀ x < w.opened, x ∈ w.closed

/-- The proxy is started, and can close all that is open. -/
def Serving (w : World) : Prop :=
  w.proxy.started = true ∧ ∀ x < w.opened, x ∈ w.closed ∨ w.proxy.Owns x

@[spec]
theorem shutdownDNSCryptServers_spec :
    ⦃fun w => ⌜Opening [] closingOrder w⌝⦄ shutdownDNSCryptServers
    ⦃⇓ _ w => ⌜(∀ x < w.opened, x ∈ w.closed) ∧ w.proxy.started = false ∧
      w.proxy.fields = fun _ => []⌝⦄ := by
  mvcgen [shutdownDNSCryptServers, closeAll]
  next w h _ =>
  have hfields : w.proxy.fields = fun _ => [] :=
    funext fun field => h.empty field (mem_closingOrder field)
  refine ⟨fun x hx => ?_, h.idle, hfields⟩
  rcases h.held x hx with hclosed | (⟨field, hmem⟩ | ⟨s, hs, hsocket⟩) | hmem
  · exact List.mem_append_left _ hclosed
  · rw [hfields] at hmem
    cases hmem
  · exact List.mem_append_right _ (List.mem_flatMap.mpr ⟨s, hs, by simp [hsocket]⟩)
  · cases hmem

@[spec]
theorem cleanUp_spec :
    ⦃fun w => ⌜Opening [] [] w⌝⦄ cleanUp ⦃⇓ _ w => ⌜Idle w⌝⦄ := by
  mvcgen [cleanUp]
  next w h _ =>
  obtain ⟨hclosed, hstarted, hfields⟩ := h
  exact ⟨Proxy.ext hstarted rfl hfields rfl, hclosed⟩

@[spec]
theorem startServing_spec (h : cfg.NetTypes) :
    ⦃fun w => ⌜Opening [] servers w⌝⦄ startServing cfg
    ⦃post⟨fun _ w => ⌜Serving w⌝, fun _ w => ⌜Opening [] [] w⌝⟩⦄ := by
  mvcgen [startServing]
  next h _ => exact ⟨rfl, fun x hx => (h.held x hx).imp_right (.resolve_right · List.not_mem_nil)⟩

theorem start_spec (h : cfg.NetTypes) :
    ⦃fun w => ⌜Idle w⌝⦄ start cfg
    ⦃post⟨fun _ w => ⌜Serving w⌝, fun _ w => ⌜Idle w⌝⟩⦄ := by
  mvcgen [start]
  case vc5 w hidle _ _ _ _ _ _ _ _ _ =>
    refine ⟨fun x hx => .inl (hidle.2 x hx), ?_, fun field _ => ?_⟩
    · exact congrArg Proxy.started hidle.1
    · exact congrFun (congrArg Proxy.fields hidle.1) field
  case vc6 => exact id

theorem start_of_started {w : World} (h : w.proxy.started = true) :
    (start cfg).run w = .error .alreadyStarted w := by
  simp [start, EStateM.run, h, bind, EStateM.bind, get, getThe, MonadStateOf.get, EStateM.get,
    throw, throwThe, MonadExceptOf.throw, EStateM.throw]

theorem shutdown_spec :
    ⦃fun w => ⌜Idle w ∨ Serving w⌝⦄ shutdown ⦃⇓ _ w => ⌜Idle w⌝⦄ := by
  mvcgen [shutdown]
  case vc1 w h hstarted _ =>
    rcases h with hidle | hserving
    · rw [hidle.1] at hstarted
      cases hstarted
    · exact ⟨fun x hx => (hserving.2 x hx).imp_right .inl, rfl, nofun⟩
  case vc2 h hstopped => exact h.resolve_right fun hserving => hstopped hserving.1

end Specs

/-! ## `Start` is all or nothing -/

section Runs

variable {ε σ α : Type} {x : EStateM ε σ α} {P : σ → Prop} {Q : α → σ → Prop} {E : ε → σ → Prop}
  {s s' : σ}

theorem ok_of_spec (h : ⦃fun s => ⌜P s⌝⦄ x ⦃post⟨fun a s => ⌜Q a s⌝, fun e s => ⌜E e s⌝⟩⦄)
    (hs : P s) {a : α} (hx : x.run s = .ok a s') : Q a s' := by
  have hpost := h s hs
  simp only [WP.wp, PredTrans.apply, hx] at hpost
  exact hpost

theorem error_of_spec (h : ⦃fun s => ⌜P s⌝⦄ x ⦃post⟨fun a s => ⌜Q a s⌝, fun e s => ⌜E e s⌝⟩⦄)
    (hs : P s) {e : ε} (hx : x.run s = .error e s') : E e s' := by
  have hpost := h s hs
  simp only [WP.wp, PredTrans.apply, hx] at hpost
  exact hpost

end Runs

inductive Call
  | start (cfg : Config)
  | shutdown

def Call.run : Call → M Unit
  | .start cfg => Startup.start cfg
  | .shutdown => Startup.shutdown

def Call.NetTypes : Call → Prop
  | .start cfg => cfg.NetTypes
  | .shutdown => True

/-- The state after a call, with or without an error. -/
def after (w : World) (c : Call) : World :=
  match c.run.run w with
  | .ok _ w' | .error _ w' => w'

theorem after_settled {w : World} (h : Idle w ∨ Serving w) {c : Call} (hc : c.NetTypes) :
    Idle (after w c) ∨ Serving (after w c) := by
  unfold after
  cases c with
  | start cfg =>
    rcases h with hidle | hserving
    · split
      · next hrun => exact .inr (ok_of_spec (start_spec cfg hc) hidle hrun)
      · next hrun => exact .inl (error_of_spec (start_spec cfg hc) hidle hrun)
    · rw [Call.run, start_of_started cfg hserving.1]
      exact .inr hserving
  | shutdown =>
    split
    · next hrun => exact .inl (ok_of_spec shutdown_spec h hrun)
    · next hrun => exact absurd (error_of_spec shutdown_spec h hrun) id

/-- Whatever calls of `Start` and `Shutdown` were made, nothing is open that the proxy cannot close,
and when it is not started, it is as it was made. -/
theorem calls_settled {w : World} (h : Idle w ∨ Serving w) {calls : List Call}
    (hcalls : ∀ c ∈ calls, c.NetTypes) :
    Idle (calls.foldl after w) ∨ Serving (calls.foldl after w) := by
  induction calls generalizing w with
  | nil => exact h
  | cons c calls ih =>
    obtain ⟨hc, hcalls⟩ := List.forall_mem_cons.mp hcalls
    exact ih (after_settled h hc) hcalls

/-- When `Start` fails, all that it has opened is closed, and the proxy is as it was. When it
succeeds, the proxy can close all that is open. -/
theorem start_all_or_nothing {cfg : Config} (hnet : cfg.NetTypes) {w w' : World}
    (hproxy : w.proxy = {}) (hclosed : ∀ x < w.opened, x ∈ w.closed) :
    (∀ err, (start cfg).run w = .error err w' →
      w'.proxy = {} ∧ ∀ x < w'.opened, x ∈ w'.closed) ∧
    ((start cfg).run w = .ok () w' →
      w'.proxy.started = true ∧ ∀ x < w'.opened, x ∈ w'.closed ∨ w'.proxy.Owns x) :=
  ⟨fun _ hrun => error_of_spec (start_spec cfg hnet) ⟨hproxy, hclosed⟩ hrun,
    fun hrun => ok_of_spec (start_spec cfg hnet) ⟨hproxy, hclosed⟩ hrun⟩

/-- The second attempt to bind the TCP address succeeds, and the HTTP/3 listener fails. -/
def failingConfig : Config where
  bindRetryCount := 1
  udpListenAddr := some [{ attempt := fun _ => true }]
  tcpListenAddr := some [{ attempt := fun i => i == 1 }]
  httpConf := some
    { http3Enabled := true
      listenAddresses := some [{ attempt := fun _ => true, listensH3 := false }] }
  quicListenAddr := some [{ attempt := fun _ => true }]
  hasTLSConf := true

/-- The error and the number of resources that were opened. -/
def failure : EStateM.Result Err World Unit → Option (Err × Nat)
  | .error err w => some (err, w.opened)
  | .ok _ _ => none

theorem start_all_or_nothing_h3 :
    failure ((start failingConfig).run {}) = some (.bind .h3, 5) ∧
      ∀ err w', (start failingConfig).run {} = .error err w' →
        w'.proxy = {} ∧ ∀ x < w'.opened, x ∈ w'.closed := by
  have hnet : failingConfig.NetTypes := by simp [Config.NetTypes, failingConfig]
  have hclosed : ∀ x < ({} : World).opened, x ∈ ({} : World).closed :=
    fun x hx => absurd hx (Nat.not_lt_zero x)
  exact ⟨by decide +kernel, fun err w' => (start_all_or_nothing hnet rfl hclosed).1 err⟩

end DnsProxy.Startup
