import DnsProxy.Cache
import DnsProxy.Dns64

/-!
# Resolving a request

The configuration of the proxy, the context of a request, and the parts of
`Proxy.Resolve` up to the response: what the request is turned into, which
upstreams are selected and asked, and what is made of their response. The shared
state (caches and pending requests) is added on top of these parts.

* `replyFromUpstream_spec`: the servers asked are the selected ones or, for a
  request that is not private, the fallbacks; a response comes from one of them.
-/

namespace DnsProxy

open Net

/-! ## Configuration and context -/

/-- A custom configuration is known by its identity, which is also that of its
cache. -/
structure CustomUpstreamConfig where
  id : Nat
  upstream : UpstreamConfig
  hasCache : Bool
deriving DecidableEq, Repr

structure Proxy where
  upstreamConf : UpstreamConfig
  privateRDNSUpstreamConfig : Option UpstreamConfig
  fallbacks : Option UpstreamConfig
  privateNets : Addr → Bool
  usePrivateRDNS : Bool
  /-- Empty when DNS64 is disabled. -/
  dns64Prefs : List Prefix
  bogusNXDomain : List Prefix
  upstreamMode : UpstreamMode
  enableEDNSClientSubnet : Bool
  ednsAddr : IP
  dnsSecEnabled : Bool
  refuseAny : Bool
  cacheEnabled : Bool
  cacheMinTTL : UInt32
  cacheMaxTTL : UInt32

inductive Proto
  /-- The empty string. -/
  | unset
  | udp
  | tcp
  | tls
  | https
  | quic
  | dnsCrypt
deriving DecidableEq, Repr

structure UpstreamStatistics where
  error : Option Err
  address : Bytes
  queryDuration : Int
  isCached : Bool
deriving DecidableEq, Repr

structure QueryStatistics where
  main : List UpstreamStatistics
  fallback : List UpstreamStatistics
deriving DecidableEq, Repr

structure DNSContext where
  addr : Addr := []
  proto : Proto := .unset
  req : Msg
  res : Option Msg := none
  reqECS : Option IPNet := none
  customUpstreamConfig : Option CustomUpstreamConfig := none
  requestedPrivateRDNS : Option Prefix := none
  isPrivateClient : Bool := false
  upstream : Option Upstream := none
  queryStatistics : Option QueryStatistics := none
  udpSize : UInt16 := 0
  adBit : Bool := false
  hasEDNS0 : Bool := false
  doBit : Bool := false
deriving DecidableEq, Repr

/-! ## Constructed messages -/

/-- `dnsmsg.reply`. -/
def reply (req : Msg) (code : Nat) : Msg :=
  { ({} : Msg).setRcode req code with recursionAvailable := true }

def newMsgNXDOMAIN (req : Msg) : Msg := reply req rcodeNameError
def newMsgSERVFAIL (req : Msg) : Msg := reply req rcodeServerFailure
def newMsgFORMERR (req : Msg) : Msg := reply req rcodeFormatError

def newMsgNOTIMPLEMENTED (req : Msg) : Msg :=
  (reply req rcodeNotImplemented).setEdns0 1452 false

/-! ## The request -/

def defaultUDPBufSize : UInt16 := 2048

/-- Changes the last OPT record of a message. -/
def modifyOPT (m : Msg) (f : RR → RR) : Msg :=
  { m with
    extra :=
      (m.extra.reverse.modify (m.extra.reverse.findIdx fun r => r.rrtype == typeOPT) f).reverse }

def addOption (o : EDNS0) (r : RR) : RR :=
  match r.rdata with
  | .opt os => { r with rdata := .opt (os ++ [o]) }
  | _ => r

def defaultECSv4 : Nat := 24
def defaultECSv6 : Nat := 56

/-- The family, the length and the network of the subnet that `setECS` sends. -/
def ecsNetwork (ip : IP) : UInt16 × Nat × IPNet :=
  match to4 ip with
  | some ip4 =>
    let mask := cidrMask defaultECSv4 32
    (1, defaultECSv4, ⟨ipMask (some ip4) mask, mask⟩)
  | none =>
    let mask := cidrMask defaultECSv6 128
    (2, defaultECSv6, ⟨ipMask ip mask, mask⟩)

def setECS (m : Msg) (ip : IP) (scope : UInt8) : Msg × IPNet :=
  let (family, source, subnet) := ecsNetwork ip
  let e := EDNS0.subnet family (UInt8.ofNat source) scope subnet.ip
  if m.isEdns0 = none then
    ({ m with extra := m.extra ++ [⟨[46], 4096, 0, .opt [e]⟩] }, subnet)
  else (modifyOPT m (addOption e), subnet)

/-- `netip.AddrFromSlice`, with the zero address for an invalid length. -/
def addrFromSlice (ip : IP) : Addr :=
  if (bytesOf ip).length = 4 ∨ (bytesOf ip).length = 16 then bytesOf ip else []

def processECS (pf : Platform) (cliIP : IP) (d : DNSContext) : DNSContext :=
  let setClient : DNSContext :=
    let (cliIP, cliAddr) :=
      if cliIP = none then (some d.addr, d.addr) else (cliIP, addrFromSlice cliIP)
    if !pf.isSpecialPurpose cliAddr then
      let (req, subnet) := setECS d.req cliIP 0
      { d with req := req, reqECS := some subnet }
    else d
  match ecsFromMsg d.req with
  | some (ecs, _) => if (maskSize ecs.mask).1 ≠ 0 then { d with reqECS := some ecs } else setClient
  | none => setClient

def calcFlagsAndSize (d : DNSContext) : DNSContext :=
  if d.udpSize ≠ 0 then d
  else
    match d.req.isEdns0 with
    | none => { d with adBit := d.req.authenticatedData, udpSize := defaultUDPBufSize }
    | some o =>
      { d with
        adBit := d.req.authenticatedData
        hasEDNS0 := true
        doBit := o.hasDo
        udpSize := o.udpSize }

def Proxy.cacheWorks (p : Proxy) (d : DNSContext) : Bool :=
  match d.customUpstreamConfig with
  | some c => c.hasCache && d.requestedPrivateRDNS.isNone && !d.req.checkingDisabled
  | none => p.cacheEnabled && d.requestedPrivateRDNS.isNone && !d.req.checkingDisabled

def Proxy.addDO (p : Proxy) (m : Msg) : Msg :=
  if !p.dnsSecEnabled then m
  else
    match m.isEdns0 with
    | some o => if !o.hasDo then modifyOPT m RR.setDo else m
    | none => m.setEdns0 defaultUDPBufSize true

/-- The part of `Resolve` before the shared state is touched, and whether the cache
works for the request. -/
def Proxy.prepare (pf : Platform) (p : Proxy) (d : DNSContext) : DNSContext × Bool :=
  let d := if p.enableEDNSClientSubnet then processECS pf p.ednsAddr d else d
  let d := calcFlagsAndSize d
  if p.cacheWorks d then ({ d with req := p.addDO d.req }, true) else (d, false)

theorem addDO_eq (p : Proxy) (m : Msg) : ∃ extra, p.addDO m = { m with extra := extra } := by
  unfold Proxy.addDO modifyOPT Msg.setEdns0
  split
  · exact ⟨m.extra, rfl⟩
  · split
    · split
      · exact ⟨_, rfl⟩
      · exact ⟨m.extra, rfl⟩
    · exact ⟨_, rfl⟩

theorem setECS_eq (m : Msg) (ip : IP) (scope : UInt8) :
    ∃ extra, (setECS m ip scope).1 = { m with extra := extra } := by
  unfold setECS modifyOPT
  simp only
  split <;> exact ⟨_, rfl⟩

theorem processECS_eq (pf : Platform) (cliIP : IP) (d : DNSContext) : ∃ extra ecs,
    processECS pf cliIP d = { d with req := { d.req with extra := extra }, reqECS := ecs } := by
  -- The client's own subnet is set unless the request has one that counts.
  have hset : ∀ ip, ∃ extra ecs, ({ d with
      req := (setECS d.req ip 0).1, reqECS := some (setECS d.req ip 0).2 } : DNSContext) =
        { d with req := { d.req with extra := extra }, reqECS := ecs } := by
    intro ip
    obtain ⟨extra, he⟩ := setECS_eq d.req ip 0
    exact ⟨extra, _, by rw [he]⟩
  unfold processECS
  simp only
  generalize (if cliIP = none then (some d.addr, d.addr) else (cliIP, addrFromSlice cliIP)) = cli
  split
  · split
    · exact ⟨d.req.extra, _, rfl⟩
    · split
      · exact hset _
      · exact ⟨d.req.extra, d.reqECS, rfl⟩
  · split
    · exact hset _
    · exact ⟨d.req.extra, d.reqECS, rfl⟩

/-- The fields of a context that `prepare` leaves alone. -/
structure Prepared (d d₁ : DNSContext) : Prop where
  question : d₁.req.question = d.req.question
  customUpstreamConfig : d₁.customUpstreamConfig = d.customUpstreamConfig
  requestedPrivateRDNS : d₁.requestedPrivateRDNS = d.requestedPrivateRDNS
  isPrivateClient : d₁.isPrivateClient = d.isPrivateClient

theorem prepared_processECS (pf : Platform) (cliIP : IP) (d : DNSContext) :
    Prepared d (processECS pf cliIP d) := by
  obtain ⟨extra, ecs, he⟩ := processECS_eq pf cliIP d
  rw [he]
  exact ⟨rfl, rfl, rfl, rfl⟩

theorem prepared_calcFlagsAndSize (d : DNSContext) : Prepared d (calcFlagsAndSize d) := by
  unfold calcFlagsAndSize
  split
  · exact ⟨rfl, rfl, rfl, rfl⟩
  · split <;> exact ⟨rfl, rfl, rfl, rfl⟩

theorem Prepared.trans {d d₁ d₂ : DNSContext} (h : Prepared d d₁) (h' : Prepared d₁ d₂) :
    Prepared d d₂ :=
  ⟨h'.question.trans h.question, h'.customUpstreamConfig.trans h.customUpstreamConfig,
    h'.requestedPrivateRDNS.trans h.requestedPrivateRDNS,
    h'.isPrivateClient.trans h.isPrivateClient⟩

/-- The cache works only for requests that are not private, and for a custom
configuration only with its own cache. -/
theorem cacheWorks_spec {p : Proxy} {d : DNSContext} (h : p.cacheWorks d = true) :
    d.requestedPrivateRDNS = none ∧ ∀ c, d.customUpstreamConfig = some c → c.hasCache = true := by
  unfold Proxy.cacheWorks at h
  split at h
  · next c hc =>
    simp only [Bool.and_eq_true, Option.isNone_iff_eq_none] at h
    exact ⟨h.1.2, fun c' hc' => Option.some.inj (hc.symm.trans hc') ▸ h.1.1⟩
  · next hc =>
    simp only [Bool.and_eq_true, Option.isNone_iff_eq_none] at h
    exact ⟨h.1.2, fun c' hc' => by rw [hc] at hc'; cases hc'⟩

theorem prepare_spec {pf : Platform} {p : Proxy} {d d₁ : DNSContext} {works : Bool}
    (h : p.prepare pf d = (d₁, works)) : Prepared d d₁ ∧ (works = true →
      d₁.requestedPrivateRDNS = none ∧
        ∀ c, d₁.customUpstreamConfig = some c → c.hasCache = true) := by
  unfold Proxy.prepare at h
  simp only at h
  generalize hd' : (if p.enableEDNSClientSubnet then processECS pf p.ednsAddr d else d) = d' at h
  have hecs : Prepared d d' := by
    rw [← hd']
    split
    · exact prepared_processECS pf _ d
    · exact ⟨rfl, rfl, rfl, rfl⟩
  have hprep := hecs.trans (prepared_calcFlagsAndSize d')
  split at h
  · next hw =>
    obtain ⟨rfl, rfl⟩ := Prod.mk.inj h
    obtain ⟨extra, hadd⟩ := addDO_eq p (calcFlagsAndSize d').req
    have hspec := cacheWorks_spec hw
    refine ⟨hprep.trans ⟨?_, rfl, rfl, rfl⟩, fun _ => ⟨hspec.1, hspec.2⟩⟩
    rw [hadd]
  · obtain ⟨rfl, rfl⟩ := Prod.mk.inj h
    exact ⟨hprep, fun hw => nomatch hw⟩

/-! ## Upstreams -/

def Proxy.selectUpstreams (pf : Platform) (p : Proxy) (d : DNSContext) : List Upstream × Bool :=
  let host := d.req.firstQuestion.name
  if d.requestedPrivateRDNS ≠ none ∨ shouldStripDNS64 pf p.dns64Prefs d.req = true then
    match p.privateRDNSUpstreamConfig with
    | some priv =>
      if p.usePrivateRDNS && d.isPrivateClient then (priv.getUpstreamsForDomain host, true)
      else ([], true)
    | none => ([], true)
  else
    let getUpstreams (uc : UpstreamConfig) : List Upstream :=
      if d.req.firstQuestion.qtype = typeDS then uc.getUpstreamsForDS host
      else uc.getUpstreamsForDomain host
    match d.customUpstreamConfig with
    | some custom =>
      let ups := getUpstreams custom.upstream
      if 0 < ups.length then (ups, false) else (getUpstreams p.upstreamConf, false)
    | none => (getUpstreams p.upstreamConf, false)

/-- `proxyutil.IPFromRR`. -/
def addrFromRR (r : RR) : Addr :=
  match r.rdata with
  | .a ip => addrFromSlice (to4 (some ip))
  | .aaaa ip => addrFromSlice (some ip)
  | _ => []

def Proxy.isBogusNXDomain (p : Proxy) (m : Msg) : Bool :=
  if p.bogusNXDomain.length = 0 ∨ m.question.length = 0 then false
  else if m.firstQuestion.qtype ≠ typeA ∧ m.firstQuestion.qtype ≠ typeAAAA then false
  else m.answer.any fun r => subnetsContain p.bogusNXDomain (addrFromRR r)

def respectTTLOverrides (ttl cacheMinTTL cacheMaxTTL : UInt32) : UInt32 :=
  if ttl < cacheMinTTL then cacheMinTTL
  else if cacheMaxTTL ≠ 0 ∧ cacheMaxTTL < ttl then cacheMaxTTL
  else ttl

def Proxy.setMinMaxTTL (p : Proxy) (m : Msg) : Msg :=
  let override (r : RR) : RR :=
    { r with ttl := respectTTLOverrides r.ttl p.cacheMinTTL p.cacheMaxTTL }
  { m with answer := m.answer.map override, ns := m.ns.map override, extra := m.extra.map override }

def Proxy.handleExchangeResult (p : Proxy) (d : DNSContext) (req : Msg) (resp : Option Msg)
    (u : Option Upstream) : DNSContext :=
  let fail := { d with res := some (newMsgSERVFAIL req), hasEDNS0 := false }
  match resp with
  | none => fail
  | some resp =>
    if resp.question.length ≠ 1 then fail
    else { d with upstream := u, res := some (p.setMinMaxTTL { resp with authoritative := false }) }

def collectUpstreamStats (env : Exchanges) (ups : List Upstream) : List UpstreamStatistics :=
  ups.map fun u => ⟨(env.measured u).1, u.address, (env.measured u).2, false⟩

def cachedQueryStatistics (addr : Bytes) : QueryStatistics := ⟨[⟨none, addr, 0, true⟩], []⟩

/-- The environment of the exchanges that one `replyFromUpstream` makes: with the
selected upstreams, with them again for DNS64, and with the fallbacks. -/
structure UpstreamEnv where
  main : Exchanges
  dns64 : Exchanges
  fallback : Exchanges
  newID : UInt16

def collectQueryStats (mode : UpstreamMode) (env : UpstreamEnv) (u : Option Upstream)
    (ups fallbacks : List Upstream) : QueryStatistics :=
  match u with
  | none => ⟨collectUpstreamStats env.main ups, collectUpstreamStats env.fallback fallbacks⟩
  | some u =>
    if mode = .fastestAddr ∧ fallbacks.length = 0 then ⟨collectUpstreamStats env.main ups, []⟩
    else if 0 < fallbacks.length then
      ⟨collectUpstreamStats env.main ups, collectUpstreamStats env.fallback [u]⟩
    else ⟨collectUpstreamStats env.main [u], []⟩

/-- What `replyFromUpstream` returns and leaves. `asked` tells the exchanges it
made, and `source` is the server whose response the context now holds. -/
structure Replied where
  ok : Bool
  err : Option Err
  ctx : DNSContext
  asked : List (Upstream × Msg)
  source : Option Upstream

/-- The exchange with the selected upstreams, with the synthesis of addresses and
the replacement of bogus ones. -/
def Proxy.exchangeSelected (pf : Platform) (p : Proxy) (env : UpstreamEnv) (req : Msg)
    (ups : List Upstream) : Exchanged :=
  let x := exchangeUpstreams pf p.upstreamMode env.main req ups
  let s := performDNS64 pf p.upstreamMode p.dns64Prefs env.dns64 env.newID req x.resp ups
  let asked := x.asked ++ s.asked
  if s.u ≠ none then ⟨s.resp, s.u, x.err, asked⟩
  else if s.resp.any p.isBogusNXDomain then ⟨some (newMsgNXDOMAIN req), x.u, x.err, asked⟩
  else ⟨s.resp, x.u, x.err, asked⟩

/-- What `replyFromUpstream` leaves after the last exchange. -/
def Proxy.conclude (p : Proxy) (env : UpstreamEnv) (d : DNSContext) (ups fallbacks : List Upstream)
    (x : Exchanged) : Replied :=
  let d := { d with
    queryStatistics := some (collectQueryStats p.upstreamMode env x.u ups fallbacks) }
  ⟨x.resp.isSome, x.err, p.handleExchangeResult d d.req x.resp x.u, x.asked,
    if x.resp.any fun m => m.question.length = 1 then x.u else none⟩

def Proxy.replyFromUpstream (pf : Platform) (p : Proxy) (env : UpstreamEnv) (d : DNSContext) :
    Replied :=
  let (ups, isPrivate) := p.selectUpstreams pf d
  if ups.length = 0 then
    ⟨false, some .noUpstreams, { d with res := some (newMsgNXDOMAIN d.req) }, [], none⟩
  else
    let x := p.exchangeSelected pf env d.req ups
    match x.err, isPrivate, p.fallbacks with
    | some _, false, some fallbacks =>
      let fups := fallbacks.getUpstreamsForDomain d.req.firstQuestion.name
      let y := exchangeParallel env.fallback fups d.req
      p.conclude env d ups fups { y with asked := x.asked ++ y.asked }
    | _, _, _ => p.conclude env d ups [] x

/-! ## What `replyFromUpstream` does -/

/-- The servers that may be asked about the request of a context: the selected ones
or, unless the request is private, the fallbacks. -/
def Proxy.MayAsk (pf : Platform) (p : Proxy) (d : DNSContext) (u : Upstream) : Prop :=
  u ∈ (p.selectUpstreams pf d).1 ∨
  (p.selectUpstreams pf d).2 = false ∧ ∃ fallbacks, p.fallbacks = some fallbacks ∧
    u ∈ fallbacks.getUpstreamsForDomain d.req.firstQuestion.name

theorem exchangeSelected_spec (pf : Platform) (p : Proxy) (env : UpstreamEnv) (req : Msg)
    (ups : List Upstream) :
    let x := p.exchangeSelected pf env req ups
    (∀ a ∈ x.asked, a.1 ∈ ups) ∧ (∀ u, x.resp.isSome → x.u = some u → u ∈ ups) := by
  have hx := exchangeUpstreams_spec pf p.upstreamMode env.main req ups
  unfold Proxy.exchangeSelected
  generalize exchangeUpstreams pf p.upstreamMode env.main req ups = x at hx ⊢
  simp only
  obtain ⟨hsa, hsu, hsr⟩ := performDNS64_spec pf p.upstreamMode p.dns64Prefs env.dns64 env.newID req
    x.resp ups
  generalize performDNS64 pf p.upstreamMode p.dns64Prefs env.dns64 env.newID req x.resp ups = s
    at hsa hsu hsr ⊢
  have hasked : ∀ a ∈ x.asked ++ s.asked, a.1 ∈ ups := by
    intro a ha
    rcases List.mem_append.mp ha with ha | ha
    · exact (hx.asked a ha).1
    · exact hsa a ha
  have hxu : s.resp.isSome → ∀ u, x.u = some u → u ∈ ups := by
    intro hs u hu
    rw [hsr, Option.isSome_iff_exists] at hs
    obtain ⟨m, hm⟩ := hs
    obtain ⟨v, hv, hxv, _⟩ := hx.answered m hm
    exact Option.some.inj (hxv.symm.trans hu) ▸ hv
  split
  · exact ⟨hasked, fun u _ hu => hsu u hu⟩
  · split
    · next hb =>
      refine ⟨hasked, fun u _ hu => hxu ?_ u hu⟩
      cases hr : s.resp with
      | none => rw [hr] at hb; cases hb
      | some m => rfl
    · exact ⟨hasked, fun u hs hu => hxu hs u hu⟩

/-- What is left by `replyFromUpstream`, whatever the exchanges bring. -/
structure Replied.Spec (pf : Platform) (p : Proxy) (d : DNSContext) (r : Replied) : Prop where
  /-- Only the response, the upstream, the statistics and `hasEDNS0` change. -/
  frame : ∃ res u s h, r.ctx =
    { d with res := res, upstream := u, queryStatistics := s, hasEDNS0 := h }
  asked : ∀ a ∈ r.asked, p.MayAsk pf d a.1
  source : ∀ u, r.source = some u → p.MayAsk pf d u ∧ r.ok = true ∧
    ∃ m : Msg, m.question.length = 1 ∧
      r.ctx.res = some (p.setMinMaxTTL { m with authoritative := false })

theorem conclude_spec {pf : Platform} {p : Proxy} {env : UpstreamEnv} {d : DNSContext}
    {ups fallbacks : List Upstream} {x : Exchanged} (hasked : ∀ a ∈ x.asked, p.MayAsk pf d a.1)
    (hu : ∀ u, x.resp.isSome → x.u = some u → p.MayAsk pf d u) :
    (p.conclude env d ups fallbacks x).Spec pf p d := by
  unfold Proxy.conclude
  constructor
  · unfold Proxy.handleExchangeResult
    simp only
    split
    · exact ⟨_, _, _, _, rfl⟩
    · split
      · exact ⟨_, _, _, _, rfl⟩
      · exact ⟨_, _, _, _, rfl⟩
  · exact hasked
  · intro u hsource
    simp only at hsource
    split at hsource
    · next hone =>
      cases hr : x.resp with
      | none => rw [hr] at hone; cases hone
      | some m =>
        have hlen : m.question.length = 1 := by simpa [hr] using hone
        refine ⟨hu u (by rw [hr]; rfl) hsource, rfl, m, hlen, ?_⟩
        simp [Proxy.handleExchangeResult, hlen]
    · cases hsource

theorem replyFromUpstream_spec (pf : Platform) (p : Proxy) (env : UpstreamEnv) (d : DNSContext) :
    (p.replyFromUpstream pf env d).Spec pf p d := by
  unfold Proxy.replyFromUpstream
  simp only
  split
  · exact ⟨⟨_, _, _, _, rfl⟩, by simp, by simp⟩
  · obtain ⟨hasked, hu⟩ := exchangeSelected_spec pf p env d.req (p.selectUpstreams pf d).1
    split
    · next e fallbacks _ hpriv hfb =>
      have hy := exchangeParallel_within env.fallback
        (fallbacks.getUpstreamsForDomain d.req.firstQuestion.name) d.req
      have hmay : ∀ u ∈ fallbacks.getUpstreamsForDomain d.req.firstQuestion.name,
          p.MayAsk pf d u := fun u hu => .inr ⟨hpriv, fallbacks, hfb, hu⟩
      refine conclude_spec (fun a ha => ?_) (fun u hs hu => ?_)
      · rcases List.mem_append.mp ha with ha | ha
        · exact .inl (hasked a ha)
        · exact hmay _ (hy.asked a ha).1
      · obtain ⟨m, hm⟩ := Option.isSome_iff_exists.mp hs
        obtain ⟨v, hv, hyv, _⟩ := hy.answered m hm
        exact Option.some.inj (hyv.symm.trans hu) ▸ hmay v hv
    · exact conclude_spec (fun a ha => .inl (hasked a ha)) (fun u hs h => .inl (hu u hs h))

/-! ## The response -/

def maxMsgSize : UInt16 := 65535
def minMsgSize : UInt16 := 512

def dnsSize (isUDP : Bool) (r : Msg) : UInt16 :=
  if !isUDP then maxMsgSize
  else
    match r.isEdns0 with
    | none => minMsgSize
    | some o => max minMsgSize o.udpSize

/-- The response as `scrub` passes it to `Truncate`. -/
def withEdns0 (d : DNSContext) (res : Msg) : Msg :=
  if d.hasEDNS0 ∧ res.isEdns0 = none then res.setEdns0 d.udpSize d.doBit else res

def scrub (pf : Platform) (d : DNSContext) : DNSContext :=
  match d.res with
  | none => d
  | some res =>
    let d := calcFlagsAndSize d
    let res := pf.truncate (withEdns0 d res) (dnsSize (d.proto = .udp) d.req).toNat
    { d with res := some { res with compress := true } }

/-- The end of `Resolve`, for a response from the cache and from an upstream. -/
def complete (pf : Platform) (d : DNSContext) : DNSContext :=
  scrub pf { d with res := d.res.map fun res => filterMsg res res d.adBit d.doBit 0 }

/-! ## The cache of a request -/

/-- The request is looked up and its response stored in the subnet cache. -/
def Proxy.usesSubnets (p : Proxy) (d : DNSContext) : Bool :=
  p.enableEDNSClientSubnet && d.reqECS.isSome

/-- The lookup of `replyFromCache` in the cache of the context. -/
def Proxy.lookup (pf : Platform) (p : Proxy) (c : Cache) (d : DNSContext) (now : Instant) :
    Cache.Lookup :=
  if p.usesSubnets d then c.getWithSubnet pf d.req d.reqECS now else c.get pf d.req now

/-- The context with the response that a lookup found. -/
def fromCache (d : DNSContext) (ci : CacheItem) : DNSContext :=
  { d with res := some ci.m, queryStatistics := some (cachedQueryStatistics ci.u) }

/-- `cacheResp` of a context with a response. -/
def Proxy.cacheResp (pf : Platform) (p : Proxy) (c : Cache) (d : DNSContext) (res : Msg)
    (now : Instant) : Option Cache :=
  c.cacheResp pf p.enableEDNSClientSubnet d.req res d.reqECS
    ((d.upstream.map Upstream.address).getD []) now

/-- The entry that `cacheResp` writes, with its key. -/
def Proxy.cacheEntry (pf : Platform) (p : Proxy) (d : DNSContext) (res : Msg) (now : Instant) :
    Option (Bytes × Bytes) :=
  let u := (d.upstream.map Upstream.address).getD []
  if p.usesSubnets d then do
    let s ← d.reqECS
    let n ← respSubnet res s
    Cache.subnetEntry pf d.req res u (some n) now
  else do
    let item ← respToItem res u
    let packed ← item.pack pf now
    some (msgToKey d.req, packed)

theorem cacheResp_eq (pf : Platform) (p : Proxy) (c : Cache) (d : DNSContext) (res : Msg)
    (now : Instant) : p.cacheResp pf c d res now =
      match p.cacheEntry pf d res now with
      | none => some c
      | some (k, data) =>
        if p.usesSubnets d then c.itemsWithSubnet.map fun items =>
          { c with itemsWithSubnet := some (Function.update items k (some data)) }
        else some { c with items := Function.update c.items k (some data) } := by
  unfold Proxy.cacheResp Cache.cacheResp Proxy.cacheEntry
  have hset : ∀ u, some (c.set pf d.req res u now) =
      match (do let item ← respToItem res u; let packed ← item.pack pf now
                some (msgToKey d.req, packed)) with
      | none => some c
      | some (k, data) => some { c with items := Function.update c.items k (some data) } := by
    intro u
    unfold Cache.set
    cases respToItem res u with
    | none => rfl
    | some item => cases hp : item.pack pf now <;> simp [hp]
  cases huse : p.usesSubnets d with
  | true =>
    simp only [Proxy.usesSubnets, Bool.and_eq_true] at huse
    obtain ⟨s, hs⟩ := Option.isSome_iff_exists.mp huse.2
    simp only [huse.1, hs, Bool.not_true, Bool.false_eq_true, if_false, if_true,
      Option.bind_eq_bind, Option.bind_some]
    cases respSubnet res s with
    | none => rfl
    | some n => rfl
  | false =>
    simp only [Bool.false_eq_true, if_false]
    cases hecs : p.enableEDNSClientSubnet with
    | false => simp only [Bool.not_false, if_true, hset]
    | true =>
      have hnone : d.reqECS = none := by simpa [Proxy.usesSubnets, hecs] using huse
      simp only [hnone, Bool.not_true, Bool.false_eq_true, if_false, hset]

/-! ## Concrete inputs -/

/-- Servers that answer by `f` at once and in order. -/
def answering (f : Upstream → Msg → Option Msg) : Exchanges where
  outcome u m := .ok (f u m)
  arrival := id
  arrival_perm _ := .refl _
  draws := id
  draws_perm _ := .refl _
  pinged := none
  measured _ := (none, 0)

def answeringEnv (f : Upstream → Msg → Option Msg) : UpstreamEnv :=
  ⟨answering f, answering f, answering f, 0⟩

/-- Servers that time out. -/
def timingOut : Exchanges :=
  { answering fun _ _ => none with outcome := fun _ _ => .error (.text "i/o timeout") }

def plainConfig (ups : List Upstream) : UpstreamConfig := ⟨[], [], [], ups⟩

def exampleUpstream : Upstream := ⟨0, [57, 46, 57, 46, 57, 46, 57]⟩

/-- A proxy with one upstream and a cache. -/
def exampleProxy : Proxy where
  upstreamConf := plainConfig [exampleUpstream]
  privateRDNSUpstreamConfig := none
  fallbacks := none
  privateNets _ := false
  usePrivateRDNS := false
  dns64Prefs := []
  bogusNXDomain := []
  upstreamMode := .loadBalance
  enableEDNSClientSubnet := false
  ednsAddr := none
  dnsSecEnabled := false
  refuseAny := false
  cacheEnabled := true
  cacheMinTTL := 0
  cacheMaxTTL := 0

/-- The context of a query over UDP. -/
def udpContext (req : Msg) : DNSContext := { addr := [192, 0, 2, 7], proto := .udp, req := req }

end DnsProxy
