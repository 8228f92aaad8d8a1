import DnsProxy.Dns64
import DnsProxy.Lib.Checked
import Mathlib.Data.List.Dedup
import Mathlib.Data.List.Sort

/-!
# The configuration of private upstreams

`New` up to the proxy it returns, with the validation of the upstreams for private addresses:
each domain that has upstreams of its own must be a reversed address or subnet that is private,
or the root of a reverse zone.

What is private is said by `PrivateSubnets`, or by the default set if it is nil. `New` puts the
default into the proxy, but hands the configured value to the validation, which calls a method
of it. For a nil value this is a panic.

* `checkDomains_panic`, `checkDomains_ok`: the loop over the domains.
* `newProxy_safe_iff`: when `New` returns.
* `validatesByRouting_iff`: when the domains of a proxy are the ones it routes by.
-/

namespace DnsProxy

open Checked

/-! ## Validation -/

namespace UpstreamConfig

inductive Fault
  | noValue
  | noUpstreams
  | noDefault
deriving DecidableEq, Repr

/-- `UpstreamConfig.validate`, for a configuration that may be nil. -/
def validate : Option UpstreamConfig → Option Fault
  | none => some .noValue
  | some uc =>
    if 0 < uc.upstreams.length then none
    else if uc.domainReservedUpstreams.length = 0 ∧ uc.specifiedDomainUpstreams.length = 0 then
      some .noUpstreams
    else some .noDefault

/-- The keys of the map of reserved domains, sorted. -/
def reservedDomains (uc : UpstreamConfig) : List Bytes :=
  (uc.domainReservedUpstreams.map Prod.fst).dedup.insertionSort (· ≤ ·)

end UpstreamConfig

inductive DomainFault
  | notReversed (domain : Bytes)
  | notPrivate (domain : Bytes)
deriving DecidableEq, Repr

inductive PrivateFault
  | config (f : UpstreamConfig.Fault)
  | domains (fs : List DomainFault)
deriving DecidableEq, Repr

/-- A `netutil.SubnetSet`, which may be nil. -/
abbrev SubnetSet := Option (Addr → Bool)

/-- The method `Contains`. -/
def SubnetSet.contains (s : SubnetSet) (ip : Addr) : Result PrivateFault Bool :=
  match s with
  | none => .panic
  | some set => .ok (set ip)

section Validate

variable (pf : Platform)

/-- The loop of `ValidatePrivateConfig`, with the errors that it collects. -/
def checkDomains (privateSubnets : SubnetSet) :
    List Bytes → Result PrivateFault (List DomainFault)
  | [] => .ok []
  | domain :: rest =>
    match pf.extractReversedAddr domain with
    | none => do
      let errs ← checkDomains privateSubnets rest
      return .notReversed domain :: errs
    | some pref =>
      if pref.bits = 0 then checkDomains privateSubnets rest
      else do
        let isPrivate ← privateSubnets.contains pref.addr
        let errs ← checkDomains privateSubnets rest
        return if isPrivate then errs else .notPrivate domain :: errs

def validatePrivateConfig (uc : Option UpstreamConfig) (privateSubnets : SubnetSet) :
    Result PrivateFault Unit :=
  match UpstreamConfig.validate uc with
  | some f => .error (.config f)
  | none => do
    let errs ← checkDomains pf privateSubnets (uc.elim [] (·.reservedDomains))
    if errs = [] then .ok () else .error (.domains errs)

end Validate

/-! ## `New` -/

/-- The part of `Config` that decides whether `New` succeeds. -/
structure ProxyConfig where
  hasRequestHandler : Bool
  upstreamConfig : Option UpstreamConfig
  privateRDNSUpstreamConfig : Option UpstreamConfig
  fallbacks : Option UpstreamConfig
  privateSubnets : SubnetSet
  usePrivateRDNS : Bool
  upstreamMode : String
  /-- Whether the HTTP configuration has a `Userinfo`, and the number of its addresses. -/
  httpConf : Option (Bool × Nat)
  /-- Whether the middleware returns a handler. -/
  requestMiddleware : Option Bool
  useDNS64 : Bool
  dns64Prefs : List ConfPrefix

inductive NewFault
  | general (f : UpstreamConfig.Fault)
  | privateRDNS (f : PrivateFault)
  | fallbacks
  | upstreamMode (mode : String)
  | basicAuth
  | middleware
  | dns64 (e : Dns64Refusal)

/-- The part of the proxy that is of interest here. -/
structure Created where
  privateNets : Addr → Bool
  dns64Prefs : List Prefix

namespace ProxyConfig

variable (pf : Platform) (isLocallyServed : Addr → Bool) (c : ProxyConfig)

def checkGeneral : Result NewFault Unit :=
  if c.hasRequestHandler = false ∨ c.upstreamConfig ≠ none then
    match UpstreamConfig.validate c.upstreamConfig with
    | some f => .error (.general f)
    | none => .ok ()
  else .ok ()

/-- Errors of an upstream configuration that is not used are passed over, unless it is empty. -/
def checkPrivate : Result NewFault Unit :=
  match validatePrivateConfig pf c.privateRDNSUpstreamConfig c.privateSubnets with
  | .panic => .panic
  | .ok () => .ok ()
  | .error f =>
    if c.usePrivateRDNS = true ∨ f = .config .noUpstreams then .error (.privateRDNS f) else .ok ()

/-- The other checks of `validateConfig`. -/
def checkRest : Result NewFault Unit :=
  if UpstreamConfig.validate c.fallbacks = some .noUpstreams then .error .fallbacks
  else if c.upstreamMode ∉ ["", "fastest_addr", "load_balance", "parallel"] then
    .error (.upstreamMode c.upstreamMode)
  else
    match c.httpConf with
    | some (true, 0) => .error .basicAuth
    | _ => .ok ()

def validateConfig : Result NewFault Unit := do
  c.checkGeneral
  c.checkPrivate pf
  c.checkRest

/-- The end of `New`, after the configuration has been validated. -/
def create : Result NewFault Created :=
  if c.requestMiddleware = some false then .error .middleware
  else
    match setupDNS64 c.useDNS64 c.dns64Prefs with
    | .error e => .error (.dns64 e)
    | .ok prefs => .ok ⟨c.privateSubnets.getD isLocallyServed, prefs⟩

/-- `New`. -/
def newProxy : Result NewFault Created := do
  c.validateConfig pf
  c.create isLocallyServed

end ProxyConfig

/-! ## The loop over the domains -/

section Domains

variable {pf : Platform} {privateSubnets : SubnetSet} {domains : List Bytes}

theorem checkDomains_safe (set : Addr → Bool) (domains : List Bytes) :
    (checkDomains pf (some set) domains).Safe := by
  induction domains with
  | nil => exact Result.safe_ok _
  | cons d rest ih =>
    unfold checkDomains
    split
    · exact ih.bind fun _ => Result.safe_ok _
    · split
      · exact ih
      · exact (Result.safe_ok _).bind fun _ => ih.bind fun _ => Result.safe_ok _

/-- A domain that makes the loop look into the set. -/
def IsSubnet (pf : Platform) (d : Bytes) : Prop :=
  ∃ pref, pf.extractReversedAddr d = some pref ∧ pref.bits ≠ 0

theorem checkDomains_nil :
    checkDomains pf none domains = .panic ↔ ∃ d ∈ domains, IsSubnet pf d := by
  induction domains with
  | nil => exact iff_of_false nofun nofun
  | cons d rest ih =>
    simp only [List.mem_cons, exists_eq_or_imp, ← ih]
    rw [checkDomains]
    split
    · next hnone =>
      have hd : ¬IsSubnet pf d := by
        rintro ⟨pref, hpref, -⟩
        cases hnone.symm.trans hpref
      simp [Result.bind_eq_panic, hd]
    · next pref hpref =>
      split
      · next hroot =>
        have hd : ¬IsSubnet pf d := by
          rintro ⟨pref', hpref', hbits⟩
          cases hpref.symm.trans hpref'
          exact hbits hroot
        simp [hd]
      · next hbits => exact iff_of_true rfl (.inl ⟨pref, hpref, hbits⟩)

/-- The loop panics at a subnet if there is no set to look it up in. -/
theorem checkDomains_panic : checkDomains pf privateSubnets domains = .panic ↔
    privateSubnets = none ∧ ∃ d ∈ domains, IsSubnet pf d := by
  cases privateSubnets with
  | none => simp [checkDomains_nil]
  | some set => exact iff_of_false (checkDomains_safe set domains) nofun

/-- Without errors, every domain is a root or a private subnet. -/
theorem checkDomains_ok (h : checkDomains pf privateSubnets domains = .ok []) :
    ∀ d ∈ domains, ∃ pref, pf.extractReversedAddr d = some pref ∧
      (pref.bits = 0 ∨ ∃ set, privateSubnets = some set ∧ set pref.addr = true) := by
  induction domains with
  | nil => exact nofun
  | cons d rest ih =>
    unfold checkDomains at h
    split at h
    · obtain ⟨errs, -, herrs⟩ := Result.bind_eq_ok.mp h
      cases herrs
    · next pref hpref =>
      split at h
      · next hroot => exact List.forall_mem_cons.mpr ⟨⟨pref, hpref, .inl hroot⟩, ih h⟩
      · obtain ⟨isPrivate, hcontains, h⟩ := Result.bind_eq_ok.mp h
        obtain ⟨errs, hrest, herrs⟩ := Result.bind_eq_ok.mp h
        cases isPrivate with
        | false => cases herrs
        | true =>
          obtain rfl : errs = [] := Result.ok.inj herrs
          refine List.forall_mem_cons.mpr ⟨⟨pref, hpref, .inr ?_⟩, ih hrest⟩
          cases privateSubnets with
          | none => cases hcontains
          | some set => exact ⟨set, rfl, Result.ok.inj hcontains⟩

end Domains

theorem UpstreamConfig.mem_reservedDomains {uc : UpstreamConfig} {d : Bytes} :
    d ∈ uc.reservedDomains ↔ d ∈ uc.domainReservedUpstreams.map Prod.fst := by
  rw [reservedDomains, List.mem_insertionSort, List.mem_dedup]

theorem UpstreamConfig.validate_eq_none {o : Option UpstreamConfig} :
    validate o = none ↔ ∃ uc, o = some uc ∧ uc.upstreams ≠ [] := by
  cases o with
  | none => simp [validate]
  | some uc =>
    rw [validate]
    split
    · next h => simpa using List.length_pos_iff.mp h
    · next h =>
      have hnil : uc.upstreams = [] := by simpa using h
      split <;> simp [hnil]

/-! ## When `New` returns -/

section New

variable {pf : Platform} {isLocallyServed : Addr → Bool} {c : ProxyConfig}

theorem validatePrivateConfig_panic {uc : Option UpstreamConfig} {s : SubnetSet} :
    validatePrivateConfig pf uc s = .panic ↔
      s = none ∧ ∃ conf, uc = some conf ∧ conf.upstreams ≠ [] ∧
        ∃ d ∈ conf.domainReservedUpstreams.map Prod.fst, IsSubnet pf d := by
  unfold validatePrivateConfig
  split
  · next f hf =>
    refine iff_of_false nofun ?_
    rintro ⟨-, conf, rfl, hne, -⟩
    cases hf.symm.trans (UpstreamConfig.validate_eq_none.mpr ⟨conf, rfl, hne⟩)
  · next hvalid =>
    obtain ⟨conf, rfl, hne⟩ := UpstreamConfig.validate_eq_none.mp hvalid
    have hend (errs : List DomainFault) :
        (if errs = [] then Result.ok () else .error (PrivateFault.domains errs)).Safe := by
      split
      · exact Result.safe_ok _
      · exact Result.safe_error _
    have hpanic : checkDomains pf s conf.reservedDomains = .panic ↔
        s = none ∧ ∃ d ∈ conf.domainReservedUpstreams.map Prod.fst, IsSubnet pf d := by
      simp only [checkDomains_panic, UpstreamConfig.mem_reservedDomains]
    rw [Result.bind_eq_panic]
    constructor
    · rintro (hloop | ⟨errs, -, herrs⟩)
      · obtain ⟨hs, hsubnet⟩ := hpanic.mp hloop
        exact ⟨hs, conf, rfl, hne, hsubnet⟩
      · exact absurd herrs (hend errs)
    · rintro ⟨hs, _, ⟨⟩, -, hsubnet⟩
      exact .inl (hpanic.mpr ⟨hs, hsubnet⟩)

theorem validatePrivateConfig_ok {uc : UpstreamConfig} {s : SubnetSet}
    (h : validatePrivateConfig pf (some uc) s = .ok ()) :
    ∀ d ∈ uc.domainReservedUpstreams.map Prod.fst, ∃ pref, pf.extractReversedAddr d = some pref ∧
      (pref.bits = 0 ∨ ∃ set, s = some set ∧ set pref.addr = true) := by
  unfold validatePrivateConfig at h
  split at h
  · cases h
  · obtain ⟨errs, hloop, herrs⟩ := Result.bind_eq_ok.mp h
    split at herrs
    · next hnil =>
      subst hnil
      exact fun d hd => checkDomains_ok hloop d (UpstreamConfig.mem_reservedDomains.mpr hd)
    · cases herrs

/-- The general upstreams are there, or are not needed. -/
def ProxyConfig.GeneralOk (c : ProxyConfig) : Prop :=
  (c.hasRequestHandler = true ∧ c.upstreamConfig = none) ∨
    ∃ uc, c.upstreamConfig = some uc ∧ uc.upstreams ≠ []

namespace ProxyConfig

theorem checkGeneral_safe (c : ProxyConfig) : c.checkGeneral.Safe := by
  unfold checkGeneral
  split
  · split
    · exact Result.safe_error _
    · exact Result.safe_ok _
  · exact Result.safe_ok _

theorem checkGeneral_ok : c.checkGeneral = .ok () ↔ c.GeneralOk := by
  unfold checkGeneral GeneralOk
  rw [← UpstreamConfig.validate_eq_none]
  split
  · next hneeded =>
    have hnot : ¬(c.hasRequestHandler = true ∧ c.upstreamConfig = none) := by
      rintro ⟨hhandler, hnone⟩
      rcases hneeded with h | h
      · cases hhandler.symm.trans h
      · exact h hnone
    split
    · next f hf => simp [hf, hnot]
    · next hvalid => exact iff_of_true rfl (.inr hvalid)
  · next hneeded =>
    refine iff_of_true rfl (.inl ?_)
    simpa using hneeded

theorem checkRest_safe (c : ProxyConfig) : c.checkRest.Safe := by
  unfold checkRest
  split
  · exact Result.safe_error _
  · split
    · exact Result.safe_error _
    · split
      · exact Result.safe_error _
      · exact Result.safe_ok _

theorem create_safe (isLocallyServed : Addr → Bool) (c : ProxyConfig) :
    (c.create isLocallyServed).Safe := by
  unfold create
  split
  · exact Result.safe_error _
  · split
    · exact Result.safe_error _
    · exact Result.safe_ok _

theorem create_privateNets {p : Created} (h : c.create isLocallyServed = .ok p) :
    p.privateNets = c.privateSubnets.getD isLocallyServed := by
  unfold create at h
  split at h
  · cases h
  · split at h
    · cases h
    · cases h
      rfl

theorem checkPrivate_panic : c.checkPrivate pf = .panic ↔
    validatePrivateConfig pf c.privateRDNSUpstreamConfig c.privateSubnets = .panic := by
  unfold checkPrivate
  cases validatePrivateConfig pf c.privateRDNSUpstreamConfig c.privateSubnets with
  | panic => exact iff_of_true rfl rfl
  | ok => exact iff_of_false nofun nofun
  | error f =>
    refine iff_of_false ?_ nofun
    dsimp only
    split <;> exact nofun

theorem checkPrivate_ok (huse : c.usePrivateRDNS = true) (h : c.checkPrivate pf = .ok ()) :
    validatePrivateConfig pf c.privateRDNSUpstreamConfig c.privateSubnets = .ok () := by
  unfold checkPrivate at h
  split at h
  · cases h
  · next hok => exact hok
  · rw [if_pos (.inl huse)] at h
    cases h

/-- The validation comes to a reserved subnet without a set of private ones. -/
structure MissesSubnets (pf : Platform) (c : ProxyConfig) : Prop where
  general : c.GeneralOk
  subnets : c.privateSubnets = none
  reserved : ∃ uc, c.privateRDNSUpstreamConfig = some uc ∧ uc.upstreams ≠ [] ∧
    ∃ d ∈ uc.domainReservedUpstreams.map Prod.fst, IsSubnet pf d

/-- `New` panics in the validation of the private upstreams, and nowhere else. -/
theorem newProxy_safe_iff : (c.newProxy pf isLocallyServed).Safe ↔ ¬c.MissesSubnets pf := by
  refine not_congr ?_
  have hprivate : c.checkPrivate pf = .panic ↔ c.privateSubnets = none ∧
      ∃ uc, c.privateRDNSUpstreamConfig = some uc ∧ uc.upstreams ≠ [] ∧
        ∃ d ∈ uc.domainReservedUpstreams.map Prod.fst, IsSubnet pf d :=
    checkPrivate_panic.trans validatePrivateConfig_panic
  constructor
  · intro hpanic
    rcases Result.bind_eq_panic.mp hpanic with hvalidate | ⟨_, -, hcreate⟩
    · rcases Result.bind_eq_panic.mp hvalidate with hgeneral | ⟨_, hgeneral, hrest⟩
      · exact absurd hgeneral (checkGeneral_safe c)
      · rcases Result.bind_eq_panic.mp hrest with hpriv | ⟨_, -, hrest⟩
        · obtain ⟨hsubnets, hreserved⟩ := hprivate.mp hpriv
          exact ⟨checkGeneral_ok.mp hgeneral, hsubnets, hreserved⟩
        · exact absurd hrest (checkRest_safe c)
    · exact absurd hcreate (create_safe isLocallyServed c)
  · rintro ⟨hgeneral, hsubnets, hreserved⟩
    rw [newProxy, validateConfig, checkGeneral_ok.mpr hgeneral,
      hprivate.mpr ⟨hsubnets, hreserved⟩]
    rfl

/-- The reserved domains of a new proxy are roots of reverse zones or in the private networks
that it routes by. -/
theorem newProxy_private (huse : c.usePrivateRDNS = true) {p : Created}
    (h : c.newProxy pf isLocallyServed = .ok p) {uc : UpstreamConfig}
    (huc : c.privateRDNSUpstreamConfig = some uc) :
    ∀ d ∈ uc.domainReservedUpstreams.map Prod.fst, ∃ pref,
      pf.extractReversedAddr d = some pref ∧ (pref.bits = 0 ∨ p.privateNets pref.addr = true) := by
  obtain ⟨_, hvalidate, hcreate⟩ := Result.bind_eq_ok.mp h
  obtain ⟨_, -, hrest⟩ := Result.bind_eq_ok.mp hvalidate
  obtain ⟨_, hprivate, -⟩ := Result.bind_eq_ok.mp hrest
  have hok := checkPrivate_ok huse hprivate
  rw [huc] at hok
  intro d hd
  obtain ⟨pref, hpref, hcase⟩ := validatePrivateConfig_ok hok d hd
  refine ⟨pref, hpref, hcase.imp_right ?_⟩
  rintro ⟨set, hset, hcontains⟩
  rw [create_privateNets hcreate, hset]
  exact hcontains

/-- `New` does not panic, and the domains of a proxy that it returns are private by the networks
that the proxy routes by. -/
structure ValidatesByRouting (pf : Platform) (isLocallyServed : Addr → Bool) (c : ProxyConfig) :
    Prop where
  safe : (c.newProxy pf isLocallyServed).Safe
  routed : ∀ p, c.newProxy pf isLocallyServed = .ok p →
    ∀ uc, c.privateRDNSUpstreamConfig = some uc →
      ∀ d ∈ uc.domainReservedUpstreams.map Prod.fst, ∃ pref,
        pf.extractReversedAddr d = some pref ∧ (pref.bits = 0 ∨ p.privateNets pref.addr = true)

end ProxyConfig

end New

/-- The private upstreams are validated by the networks that the proxy routes by, just if the
validation does not come to a subnet without a configured set. -/
theorem validatesByRouting_iff (pf : Platform) (isLocallyServed : Addr → Bool) (c : ProxyConfig)
    (huse : c.usePrivateRDNS = true) :
    c.ValidatesByRouting pf isLocallyServed ↔ ¬c.MissesSubnets pf := by
  constructor
  · exact fun h => ProxyConfig.newProxy_safe_iff.mp h.safe
  · intro h
    refine ⟨ProxyConfig.newProxy_safe_iff.mpr h, fun p hp uc huc => ?_⟩
    exact ProxyConfig.newProxy_private huse hp huc

/-! ## A private zone -/

def privateZone : Bytes := ascii "1.168.192.in-addr.arpa."

/-- A platform that knows the zone of 192.168.1.0/24. -/
def zonePlatform : Platform :=
  { examplePlatform with
    extractReversedAddr := fun d => if d = privateZone then some ⟨[192, 168, 1, 0], 24⟩ else none }

def localUpstream : Upstream := ⟨1, ascii "192.168.1.1"⟩

/-- The default set, as far as it matters here. -/
def locallyServed (ip : Addr) : Bool := ip.take 2 == [192, 168]

/-- Private upstreams with a zone of their own. -/
def zoneConfig (privateSubnets : SubnetSet) : ProxyConfig where
  hasRequestHandler := false
  upstreamConfig := some ⟨[], [], [], [⟨0, ascii "192.0.2.53"⟩]⟩
  privateRDNSUpstreamConfig := some ⟨[(privateZone, [localUpstream])], [], [], [localUpstream]⟩
  fallbacks := none
  privateSubnets := privateSubnets
  usePrivateRDNS := true
  upstreamMode := ""
  httpConf := none
  requestMiddleware := none
  useDNS64 := false
  dns64Prefs := []

theorem validatesByRouting_with_subnets :
    (zoneConfig (some locallyServed)).usePrivateRDNS = true ∧
      (zoneConfig (some locallyServed)).ValidatesByRouting zonePlatform locallyServed :=
  ⟨rfl, (validatesByRouting_iff zonePlatform locallyServed _ rfl).mpr fun h =>
    absurd h.subnets nofun⟩

/-- With the default set `New` panics on a zone that the same set accepts when it is configured. -/
theorem default_subnets_panic :
    (zoneConfig none).newProxy zonePlatform locallyServed = .panic ∧
      ((zoneConfig (some locallyServed)).newProxy zonePlatform locallyServed).Safe ∧
      ¬(zoneConfig none).ValidatesByRouting zonePlatform locallyServed := by
  have hpanic : (zoneConfig none).newProxy zonePlatform locallyServed = .panic := by
    have hzone : zonePlatform.extractReversedAddr privateZone = some ⟨[192, 168, 1, 0], 24⟩ := by
      decide +kernel
    have hmisses : (zoneConfig none).MissesSubnets zonePlatform :=
      ⟨.inr ⟨_, rfl, List.cons_ne_nil _ _⟩, rfl, _, rfl, List.cons_ne_nil _ _, privateZone,
        List.mem_singleton_self _, _, hzone, nofun⟩
    exact not_not.mp (mt ProxyConfig.newProxy_safe_iff.mp (not_not.mpr hmisses))
  refine ⟨hpanic, ProxyConfig.newProxy_safe_iff.mpr fun h => absurd h.subnets nofun, fun h => ?_⟩
  exact h.safe hpanic

end DnsProxy
