import DnsProxy.Discipline

/-!
# Isolation of configurations and of private upstreams

What keeps the responses of one configuration, and of the private upstreams, away
from the calls they are not for. Each result is about every run of the system and
comes from a discipline.

* `response_own_configuration`: a call gets responses of its own configuration, in
  the runs in which no call joins one of another configuration; the pending key does
  not hold the configuration, so that others do (`response_other_configuration`).
* `private_response_private_client`: only private clients get responses of private
  upstreams, in the runs in which the cache does not work for the PTR questions that
  DNS64 sends there; the cache works for them (`private_response_leaked`).
* `private_question_private_upstreams`: questions about private addresses are sent to
  private upstreams only.
-/

namespace DnsProxy

namespace System

variable {pf : Platform} {p : Proxy}

/-! ## Selection -/

/-- The request is for the private upstreams. -/
def RoutedPrivately (pf : Platform) (p : Proxy) (d : DNSContext) : Prop :=
  d.requestedPrivateRDNS ≠ none ∨ shouldStripDNS64 pf p.dns64Prefs d.req = true

theorem selectUpstreams_private (d : DNSContext) :
    (p.selectUpstreams pf d).2 = true ↔ RoutedPrivately pf p d := by
  unfold Proxy.selectUpstreams RoutedPrivately
  simp only
  split
  · next h =>
    refine ⟨fun _ => h, fun _ => ?_⟩
    split
    · split <;> rfl
    · rfl
  · next h =>
    refine ⟨fun h' => ?_, fun h' => absurd h' h⟩
    cases hc : d.customUpstreamConfig with
    | none =>
      rw [hc] at h'
      cases h'
    | some custom =>
      simp only [hc, apply_ite Prod.snd, ite_self] at h'
      cases h'

theorem mayAsk_private {d : DNSContext} {u : Upstream} (h : RoutedPrivately pf p d)
    (hu : p.MayAsk pf d u) : p.usePrivateRDNS = true ∧ d.isPrivateClient = true ∧
      ∃ priv, p.privateRDNSUpstreamConfig = some priv ∧
        u ∈ priv.getUpstreamsForDomain d.req.firstQuestion.name := by
  have hu : u ∈ (p.selectUpstreams pf d).1 := by
    rcases hu with hu | ⟨hf, _⟩
    · exact hu
    · rw [(selectUpstreams_private d).mpr h] at hf
      cases hf
  unfold Proxy.selectUpstreams at hu
  simp only at hu
  rw [if_pos (show d.requestedPrivateRDNS ≠ none ∨ _ from h)] at hu
  split at hu
  · next priv hpriv =>
    split at hu
    · next huse =>
      rw [Bool.and_eq_true] at huse
      exact ⟨huse.1, huse.2, priv, hpriv, hu⟩
    · cases hu
  · cases hu

theorem tagOf_spec {d : DNSContext} {env : UpstreamEnv} {o : Origin}
    (h : tagOf pf p d (p.replyFromUpstream pf env d) = some o) :
    o.cfg = d.customUpstreamConfig ∧ o.isPrivate = (p.selectUpstreams pf d).2 ∧
      p.MayAsk pf d o.u := by
  obtain ⟨u, hu, rfl⟩ := Option.map_eq_some_iff.mp h
  exact ⟨rfl, rfl, ((replyFromUpstream_spec pf p env d).source u hu).1⟩

theorem cacheForContext_eq {d : DNSContext}
    (h : ∀ c, d.customUpstreamConfig = some c → c.hasCache = true) :
    cacheForContext d = d.customUpstreamConfig := by
  unfold cacheForContext
  split
  · next c hc => rw [hc, if_pos (h c hc)]
  · next hc => rw [hc]

/-! ## Configurations -/

/-- A server that can be asked for a request with this custom configuration. -/
def Selectable (pf : Platform) (p : Proxy) (cfg : Option CustomUpstreamConfig) (u : Upstream) :
    Prop :=
  ∃ d : DNSContext, d.customUpstreamConfig = cfg ∧ p.MayAsk pf d u

/-- A response for a configuration. -/
def OwnTag (pf : Platform) (p : Proxy) (cfg : Option CustomUpstreamConfig) (tag : Tag) : Prop :=
  ∀ o, tag = some o → o.cfg = cfg ∧ Selectable pf p cfg o.u

theorem ownTag_tagOf (d : DNSContext) (env : UpstreamEnv) :
    OwnTag pf p d.customUpstreamConfig (tagOf pf p d (p.replyFromUpstream pf env d)) := by
  intro o ho
  obtain ⟨hcfg, _, hask⟩ := tagOf_spec ho
  exact ⟨hcfg, d, rfl, hask⟩

/-- Calls, caches and refreshes with the responses of their own configuration. -/
def ownConfiguration (pf : Platform) (p : Proxy) : Discipline pf p where
  Start _ works d := works = true → cacheForContext d = d.customUpstreamConfig
  Hold _ d tag := OwnTag pf p d.customUpstreamConfig tag
  Keep i tag := OwnTag pf p i tag
  Renew _ d := cacheForContext d = d.customUpstreamConfig
  Join d' d := d'.customUpstreamConfig = d.customUpstreamConfig
  Ask _ _ := True
  keep_none _ _ h := nomatch h
  hit _ d tag hd htag := by rwa [hd rfl] at htag
  exchange _ _ d env _ := ownTag_tagOf d env
  keep _ d tag hd htag := by rwa [hd rfl]
  renew _ d hd := hd rfl
  renew_keep _ d env hd := by rw [hd]; exact ownTag_tagOf d env
  follow d' d tag hj htag := hj ▸ htag
  ask _ _ _ _ _ _ := trivial
  renew_ask _ _ _ _ _ := trivial

/-- A call that the action starts joins only a call with its own custom
configuration. -/
def JoinsOwn (pf : Platform) (p : Proxy) (s : State) (a : Action) : Prop :=
  ∀ d' d₁, Joins pf p s a d' d₁ → d'.customUpstreamConfig = d₁.customUpstreamConfig

/-- In a run in which calls join only calls with their own custom configuration, every
response that a call returns was produced for its configuration, by a server that can
be selected for it. -/
theorem response_own_configuration {conf : SharedConfig} {rd : RecursionDetector} {s : State}
    (h : Reach pf p (init p conf rd) (JoinsOwn pf p) s)
    {c : Nat} {r : Result} (hr : s.result? c = some r) {o : Origin} (ho : r.tag = some o) :
    o.cfg = r.d.customUpstreamConfig ∧ Selectable pf p r.d.customUpstreamConfig o.u := by
  have hinv : (ownConfiguration pf p).Inv s := by
    refine inv_reach (fun s a hjoin => ?_) h
    refine (ownConfiguration pf p).allows_of (fun c d d₁ works _ hprep hw => ?_) hjoin
    exact cacheForContext_eq ((prepare_spec hprep).2 hw).2
  obtain ⟨_, hhold⟩ := result_hold hinv hr
  exact hhold o ho

def noRecursion : RecursionDetector := ⟨fun _ => none, second⟩

def customUpstream : Upstream := ⟨1, [49, 46, 49, 46, 49, 46, 49]⟩

/-- A custom configuration with one upstream and a cache. -/
def customConfig : CustomUpstreamConfig := ⟨1, plainConfig [customUpstream], true⟩

/-- The steps of a call that asks its upstreams and finishes. -/
def soloSteps (c : Nat) (env : UpstreamEnv) (now : Instant) : List Action :=
  [.lookup c now, .exchange c env now, .store c now, .load c, .fill c, .delete c, .close c]

def exampleEnv : UpstreamEnv := answeringEnv fun _ _ => some exampleAnswer

/-- A call with a custom configuration, joined by one without. -/
def customRun : List Action :=
  [.resolve 0 { udpContext exampleQuery with customUpstreamConfig := some customConfig },
    .resolve 1 (udpContext { exampleQuery with id := 7 })] ++
  soloSteps 0 exampleEnv .epoch ++ [.wake 1]

theorem plainConfig_domain (ups : List Upstream) (host : Bytes) :
    (plainConfig ups).getUpstreamsForDomain host = ups := rfl

theorem plainConfig_ds (ups : List Upstream) (host : Bytes) :
    (plainConfig ups).getUpstreamsForDS host = ups := by
  unfold UpstreamConfig.getUpstreamsForDS
  simp only [plainConfig_domain]
  exact ite_self _

theorem selectable_exampleProxy {u : Upstream} (h : Selectable pf exampleProxy none u) :
    u = exampleUpstream := by
  obtain ⟨d, hd, hu | ⟨_, _, hf, _⟩⟩ := h
  · unfold Proxy.selectUpstreams at hu
    simp only [hd] at hu
    split at hu
    · cases hu
    · rw [show exampleProxy.upstreamConf = plainConfig [exampleUpstream] from rfl,
        plainConfig_domain, plainConfig_ds, ite_self] at hu
      exact List.mem_singleton.mp hu
  · cases hf

theorem reach_alone {s₀ s : State} {a : Action} {as : List Action}
    {allowed : State → Action → Prop}
    (hfree : ∀ s a, (∀ c d, ¬Starts pf p s a c d) → allowed s a) (ha : allowed s₀ a)
    (has : as.all (fun a => !a.isStart) = true) (hr : run pf p s₀ (a :: as) = some s) :
    Reach pf p s₀ allowed s := by
  obtain ⟨t, ht, hrun⟩ := Option.bind_eq_some_iff.mp hr
  refine .of_replay (.step .refl ha ht) (fun a' ha' t _ => hfree t a' ?_) hrun
  have hns := List.all_eq_true.mp has a' ha'
  rintro c' d (rfl | ⟨_, _, rfl, _⟩) <;> cases hns

/-- A call that is alone gets the response of its custom upstream. -/
theorem response_own_configuration_alone : ∃ s r,
    run examplePlatform exampleProxy (init exampleProxy exampleShared noRecursion)
      (.resolve 0 { udpContext exampleQuery with customUpstreamConfig := some customConfig } ::
        soloSteps 0 exampleEnv .epoch) = some s ∧
    s.result? 0 = some r ∧ r.tag = some ⟨some customConfig, false, customUpstream⟩ ∧
    Selectable examplePlatform exampleProxy r.d.customUpstreamConfig customUpstream := by
  obtain ⟨s, hs, hres⟩ := exists_of_any
    (run examplePlatform exampleProxy (init exampleProxy exampleShared noRecursion)
      (.resolve 0 { udpContext exampleQuery with customUpstreamConfig := some customConfig } ::
        soloSteps 0 exampleEnv .epoch))
    (fun s => (s.result? 0).map Result.tag = some (some ⟨some customConfig, false, customUpstream⟩))
    (by decide +kernel)
  obtain ⟨r, hr, htag⟩ := Option.map_eq_some_iff.mp hres
  have hreach : Reach examplePlatform exampleProxy (init exampleProxy exampleShared noRecursion)
      (JoinsOwn examplePlatform exampleProxy) s := by
    refine reach_alone (fun s a hns => ?_) ?_ rfl hs
    · rintro d' d₁ ⟨c, d, _, _, _, hstarts, _⟩
      exact absurd hstarts (hns c d)
    · -- Nothing is stored when the call starts.
      rintro d' d₁ ⟨_, _, _, _, _, _, _, _, hst, _⟩
      cases hst
  exact ⟨s, r, hs, hr, htag, (response_own_configuration hreach hr htag).2⟩

/-- A call without a custom configuration gets the response of another call's custom
upstream. -/
theorem response_other_configuration : ∃ s r,
    Reach examplePlatform exampleProxy (init exampleProxy exampleShared noRecursion)
      (fun _ _ => True) s ∧
    s.result? 1 = some r ∧ r.ctx.res ≠ none ∧ r.d.customUpstreamConfig = none ∧
    r.tag = some ⟨some customConfig, false, customUpstream⟩ ∧
    ¬Selectable examplePlatform exampleProxy none customUpstream := by
  obtain ⟨s, hs, hres⟩ := exists_of_any
    (run examplePlatform exampleProxy (init exampleProxy exampleShared noRecursion) customRun)
    (fun s => (s.result? 1).map (fun r => (r.ctx.res.isSome, r.d.customUpstreamConfig, r.tag)) =
      some (true, none, some ⟨some customConfig, false, customUpstream⟩)) (by decide +kernel)
  obtain ⟨r, hr, heq⟩ := Option.map_eq_some_iff.mp hres
  simp only [Prod.mk.injEq] at heq
  obtain ⟨hsome, hcfg, htag⟩ := heq
  refine ⟨s, r, .of_replay .refl (fun _ _ _ _ => trivial) hs, hr, ?_, hcfg, htag, fun hsel => ?_⟩
  · exact Option.isSome_iff_ne_none.mp hsome
  · exact absurd (selectable_exampleProxy hsel) (by decide)

/-! ## Private responses -/

/-- DNS64 sends this request to the private upstreams, although it is not marked as
private. -/
def LeaksPrivate (pf : Platform) (p : Proxy) (d : DNSContext) : Prop :=
  shouldStripDNS64 pf p.dns64Prefs d.req = true ∧ d.isPrivateClient = true ∧
    p.usePrivateRDNS = true ∧ p.privateRDNSUpstreamConfig ≠ none

theorem leaksPrivate_of_tag {d : DNSContext} {env : UpstreamEnv} {o : Origin}
    (h : tagOf pf p d (p.replyFromUpstream pf env d) = some o) (ho : o.isPrivate = true) :
    d.isPrivateClient = true ∧ (d.requestedPrivateRDNS = none → LeaksPrivate pf p d) := by
  obtain ⟨_, hpriv, hask⟩ := tagOf_spec h
  have hroute := (selectUpstreams_private d).mp (hpriv.symm.trans ho)
  obtain ⟨huse, hclient, priv, hconf, _⟩ := mayAsk_private hroute hask
  refine ⟨hclient, fun hnone => ⟨?_, hclient, huse, by rw [hconf]; exact fun h => nomatch h⟩⟩
  rcases hroute with h | h
  · exact absurd hnone h
  · exact h

/-- Private responses for private clients, and none where the cache works. -/
def privateClients (pf : Platform) (p : Proxy) : Discipline pf p where
  Start _ works d := works = true → d.requestedPrivateRDNS = none ∧ ¬LeaksPrivate pf p d
  Hold works d tag := ∀ o, tag = some o → o.isPrivate = true →
    works = false ∧ d.isPrivateClient = true
  Keep _ tag := ∀ o, tag = some o → o.isPrivate = false
  Renew _ d := d.requestedPrivateRDNS = none ∧ ¬LeaksPrivate pf p d
  Join _ _ := True
  Ask _ _ := True
  keep_none _ _ h := nomatch h
  hit _ _ _ _ hk o ho hpriv := absurd hpriv (by rw [hk o ho]; exact Bool.false_ne_true)
  exchange _ works d env hd o ho hpriv := by
    obtain ⟨hclient, hleak⟩ := leaksPrivate_of_tag ho hpriv
    refine ⟨?_, hclient⟩
    cases works with
    | false => rfl
    | true => exact absurd (hleak (hd rfl).1) (hd rfl).2
  keep _ _ _ _ hh o ho := by
    by_contra hpriv
    rw [Bool.not_eq_false] at hpriv
    cases (hh o ho hpriv).1
  renew _ _ hd := ⟨rfl, (hd rfl).2⟩
  renew_keep _ d env hd o ho := by
    by_contra hpriv
    rw [Bool.not_eq_false] at hpriv
    exact hd.2 ((leaksPrivate_of_tag ho hpriv).2 hd.1)
  follow _ _ _ _ hh o ho hpriv := by cases (hh o ho hpriv).1
  ask _ _ _ _ _ _ := trivial
  renew_ask _ _ _ _ _ := trivial

/-- The cache does not work for a request of a call that the action starts, if DNS64
sends it to the private upstreams. -/
def KeepsPrivate (pf : Platform) (p : Proxy) (s : State) (a : Action) : Prop :=
  ∀ c d d₁, Starts pf p s a c d → p.prepare pf d = (d₁, true) → ¬LeaksPrivate pf p d₁

/-- In a run in which the cache works for no request that DNS64 sends to the private
upstreams, only private clients get responses from there. -/
theorem private_response_private_client {conf : SharedConfig} {rd : RecursionDetector} {s : State}
    (h : Reach pf p (init p conf rd) (KeepsPrivate pf p) s) {c : Nat} {r : Result}
    (hr : s.result? c = some r) {o : Origin} (ho : r.tag = some o) (hpriv : o.isPrivate = true) :
    r.d.isPrivateClient = true := by
  have hinv : (privateClients pf p).Inv s := by
    refine inv_reach (fun s a hkeep => ?_) h
    refine (privateClients pf p).allows_of (fun c d d₁ works hs hprep hw => ?_)
      (fun _ _ _ => trivial)
    subst hw
    exact ⟨((prepare_spec hprep).2 rfl).1, hkeep c d d₁ hs hprep⟩
  obtain ⟨works, hhold⟩ := result_hold hinv hr
  exact (hhold o ho hpriv).2

/-! ### A proxy with DNS64 and a private upstream -/

def privateUpstream : Upstream := ⟨2, [49, 57, 50, 46, 49, 54, 56, 46, 48, 46, 49]⟩

def dns64Proxy : Proxy :=
  { exampleProxy with
    privateRDNSUpstreamConfig := some (plainConfig [privateUpstream])
    privateNets := fun a => a.take 2 == [192, 168]
    usePrivateRDNS := true
    dns64Prefs := [dns64WellKnownPref] }

/-- The digits of 64:ff9b::c000:201, the last one first. -/
def mappedDigits : Bytes :=
  [1, 0, 2, 0, 0, 0, 0, 12] ++ List.replicate 16 0 ++ [11, 9, 15, 15, 4, 6, 0, 0]

/-- The reversed name of 64:ff9b::c000:201. -/
def mappedName : Bytes :=
  (mappedDigits.flatMap fun n => [hexDigit n, 46]) ++ [105, 112, 54, 46, 97, 114, 112, 97, 46]

def mappedWire : Bytes :=
  (mappedDigits.flatMap fun n => [1, hexDigit n]) ++ [3, 105, 112, 54, 4, 97, 114, 112, 97, 0]

def mappedAddr : Addr := [0, 0x64, 0xff, 0x9b, 0, 0, 0, 0, 0, 0, 0, 0, 192, 0, 2, 1]

/-- The reversed name of 192.168.0.7. -/
def localName : Bytes :=
  [55, 46, 48, 46, 49, 54, 56, 46, 49, 57, 50, 46] ++
    [105, 110, 45, 97, 100, 100, 114, 46, 97, 114, 112, 97, 46]

def ptrQuery (name : Bytes) : Msg :=
  { id := 1, recursionDesired := true, question := [⟨name, typePTR, classINET⟩] }

/-- The record data of a PTR record for `nas.lan.`. -/
def nasLan : RData :=
  .other ⟨typePTR, by decide⟩ [3, 110, 97, 115, 3, 108, 97, 110, 0]

def ptrAnswer (name : Bytes) : Msg :=
  { id := 1, response := true, recursionDesired := true, recursionAvailable := true
    question := [⟨name, typePTR, classINET⟩]
    answer := [⟨name, classINET, 60, nasLan⟩] }

/-- The platform that knows the two names and the wire form of the answer about the
first one. -/
def dns64Platform : Platform :=
  { Platform.ofTable [(ptrAnswer mappedName,
      [0, 1, 0x81, 0x80, 0, 1, 0, 1, 0, 0, 0, 0] ++ mappedWire ++ [0, 12, 0, 1] ++
        mappedWire ++ [0, 12, 0, 1, 0, 0, 0, 60, 0, 9, 3, 110, 97, 115, 3, 108, 97, 110, 0])] with
    extractReversedAddr := fun n =>
      if n = mappedName then some ⟨mappedAddr, 128⟩
      else if n = localName then some ⟨[192, 168, 0, 7], 32⟩
      else none
    ipFromReversedAddr := fun n =>
      if n = mappedName then some mappedAddr
      else if n = localName then some [192, 168, 0, 7]
      else none }

def clientContext (addr : Addr) (req : Msg) : DNSContext :=
  { addr := addr, proto := .udp, req := req }

def ptrEnv (name : Bytes) : UpstreamEnv := answeringEnv fun _ _ => some (ptrAnswer name)

/-- A private client asks about a private address. -/
def localRun : List Action :=
  [.exchange 0 (ptrEnv localName) .epoch, .store 0 .epoch]

theorem asksPrivate_local : dns64Proxy.AsksPrivate dns64Platform (ptrQuery localName) :=
  ⟨.inl rfl, ⟨[192, 168, 0, 7], 32⟩, by decide +kernel, rfl⟩

theorem private_response_marked : ∃ s r,
    run dns64Platform dns64Proxy (init dns64Proxy exampleShared noRecursion)
      (.serve 0 (clientContext [192, 168, 0, 2] (ptrQuery localName)) .epoch :: localRun) =
        some s ∧
    s.result? 0 = some r ∧ r.tag = some ⟨none, true, privateUpstream⟩ ∧
    r.d.isPrivateClient = true := by
  obtain ⟨s, hs, hres⟩ := exists_of_any
    (run dns64Platform dns64Proxy (init dns64Proxy exampleShared noRecursion)
      (.serve 0 (clientContext [192, 168, 0, 2] (ptrQuery localName)) .epoch :: localRun))
    (fun s => (s.result? 0).map Result.tag = some (some ⟨none, true, privateUpstream⟩))
    (by decide +kernel)
  obtain ⟨r, hr, htag⟩ := Option.map_eq_some_iff.mp hres
  have hreach : Reach dns64Platform dns64Proxy (init dns64Proxy exampleShared noRecursion)
      (KeepsPrivate dns64Platform dns64Proxy) s := by
    refine reach_alone (fun s a hns c d _ hstarts => absurd hstarts (hns c d)) ?_ rfl hs
    -- The request is marked, so that the cache does not work for it.
    rintro c d d₁ (heq | ⟨_, _, heq, hhandled⟩) hprep
    · cases heq
    · cases heq
      obtain ⟨hprepared, hnone⟩ := prepare_spec hprep
      have hmark := (processDNSRequest_handled hhandled).2.1 asksPrivate_local
      exact absurd (hprepared.requestedPrivateRDNS.symm.trans (hnone rfl).1) hmark
  exact ⟨s, r, hs, hr, htag, private_response_private_client hreach hr htag rfl⟩

/-- A private client asks about an address of the DNS64 prefix, and later a public
client asks the same. -/
def leakRun : List Action :=
  .serve 0 (clientContext [192, 168, 0, 2] (ptrQuery mappedName)) .epoch ::
    soloSteps 0 (ptrEnv mappedName) .epoch ++
  [.serve 1 (clientContext [203, 0, 113, 9] (ptrQuery mappedName)) .oneSecond,
    .lookup 1 .oneSecond, .load 1, .fill 1, .delete 1, .close 1]

/-- The public client gets the response of the private upstream from the cache. -/
theorem private_response_leaked : ∃ s r,
    Reach dns64Platform dns64Proxy (init dns64Proxy exampleShared noRecursion) (fun _ _ => True) s ∧
    s.result? 1 = some r ∧ r.d.isPrivateClient = false ∧
    r.ctx.res.map (fun m => m.answer.map RR.rdata) = some [nasLan] ∧
    r.tag = some ⟨none, true, privateUpstream⟩ := by
  obtain ⟨s, hs, hres⟩ := exists_of_any
    (run dns64Platform dns64Proxy (init dns64Proxy exampleShared noRecursion) leakRun)
    (fun s => (s.result? 1).map (fun r =>
      (r.d.isPrivateClient, r.ctx.res.map (fun m => m.answer.map RR.rdata), r.tag)) =
        some (false, some [nasLan], some ⟨none, true, privateUpstream⟩)) (by decide +kernel)
  obtain ⟨r, hr, heq⟩ := Option.map_eq_some_iff.mp hres
  simp only [Prod.mk.injEq] at heq
  exact ⟨s, r, .of_replay .refl (fun _ _ _ _ => trivial) hs, hr, heq⟩

/-! ## Private questions -/

/-- With DNS64 enabled, a PTR question about an address in its prefixes or in the
well-known one. -/
def AsksDNS64 (pf : Platform) (p : Proxy) (req : Msg) : Prop :=
  p.dns64Prefs ≠ [] ∧ req.firstQuestion.qtype = typePTR ∧
    ∃ ip, pf.ipFromReversedAddr req.firstQuestion.name = some ip ∧
      (subnetsContain p.dns64Prefs ip = true ∨ dns64WellKnownPref.contains ip = true)

theorem shouldStripDNS64_iff (req : Msg) :
    shouldStripDNS64 pf p.dns64Prefs req = true ↔ AsksDNS64 pf p req := by
  unfold shouldStripDNS64 AsksDNS64
  constructor
  · intro h
    split at h
    · cases h
    · next hlen =>
      split at h
      · cases h
      · next hty =>
        split at h
        · cases h
        · next ip hip =>
          rw [Bool.or_eq_true] at h
          exact ⟨fun h0 => hlen (by rw [h0]; rfl), not_not.mp hty, ip, hip, h⟩
  · rintro ⟨hne, hty, ip, hip, h⟩
    rw [if_neg (fun h0 => hne (List.length_eq_zero_iff.mp h0)), if_neg (not_not.mpr hty)]
    simp only [hip]
    rwa [Bool.or_eq_true]

theorem asksDNS64_congr {req req' : Msg} (h : req'.question = req.question) :
    AsksDNS64 pf p req' ↔ AsksDNS64 pf p req := by
  unfold AsksDNS64 Msg.firstQuestion
  rw [h]

/-- The servers that a private question of `d₀` may go to. -/
def AskedPrivately (p : Proxy) (d₀ : DNSContext) (u : Upstream) : Prop :=
  p.usePrivateRDNS = true ∧ p.privateNets d₀.addr = true ∧
    ∃ priv, p.privateRDNSUpstreamConfig = some priv ∧
      u ∈ priv.getUpstreamsForDomain d₀.req.firstQuestion.name

/-- A context with the question and the client of `d₀` that goes to the private
upstreams. -/
structure ForPrivate (pf : Platform) (p : Proxy) (d₀ d : DNSContext) : Prop where
  route : RoutedPrivately pf p d
  client : d.isPrivateClient = p.privateNets d₀.addr
  question : d.req.question = d₀.req.question

theorem ForPrivate.asked {d₀ d : DNSContext} (h : ForPrivate pf p d₀ d) {u : Upstream}
    (hu : p.MayAsk pf d u) : AskedPrivately p d₀ u := by
  obtain ⟨huse, hclient, priv, hconf, hmem⟩ := mayAsk_private h.route hu
  refine ⟨huse, h.client ▸ hclient, priv, hconf, ?_⟩
  rw [Msg.firstQuestion, h.question] at hmem
  exact hmem

/-- The call `c₀` and its refreshes, for a private question of `d₀`. -/
def privateQuestion (pf : Platform) (p : Proxy) (c₀ : Nat) (d₀ : DNSContext) : Discipline pf p where
  Start c works d := c = c₀ →
    ForPrivate pf p d₀ d ∧ (works = true → d.requestedPrivateRDNS = none)
  Hold _ _ _ := True
  Keep _ _ := True
  Renew c d := c = c₀ → ForPrivate pf p d₀ d
  Join _ _ := True
  Ask c u := c = c₀ → AskedPrivately p d₀ u
  keep_none _ := trivial
  hit _ _ _ _ _ := trivial
  exchange _ _ _ _ _ := trivial
  keep _ _ _ _ _ := trivial
  renew c d hd hc := by
    -- The refresh loses the mark, but a marked request does not get to the cache.
    obtain ⟨⟨hroute, hclient, hq⟩, hnone⟩ := hd hc
    refine ⟨.inr ?_, hclient, hq⟩
    rcases hroute with h | h
    · exact absurd (hnone rfl) h
    · exact h
  renew_keep _ _ _ _ := trivial
  follow _ _ _ _ _ := trivial
  ask _ _ _ _ hd hu hc := (hd hc).1.asked hu
  renew_ask _ _ _ hd hu hc := (hd hc).asked hu

/-- The call `c₀`, if the action starts it, is for the client request `d₀`. -/
def Serves (pf : Platform) (p : Proxy) (c₀ : Nat) (d₀ : DNSContext) (s : State) (a : Action) :
    Prop :=
  ∀ d, Starts pf p s a c₀ d → ∃ now, a = .serve c₀ d₀ now

/-- A private question that `processDNSRequest` passes on, and every refresh it
causes, is sent to private upstreams only, for a private client only, whatever the
exchanges bring. -/
theorem private_question_private_upstreams {conf : SharedConfig} {rd : RecursionDetector}
    {s : State} {c₀ : Nat} {d₀ : DNSContext}
    (h : Reach pf p (init p conf rd) (Serves pf p c₀ d₀) s)
    (hpriv : p.AsksPrivate pf d₀.req ∨ AsksDNS64 pf p d₀.req) {x : Exchange} (hx : x ∈ s.log)
    (hc : x.cause = c₀) : AskedPrivately p d₀ x.u := by
  have hinv : (privateQuestion pf p c₀ d₀).Inv s := by
    refine inv_reach (fun s a hserve => ?_) h
    refine (privateQuestion pf p c₀ d₀).allows_of ?_ (fun _ _ _ => trivial)
    rintro c d d₁ works hs hprep rfl
    obtain ⟨hprepared, hnone⟩ := prepare_spec hprep
    refine ⟨?_, fun hw => (hnone hw).1⟩
    obtain ⟨now, rfl⟩ := hserve d hs
    rcases hs with hs | ⟨d', now', heq, hhandled⟩
    · cases hs
    · cases heq
      obtain ⟨⟨pref, rfl⟩, hmark, -⟩ := processDNSRequest_handled hhandled
      refine ⟨?_, hprepared.isPrivateClient, hprepared.question⟩
      rcases hpriv with hpriv | hpriv
      · exact .inl (by rw [hprepared.requestedPrivateRDNS]; exact hmark hpriv)
      · exact .inr ((shouldStripDNS64_iff _).mpr ((asksDNS64_congr hprepared.question).mpr hpriv))
  exact hinv.log x hx hc

theorem exchange_of_log {s : State} {c : Nat} {u : Upstream}
    (h : s.log.map (fun x => (x.cause, x.u)) = [(c, u)]) :
    ∃ x ∈ s.log, x.cause = c ∧ x.u = u := by
  obtain ⟨x, hx, heq⟩ : ∃ x ∈ s.log, (x.cause, x.u) = (c, u) := by
    rw [← List.mem_map, h]
    exact List.mem_singleton_self _
  exact ⟨x, hx, Prod.mk.inj heq⟩

theorem private_question_local : ∃ s x,
    run dns64Platform dns64Proxy (init dns64Proxy exampleShared noRecursion)
      (.serve 0 (clientContext [192, 168, 0, 2] (ptrQuery localName)) .epoch :: localRun) =
        some s ∧
    x ∈ s.log ∧ x.cause = 0 ∧ x.u = privateUpstream ∧
    AskedPrivately dns64Proxy (clientContext [192, 168, 0, 2] (ptrQuery localName)) x.u := by
  obtain ⟨s, hs, hlog⟩ := exists_of_any
    (run dns64Platform dns64Proxy (init dns64Proxy exampleShared noRecursion)
      (.serve 0 (clientContext [192, 168, 0, 2] (ptrQuery localName)) .epoch :: localRun))
    (fun s => s.log.map (fun x => (x.cause, x.u)) = [(0, privateUpstream)]) (by decide +kernel)
  obtain ⟨x, hx, hcause, hu⟩ := exchange_of_log hlog
  have hreach : Reach dns64Platform dns64Proxy (init dns64Proxy exampleShared noRecursion)
      (Serves dns64Platform dns64Proxy 0
        (clientContext [192, 168, 0, 2] (ptrQuery localName))) s :=
    reach_alone (fun s a hns d hstarts => absurd hstarts (hns 0 d)) (fun _ _ => ⟨_, rfl⟩) rfl hs
  exact ⟨s, x, hs, hx, hcause, hu,
    private_question_private_upstreams hreach (.inl asksPrivate_local) hx hcause⟩

/-- With DNS64 disabled, a PTR question about the well-known prefix is sent to the
general upstreams. -/
theorem private_question_disabled : ∃ s x,
    Reach dns64Platform exampleProxy (init exampleProxy exampleShared noRecursion)
      (Serves dns64Platform exampleProxy 0
        (clientContext [192, 168, 0, 2] (ptrQuery mappedName))) s ∧
    (ptrQuery mappedName).firstQuestion.qtype = typePTR ∧
    dns64Platform.ipFromReversedAddr (ptrQuery mappedName).firstQuestion.name = some mappedAddr ∧
    dns64WellKnownPref.contains mappedAddr = true ∧
    x ∈ s.log ∧ x.cause = 0 ∧ x.u ∈ exampleProxy.upstreamConf.getUpstreamsForDomain mappedName ∧
    exampleProxy.usePrivateRDNS = false := by
  obtain ⟨s, hs, hlog⟩ := exists_of_any
    (run dns64Platform exampleProxy (init exampleProxy exampleShared noRecursion)
      (.serve 0 (clientContext [192, 168, 0, 2] (ptrQuery mappedName)) .epoch ::
        soloSteps 0 (ptrEnv mappedName) .epoch))
    (fun s => s.log.map (fun x => (x.cause, x.u)) = [(0, exampleUpstream)]) (by decide +kernel)
  obtain ⟨x, hx, hcause, hu⟩ := exchange_of_log hlog
  refine ⟨s, x, ?_, rfl, by decide +kernel, by decide, hx, hcause, ?_, rfl⟩
  · exact reach_alone (fun s a hns d hstarts => absurd hstarts (hns 0 d))
      (fun _ _ => ⟨_, rfl⟩) rfl hs
  · rw [hu]
    exact List.mem_singleton_self _

end System

end DnsProxy
