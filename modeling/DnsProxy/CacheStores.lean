import DnsProxy.ClientShape
import DnsProxy.System

/-!
# The stores of a cache

A cache has a general store and, when it was built with ECS, a subnet store. The
settings of the proxy decide which of the two a request uses, and the settings of the
cache whether the subnet store is there. The cache of a custom configuration is built
with settings of its own.

* `cacheForContext_usable_iff`: the lookup passes over a missing subnet store, the
  store side calls it. So a custom cache without ECS has to be kept from a proxy with
  ECS, except for responses that it would not keep.
-/

namespace DnsProxy

open Net

/-! ## The subnet store over a history -/

section History

variable {pf : Platform}

theorem getWithSubnet_hasStore (c : Cache) (req : Msg) (n : Option IPNet) (now : Instant) :
    (c.getWithSubnet pf req n now).cache.itemsWithSubnet.isSome = c.itemsWithSubnet.isSome := by
  rcases c.getWithSubnet_cache pf req n now with hc | ⟨key, hc⟩
  · rw [hc]
  · simp [hc, Cache.delWithSubnet]

theorem setWithSubnet_hasStore (c : Cache) (req m : Msg) (u : Bytes) (n : Option IPNet)
    (now : Instant) : ((c.setWithSubnet pf req m u n now).getD c).itemsWithSubnet.isSome =
      c.itemsWithSubnet.isSome := by
  unfold Cache.setWithSubnet
  split
  · rfl
  · cases h : c.itemsWithSubnet <;> simp [h]

theorem cacheResp_hasStore (c : Cache) (ecsEnabled : Bool) (req res : Msg)
    (reqECS : Option IPNet) (u : Bytes) (now : Instant) :
    ((c.cacheResp pf ecsEnabled req res reqECS u now).getD c).itemsWithSubnet.isSome =
      c.itemsWithSubnet.isSome := by
  unfold Cache.cacheResp
  split
  · simp
  · split
    · simp
    · split
      · rfl
      · exact setWithSubnet_hasStore ..

theorem step_hasStore (c : Cache) (op : CacheOp) :
    (c.step pf op).itemsWithSubnet.isSome = c.itemsWithSubnet.isSome := by
  cases op with
  | set req m u now => simp [Cache.step]
  | setWithSubnet req m u n now => exact setWithSubnet_hasStore ..
  | cacheResp ecsEnabled req res reqECS u now => exact cacheResp_hasStore ..
  | get req now => simp [Cache.step]
  | getWithSubnet req n now => exact getWithSubnet_hasStore ..
  | drop key => rfl
  | dropWithSubnet key => simp [Cache.step, Cache.delWithSubnet]
  | clearItems => rfl
  | clearItemsWithSubnet => simp [Cache.step, Cache.clearItemsWithSubnet]

theorem history_hasStore (ops : List CacheOp) (c : Cache) :
    (ops.foldl (Cache.step pf) c).itemsWithSubnet.isSome = c.itemsWithSubnet.isSome := by
  induction ops generalizing c with
  | nil => rfl
  | cons op ops ih => rw [List.foldl_cons, ih, step_hasStore]

end History

/-! ## The cache of a context -/

/-- The cache that `cacheForContext` returns after the histories `hist` of the caches;
`none` is the nil of a proxy without a cache. -/
def cacheOf (pf : Platform) (p : Proxy) (conf : SharedConfig)
    (hist : Option CustomUpstreamConfig → List CacheOp) (d : DNSContext) : Option Cache :=
  let i := cacheForContext d
  if i.isNone && !p.cacheEnabled then none
  else some ((hist i).foldl (Cache.step pf) (newCaches p conf i))

/-- An operation that is keyed by subnets or not changes only the store of that kind,
and nothing at all when there is none. -/
def OnlyStore (subnets : Bool) (c c' : Cache) : Prop :=
  if subnets then c'.items = c.items ∧ (c.itemsWithSubnet = none → c' = c)
  else c'.itemsWithSubnet = c.itemsWithSubnet

/-- `replyFromCache` and `cacheResp` return on the cache `c`, and each has used the
store that its key is for. -/
structure Usable (pf : Platform) (p : Proxy) (c : Cache) (d : DNSContext) (res : Msg)
    (now : Instant) : Prop where
  lookup : OnlyStore (p.usesSubnets d) c (p.lookup pf c d now).cache
  lookup_none : p.usesSubnets d = true → c.itemsWithSubnet = none →
    (p.lookup pf c d now).ci = none
  store : ∃ c', p.cacheResp pf c d res now = some c' ∧ OnlyStore (p.usesSubnets d) c c'

/-- The response is one that a subnet store keeps for the request: it can be cached and
packed, and its subnet is that of the request, or it has none. -/
def KeptForSubnet (pf : Platform) (d : DNSContext) (res : Msg) : Prop :=
  cacheTTL res ≠ 0 ∧ (∃ wire, pf.pack res = some wire ∧ wire.length ≤ 65535) ∧
    ∃ s n, d.reqECS = some s ∧ respSubnet res s = some n ∧ (cacheSubnet (some n)).isSome = true

section Context

variable {pf : Platform} {p : Proxy}

theorem pack_isSome_iff (pf : Platform) (ci : CacheItem) (now : Instant) :
    (ci.pack pf now).isSome = true ↔
      ∃ wire, pf.pack ci.m = some wire ∧ wire.length ≤ 65535 := by
  unfold CacheItem.pack lengthPrefix
  cases pf.pack ci.m with
  | none => simp
  | some wire =>
    by_cases h : 65535 < wire.length
    · simp [h, Nat.not_le.mpr h]
    · simp [h, Nat.not_lt.mp h]

theorem subnetEntry_isSome_iff (req res : Msg) (u : Bytes) (n : Option IPNet) (now : Instant) :
    (Cache.subnetEntry pf req res u n now).isSome = true ↔
      cacheTTL res ≠ 0 ∧ (∃ wire, pf.pack res = some wire ∧ wire.length ≤ 65535) ∧
        (cacheSubnet n).isSome = true := by
  unfold Cache.subnetEntry respToItem
  by_cases httl : cacheTTL res = 0
  · simp [httl]
  · have hpack := pack_isSome_iff pf ⟨res, u, cacheTTL res⟩ now
    cases hn : cacheSubnet n with
    | none => simp [httl]
    | some net =>
      rw [← hpack]
      cases hp : CacheItem.pack pf ⟨res, u, cacheTTL res⟩ now <;> simp [httl, hp]

theorem cacheEntry_isSome_iff (pf : Platform) {d : DNSContext} (res : Msg) (now : Instant)
    (hsub : p.usesSubnets d = true) :
    (p.cacheEntry pf d res now).isSome = true ↔ KeptForSubnet pf d res := by
  unfold Proxy.cacheEntry KeptForSubnet
  rw [if_pos hsub]
  cases hecs : d.reqECS with
  | none => simp
  | some s =>
    cases hn : respSubnet res s with
    | none => simp [hn]
    | some n => simp [hn, subnetEntry_isSome_iff]

theorem lookup_onlyStore (c : Cache) (d : DNSContext) (now : Instant) :
    OnlyStore (p.usesSubnets d) c (p.lookup pf c d now).cache := by
  unfold OnlyStore Proxy.lookup
  cases p.usesSubnets d with
  | false => simp
  | true =>
    simp only [if_true]
    refine ⟨?_, fun hnone => ?_⟩
    · rcases c.getWithSubnet_cache pf d.req d.reqECS now with hc | ⟨key, hc⟩
      · rw [hc]
      · rw [hc, Cache.delWithSubnet]
    · simp [Cache.getWithSubnet, Cache.findWithSubnet, hnone]

theorem lookup_missing {c : Cache} {d : DNSContext} (now : Instant)
    (hsub : p.usesSubnets d = true) (hnone : c.itemsWithSubnet = none) :
    (p.lookup pf c d now).ci = none := by
  simp [Proxy.lookup, hsub, Cache.getWithSubnet, Cache.findWithSubnet, hnone]

theorem cacheResp_store_iff (c : Cache) (d : DNSContext) (res : Msg) (now : Instant) :
    (∃ c', p.cacheResp pf c d res now = some c' ∧ OnlyStore (p.usesSubnets d) c c') ↔
      (p.usesSubnets d = true → KeptForSubnet pf d res → c.itemsWithSubnet.isSome = true) := by
  rw [cacheResp_eq]
  cases hsub : p.usesSubnets d with
  | false =>
    cases p.cacheEntry pf d res now <;> simp [OnlyStore]
  | true =>
    have hkept := cacheEntry_isSome_iff pf res now hsub
    cases he : p.cacheEntry pf d res now with
    | none =>
      have hnot : ¬ KeptForSubnet pf d res := by simpa [he] using hkept
      simp [OnlyStore, hnot]
    | some e =>
      have hkept : KeptForSubnet pf d res := by simpa [he] using hkept
      cases hi : c.itemsWithSubnet <;> simp [OnlyStore, hkept, hi]

theorem usable_iff (c : Cache) (d : DNSContext) (res : Msg) (now : Instant) :
    Usable pf p c d res now ↔
      (p.usesSubnets d = true → KeptForSubnet pf d res → c.itemsWithSubnet.isSome = true) := by
  constructor
  · intro h
    exact (cacheResp_store_iff c d res now).mp h.store
  · intro h
    exact ⟨lookup_onlyStore c d now, lookup_missing now, (cacheResp_store_iff c d res now).mpr h⟩

theorem newCaches_hasStore (conf : SharedConfig) (i : Option CustomUpstreamConfig) :
    (newCaches p conf i).itemsWithSubnet.isSome =
      i.elim p.enableEDNSClientSubnet conf.withECS := by
  cases i with
  | none => cases h : p.enableEDNSClientSubnet <;> simp [newCaches, newCache, h]
  | some c => cases h : conf.withECS c <;> simp [newCaches, newCache, h]

theorem cacheOf_isSome {conf : SharedConfig} {hist : Option CustomUpstreamConfig → List CacheOp}
    {d : DNSContext} (h : p.cacheWorks d = true) : (cacheOf pf p conf hist d).isSome = true := by
  unfold cacheOf
  unfold Proxy.cacheWorks at h
  cases hc : d.customUpstreamConfig with
  | none =>
    have hen : p.cacheEnabled = true := by simp_all
    simp [hen]
  | some c =>
    have hcache : c.hasCache = true := by simp_all
    simp [cacheForContext, hc, hcache]

end Context

/-- After every history of the caches: where the cache works for a request it has one,
and `replyFromCache` and `cacheResp` use only stores that are there, exactly if no
response that a subnet store keeps comes to a custom cache that was built without
one. -/
theorem cacheForContext_usable_iff (pf : Platform) (p : Proxy) (conf : SharedConfig)
    (hist : Option CustomUpstreamConfig → List CacheOp) (d : DNSContext) (res : Msg)
    (now : Instant) :
    ((p.cacheWorks d = true → (cacheOf pf p conf hist d).isSome = true) ∧
        ∀ c, cacheOf pf p conf hist d = some c → Usable pf p c d res now) ↔
      ∀ custom, cacheForContext d = some custom → p.usesSubnets d = true →
        KeptForSubnet pf d res → conf.withECS custom = true := by
  have hstore : ∀ c, cacheOf pf p conf hist d = some c → c.itemsWithSubnet.isSome =
      (cacheForContext d).elim p.enableEDNSClientSubnet conf.withECS := by
    intro c hc
    simp only [cacheOf, ite_eq_iff, reduceCtorEq, and_false, Option.some.injEq, false_or] at hc
    rw [← hc.2, history_hasStore, newCaches_hasStore]
  constructor
  · rintro ⟨-, h⟩ custom hcustom hsub hkept
    obtain ⟨c, hc⟩ : ∃ c, cacheOf pf p conf hist d = some c := by simp [cacheOf, hcustom]
    have := (usable_iff c d res now).mp (h c hc) hsub hkept
    simpa [hstore c hc, hcustom] using this
  · refine fun h => ⟨cacheOf_isSome, fun c hc => (usable_iff c d res now).mpr ?_⟩
    intro hsub hkept
    rw [hstore c hc]
    cases hcustom : cacheForContext d with
    | none =>
      -- The cache of the proxy was built with the setting that `usesSubnets` reads.
      simpa using (Bool.and_eq_true_iff.mp hsub).1
    | some custom => exact h custom hcustom hsub hkept

/-! ## A custom cache without ECS -/

/-- A custom configuration with a cache, which `exampleShared` builds without ECS. -/
def customCached : CustomUpstreamConfig := ⟨7, plainConfig [exampleUpstream], true⟩

/-- A query of 9.9.9.9 for that configuration, as it comes to the cache. -/
def customContext : DNSContext :=
  (ecsProxy.prepare publicPlatform
    { publicContext .udp exampleQuery with customUpstreamConfig := some customCached }).1

/-- A proxy with ECS has a custom configuration whose cache was built without it: the
first answer that it caches for a client subnet is a call on the missing store. -/
theorem cacheForContext_missingStore :
    ecsProxy.cacheWorks customContext = true ∧
    customContext.reqECS = some ⟨some [9, 9, 9, 0], some [255, 255, 255, 0]⟩ ∧
    ∃ c, cacheOf publicPlatform ecsProxy exampleShared (fun _ => []) customContext = some c ∧
      ecsProxy.cacheResp publicPlatform c customContext exampleAnswer .epoch = none ∧
      ¬ Usable publicPlatform ecsProxy c customContext exampleAnswer .epoch := by
  have hpanic : ecsProxy.cacheResp publicPlatform (newCache false false 0 0) customContext
      exampleAnswer .epoch = none := by decide +kernel
  refine ⟨by decide +kernel, by decide +kernel, newCache false false 0 0, rfl, hpanic, ?_⟩
  rintro ⟨-, -, c', hc', -⟩
  rw [hpanic] at hc'
  cases hc'

end DnsProxy
