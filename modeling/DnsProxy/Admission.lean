import DnsProxy.AnswerPolicy
import DnsProxy.System
import DnsProxy.Transparency

/-!
# Admission to the cache

A response is stored at the end of `Resolve` and at the end of a background refresh.
Both ask `replyFromUpstream` whether there was a response from an upstream, which says
so before `handleExchangeResult` may replace the response by a server failure; only
`Resolve` looks at the CD bit.

* `store_entry`, `storeRefresh_entry`: what the two steps of the system write;
* `admission_iff`: the outcomes for which each of them writes nothing but responses
  of upstreams without the CD bit.
-/

namespace DnsProxy

/-! ## The two ways -/

section Stores

variable (pf : Platform) (p : Proxy)

/-- The cache takes the response `res` of the context. -/
def Proxy.Storable (d : DNSContext) (res : Msg) (now : Instant) : Prop :=
  p.cacheEntry pf d res now ≠ none

/-- `Resolve` stores `res`. -/
def Proxy.ResolveStores (works : Bool) (r : Replied) (now : Instant) (res : Msg) : Prop :=
  works = true ∧ r.ok = true ∧ r.ctx.res = some res ∧ res.checkingDisabled = false ∧
    p.Storable pf r.ctx res now

/-- `resolveOnce` stores `res`. -/
def Proxy.RefreshStores (r : Replied) (now : Instant) (res : Msg) : Prop :=
  r.ok = true ∧ r.ctx.res = some res ∧ p.Storable pf r.ctx res now

end Stores

namespace System

variable {pf : Platform} {p : Proxy}

variable {now : Instant} {i : Option CustomUpstreamConfig}

theorem entry_setCache {s : State} {i₀ : Option CustomUpstreamConfig} {t : TaggedCache}
    {d : DNSContext} {res : Msg} {tag : Tag} {subnets : Bool} {k : Bytes}
    (ht : p.storeTagged pf (s.cache i₀) d res tag now = some t)
    (hne : ((s.setCache i₀ t).cache i).entry subnets k ≠ (s.cache i).entry subnets k) :
    ∃ data, p.cacheEntry pf d res now = some (k, data) ∧
      ((s.setCache i₀ t).cache i).entry subnets k = some data := by
  by_cases hi : i = i₀
  · subst hi
    simp only [State.setCache, Function.update_self] at hne ⊢
    rcases storeTagged_entry ht subnets k with ⟨hsame, -⟩ | ⟨-, -, data, hentry, hdata⟩
    · exact absurd hsame hne
    · exact ⟨data, hentry, hdata⟩
  · simp only [State.setCache, Function.update_of_ne hi] at hne
    exact absurd rfl hne

theorem storable_of_entry {d : DNSContext} {res : Msg} {e : Bytes × Bytes}
    (h : p.cacheEntry pf d res now = some e) : p.Storable pf d res now := by
  rw [Proxy.Storable, h]
  exact Option.some_ne_none e

/-- The rest of `Resolve` writes only what `ResolveStores` says. -/
theorem store_entry {s : State} {c : Nat} {d : DNSContext} {works : Bool} {r : Replied}
    {subnets : Bool} {k : Bytes} (hne : ((store pf p s c d works r now).cache i).entry subnets k ≠
      (s.cache i).entry subnets k) :
    ∃ res data, p.ResolveStores pf works r now res ∧
      p.cacheEntry pf r.ctx res now = some (k, data) ∧
      ((store pf p s c d works r now).cache i).entry subnets k = some data := by
  unfold store at hne ⊢
  cases hres : r.ctx.res with
  | none => simp only [hres] at hne; exact absurd rfl hne
  | some res =>
    simp only [hres] at hne ⊢
    by_cases hcond : (works && r.ok && !res.checkingDisabled) = true
    · rw [if_pos hcond] at hne ⊢
      cases ht :
        p.storeTagged pf (s.cache (cacheForContext r.ctx)) r.ctx res (tagOf pf p d r) now with
      | none => rw [ht] at hne; exact absurd rfl hne
      | some t =>
        rw [ht] at hne
        obtain ⟨data, hentry, hdata⟩ := entry_setCache ht hne
        simp only [Bool.and_eq_true, Bool.not_eq_true'] at hcond
        exact ⟨res, data, ⟨hcond.1.1, hcond.1.2, hres, hcond.2, storable_of_entry hentry⟩, hentry,
          hdata⟩
    · rw [if_neg hcond] at hne
      exact absurd rfl hne

/-- The end of a refresh writes only what `RefreshStores` says. -/
theorem storeRefresh_entry {s : State} {j : Job} {r : Replied} {subnets : Bool} {k : Bytes}
    (hne : ((storeRefresh pf p s j r now).cache i).entry subnets k ≠
      (s.cache i).entry subnets k) :
    ∃ res data, p.RefreshStores pf r now res ∧ p.cacheEntry pf r.ctx res now = some (k, data) ∧
      ((storeRefresh pf p s j r now).cache i).entry subnets k = some data := by
  unfold storeRefresh at hne ⊢
  cases hres : r.ctx.res with
  | none => simp only [hres] at hne; exact absurd rfl hne
  | some res =>
    simp only [hres] at hne ⊢
    by_cases hok : r.ok = true
    · rw [if_pos hok] at hne ⊢
      cases ht : p.storeTagged pf (s.cache (cacheForContext r.ctx)) r.ctx res
          (tagOf pf p j.d r) now with
      | none => rw [ht] at hne; exact absurd rfl hne
      | some t =>
        rw [ht] at hne
        obtain ⟨data, hentry, hdata⟩ := entry_setCache ht hne
        exact ⟨res, data, ⟨hok, hres, storable_of_entry hentry⟩, hentry, hdata⟩
    · rw [if_neg hok] at hne
      exact absurd rfl hne

end System

/-! ## What was received -/

section Received

variable {pf : Platform} {p : Proxy} {env : UpstreamEnv} {d : DNSContext} {m res : Msg}

/-- `m` is the response that the exchanges of `replyFromUpstream` bring: that of the
selected upstreams, as DNS64 leaves it and unless it is bogus, or that of the
fallbacks. -/
inductive Proxy.Received (pf : Platform) (p : Proxy) (env : UpstreamEnv) (d : DNSContext)
    (m : Msg) : Prop
  | selected (hresp : (p.dns64Exchange pf env d).resp = some m)
      (hkept : (p.dns64Exchange pf env d).u ≠ none ∨ p.isBogusNXDomain m = false)
  | fallback (h : p.FallbackReply pf env d m)

/-- The response in the context is a received one, up to what `handleExchangeResult`
does to it. -/
def Proxy.FromUpstream (pf : Platform) (p : Proxy) (env : UpstreamEnv) (d : DNSContext)
    (res : Msg) : Prop :=
  ∃ m, p.Received pf env d m ∧ m.question.length = 1 ∧
    res = p.setMinMaxTTL { m with authoritative := false }

theorem mainExchange_ok (h : (p.dns64Exchange pf env d).resp = some m) :
    (p.mainExchange pf env d).err = none ∧ (p.selectUpstreams pf d).1 ≠ [] := by
  have hsome : (p.mainExchange pf env d).resp.isSome = true := by
    have hspec := (performDNS64_spec pf p.upstreamMode p.dns64Prefs env.dns64 env.newID d.req
      (p.mainExchange pf env d).resp (p.selectUpstreams pf d).1).2.2
    rw [← hspec]
    exact Option.isSome_iff_exists.mpr ⟨m, h⟩
  obtain ⟨m₀, hm₀⟩ := Option.isSome_iff_exists.mp hsome
  constructor
  · by_contra herr
    have hnone := exchangeUpstreams_failing pf p.upstreamMode env.main d.req
      (p.selectUpstreams pf d).1 herr
    cases hm₀.symm.trans hnone
  · intro hnil
    obtain ⟨u, hu, -⟩ := (exchangeUpstreams_spec pf p.upstreamMode env.main d.req
      (p.selectUpstreams pf d).1).answered m₀ hm₀
    rw [hnil] at hu
    cases hu

theorem received_unique {m' : Msg} (h : p.Received pf env d m) (h' : p.Received pf env d m') :
    m = m' := by
  cases h with
  | selected hresp _ =>
    cases h' with
    | selected hresp' _ => exact Option.some.inj (hresp.symm.trans hresp')
    | fallback hfb => exact absurd (mainExchange_ok hresp).1 hfb.2.1
  | fallback hfb =>
    cases h' with
    | selected hresp _ => exact absurd (mainExchange_ok hresp).1 hfb.2.1
    | fallback hfb' =>
      obtain ⟨-, -, -, fb, hfb, hm⟩ := hfb
      obtain ⟨-, -, -, fb', hfb', hm'⟩ := hfb'
      obtain rfl := Option.some.inj (hfb.symm.trans hfb')
      exact Option.some.inj (hm.symm.trans hm')

/-- What `handleExchangeResult` makes of a response. -/
def Proxy.handled (p : Proxy) (req m : Msg) : Msg :=
  if m.question.length = 1 then p.setMinMaxTTL { m with authoritative := false }
  else newMsgSERVFAIL req

theorem conclude_handled {ups fallbacks : List Upstream} {x : Exchanged} :
    (p.conclude env d ups fallbacks x).ok = x.resp.isSome ∧
    ∀ m, x.resp = some m →
      (p.conclude env d ups fallbacks x).ctx.res = some (p.handled d.req m) := by
  refine ⟨rfl, fun m hm => ?_⟩
  by_cases hlen : m.question.length = 1
  · simp [Proxy.conclude, Proxy.handleExchangeResult, Proxy.handled, hm, hlen]
  · simp [Proxy.conclude, Proxy.handleExchangeResult, Proxy.handled, hm, hlen]

theorem exchangeSelected_eq (pf : Platform) (p : Proxy) (env : UpstreamEnv) (d : DNSContext) :
    (p.exchangeSelected pf env d.req (p.selectUpstreams pf d).1).resp =
      if (p.dns64Exchange pf env d).u = none ∧
          (p.dns64Exchange pf env d).resp.any p.isBogusNXDomain = true then
        some (newMsgNXDOMAIN d.req)
      else (p.dns64Exchange pf env d).resp := by
  rw [exchangeSelected_of_exchanges]
  by_cases hu : (p.dns64Exchange pf env d).u = none
  · simp only [hu, ne_eq, not_true_eq_false, if_false, true_and]
    split <;> rfl
  · simp [hu]

theorem replied_of_received (h : p.Received pf env d m) :
    (p.replyFromUpstream pf env d).ok = true ∧
      (p.replyFromUpstream pf env d).ctx.res = some (p.handled d.req m) := by
  rcases replyFromUpstream_cases pf p env d with ⟨hups, hr⟩ | ⟨hups, ⟨fallbacks, asked, hne, hpriv,
    hfb, hr⟩ | ⟨hno, hr⟩⟩
  · cases h with
    | selected hresp _ => exact absurd hups (mainExchange_ok hresp).2
    | fallback hfb => exact absurd hups hfb.1
  · cases h with
    | selected hresp _ => exact absurd (mainExchange_ok hresp).1 hne
    | fallback h =>
      obtain ⟨-, -, -, fb, hfb', hm⟩ := h
      obtain rfl := Option.some.inj (hfb.symm.trans hfb')
      rw [hr]
      exact ⟨Option.isSome_iff_exists.mpr ⟨m, hm⟩, conclude_handled.2 m hm⟩
  · cases h with
    | selected hresp hkept =>
      have hx : (p.exchangeSelected pf env d.req (p.selectUpstreams pf d).1).resp = some m := by
        rw [exchangeSelected_eq, if_neg, hresp]
        rintro ⟨hu, hb⟩
        rw [hresp, Option.any_some] at hb
        exact hkept.elim (fun h => h hu) fun h => by rw [h] at hb; cases hb
      rw [hr]
      exact ⟨Option.isSome_iff_exists.mpr ⟨m, hx⟩, conclude_handled.2 m hx⟩
    | fallback h => exact absurd h (hno m)

/-- A response that the caller is told of was received, or is the name error in place of
a bogus one. -/
theorem received_of_replied (hok : (p.replyFromUpstream pf env d).ok = true) :
    (∃ m, p.Received pf env d m) ∨
      (p.replyFromUpstream pf env d).ctx.res = some (p.handled d.req (newMsgNXDOMAIN d.req)) := by
  rcases replyFromUpstream_cases pf p env d with ⟨hups, hr⟩ | ⟨hups, ⟨fallbacks, asked, hne, hpriv,
    hfb, hr⟩ | ⟨hno, hr⟩⟩
  · rw [hr] at hok
    cases hok
  · rw [hr, conclude_handled.1] at hok
    obtain ⟨m, hm⟩ := Option.isSome_iff_exists.mp hok
    exact .inl ⟨m, .fallback ⟨hups, hne, hpriv, fallbacks, hfb, hm⟩⟩
  · rw [hr, conclude_handled.1, exchangeSelected_eq] at hok
    split at hok
    · next hbogus =>
      refine .inr ?_
      rw [hr]
      refine conclude_handled.2 _ ?_
      rw [exchangeSelected_eq, if_pos hbogus]
    · next hbogus =>
      obtain ⟨m, hm⟩ := Option.isSome_iff_exists.mp hok
      refine .inl ⟨m, .selected hm ?_⟩
      by_cases hu : (p.dns64Exchange pf env d).u = none
      · rw [hm, Option.any_some, not_and, Bool.not_eq_true] at hbogus
        exact .inr (hbogus hu)
      · exact .inl hu

end Received

/-! ## What is stored -/

section Stored

variable {pf : Platform} {p : Proxy} {env : UpstreamEnv} {d : DNSContext} {now : Instant}

theorem cacheTTL_of_storable {res : Msg} (h : p.Storable pf d res now) : cacheTTL res ≠ 0 := by
  obtain ⟨e, he⟩ := Option.ne_none_iff_exists'.mp h
  obtain ⟨item, hitem, -⟩ := Proxy.Caches.item (show p.Caches pf d res now e.1 e.2 from he)
  intro h0
  rw [respToItem, if_pos h0] at hitem
  cases hitem

theorem not_storable_nxdomain (req : Msg) :
    ¬p.Storable pf d (p.handled req (newMsgNXDOMAIN req)) now := by
  intro h
  refine cacheTTL_of_storable h ?_
  unfold Proxy.handled
  split
  · unfold cacheTTL
    split
    · rfl
    · split
      · rfl
      · simp only
        split
        · rfl
        · rfl
  · next hlen =>
    have hquest : (newMsgSERVFAIL req).question = (newMsgNXDOMAIN req).question := rfl
    unfold cacheTTL
    rw [hquest, if_pos hlen]
    split <;> rfl

theorem received_of_stored {res : Msg} (hok : (p.replyFromUpstream pf env d).ok = true)
    (hres : (p.replyFromUpstream pf env d).ctx.res = some res)
    (hstore : p.Storable pf (p.replyFromUpstream pf env d).ctx res now) :
    ∃ m, p.Received pf env d m ∧ res = p.handled d.req m := by
  rcases received_of_replied hok with ⟨m, hm⟩ | hbogus
  · exact ⟨m, hm, Option.some.inj (hres.symm.trans (replied_of_received hm).2)⟩
  · obtain rfl := Option.some.inj (hres.symm.trans hbogus)
    exact absurd hstore (not_storable_nxdomain d.req)

theorem fromUpstream_handled {m : Msg} (h : p.Received pf env d m) :
    p.FromUpstream pf env d (p.handled d.req m) ↔ m.question.length = 1 := by
  constructor
  · rintro ⟨m', hm', hlen, -⟩
    rw [received_unique h hm']
    exact hlen
  · intro hlen
    exact ⟨m, h, hlen, if_pos hlen⟩

theorem checkingDisabled_handled {m req : Msg} (hlen : m.question.length = 1) :
    (p.handled req m).checkingDisabled = m.checkingDisabled := by
  rw [Proxy.handled, if_pos hlen]
  rfl

theorem checkingDisabled_prepare {d₀ : DNSContext} (h : (p.prepare pf d₀).2 = true) :
    (p.prepare pf d₀).1.req.checkingDisabled = false := by
  unfold Proxy.prepare at h ⊢
  generalize (if p.enableEDNSClientSubnet then processECS pf p.ednsAddr d₀ else d₀) = d₁ at h ⊢
  simp only at h ⊢
  split at h
  · next hw =>
    rw [if_pos hw]
    obtain ⟨extra, hadd⟩ := addDO_eq p (calcFlagsAndSize d₁).req
    rw [hadd]
    unfold Proxy.cacheWorks at hw
    split at hw <;> simp only [Bool.and_eq_true, Bool.not_eq_true'] at hw <;> exact hw.2
  · cases h

theorem checkingDisabled_newMsgSERVFAIL {req : Msg} (h : req.checkingDisabled = false) :
    (newMsgSERVFAIL req).checkingDisabled = false := by
  simp [newMsgSERVFAIL, reply, Msg.setRcode, Msg.setReply, h]

theorem resolveStores_iff {m : Msg} (hm : p.Received pf env d m) {works : Bool} :
    (∀ res, p.ResolveStores pf works (p.replyFromUpstream pf env d) now res →
      p.FromUpstream pf env d res ∧ res.checkingDisabled = false) ↔
    (works = true → (newMsgSERVFAIL d.req).checkingDisabled = false → m.question.length ≠ 1 →
      ¬p.Storable pf (p.replyFromUpstream pf env d).ctx (newMsgSERVFAIL d.req) now) := by
  obtain ⟨hok, hres⟩ := replied_of_received hm
  constructor
  · intro hall hworks hcd hlen hstore
    have hfail : p.handled d.req m = newMsgSERVFAIL d.req := if_neg hlen
    rw [← hfail] at hcd hstore
    have hfrom := (hall _ ⟨hworks, hok, hres, hcd, hstore⟩).1
    exact hlen ((fromUpstream_handled hm).mp hfrom)
  · rintro hall res ⟨hworks, -, hres', hcd, hstore⟩
    obtain rfl := Option.some.inj (hres'.symm.trans hres)
    refine ⟨(fromUpstream_handled hm).mpr ?_, hcd⟩
    by_contra hlen
    have hfail : p.handled d.req m = newMsgSERVFAIL d.req := if_neg hlen
    rw [hfail] at hcd hstore
    exact hall hworks hcd hlen hstore

theorem refreshStores_iff {m : Msg} (hm : p.Received pf env d m) :
    (∀ res, p.RefreshStores pf (p.replyFromUpstream pf env d) now res →
      p.FromUpstream pf env d res ∧ res.checkingDisabled = false) ↔
    (m.question.length ≠ 1 →
      ¬p.Storable pf (p.replyFromUpstream pf env d).ctx (newMsgSERVFAIL d.req) now) ∧
    (m.question.length = 1 → m.checkingDisabled = true →
      ¬p.Storable pf (p.replyFromUpstream pf env d).ctx (p.handled d.req m) now) := by
  obtain ⟨hok, hres⟩ := replied_of_received hm
  constructor
  · intro hall
    refine ⟨fun hlen hstore => ?_, fun hlen hcd hstore => ?_⟩
    · have hfail : p.handled d.req m = newMsgSERVFAIL d.req := if_neg hlen
      rw [← hfail] at hstore
      exact hlen ((fromUpstream_handled hm).mp (hall _ ⟨hok, hres, hstore⟩).1)
    · have hclear := (hall _ ⟨hok, hres, hstore⟩).2
      rw [checkingDisabled_handled hlen, hcd] at hclear
      cases hclear
  · rintro ⟨hfail, hcd⟩ res ⟨-, hres', hstore⟩
    obtain rfl := Option.some.inj (hres'.symm.trans hres)
    by_cases hlen : m.question.length = 1
    · refine ⟨(fromUpstream_handled hm).mpr hlen, ?_⟩
      rw [checkingDisabled_handled hlen, ← Bool.not_eq_true]
      exact fun h => hcd hlen h hstore
    · rw [Proxy.handled, if_neg hlen] at hstore
      exact absurd hstore (hfail hlen)

end Stored

/-- `Resolve` stores nothing but responses of upstreams without the CD bit, if and only if
no response without exactly one question makes it store a server failure of the proxy's
own; for a background refresh it takes in addition that no response with the CD bit can
be stored. -/
theorem admission_iff (pf : Platform) (p : Proxy) (env : UpstreamEnv) (now : Instant) :
    (∀ d₀ : DNSContext, let d := (p.prepare pf d₀).1
      let r := p.replyFromUpstream pf env d
      (∀ res, p.ResolveStores pf (p.prepare pf d₀).2 r now res →
        p.FromUpstream pf env d res ∧ res.checkingDisabled = false) ↔
      ∀ m, p.Received pf env d m → m.question.length ≠ 1 → (p.prepare pf d₀).2 = true →
        ¬p.Storable pf r.ctx (newMsgSERVFAIL d.req) now) ∧
    ∀ d : DNSContext, let r := p.replyFromUpstream pf env d
      (∀ res, p.RefreshStores pf r now res →
        p.FromUpstream pf env d res ∧ res.checkingDisabled = false) ↔
      ∀ m, p.Received pf env d m →
        (m.question.length ≠ 1 → ¬p.Storable pf r.ctx (newMsgSERVFAIL d.req) now) ∧
        (m.question.length = 1 → m.checkingDisabled = true →
          ¬p.Storable pf r.ctx (p.handled d.req m) now) := by
  refine ⟨fun d₀ => ⟨?_, ?_⟩, fun d => ⟨?_, ?_⟩⟩
  · intro hall m hm hlen hworks
    exact (resolveStores_iff hm).mp hall hworks
      (checkingDisabled_newMsgSERVFAIL (checkingDisabled_prepare hworks)) hlen
  · intro hall res hstores
    obtain ⟨m, hm, -⟩ := received_of_stored hstores.2.1 hstores.2.2.1 hstores.2.2.2.2
    exact (resolveStores_iff hm).mpr (fun hw _ hlen => hall m hm hlen hw) res hstores
  · intro hall m hm
    exact (refreshStores_iff hm).mp hall
  · intro hall res hstores
    obtain ⟨m, hm, -⟩ := received_of_stored hstores.1 hstores.2.1 hstores.2.2
    exact (refreshStores_iff hm).mpr (hall m hm) res hstores

/-- An answer with the CD bit. -/
def uncheckedAnswer : Msg := { exampleAnswer with checkingDisabled := true }

/-- The platform that knows the two messages. -/
def admissionPlatform : Platform :=
  .ofTable [(newMsgSERVFAIL exampleQuery,
      [0, 1, 0x81, 0x82, 0, 1, 0, 0, 0, 0, 0, 0] ++ exampleOrgWire ++ [0, 1, 0, 1]),
    (uncheckedAnswer, [0, 1, 0x81, 0x90] ++ exampleAnswerWire.drop 4)]

def admissionReply (m : Msg) (d : DNSContext) : Replied :=
  exampleProxy.replyFromUpstream admissionPlatform (answeringEnv fun _ _ => some m) d

/-- A response without a question makes `Resolve` store a server failure that the proxy
generated, and a refresh stores a response with the CD bit, which `Resolve` does not. -/
theorem admission_differs :
    exampleProxy.ResolveStores admissionPlatform
      (exampleProxy.prepare admissionPlatform (udpContext exampleQuery)).2
      (admissionReply { exampleAnswer with question := [] }
        (exampleProxy.prepare admissionPlatform (udpContext exampleQuery)).1)
      .epoch (newMsgSERVFAIL exampleQuery) ∧
    exampleProxy.RefreshStores admissionPlatform
      (admissionReply uncheckedAnswer (refreshContext (udpContext exampleQuery)))
      .epoch uncheckedAnswer ∧
    uncheckedAnswer.checkingDisabled = true := by
  refine ⟨⟨by decide, by decide +kernel, by decide +kernel, by decide, ?_⟩,
    ⟨by decide +kernel, by decide +kernel, ?_⟩, rfl⟩
  · show _ ≠ _
    decide +kernel
  · show _ ≠ _
    decide +kernel

end DnsProxy
