import DnsProxy.Proxy

/-!
# Answer policies

Addresses in `BogusNXDomain` turn a response into a name error, and with DNS64 the
addresses inside the NAT64 prefixes are removed from it. `replyFromUpstream` applies
the two to the response of the selected upstreams, before DNS64 puts other records in
its place and before the fallbacks are asked.

* `policies_main`: the response of the selected upstreams obeys both policies;
* `reply_policies_iff`: an outcome obeys them if and only if the two other responses
  do, on which nothing is checked.
-/

namespace DnsProxy

/-! ## The policies -/

/-- The address of the record lies in `BogusNXDomain`. -/
def Proxy.Bogus (p : Proxy) (r : RR) : Prop :=
  subnetsContain p.bogusNXDomain (addrFromRR r) = true

/-- The record is an AAAA record with an address inside the NAT64 prefixes. -/
def Proxy.InNAT64 (pf : Platform) (p : Proxy) (r : RR) : Prop :=
  ∃ ip addr, r.rdata = .aaaa ip ∧ pf.ipToAddrNoMapped (some ip) = some addr ∧
    subnetsContain p.dns64Prefs addr = true

/-- The address of the record is that of an A record of `a`, mapped by DNS64. -/
def Proxy.SynthesizedFrom (pf : Platform) (p : Proxy) (a : Msg) (r : RR) : Prop :=
  ∃ x ∈ a.answer, ∃ ip addr, x.rdata = .a ip ∧ pf.ipToAddrIPv4 (some ip) = some addr ∧
    r.rdata = .aaaa (mapDNS64 p.dns64Prefs addr)

def AsksAddress (m : Msg) : Prop :=
  m.firstQuestion.qtype = typeA ∨ m.firstQuestion.qtype = typeAAAA

/-- DNS64 is enabled, and the request is one for addresses. -/
def Dns64Applies (prefs : List Prefix) (req : Msg) : Prop :=
  prefs ≠ [] ∧ req.firstQuestion.qtype = typeAAAA ∧ req.firstQuestion.qclass = classINET

instance (prefs : List Prefix) (req : Msg) : Decidable (Dns64Applies prefs req) :=
  inferInstanceAs (Decidable (_ ∧ _))

/-- The two policies for the response `res` to `req`, where `a` is the response that DNS64
took addresses from. -/
structure Proxy.Policies (pf : Platform) (p : Proxy) (req : Msg) (a : Option Msg) (res : Msg) :
    Prop where
  bogus : AsksAddress res → ∀ r ∈ res.answer, ¬p.Bogus r
  nat64 : Dns64Applies p.dns64Prefs req → res.rcode = rcodeSuccess → ∀ r ∈ res.answer,
    p.InNAT64 pf r → ∃ m, a = some m ∧ p.SynthesizedFrom pf m r

/-! ## The responses -/

section Responses

variable (pf : Platform) (p : Proxy) (env : UpstreamEnv) (d : DNSContext)

/-- The exchange with the selected upstreams. -/
def Proxy.mainExchange : Exchanged :=
  exchangeUpstreams pf p.upstreamMode env.main d.req (p.selectUpstreams pf d).1

/-- What DNS64 makes of it. -/
def Proxy.dns64Exchange : Dns64Result :=
  performDNS64 pf p.upstreamMode p.dns64Prefs env.dns64 env.newID d.req
    (p.mainExchange pf env d).resp (p.selectUpstreams pf d).1

/-- The response that DNS64 takes addresses from, with the response that it puts them
into. -/
def Proxy.dns64Reply : Option (Msg × Msg) := do
  let orig ← (p.mainExchange pf env d).resp
  let (dns64Req, orig) := checkDNS64 pf p.dns64Prefs env.newID d.req orig
  let dns64Req ← dns64Req
  let x := exchangeUpstreams pf p.upstreamMode env.dns64 dns64Req (p.selectUpstreams pf d).1
  let a ← x.resp
  let _ ← synthDNS64 pf p.dns64Prefs d.req orig a
  if x.err = none then some (a, orig) else none

/-- The fallbacks are asked, and `m` is their response. -/
def Proxy.FallbackReply (m : Msg) : Prop :=
  (p.selectUpstreams pf d).1 ≠ [] ∧ (p.mainExchange pf env d).err ≠ none ∧
    (p.selectUpstreams pf d).2 = false ∧ ∃ fallbacks, p.fallbacks = some fallbacks ∧
      (exchangeParallel env.fallback
        (fallbacks.getUpstreamsForDomain d.req.firstQuestion.name) d.req).resp = some m

/-- The outcome obeys the policies if its response is from an upstream. -/
def Proxy.ReplyObeys : Prop :=
  ∀ res, (p.replyFromUpstream pf env d).ctx.res = some res →
    (p.replyFromUpstream pf env d).source ≠ none →
    p.Policies pf d.req ((p.dns64Reply pf env d).map Prod.fst) res

end Responses

/-! ## The response of the selected upstreams -/

section Main

variable {pf : Platform} {p : Proxy} {req m : Msg}

theorem policies_setMinMaxTTL (a : Option Msg) :
    p.Policies pf req a (p.setMinMaxTTL { m with authoritative := false }) ↔
      p.Policies pf req a m := by
  constructor
  · intro h
    refine ⟨fun hq r hr hbad => ?_, fun happ hcode r hr hin => ?_⟩
    · exact h.bogus hq _ (List.mem_map_of_mem hr) hbad
    · have hsynth := h.nat64 happ hcode _ (List.mem_map_of_mem hr) hin
      exact hsynth
  · intro h
    refine ⟨fun hq r hr => ?_, fun happ hcode r hr => ?_⟩
    · obtain ⟨x, hx, rfl⟩ := List.mem_map.mp hr
      exact h.bogus hq x hx
    · obtain ⟨x, hx, rfl⟩ := List.mem_map.mp hr
      exact h.nat64 happ hcode x hx

theorem checkDNS64_frame (pf : Platform) (prefs : List Prefix) (newID : UInt16) (req m : Msg) :
    ∃ answer, (checkDNS64 pf prefs newID req m).2 = { m with answer := answer } := by
  unfold checkDNS64
  split
  · exact ⟨_, rfl⟩
  · split
    · exact ⟨_, rfl⟩
    · simp only
      split
      · exact ⟨_, rfl⟩
      · split
        · split <;> exact ⟨_, rfl⟩
        · exact ⟨_, rfl⟩

theorem not_inNAT64_checkDNS64 {newID : UInt16} (happ : Dns64Applies p.dns64Prefs req)
    (hcode : m.rcode = rcodeSuccess) :
    ∀ r ∈ (checkDNS64 pf p.dns64Prefs newID req m).2.answer, ¬p.InNAT64 pf r := by
  have hanswer : (checkDNS64 pf p.dns64Prefs newID req m).2.answer =
      (filterNAT64Answers pf p.dns64Prefs m.answer).1 := by
    obtain ⟨hprefs, htype, hclass⟩ := happ
    have hne : rcodeSuccess ≠ rcodeNameError := by decide
    unfold checkDNS64
    simp only [List.length_eq_zero_iff, hprefs, htype, hclass, hcode, hne, ne_eq,
      not_true_eq_false, or_self, if_false, if_true]
    split <;> rfl
  rw [hanswer]
  rintro r hr ⟨ip, addr, hdata, haddr, hin⟩
  have hkeep := (List.mem_filter.mp hr).2
  simp [isNAT64Excluded, hdata, haddr, hin] at hkeep

theorem not_bogus {r : RR} (hb : p.isBogusNXDomain m = false) (hlen : m.question.length = 1)
    (hq : AsksAddress m) (hr : r ∈ m.answer) : ¬p.Bogus r := by
  intro hbogus
  have hsome : p.bogusNXDomain ≠ [] := by
    intro hnil
    rw [Proxy.Bogus, hnil] at hbogus
    cases hbogus
  have htype : ¬(m.firstQuestion.qtype ≠ typeA ∧ m.firstQuestion.qtype ≠ typeAAAA) :=
    fun h => hq.elim h.1 h.2
  unfold Proxy.isBogusNXDomain at hb
  rw [if_neg (by simp [hsome, hlen]), if_neg htype] at hb
  exact List.any_eq_false.mp hb r hr hbogus

/-- The response of the selected upstreams, as far as it is not replaced. -/
theorem policies_main {newID : UInt16} (a : Option Msg)
    (hb : p.isBogusNXDomain (checkDNS64 pf p.dns64Prefs newID req m).2 = false)
    (hlen : m.question.length = 1) :
    p.Policies pf req a (checkDNS64 pf p.dns64Prefs newID req m).2 := by
  obtain ⟨answer, hframe⟩ := checkDNS64_frame pf p.dns64Prefs newID req m
  refine ⟨fun hq r hr => not_bogus hb (by rw [hframe]; exact hlen) hq hr, ?_⟩
  intro happ hcode r hr hin
  have hcode' : m.rcode = rcodeSuccess := by rw [hframe] at hcode; exact hcode
  exact absurd hin (not_inNAT64_checkDNS64 happ hcode' r hr)

theorem policies_nxdomain (a : Option Msg) : p.Policies pf req a (newMsgNXDOMAIN req) :=
  ⟨fun _ _ hr => (nomatch hr), fun _ _ _ hr => (nomatch hr)⟩

end Main

/-! ## Every outcome -/

section Outcome

variable {pf : Platform} {p : Proxy} {env : UpstreamEnv} {d : DNSContext}

/-- Either DNS64 leaves the first response, as `checkDNS64` filtered it, or it puts the
records of another one in its place. -/
theorem dns64Exchange_cases (pf : Platform) (p : Proxy) (env : UpstreamEnv) (d : DNSContext) :
    ((p.dns64Exchange pf env d).u = none ∧ p.dns64Reply pf env d = none ∧
      (p.dns64Exchange pf env d).resp = (p.mainExchange pf env d).resp.map fun m =>
        (checkDNS64 pf p.dns64Prefs env.newID d.req m).2) ∨
    ∃ a orig newAns, (p.dns64Exchange pf env d).u ≠ none ∧
      p.dns64Reply pf env d = some (a, orig) ∧
      a.answer.mapM (synthRR pf p.dns64Prefs (soaTTL d.req orig)) = some newAns ∧
      (p.dns64Exchange pf env d).resp =
        some { orig with answer := newAns, ns := a.ns, extra := a.extra } := by
  unfold Proxy.dns64Exchange Proxy.dns64Reply performDNS64
  cases (p.mainExchange pf env d).resp with
  | none => exact .inl ⟨rfl, rfl, rfl⟩
  | some m =>
    simp only [Option.bind_eq_bind, Option.bind_some, Option.map_some]
    cases hcheck : checkDNS64 pf p.dns64Prefs env.newID d.req m with
    | mk dns64Req orig =>
      cases dns64Req with
      | none => exact .inl ⟨rfl, rfl, rfl⟩
      | some q =>
        have hwithin := exchangeUpstreams_spec pf p.upstreamMode env.dns64 q
          (p.selectUpstreams pf d).1
        simp only [Option.bind_some]
        cases herr : (exchangeUpstreams pf p.upstreamMode env.dns64 q
            (p.selectUpstreams pf d).1).err with
        | some e => exact .inl ⟨rfl, by simp, rfl⟩
        | none =>
          cases hresp : (exchangeUpstreams pf p.upstreamMode env.dns64 q
              (p.selectUpstreams pf d).1).resp with
          | none => exact .inl ⟨rfl, rfl, rfl⟩
          | some a =>
            obtain ⟨v, -, hu, -⟩ := hwithin.answered a hresp
            simp only [Option.bind_some]
            cases hsynth : synthDNS64 pf p.dns64Prefs d.req orig a with
            | none => exact .inl ⟨rfl, rfl, rfl⟩
            | some res =>
              unfold synthDNS64 at hsynth
              split at hsynth
              · cases hsynth
              · obtain ⟨newAns, hans, rfl⟩ := Option.map_eq_some_iff.mp hsynth
                refine .inr ⟨a, orig, newAns, ?_, rfl, hans, rfl⟩
                rw [hu]
                exact Option.some_ne_none v

theorem applies_of_dns64Reply {a orig : Msg} (h : p.dns64Reply pf env d = some (a, orig)) :
    Dns64Applies p.dns64Prefs d.req := by
  simp only [Proxy.dns64Reply, Option.bind_eq_bind, Option.bind_eq_some_iff] at h
  obtain ⟨m, -, q, hq, -⟩ := h
  unfold checkDNS64 at hq
  by_cases hprefs : p.dns64Prefs.length = 0
  · rw [if_pos hprefs] at hq
    cases hq
  · by_cases hquest : d.req.firstQuestion.qtype ≠ typeAAAA ∨ d.req.firstQuestion.qclass ≠ classINET
    · rw [if_neg hprefs, if_pos hquest] at hq
      cases hq
    · rw [not_or, not_not, not_not] at hquest
      exact ⟨fun hnil => hprefs (by rw [hnil]; rfl), hquest⟩

theorem dns64_of_no_response (h : (p.mainExchange pf env d).resp = none) :
    p.dns64Reply pf env d = none ∧ (p.exchangeSelected pf env d.req
      (p.selectUpstreams pf d).1).resp = none := by
  unfold Proxy.dns64Reply Proxy.exchangeSelected
  unfold Proxy.mainExchange at h ⊢
  simp [h, performDNS64]

theorem conclude_obeys {ups fallbacks : List Upstream} {x : Exchanged} {a : Option Msg} :
    (∀ res, (p.conclude env d ups fallbacks x).ctx.res = some res →
      (p.conclude env d ups fallbacks x).source ≠ none → p.Policies pf d.req a res) ↔
    ∀ m, x.resp = some m → x.u ≠ none → m.question.length = 1 → p.Policies pf d.req a m := by
  cases hresp : x.resp with
  | none => simp [Proxy.conclude, hresp]
  | some m =>
    by_cases hlen : m.question.length = 1
    · have hctx : (p.conclude env d ups fallbacks x).ctx.res =
          some (p.setMinMaxTTL { m with authoritative := false }) := by
        simp [Proxy.conclude, Proxy.handleExchangeResult, hresp, hlen]
      have hsource : (p.conclude env d ups fallbacks x).source = x.u := by
        simp [Proxy.conclude, hresp, hlen]
      rw [hctx, hsource]
      simp [policies_setMinMaxTTL, hlen]
    · have hsource : (p.conclude env d ups fallbacks x).source = none := by
        simp [Proxy.conclude, hresp, hlen]
      rw [hsource]
      simp [hlen]

/-- What the fallbacks may send for the policies to hold. -/
structure Proxy.CleanFallback (pf : Platform) (p : Proxy) (req m : Msg) : Prop where
  bogus : AsksAddress m → ∀ r ∈ m.answer, ¬p.Bogus r
  nat64 : Dns64Applies p.dns64Prefs req → m.rcode = rcodeSuccess → ∀ r ∈ m.answer, ¬p.InNAT64 pf r

/-- What the response `a` that DNS64 takes addresses from may be for the policies to
hold, when they are put into `orig`. -/
structure Proxy.CleanSynthesis (pf : Platform) (p : Proxy) (req a orig : Msg) : Prop where
  bogus : AsksAddress orig → ∀ r ∈ a.answer, ∀ y,
    synthRR pf p.dns64Prefs (soaTTL req orig) r = some y → ¬p.Bogus y
  nat64 : orig.rcode = rcodeSuccess → ∀ r ∈ a.answer, p.InNAT64 pf r → p.SynthesizedFrom pf a r

theorem policies_none_iff {req m : Msg} :
    p.Policies pf req none m ↔ p.CleanFallback pf req m := by
  constructor
  · refine fun h => ⟨h.bogus, fun happ hcode r hr hin => ?_⟩
    obtain ⟨m', hm', -⟩ := h.nat64 happ hcode r hr hin
    cases hm'
  · exact fun h => ⟨h.bogus, fun happ hcode r hr hin => absurd hin (h.nat64 happ hcode r hr)⟩

theorem mem_mapM {α β : Type} {f : α → Option β} {l : List α} {l' : List β}
    (h : l.mapM f = some l') (y : β) : y ∈ l' ↔ ∃ x ∈ l, f x = some y := by
  induction l generalizing l' with
  | nil =>
    obtain rfl : [] = l' := by simpa using h
    simp
  | cons x l ih =>
    obtain ⟨z, hz, l'', hl, rfl⟩ :
        ∃ z, f x = some z ∧ ∃ l'', l.mapM f = some l'' ∧ z :: l'' = l' := by
      simpa [Option.bind_eq_some_iff] using h
    simp [ih hl, hz, eq_comm]

theorem synthRR_cases {req orig a : Msg} {r y : RR} (hr : r ∈ a.answer)
    (h : synthRR pf p.dns64Prefs (soaTTL req orig) r = some y) :
    p.SynthesizedFrom pf a y ∨ y = r := by
  unfold synthRR at h
  split at h
  · next ip hdata =>
    obtain ⟨addr, haddr, rfl⟩ := Option.map_eq_some_iff.mp h
    exact .inl ⟨r, hr, ip, addr, hdata, haddr, rfl⟩
  · exact .inr (Option.some.inj h).symm

theorem synthRR_of_inNAT64 {ttl : UInt32} {r : RR} (h : p.InNAT64 pf r) :
    synthRR pf p.dns64Prefs ttl r = some r := by
  obtain ⟨ip, addr, hdata, -, -⟩ := h
  simp [synthRR, hdata]

theorem policies_synthesis_iff {req a orig : Msg} {newAns : List RR} (ns extra : List RR)
    (happ : Dns64Applies p.dns64Prefs req)
    (h : a.answer.mapM (synthRR pf p.dns64Prefs (soaTTL req orig)) = some newAns) :
    p.Policies pf req (some a) { orig with answer := newAns, ns := ns, extra := extra } ↔
      p.CleanSynthesis pf req a orig := by
  constructor
  · intro hpol
    refine ⟨fun hq r hr y hy => hpol.bogus hq y ((mem_mapM h y).mpr ⟨r, hr, hy⟩), ?_⟩
    intro hcode r hr hin
    obtain ⟨m, hm, hsynth⟩ := hpol.nat64 happ hcode r
      ((mem_mapM h r).mpr ⟨r, hr, synthRR_of_inNAT64 hin⟩) hin
    obtain rfl := Option.some.inj hm
    exact hsynth
  · intro hclean
    refine ⟨fun hq y hy => ?_, fun _ hcode y hy hin => ⟨a, rfl, ?_⟩⟩
    · obtain ⟨r, hr, hsynth⟩ := (mem_mapM h y).mp hy
      exact hclean.bogus hq r hr y hsynth
    · obtain ⟨r, hr, hsynth⟩ := (mem_mapM h y).mp hy
      rcases synthRR_cases hr hsynth with hs | rfl
      · exact hs
      · exact hclean.nat64 hcode y hr hin

theorem exchangeSelected_of_exchanges :
    p.exchangeSelected pf env d.req (p.selectUpstreams pf d).1 =
      let s := p.dns64Exchange pf env d
      let x := p.mainExchange pf env d
      if s.u ≠ none then ⟨s.resp, s.u, x.err, x.asked ++ s.asked⟩
      else if s.resp.any p.isBogusNXDomain then
        ⟨some (newMsgNXDOMAIN d.req), x.u, x.err, x.asked ++ s.asked⟩
      else ⟨s.resp, x.u, x.err, x.asked ++ s.asked⟩ := rfl

theorem exchangeSelected_obeys :
    (∀ m, (p.exchangeSelected pf env d.req (p.selectUpstreams pf d).1).resp = some m →
      (p.exchangeSelected pf env d.req (p.selectUpstreams pf d).1).u ≠ none →
      m.question.length = 1 →
      p.Policies pf d.req ((p.dns64Reply pf env d).map Prod.fst) m) ↔
    ∀ a orig, p.dns64Reply pf env d = some (a, orig) → orig.question.length = 1 →
      p.CleanSynthesis pf d.req a orig := by
  rw [exchangeSelected_of_exchanges]
  rcases dns64Exchange_cases pf p env d with
    ⟨hu, hreply, hresp⟩ | ⟨a, orig, newAns, hu, hreply, hans, hresp⟩
  · rw [hreply]
    refine ⟨fun _ _ _ h => (nomatch h), fun _ m hm _ hlen => ?_⟩
    simp only [hu, ne_eq, not_true_eq_false, if_false] at hm
    split at hm
    · obtain rfl := Option.some.inj hm
      exact policies_nxdomain _
    · next hb =>
      rw [hresp] at hm hb
      obtain ⟨m₀, hm₀, rfl⟩ := Option.map_eq_some_iff.mp hm
      rw [hm₀, Option.map_some, Option.any_some, Bool.not_eq_true] at hb
      obtain ⟨answer, hframe⟩ := checkDNS64_frame pf p.dns64Prefs env.newID d.req m₀
      exact policies_main _ hb (by rw [hframe] at hlen; exact hlen)
  · have hsynth := policies_synthesis_iff a.ns a.extra (applies_of_dns64Reply hreply) hans
    rw [hreply]
    simp only [hu, ne_eq, not_false_eq_true, if_true, hresp, Option.some.injEq, Option.map_some,
      Prod.mk.injEq]
    constructor
    · rintro hall _ _ ⟨rfl, rfl⟩ hlen
      exact hsynth.mp (hall _ rfl trivial hlen)
    · rintro hall _ rfl - hlen
      exact hsynth.mpr (hall a orig ⟨rfl, rfl⟩ hlen)

end Outcome

theorem replyFromUpstream_cases (pf : Platform) (p : Proxy) (env : UpstreamEnv) (d : DNSContext) :
    ((p.selectUpstreams pf d).1 = [] ∧ p.replyFromUpstream pf env d =
      ⟨false, some .noUpstreams, { d with res := some (newMsgNXDOMAIN d.req) }, [], none⟩) ∨
    (p.selectUpstreams pf d).1 ≠ [] ∧
      ((∃ fallbacks asked, (p.mainExchange pf env d).err ≠ none ∧
          (p.selectUpstreams pf d).2 = false ∧ p.fallbacks = some fallbacks ∧
          p.replyFromUpstream pf env d =
            let fups := fallbacks.getUpstreamsForDomain d.req.firstQuestion.name
            p.conclude env d (p.selectUpstreams pf d).1 fups
              { exchangeParallel env.fallback fups d.req with asked := asked }) ∨
        (∀ m, ¬p.FallbackReply pf env d m) ∧
          p.replyFromUpstream pf env d = p.conclude env d (p.selectUpstreams pf d).1 []
            (p.exchangeSelected pf env d.req (p.selectUpstreams pf d).1)) := by
  unfold Proxy.replyFromUpstream
  simp only
  by_cases hups : (p.selectUpstreams pf d).1 = []
  · exact .inl ⟨hups, by rw [if_pos (List.length_eq_zero_iff.mpr hups)]⟩
  · refine .inr ⟨hups, ?_⟩
    rw [if_neg (fun h => hups (List.length_eq_zero_iff.mp h))]
    have herr : (p.exchangeSelected pf env d.req (p.selectUpstreams pf d).1).err =
        (p.mainExchange pf env d).err := by
      unfold Proxy.exchangeSelected Proxy.mainExchange
      simp only
      split
      · rfl
      · split <;> rfl
    split
    · next e fallbacks hfailed hpriv hfb =>
      have hne : (p.mainExchange pf env d).err ≠ none := by
        rw [← herr, hfailed]
        exact Option.some_ne_none e
      exact .inl ⟨fallbacks, _, hne, hpriv, hfb, rfl⟩
    · next hno =>
      refine .inr ⟨?_, rfl⟩
      rintro m ⟨-, hne, hpriv, fb, hfb, -⟩
      obtain ⟨e, he⟩ := Option.ne_none_iff_exists'.mp hne
      exact hno e fb (herr.trans he) hpriv hfb

/-- An outcome obeys the policies if and only if the response of the fallbacks does, when
they are asked, and the response that DNS64 takes addresses from leads to one that
does. -/
theorem reply_policies_iff (pf : Platform) (p : Proxy) (env : UpstreamEnv) (d : DNSContext) :
    p.ReplyObeys pf env d ↔
      (∀ m, p.FallbackReply pf env d m → m.question.length = 1 → p.CleanFallback pf d.req m) ∧
      ∀ a orig, p.dns64Reply pf env d = some (a, orig) → orig.question.length = 1 →
        p.CleanSynthesis pf d.req a orig := by
  unfold Proxy.ReplyObeys
  rcases replyFromUpstream_cases pf p env d with ⟨hups, hr⟩ | ⟨hups, ⟨fallbacks, asked, hne, hpriv,
    hfb, hr⟩ | ⟨hno, hr⟩⟩
  · have hresp : (p.mainExchange pf env d).resp = none := by
      cases hr : (p.mainExchange pf env d).resp with
      | none => rfl
      | some m =>
        obtain ⟨u, hu, -⟩ := (exchangeUpstreams_spec pf p.upstreamMode env.main d.req
          (p.selectUpstreams pf d).1).answered m hr
        rw [hups] at hu
        cases hu
    rw [hr, (dns64_of_no_response hresp).1]
    simp [hups, Proxy.FallbackReply]
  · have hresp := exchangeUpstreams_failing pf p.upstreamMode env.main d.req
      (p.selectUpstreams pf d).1 hne
    rw [hr, (dns64_of_no_response hresp).1, conclude_obeys]
    constructor
    · intro hall
      refine ⟨?_, fun _ _ h => (nomatch h)⟩
      rintro m ⟨-, -, -, fb, hfb', hm⟩ hlen
      obtain rfl := Option.some.inj (hfb.symm.trans hfb')
      obtain ⟨u, -, hu, -⟩ := (exchangeParallel_within env.fallback _ d.req).answered m hm
      exact policies_none_iff.mp (hall m hm (by rw [hu]; exact Option.some_ne_none u) hlen)
    · rintro ⟨hall, -⟩ m hm - hlen
      exact policies_none_iff.mpr (hall m ⟨hups, hne, hpriv, fallbacks, hfb, hm⟩ hlen)
  · rw [hr, conclude_obeys, exchangeSelected_obeys]
    exact ⟨fun h => ⟨fun m hm => absurd hm (hno m), h⟩, fun h => h.2⟩

/-! ## Concrete inputs -/

def fallbackUpstream : Upstream := ⟨3, [56, 46, 56, 46, 56, 46, 56]⟩

/-- A proxy with a fallback and DNS64, to which 192.0.2.0/24 and 64:ff9b::c000:200/120 are
bogus. -/
def policyProxy : Proxy :=
  { exampleProxy with
    fallbacks := some (plainConfig [fallbackUpstream])
    dns64Prefs := [dns64WellKnownPref]
    bogusNXDomain := [⟨[192, 0, 2, 0], 24⟩,
      ⟨[0, 0x64, 0xff, 0x9b, 0, 0, 0, 0, 0, 0, 0, 0, 192, 0, 2, 0], 120⟩] }

def exampleQueryAAAA : Msg := { exampleQuery with question := [⟨exampleOrg, typeAAAA, classINET⟩] }

/-- The response with the AAAA record of the address that DNS64 maps 192.0.2.1 to. -/
def mappedAnswer : Msg :=
  { exampleAnswer with
    question := exampleQueryAAAA.question
    answer := [⟨exampleOrg, classINET, 60,
      .aaaa [0, 0x64, 0xff, 0x9b, 0, 0, 0, 0, 0, 0, 0, 0, 192, 0, 2, 1]⟩] }

/-- The addresses in the answer that the client gets, with the server they are from. -/
def repliedAddrs (env : UpstreamEnv) (req : Msg) : Option Upstream × Option (List Addr) :=
  let r := policyProxy.replyFromUpstream examplePlatform env (udpContext req)
  (r.source, r.ctx.res.map fun m => m.answer.map addrFromRR)

/-- The selected upstream times out and the fallback answers with a bogus address; with
one inside the NAT64 prefix; and DNS64 maps an address of the selected upstream to a
bogus one. -/
theorem reply_policies_violated :
    repliedAddrs ⟨timingOut, timingOut, answering fun _ _ => some exampleAnswer, 0⟩ exampleQuery =
      (some fallbackUpstream, some [[192, 0, 2, 1]]) ∧
    repliedAddrs ⟨timingOut, timingOut, answering fun _ _ => some mappedAnswer, 0⟩
      exampleQueryAAAA =
      (some fallbackUpstream,
        some [[0, 0x64, 0xff, 0x9b, 0, 0, 0, 0, 0, 0, 0, 0, 192, 0, 2, 1]]) ∧
    repliedAddrs ⟨answering fun _ _ => some { mappedAnswer with answer := [] },
      answering fun _ _ => some exampleAnswer, timingOut, 0⟩ exampleQueryAAAA =
      (some exampleUpstream,
        some [[0, 0x64, 0xff, 0x9b, 0, 0, 0, 0, 0, 0, 0, 0, 192, 0, 2, 1]]) ∧
    subnetsContain policyProxy.bogusNXDomain [192, 0, 2, 1] = true ∧
    subnetsContain policyProxy.bogusNXDomain
      [0, 0x64, 0xff, 0x9b, 0, 0, 0, 0, 0, 0, 0, 0, 192, 0, 2, 1] = true := by
  decide +kernel

end DnsProxy
