import DnsProxy.ClientShape
import DnsProxy.Pending

/-!
# The response of a follower

A call that joined another one gets a copy of the response that was completed for
the other client: filtered with its flags, with or without an OPT record as it sent
one, and cut to its limit. Nothing of this is done again for the follower.

* `coalesced_shaped_iff`: the pairs of clients for which no follower can tell. The
  follower has to ask for all that the leader asks for, and its limit has to be the
  lower one.
-/

namespace DnsProxy

open Net

/-! ## The response -/

/-- The context that `queue` leaves for the follower `d₂` of a call that completed
`d'`. -/
def joinedTo (pf : Platform) (d' d₂ : DNSContext) : DNSContext :=
  let l := complete pf d'
  Pending.follow d₂ (⟨l.upstream, l.queryStatistics, l.res, ()⟩ : Pending.Clone Unit)

/-- The limit of the transport that the client `d` uses. -/
def clientLimit (d : DNSContext) : UInt16 :=
  if d.proto = .udp then max minMsgSize (advertisedSize d.req) else maxMsgSize

/-- What the follower `d` is owed of its response `r`, which is `whole` before it was
cut. -/
structure ShapedForFollower (pf : Platform) (d : DNSContext) (whole r : Msg) : Prop where
  ad : r.authenticatedData = true → d.req.authenticatedData = true ∨ d.req.doBit = true
  dnssec : ∀ x ∈ r.records, isDNSSEC x = true → x.rrtype ≠ d.req.firstQuestion.qtype →
    d.req.doBit = true
  opt : r.isEdns0 ≠ none → d.req.isEdns0 ≠ none
  tc : r.truncated = true → (pf.truncate whole (clientLimit d).toNat).truncated = true

/-- The types of records without names that can be compressed: the signatures, the
denials and the private ones. -/
def Uncompressed (t : UInt16) : Prop := t = typeRRSIG ∨ t = typeNSEC ∨ 65280 ≤ t

/-- What `Truncate` is documented to do: it removes records if and only if the message
is longer than the limit, which is at least 512, never the OPT record, and sets the TC
bit when it does. `len` is the length of a message with names compressed, and `wire` that
of a name by itself. -/
structure Platform.Cuts (pf : Platform) (len : Msg → Nat) : Prop where
  header : ∀ m n, ∃ tc cmp answer ns extra, pf.truncate m n =
    { m with truncated := tc, compress := cmp, answer := answer, ns := ns, extra := extra }
  records : ∀ m n, ∀ r ∈ (pf.truncate m n).records, r ∈ m.records
  keepsOPT : pf.KeepsOPT
  truncated : ∀ m n, (pf.truncate m n).truncated = (m.truncated || decide (max n 512 < len m))
  whole : ∀ m n, len m ≤ max n 512 → ∀ r ∈ m.records, r ∈ (pf.truncate m n).records
  oneRecord : ∃ wire : Bytes → Nat, wire [labelSep] = 1 ∧
    ∀ (m : Msg) q rclass ttl t data, Uncompressed t.1 → m.question = [q] → m.answer = [] →
      m.ns = [⟨[labelSep], rclass, ttl, .other t data⟩] →
      (m.extra = [] ∨ ∃ size dob, m.extra = [Msg.newOPT size dob]) →
      len m = 27 + wire q.name + data.length + 11 * m.extra.length

theorem joinedTo_res (pf : Platform) {d' : DNSContext} (d₂ : DNSContext) {m : Msg}
    (h : d'.res = some m) :
    (joinedTo pf d' d₂).res =
      some (Msg.setReply { pf.truncate (beforeTruncate d' m) (truncateSize d').toNat with
        compress := true } d₂.req) := by
  unfold joinedTo Pending.follow
  simp only [complete_res pf h]

/-! ## What the leader's response is made for -/

/-- The limit that the response to `d` is cut to. -/
def Proxy.limit (pf : Platform) (p : Proxy) (d : DNSContext) : UInt16 :=
  if d.proto = .udp then
    max minMsgSize (((p.sentInfo pf d).map Prod.fst).getD
      (if p.dnsSecEnabled && p.cacheWorks d then defaultUDPBufSize else 0))
  else maxMsgSize

theorem le_limit (pf : Platform) (p : Proxy) (d : DNSContext) : 512 ≤ (p.limit pf d).toNat := by
  have hmax : ∀ n : UInt16, 512 ≤ (max minMsgSize n).toNat := by
    intro n
    have hdef : max minMsgSize n = if minMsgSize ≤ n then n else minMsgSize := rfl
    rw [hdef]
    split
    · next h => exact UInt16.le_iff_toNat_le.mp h
    · decide
  unfold Proxy.limit
  split
  · exact hmax _
  · decide

section Leader

variable {pf : Platform} {p : Proxy} {d d' : DNSContext}

theorem Proxy.Flags.truncateSize_eq_limit (h : p.Flags pf d d') :
    truncateSize d' = p.limit pf d := by
  unfold Proxy.limit
  by_cases hudp : d.proto = .udp
  · rw [if_pos hudp, truncateSize_eq (h.proto.trans hudp)]
    by_cases hforces : p.ForcesDO d
    · rw [h.forced hforces]
      cases p.sentInfo pf d with
      | none => simp [hforces.1, hforces.2]
      | some i => rfl
    · have hoff : (p.dnsSecEnabled && p.cacheWorks d) = false := by
        rw [← Bool.not_eq_true, Bool.and_eq_true]
        exact hforces
      rw [h.kept hforces, hoff]
      rfl
  · have hudp' : d'.proto ≠ .udp := by rw [h.proto]; exact hudp
    rw [if_neg hudp, truncateSize, dnsSize]
    simp [hudp']

theorem Proxy.Flags.doBit_eq (h : p.Flags pf d d') : d'.doBit = d.req.doBit := by
  have hreq : ((optInfo d.req).map Prod.snd).getD false = d.req.doBit := by
    unfold optInfo Msg.doBit
    cases d.req.isEdns0 <;> rfl
  rw [h.doBit]
  by_cases hadds : p.AddsSubnet pf d
  · rw [sentInfo_of_adds hadds, ← hreq, optInfo_eq_none.mpr hadds.1]
    rfl
  · rw [sentInfo_of_not_adds hadds, hreq]

theorem Proxy.Flags.sent_of_hasEDNS0 (h : p.Flags pf d d')
    (hedns : d'.hasEDNS0 = true → (p.sentInfo pf d).isSome = true)
    (hfinal : (calcFlagsAndSize d').hasEDNS0 = true) : (p.sentInfo pf d).isSome = true := by
  by_cases h0 : d'.udpSize = 0
  · cases hs : p.sentInfo pf d with
    | none => exact absurd h0 (h.size_of_none hs)
    | some i => rfl
  · rw [calcFlagsAndSize_of_size h0] at hfinal
    exact hedns hfinal

theorem beforeTruncate_ad (m : Msg) : (beforeTruncate d' m).authenticatedData =
    (m.authenticatedData && (d'.adBit || d'.doBit)) := by
  obtain ⟨extra, he⟩ :=
    withEdns0_eq (calcFlagsAndSize d') (filterMsg m m d'.adBit d'.doBit 0)
  rw [beforeTruncate, he]
  rfl

theorem not_dnssec_of_opt {x : RR} (h : x.rrtype = typeOPT) : isDNSSEC x = false := by
  unfold isDNSSEC
  rw [h]
  decide

theorem doBit_of_mem_filter {rrs : List RR} {dob : Bool} {except : UInt16} {x : RR}
    (hx : x ∈ filterRRSlice rrs dob 0 except) (hsec : isDNSSEC x = true)
    (hne : x.rrtype ≠ except) : dob = true := by
  obtain ⟨r, hr, rfl⟩ := List.mem_map.mp hx
  have hsame : overwriteTTL 0 r = r := if_neg (not_not.mpr rfl)
  rw [hsame] at hsec hne
  have hkeep := (List.mem_filter.mp hr).2
  cases dob with
  | true => rfl
  | false => simp [keepsRR, hsec, hne] at hkeep

theorem dnssec_ne_none {x : RR} (h : isDNSSEC x = true) : x.rrtype ≠ typeNone := by
  intro h0
  unfold isDNSSEC at h
  rw [h0] at h
  revert h
  decide

theorem doBit_of_mem_beforeTruncate {m : Msg} {x : RR} (hx : x ∈ (beforeTruncate d' m).records)
    (hsec : isDNSSEC x = true) (hne : x.rrtype ≠ m.firstQuestion.qtype) : d'.doBit = true := by
  have hfilter : x ∈ (filterMsg m m d'.adBit d'.doBit 0).records := by
    unfold beforeTruncate withEdns0 at hx
    split at hx
    · rw [Msg.records, Msg.setEdns0, ← List.append_assoc, List.mem_append] at hx
      refine hx.resolve_right fun hopt => ?_
      rw [List.mem_singleton] at hopt
      rw [not_dnssec_of_opt (by rw [hopt]; rfl)] at hsec
      cases hsec
    · exact hx
  rcases List.mem_append.mp hfilter with hmem | hextra
  · rcases List.mem_append.mp hmem with hans | hns
    · exact doBit_of_mem_filter hans hsec hne
    · exact doBit_of_mem_filter hns hsec (dnssec_ne_none hsec)
  · exact doBit_of_mem_filter hextra hsec (dnssec_ne_none hsec)

end Leader

/-! ## When no follower can tell -/

/-- The follower `d₂` asks for all that the leader `d₁` is given. -/
structure Proxy.Dominates (pf : Platform) (p : Proxy) (d₁ d₂ : DNSContext) : Prop where
  dnssec : d₁.req.doBit = true → d₂.req.doBit = true
  ad : d₁.req.authenticatedData = true ∨ d₁.req.doBit = true →
    d₂.req.authenticatedData = true ∨ d₂.req.doBit = true
  opt : (p.sentInfo pf d₁).isSome = true → d₂.req.isEdns0 ≠ none
  limit : clientLimit d₂ ≤ p.limit pf d₁

theorem Proxy.Dominates.shaped {pf : Platform} {len : Msg → Nat} (hcuts : pf.Cuts len) {p : Proxy}
    {d₁ d₂ d' : DNSContext} (hdom : p.Dominates pf d₁ d₂) (hflags : p.Flags pf d₁ d')
    (hedns : d'.hasEDNS0 = true → (p.sentInfo pf d₁).isSome = true) {m : Msg}
    (hres : d'.res = some m) (hq : m.firstQuestion.qtype = d₂.req.firstQuestion.qtype)
    (d₂' : DNSContext) {r : Msg} (hr : (joinedTo pf d' d₂').res = some r) :
    ShapedForFollower pf d₂ (beforeTruncate d' m) r := by
  rw [joinedTo_res pf d₂' hres] at hr
  obtain rfl := Option.some.inj hr
  obtain ⟨tc, cmp, answer, ns, extra, hcut⟩ :=
    hcuts.header (beforeTruncate d' m) (truncateSize d').toNat
  refine ⟨?_, ?_, ?_, ?_⟩
  · intro had
    have had' : (beforeTruncate d' m).authenticatedData = true := by
      simpa [Msg.setReply, hcut] using had
    rw [beforeTruncate_ad, Bool.and_eq_true, Bool.or_eq_true, hflags.adBit, hflags.doBit_eq] at had'
    exact hdom.ad had'.2
  · intro x hx hsec hne
    have hdob := doBit_of_mem_beforeTruncate (hcuts.records _ _ x hx) hsec (hq ▸ hne)
    exact hdom.dnssec (hflags.doBit_eq ▸ hdob)
  · intro hopt
    have hinfo := optInfo_complete hcuts.keepsOPT (complete_res pf hres)
    refine hdom.opt (hflags.sent_of_hasEDNS0 hedns ?_)
    by_contra hno
    rw [if_neg hno] at hinfo
    exact hopt (optInfo_eq_none.mp hinfo)
  · intro htc
    have htc' : (pf.truncate (beforeTruncate d' m) (truncateSize d').toNat).truncated = true := htc
    rw [hcuts.truncated, Bool.or_eq_true, decide_eq_true_eq, hflags.truncateSize_eq_limit] at htc'
    rw [hcuts.truncated, Bool.or_eq_true, decide_eq_true_eq]
    refine htc'.imp_right fun hlen => lt_of_le_of_lt (max_le_max ?_ le_rfl) hlen
    exact UInt16.le_iff_toNat_le.mp hdom.limit

/-! ## Responses that tell the clients apart -/

/-- A name error for the question, with one record of the root zone. -/
def probe (q : Question) (ad : Bool)
    (t : { t : UInt16 // t ≠ typeA ∧ t ≠ typeAAAA ∧ t ≠ typeOPT }) (data : Bytes) : Msg :=
  { authenticatedData := ad
    rcode := rcodeNameError
    question := [q]
    ns := [⟨[labelSep], classINET, 0, .other t data⟩] }

section Probe

variable {pf : Platform} {p : Proxy} {d d' : DNSContext}
  {t : { t : UInt16 // t ≠ typeA ∧ t ≠ typeAAAA ∧ t ≠ typeOPT }} {data : Bytes}

theorem exists_probe (hups : (p.selectUpstreams pf (p.prepare pf d).1).1 ≠ []) (q : Question)
    (ad : Bool) (t : { t : UInt16 // t ≠ typeA ∧ t ≠ typeAAAA ∧ t ≠ typeOPT }) (data : Bytes) :
    ∃ d', p.Answers pf d d' ∧ d'.res = some (p.setMinMaxTTL (probe q ad t data)) ∧
      d'.hasEDNS0 = (p.prepare pf d).1.hasEDNS0 := by
  obtain ⟨hres, hedns, -⟩ := replyFromUpstream_answering pf p (p.prepare pf d).1
    (m := probe q ad t data) rfl rfl rfl hups
  exact ⟨_, .exchanged _, hres, hedns⟩

theorem beforeTruncate_probe (p : Proxy) (q : Question) (ad : Bool)
    (hkeep : isDNSSEC ⟨[labelSep], classINET, 0, .other t data⟩ = true → d'.doBit = true) : ∃ ttl,
      let w := beforeTruncate d' (p.setMinMaxTTL (probe q ad t data))
      w.question = [q] ∧ w.answer = [] ∧
      w.ns = [⟨[labelSep], classINET, ttl, .other t data⟩] ∧ w.truncated = false ∧
      (w.extra = [] ∨ ∃ size dob, w.extra = [Msg.newOPT size dob]) ∧
      w.extra.length = (calcFlagsAndSize d').hasEDNS0.toNat := by
  have hkept : ∀ ttl, keepsRR d'.doBit typeNone ⟨[labelSep], classINET, ttl, .other t data⟩ =
      true := by
    intro ttl
    have hopt : ((t.1 == typeOPT) : Bool) = false := by simp [t.2.2.2]
    cases hdob : d'.doBit with
    | true => simp [keepsRR, RR.rrtype, RData.rrtype, hopt]
    | false =>
      have hno : isDNSSEC ⟨[labelSep], classINET, ttl, .other t data⟩ = false := by
        rw [← Bool.not_eq_true]
        intro hsec
        rw [hkeep hsec] at hdob
        cases hdob
      simp [keepsRR, hno, RR.rrtype, RData.rrtype, hopt]
  refine ⟨respectTTLOverrides 0 p.cacheMinTTL p.cacheMaxTTL, ?_⟩
  unfold beforeTruncate withEdns0
  simp only [isEdns0_filterMsg, and_true]
  split
  · next hyes =>
    refine ⟨rfl, rfl, ?_, rfl, .inr ⟨_, _, rfl⟩, by rw [hyes]; rfl⟩
    simp [filterMsg, filterRRSlice, Proxy.setMinMaxTTL, probe, Msg.setEdns0, hkept, overwriteTTL]
  · next hno =>
    refine ⟨rfl, rfl, ?_, rfl, .inl rfl, by rw [Bool.eq_false_iff.mpr hno]; rfl⟩
    simp [filterMsg, filterRRSlice, Proxy.setMinMaxTTL, probe, hkept, overwriteTTL]

end Probe

/-- The question of a request; at the root, if the name is longer than one on the wire can be. -/
def probeQuestion (wire : Bytes → Nat) (q : Question) : Question :=
  if wire q.name ≤ 255 then q else { q with name := [labelSep] }

theorem probeQuestion_spec {wire : Bytes → Nat} (hroot : wire [labelSep] = 1) (q : Question) :
    (probeQuestion wire q).qtype = q.qtype ∧ wire (probeQuestion wire q).name ≤ 255 := by
  unfold probeQuestion
  split
  · next h => exact ⟨rfl, h⟩
  · exact ⟨rfl, hroot.trans_le (by decide)⟩

/-- No follower `d₂`, with `d₂'` as its prepared context, of a call for `d₁` can tell that
its response was made for another client. -/
def Proxy.CoalescesWell (pf : Platform) (p : Proxy) (d₁ d₂ d₂' : DNSContext) : Prop :=
  ∀ d' m, p.Answers pf d₁ d' → d'.res = some m →
    m.firstQuestion.qtype = d₁.req.firstQuestion.qtype →
    ∀ r, (joinedTo pf d' d₂').res = some r → ShapedForFollower pf d₂ (beforeTruncate d' m) r

def privateType : { t : UInt16 // t ≠ typeA ∧ t ≠ typeAAAA ∧ t ≠ typeOPT } := ⟨65280, by decide⟩
def nsecType : { t : UInt16 // t ≠ typeA ∧ t ≠ typeAAAA ∧ t ≠ typeOPT } := ⟨47, by decide⟩
def rrsigType : { t : UInt16 // t ≠ typeA ∧ t ≠ typeAAAA ∧ t ≠ typeOPT } := ⟨46, by decide⟩

/-- There is a short DNSSEC record of a type that was not asked for: a denial, or a
signature. -/
theorem exists_dnssec (qtype : UInt16) :
    ∃ (t : { t : UInt16 // t ≠ typeA ∧ t ≠ typeAAAA ∧ t ≠ typeOPT }) (data : Bytes),
      Uncompressed t.1 ∧ t.1 ≠ qtype ∧ data.length ≤ 19 ∧
        ∀ ttl, isDNSSEC ⟨[labelSep], classINET, ttl, .other t data⟩ = true := by
  by_cases h : nsecType.1 = qtype
  · refine ⟨rrsigType, List.replicate 19 0, .inl rfl, ?_, by simp, fun _ => rfl⟩
    rw [← h]
    decide
  · exact ⟨nsecType, [0], .inr (.inl rfl), h, by simp, fun _ => rfl⟩

theorem calcFlagsAndSize_hasEDNS0 {d : DNSContext} (h : d.hasEDNS0 = true) :
    (calcFlagsAndSize d).hasEDNS0 = true := by
  unfold calcFlagsAndSize
  split
  · exact h
  · split
    · exact h
    · rfl

section Tell

variable {pf : Platform} {len : Msg → Nat} {p : Proxy} {d₁ d₂ d₂' : DNSContext}

theorem Proxy.CoalescesWell.dnssec (hall : p.CoalescesWell pf d₁ d₂ d₂') (hcuts : pf.Cuts len)
    (hfresh : d₁.Fresh) (hups : (p.selectUpstreams pf (p.prepare pf d₁).1).1 ≠ [])
    (hq : d₁.req.firstQuestion.qtype = d₂.req.firstQuestion.qtype) (hdo : d₁.req.doBit = true) :
    d₂.req.doBit = true := by
  obtain ⟨wire, hroot, hwire⟩ := hcuts.oneRecord
  obtain ⟨hqtype, hname⟩ := probeQuestion_spec hroot d₁.req.firstQuestion
  generalize probeQuestion wire d₁.req.firstQuestion = q at hqtype hname
  obtain ⟨t, data, hplain, hne, hshort, hsec⟩ := exists_dnssec d₁.req.firstQuestion.qtype
  obtain ⟨d', hans, hres, -⟩ := exists_probe hups q false t data
  have hdob : d'.doBit = true := ((hans.flags hfresh).1.doBit_eq).trans hdo
  obtain ⟨ttl, hquest, hnone, hns, -, hextra, hone⟩ := beforeTruncate_probe p q false
    fun _ : isDNSSEC ⟨_, _, _, .other t data⟩ = true => hdob
  have hlen := hwire _ _ _ _ _ _ hplain hquest hnone hns hextra
  have hle := Bool.toNat_le (calcFlagsAndSize d').hasEDNS0
  have hshaped := hall d' _ hans hres hqtype _ (joinedTo_res pf d₂' hres)
  refine hshaped.dnssec ⟨[labelSep], classINET, ttl, .other t data⟩ ?_ (hsec ttl) (hq ▸ hne)
  refine hcuts.whole _ _ ?_ _ (by simp [Msg.records, hns])
  rw [hlen, hone]
  exact le_max_of_le_right (by omega)

theorem Proxy.CoalescesWell.ad (hall : p.CoalescesWell pf d₁ d₂ d₂') (hcuts : pf.Cuts len)
    (hfresh : d₁.Fresh) (hups : (p.selectUpstreams pf (p.prepare pf d₁).1).1 ≠ [])
    (had : d₁.req.authenticatedData = true ∨ d₁.req.doBit = true) :
    d₂.req.authenticatedData = true ∨ d₂.req.doBit = true := by
  obtain ⟨d', hans, hres, -⟩ :=
    exists_probe hups d₁.req.firstQuestion true privateType []
  have hflags := (hans.flags hfresh).1
  obtain ⟨tc, cmp, answer, ns, extra, hcut⟩ := hcuts.header (beforeTruncate d'
    (p.setMinMaxTTL (probe d₁.req.firstQuestion true privateType []))) (truncateSize d').toNat
  refine (hall d' _ hans hres rfl _ (joinedTo_res pf d₂' hres)).ad ?_
  rw [hcut]
  show (beforeTruncate d' _).authenticatedData = true
  rw [beforeTruncate_ad, hflags.adBit, hflags.doBit_eq, Bool.and_eq_true, Bool.or_eq_true]
  exact ⟨rfl, had⟩

theorem Proxy.CoalescesWell.opt (hall : p.CoalescesWell pf d₁ d₂ d₂') (hcuts : pf.Cuts len)
    (hfresh : d₁.Fresh) (hups : (p.selectUpstreams pf (p.prepare pf d₁).1).1 ≠ [])
    (hsent : (p.sentInfo pf d₁).isSome = true) : d₂.req.isEdns0 ≠ none := by
  obtain ⟨d', hans, hres, hedns⟩ :=
    exists_probe hups d₁.req.firstQuestion false privateType []
  refine (hall d' _ hans hres rfl _ (joinedTo_res pf d₂' hres)).opt fun hnone => ?_
  have hinfo := optInfo_complete hcuts.keepsOPT (complete_res pf hres)
  rw [(prepare_optFlags pf p hfresh).2, hsent] at hedns
  rw [if_pos (calcFlagsAndSize_hasEDNS0 hedns)] at hinfo
  cases (optInfo_eq_none.mpr hnone).symm.trans hinfo

/-- Between the two limits there is room for a response that is cut for the leader
and would fit for the follower. -/
theorem Proxy.CoalescesWell.limit (hall : p.CoalescesWell pf d₁ d₂ d₂') (hcuts : pf.Cuts len)
    (hfresh : d₁.Fresh) (hups : (p.selectUpstreams pf (p.prepare pf d₁).1).1 ≠ []) :
    clientLimit d₂ ≤ p.limit pf d₁ := by
  by_contra hlt
  rw [UInt16.not_le, UInt16.lt_iff_toNat_lt] at hlt
  have hmin := le_limit pf p d₁
  obtain ⟨wire, hroot, hwire⟩ := hcuts.oneRecord
  obtain ⟨hqtype, hname⟩ := probeQuestion_spec hroot d₁.req.firstQuestion
  generalize probeQuestion wire d₁.req.firstQuestion = q at hqtype hname
  -- The data fills the probe up to the follower's limit, with the leader's OPT record.
  let e := (p.sentInfo pf d₁).isSome.toNat
  have he : e ≤ 1 := Bool.toNat_le _
  let data : Bytes := List.replicate ((clientLimit d₂).toNat - 27 - wire q.name - 11 * e) 0
  obtain ⟨d', hans, hres, hedns⟩ := exists_probe hups q false privateType data
  obtain ⟨hflags, hsome⟩ := hans.flags hfresh
  have hfinal : (calcFlagsAndSize d').hasEDNS0 = (p.sentInfo pf d₁).isSome := by
    rw [(prepare_optFlags pf p hfresh).2] at hedns
    exact Bool.eq_iff_iff.mpr ⟨hflags.sent_of_hasEDNS0 hsome,
      fun h => calcFlagsAndSize_hasEDNS0 (hedns.trans h)⟩
  obtain ⟨ttl, hquest, hnone, hns, htc, hextra, hone⟩ := beforeTruncate_probe p q false
    fun hsec : isDNSSEC ⟨_, _, _, .other privateType data⟩ = true =>
      (nomatch hsec : d'.doBit = true)
  have hlen := hwire _ _ _ _ _ _ (.inr (.inr (by decide))) hquest hnone hns hextra
  have hfull : 27 + wire q.name + data.length + 11 * e = (clientLimit d₂).toNat := by
    simp only [data, List.length_replicate]
    omega
  rw [hone, hfinal, hfull] at hlen
  have hcut : (pf.truncate (beforeTruncate d' (p.setMinMaxTTL (probe q false privateType data)))
      (truncateSize d').toNat).truncated = true := by
    rw [hcuts.truncated, hflags.truncateSize_eq_limit, hlen, Bool.or_eq_true, decide_eq_true_eq]
    exact .inr (max_lt hlt (lt_of_le_of_lt hmin hlt))
  have hfits := (hall d' _ hans hres hqtype _ (joinedTo_res pf d₂' hres)).tc hcut
  rw [hcuts.truncated, htc, hlen, Bool.false_or, decide_eq_true_eq] at hfits
  exact absurd hfits (not_lt.mpr (le_max_left _ _))

end Tell

theorem qtype_of_pendingKey {d₁ d₂ : DNSContext} {k : Bytes} (h₁ : pendingKey d₁ = some k)
    (h₂ : pendingKey d₂ = some k) :
    d₁.req.firstQuestion.qtype = d₂.req.firstQuestion.qtype := by
  have hhead : ∀ {d : DNSContext}, pendingKey d = some k → ∃ rest, k = keyHead d.req ++ rest := by
    intro d h
    unfold pendingKey at h
    split at h
    · obtain ⟨⟨ip, ones⟩, -, hkey⟩ := Option.map_eq_some_iff.mp h
      exact ⟨_, hkey.symm⟩
    · exact ⟨_, (Option.some.inj h).symm⟩
  obtain ⟨r₁, hk₁⟩ := hhead h₁
  obtain ⟨r₂, hk₂⟩ := hhead h₂
  have hlen : (keyHead d₁.req).length = (keyHead d₂.req).length := by simp
  exact (keyHead_inj (List.append_inj_left (hk₁.symm.trans hk₂) hlen)).2.1

theorem firstQuestion_prepare (pf : Platform) (p : Proxy) (d : DNSContext) :
    (p.prepare pf d).1.req.firstQuestion = d.req.firstQuestion := by
  have hp : p.prepare pf d = ((p.prepare pf d).1, (p.prepare pf d).2) := rfl
  rw [Msg.firstQuestion, (prepare_spec hp).1.question]
  rfl

/-- A follower with the pending key of its leader cannot tell, whatever the response is, if
it asks for all that the leader is given and its limit is not above the leader's; and if
there is an upstream to ask, only then. -/
theorem coalesced_shaped_iff (pf : Platform) (len : Msg → Nat) (hcuts : pf.Cuts len) (p : Proxy)
    (d₁ d₂ : DNSContext) (hfresh : d₁.Fresh) (k : Bytes)
    (hkey₁ : pendingKey (p.prepare pf d₁).1 = some k)
    (hkey₂ : pendingKey (p.prepare pf d₂).1 = some k) :
    (p.Dominates pf d₁ d₂ → p.CoalescesWell pf d₁ d₂ (p.prepare pf d₂).1) ∧
    ((p.selectUpstreams pf (p.prepare pf d₁).1).1 ≠ [] →
      p.CoalescesWell pf d₁ d₂ (p.prepare pf d₂).1 → p.Dominates pf d₁ d₂) := by
  have hq : d₁.req.firstQuestion.qtype = d₂.req.firstQuestion.qtype := by
    have hsame := qtype_of_pendingKey hkey₁ hkey₂
    rwa [firstQuestion_prepare, firstQuestion_prepare] at hsame
  constructor
  · intro hdom d' m hans hres hm r hr
    obtain ⟨hflags, hedns⟩ := hans.flags hfresh
    exact hdom.shaped hcuts hflags hedns hres (hm.trans hq) _ hr
  · intro hups hall
    exact ⟨hall.dnssec hcuts hfresh hups hq, hall.ad hcuts hfresh hups,
      hall.opt hcuts hfresh hups, hall.limit hcuts hfresh hups⟩

/-! ## Concrete inputs -/

/-- The platform that knows `exampleAnswer`, with the limit checked against the length
without compression. -/
def measuredPlatform : Platform :=
  { examplePlatform with
    truncate := fun m n => { m with
      compress := false
      truncated := m.truncated || decide (max n 512 < PlainTruncate.plainLen m) } }

theorem measuredPlatform_cuts : measuredPlatform.Cuts PlainTruncate.plainLen where
  header _ _ := ⟨_, _, _, _, _, rfl⟩
  records _ _ _ h := h
  keepsOPT _ _ := rfl
  truncated _ _ := rfl
  whole _ _ _ _ h := h
  oneRecord := by
    refine ⟨fun name => (PlainTruncate.nameLen [] name).1, rfl, ?_⟩
    intro m q rclass ttl t data _ hq ha hns hextra
    have hrec : (PlainTruncate.rrLen [] ⟨[labelSep], rclass, ttl, .other t data⟩).1 =
        1 + 10 + data.length := rfl
    have hopt : ∀ size dob, (PlainTruncate.rrLen [] (Msg.newOPT size dob)).1 = 11 :=
      fun _ _ => rfl
    unfold PlainTruncate.plainLen Msg.records
    rcases hextra with he | ⟨size, dob, he⟩
    · simp [hq, ha, hns, he, hrec]
      omega
    · simp [hq, ha, hns, he, hrec, hopt]
      omega

theorem coalesced_shaped_same :
    ∃ r, (joinedTo measuredPlatform
        (exampleOutcome measuredPlatform exampleProxy (udpContext exampleQuery))
        (exampleProxy.prepare measuredPlatform (udpContext { exampleQuery with id := 2 })).1).res =
          some r ∧
      ShapedForFollower measuredPlatform (udpContext { exampleQuery with id := 2 })
        (beforeTruncate
          (exampleOutcome measuredPlatform exampleProxy (udpContext exampleQuery)) exampleAnswer)
        r := by
  refine ⟨_, rfl, (coalesced_shaped_iff measuredPlatform PlainTruncate.plainLen
    measuredPlatform_cuts exampleProxy (udpContext exampleQuery)
    (udpContext { exampleQuery with id := 2 }) ⟨rfl, rfl, rfl⟩ (msgToKey exampleQuery)
    (by decide +kernel) (by decide +kernel)).1 ?_ _ exampleAnswer (.exchanged _)
    (by decide +kernel) rfl _ rfl⟩
  exact ⟨by decide, by decide, by decide, by decide⟩

/-- A signed answer, with a long record behind it. -/
def signedAnswer : Msg :=
  { exampleAnswer with
    authenticatedData := true
    answer := exampleAnswer.answer ++
      [⟨exampleOrg, classINET, 60, .other rrsigType (List.replicate 19 0)⟩]
    ns := [⟨exampleOrg, classINET, 60, .other privateType (List.replicate 1300 0)⟩] }

/-- The platform with the algorithm of `Truncate`. -/
def cuttingPlatform : Platform := { examplePlatform with truncate := PlainTruncate.truncate }

/-- The outcome for a client that asks for DNSSEC over UDP with a limit of 1232. -/
def signedOutcome : DNSContext :=
  (dnssecProxy.replyFromUpstream cuttingPlatform (answeringEnv fun _ _ => some signedAnswer)
    (dnssecProxy.prepare cuttingPlatform (udpContext (exampleQuery.setEdns0 1232 true))).1).ctx

/-- A client over TCP that sent neither an OPT record nor the AD bit joins a client that
asks for DNSSEC over UDP. It gets the AD bit, a signature, an OPT record, and a response
that is cut although it fits. -/
theorem coalesced_misshaped :
    pendingKey (dnssecProxy.prepare cuttingPlatform
      (udpContext (exampleQuery.setEdns0 1232 true))).1 =
    pendingKey (dnssecProxy.prepare cuttingPlatform (publicContext .tcp exampleQuery)).1 ∧
    (joinedTo cuttingPlatform signedOutcome
      (dnssecProxy.prepare cuttingPlatform (publicContext .tcp exampleQuery)).1).res.map
        (fun r => (r.authenticatedData, r.records.any isDNSSEC, r.isEdns0.isSome, r.truncated)) =
      some (true, true, true, true) ∧
    (cuttingPlatform.truncate (beforeTruncate signedOutcome signedAnswer)
      (clientLimit (publicContext .tcp exampleQuery)).toNat).truncated = false := by
  decide +kernel

end DnsProxy
