import DnsProxy.CacheAge
import DnsProxy.SubnetLookup
import DnsProxy.Proxy

/-!
# Cache transparency

A response from the cache against the same response from an upstream. The cached
path filters twice, in `unpackItem` with the DO bit that `addDO` may have forced
and in `Resolve` with the client's own bits; the other path filters once.

* `resolve_cache_transparent`: the two paths pass the same records to `Truncate`
  under the same header, except for the opcode, which the cached reply takes from
  the request, and the QR bit, which it sets. The two messages leave `Truncate` with
  the same records if the question is spelled alike, or nothing is cut off.
* `resolve_cache_differs`: the exceptions. Compression is sensitive to letter case,
  so the spelling of the question can decide how many records fit.
-/

namespace DnsProxy

open Net BitPrefix

/-! ## Messages that say the same -/

/-- The records of a section without their TTLs. -/
def contents (rrs : List RR) : List (Bytes × UInt16 × RData) := rrs.map RR.content

structure SameSections (a b : Msg) : Prop where
  answer : contents a.answer = contents b.answer
  ns : contents a.ns = contents b.ns
  extra : contents a.extra = contents b.extra

/-- One question each, equal up to letter case. -/
def SameQuestionUpToCase (a b : Msg) : Prop :=
  ∃ q q', a.question = [q] ∧ b.question = [q'] ∧
    toLower q.name = toLower q'.name ∧ q.qtype = q'.qtype ∧ q.qclass = q'.qclass

/-- Headers that differ at most in the id, the opcode and the QR, RD, Z and TC bits,
and questions that differ at most in letter case. -/
structure SameHeader (a b : Msg) : Prop where
  authoritative : a.authoritative = b.authoritative
  recursionAvailable : a.recursionAvailable = b.recursionAvailable
  authenticatedData : a.authenticatedData = b.authenticatedData
  checkingDisabled : a.checkingDisabled = b.checkingDisabled
  rcode : a.rcode = b.rcode
  question : SameQuestionUpToCase a b

/-- No record but the last one of the additional section is an OPT record. -/
def OPTLast (m : Msg) : Prop := ∀ r ∈ m.extra.dropLast, r.rrtype ≠ typeOPT

/-- What `Truncate` is documented to do: it removes records that do not fit, with
the TC bit as the sign of it, moves the OPT record to the end, and changes nothing
else; whether they fit depends on the names and the data of the records, not on
TTLs, ids or flags. -/
structure Platform.TruncateSpec (pf : Platform) : Prop where
  header : ∀ m n, ∃ tc cmp answer ns extra, pf.truncate m n =
    { m with truncated := tc, compress := cmp, answer := answer, ns := ns, extra := extra }
  whole : ∀ m n, OPTLast m → (pf.truncate m n).truncated = false →
    SameSections (pf.truncate m n) m
  byLength : ∀ a b n, a.question.map Question.name = b.question.map Question.name →
    a.truncated = b.truncated → SameSections a b →
    SameSections (pf.truncate a n) (pf.truncate b n) ∧
      (pf.truncate a n).truncated = (pf.truncate b n).truncated

theorem SameSections.trans {a b c : Msg} (h : SameSections a b) (h' : SameSections b c) :
    SameSections a c :=
  ⟨h.answer.trans h'.answer, h.ns.trans h'.ns, h.extra.trans h'.extra⟩

theorem SameSections.symm {a b : Msg} (h : SameSections a b) : SameSections b a :=
  ⟨h.answer.symm, h.ns.symm, h.extra.symm⟩

/-! ## Filtering twice -/

theorem content_overwriteTTL (ttl : UInt32) (r : RR) :
    (overwriteTTL ttl r).content = r.content := by
  unfold overwriteTTL
  split <;> rfl

theorem keepsRR_overwriteTTL (dob : Bool) (except : UInt16) (ttl : UInt32) (r : RR) :
    keepsRR dob except (overwriteTTL ttl r) = keepsRR dob except r := by
  have h : (overwriteTTL ttl r).rrtype = r.rrtype := by
    unfold overwriteTTL
    split <;> rfl
  simp only [keepsRR, isDNSSEC, h]

theorem contents_map_overwriteTTL (ttl : UInt32) (rrs : List RR) :
    contents (rrs.map (overwriteTTL ttl)) = contents rrs := by
  rw [contents, List.map_map]
  exact List.map_congr_left fun r _ => content_overwriteTTL ttl r

theorem keepsRR_mono {dob dob' : Bool} (h : dob = true → dob' = true) {except : UInt16} {r : RR}
    (hk : keepsRR dob except r = true) : keepsRR dob' except r = true := by
  cases dob' with
  | true =>
    cases dob with
    | true => exact hk
    | false =>
      simp only [keepsRR, Bool.not_false, Bool.true_and, Bool.not_or, Bool.and_eq_true] at hk
      simpa [keepsRR] using hk.2
  | false =>
    cases dob with
    | true => cases h rfl
    | false => exact hk

/-- The second filter decides: the first one, with a DO bit that may have been
forced on, keeps at least what the second keeps. -/
theorem contents_filter_twice (rrs : List RR) {dob dob' : Bool} (h : dob = true → dob' = true)
    (ttl : UInt32) (except : UInt16) :
    contents (filterRRSlice (filterRRSlice rrs dob' ttl except) dob 0 except) =
      contents (filterRRSlice rrs dob 0 except) := by
  unfold filterRRSlice
  rw [contents_map_overwriteTTL, contents_map_overwriteTTL, List.filter_map,
    contents_map_overwriteTTL, List.filter_filter]
  congr 1
  refine List.filter_congr fun r _ => ?_
  rw [Function.comp_apply, keepsRR_overwriteTTL]
  cases hk : keepsRR dob except r with
  | false => rfl
  | true => rw [keepsRR_mono h hk]; rfl

theorem isEdns0_filterMsg (dst m : Msg) (ad dob : Bool) (ttl : UInt32) :
    (filterMsg dst m ad dob ttl).isEdns0 = none := by
  unfold Msg.isEdns0
  rw [List.find?_eq_none]
  intro r hr hopt
  obtain ⟨r', hr', rfl⟩ := List.mem_map.mp (List.mem_reverse.mp hr)
  have hk := (List.mem_filter.mp hr').2
  rw [← keepsRR_overwriteTTL dob typeNone ttl] at hk
  simp [keepsRR, beq_iff_eq.mp hopt] at hk

/-! ## The prepared request -/

/-- A context on which nothing has been calculated yet. -/
def DNSContext.Fresh (d : DNSContext) : Prop :=
  d.udpSize = 0 ∧ d.hasEDNS0 = false ∧ d.doBit = false

variable {d : DNSContext} {pf : Platform} {p : Proxy}

theorem DNSContext.Fresh.processECS (h : d.Fresh) (pf : Platform) (cliIP : IP) :
    (processECS pf cliIP d).Fresh := by
  unfold DnsProxy.processECS
  grind [DNSContext.Fresh]

theorem calcFlagsAndSize_flags (h : d.Fresh) :
    (calcFlagsAndSize d).adBit = d.req.authenticatedData ∧
      (calcFlagsAndSize d).doBit = d.req.doBit ∧ (calcFlagsAndSize d).req = d.req := by
  obtain ⟨h0, _, hdo⟩ := h
  unfold calcFlagsAndSize Msg.doBit
  rw [if_neg (not_not.mpr h0)]
  cases d.req.isEdns0 with
  | none => exact ⟨rfl, hdo, rfl⟩
  | some o => exact ⟨rfl, rfl, rfl⟩

theorem doBit_addDO (p : Proxy) {m : Msg} (h : m.doBit = true) : (p.addDO m).doBit = true := by
  unfold Proxy.addDO
  split
  · exact h
  · unfold Msg.doBit at h
    cases ho : m.isEdns0 with
    | none => simp [ho] at h
    | some o =>
      have hdo : o.hasDo = true := by simpa [ho] using h
      simp [Msg.doBit, ho, hdo]

theorem prepare_flags {d₂ : DNSContext} (hfresh : d.Fresh) (h : p.prepare pf d = (d₂, true)) :
    d₂.adBit = d₂.req.authenticatedData ∧ (d₂.doBit = true → d₂.req.doBit = true) ∧
      d₂.req.checkingDisabled = false := by
  unfold Proxy.prepare at h
  generalize hd' : (if p.enableEDNSClientSubnet then processECS pf p.ednsAddr d else d) = d' at h
  have hfresh' : d'.Fresh := by
    rw [← hd']
    split
    · exact hfresh.processECS pf _
    · exact hfresh
  obtain ⟨had, hdo, hreq⟩ := calcFlagsAndSize_flags hfresh'
  simp only at h
  split at h
  · next hw =>
    obtain ⟨rfl, -⟩ := Prod.mk.inj h
    obtain ⟨extra, hadd⟩ := addDO_eq p (calcFlagsAndSize d').req
    refine ⟨?_, ?_, ?_⟩
    · rw [had, hadd, hreq]
    · intro hd
      exact doBit_addDO p (by rw [hreq, ← hdo]; exact hd)
    · have hcd : (calcFlagsAndSize d').req.checkingDisabled = false := by
        unfold Proxy.cacheWorks at hw
        split at hw <;> simp at hw <;> exact hw.2
      rw [hadd]
      exact hcd
  · cases (Prod.mk.inj h).2

/-! ## The entry of a response -/

/-- `cacheResp` writes `data` under the key `k`. -/
def Proxy.Caches (pf : Platform) (p : Proxy) (d : DNSContext) (res : Msg) (now : Instant)
    (k data : Bytes) : Prop :=
  p.cacheEntry pf d res now = some (k, data)

theorem Proxy.caches_iff {res : Msg} {now : Instant} {k data : Bytes} :
    p.Caches pf d res now k data ↔
      let u := (d.upstream.map Upstream.address).getD []
      if p.usesSubnets d then
        ∃ s n, d.reqECS = some s ∧ respSubnet res s = some n ∧
          Cache.subnetEntry pf d.req res u (some n) now = some (k, data)
      else k = msgToKey d.req ∧
        ∃ item, respToItem res u = some item ∧ item.pack pf now = some data := by
  unfold Proxy.Caches Proxy.cacheEntry
  cases p.usesSubnets d with
  | true => simp [Option.bind_eq_some_iff]
  | false =>
    simp only [Bool.false_eq_true, if_false, Option.bind_eq_bind, Option.bind_eq_some_iff,
      Option.some.injEq, Prod.mk.injEq]
    constructor
    · rintro ⟨item, hitem, packed, hpack, rfl, rfl⟩
      exact ⟨rfl, item, hitem, hpack⟩
    · rintro ⟨rfl, item, hitem, hpack⟩
      exact ⟨item, hitem, data, hpack, rfl, rfl⟩

theorem Proxy.Caches.item {res : Msg} {now : Instant} {k data : Bytes}
    (h : p.Caches pf d res now k data) :
    ∃ item, respToItem res ((d.upstream.map Upstream.address).getD []) = some item ∧
      item.pack pf now = some data := by
  rw [Proxy.caches_iff] at h
  simp only at h
  split at h
  · obtain ⟨_, _, _, _, he⟩ := h
    simp only [Cache.subnetEntry, Option.bind_eq_bind, Option.bind_eq_some_iff, Option.some.injEq,
      Prod.mk.injEq, Prod.exists] at he
    obtain ⟨item, hitem, _, _, _, packed, hpack, _, rfl⟩ := he
    exact ⟨item, hitem, hpack⟩
  · exact h.2

theorem not_truncated_of_cacheTTL {m : Msg} (h : cacheTTL m ≠ 0) : m.truncated = false := by
  by_contra ht
  rw [Bool.not_eq_false] at ht
  exact h (if_pos ht)

/-- The lookup of a context reads `data` under the key `k`. -/
def Proxy.Reads (p : Proxy) (c : Cache) (d : DNSContext) (k data : Bytes) : Prop :=
  if p.usesSubnets d then c.findWithSubnet d.req d.reqECS = some (some data, k)
  else k = msgToKey d.req ∧ c.items k = some data

theorem Proxy.Reads.unpackItem {c : Cache} {k data : Bytes} (h : p.Reads c d k data) {t : Instant}
    {ci : CacheItem} (hci : (p.lookup pf c d t).ci = some ci) :
    c.unpackItem pf data d.req t = (some ci, (p.lookup pf c d t).expired) := by
  unfold Proxy.lookup at hci ⊢
  unfold Proxy.Reads at h
  split at h
  · next huse =>
    rw [if_pos huse] at hci ⊢
    exact Cache.unpackItem_of_getWithSubnet h hci
  · next huse =>
    rw [if_neg huse] at hci ⊢
    obtain ⟨rfl, hdata⟩ := h
    exact Cache.unpackItem_of_get hdata hci

theorem question_of_lookup {c : Cache} {t : Instant} {ci : CacheItem}
    (hci : (p.lookup pf c d t).ci = some ci) : ∃ q, d.req.question = [q] := by
  have hone : d.req.question.length = 1 := by
    by_contra hne
    have hno : Cache.canLookUpInCache d.req = false := by simpa [Cache.canLookUpInCache] using hne
    unfold Proxy.lookup at hci
    split at hci
    · have hfind : c.findWithSubnet d.req d.reqECS = none := by
        unfold Cache.findWithSubnet
        split
        · rfl
        · simp [hno]
      rw [Cache.getWithSubnet, hfind] at hci
      cases hci
    · simp [Cache.get, hno] at hci
  exact List.length_eq_one_iff.mp hone

theorem sameQuestion_of_reads {c : Cache} {d₁ d₂ : DNSContext} {res : Msg} {t₀ : Instant}
    {k data : Bytes} (hstore : p.Caches pf d₁ res t₀ k data) (hread : p.Reads c d₂ k data)
    (huse : p.usesSubnets d₁ = p.usesSubnets d₂) (hn₁ : PrintableName d₁.req.firstQuestion.name)
    (hn₂ : PrintableName d₂.req.firstQuestion.name) : SameQuestion d₁.req d₂.req := by
  rw [Proxy.caches_iff] at hstore
  unfold Proxy.Reads at hread
  rw [huse] at hstore
  split at hread
  · next hsub =>
    simp only [hsub, if_true] at hstore
    obtain ⟨_, _, _, _, he⟩ := hstore
    obtain ⟨_, t, _, _, hk⟩ := Cache.subnetEntry_eq_some he
    have hecs : ∃ net, d₂.reqECS = some net := by
      simp only [Proxy.usesSubnets, Bool.and_eq_true] at hsub
      exact Option.isSome_iff_exists.mp hsub.2
    obtain ⟨net, hnet⟩ := hecs
    rw [hnet] at hread
    obtain ⟨s, hs⟩ := Cache.subnetOf_of_findWithSubnet hread
    obtain ⟨j, hj, hk', _⟩ := Cache.findWithSubnet_stop hs hread
    exact (contains_of_subnetKey hn₂ hn₁ (hk'.symm.trans hk)).1
  · next hsub =>
    simp only [hsub, Bool.false_eq_true, if_false] at hstore
    exact msgToKey_inj.mp (hstore.1.symm.trans hread.1)

theorem SameQuestionUpToCase.of_sameQuestion {m₁ m₂ r : Msg} (h : SameQuestionUpToCase m₁ r)
    (hs : SameQuestion m₁ m₂) (hq : ∃ q, m₂.question = [q]) : SameQuestionUpToCase m₂ r := by
  obtain ⟨q₁, q', hq₁, hr, hname, htype, hclass⟩ := h
  obtain ⟨q, hq⟩ := hq
  obtain ⟨_, hst, hsc, hsn⟩ := hs
  simp only [Msg.firstQuestion, hq₁, hq, List.headD_cons] at hst hsc hsn
  exact ⟨q, q', hq, hr, hsn.symm.trans hname, hst.symm.trans htype, hsc.symm.trans hclass⟩

/-! ## The two paths -/

/-- The response that `Resolve` passes to `Truncate` when the context holds `m`. -/
def beforeTruncate (d : DNSContext) (m : Msg) : Msg :=
  withEdns0 (calcFlagsAndSize d) (filterMsg m m d.adBit d.doBit 0)

/-- The context of a request with a response, however it was found. -/
def withResponse (d : DNSContext) (m : Msg) (u : Option Upstream) (s : Option QueryStatistics) :
    DNSContext :=
  { d with res := some m, upstream := u, queryStatistics := s }

theorem complete_withResponse (pf : Platform) (d : DNSContext) (m : Msg) (u : Option Upstream)
    (s : Option QueryStatistics) :
    (complete pf (withResponse d m u s)).res =
      some { pf.truncate (beforeTruncate d m) (dnsSize (d.proto = .udp) d.req).toNat with
        compress := true } := by
  unfold complete scrub beforeTruncate withResponse calcFlagsAndSize
  simp only [Option.map_some]
  by_cases h0 : d.udpSize = 0
  · cases ho : d.req.isEdns0 <;> simp [h0, withEdns0]
  · simp [h0, withEdns0]

theorem SameHeader.of_eq {a a' b b' : Msg} (h : SameHeader a b)
    (ha : ∃ tc cmp answer ns extra, a' =
      { a with truncated := tc, compress := cmp, answer := answer, ns := ns, extra := extra })
    (hb : ∃ tc cmp answer ns extra, b' =
      { b with truncated := tc, compress := cmp, answer := answer, ns := ns, extra := extra }) :
    SameHeader a' b' := by
  obtain ⟨_, _, _, _, _, rfl⟩ := ha
  obtain ⟨_, _, _, _, _, rfl⟩ := hb
  exact ⟨h.authoritative, h.recursionAvailable, h.authenticatedData,
    h.checkingDisabled, h.rcode, h.question⟩

theorem withEdns0_eq (d : DNSContext) (m : Msg) :
    ∃ extra, withEdns0 d m = { m with extra := extra } := by
  unfold withEdns0 Msg.setEdns0
  split
  · exact ⟨_, rfl⟩
  · exact ⟨m.extra, rfl⟩

theorem sameSections_withEdns0 {a b : Msg} (ha : a.isEdns0 = none) (hb : b.isEdns0 = none)
    (h : SameSections a b) : SameSections (withEdns0 d a) (withEdns0 d b) := by
  unfold withEdns0
  simp only [ha, hb, and_true]
  split
  · refine ⟨h.answer, h.ns, ?_⟩
    have hx := h.extra
    unfold contents at hx ⊢
    simp only [Msg.setEdns0, List.map_append, hx]
  · exact h

theorem filterMsg_replyFrom {r : Msg} (ttl : UInt32) (haa : r.authoritative = false)
    (hcd : r.checkingDisabled = false) (had : d.adBit = d.req.authenticatedData)
    (hdo : d.doBit = true → d.req.doBit = true) (hreqcd : d.req.checkingDisabled = false)
    (hsame : SameQuestionUpToCase d.req r) :
    let a := Cache.replyFrom d.req { r with compress := false } ttl
    SameHeader (filterMsg a a d.adBit d.doBit 0) (filterMsg r r d.adBit d.doBit 0) ∧
      SameSections (filterMsg a a d.adBit d.doBit 0) (filterMsg r r d.adBit d.doBit 0) := by
  obtain ⟨q, q₂, hq, hq₂, hname, htype, hclass⟩ := hsame
  have hqr : r.firstQuestion.qtype = q.qtype := by simp [Msg.firstQuestion, hq₂, htype]
  intro a
  have haq : a.question = [q] := by
    simp [a, Cache.replyFrom, filterMsg, Msg.setRcode, Msg.setReply, hq]
  have haqt : a.firstQuestion.qtype = q.qtype := by simp [Msg.firstQuestion, haq]
  constructor
  · constructor
    · exact haa.symm
    · rfl
    · -- The client's own bits imply the bits of the request as it was sent.
      show ((r.authenticatedData && (d.req.authenticatedData || d.req.doBit)) &&
        (d.adBit || d.doBit)) = (r.authenticatedData && (d.adBit || d.doBit))
      rw [had]
      cases hb : d.doBit with
      | false => cases r.authenticatedData <;> cases d.req.authenticatedData <;> simp
      | true => rw [hdo hb]; cases r.authenticatedData <;> simp
    · show (if d.req.opcode = opcodeQuery then d.req.checkingDisabled else false) =
        r.checkingDisabled
      rw [hreqcd, hcd, ite_self]
    · rfl
    · exact ⟨q, q₂, haq, hq₂, hname, htype, hclass⟩
  · constructor
    · show contents (filterRRSlice (filterRRSlice r.answer d.req.doBit ttl r.firstQuestion.qtype)
        d.doBit 0 a.firstQuestion.qtype) = _
      rw [haqt, hqr, contents_filter_twice _ hdo, ← hqr]
      rfl
    · exact contents_filter_twice _ hdo _ _
    · exact contents_filter_twice _ hdo _ _

theorem beforeTruncate_same {a b : Msg}
    (hh : SameHeader (filterMsg a a d.adBit d.doBit 0) (filterMsg b b d.adBit d.doBit 0))
    (hs : SameSections (filterMsg a a d.adBit d.doBit 0) (filterMsg b b d.adBit d.doBit 0)) :
    SameHeader (beforeTruncate d a) (beforeTruncate d b) ∧
      SameSections (beforeTruncate d a) (beforeTruncate d b) := by
  have hform : ∀ m, ∃ tc cmp answer ns extra, beforeTruncate d m =
      { filterMsg m m d.adBit d.doBit 0 with
        truncated := tc, compress := cmp, answer := answer, ns := ns, extra := extra } := by
    intro m
    obtain ⟨extra, he⟩ := withEdns0_eq (calcFlagsAndSize d) (filterMsg m m d.adBit d.doBit 0)
    exact ⟨_, _, _, _, extra, he⟩
  exact ⟨hh.of_eq (hform a) (hform b), sameSections_withEdns0
    (isEdns0_filterMsg _ _ _ _ _) (isEdns0_filterMsg _ _ _ _ _) hs⟩

theorem beforeTruncate_frame (d : DNSContext) (m : Msg) :
    (beforeTruncate d m).truncated = m.truncated ∧ (beforeTruncate d m).question = m.question ∧
      (beforeTruncate d m).response = m.response := by
  obtain ⟨extra, he⟩ := withEdns0_eq (calcFlagsAndSize d) (filterMsg m m d.adBit d.doBit 0)
  unfold beforeTruncate
  rw [he]
  exact ⟨rfl, rfl, rfl⟩

theorem optLast_beforeTruncate (d : DNSContext) (m : Msg) : OPTLast (beforeTruncate d m) := by
  have hnone : ∀ r ∈ (filterMsg m m d.adBit d.doBit 0).extra, r.rrtype ≠ typeOPT := by
    intro r hr hopt
    have := isEdns0_filterMsg m m d.adBit d.doBit 0
    rw [Msg.isEdns0, List.find?_eq_none] at this
    exact this r (List.mem_reverse.mpr hr) (beq_iff_eq.mpr hopt)
  intro r hr
  unfold beforeTruncate withEdns0 at hr
  split at hr
  · rw [Msg.setEdns0, List.dropLast_concat] at hr
    exact hnone r hr
  · exact hnone r (List.dropLast_subset _ hr)

/-- A response cached for one request and returned to another against the same
response left by `replyFromUpstream` for the latter. -/
theorem resolve_cache_transparent (pf : Platform) (htr : pf.TruncateSpec)
    (p : Proxy) (env : UpstreamEnv) (d₁ : DNSContext) (r : Msg) (hrt : pf.RoundTrips r)
    (hleft : (p.replyFromUpstream pf env d₁).ctx.res = some r)
    (hok : (p.replyFromUpstream pf env d₁).source ≠ none)
    (hcd : r.checkingDisabled = false) (hqr : SameQuestionUpToCase d₁.req r)
    (t₀ : Instant) (k data : Bytes)
    (hstore : p.Caches pf (p.replyFromUpstream pf env d₁).ctx r t₀ k data)
    (d d₂ : DNSContext) (hfresh : d.Fresh) (hprep : p.prepare pf d = (d₂, true))
    (huse : p.usesSubnets d₁ = p.usesSubnets d₂)
    (hn₁ : PrintableName d₁.req.firstQuestion.name) (hn₂ : PrintableName d₂.req.firstQuestion.name)
    (c : Cache) (hread : p.Reads c d₂ k data) (t : Instant) (ci : CacheItem)
    (hci : (p.lookup pf c d₂ t).ci = some ci) (u : Option Upstream) (s : Option QueryStatistics) :
    ∃ n a b, (complete pf (fromCache d₂ ci)).res = some { pf.truncate a n with compress := true } ∧
      (complete pf (withResponse d₂ r u s)).res = some { pf.truncate b n with compress := true } ∧
      SameHeader a b ∧ SameSections a b ∧ a.truncated = b.truncated ∧
      a.response = true ∧ b.response = r.response ∧
      SameHeader (pf.truncate a n) (pf.truncate b n) ∧
      (d₂.req.question.map Question.name = r.question.map Question.name ∨
          (pf.truncate a n).truncated = false ∧ (pf.truncate b n).truncated = false →
        SameSections (pf.truncate a n) (pf.truncate b n) ∧
          (pf.truncate a n).truncated = (pf.truncate b n).truncated) := by
  have hspec := replyFromUpstream_spec pf p env d₁
  generalize p.replyFromUpstream pf env d₁ = x at hleft hok hstore hspec
  obtain ⟨v, hv⟩ := Option.ne_none_iff_exists'.mp hok
  have haa : r.authoritative = false := by
    obtain ⟨_, _, m, _, hres⟩ := hspec.source v hv
    rw [Option.some.inj (hleft.symm.trans hres)]
    rfl
  have hreq : x.ctx.req = d₁.req ∧ x.ctx.reqECS = d₁.reqECS := by
    obtain ⟨_, _, _, _, hctx⟩ := hspec.frame
    rw [hctx]
    exact ⟨rfl, rfl⟩
  -- The item that comes back is the reply that the stored response makes.
  obtain ⟨item, hitem, hpack⟩ := hstore.item
  obtain ⟨ttl, -, rfl, -⟩ := unpackItem_pack hrt hitem hpack (hread.unpackItem hci)
  have htc := not_truncated_of_cacheTTL (respToItem_eq_some hitem).2
  have hsame : SameQuestionUpToCase d₂.req r := by
    have hsq : SameQuestion x.ctx.req d₂.req :=
      sameQuestion_of_reads hstore hread (by unfold Proxy.usesSubnets; rw [hreq.2]; exact huse)
        (hreq.1 ▸ hn₁) hn₂
    exact hqr.of_sameQuestion (hreq.1 ▸ hsq) (question_of_lookup hci)
  obtain ⟨had, hdo, hreqcd⟩ := prepare_flags hfresh hprep
  obtain ⟨hh, hs⟩ := filterMsg_replyFrom ttl haa hcd had hdo hreqcd hsame
  obtain ⟨hh, hs⟩ := beforeTruncate_same hh hs
  obtain ⟨hta, hqa, hra⟩ :=
    beforeTruncate_frame d₂ (Cache.replyFrom d₂.req { r with compress := false } ttl)
  obtain ⟨htb, hqb, hrb⟩ := beforeTruncate_frame d₂ r
  have htrunc := hta.trans ((show _ = r.truncated from htc.symm).trans htb.symm)
  refine ⟨_, _, _, complete_withResponse pf d₂ _ d₂.upstream _, complete_withResponse pf d₂ r u s,
    hh, hs, htrunc, hra, hrb, hh.of_eq (htr.header _ _) (htr.header _ _), ?_⟩
  rintro (hname | ⟨hwa, hwb⟩)
  · refine htr.byLength _ _ _ ?_ htrunc hs
    rw [hqa, hqb, ← hname]
    obtain ⟨q, hq⟩ := question_of_lookup hci
    simp [Cache.replyFrom, filterMsg, Msg.setRcode, Msg.setReply, hq]
  · have ha := htr.whole _ _ (optLast_beforeTruncate d₂ _) hwa
    have hb := htr.whole _ _ (optLast_beforeTruncate d₂ r) hwb
    exact ⟨ha.trans (hs.trans hb.symm), hwa.trans hwb.symm⟩

theorem examplePlatform_truncateSpec : examplePlatform.TruncateSpec where
  header m _ := ⟨m.truncated, false, m.answer, m.ns, m.extra, rfl⟩
  whole _ _ _ _ := ⟨rfl, rfl, rfl⟩
  byLength _ _ _ _ htc hs := ⟨⟨hs.answer, hs.ns, hs.extra⟩, htc⟩

/-- The cache after the answer to `exampleQuery`. -/
def exampleCache : Cache :=
  Cache.run examplePlatform false false 0 0
    [.set exampleQuery exampleAnswer exampleUpstream.address .epoch]

/-- A second client gets from the cache what it would get from the upstream. -/
theorem resolve_cache_transparent_second :
    ∃ ci, (exampleProxy.lookup examplePlatform exampleCache (calcFlagsAndSize (udpContext
        { exampleQuery with id := 2 })) .oneSecond).ci = some ci ∧
      ∃ n a b, SameHeader a b ∧ SameSections a b ∧
        (complete examplePlatform (fromCache (calcFlagsAndSize (udpContext
          { exampleQuery with id := 2 })) ci)).res =
            some { examplePlatform.truncate a n with compress := true } ∧
        (complete examplePlatform (withResponse (calcFlagsAndSize (udpContext
          { exampleQuery with id := 2 })) exampleAnswer none none)).res =
            some { examplePlatform.truncate b n with compress := true } := by
  have hci : (exampleProxy.lookup examplePlatform exampleCache (calcFlagsAndSize (udpContext
      { exampleQuery with id := 2 })) .oneSecond).ci =
      some ⟨Cache.replyFrom { exampleQuery with id := 2 } exampleAnswer 59,
        exampleUpstream.address, 0⟩ := by
    decide +kernel
  obtain ⟨n, a, b, ha, hb, hh, hs, -⟩ := resolve_cache_transparent examplePlatform
    examplePlatform_truncateSpec exampleProxy (answeringEnv fun _ _ => some exampleAnswer)
    (udpContext exampleQuery) exampleAnswer (examplePlatform_roundTrips _)
    (by decide +kernel) (by decide +kernel) rfl
    ⟨_, _, rfl, rfl, rfl, rfl, rfl⟩ .epoch (msgToKey exampleQuery)
    (putInt64 60 ++ [0, 56] ++ exampleAnswerWire ++ exampleUpstream.address)
    (show _ = _ by decide +kernel) (udpContext { exampleQuery with id := 2 }) _
    ⟨rfl, rfl, rfl⟩ rfl rfl (by decide) (by decide)
    exampleCache ⟨by decide +kernel, by decide +kernel⟩ .oneSecond _ hci none none
  exact ⟨_, hci, n, a, b, hh, hs, ha, hb⟩

/-! ## Where the two paths part

The algorithm of `Truncate`, for names without escapes and records whose data has
no compressible names in it. -/

namespace PlainTruncate

/-- The parts of a name after its dots. -/
def afterDots : Bytes → List Bytes
  | [] => []
  | b :: bs => if b = labelSep then bs :: afterDots bs else afterDots bs

/-- The suffixes of a name that can be pointed to. -/
def suffixes (name : Bytes) : List Bytes := (name :: afterDots name).filter (· ≠ [])

/-- The length of a name when the suffixes `seen` can be pointed to, and the suffixes
that can be after it. -/
def nameLen (seen : List Bytes) (name : Bytes) : Nat × List Bytes :=
  if name = [] ∨ name = [labelSep] then (1, seen)
  else
    let fresh := (suffixes name).takeWhile fun s => !seen.contains s
    match (suffixes name).find? seen.contains with
    | some s => (name.length - s.length + 2, fresh ++ seen)
    | none => (name.length + 1, fresh ++ seen)

def optionLen : EDNS0 → Nat
  | .subnet _ source _ _ => 8 + (source.toNat + 7) / 8
  | .other _ data => 4 + data.length

def rdataLen : RData → Nat
  | .a _ => 4
  | .aaaa _ => 16
  | .opt os => (os.map optionLen).sum
  | .other _ data => data.length

def rrLen (seen : List Bytes) (r : RR) : Nat × List Bytes :=
  let (l, seen) := nameLen seen r.name
  (l + 10 + rdataLen r.rdata, seen)

/-- The length without compression. -/
def plainLen (m : Msg) : Nat :=
  12 + (m.question.map fun q => (nameLen [] q.name).1 + 4).sum +
    (m.records.map fun r => (rrLen [] r).1).sum

/-- How many records fit after `l` bytes, with the length after them. -/
def truncateLoop (size : Nat) : List RR → Nat → List Bytes → Nat × Nat × List Bytes
  | [], l, seen => (l, 0, seen)
  | r :: rs, l, seen =>
    let (len, seen) := rrLen seen r
    if size < l + len then (size, 0, seen)
    else if l + len = size then (l + len, 1, seen)
    else
      let (l, n, seen) := truncateLoop size rs (l + len) seen
      (l, n + 1, seen)

def truncate (m : Msg) (size : Nat) : Msg :=
  let size := max size 512
  if plainLen m ≤ size then { m with compress := false }
  else
    let opt := m.isEdns0
    -- The last OPT record is set aside and put back at the end.
    let extra := (m.extra.reverse.eraseP fun r => r.rrtype == typeOPT).reverse
    let size := size - (opt.map fun o => (rrLen [] o).1).getD 0
    let (l, seen) := m.question.foldl
      (fun (l, seen) q => let (len, seen) := nameLen seen q.name; (l + len + 4, seen)) (12, [])
    let (l, nAnswer, seen) := if l < size then truncateLoop size m.answer l seen else (l, 0, seen)
    let (l, nNs, seen) := if l < size then truncateLoop size m.ns l seen else (l, 0, seen)
    let (_, nExtra, _) := if l < size then truncateLoop size extra l seen else (l, 0, seen)
    { m with
      compress := true
      truncated := m.truncated || decide (nAnswer < m.answer.length) ||
        decide (nNs < m.ns.length) || decide (nExtra < extra.length)
      answer := m.answer.take nAnswer
      ns := m.ns.take nNs
      extra := extra.take nExtra ++ opt.toList }

end PlainTruncate

/-- A TXT record of 225 bytes of data. -/
def longRecord (b : UInt8) : RR :=
  ⟨exampleOrg, classINET, 60, .other ⟨16, by decide⟩ (224 :: List.replicate 224 b)⟩

/-- An answer with two such records, with the QR bit or without it. -/
def longAnswer (qr : Bool) : Msg :=
  { id := 1, response := qr, recursionDesired := true, recursionAvailable := true
    question := [⟨exampleOrg, 16, classINET⟩], answer := [longRecord 97, longRecord 98] }

def longRecordWire (b : UInt8) : Bytes :=
  exampleOrgWire ++ [0, 16, 0, 1, 0, 0, 0, 60, 0, 225, 224] ++ List.replicate 224 b

def longAnswerWire (qr : Bool) : Bytes :=
  [0, 1, if qr then 0x81 else 0x01, 0x80, 0, 1, 0, 2, 0, 0, 0, 0] ++ exampleOrgWire ++
    [0, 16, 0, 1] ++ longRecordWire 97 ++ longRecordWire 98

/-- The platform that knows the two answers. -/
def longPlatform : Platform :=
  { Platform.ofTable [(longAnswer true, longAnswerWire true),
      (longAnswer false, longAnswerWire false)] with
    truncate := PlainTruncate.truncate }

/-- The name `EXAMPLE.ORG.`. -/
def exampleOrgUpper : Bytes := [69, 88, 65, 77, 80, 76, 69, 46, 79, 82, 71, 46]

def longQuery (name : Bytes) (opcode : Nat) : Msg :=
  { id := 1, opcode := opcode, recursionDesired := true, question := [⟨name, 16, classINET⟩] }

/-- The cache after `longAnswer` was stored for the question in lower case. -/
def longCache (qr : Bool) : Cache :=
  Cache.run longPlatform false false 0 0
    [.set (longQuery exampleOrg 0) (longAnswer qr) exampleUpstream.address .epoch]

/-- What the two paths give for a query over UDP. -/
def bothPaths (qr : Bool) (req : Msg) : Option (Msg × Msg) := do
  let (d, true) := exampleProxy.prepare longPlatform (udpContext req) | none
  let ci ← (exampleProxy.lookup longPlatform (longCache qr) d .oneSecond).ci
  let a ← (complete longPlatform (fromCache d ci)).res
  let b ← (complete longPlatform (withResponse d (longAnswer qr) none none)).res
  some (a, b)

/-- `replyFromUpstream` left `longAnswer` and it was stored as `longCache` has it. -/
def LongCached (qr : Bool) : Prop :=
  exampleProxy.Caches longPlatform
    (exampleProxy.replyFromUpstream longPlatform (answeringEnv fun _ _ => some (longAnswer qr))
      (udpContext (longQuery exampleOrg 0))).ctx (longAnswer qr) .epoch
    (msgToKey (longQuery exampleOrg 0))
    (putInt64 60 ++ [2, 13] ++ longAnswerWire qr ++ exampleUpstream.address)

/-- A query with another opcode gets its opcode back from the cache only; an answer
without the QR bit gets one in the cache; a question spelled in upper case gets one
record from the cache and two from the upstream. -/
theorem resolve_cache_differs :
    LongCached true ∧ LongCached false ∧
    (bothPaths true (longQuery exampleOrg 2)).map (fun r => (r.1.opcode, r.2.opcode)) =
      some (2, 0) ∧
    (bothPaths false (longQuery exampleOrg 0)).map (fun r => (r.1.response, r.2.response)) =
      some (true, false) ∧
    (bothPaths true (longQuery exampleOrgUpper 0)).map
      (fun r => (r.1.answer.length, r.1.truncated, r.2.answer.length, r.2.truncated)) =
        some (1, true, 2, false) := by
  have hcached : ∀ qr, LongCached qr := by
    intro qr
    show _ = _
    cases qr <;> decide +kernel
  exact ⟨hcached true, hcached false, by decide +kernel, by decide +kernel, by decide +kernel⟩

end DnsProxy
