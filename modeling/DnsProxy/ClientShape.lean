import DnsProxy.Transparency

/-!
# The shape of a response

What the client advertised against what its response looks like: the OPT record, the
DO bit and the size limit. `Resolve` reads all three from the request, which
`processECS` and `addDO` have changed by then.

* `resolve_shaped_iff`: the requests for which these changes stay invisible. They
  show up when the proxy has added the OPT record itself, and when the size in the
  client's OPT record is 0, so that the flags are calculated a second time.
-/

namespace DnsProxy

open Net

/-! ## Outcomes -/

/-- The contexts with a response that a call of `Resolve` for `d` may complete, unless
it joins another call. -/
inductive Proxy.Answers (pf : Platform) (p : Proxy) (d : DNSContext) : DNSContext → Prop
  | cached (c : Cache) (now : Instant) (ci : CacheItem) (hworks : (p.prepare pf d).2 = true)
      (hit : (p.lookup pf c (p.prepare pf d).1 now).ci = some ci) :
      p.Answers pf d (fromCache (p.prepare pf d).1 ci)
  | exchanged (env : UpstreamEnv) :
      p.Answers pf d (p.replyFromUpstream pf env (p.prepare pf d).1).ctx

/-- The size that `scrub` passes to `Truncate`. -/
def truncateSize (d : DNSContext) : UInt16 := dnsSize (d.proto = .udp) d.req

/-- The size that the OPT record of a request advertises, 0 without one. -/
def advertisedSize (req : Msg) : UInt16 := (req.isEdns0.map RR.udpSize).getD 0

/-- What the completed context `d'` owes to the client that sent `req`. -/
structure Shaped (pf : Platform) (req : Msg) (d' : DNSContext) : Prop where
  noOPT : req.isEdns0 = none → ∀ res, (complete pf d').res = some res → res.isEdns0 = none
  dnssec : ∀ o, req.isEdns0 = some o → ∀ res o', (complete pf d').res = some res →
    res.isEdns0 = some o' → o'.hasDo = o.hasDo
  size : d'.proto = .udp → truncateSize d' = max minMsgSize (advertisedSize req)

/-- `Truncate` is documented to keep the OPT record. -/
def Platform.KeepsOPT (pf : Platform) : Prop := ∀ m n, (pf.truncate m n).isEdns0 = m.isEdns0

/-! ## What `Resolve` makes of the request -/

/-- The address whose subnet `processECS` sends when the request has none. -/
def clientAddr (cliIP : IP) (d : DNSContext) : Addr :=
  if cliIP = none then d.addr else addrFromSlice cliIP

/-- The proxy adds an OPT record of its own for the client's subnet. -/
def Proxy.AddsSubnet (pf : Platform) (p : Proxy) (d : DNSContext) : Prop :=
  d.req.isEdns0 = none ∧ p.enableEDNSClientSubnet = true ∧
    pf.isSpecialPurpose (clientAddr p.ednsAddr d) = false

/-- The proxy asks for DNSSEC records whether or not the client did. -/
def Proxy.ForcesDO (p : Proxy) (d : DNSContext) : Prop :=
  p.dnsSecEnabled = true ∧ p.cacheWorks d = true

/-- What an OPT record says about the client: the size and the DO bit. -/
def optInfo (m : Msg) : Option (UInt16 × Bool) := m.isEdns0.map fun o => (o.udpSize, o.hasDo)

theorem optInfo_eq_none {m : Msg} : optInfo m = none ↔ m.isEdns0 = none := Option.map_eq_none_iff

theorem isEdns0_modifyOPT (m : Msg) {f : RR → RR} (hf : ∀ r, (f r).rrtype = r.rrtype) :
    (modifyOPT m f).isEdns0 = m.isEdns0.map f := by
  unfold modifyOPT Msg.isEdns0
  simp only [List.reverse_reverse]
  induction m.extra.reverse with
  | nil => rfl
  | cons r rs ih =>
    cases hr : r.rrtype == typeOPT with
    | true => simp [List.findIdx_cons, hr, hf]
    | false => simp [List.findIdx_cons, hr, ih]

theorem rrtype_addOption (e : EDNS0) (r : RR) : (addOption e r).rrtype = r.rrtype := by
  unfold addOption
  split
  · next os h => simp [RR.rrtype, RData.rrtype, h]
  · rfl

theorem addOption_info (e : EDNS0) (r : RR) :
    (addOption e r).udpSize = r.udpSize ∧ (addOption e r).hasDo = r.hasDo := by
  unfold addOption
  split <;> exact ⟨rfl, rfl⟩

theorem hasDo_setDo (r : RR) : r.setDo.hasDo = true := by
  simp only [RR.hasDo, RR.setDo, beq_iff_eq]
  apply UInt32.toBitVec_inj.mp
  ext i hi
  simpa using Or.inr

theorem optInfo_setECS (m : Msg) (ip : IP) (scope : UInt8) :
    optInfo (setECS m ip scope).1 = (optInfo m).or (some (4096, false)) := by
  unfold setECS optInfo
  simp only
  split
  · next h =>
    rw [h]
    simp [Msg.isEdns0, RR.rrtype, RData.rrtype, RR.udpSize, RR.hasDo, doMask]
  · next h =>
    rw [isEdns0_modifyOPT m (rrtype_addOption _)]
    obtain ⟨o, ho⟩ := Option.ne_none_iff_exists'.mp h
    simp [ho, addOption_info]

theorem optInfo_setEdns0 (m : Msg) (size : UInt16) (dob : Bool) :
    optInfo (m.setEdns0 size dob) = some (size, dob) := by
  have hlast : (m.setEdns0 size dob).isEdns0 = some (Msg.newOPT size dob) := by
    simp [Msg.isEdns0, Msg.setEdns0, Msg.newOPT, RR.rrtype, RData.rrtype]
  unfold optInfo
  rw [hlast]
  cases dob <;> simp [Msg.newOPT, RR.udpSize, RR.hasDo, doMask]

theorem optInfo_addDO (p : Proxy) (m : Msg) : optInfo (p.addDO m) =
    if p.dnsSecEnabled then some (((optInfo m).map Prod.fst).getD defaultUDPBufSize, true)
    else optInfo m := by
  unfold Proxy.addDO
  cases p.dnsSecEnabled with
  | false => rfl
  | true =>
    cases ho : m.isEdns0 with
    | none =>
      have hnone : optInfo m = none := optInfo_eq_none.mpr ho
      simp [optInfo_setEdns0, hnone]
    | some o =>
      cases hdo : o.hasDo with
      | true => simp [optInfo, ho, hdo]
      | false =>
        have hset := isEdns0_modifyOPT m (f := RR.setDo) fun _ => rfl
        rw [ho] at hset
        have hsize : o.setDo.udpSize = o.udpSize := rfl
        simp [optInfo, ho, hdo, hset, hasDo_setDo, hsize]

theorem optInfo_processECS (pf : Platform) (p : Proxy) (d : DNSContext) :
    optInfo (processECS pf p.ednsAddr d).req =
      if pf.isSpecialPurpose (clientAddr p.ednsAddr d) = false then
        (optInfo d.req).or (some (4096, false))
      else optInfo d.req := by
  -- A subnet of the client's own comes with an OPT record.
  have hown : ∀ e, ecsFromMsg d.req = some e →
      optInfo d.req = (optInfo d.req).or (some (4096, false)) := by
    intro e he
    unfold ecsFromMsg at he
    cases ho : d.req.isEdns0 with
    | none => rw [ho] at he; cases he
    | some o => simp [optInfo, ho]
  have hset : ∀ ip : IP, optInfo (setECS d.req ip 0).1 = (optInfo d.req).or (some (4096, false)) :=
    fun ip => optInfo_setECS d.req ip 0
  unfold processECS clientAddr
  cases he : ecsFromMsg d.req with
  | none => grind
  | some e =>
    have hsome := hown e he
    grind

variable {d d' : DNSContext} {p : Proxy} {pf : Platform}

theorem cacheWorks_congr (p : Proxy) (hcustom : d'.customUpstreamConfig = d.customUpstreamConfig)
    (hpriv : d'.requestedPrivateRDNS = d.requestedPrivateRDNS)
    (hcd : d'.req.checkingDisabled = d.req.checkingDisabled) :
    p.cacheWorks d' = p.cacheWorks d := by
  unfold Proxy.cacheWorks
  rw [hcustom, hpriv, hcd]

/-- What is known of the OPT record when the flags are calculated. -/
def Proxy.sentInfo (pf : Platform) (p : Proxy) (d : DNSContext) : Option (UInt16 × Bool) :=
  if p.enableEDNSClientSubnet = true ∧ pf.isSpecialPurpose (clientAddr p.ednsAddr d) = false then
    (optInfo d.req).or (some (4096, false))
  else optInfo d.req

/-- What the shape of a response to `d` depends on, from `prepare` on. -/
structure Proxy.Flags (pf : Platform) (p : Proxy) (d d' : DNSContext) : Prop where
  proto : d'.proto = d.proto
  adBit : d'.adBit = d.req.authenticatedData
  doBit : d'.doBit = ((p.sentInfo pf d).map Prod.snd).getD false
  udpSize : d'.udpSize = ((p.sentInfo pf d).map Prod.fst).getD defaultUDPBufSize
  forced : p.ForcesDO d → optInfo d'.req =
    some (((p.sentInfo pf d).map Prod.fst).getD defaultUDPBufSize, true)
  kept : ¬p.ForcesDO d → optInfo d'.req = p.sentInfo pf d

theorem calcFlagsAndSize_info (h : d.Fresh) :
    (calcFlagsAndSize d).hasEDNS0 = (optInfo d.req).isSome ∧
    (calcFlagsAndSize d).doBit = ((optInfo d.req).map Prod.snd).getD false ∧
    (calcFlagsAndSize d).udpSize = ((optInfo d.req).map Prod.fst).getD defaultUDPBufSize := by
  obtain ⟨h0, hno, hdo⟩ := h
  unfold calcFlagsAndSize optInfo
  rw [if_neg (not_not.mpr h0)]
  cases d.req.isEdns0 with
  | none => exact ⟨hno, hdo, rfl⟩
  | some o => exact ⟨rfl, rfl, rfl⟩

theorem calcFlagsAndSize_frame (d : DNSContext) : ∃ ad size h dob, calcFlagsAndSize d =
    { d with adBit := ad, udpSize := size, hasEDNS0 := h, doBit := dob } := by
  unfold calcFlagsAndSize
  split
  · exact ⟨_, _, _, _, rfl⟩
  · split <;> exact ⟨_, _, _, _, rfl⟩

theorem sent_context (pf : Platform) (p : Proxy) (hfresh : d.Fresh)
    (hd' : (if p.enableEDNSClientSubnet then processECS pf p.ednsAddr d else d) = d') :
    optInfo d'.req = p.sentInfo pf d ∧ d'.Fresh ∧
      ∃ extra ecs, d' = { d with req := { d.req with extra := extra }, reqECS := ecs } := by
  subst hd'
  refine ⟨?_, ?_, ?_⟩
  · rw [Proxy.sentInfo]
    cases p.enableEDNSClientSubnet with
    | false => rfl
    | true => simpa using optInfo_processECS pf p d
  · split
    · exact hfresh.processECS pf _
    · exact hfresh
  · split
    · exact processECS_eq pf _ d
    · exact ⟨_, _, rfl⟩

theorem prepare_optFlags (pf : Platform) (p : Proxy) (hfresh : d.Fresh) :
    p.Flags pf d (p.prepare pf d).1 ∧
      (p.prepare pf d).1.hasEDNS0 = (p.sentInfo pf d).isSome := by
  unfold Proxy.prepare
  simp only
  generalize hd' : (if p.enableEDNSClientSubnet then processECS pf p.ednsAddr d else d) = d'
  obtain ⟨hinfo, hfresh', extra, ecs, he⟩ := sent_context pf p hfresh hd'
  have hA : (calcFlagsAndSize d').adBit = d.req.authenticatedData := by
    rw [(calcFlagsAndSize_flags hfresh').1, he]
  obtain ⟨hE, hD, hU⟩ := calcFlagsAndSize_info hfresh'
  rw [hinfo] at hE hD hU
  obtain ⟨ad, size, hb, dob, hcalc⟩ := calcFlagsAndSize_frame d'
  have hreq : (calcFlagsAndSize d').req = d'.req := by rw [hcalc]
  have hproto : (calcFlagsAndSize d').proto = d.proto := by rw [hcalc, he]
  have hworks : p.cacheWorks (calcFlagsAndSize d') = p.cacheWorks d := by
    apply cacheWorks_congr <;> rw [hcalc, he]
  split
  · next hw =>
    rw [hworks] at hw
    have hadd : optInfo (p.addDO (calcFlagsAndSize d').req) = _ := optInfo_addDO p _
    rw [hreq, hinfo] at hadd
    refine ⟨⟨hproto, hA, hD, hU, fun hf => ?_, fun hf => ?_⟩, hE⟩
    · simpa [hreq, hf.1] using hadd
    · have hoff : p.dnsSecEnabled = false := by simpa [Proxy.ForcesDO, hw] using hf
      simpa [hreq, hoff] using hadd
  · next hw =>
    rw [hworks] at hw
    refine ⟨⟨hproto, hA, hD, hU, fun hf => absurd hf.2 hw, fun _ => ?_⟩, hE⟩
    rw [hreq, hinfo]

theorem sentInfo_of_adds (h : p.AddsSubnet pf d) : p.sentInfo pf d = some (4096, false) := by
  obtain ⟨hnone, hecs, haddr⟩ := h
  rw [Proxy.sentInfo, if_pos ⟨hecs, haddr⟩, optInfo_eq_none.mpr hnone]
  rfl

theorem sentInfo_of_not_adds (h : ¬p.AddsSubnet pf d) : p.sentInfo pf d = optInfo d.req := by
  unfold Proxy.sentInfo
  split
  · next hecs =>
    cases ho : optInfo d.req with
    | none => exact absurd ⟨optInfo_eq_none.mp ho, hecs⟩ h
    | some i => rfl
  · rfl

/-! ## What the response looks like -/

theorem handleExchangeResult_hasEDNS0 {req : Msg} {resp : Option Msg} {u : Option Upstream}
    (h : (p.handleExchangeResult d req resp u).hasEDNS0 = true) : d.hasEDNS0 = true := by
  unfold Proxy.handleExchangeResult at h
  simp only at h
  split at h
  · cases h
  · split at h
    · cases h
    · exact h

theorem conclude_hasEDNS0 {env : UpstreamEnv} {ups fallbacks : List Upstream} {x : Exchanged}
    (h : (p.conclude env d ups fallbacks x).ctx.hasEDNS0 = true) : d.hasEDNS0 = true := by
  unfold Proxy.conclude at h
  have hd := handleExchangeResult_hasEDNS0 h
  exact hd

theorem replyFromUpstream_hasEDNS0 {env : UpstreamEnv}
    (h : (p.replyFromUpstream pf env d).ctx.hasEDNS0 = true) : d.hasEDNS0 = true := by
  unfold Proxy.replyFromUpstream at h
  simp only at h
  split at h
  · exact h
  · split at h
    · exact conclude_hasEDNS0 h
    · exact conclude_hasEDNS0 h

/-- An outcome changes nothing that the shape depends on, except that a failure
forgets about the OPT record. -/
theorem Proxy.Answers.flags (hfresh : d.Fresh) (h : p.Answers pf d d') :
    p.Flags pf d d' ∧ (d'.hasEDNS0 = true → (p.sentInfo pf d).isSome = true) := by
  obtain ⟨hflags, hedns⟩ := prepare_optFlags pf p hfresh
  rw [← hedns]
  cases h with
  | cached c now ci hworks hit =>
    exact ⟨⟨hflags.proto, hflags.adBit, hflags.doBit, hflags.udpSize, hflags.forced,
      hflags.kept⟩, fun h => h⟩
  | exchanged env =>
    refine ⟨?_, replyFromUpstream_hasEDNS0⟩
    obtain ⟨res, u, s, hb, hctx⟩ := (replyFromUpstream_spec pf p env (p.prepare pf d).1).frame
    rw [hctx]
    exact ⟨hflags.proto, hflags.adBit, hflags.doBit, hflags.udpSize, hflags.forced, hflags.kept⟩

theorem complete_res (pf : Platform) {m : Msg} (h : d'.res = some m) :
    (complete pf d').res =
      some { pf.truncate (beforeTruncate d' m) (truncateSize d').toNat with compress := true } := by
  have hd' : d' = withResponse d' m d'.upstream d'.queryStatistics := by
    rw [withResponse, ← h]
  calc (complete pf d').res
      = (complete pf (withResponse d' m d'.upstream d'.queryStatistics)).res := by rw [← hd']
    _ = _ := complete_withResponse pf d' m _ _

theorem optInfo_complete (hopt : pf.KeepsOPT) {res : Msg} (h : (complete pf d').res = some res) :
    optInfo res =
      if (calcFlagsAndSize d').hasEDNS0 = true then
        some ((calcFlagsAndSize d').udpSize, (calcFlagsAndSize d').doBit)
      else none := by
  cases hm : d'.res with
  | none => simp [complete, scrub, hm] at h
  | some m =>
    rw [complete_res pf hm] at h
    obtain rfl := Option.some.inj h
    have hkeep : optInfo (pf.truncate (beforeTruncate d' m) (truncateSize d').toNat) =
        optInfo (beforeTruncate d' m) := by
      unfold optInfo
      rw [hopt]
    refine hkeep.trans ?_
    have hnone := isEdns0_filterMsg m m d'.adBit d'.doBit 0
    unfold beforeTruncate withEdns0
    simp only [hnone, and_true]
    split
    · exact optInfo_setEdns0 _ _ _
    · exact optInfo_eq_none.mpr hnone

/-! ## An outcome for every request -/

theorem exchangeAll_answering (req m : Msg) (u : Upstream) (us : List Upstream) :
    ∃ rest, exchangeAll (answering fun _ _ => some m) (u :: us) req = .ok ((m, u) :: rest) := by
  cases us with
  | nil => exact ⟨[], rfl⟩
  | cons v vs => simp [exchangeAll, answering, received]

theorem exchangeUpstreams_answering (pf : Platform) (mode : UpstreamMode) (req m : Msg)
    {ups : List Upstream} (h : ups ≠ []) :
    let x := exchangeUpstreams pf mode (answering fun _ _ => some m) req ups
    x.resp = some m ∧ x.err = none := by
  obtain ⟨u, us, rfl⟩ := List.exists_cons_of_ne_nil h
  unfold exchangeUpstreams
  split
  · cases us <;> exact ⟨rfl, rfl⟩
  · split
    · obtain ⟨rest, hall⟩ := exchangeAll_answering req m u us
      unfold exchangeFastest
      rw [hall]
      exact ⟨rfl, rfl⟩
    · cases us <;> exact ⟨rfl, rfl⟩

theorem replyFromUpstream_answering (pf : Platform) (p : Proxy) (d : DNSContext) {m : Msg}
    (hq : m.question.length = 1) (hcode : m.rcode = rcodeNameError) (hans : m.answer = [])
    (hups : (p.selectUpstreams pf d).1 ≠ []) :
    let r := p.replyFromUpstream pf (answeringEnv fun _ _ => some m) d
    r.ctx.res = some (p.setMinMaxTTL { m with authoritative := false }) ∧
      r.ctx.hasEDNS0 = d.hasEDNS0 ∧ r.ok = true := by
  obtain ⟨hresp, herr⟩ := exchangeUpstreams_answering pf p.upstreamMode d.req m hups
  have hdns64 : checkDNS64 pf p.dns64Prefs 0 d.req m = (none, m) := by
    unfold checkDNS64
    simp [hcode]
  have hbogus : p.isBogusNXDomain m = false := by simp [Proxy.isBogusNXDomain, hans]
  have hsel : (p.exchangeSelected pf (answeringEnv fun _ _ => some m) d.req
      (p.selectUpstreams pf d).1).resp = some m ∧ (p.exchangeSelected pf
        (answeringEnv fun _ _ => some m) d.req (p.selectUpstreams pf d).1).err = none := by
    unfold Proxy.exchangeSelected answeringEnv performDNS64
    simp [hresp, herr, hdns64, hbogus]
  unfold Proxy.replyFromUpstream
  simp only [List.length_eq_zero_iff, hups, if_false, hsel.2]
  simp [Proxy.conclude, Proxy.handleExchangeResult, hsel.1, hq]

/-- Every request has an outcome with a response that says what `prepare` knew of the
OPT record. -/
theorem exists_answers (pf : Platform) (p : Proxy) (d : DNSContext) : ∃ d' m,
    p.Answers pf d d' ∧ d'.res = some m ∧ d'.hasEDNS0 = (p.prepare pf d).1.hasEDNS0 := by
  by_cases hups : (p.selectUpstreams pf (p.prepare pf d).1).1 = []
  · refine ⟨_, newMsgNXDOMAIN (p.prepare pf d).1.req,
      .exchanged (answeringEnv fun _ _ => none), ?_⟩
    simp [Proxy.replyFromUpstream, hups]
  · obtain ⟨hres, hedns, -⟩ := replyFromUpstream_answering pf p (p.prepare pf d).1
      (m := { question := [d.req.firstQuestion], rcode := rcodeNameError }) rfl rfl rfl hups
    exact ⟨_, _, .exchanged _, hres, hedns⟩

/-! ## When the changes stay invisible -/

section Shape

variable {pf : Platform} {p : Proxy} {d d' : DNSContext}

theorem truncateSize_eq (h : d'.proto = .udp) :
    truncateSize d' = max minMsgSize (((optInfo d'.req).map Prod.fst).getD 0) := by
  unfold truncateSize dnsSize optInfo
  cases d'.req.isEdns0 with
  | none =>
    simp only [h]
    decide
  | some o => simp [h]

theorem advertisedSize_eq (req : Msg) :
    advertisedSize req = ((optInfo req).map Prod.fst).getD 0 := by
  unfold advertisedSize optInfo
  cases req.isEdns0 <;> rfl

theorem calcFlagsAndSize_of_size (h : d'.udpSize ≠ 0) : calcFlagsAndSize d' = d' := if_pos h

theorem calcFlagsAndSize_again {size : UInt16} {dob : Bool} (h0 : d'.udpSize = 0)
    (hi : optInfo d'.req = some (size, dob)) :
    (calcFlagsAndSize d').hasEDNS0 = true ∧ (calcFlagsAndSize d').doBit = dob := by
  unfold calcFlagsAndSize
  rw [if_neg (not_not.mpr h0)]
  obtain ⟨o, ho, hinfo⟩ := Option.map_eq_some_iff.mp hi
  rw [ho]
  exact ⟨rfl, (Prod.mk.inj hinfo).2⟩

theorem Proxy.Flags.size_of_none (h : p.Flags pf d d') (hsent : p.sentInfo pf d = none) :
    d'.udpSize ≠ 0 := by
  rw [h.udpSize, hsent]
  decide

theorem Proxy.Flags.final_doBit (h : p.Flags pf d d') {size : UInt16} {dob : Bool}
    (hsent : p.sentInfo pf d = some (size, dob)) :
    (size ≠ 0 ∨ ¬p.ForcesDO d → (calcFlagsAndSize d').doBit = dob) ∧
      (size = 0 → p.ForcesDO d → (calcFlagsAndSize d').hasEDNS0 = true ∧
        (calcFlagsAndSize d').doBit = true) := by
  have hsize : d'.udpSize = size := by rw [h.udpSize, hsent]; rfl
  refine ⟨fun hcase => ?_, fun h0 hforces => ?_⟩
  · by_cases h0 : size = 0
    · have hkept := h.kept (hcase.resolve_left (not_not.mpr h0))
      exact (calcFlagsAndSize_again (hsize.trans h0) (hkept.trans hsent)).2
    · rw [calcFlagsAndSize_of_size (hsize ▸ h0), h.doBit, hsent]
      rfl
  · exact calcFlagsAndSize_again (hsize.trans h0) (h.forced hforces)

theorem Proxy.Flags.shaped (h : p.Flags pf d d') (hopt : pf.KeepsOPT)
    (hedns : d'.hasEDNS0 = true → (p.sentInfo pf d).isSome = true)
    (hsent : p.sentInfo pf d = optInfo d.req)
    (hlimit : ¬(d.req.isEdns0 = none ∧ d.proto = .udp ∧ p.ForcesDO d))
    (hzero : ¬∃ o, d.req.isEdns0 = some o ∧ o.udpSize = 0 ∧ o.hasDo = false ∧ p.ForcesDO d) :
    Shaped pf d.req d' := by
  refine ⟨?_, ?_, ?_⟩
  · intro hnone m hm
    have hinfo := optInfo_complete hopt hm
    rw [optInfo_eq_none.mpr hnone] at hsent
    have hno : d'.hasEDNS0 ≠ true := fun hyes => by simpa [hsent] using hedns hyes
    rw [calcFlagsAndSize_of_size (h.size_of_none hsent), if_neg hno] at hinfo
    exact optInfo_eq_none.mp hinfo
  · intro o ho m o' hm ho'
    have hi : optInfo d.req = some (o.udpSize, o.hasDo) := by rw [optInfo, ho]; rfl
    have hfinal := h.final_doBit (hsent.trans hi)
    have hdob : (calcFlagsAndSize d').doBit = o.hasDo := by
      by_cases hbad : o.udpSize = 0 ∧ p.ForcesDO d
      · have hdo : o.hasDo = true :=
          Bool.not_eq_false _ ▸ fun hdo => hzero ⟨o, ho, hbad.1, hdo, hbad.2⟩
        rw [(hfinal.2 hbad.1 hbad.2).2, hdo]
      · exact hfinal.1 (not_and_or.mp hbad)
    have hinfo := optInfo_complete hopt hm
    rw [optInfo, ho'] at hinfo
    split at hinfo
    · exact (Prod.mk.inj (Option.some.inj hinfo)).2.trans hdob
    · cases hinfo
  · intro hudp
    rw [truncateSize_eq hudp, advertisedSize_eq]
    by_cases hforces : p.ForcesDO d
    · rw [h.forced hforces, hsent]
      cases hi : optInfo d.req with
      | none => exact absurd ⟨optInfo_eq_none.mp hi, h.proto ▸ hudp, hforces⟩ hlimit
      | some i => rfl
    · rw [h.kept hforces, hsent]

theorem Proxy.AddsSubnet.not_shaped (hadds : p.AddsSubnet pf d) (h : p.Flags pf d d')
    (hopt : pf.KeepsOPT) {m : Msg} (hres : d'.res = some m) (hedns : d'.hasEDNS0 = true) :
    ¬Shaped pf d.req d' := by
  intro hshape
  have hsize : d'.udpSize ≠ 0 := by rw [h.udpSize, sentInfo_of_adds hadds]; decide
  have hfinal := complete_res pf hres
  have hinfo := optInfo_complete hopt hfinal
  rw [calcFlagsAndSize_of_size hsize, if_pos hedns,
    optInfo_eq_none.mpr (hshape.noOPT hadds.1 _ hfinal)] at hinfo
  cases hinfo

theorem not_shaped_of_limit (h : p.Flags pf d d') (hadds : ¬p.AddsSubnet pf d)
    (hnone : d.req.isEdns0 = none) (hudp : d.proto = .udp) (hforces : p.ForcesDO d) :
    ¬Shaped pf d.req d' := by
  intro hshape
  have hudp' := h.proto.trans hudp
  have hmax := hshape.size hudp'
  rw [truncateSize_eq hudp', advertisedSize_eq, optInfo_eq_none.mpr hnone, h.forced hforces,
    sentInfo_of_not_adds hadds, optInfo_eq_none.mpr hnone] at hmax
  revert hmax
  decide

theorem not_shaped_of_zero (h : p.Flags pf d d') (hopt : pf.KeepsOPT) {m : Msg}
    (hres : d'.res = some m) {o : RR} (ho : d.req.isEdns0 = some o) (hzero : o.udpSize = 0)
    (hdo : o.hasDo = false) (hforces : p.ForcesDO d) : ¬Shaped pf d.req d' := by
  intro hshape
  have hadds : ¬p.AddsSubnet pf d := fun hadds => by rw [hadds.1] at ho; cases ho
  have hsent : p.sentInfo pf d = some (o.udpSize, o.hasDo) := by
    rw [sentInfo_of_not_adds hadds, optInfo, ho]
    rfl
  obtain ⟨hyes, htrue⟩ := (h.final_doBit hsent).2 hzero hforces
  have hfinal := complete_res pf hres
  have hinfo := optInfo_complete hopt hfinal
  rw [if_pos hyes, htrue] at hinfo
  obtain ⟨o', ho', hi⟩ := Option.map_eq_some_iff.mp hinfo
  have hfalse := hshape.dnssec o ho _ o' hfinal ho'
  rw [hdo, (Prod.mk.inj hi).2] at hfalse
  cases hfalse

end Shape

/-- The client sees nothing of the changes to its request, whatever the outcome, if and
only if the proxy did not add an OPT record for the client's subnet, did not raise the
limit of a UDP client without an OPT record by adding one for the DO bit, and did not
set the DO bit on an OPT record with the size 0. -/
theorem resolve_shaped_iff (pf : Platform) (hopt : pf.KeepsOPT) (p : Proxy) (d : DNSContext)
    (hfresh : d.Fresh) :
    (∀ d', p.Answers pf d d' → Shaped pf d.req d') ↔
      ¬p.AddsSubnet pf d ∧
      ¬(d.req.isEdns0 = none ∧ d.proto = .udp ∧ p.ForcesDO d) ∧
      ¬(∃ o, d.req.isEdns0 = some o ∧ o.udpSize = 0 ∧ o.hasDo = false ∧ p.ForcesDO d) := by
  constructor
  · intro hall
    obtain ⟨d', m, hans, hres, hedns⟩ := exists_answers pf p d
    have hshape := hall d' hans
    have hflags := (hans.flags hfresh).1
    have hadds : ¬p.AddsSubnet pf d := by
      intro hadds
      refine hadds.not_shaped hflags hopt hres ?_ hshape
      rw [hedns, (prepare_optFlags pf p hfresh).2, sentInfo_of_adds hadds]
      rfl
    refine ⟨hadds, ?_, ?_⟩
    · rintro ⟨hnone, hudp, hforces⟩
      exact not_shaped_of_limit hflags hadds hnone hudp hforces hshape
    · rintro ⟨o, ho, hzero, hdo, hforces⟩
      exact not_shaped_of_zero hflags hopt hres ho hzero hdo hforces hshape
  · rintro ⟨hadds, hlimit, hzero⟩ d' hans
    obtain ⟨hflags, hedns⟩ := hans.flags hfresh
    exact hflags.shaped hopt hedns (sentInfo_of_not_adds hadds) hlimit hzero

/-- The outcome for `d` when the upstream sends `exampleAnswer`. -/
def exampleOutcome (pf : Platform) (p : Proxy) (d : DNSContext) : DNSContext :=
  (p.replyFromUpstream pf (answeringEnv fun _ _ => some exampleAnswer) (p.prepare pf d).1).ctx

theorem resolve_shaped_plain :
    Shaped examplePlatform exampleQuery
      (exampleOutcome examplePlatform exampleProxy (udpContext exampleQuery)) := by
  refine (resolve_shaped_iff examplePlatform (fun _ _ => rfl) exampleProxy
    (udpContext exampleQuery) ⟨rfl, rfl, rfl⟩).mpr ⟨?_, ?_, ?_⟩ _ (.exchanged _)
  · exact fun h => nomatch h.2.1
  · exact fun h => nomatch h.2.2.1
  · rintro ⟨o, ho, -⟩
    cases ho

/-- The platform for clients with public addresses. -/
def publicPlatform : Platform := { examplePlatform with isSpecialPurpose := fun _ => false }

def publicContext (proto : Proto) (req : Msg) : DNSContext :=
  { addr := [9, 9, 9, 9], proto := proto, req := req }

def ecsProxy : Proxy := { exampleProxy with enableEDNSClientSubnet := true }
def dnssecProxy : Proxy := { exampleProxy with dnsSecEnabled := true }

/-- A client without an OPT record gets one over TCP, because its subnet is sent to
the upstream; the limit of a UDP client without an OPT record is 2048; and a client
whose OPT record has the size 0 and no DO bit gets one with the DO bit. -/
theorem resolve_unshaped :
    (optInfo exampleQuery = none ∧
      (complete publicPlatform (exampleOutcome publicPlatform ecsProxy
        (publicContext .tcp exampleQuery))).res.bind optInfo = some (4096, false)) ∧
    truncateSize (exampleOutcome publicPlatform dnssecProxy
      (publicContext .udp exampleQuery)) = 2048 ∧
    (complete publicPlatform (exampleOutcome publicPlatform dnssecProxy
      (publicContext .tcp (exampleQuery.setEdns0 0 false)))).res.bind optInfo = some (0, true) := by
  decide +kernel

end DnsProxy
