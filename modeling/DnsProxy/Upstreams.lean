import DnsProxy.Platform

/-!
# Upstreams and their exchanges

Upstream servers, the configuration that maps a domain name to them, and the ways
of exchanging a request with a list of them. What a server answers, the order in
which answers arrive and the order in which the sampler draws are given by the
environment (`Exchanges`); every exchange also tells which servers were asked.

* `exchangeUpstreams_spec`: in every mode only the given servers are asked, and a
  response is one that a given server sent, with some of its answers removed in
  the fastest-address mode.
-/

namespace DnsProxy

/-! ## Servers -/

/-- An `upstream.Upstream`. -/
structure Upstream where
  id : Nat
  address : Bytes
deriving DecidableEq, Repr

inductive Err
  | noUpstreams
  | noReply
  | noneResponded
  | text (msg : String)
deriving DecidableEq, Repr

inductive UpstreamMode
  | loadBalance
  | parallel
  | fastestAddr
deriving DecidableEq, Repr

/-! ## Routing -/

def labelSep : UInt8 := 46

/-- `strings.Cut` at the first dot, without telling whether there was one. -/
def cut : Bytes → Bytes × Bytes
  | [] => ([], [])
  | b :: bs =>
    if b = labelSep then ([], bs)
    else
      let (before, after) := cut bs
      (b :: before, after)

theorem length_cut_snd_le (s : Bytes) : (cut s).2.length ≤ s.length := by
  induction s with
  | nil => exact Nat.le_refl _
  | cons b bs ih =>
    unfold cut
    split
    · exact Nat.le_succ _
    · exact Nat.le_succ_of_le ih

theorem length_cut_snd_lt {s : Bytes} (h : s ≠ []) : (cut s).2.length < s.length := by
  cases s with
  | nil => exact absurd rfl h
  | cons b bs =>
    unfold cut
    split
    · exact Nat.lt_succ_self _
    · exact Nat.lt_succ_of_le (length_cut_snd_le bs)

/-- `unqualified_names`. -/
def unqualifiedNames : Bytes :=
  [117, 110, 113, 117, 97, 108, 105, 102, 105, 101, 100, 95, 110, 97, 109, 101, 115]

structure UpstreamConfig where
  domainReservedUpstreams : List (Bytes × List Upstream)
  specifiedDomainUpstreams : List (Bytes × List Upstream)
  subdomainExclusions : List Bytes
  upstreams : List Upstream
deriving DecidableEq, Repr

namespace UpstreamConfig

def lookupUpstreams (uc : UpstreamConfig) (name : Bytes) : Option (List Upstream) :=
  (uc.domainReservedUpstreams.lookup name).map fun ups =>
    if ups.length = 0 then uc.upstreams else ups

/-- The excluded names are the fully qualified ones of the configuration, so that
the part after the first dot is there. -/
def lookupSubdomainExclusion (uc : UpstreamConfig) (host : Bytes) : List Upstream :=
  match uc.specifiedDomainUpstreams.lookup host with
  | some (u :: ups) => u :: ups
  | _ =>
    match uc.domainReservedUpstreams.lookup (cut host).2 with
    | some (u :: ups) => u :: ups
    | _ => uc.upstreams

/-- The loop over the parent domains. -/
def lookupParents (uc : UpstreamConfig) (fqdn : Bytes) : List Upstream :=
  if _h : fqdn = [] then uc.upstreams
  else
    match uc.lookupUpstreams fqdn with
    | some ups => ups
    | none => uc.lookupParents (cut fqdn).2
termination_by fqdn.length
decreasing_by exact length_cut_snd_lt _h

def getUpstreamsForDomain (uc : UpstreamConfig) (fqdn : Bytes) : List Upstream :=
  if uc.domainReservedUpstreams.length = 0 then uc.upstreams
  else
    let fqdn := toLower fqdn
    if uc.subdomainExclusions.contains fqdn then uc.lookupSubdomainExclusion fqdn
    else
      match uc.lookupUpstreams fqdn with
      | some ups => ups
      | none =>
        let (firstLabel, rest) := cut fqdn
        uc.lookupParents (if firstLabel ≠ [] ∧ rest = [] then unqualifiedNames else rest)

def getUpstreamsForDS (uc : UpstreamConfig) (fqdn : Bytes) : List Upstream :=
  let (_, fqdn) := cut fqdn
  if fqdn = [] then uc.upstreams else uc.getUpstreamsForDomain fqdn

end UpstreamConfig

/-! ## Exchanges -/

/-- What `Exchange` of a server returns: a message that may be nil, or an error. -/
abbrev Outcome := Except Err (Option Msg)

/-- The environment of the exchanges of one request. -/
structure Exchanges where
  outcome : Upstream → Msg → Outcome
  /-- The order in which the results of parallel exchanges arrive. -/
  arrival : List Upstream → List Upstream
  arrival_perm : ∀ ups, (arrival ups).Perm ups
  /-- The order in which the weighted sampler draws. -/
  draws : List Upstream → List Upstream
  draws_perm : ∀ ups, (draws ups).Perm ups
  /-- The address that answers the pings first, if any does. -/
  pinged : Option Addr
  /-- What the statistics wrapper of a server measured. -/
  measured : Upstream → Option Err × Int

/-- A result, with the servers that were asked and the request each got. -/
structure Exchanged where
  resp : Option Msg
  u : Option Upstream
  err : Option Err
  asked : List (Upstream × Msg)

/-- `exchangeSingle`, and the case of one server of `exchangeUpstreams`. -/
def exchangeSingle (env : Exchanges) (u : Upstream) (req : Msg) : Exchanged :=
  match env.outcome u req with
  | .error e => ⟨none, none, some e, [(u, req)]⟩
  | .ok resp => ⟨resp, some u, none, [(u, req)]⟩

/-- A result as `receiveAsyncResult` passes it on. -/
def received (env : Exchanges) (req : Msg) (u : Upstream) : Except Err Msg :=
  match env.outcome u req with
  | .error e => .error e
  | .ok none => .error .noReply
  | .ok (some m) => .ok m

/-- `errors.Join`. -/
def joinErrs : List Err → Err
  | [e] => e
  | _ => .text "joined"

/-- The loop of `ExchangeParallel` over the arriving results. -/
def firstReply (env : Exchanges) (req : Msg) :
    List Upstream → List Err → Except Err (Msg × Upstream)
  | [], errs => .error (if errs.length = 0 then .noneResponded else joinErrs errs)
  | u :: us, errs =>
    match received env req u with
    | .ok m => .ok (m, u)
    | .error e => firstReply env req us (if e = .noReply then errs else errs ++ [e])

def exchangeParallel (env : Exchanges) (ups : List Upstream) (req : Msg) : Exchanged :=
  match ups with
  | [] => ⟨none, none, some .noUpstreams, []⟩
  | [u] => exchangeSingle env u req
  | _ =>
    let asked := ups.map fun u => (u, req)
    match firstReply env req (env.arrival ups) [] with
    | .error e => ⟨none, none, some e, asked⟩
    | .ok (m, u) => ⟨some m, some u, none, asked⟩

/-- `ExchangeAll`: the replies in the order of their arrival. -/
def exchangeAll (env : Exchanges) (ups : List Upstream) (req : Msg) :
    Except Err (List (Msg × Upstream)) :=
  match ups with
  | [] => .error .noUpstreams
  | [u] =>
    match env.outcome u req with
    | .error e => .error e
    | .ok none => .error .noReply
    | .ok (some m) => .ok [(m, u)]
  | _ =>
    let replies := (env.arrival ups).filterMap fun u =>
      match received env req u with
      | .ok m => some (m, u)
      | .error _ => none
    if replies.length = 0 then .error (.text "all upstreams failed") else .ok replies

def ipFromRR (pf : Platform) (r : RR) : Option Addr :=
  match r.rdata with
  | .a ip => pf.ipToAddrIPv4 (some ip)
  | .aaaa ip => pf.ipToAddrIPv6 (some ip)
  | _ => none

/-- `filterResponseAnswer`: other addresses are removed from the answer. -/
def filterResponseAnswer (resp : Msg) (ip : Addr) : Msg :=
  { resp with
    answer := resp.answer.filter fun r =>
      match r.rdata with
      | .a a => Net.ipEqual (some a) (some ip)
      | .aaaa a => Net.ipEqual (some a) (some ip)
      | _ => true }

/-- `prepareReply`: the first reply with the address, cut down to it. -/
def prepareReply (pf : Platform) (ip : Addr) (replies : List (Msg × Upstream)) :
    Option (Msg × Upstream) :=
  match replies.find? fun r => r.1.answer.any fun rr => ipFromRR pf rr == some ip with
  | none => replies.head?
  | some (resp, u) => some (filterResponseAnswer resp ip, u)

def exchangeFastest (pf : Platform) (env : Exchanges) (req : Msg) (ups : List Upstream) :
    Exchanged :=
  let asked := ups.map fun u => (u, req)
  match exchangeAll env ups req with
  | .error e => ⟨none, none, some e, asked⟩
  | .ok replies =>
    let reply :=
      match env.pinged with
      | some ip => prepareReply pf ip replies
      | none => replies.head?
    ⟨reply.map Prod.fst, reply.map Prod.snd, none, asked⟩

/-- The load-balancing loop over the drawn servers. -/
def exchangeDrawn (env : Exchanges) (req : Msg) : List Upstream → Exchanged
  | [] => ⟨none, none, some (.text "all upstreams failed to exchange request"), []⟩
  | u :: us =>
    match env.outcome u req with
    | .ok resp => ⟨resp, some u, none, [(u, req)]⟩
    | .error _ =>
      let rest := exchangeDrawn env req us
      { rest with asked := (u, req) :: rest.asked }

def exchangeUpstreams (pf : Platform) (mode : UpstreamMode) (env : Exchanges) (req : Msg)
    (ups : List Upstream) : Exchanged :=
  match mode with
  | .parallel => exchangeParallel env ups req
  | _ =>
    if mode = .fastestAddr ∧
        (req.firstQuestion.qtype = typeA ∨ req.firstQuestion.qtype = typeAAAA) then
      exchangeFastest pf env req ups
    else
      match ups with
      | [u] => exchangeSingle env u req
      | _ => exchangeDrawn env req (env.draws ups)

/-! ## Who is asked, and who answers -/

/-- `m` is a response to `req` from `u`, as it was sent or with some addresses
removed from its answer. -/
def SentBy (env : Exchanges) (req : Msg) (u : Upstream) (m : Msg) : Prop :=
  ∃ sent, env.outcome u req = .ok (some sent) ∧ (m = sent ∨ ∃ ip, m = filterResponseAnswer sent ip)

/-- Only servers of `ups` are asked, about `req`, and a response is from one of them. -/
structure Exchanged.Within (x : Exchanged) (env : Exchanges) (req : Msg) (ups : List Upstream) :
    Prop where
  asked : ∀ a ∈ x.asked, a.1 ∈ ups ∧ a.2 = req
  answered : ∀ m, x.resp = some m → ∃ u ∈ ups, x.u = some u ∧ SentBy env req u m

theorem mem_ask_all (ups : List Upstream) (req : Msg) :
    ∀ a ∈ ups.map fun u => (u, req), a.1 ∈ ups ∧ a.2 = req := by
  intro a ha
  obtain ⟨u, hu, rfl⟩ := List.mem_map.mp ha
  exact ⟨hu, rfl⟩

theorem exchangeSingle_within (env : Exchanges) (req : Msg) {u : Upstream} {ups : List Upstream}
    (hu : u ∈ ups) : (exchangeSingle env u req).Within env req ups := by
  unfold exchangeSingle
  split
  · exact ⟨by simp [hu], by simp⟩
  · next resp ho =>
    refine ⟨by simp [hu], fun m hm => ?_⟩
    obtain rfl : resp = some m := hm
    exact ⟨u, hu, rfl, m, ho, .inl rfl⟩

theorem received_ok {env : Exchanges} {req : Msg} {u : Upstream} {m : Msg}
    (h : received env req u = .ok m) : env.outcome u req = .ok (some m) := by
  unfold received at h
  split at h
  · cases h
  · cases h
  · next m' ho =>
    cases h
    exact ho

theorem firstReply_ok {env : Exchanges} {req : Msg} {us : List Upstream} {errs : List Err} {m : Msg}
    {u : Upstream} (h : firstReply env req us errs = .ok (m, u)) :
    u ∈ us ∧ env.outcome u req = .ok (some m) := by
  induction us generalizing errs with
  | nil => cases h
  | cons x us ih =>
    unfold firstReply at h
    split at h
    · next m' hm =>
      cases h
      exact ⟨List.mem_cons_self, received_ok hm⟩
    · obtain ⟨hu, ho⟩ := ih h
      exact ⟨List.mem_cons_of_mem _ hu, ho⟩

theorem exchangeParallel_within (env : Exchanges) (ups : List Upstream) (req : Msg) :
    (exchangeParallel env ups req).Within env req ups := by
  unfold exchangeParallel
  split
  · exact ⟨by simp, by simp⟩
  · exact exchangeSingle_within env req (List.mem_singleton.mpr rfl)
  · simp only
    split
    · exact ⟨mem_ask_all ups req, by simp⟩
    · next m u hf =>
      obtain ⟨hu, ho⟩ := firstReply_ok hf
      refine ⟨mem_ask_all ups req, fun m' hm => ?_⟩
      obtain rfl := Option.some.inj hm
      exact ⟨u, (env.arrival_perm ups).mem_iff.mp hu, rfl, m, ho, .inl rfl⟩

theorem exchangeAll_ok {env : Exchanges} {ups : List Upstream} {req : Msg}
    {replies : List (Msg × Upstream)} (h : exchangeAll env ups req = .ok replies) :
    ∀ r ∈ replies, r.2 ∈ ups ∧ env.outcome r.2 req = .ok (some r.1) := by
  unfold exchangeAll at h
  split at h
  · cases h
  · split at h
    · cases h
    · cases h
    · next u m ho =>
      cases h
      simpa using ho
  · simp only at h
    split at h
    · cases h
    · cases h
      rintro ⟨m, u⟩ hr
      obtain ⟨x, hx, hxr⟩ := List.mem_filterMap.mp hr
      split at hxr
      · next m' hm =>
        cases hxr
        exact ⟨(env.arrival_perm ups).mem_iff.mp hx, received_ok hm⟩
      · cases hxr

theorem prepareReply_mem {pf : Platform} {ip : Addr} {replies : List (Msg × Upstream)} {m : Msg}
    {u : Upstream} (h : prepareReply pf ip replies = some (m, u)) :
    ∃ sent, (sent, u) ∈ replies ∧ (m = sent ∨ ∃ ip, m = filterResponseAnswer sent ip) := by
  unfold prepareReply at h
  split at h
  · exact ⟨m, List.mem_of_mem_head? h, .inl rfl⟩
  · next resp u' hf =>
    obtain ⟨rfl, rfl⟩ := Prod.mk.inj (Option.some.inj h)
    exact ⟨resp, List.mem_of_find?_eq_some hf, .inr ⟨ip, rfl⟩⟩

theorem exchangeFastest_within (pf : Platform) (env : Exchanges) (req : Msg) (ups : List Upstream) :
    (exchangeFastest pf env req ups).Within env req ups := by
  unfold exchangeFastest
  simp only
  split
  · exact ⟨mem_ask_all ups req, by simp⟩
  · next replies hall =>
    refine ⟨mem_ask_all ups req, fun m hm => ?_⟩
    obtain ⟨⟨m', u⟩, hreply, rfl⟩ := Option.map_eq_some_iff.mp hm
    have hsent : ∃ sent, (sent, u) ∈ replies ∧
        (m' = sent ∨ ∃ ip, m' = filterResponseAnswer sent ip) := by
      split at hreply
      · exact prepareReply_mem hreply
      · exact ⟨m', List.mem_of_mem_head? hreply, .inl rfl⟩
    obtain ⟨sent, hmem, hform⟩ := hsent
    obtain ⟨hu, ho⟩ := exchangeAll_ok hall _ hmem
    exact ⟨u, hu, by rw [hreply]; rfl, sent, ho, hform⟩

theorem exchangeDrawn_within (env : Exchanges) (req : Msg) (us : List Upstream) :
    (exchangeDrawn env req us).Within env req us := by
  induction us with
  | nil => exact ⟨by simp [exchangeDrawn], by simp [exchangeDrawn]⟩
  | cons u us ih =>
    unfold exchangeDrawn
    split
    · next resp ho =>
      refine ⟨by simp, fun m hm => ?_⟩
      obtain rfl : resp = some m := hm
      exact ⟨u, List.mem_cons_self, rfl, m, ho, .inl rfl⟩
    · refine ⟨fun a ha => ?_, fun m hm => ?_⟩
      · rcases List.mem_cons.mp ha with rfl | ha
        · exact ⟨List.mem_cons_self, rfl⟩
        · exact ⟨List.mem_cons_of_mem _ (ih.asked a ha).1, (ih.asked a ha).2⟩
      · obtain ⟨v, hv, hu, hsent⟩ := ih.answered m hm
        exact ⟨v, List.mem_cons_of_mem _ hv, hu, hsent⟩

theorem Exchanged.Within.of_perm {x : Exchanged} {env : Exchanges} {req : Msg}
    {ups ups' : List Upstream} (h : x.Within env req ups) (hp : ups.Perm ups') :
    x.Within env req ups' := by
  refine ⟨fun a ha => ⟨hp.mem_iff.mp (h.asked a ha).1, (h.asked a ha).2⟩, fun m hm => ?_⟩
  obtain ⟨u, hu, rest⟩ := h.answered m hm
  exact ⟨u, hp.mem_iff.mp hu, rest⟩

/-- Every mode asks only the given servers and answers with what one of them sent. -/
theorem exchangeUpstreams_spec (pf : Platform) (mode : UpstreamMode) (env : Exchanges) (req : Msg)
    (ups : List Upstream) : (exchangeUpstreams pf mode env req ups).Within env req ups := by
  unfold exchangeUpstreams
  split
  · exact exchangeParallel_within env ups req
  · split
    · exact exchangeFastest_within pf env req ups
    · split
      · exact exchangeSingle_within env req (List.mem_singleton.mpr rfl)
      · exact (exchangeDrawn_within env req _).of_perm (env.draws_perm ups)

/-! ## Failures -/

/-- An exchange that failed has no response. -/
def Exchanged.Failing (x : Exchanged) : Prop := x.err ≠ none → x.resp = none

theorem exchangeSingle_failing (env : Exchanges) (u : Upstream) (req : Msg) :
    (exchangeSingle env u req).Failing := by
  unfold exchangeSingle
  split
  · exact fun _ => rfl
  · exact fun h => absurd rfl h

theorem exchangeParallel_failing (env : Exchanges) (ups : List Upstream) (req : Msg) :
    (exchangeParallel env ups req).Failing := by
  unfold exchangeParallel
  split
  · exact fun _ => rfl
  · exact exchangeSingle_failing env _ req
  · simp only
    split
    · exact fun _ => rfl
    · exact fun h => absurd rfl h

theorem exchangeDrawn_failing (env : Exchanges) (req : Msg) (us : List Upstream) :
    (exchangeDrawn env req us).Failing := by
  induction us with
  | nil => exact fun _ => rfl
  | cons u us ih =>
    unfold exchangeDrawn
    split
    · exact fun h => absurd rfl h
    · exact ih

theorem exchangeUpstreams_failing (pf : Platform) (mode : UpstreamMode) (env : Exchanges)
    (req : Msg) (ups : List Upstream) : (exchangeUpstreams pf mode env req ups).Failing := by
  unfold exchangeUpstreams
  split
  · exact exchangeParallel_failing env ups req
  · split
    · unfold exchangeFastest
      simp only
      split
      · exact fun _ => rfl
      · exact fun h => absurd rfl h
    · split
      · exact exchangeSingle_failing env _ req
      · exact exchangeDrawn_failing env req _

end DnsProxy
