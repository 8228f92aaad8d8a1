import DnsProxy.Answered

/-!
# Names in the hosts files

The command puts a handler before the resolution of requests: it answers AAAA questions with
nothing if IPv6 is halted, and questions about names and addresses in the hosts files from them.
Only what it does not answer is resolved.

* `resolveFromHosts`, `haltAAAA`: the handler, and `handle_isSome_iff`, `handle_reply`: which
  questions it answers, and how.
* `Command.step`: the runs of the command, which are runs of the proxy behind the handler, and
  `step_emptyStorage`: those of the proxy if there is nothing for the handler to answer.
* `hosts_answered`: in every run, a question about the hosts files is answered from them, and no
  upstream is asked it, except that DNS64 asks for the IPv4 addresses of a name without IPv6 ones.
-/

namespace DnsProxy

namespace Hosts

/-! ## The handler -/

/-- `hostsfile.Storage`. -/
structure Storage where
  byAddr : Addr → List Bytes
  byName : Bytes → List Addr

def emptyStorage : Storage := ⟨fun _ => [], fun _ => []⟩

/-- The bodies of the records that the handler makes, in wire form. -/
structure Bodies where
  ptr : Bytes → Bytes
  soa (ns mbox : Bytes) (serial refresh retry expire minttl : UInt32) : Bytes

/-- `middleware.Default`. -/
structure Default where
  hosts : Storage
  haltIPv6 : Bool

def defaultResponseTTL : UInt32 := 10

def newCompressedResponse (req : Msg) (code : Nat) : Msg := { reply req code with compress := true }

/-- `hdr`, with the body of the record. -/
def hdr (name : Bytes) (body : RData) : RR := ⟨name, classINET, defaultResponseTTL, body⟩

theorem typePTR_other : typePTR ≠ typeA ∧ typePTR ≠ typeAAAA ∧ typePTR ≠ typeOPT := by decide

theorem typeSOA_other : typeSOA ≠ typeA ∧ typeSOA ≠ typeAAAA ∧ typeSOA ≠ typeOPT := by decide

def ptrType : { t : UInt16 // t ≠ typeA ∧ t ≠ typeAAAA ∧ t ≠ typeOPT } := ⟨typePTR, typePTR_other⟩

def soaType : { t : UInt16 // t ≠ typeA ∧ t ≠ typeAAAA ∧ t ≠ typeOPT } := ⟨typeSOA, typeSOA_other⟩

def newPTRAnswer (bodies : Bodies) (name ptrFQDN : Bytes) : RR :=
  hdr name (.other ptrType (bodies.ptr (DnsCrypt.fqdn ptrFQDN)))

def newAnswerA (req : Msg) (ip : Addr) : RR := hdr req.firstQuestion.name (.a ip)

def newAnswerAAAA (req : Msg) (ip : Addr) : RR := hdr req.firstQuestion.name (.aaaa ip)

def is4 (ip : Addr) : Bool := ip.length = 4

/-- An IPv4 address that is mapped to an IPv6 one is an IPv6 address. -/
def is6 (ip : Addr) : Bool := ip.length = 16

def genAnswersWithIPv4s (req : Msg) (ips : List Addr) : List RR :=
  if ips.all is4 then ips.map (newAnswerA req) else []

def newIPResponse (req : Msg) (ips : List Addr) : Msg :=
  let ans :=
    if req.firstQuestion.qtype = typeA then genAnswersWithIPv4s req ips
    else if req.firstQuestion.qtype = typeAAAA then (ips.filter is6).map (newAnswerAAAA req)
    else []
  { newCompressedResponse req rcodeSuccess with answer := ans }

/-- `fake-for-negative-caching.adguard.com.`. -/
def fakeNS : Bytes := ascii "fake-for-negative-caching.adguard.com."

def newMsgNODATA (bodies : Bodies) (req : Msg) : Msg :=
  let zone := req.firstQuestion.name
  let mbox := ascii "hostmaster." ++ if zone.head? = some 0x2e then [] else zone
  let soa := hdr zone (.other soaType (bodies.soa fakeNS mbox 100500 1800 60 604800 86400))
  { reply req rcodeSuccess with ns := [soa] }

/-- `strings.TrimSuffix` of a dot. -/
def trimDot (name : Bytes) : Bytes := if name.getLast? = some 0x2e then name.dropLast else name

def Default.haltAAAA (mw : Default) (bodies : Bodies) (req : Msg) : Option Msg :=
  if mw.haltIPv6 && req.firstQuestion.qtype == typeAAAA then some (newMsgNODATA bodies req)
  else none

/-- The response with the addresses that were found, or the names. -/
def foundResponse (bodies : Bodies) (req : Msg) (addrs : List Addr) (ptrs : List Bytes) :
    Option Msg :=
  if 0 < addrs.length then some (newIPResponse req addrs)
  else if 0 < ptrs.length then
    some { newCompressedResponse req rcodeSuccess with
      answer := ptrs.map fun ptr =>
        newPTRAnswer bodies req.firstQuestion.name (DnsCrypt.fqdn ptr) }
  else none

def Default.resolveFromHosts (mw : Default) (pf : Platform) (bodies : Bodies) (req : Msg) :
    Option Msg :=
  let q := req.firstQuestion
  let name := trimDot q.name
  if q.qtype = typeA then
    foundResponse bodies req ((mw.hosts.byName name).filter fun ip => !is6 ip) []
  else if q.qtype = typeAAAA then
    foundResponse bodies req ((mw.hosts.byName name).filter fun ip => !is4 ip) []
  else if q.qtype = typePTR then
    match pf.ipFromReversedAddr name with
    | none => none
    | some addr => foundResponse bodies req [] (mw.hosts.byAddr addr)
  else none

/-- `Wrap` up to the next handler, which is called if there is no response. -/
def Default.handle (mw : Default) (pf : Platform) (bodies : Bodies) (req : Msg) : Option Msg :=
  match mw.haltAAAA bodies req with
  | some res => some res
  | none => mw.resolveFromHosts pf bodies req

/-! ## What it answers -/

/-- The hosts files have something for the question. -/
def Storage.Lists (hosts : Storage) (pf : Platform) (q : Question) : Prop :=
  q.qtype = typeA ∧ (∃ ip ∈ hosts.byName (trimDot q.name), is6 ip = false) ∨
  q.qtype = typeAAAA ∧ (∃ ip ∈ hosts.byName (trimDot q.name), is4 ip = false) ∨
  q.qtype = typePTR ∧ ∃ addr, pf.ipFromReversedAddr (trimDot q.name) = some addr ∧
    hosts.byAddr addr ≠ []

/-- The handler answers the question. -/
def Default.Answers (mw : Default) (pf : Platform) (q : Question) : Prop :=
  mw.haltIPv6 = true ∧ q.qtype = typeAAAA ∨ mw.hosts.Lists pf q

/-- The addresses in the hosts files are addresses of one of the families. -/
def Storage.Valid (hosts : Storage) : Prop :=
  ∀ name, ∀ ip ∈ hosts.byName name, is4 ip = true ∨ is6 ip = true

variable {mw : Default} {pf : Platform} {bodies : Bodies} {req res : Msg}

theorem foundResponse_isSome (addrs : List Addr) (ptrs : List Bytes) :
    (foundResponse bodies req addrs ptrs).isSome = true ↔ addrs ≠ [] ∨ ptrs ≠ [] := by
  unfold foundResponse
  cases addrs with
  | nil =>
    cases ptrs with
    | nil => simp
    | cons _ _ => simp
  | cons _ _ => simp

theorem resolveFromHosts_isSome_iff :
    (mw.resolveFromHosts pf bodies req).isSome = true ↔ mw.hosts.Lists pf req.firstQuestion := by
  have hA : typeA ≠ typeAAAA ∧ typeA ≠ typePTR := by decide
  have hAAAA : typeAAAA ≠ typeA ∧ typeAAAA ≠ typePTR := by decide
  have hPTR : typePTR ≠ typeA ∧ typePTR ≠ typeAAAA := by decide
  unfold Default.resolveFromHosts Storage.Lists
  dsimp only
  split
  · next h => simp [foundResponse_isSome, h, hA]
  · split
    · next h => simp [foundResponse_isSome, h, hAAAA]
    · split
      · next h =>
        cases haddr : pf.ipFromReversedAddr (trimDot req.firstQuestion.name) with
        | none => simp [h, hPTR]
        | some addr => simp [foundResponse_isSome, h, hPTR]
      · next hA' hAAAA' hPTR' => simp [hA', hAAAA', hPTR']

/-- Which questions are answered. -/
theorem handle_isSome_iff :
    (mw.handle pf bodies req).isSome = true ↔ mw.Answers pf req.firstQuestion := by
  unfold Default.handle Default.haltAAAA Default.Answers
  rw [← @resolveFromHosts_isSome_iff mw pf bodies req]
  by_cases h : mw.haltIPv6 = true ∧ req.firstQuestion.qtype = typeAAAA
  · simp [h]
  · have hif : (mw.haltIPv6 && req.firstQuestion.qtype == typeAAAA) = false := by
      simpa using h
    simp [hif, h]

theorem handle_emptyStorage : Default.handle ⟨emptyStorage, false⟩ pf bodies req = none := by
  cases h : Default.handle ⟨emptyStorage, false⟩ pf bodies req with
  | none => rfl
  | some res =>
    have hanswers : Default.Answers ⟨emptyStorage, false⟩ pf req.firstQuestion :=
      handle_isSome_iff.mp (Option.isSome_iff_exists.mpr ⟨res, h⟩)
    simp [Default.Answers, Storage.Lists, emptyStorage] at hanswers

/-- A response with records for the question, all of the type that it asks for. -/
structure Proper (req res : Msg) : Prop where
  reply : IsReply req res
  answer : res.answer ≠ []
  records : ∀ r ∈ res.answer, r.name = req.firstQuestion.name ∧ r.rrtype = req.firstQuestion.qtype

theorem proper_compressed (hone : req.question.length = 1) {answer : List RR} (hne : answer ≠ [])
    (hrecords : ∀ r ∈ answer,
      r.name = req.firstQuestion.name ∧ r.rrtype = req.firstQuestion.qtype) :
    Proper req { newCompressedResponse req rcodeSuccess with answer := answer } :=
  ⟨(isReply_reply hone rcodeSuccess).of_sameEnvelope ⟨rfl, rfl, rfl⟩, hne, hrecords⟩

theorem proper_newIPResponse (hone : req.question.length = 1) {ips : List Addr} (hne : ips ≠ [])
    (hfamily : req.firstQuestion.qtype = typeA ∧ (∀ ip ∈ ips, is4 ip = true) ∨
      req.firstQuestion.qtype = typeAAAA ∧ ∀ ip ∈ ips, is6 ip = true) :
    Proper req (newIPResponse req ips) := by
  unfold newIPResponse
  dsimp only
  rcases hfamily with ⟨htype, hips⟩ | ⟨htype, hips⟩
  · have hans : genAnswersWithIPv4s req ips = ips.map (newAnswerA req) :=
      if_pos (List.all_eq_true.mpr hips)
    rw [if_pos htype, hans]
    refine proper_compressed hone (by simpa using hne) fun r hr => ?_
    obtain ⟨ip, -, rfl⟩ := List.mem_map.mp hr
    exact ⟨rfl, htype.symm⟩
  · have hans : ips.filter is6 = ips := List.filter_eq_self.mpr hips
    have hnot : req.firstQuestion.qtype ≠ typeA := by
      rw [htype]
      decide
    rw [if_neg hnot, if_pos htype, hans]
    refine proper_compressed hone (by simpa using hne) fun r hr => ?_
    obtain ⟨ip, -, rfl⟩ := List.mem_map.mp hr
    exact ⟨rfl, htype.symm⟩

theorem proper_foundResponse (hone : req.question.length = 1) {addrs : List Addr}
    {ptrs : List Bytes}
    (hfamily : addrs ≠ [] → req.firstQuestion.qtype = typeA ∧ (∀ ip ∈ addrs, is4 ip = true) ∨
      req.firstQuestion.qtype = typeAAAA ∧ ∀ ip ∈ addrs, is6 ip = true)
    (hptr : ptrs ≠ [] → req.firstQuestion.qtype = typePTR)
    (h : foundResponse bodies req addrs ptrs = some res) : Proper req res := by
  unfold foundResponse at h
  split at h
  · next hlen =>
    obtain rfl := Option.some.inj h
    have hne : addrs ≠ [] := List.length_pos_iff.mp hlen
    exact proper_newIPResponse hone hne (hfamily hne)
  · split at h
    · next hlen =>
      obtain rfl := Option.some.inj h
      have hne : ptrs ≠ [] := List.length_pos_iff.mp hlen
      refine proper_compressed hone (by simpa using hne) fun r hr => ?_
      obtain ⟨ptr, -, rfl⟩ := List.mem_map.mp hr
      exact ⟨rfl, (hptr hne).symm⟩
    · cases h

theorem family_of_filter {f g : Addr → Bool} {ips : List Addr}
    (h : ∀ ip ∈ ips, g ip = true ∨ f ip = true) :
    ∀ ip ∈ ips.filter fun ip => !f ip, g ip = true := by
  intro ip hip
  obtain ⟨hmem, hnot⟩ := List.mem_filter.mp hip
  refine (h ip hmem).resolve_right fun hf => ?_
  rw [hf] at hnot
  cases hnot

theorem proper_resolveFromHosts (hvalid : mw.hosts.Valid) (hone : req.question.length = 1)
    (h : mw.resolveFromHosts pf bodies req = some res) : Proper req res := by
  unfold Default.resolveFromHosts at h
  dsimp only at h
  split at h
  · next htype =>
    exact proper_foundResponse hone (fun _ => .inl ⟨htype, family_of_filter (hvalid _)⟩)
      (fun hne => absurd rfl hne) h
  · split at h
    · next htype =>
      have hsix := family_of_filter fun ip hip =>
        (hvalid (trimDot req.firstQuestion.name) ip hip).symm
      exact proper_foundResponse hone (fun _ => .inr ⟨htype, hsix⟩)
        (fun hne => absurd rfl hne) h
    · split at h
      · next htype =>
        split at h
        · cases h
        · exact proper_foundResponse hone (fun hne => absurd rfl hne) (fun _ => htype) h
      · cases h

/-- How they are answered: with records from the hosts files, or with none if IPv6 is halted. -/
theorem handle_reply (hvalid : mw.hosts.Valid) (hone : req.question.length = 1)
    (h : mw.handle pf bodies req = some res) :
    IsReply req res ∧ (mw.haltIPv6 = true ∧ req.firstQuestion.qtype = typeAAAA ∧ res.answer = [] ∨
      Proper req res) := by
  unfold Default.handle Default.haltAAAA at h
  split at h
  · next hhalt =>
    obtain rfl := Option.some.inj h
    split at hhalt
    · next hcond =>
      obtain rfl := Option.some.inj hhalt
      obtain ⟨hhalts, htype⟩ : mw.haltIPv6 = true ∧ req.firstQuestion.qtype = typeAAAA := by
        simpa using hcond
      have hreply : IsReply req (newMsgNODATA bodies req) :=
        (isReply_reply hone rcodeSuccess).of_sameEnvelope ⟨rfl, rfl, rfl⟩
      exact ⟨hreply, .inl ⟨hhalts, htype, rfl⟩⟩
    · cases hhalt
  · have hproper := proper_resolveFromHosts hvalid hone h
    exact ⟨hproper.reply, .inr hproper⟩

end Hosts

/-! ## What upstreams are asked -/

theorem performDNS64_asked {pf : Platform} {mode : UpstreamMode} {prefs : List Prefix}
    {env : Exchanges} {newID : UInt16} {req : Msg} {resp : Option Msg} {ups : List Upstream} :
    ∀ a ∈ (performDNS64 pf mode prefs env newID req resp ups).asked,
      Dns64Applies prefs req ∧ a.2 = dns64Request newID req := by
  intro a ha
  unfold performDNS64 at ha
  cases resp with
  | none => cases ha
  | some resp =>
    simp only [checkDNS64_eq] at ha
    by_cases hwants : WantsSynthesis pf prefs req resp
    · simp only [if_pos hwants] at ha
      have hx := exchangeUpstreams_spec pf mode env (dns64Request newID req) ups
      refine ⟨hwants.1, (hx.asked a ?_).2⟩
      split at ha
      · split at ha <;> exact ha
      · exact ha
    · simp only [if_neg hwants] at ha
      cases ha

/-- An upstream is asked the question of the request or, with DNS64, for the IPv4 addresses of
the name of a request for IPv6 ones. -/
def Proxy.AsksFor (p : Proxy) (req m : Msg) : Prop :=
  m.question = req.question ∨ Dns64Applies p.dns64Prefs req ∧
    m.question = req.question.modify 0 fun q => { q with qtype := typeA }

theorem replyFromUpstream_asked {pf : Platform} {p : Proxy} {env : UpstreamEnv} {d : DNSContext} :
    ∀ a ∈ (p.replyFromUpstream pf env d).asked, p.AsksFor d.req a.2 := by
  have hselected : ∀ ups, ∀ a ∈ (p.exchangeSelected pf env d.req ups).asked,
      p.AsksFor d.req a.2 := by
    intro ups a ha
    have hmem : a ∈ (exchangeUpstreams pf p.upstreamMode env.main d.req ups).asked ++
        (performDNS64 pf p.upstreamMode p.dns64Prefs env.dns64 env.newID d.req
          (exchangeUpstreams pf p.upstreamMode env.main d.req ups).resp ups).asked := by
      unfold Proxy.exchangeSelected at ha
      dsimp only at ha
      split at ha
      · exact ha
      · split at ha <;> exact ha
    rcases List.mem_append.mp hmem with hmain | hdns64
    · have hx := exchangeUpstreams_spec pf p.upstreamMode env.main d.req ups
      exact .inl (congrArg Msg.question (hx.asked a hmain).2)
    · obtain ⟨happlies, heq⟩ := performDNS64_asked a hdns64
      exact .inr ⟨happlies, congrArg Msg.question heq⟩
  intro a ha
  unfold Proxy.replyFromUpstream at ha
  dsimp only at ha
  split at ha
  · cases ha
  · split at ha
    · rcases List.mem_append.mp ha with hmain | hfallback
      · exact hselected _ a hmain
      · exact .inl (congrArg Msg.question
          ((exchangeParallel_within env.fallback _ d.req).asked a hfallback).2)
    · exact hselected _ a ha

/-! ## The command -/

namespace System.Command

open Hosts

section Step

variable (mw : Default) (bodies : Bodies) (pf : Platform) (p : Proxy)

/-- A step of the proxy behind the handler. The rate limiter before it drops requests, which is
as if they had not been served. -/
def step (s : State) : Action → Option State
  | .resolve .. => none
  | .serve c d now =>
    match s.work c, p.processDNSRequest pf s.recDetector d now with
    | .idle, .handled d' =>
      match mw.handle pf bodies d'.req with
      | some _ => some (s.setWork c .answered)
      | none => start pf p s c d'
    | .idle, _ => some (s.setWork c .answered)
    | _, _ => none
  | a => System.step pf p s a

/-- The states of all runs of the command. -/
abbrev Reach : State → State → Prop := Runs.Run (step mw bodies pf p) Runs.anyStep

/-- The state after some actions. -/
abbrev run (s : State) (as : List Action) : Option State :=
  Runs.replay (step mw bodies pf p) (fun _ _ => true) s as

end Step

variable {mw : Default} {bodies : Bodies} {pf : Platform} {p : Proxy} {s s' : State} {a : Action}

/-- Without names in the hosts files, and with IPv6, the command is the proxy. -/
theorem step_emptyStorage (ha : ∀ c d, a ≠ .resolve c d) :
    step ⟨emptyStorage, false⟩ bodies pf p s a = System.step pf p s a := by
  cases a with
  | resolve c d => exact absurd rfl (ha c d)
  | serve c d now =>
    unfold step
    simp only [handle_emptyStorage]
    rfl
  | _ => rfl

/-- The handler has no response to the request of a context. -/
def Unanswered (mw : Default) (pf : Platform) (d : DNSContext) : Prop :=
  ¬mw.Answers pf d.req.firstQuestion

/-- What a step of the command does: a request that is resolved had no response. -/
structure Passed (mw : Default) (pf : Platform) (p : Proxy) (s : State) (a : Action) (s' : State) :
    Prop where
  moved : Moved pf p s a s'
  work : ∀ c d, (s'.work c).asking? = some d → (s.work c).asking? = some d ∨ Unanswered mw pf d

theorem passed_proxy (h : System.step pf p s a = some s') (hstart : a.isStart = false) :
    Passed mw pf p s a s' := by
  have hmoved := System.moved_step h
  refine ⟨hmoved, fun c d hd => .inl ((hmoved.work c d hd).resolve_right ?_)⟩
  rintro ⟨d₀, rfl | ⟨_, _, rfl, -⟩, -⟩ <;> cases hstart

theorem passed_answered (c : Nat) : Passed mw pf p s a (s.setWork c .answered) := by
  refine ⟨.of_work rfl Work.noConfusion (fun _ h => by cases h) (fun _ _ h => .inl h) (.inl rfl)
    (.inl rfl), fun c' d hd => ?_⟩
  rcases update_cases (Work.asking? · = some d) hd with ⟨-, hnone⟩ | hold
  · cases hnone
  · exact .inl hold

theorem passed_start {c : Nat} {d d' : DNSContext} {now : Instant}
    (hhandled : p.processDNSRequest pf s.recDetector d now = .handled d')
    (hnone : mw.handle pf bodies d'.req = none) (h : start pf p s c d' = some s') :
    Passed mw pf p s (.serve c d now) s' := by
  have hmoved : Moved pf p s (.serve c d now) s' :=
    moved_stepped (stepped_start (.inr ⟨d, now, rfl, hhandled⟩) h)
  refine ⟨hmoved, fun c' d₁ hd => (hmoved.work c' d₁ hd).imp_right ?_⟩
  rintro ⟨d₀, hstarts | ⟨_, _, heq, hhandled'⟩, -, rfl⟩
  · cases hstarts
  · cases heq
    obtain rfl := Served.handled.inj (hhandled'.symm.trans hhandled)
    intro hanswers
    rw [Msg.firstQuestion_congr (prepare_signature d₀).2] at hanswers
    have hsome := (@handle_isSome_iff mw pf bodies d₀.req).mpr hanswers
    rw [hnone] at hsome
    cases hsome

theorem passed_step (h : step mw bodies pf p s a = some s') : Passed mw pf p s a s' := by
  cases a with
  | resolve c d => cases h
  | serve c d now =>
    unfold step at h
    dsimp only at h
    split at h
    · next d' _ hhandled =>
      split at h
      · obtain rfl := Option.some.inj h
        exact passed_answered c
      · next hnone => exact passed_start hhandled hnone h
    · obtain rfl := Option.some.inj h
      exact passed_answered c
    · cases h
  | _ => exact passed_proxy h rfl

/-! ## Runs -/

/-- A question that an upstream may be asked. -/
def MayBeAsked (mw : Default) (pf : Platform) (p : Proxy) (q : Question) : Prop :=
  ¬mw.Answers pf q ∨
    p.dns64Prefs ≠ [] ∧ q.qtype = typeA ∧ ¬mw.Answers pf { q with qtype := typeAAAA }

theorem mayBeAsked_of_asksFor {d : DNSContext} {m : Msg} (hd : Unanswered mw pf d)
    (h : p.AsksFor d.req m) : MayBeAsked mw pf p m.firstQuestion := by
  rcases h with hsame | ⟨⟨hprefs, htype, -⟩, hmodify⟩
  · rw [Msg.firstQuestion_congr hsame]
    exact .inl hd
  · have hfirst : m.firstQuestion = { d.req.firstQuestion with qtype := typeA } := by
      unfold Msg.firstQuestion at htype ⊢
      rw [hmodify]
      cases hq : d.req.question with
      | nil =>
        rw [hq] at htype
        cases htype
      | cons q qs => rfl
    rw [hfirst]
    refine .inr ⟨hprefs, rfl, ?_⟩
    rw [← htype]
    exact hd

structure Inv (mw : Default) (pf : Platform) (p : Proxy) (s : State) : Prop where
  asking : ∀ d, Asking s d → Unanswered mw pf d
  log : ∀ x ∈ s.log, MayBeAsked mw pf p x.req.firstQuestion

theorem inv_step (h : Inv mw pf p s) (hs : Passed mw pf p s a s') : Inv mw pf p s' where
  asking d hd := by
    rcases hd with ⟨c, hc⟩ | ⟨r, j, hr, rfl⟩
    · exact (hs.work c d hc).elim (fun hold => h.asking d (.inl ⟨c, hold⟩)) id
    · rcases hs.moved.refresh r j hr with hold | ⟨d, hd, hreq⟩
      · exact h.asking j.d (.inr ⟨r, j, hold, rfl⟩)
      · have hunanswered : Unanswered mw pf d := h.asking d (.inl ⟨_, hd⟩)
        unfold Unanswered at hunanswered ⊢
        rwa [hreq]
  log x hx := by
    rcases hs.moved.log with hsame | ⟨c, d, env, hd, hlog⟩
    · exact h.log x (hsame ▸ hx)
    · rw [hlog] at hx
      rcases List.mem_append.mp hx with hold | hnew
      · exact h.log x hold
      · obtain ⟨asked, hasked, rfl⟩ := List.mem_map.mp hnew
        exact mayBeAsked_of_asksFor (h.asking d hd) (replyFromUpstream_asked asked hasked)

section Runs

variable {conf : SharedConfig} {rd : RecursionDetector}

theorem inv_init : Inv mw pf p (init p conf rd) := by
  refine ⟨fun d hd => ?_, fun x hx => by cases hx⟩
  rcases hd with ⟨c, hc⟩ | ⟨r, j, hr, -⟩
  · cases hc
  · cases hr

theorem inv_reach (h : Reach mw bodies pf p (init p conf rd) s) : Inv mw pf p s :=
  h.invariant inv_init fun _ _ _ hinv _ hs => inv_step hinv (passed_step hs)

/-- In every run of the command, a question about the hosts files is answered from them, with a
response to the request that has the records of the type it asks for, and no upstream is asked
it: neither for the request nor to refresh the cache. With DNS64 an upstream is asked for the
IPv4 addresses of a name, even one in the hosts files, if those have no IPv6 address for it. -/
theorem hosts_answered (hvalid : mw.hosts.Valid)
    (h : Reach mw bodies pf p (init p conf rd) s) :
    (∀ x ∈ s.log, MayBeAsked mw pf p x.req.firstQuestion) ∧
      ∀ c d now d', s.work c = .idle → p.processDNSRequest pf s.recDetector d now = .handled d' →
        mw.Answers pf d.req.firstQuestion →
        step mw bodies pf p s (.serve c d now) = some (s.setWork c .answered) ∧
        ∃ res, mw.handle pf bodies d.req = some res ∧ IsReply d.req res ∧
          (mw.haltIPv6 = true ∧ d.req.firstQuestion.qtype = typeAAAA ∧ res.answer = [] ∨
            Proper d.req res) := by
  refine ⟨(inv_reach h).log, fun c d now d' hidle hhandled hanswers => ?_⟩
  obtain ⟨res, hres⟩ := Option.isSome_iff_exists.mp
    ((@handle_isSome_iff mw pf bodies d.req).mpr hanswers)
  obtain ⟨⟨r, rfl⟩, -, hone, -⟩ := processDNSRequest_handled hhandled
  refine ⟨?_, res, hres, handle_reply hvalid hone hres⟩
  unfold step
  dsimp only
  rw [hidle, hhandled]
  dsimp only
  rw [hres]

/-- Hosts files in which `example.org` has an IPv4 address only. -/
def exampleHosts : Default where
  hosts :=
    { byAddr := fun _ => []
      byName := fun name => if name = exampleOrg.dropLast then [[10, 0, 0, 1]] else [] }
  haltIPv6 := false

theorem valid_exampleHosts : exampleHosts.hosts.Valid := by
  intro name ip hip
  have hmem : ip ∈ if name = exampleOrg.dropLast then [[10, 0, 0, 1]] else [] := hip
  split at hmem
  · obtain rfl := List.mem_singleton.mp hmem
    exact .inl rfl
  · cases hmem

def emptyBodies : Bodies := ⟨fun _ => [], fun _ _ _ _ _ _ _ => []⟩

def typedQuery (qtype : UInt16) : Msg :=
  { exampleQuery with question := [⟨exampleOrg, qtype, classINET⟩] }

/-- A client asks for IPv6 addresses, which DNS64 makes of IPv4 ones, and then for the latter. -/
def hostsRun : List Action :=
  [.serve 0 (udpContext (typedQuery typeAAAA)) .epoch, .lookup 0 .epoch,
    .exchange 0 answeringEach .epoch, .serve 1 (udpContext (typedQuery typeA)) .epoch]

/-- The upstream is asked for the IPv4 addresses after all, by DNS64 and not for the second
request, which is answered from the hosts files. -/
theorem hosts_answered_dns64 : ∃ s,
    run exampleHosts emptyBodies dns64Platform dns64Proxy
      (init dns64Proxy exampleShared noRecursion) hostsRun = some s ∧
    s.log.map (fun x => x.req.firstQuestion.qtype) = [typeAAAA, typeA] ∧
    (s.work 1).asking? = none ∧
    ∀ x ∈ s.log, MayBeAsked exampleHosts dns64Platform dns64Proxy x.req.firstQuestion := by
  obtain ⟨s, hs, hlog⟩ := exists_of_any
    (run exampleHosts emptyBodies dns64Platform dns64Proxy
      (init dns64Proxy exampleShared noRecursion) hostsRun)
    (fun s => s.log.map (fun x => x.req.firstQuestion.qtype) = [typeAAAA, typeA] ∧
      (s.work 1).asking? = none) (by decide +kernel)
  have hreach := Runs.Run.of_replay .refl (fun _ _ _ _ => trivial) hs
  exact ⟨s, hs, hlog.1, hlog.2, (hosts_answered valid_exampleHosts hreach).1⟩

end Runs

end System.Command

end DnsProxy
