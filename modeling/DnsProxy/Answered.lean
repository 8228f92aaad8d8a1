import DnsProxy.Completion
import DnsProxy.ClientShape
import DnsProxy.Dns64Synthesis
import DnsProxy.Recursion

/-!
# Each call gets a response to its own request

A response comes from an upstream, from the cache, from another call that asked before, or from
the proxy itself. Whichever it is, it has the id and the question of the request of the call
that returns it, provided that upstreams answer what they are asked.

* `IsReply`: what a response has of its request.
* `isReply_replyFromUpstream`, `isReply_lookup`, `isReply_complete`: the functions of the proxy.
* `Replies`: the invariant of the calls, and `replies_step`.
* `response_answers`: every run.
-/

namespace DnsProxy

/-- `m` is a response to `req`: it has its id, and its question up to letter case. -/
structure IsReply (req m : Msg) : Prop where
  id : m.id = req.id
  response : m.response = true
  question : List.Forall₂ Pending.SameUpToCase m.question req.question

/-- What a function that changes records leaves alone. -/
structure SameEnvelope (m m' : Msg) : Prop where
  id : m'.id = m.id
  response : m'.response = m.response
  question : m'.question = m.question

variable {req : Msg} {pf : Platform} {ups : List Upstream} {d : DNSContext}

theorem IsReply.of_sameEnvelope {m m' : Msg} (h : IsReply req m) (hm : SameEnvelope m m') :
    IsReply req m' :=
  ⟨hm.id.trans h.id, hm.response.trans h.response, hm.question ▸ h.question⟩

theorem IsReply.of_request {req' m : Msg} (h : IsReply req m) (hid : req.id = req'.id)
    (hq : req.question = req'.question) : IsReply req' m :=
  ⟨h.id.trans hid, h.response, hq ▸ h.question⟩

theorem isReply_setReply (m : Msg) (h : req.question.length = 1) :
    IsReply req (m.setReply req) := by
  obtain ⟨q, hq⟩ := List.length_eq_one_iff.mp h
  refine ⟨rfl, rfl, ?_⟩
  unfold Msg.setReply
  rw [hq]
  exact .cons ⟨rfl, rfl, rfl⟩ .nil

theorem isReply_reply (h : req.question.length = 1) (code : Nat) : IsReply req (reply req code) :=
  (isReply_setReply {} h).of_sameEnvelope ⟨rfl, rfl, rfl⟩

/-! ## Upstreams -/

/-- The servers answer what they are asked. -/
def Exchanges.Answer (env : Exchanges) : Prop :=
  ∀ u req m, env.outcome u req = .ok (some m) → IsReply req m

/-- The responses that `replyFromUpstream` passes on, with other records perhaps, are those of
the first exchange and of the one with the fallbacks. -/
structure UpstreamEnv.Answer (env : UpstreamEnv) : Prop where
  main : env.main.Answer
  fallback : env.fallback.Answer

theorem isReply_exchanged {x : Exchanged} {env : Exchanges} {m : Msg} (h : x.Within env req ups)
    (henv : env.Answer) (hm : x.resp = some m) : IsReply req m := by
  obtain ⟨u, -, -, sent, hsent, rfl | ⟨ip, rfl⟩⟩ := h.answered m hm
  · exact henv u req m hsent
  · exact (henv u req sent hsent).of_sameEnvelope ⟨rfl, rfl, rfl⟩

theorem sameEnvelope_performDNS64 {mode : UpstreamMode} {prefs : List Prefix} {env : Exchanges}
    {newID : UInt16} {resp m : Msg}
    (h : (performDNS64 pf mode prefs env newID req (some resp) ups).resp = some m) :
    SameEnvelope resp m := by
  rcases @performDNS64_synthesis pf mode prefs env newID req resp ups with
    ⟨a, newAns, -, -, -, hresp⟩ | ⟨-, -, hresp⟩
  · obtain rfl := Option.some.inj (hresp.symm.trans h)
    exact ⟨rfl, rfl, rfl⟩
  · obtain rfl := Option.some.inj (hresp.symm.trans h)
    exact ⟨rfl, rfl, rfl⟩

theorem isReply_exchangeSelected {p : Proxy} {env : UpstreamEnv} {m : Msg} (henv : env.Answer)
    (hone : req.question.length = 1) (h : (p.exchangeSelected pf env req ups).resp = some m) :
    IsReply req m := by
  have hx := exchangeUpstreams_spec pf p.upstreamMode env.main req ups
  unfold Proxy.exchangeSelected at h
  generalize exchangeUpstreams pf p.upstreamMode env.main req ups = x at hx h
  dsimp only at h
  have hs : ∀ m, (performDNS64 pf p.upstreamMode p.dns64Prefs env.dns64 env.newID req x.resp
      ups).resp = some m → IsReply req m := by
    intro m hm
    cases hresp : x.resp with
    | none =>
      rw [hresp] at hm
      cases hm
    | some resp =>
      rw [hresp] at hm
      exact (isReply_exchanged hx henv.main hresp).of_sameEnvelope (sameEnvelope_performDNS64 hm)
  split at h
  · exact hs m h
  · split at h
    · obtain rfl := Option.some.inj h
      exact isReply_reply hone _
    · exact hs m h

/-- The context holds a response to the request. -/
def Answered (req : Msg) (d : DNSContext) : Prop := ∃ m, d.res = some m ∧ IsReply req m

theorem answered_conclude {p : Proxy} {env : UpstreamEnv} {fallbacks : List Upstream}
    {x : Exchanged} (hone : d.req.question.length = 1)
    (hx : ∀ m, x.resp = some m → IsReply d.req m) :
    Answered d.req (p.conclude env d ups fallbacks x).ctx := by
  unfold Proxy.conclude Proxy.handleExchangeResult
  dsimp only
  split
  · exact ⟨_, rfl, isReply_reply hone _⟩
  · next m hm =>
    split
    · exact ⟨_, rfl, isReply_reply hone _⟩
    · exact ⟨_, rfl, (hx m hm).of_sameEnvelope ⟨rfl, rfl, rfl⟩⟩

theorem answered_replyFromUpstream (pf : Platform) (p : Proxy) {env : UpstreamEnv}
    (henv : env.Answer) (hone : d.req.question.length = 1) :
    Answered d.req (p.replyFromUpstream pf env d).ctx := by
  unfold Proxy.replyFromUpstream
  dsimp only
  split
  · exact ⟨_, rfl, isReply_reply hone _⟩
  · split
    · refine answered_conclude hone fun m hm => ?_
      exact isReply_exchanged (exchangeParallel_within env.fallback _ d.req) henv.fallback hm
    · exact answered_conclude hone fun m hm => isReply_exchangeSelected henv hone hm

/-! ## The cache and the end of a call -/

theorem isReply_unpackItem {t : Cache} {data : Bytes} {now : Instant} {ci : CacheItem}
    (hone : req.question.length = 1) (h : (t.unpackItem pf data req now).1 = some ci) :
    IsReply req ci.m := by
  unfold Cache.unpackItem at h
  dsimp only at h
  split at h
  · cases h
  · split at h
    · cases h
    · split at h
      · cases h
      · split at h
        · cases h
        · obtain rfl := Option.some.inj h
          exact (isReply_setReply {} hone).of_sameEnvelope ⟨rfl, rfl, rfl⟩

theorem isReply_lookup {p : Proxy} {t : Cache} {now : Instant} {ci : CacheItem}
    (hone : d.req.question.length = 1) (h : (p.lookup pf t d now).ci = some ci) :
    IsReply d.req ci.m := by
  unfold Proxy.lookup at h
  split at h
  · unfold Cache.getWithSubnet at h
    split at h
    · cases h
    · cases h
    · dsimp only at h
      split at h
      · cases h
      · exact isReply_unpackItem hone h
  · unfold Cache.get at h
    dsimp only at h
    split at h
    · cases h
    · split at h
      · cases h
      · split at h
        · cases h
        · exact isReply_unpackItem hone h

/-- `Truncate` removes records and sets the TC bit. -/
def Platform.KeepsEnvelope (pf : Platform) : Prop := ∀ m n, SameEnvelope m (pf.truncate m n)

theorem answered_complete (hpf : pf.KeepsEnvelope) (h : Answered req d) :
    Answered req (complete pf d) := by
  obtain ⟨m, hm, hreply⟩ := h
  have hbefore : SameEnvelope m (beforeTruncate d m) := by
    unfold beforeTruncate withEdns0
    split <;> exact ⟨rfl, rfl, rfl⟩
  have hcut := hpf (beforeTruncate d m) (truncateSize d).toNat
  have hscrubbed := (hreply.of_sameEnvelope hbefore).of_sameEnvelope hcut
  exact ⟨_, complete_res pf hm, hscrubbed.of_sameEnvelope ⟨rfl, rfl, rfl⟩⟩

/-! ## Calls -/

namespace System

variable {pf : Platform} {p : Proxy}

/-- The context of a call is about a request that a client sent for it. -/
structure Asks (sent : Nat → Msg → Prop) (c : Nat) (d : DNSContext) : Prop where
  one : d.req.question.length = 1
  own : ∃ m, sent c m ∧ d.req.id = m.id ∧ d.req.question = m.question

/-- What a call has got so far is about its own request. -/
def Work.Replies (sent : Nat → Msg → Prop) (c : Nat) : Work → Prop
  | .looking d | .exchanging d _ => Asks sent c d
  | .replied d _ r => Asks sent c d ∧ Answered d.req r.ctx
  | .finished d ctx _ _ _ => Asks sent c d ∧ Answered d.req ctx
  | _ => True

def callReplies (sent : Nat → Msg → Prop) (c : Nat) : Pending.Call Tag → Prop
  | .resolving d _ | .waiting d _ _ | .returned d _ _ _ _ => Asks sent c d
  | .loaded f | .filled f | .deleted f | .done f =>
    Asks sent c f.queued ∧ Answered f.queued.req f.ctx
  | .skipped d ctx _ _ => Asks sent c d ∧ Answered d.req ctx
  | _ => True

structure Control.Replies (sent : Nat → Msg → Prop) (k : Control) : Prop where
  work : ∀ c, (k.work c).Replies sent c
  call : ∀ c, callReplies sent c (k.pending.call c)

section Step

variable {sent : Nat → Msg → Prop} {k k' : Control} {a : Action}

theorem Control.Replies.setWork (h : k.Replies sent) {c : Nat} {w : Work}
    (hw : w.Replies sent c) : (k.setWork c w).Replies sent :=
  ⟨(Function.forall_update_iff k.work fun c w => w.Replies sent c).mpr
    ⟨hw, fun c' _ => h.work c'⟩, h.call⟩

theorem asks_begins {c : Nat} {d : DNSContext} {works : Bool} (ha : a.Begins pf p c d works)
    (hsent : ∀ c d, a.starts? = some (c, d) → sent c d.req)
    (hone : ∀ c d, a = .resolve c d → d.req.question.length = 1) : Asks sent c d := by
  obtain ⟨⟨d₀, d', hstarts, hreq, hprep⟩, hchecked⟩ := ha
  obtain ⟨hid, hquestion⟩ := @prepare_signature pf p d'
  rw [hprep, hreq] at hid hquestion
  refine ⟨?_, d₀.req, hsent c d₀ hstarts, hid, hquestion⟩
  rw [hquestion]
  cases a with
  | resolve c' d'' =>
    cases hstarts
    exact hone _ _ rfl
  | serve c' d'' now =>
    cases hstarts
    exact hchecked _ _ rfl
  | _ => cases hstarts

theorem callReplies_next {c : Nat} {st : Pending.State Tag} {b : Pending.Action Tag}
    {q q' : Pending.Call Tag} (h : callReplies sent c q) (hn : Pending.Next st b q q')
    (hqueue : ∀ c' d, b = .queue c' d → Asks sent c d)
    (hload : ∀ c' ctx err tag queued stored, b = .load c' ctx err tag →
      q = .resolving queued stored → Answered queued.req ctx) : callReplies sent c q' := by
  cases hn with
  | bypass _ => exact hqueue _ _ rfl
  | join _ _ => exact hqueue _ _ rfl
  | lead _ _ => exact hqueue _ _ rfl
  | skip => exact ⟨h, hload _ _ _ _ _ _ rfl rfl⟩
  | load => exact ⟨h, hload _ _ _ _ _ _ rfl rfl⟩
  | fill | delete | close | wake => exact h
  | panic => trivial

theorem Control.Replies.pending (h : k.Replies sent) {b : Pending.Action Tag}
    {q : Pending.State Tag} (hq : Pending.step k.pending b = some q)
    (hqueue : ∀ c d, b = .queue c d → Asks sent c d)
    (hload : ∀ c ctx err tag queued stored, b = .load c ctx err tag →
      k.pending.call c = .resolving queued stored → Answered queued.req ctx) :
    { k with pending := q }.Replies sent := by
  refine ⟨h.work, fun c => ?_⟩
  rcases Pending.call_cases hq c with hsame | ⟨hcaller, hn⟩
  · exact hsame ▸ h.call c
  · refine callReplies_next (h.call c) hn ?_ ?_
    · rintro c' d rfl
      obtain rfl := hcaller
      exact hqueue _ _ rfl
    · rintro c' ctx err tag queued stored rfl hc
      obtain rfl := hcaller
      exact hload _ _ _ _ _ _ rfl hc

theorem replies_step (hpf : pf.KeepsEnvelope) (hs : Control.Step pf p k a k') (hfits : k.Fits)
    (hsent : ∀ c d, a.starts? = some (c, d) → sent c d.req)
    (hone : ∀ c d, a = .resolve c d → d.req.question.length = 1)
    (henv : ∀ c env now, a = .exchange c env now → env.Answer) (h : k.Replies sent) :
    k'.Replies sent := by
  have hwork : ∀ {c w}, k.work c = w → w.Replies sent c := fun hc => hc ▸ h.work _
  cases hs with
  | refuse _ _ => exact h.setWork trivial
  | bypass ha _ => exact h.setWork (asks_begins ha hsent hone)
  | alone ha _ _ => exact h.setWork (asks_begins ha hsent hone)
  | @queue _ _ _ q _ ha _ _ hq hw =>
    have hasks := asks_begins ha hsent hone
    have hpending : { k with pending := q }.Replies sent := by
      refine h.pending hq ?_ (fun _ _ _ _ _ _ hb => by cases hb)
      rintro c d ⟨⟩
      exact hasks
    refine hpending.setWork ?_
    rcases hw with ⟨-, rfl⟩ | ⟨-, rfl⟩
    · trivial
    · exact hasks
  | miss hc =>
    have hasks : Asks sent _ _ := hwork hc
    exact h.setWork hasks
  | @hit _ _ d _ ci _ hc hci =>
    have hasks : Asks sent _ d := hwork hc
    have hreply : Answered d.req (fromCache d ci) := ⟨ci.m, rfl, isReply_lookup hasks.one hci⟩
    exact h.setWork ⟨hasks, answered_complete hpf hreply⟩
  | @expired c _ d _ ci tag _ hc hci =>
    have hasks : Asks sent c d := hwork hc
    have hreply : Answered d.req (fromCache d ci) := ⟨ci.m, rfl, isReply_lookup hasks.one hci⟩
    have hset : (k.setWork c (.finished d (complete pf (fromCache d ci)) none tag true)).Replies
        sent := h.setWork ⟨hasks, answered_complete hpf hreply⟩
    exact { hset with }
  | exchange hc =>
    have hasks : Asks sent _ _ := hwork hc
    exact h.setWork ⟨hasks, answered_replyFromUpstream pf p (henv _ _ _ rfl) hasks.one⟩
  | store hc hctx =>
    obtain ⟨hasks, hreply⟩ : Asks sent _ _ ∧ Answered _ _ := hwork hc
    refine h.setWork ⟨hasks, ?_⟩
    rcases hctx with rfl | rfl
    · exact answered_complete hpf hreply
    · exact hreply
  | @load c _ _ _ _ _ hc hq =>
    obtain ⟨-, hreply⟩ : Asks sent _ _ ∧ Answered _ _ := hwork hc
    refine h.pending hq (fun _ _ hb => by cases hb) ?_
    rintro _ _ _ _ queued stored ⟨⟩ hcall
    have hf := hfits c
    rw [hc, hcall] at hf
    cases hf with
    | resolving _ hw =>
      obtain rfl := Option.some.inj hw
      exact hreply
    | finishing hq => exact absurd rfl hq
  | finish ha hq =>
    refine h.pending hq ?_ ?_
    · rintro c d rfl
      cases a <;> cases ha
    · rintro c ctx err tag queued stored rfl
      cases a <;> cases ha
  | busy _ _ | begin _ _ | exchangeRefresh _ | storeRefresh _ | endRefresh _ | evict _ _ =>
    exact { h with }

end Step

/-! ## Runs -/

section Runs

variable {conf : SharedConfig} {rd : RecursionDetector} {s : State}

theorem replies_reach (hpf : pf.KeepsEnvelope) {sent : Nat → Msg → Prop}
    {allowed : State → Action → Prop}
    (hsent : ∀ s a, allowed s a → ∀ c d, a.starts? = some (c, d) → sent c d.req)
    (hone : ∀ s a, allowed s a → ∀ c d, a = .resolve c d → d.req.question.length = 1)
    (henv : ∀ s a, allowed s a → ∀ c env now, a = .exchange c env now → env.Answer)
    (h : Reach pf p (init p conf rd) allowed s) : s.control.Replies sent := by
  induction h with
  | refl => exact ⟨fun _ => trivial, fun _ => trivial⟩
  | step hreach ha hs ih =>
    exact replies_step hpf (control_step hs) (control_reach hreach).1 (hsent _ _ ha)
      (hone _ _ ha) (henv _ _ ha) ih

theorem replies_result {sent : Nat → Msg → Prop} (h : s.control.Replies sent)
    (hreach : Pending.Reach s.pending) {c : Nat} {r : Result} (hr : s.result? c = some r) :
    Asks sent c r.d ∧ Answered r.d.req r.ctx := by
  have hcall : callReplies sent c (s.pending.call c) := h.call c
  unfold State.result? at hr
  split at hr
  · split at hr
    · next hw =>
      obtain rfl := Option.some.inj hr
      have hwork : (s.work c).Replies sent c := h.work c
      rw [hw] at hwork
      exact hwork
    · cases hr
  · next hc =>
    obtain rfl := Option.some.inj hr
    rw [hc] at hcall
    exact hcall
  · next hc =>
    obtain rfl := Option.some.inj hr
    rw [hc] at hcall
    exact hcall
  · next d k e clone err hc =>
    obtain rfl := Option.some.inj hr
    rw [hc] at hcall
    have hasks : Asks sent c d := hcall
    obtain ⟨c', f, hdone, -, -, -, rfl, -⟩ := Pending.returned_of_leader hreach hc
    have hleader : callReplies sent c' (s.pending.call c') := h.call c'
    rw [hdone] at hleader
    obtain ⟨-, m, hm, -⟩ : Asks sent c' f.queued ∧ Answered f.queued.req f.ctx := hleader
    refine ⟨hasks, m.setReply d.req, ?_, isReply_setReply m hasks.one⟩
    unfold Pending.follow Pending.Finish.clone
    rw [hm]
  · cases hr

/-- In every run in which upstreams answer what they are asked, a call that returns has a
response, and it is one to the request with which this call was started: it has its id and its
question, whether it comes from an upstream, a cache or another call. -/
theorem response_answers (hpf : pf.KeepsEnvelope) {as : List Action}
    (hrun : run pf p (init p conf rd) as = some s)
    (hone : ∀ c d, .resolve c d ∈ as → d.req.question.length = 1)
    (henv : ∀ c env now, .exchange c env now ∈ as → env.Answer) {c : Nat} {r : Result}
    (hr : s.result? c = some r) :
    ∃ a ∈ as, ∃ d m, a.starts? = some (c, d) ∧ r.ctx.res = some m ∧ IsReply d.req m := by
  let sent : Nat → Msg → Prop := fun c m => ∃ a ∈ as, ∃ d, a.starts? = some (c, d) ∧ d.req = m
  have hreach : Reach pf p (init p conf rd) (fun _ a => a ∈ as) s :=
    .of_replay .refl (fun _ ha _ _ => ha) hrun
  have hreplies : s.control.Replies sent := by
    refine replies_reach hpf ?_ ?_ ?_ hreach
    · exact fun _ a ha c d hstarts => ⟨a, ha, d, hstarts, rfl⟩
    · rintro _ _ ha c d rfl
      exact hone c d ha
    · rintro _ _ ha c env now rfl
      exact henv c env now ha
  obtain ⟨⟨-, -, ⟨a, ha, d, hstarts, rfl⟩, hid, hquestion⟩, m, hm, hreply⟩ :=
    replies_result hreplies (pending_reach hreach) hr
  exact ⟨a, ha, d, m, hstarts, hm, hreply.of_request hid hquestion⟩

/-- Servers that answer every question with the address of the examples. -/
def answeringEach : UpstreamEnv :=
  answeringEnv fun _ req =>
    if req.question.length = 1 then some (exampleAnswer.setReply req) else none

theorem answer_answeringEach : answeringEach.Answer := by
  have hanswer : answeringEach.main.Answer := by
    intro u req m hm
    have hm : (if req.question.length = 1 then some (exampleAnswer.setReply req) else none) =
      some m := Except.ok.inj hm
    split at hm
    · next hone =>
      obtain rfl := Option.some.inj hm
      exact isReply_setReply exampleAnswer hone
    · cases hm
  exact ⟨hanswer, hanswer⟩

/-- Two clients ask the same question, with different ids. -/
def sharedRun : List Action :=
  [.resolve 0 (udpContext exampleQuery), .resolve 1 (udpContext { exampleQuery with id := 7 })] ++
    soloSteps 0 answeringEach .epoch ++ [.wake 1]

theorem keepsEnvelope_ofTable (table : List (Msg × Bytes)) :
    (Platform.ofTable table).KeepsEnvelope :=
  fun _ _ => ⟨rfl, rfl, rfl⟩

/-- The second one gets the response of the first one, with its own id. -/
theorem response_answers_shared : ∃ s r,
    run examplePlatform exampleProxy (init exampleProxy exampleShared noRecursion) sharedRun =
      some s ∧ s.result? 1 = some r ∧ r.ctx.res.map Msg.id = some 7 ∧
    ∃ a ∈ sharedRun, ∃ d m, a.starts? = some (1, d) ∧ r.ctx.res = some m ∧ IsReply d.req m := by
  obtain ⟨s, hs, hid⟩ := exists_of_any
    (run examplePlatform exampleProxy (init exampleProxy exampleShared noRecursion) sharedRun)
    (fun s => ((s.result? 1).bind fun r => r.ctx.res.map Msg.id) = some 7) (by decide +kernel)
  obtain ⟨r, hr, hid⟩ := Option.bind_eq_some_iff.mp hid
  refine ⟨s, r, hs, hr, hid, response_answers (keepsEnvelope_ofTable _) hs ?_ ?_ hr⟩
  · intro c d hmem
    simp only [sharedRun, soloSteps, List.mem_append, List.mem_cons, List.not_mem_nil, or_false,
      reduceCtorEq, Action.resolve.injEq] at hmem
    rcases hmem with ⟨-, rfl⟩ | ⟨-, rfl⟩ <;> rfl
  · intro c env now hmem
    simp only [sharedRun, soloSteps, List.mem_append, List.mem_cons, List.not_mem_nil, or_false,
      false_or, reduceCtorEq, Action.exchange.injEq] at hmem
    rw [hmem.2.1]
    exact answer_answeringEach

end Runs

end System

end DnsProxy
