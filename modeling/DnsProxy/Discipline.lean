import DnsProxy.System

/-!
# Disciplines

Where a response can come from. A `Discipline` says which contexts calls may start
with, which tags they may hold, which tags a cache may keep, and which call may join
which; its laws are about the functions of the proxy only. `inv_step` and `inv_reach`
carry it along a run, and `result_hold` reads it off what a call returned.
-/

namespace DnsProxy

namespace System

variable {pf : Platform} {p : Proxy}

/-- The tags that the contexts and the caches of a run may hold. -/
structure Discipline (pf : Platform) (p : Proxy) where
  /-- A call starts with a context, as `prepare` left it. -/
  Start : Nat → Bool → DNSContext → Prop
  /-- A call with this context holds a response with this tag. -/
  Hold : Bool → DNSContext → Tag → Prop
  /-- A cache keeps a response with this tag. -/
  Keep : Option CustomUpstreamConfig → Tag → Prop
  /-- A call causes a refresh with this context. -/
  Renew : Nat → DNSContext → Prop
  /-- The second context may wait for the first. -/
  Join : DNSContext → DNSContext → Prop
  /-- A server is asked for a call. -/
  Ask : Nat → Upstream → Prop
  keep_none : ∀ i, Keep i none
  hit : ∀ c d tag, Start c true d → Keep (cacheForContext d) tag → Hold true d tag
  exchange : ∀ c works d env, Start c works d →
    Hold works d (tagOf pf p d (p.replyFromUpstream pf env d))
  keep : ∀ c d tag, Start c true d → Hold true d tag → Keep (cacheForContext d) tag
  renew : ∀ c d, Start c true d → Renew c (refreshContext d)
  renew_keep : ∀ c d env, Renew c d →
    Keep (cacheForContext d) (tagOf pf p d (p.replyFromUpstream pf env d))
  follow : ∀ d' d tag, Join d' d → Hold true d' tag → Hold true d tag
  ask : ∀ c works d u, Start c works d → p.MayAsk pf d u → Ask c u
  renew_ask : ∀ c d u, Renew c d → p.MayAsk pf d u → Ask c u

/-! ## Frames -/

/-- The fields that a resolution leaves alone. -/
structure Frame (d ctx : DNSContext) : Prop where
  req : ctx.req = d.req
  reqECS : ctx.reqECS = d.reqECS
  customUpstreamConfig : ctx.customUpstreamConfig = d.customUpstreamConfig

theorem Frame.refl (d : DNSContext) : Frame d d := ⟨rfl, rfl, rfl⟩

variable {s s' : State} {d : DNSContext} {c : Nat} {now : Instant} {i : Option CustomUpstreamConfig}
  {t : TaggedCache} {q : Pending.State Tag}

theorem Frame.trans {d' d'' : DNSContext} (h : Frame d d') (h' : Frame d' d'') : Frame d d'' :=
  ⟨h'.req.trans h.req, h'.reqECS.trans h.reqECS,
    h'.customUpstreamConfig.trans h.customUpstreamConfig⟩

theorem Frame.keeps {ctx : DNSContext} (h : Frame d ctx) : Pending.Keeps d ctx := by
  obtain ⟨hreq, hecs, _⟩ := h
  exact ⟨by rw [hreq], by rw [hreq], hecs⟩

theorem Frame.cacheForContext_eq {ctx : DNSContext} (h : Frame d ctx) :
    cacheForContext ctx = cacheForContext d := by
  unfold cacheForContext
  rw [h.customUpstreamConfig]

theorem frame_fromCache (d : DNSContext) (ci : CacheItem) : Frame d (fromCache d ci) :=
  ⟨rfl, rfl, rfl⟩

theorem frame_calcFlagsAndSize (d : DNSContext) : Frame d (calcFlagsAndSize d) := by
  unfold calcFlagsAndSize
  split
  · exact .refl d
  · split <;> exact ⟨rfl, rfl, rfl⟩

theorem frame_complete (pf : Platform) (d : DNSContext) : Frame d (complete pf d) := by
  unfold complete scrub
  split
  · exact ⟨rfl, rfl, rfl⟩
  · have h := frame_calcFlagsAndSize
      { d with res := d.res.map fun res => filterMsg res res d.adBit d.doBit 0 }
    exact ⟨h.req, h.reqECS, h.customUpstreamConfig⟩

theorem frame_replyFromUpstream (pf : Platform) (p : Proxy) (env : UpstreamEnv) (d : DNSContext) :
    Frame d (p.replyFromUpstream pf env d).ctx := by
  obtain ⟨res, u, s, h, hctx⟩ := (replyFromUpstream_spec pf p env d).frame
  rw [hctx]
  exact ⟨rfl, rfl, rfl⟩

/-! ## The invariant -/

/-- The context of a call for which the cache works. -/
def Work.working? : Work → Option DNSContext
  | .looking d | .exchanging d true | .replied d true _ | .finished d _ _ _ true => some d
  | _ => none

variable (D : Discipline pf p)

def Discipline.WorkOk (c : Nat) : Work → Prop
  | .idle | .answered | .joined => True
  | .looking d => D.Start c true d
  | .exchanging d works => D.Start c works d
  | .replied d works r =>
    D.Start c works d ∧ D.Hold works d (tagOf pf p d r) ∧ Frame d r.ctx
  | .finished d ctx _ tag works => D.Hold works d tag ∧ Frame d ctx

def Discipline.RefreshOk : Refresh → Prop
  | .idle | .stored _ | .finished => True
  | .spawned j | .running j => D.Renew j.cause j.d
  | .replied j r => D.Keep (cacheForContext j.d) (tagOf pf p j.d r) ∧ Frame j.d r.ctx

def Discipline.CacheOk (i : Option CustomUpstreamConfig) (t : TaggedCache) : Prop :=
  ∀ k, D.Keep i (t.tags k) ∧ D.Keep i (t.subnetTags k)

/-- The invariant of the pending requests. -/
structure Discipline.PendingInv (q : Pending.State Tag) : Prop where
  reach : Pending.Reach q
  finish : ∀ c f, (q.call c).finish? = some f → D.Hold true f.queued f.tag
  skipped : ∀ c d ctx err tag, q.call c = .skipped d ctx err tag → D.Hold true d tag
  joins : ∀ c c' d d' k e, (q.call c).joined? = some (d, k, e) →
    (q.call c').stored? = some (d', k, e) → D.Join d' d

structure Discipline.Inv (s : State) : Prop where
  pending : D.PendingInv s.pending
  linked : ∀ c d stored, s.pending.call c = .resolving d stored → (s.work c).working? = some d
  work : ∀ c, D.WorkOk c (s.work c)
  cached : ∀ i, D.CacheOk i (s.cache i)
  refresh : ∀ r, D.RefreshOk (s.refresh r)
  log : ∀ x ∈ s.log, D.Ask x.cause x.u

/-- A call may start with `d`: its context is a starting one, and the call whose
request it would join, if any, is one that it may join. -/
def Discipline.Admits (s : State) (c : Nat) (d : DNSContext) : Prop :=
  ∀ d₁ works, p.prepare pf d = (d₁, works) → D.Start c works d₁ ∧
    (works = true → ∀ c' d' k e, pendingKey d₁ = some k → s.pending.storage k = some e →
      (s.pending.call c').stored? = some (d', k, e) → D.Join d' d₁)

def Discipline.Allows (s : State) (a : Action) : Prop :=
  ∀ c d, Starts pf p s a c d → D.Admits s c d

/-- An action is allowed if it starts no call, or one with a starting context that
joins only where it may. -/
theorem Discipline.allows_of {a : Action}
    (hstart : ∀ c d d₁ works, Starts pf p s a c d → p.prepare pf d = (d₁, works) →
      D.Start c works d₁) (hjoin : ∀ d' d₁, Joins pf p s a d' d₁ → D.Join d' d₁) :
    D.Allows s a := by
  intro c d hs d₁ works hprep
  refine ⟨hstart c d d₁ works hs hprep, fun hw c' d' k e hk he hst => ?_⟩
  subst hw
  exact hjoin d' d₁ ⟨c, d, c', k, e, hs, hprep, hk, he, hst⟩

variable {D}

theorem inv_init (conf : SharedConfig) (rd : RecursionDetector) : D.Inv (init p conf rd) where
  pending :=
    { reach := .refl
      finish := fun _ _ h => nomatch h
      skipped := fun _ _ _ _ _ h => nomatch h
      joins := fun _ _ _ _ _ _ h => nomatch h }
  linked _ _ _ h := nomatch h
  work _ := trivial
  cached i _ := ⟨D.keep_none i, D.keep_none i⟩
  refresh _ := trivial
  log _ h := nomatch h

/-! ## Parts of a step -/

theorem Discipline.Inv.setWork (h : D.Inv s) {w : Work} (hw : D.WorkOk c w)
    (hl : ∀ d stored, s.pending.call c = .resolving d stored → w.working? = some d) :
    D.Inv (s.setWork c w) :=
  { h with
    linked := fun c' d stored hc => by
      show (Function.update s.work c w c').working? = some d
      by_cases hcc : c' = c
      · subst hcc
        rw [Function.update_self]
        exact hl d stored hc
      · rw [Function.update_of_ne hcc]
        exact h.linked c' d stored hc
    work := (Function.forall_update_iff _ D.WorkOk).mpr ⟨hw, fun c' _ => h.work c'⟩ }

theorem Discipline.Inv.setCache (h : D.Inv s) (ht : D.CacheOk i t) : D.Inv (s.setCache i t) :=
  { h with
    cached := (Function.forall_update_iff _ D.CacheOk).mpr ⟨ht, fun i' _ => h.cached i'⟩ }

theorem Discipline.Inv.setRefresh (h : D.Inv s) {r : Nat} {f : Refresh} (hf : D.RefreshOk f) :
    D.Inv (s.setRefresh r f) :=
  { h with
    refresh := (Function.forall_update_iff _ fun _ => D.RefreshOk).mpr
      ⟨hf, fun r' _ => h.refresh r'⟩ }

theorem Discipline.Inv.not_resolving (h : D.Inv s) (hw : s.work c = .idle) (d : DNSContext)
    (stored : Option (Bytes × Nat)) : s.pending.call c ≠ .resolving d stored := by
  intro hc
  have := h.linked c d stored hc
  rw [hw] at this
  cases this

theorem Discipline.Inv.bookkeeping (h : D.Inv s) (n : Nat) (f : Bytes → Bool) :
    D.Inv { s with nextRefresh := n, inFlight := f } :=
  { h with }

theorem Discipline.Inv.asked (h : D.Inv s) {env : UpstreamEnv}
    (hask : ∀ u, p.MayAsk pf d u → D.Ask c u) :
    D.Inv (s.asked pf p c d (p.replyFromUpstream pf env d) now) :=
  { h with
    log := fun x hx => by
      rcases List.mem_append.mp hx with hx | hx
      · exact h.log x hx
      · obtain ⟨a, ha, rfl⟩ := List.mem_map.mp hx
        exact hask a.1 ((replyFromUpstream_spec pf p env d).asked a ha) }

theorem Discipline.CacheOk.write (h : D.CacheOk i t) {tag : Tag} (htag : D.Keep i tag)
    (subnets : Bool) (k : Bytes) : D.CacheOk i (t.write subnets k tag) := by
  have hupdate : ∀ f : Bytes → Tag, (∀ k', D.Keep i (f k')) →
      ∀ k', D.Keep i (Function.update f k tag k') := fun f hf =>
    (Function.forall_update_iff f fun _ => D.Keep i).mpr ⟨htag, fun k' _ => hf k'⟩
  intro k'
  unfold TaggedCache.write
  split
  · exact ⟨(h k').1, hupdate _ (fun k => (h k).2) k'⟩
  · exact ⟨hupdate _ (fun k => (h k).1) k', (h k').2⟩

theorem Discipline.CacheOk.storeTagged {t' : TaggedCache} (h : D.CacheOk i t) {tag : Tag}
    (htag : D.Keep i tag) {res : Msg} (hs : p.storeTagged pf t d res tag now = some t') :
    D.CacheOk i t' := by
  obtain ⟨c, _, rfl⟩ := Option.map_eq_some_iff.mp hs
  split
  · exact h
  · exact h.write htag _ _

theorem Discipline.CacheOk.read (h : D.CacheOk i t) (subnets : Bool) (k : Bytes) :
    D.Keep i (t.read subnets k) := by
  unfold TaggedCache.read
  split
  · exact (h k).2
  · exact (h k).1

/-! ## Steps -/

theorem inv_lookup (h : D.Inv s) (hc : s.work c = .looking d) (now : Instant) :
    D.Inv (lookup pf p s c d now) := by
  have hstart : D.Start c true d := by
    have := h.work c
    rwa [hc] at this
  have hlink : ∀ d' stored, s.pending.call c = .resolving d' stored → some d = some d' := by
    intro d' stored hd'
    have := h.linked c d' stored hd'
    rwa [hc] at this
  have hcache := h.cached (cacheForContext d)
  unfold lookup
  simp only
  have hs := h.setCache (i := cacheForContext d) (t := { s.cache (cacheForContext d) with
    cache := (p.lookup pf (s.cache (cacheForContext d)).cache d now).cache }) hcache
  split
  · exact hs.setWork hstart hlink
  · next ci _ =>
    have hfin := hs.setWork (c := c) (w := .finished d (complete pf (fromCache d ci)) none
      ((s.cache (cacheForContext d)).read (p.usesSubnets d)
        ((p.lookup pf (s.cache (cacheForContext d)).cache d now).key.getD [])) true)
      ⟨D.hit c d _ hstart (hcache.read _ _),
        (frame_fromCache d ci).trans (frame_complete pf _)⟩ hlink
    split
    · refine Discipline.Inv.bookkeeping ?_ _ _
      exact hfin.setRefresh (f := .spawned ⟨c, refreshContext d, _⟩) (D.renew c d hstart)
    · exact hfin

theorem inv_store (h : D.Inv s) {works : Bool} {r : Replied} (hc : s.work c = .replied d works r)
    (now : Instant) : D.Inv (store pf p s c d works r now) := by
  obtain ⟨hstart, hhold, hframe⟩ :
      D.Start c works d ∧ D.Hold works d (tagOf pf p d r) ∧ Frame d r.ctx := by
    have := h.work c
    rwa [hc] at this
  have hlink : ∀ d' stored ctx err, s.pending.call c = .resolving d' stored →
      (Work.finished d ctx err (tagOf pf p d r) works).working? = some d' := by
    intro d' stored ctx err hd'
    have := h.linked c d' stored hd'
    rw [hc] at this
    cases works with
    | true => exact this
    | false => exact this
  have hdone : D.WorkOk c (.finished d (complete pf r.ctx) r.err (tagOf pf p d r) works) :=
    ⟨hhold, hframe.trans (frame_complete pf _)⟩
  unfold store
  simp only
  split
  · exact h.setWork hdone fun d' stored => hlink d' stored _ _
  · split
    · next hcond =>
      simp only [Bool.and_eq_true] at hcond
      obtain ⟨⟨rfl, _⟩, _⟩ := hcond
      split
      · exact h.setWork ⟨hhold, hframe⟩ fun d' stored => hlink d' stored _ _
      · next t ht =>
        have hkeep : D.Keep (cacheForContext r.ctx) (tagOf pf p d r) := by
          rw [hframe.cacheForContext_eq]
          exact D.keep c d _ hstart hhold
        exact (h.setCache ((h.cached _).storeTagged hkeep ht)).setWork hdone
          fun d' stored => hlink d' stored _ _
    · exact h.setWork hdone fun d' stored => hlink d' stored _ _

theorem inv_storeRefresh (h : D.Inv s) {j : Job} {r : Replied}
    (hkeep : D.Keep (cacheForContext j.d) (tagOf pf p j.d r)) (hframe : Frame j.d r.ctx)
    (now : Instant) : D.Inv (storeRefresh pf p s j r now) := by
  unfold storeRefresh
  simp only
  split
  · exact h
  · split
    · split
      · exact h
      · next t ht =>
        rw [← hframe.cacheForContext_eq] at hkeep
        exact h.setCache ((h.cached _).storeTagged hkeep ht)
    · exact h

theorem pendingInv_step {q' : Pending.State Tag} {a : Pending.Action Tag} (h : D.PendingInv q)
    (ha : a.Honest q) (hq : Pending.step q a = some q')
    (hload : ∀ c d err tag queued stored, a = .load c d err tag →
      q.call c = .resolving queued stored → D.Hold true queued tag)
    (hjoin : ∀ c d, a = .queue c d → ∀ c' d' k e, pendingKey d = some k → q.storage k = some e →
      (q.call c').stored? = some (d', k, e) → D.Join d' d) : D.PendingInv q' where
  reach := h.reach.step ha hq
  finish c f hf := by
    rcases Pending.call_cases hq c with hc | ⟨hcaller, hn⟩
    · rw [hc] at hf
      exact h.finish c f hf
    · generalize hp : q.call c = x at hn
      generalize q'.call c = x' at hn hf
      have hbefore : x.finish? = some f → D.Hold true f.queued f.tag := fun hx =>
        h.finish c f (hp ▸ hx)
      cases hn with
      | load =>
        obtain rfl := Option.some.inj hf
        obtain rfl := hcaller
        exact hload _ _ _ _ _ _ rfl hp
      | fill => exact hbefore hf
      | delete => exact hbefore hf
      | close => exact hbefore hf
      | _ => cases hf
  skipped c d ctx err tag hs := by
    rcases Pending.call_cases hq c with hc | ⟨hcaller, hn⟩
    · exact h.skipped c d ctx err tag (hc ▸ hs)
    · generalize hp : q.call c = x at hn
      rw [hs] at hn
      cases hn with
      | skip =>
        obtain rfl := hcaller
        exact hload _ _ _ _ _ _ rfl hp
  joins c c' d d' k e hj hst := by
    -- The joined and the stored requests before the step, or new ones.
    have hj' : (q.call c).joined? = some (d, k, e) ∨ a = .queue c d ∧ pendingKey d = some k ∧
        q.storage k = some e := by
      rcases Pending.call_cases hq c with hc | ⟨hcaller, hn⟩
      · exact .inl (hc ▸ hj)
      · rcases hn.joined hj with hj | ⟨c₀, d₀, k₀, e₀, rfl, hk, he, hx⟩
        · exact .inl hj
        · cases hx
          obtain rfl := hcaller
          exact .inr ⟨rfl, hk, he⟩
    have hst' : (q.call c').stored? = some (d', k, e) ∨ q.storage k = none ∧ e = q.next := by
      rcases Pending.call_cases hq c' with hc | ⟨_, hn⟩
      · exact .inl (hc ▸ hst)
      · rcases hn.stored hst with hst | ⟨_, d₀, k₀, _, _, hk, hx⟩
        · exact .inl hst
        · cases hx
          exact .inr ⟨hk, rfl⟩
    rcases hst' with hst' | ⟨hnone, rfl⟩
    · rcases hj' with hj' | ⟨ha, hk, he⟩
      · exact h.joins c c' d d' k e hj' hst'
      · exact hjoin c d ha c' d' k e hk he hst'
    · rcases hj' with hj' | ⟨_, _, he⟩
      · obtain ⟨_, _, hold⟩ := Pending.stored_of_joined h.reach hj'
        exact absurd (Pending.stored_lt h.reach hold) (Nat.lt_irrefl _)
      · rw [hnone] at he
        cases he

theorem inv_pending (h : D.Inv s) {a : Pending.Action Tag} (ha : a.Honest s.pending)
    (hq : Pending.step s.pending a = some q)
    (hload : ∀ c d err tag queued stored, a = .load c d err tag →
      s.pending.call c = .resolving queued stored → D.Hold true queued tag)
    (hqueue : ∀ c d, a ≠ .queue c d) : D.Inv { s with pending := q } :=
  { h with
    pending := pendingInv_step h.pending ha hq hload fun c d hcd => absurd hcd (hqueue c d)
    linked := fun c d stored hc => by
      rcases Pending.call_cases hq c with hsame | ⟨_, hn⟩
      · exact h.linked c d stored (hsame ▸ hc)
      · change q.call c = _ at hc
        rw [hc] at hn
        generalize s.pending.call c = x at hn
        cases hn <;> exact absurd rfl (hqueue _ _) }

theorem inv_load (h : D.Inv s) {ctx : DNSContext} {err : Option Err} {tag : Tag}
    (hc : s.work c = .finished d ctx err tag true)
    (hq : Pending.step s.pending (.load c ctx err tag) = some q) :
    D.Inv { s with pending := q } := by
  obtain ⟨hhold, hframe⟩ : D.Hold true d tag ∧ Frame d ctx := by
    have := h.work c
    rwa [hc] at this
  have hlink : ∀ queued stored, s.pending.call c = .resolving queued stored → d = queued := by
    intro queued stored hr
    have := h.linked c queued stored hr
    rw [hc] at this
    exact Option.some.inj this
  refine inv_pending h ?_ hq ?_ (fun _ _ hne => nomatch hne)
  · show (s.pending.call c).Keeps ctx
    cases hp : s.pending.call c with
    | resolving queued stored => exact hlink queued stored hp ▸ hframe.keeps
    | _ => trivial
  · rintro c' d' err' tag' queued stored heq hr
    cases heq
    exact hlink queued stored hr ▸ hhold

theorem inv_queue {w : Work} (h : D.Inv s) (hidle : s.work c = .idle) (hstart : D.Start c true d)
    (hjoin : ∀ c' d' k e, pendingKey d = some k → s.pending.storage k = some e →
      (s.pending.call c').stored? = some (d', k, e) → D.Join d' d)
    (hq : Pending.step s.pending (.queue c d) = some q)
    (hw : w.Queued c d q) :
    D.Inv ({ s with pending := q }.setWork c w) := by
  have hpend : D.PendingInv q := by
    refine pendingInv_step (a := .queue c d) h.pending trivial hq ?_ ?_
    · rintro c' d' err tag queued stored heq
      cases heq
    · rintro c' d' heq
      cases heq
      exact hjoin
  refine { h with pending := hpend, linked := fun c' d' stored hr => ?_, work := fun c' => ?_ }
  · change q.call c' = _ at hr
    show (Function.update s.work c _ c').working? = some d'
    rcases Pending.call_cases hq c' with hsame | ⟨rfl, hn⟩
    · rw [hsame] at hr
      have hne : c' ≠ c := by
        rintro rfl
        exact h.not_resolving hidle d' stored hr
      rw [Function.update_of_ne hne]
      exact h.linked c' d' stored hr
    · rw [show Pending.Action.caller (.queue c d : Pending.Action Tag) = c from rfl] at hr hn ⊢
      rw [Function.update_self]
      obtain ⟨⟨_, _, _, hwait⟩, -⟩ | ⟨-, rfl⟩ := hw
      · cases hr.symm.trans hwait
      · rw [hr] at hn
        generalize s.pending.call c = x at hn
        cases hn <;> rfl
  · refine (Function.forall_update_iff _ D.WorkOk).mpr ⟨?_, fun c' _ => h.work c'⟩ c'
    obtain ⟨-, rfl⟩ | ⟨-, rfl⟩ := hw
    · trivial
    · exact hstart

theorem inv_exchange {works : Bool} {env : UpstreamEnv} (h : D.Inv s)
    (hc : s.work c = .exchanging d works) :
    D.Inv ((s.asked pf p c d (p.replyFromUpstream pf env d) now).setWork c
      (.replied d works (p.replyFromUpstream pf env d))) := by
  have hstart : D.Start c works d := by
    have := h.work c
    rwa [hc] at this
  refine (h.asked fun u hu => D.ask c works d u hstart hu).setWork
    ⟨hstart, D.exchange c works d env hstart, frame_replyFromUpstream pf p env d⟩ ?_
  intro d' stored hr
  have := h.linked c d' stored hr
  rw [hc] at this
  cases works <;> exact this

theorem inv_step {a : Action} (h : D.Inv s) (ha : D.Allows s a) (hs : step pf p s a = some s') :
    D.Inv s' := by
  have hunlinked : ∀ {c w}, s.work c = .idle → D.WorkOk c w → D.Inv (s.setWork c w) :=
    fun hidle hw => h.setWork hw fun d' stored hr => absurd hr (h.not_resolving hidle d' stored)
  cases stepped_step hs with
  | bypass hstarts hidle hprep => exact hunlinked hidle (ha _ _ hstarts _ _ hprep).1
  | alone hstarts hidle hprep _ => exact hunlinked hidle (ha _ _ hstarts _ _ hprep).1
  | queue hstarts hidle hprep _ hq hw =>
    obtain ⟨hstart, hjoin⟩ := ha _ _ hstarts _ _ hprep
    exact inv_queue h hidle hstart (hjoin rfl) hq hw
  | refuse hidle => exact hunlinked hidle trivial
  | lookup hc => exact inv_lookup h hc _
  | exchange hc hr =>
    subst hr
    exact inv_exchange h hc
  | store hc => exact inv_store h hc _
  | load hc hq => exact inv_load h hc hq
  | finish hb hq =>
    cases a <;> cases hb
    all_goals
      refine inv_pending h ?_ hq (fun _ _ _ _ _ _ hne => nomatch hne) (fun _ _ hne => nomatch hne)
      trivial
  | busy _ _ => exact h.setRefresh trivial
  | @begin r j hr _ =>
    have hj := h.refresh r
    rw [hr] at hj
    exact (h.setRefresh (f := .running j) hj).bookkeeping _ _
  | @exchangeRefresh r j env _ _ hr hx =>
    subst hx
    have hj : D.Renew j.cause j.d := by
      have := h.refresh r
      rwa [hr] at this
    exact (h.asked fun u hu => D.renew_ask _ _ u hj hu).setRefresh
      ⟨D.renew_keep _ _ env hj, frame_replyFromUpstream pf p env j.d⟩
  | @storeRefresh r j x now hr =>
    obtain ⟨hkeep, hframe⟩ :
        D.Keep (cacheForContext j.d) (tagOf pf p j.d x) ∧ Frame j.d x.ctx := by
      have := h.refresh r
      rwa [hr] at this
    exact (inv_storeRefresh h hkeep hframe now).setRefresh trivial
  | endRefresh _ => exact (h.setRefresh (f := .finished) trivial).bookkeeping _ _
  | @evict _ i _ _ => exact h.setCache (h.cached i)

theorem inv_reach {conf : SharedConfig} {rd : RecursionDetector} {allowed : State → Action → Prop}
    (hallow : ∀ s a, allowed s a → D.Allows s a) (h : Reach pf p (init p conf rd) allowed s) :
    D.Inv s := by
  induction h with
  | refl => exact inv_init conf rd
  | step _ ha hs ih => exact inv_step ih (hallow _ _ ha) hs

/-! ## What calls return -/

/-- What a call returned is a response that it may hold, from its own resolution or
from the call it joined. -/
theorem result_hold (h : D.Inv s) {r : Result} (hr : s.result? c = some r) :
    ∃ works, D.Hold works r.d r.tag := by
  unfold State.result? at hr
  split at hr
  · split at hr
    · next works hw =>
      obtain rfl := Option.some.inj hr
      have := h.work c
      rw [hw] at this
      exact ⟨works, this.1⟩
    · cases hr
  · next f hc =>
    obtain rfl := Option.some.inj hr
    exact ⟨true, h.pending.finish c f (by rw [hc]; rfl)⟩
  · next d ctx err tag hc =>
    obtain rfl := Option.some.inj hr
    exact ⟨true, h.pending.skipped c d ctx err tag hc⟩
  · next d k e clone err hc =>
    obtain rfl := Option.some.inj hr
    obtain ⟨c', f, hc', ho, rfl, _, rfl, _⟩ := Pending.returned_of_leader h.pending.reach hc
    have hjoin : D.Join f.queued d := h.pending.joins c c' d f.queued f.key e
      (by rw [hc]; rfl) (by rw [hc']; simp [Pending.Call.stored?, ho.2])
    exact ⟨true, D.follow _ _ _ hjoin (h.pending.finish c' f (by rw [hc']; rfl))⟩
  · cases hr

end System

end DnsProxy
