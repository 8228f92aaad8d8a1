import DnsProxy.Pending
import DnsProxy.Request

/-!
# Resolve calls side by side

A proxy that serves any number of `Resolve` calls at once, over the pending
requests, the caches of the proxy and of the custom configurations, and the
background refreshes of the optimistic cache. A step is an access to the shared
state or an exchange with upstreams, in any order; `Stepped` says what each one does,
for the proofs that go by the cases of a step.

Each response carries a tag that the code does not have: who produced it, for which
configuration, and whether as a private upstream. The log tells whom the proxy asked
for which call.
-/

namespace DnsProxy

/-- Who produced a response: the server, asked for a request with this custom
configuration, and whether it was selected as a private one. -/
structure Origin where
  cfg : Option CustomUpstreamConfig
  isPrivate : Bool
  u : Upstream
deriving DecidableEq, Repr

/-- `none` for a response that the proxy made itself. -/
abbrev Tag := Option Origin

/-! ## Caches -/

/-- A cache, with the tag of the last response stored under each key. -/
structure TaggedCache where
  cache : Cache
  tags : Bytes → Tag
  subnetTags : Bytes → Tag

namespace TaggedCache

def read (t : TaggedCache) (subnets : Bool) (k : Bytes) : Tag :=
  if subnets then t.subnetTags k else t.tags k

def write (t : TaggedCache) (subnets : Bool) (k : Bytes) (tag : Tag) : TaggedCache :=
  if subnets then { t with subnetTags := Function.update t.subnetTags k tag }
  else { t with tags := Function.update t.tags k tag }

end TaggedCache

/-- `cacheResp` with the tag of the response; `none` is a panic. -/
def Proxy.storeTagged (pf : Platform) (p : Proxy) (t : TaggedCache) (d : DNSContext) (res : Msg)
    (tag : Tag) (now : Instant) : Option TaggedCache :=
  (p.cacheResp pf t.cache d res now).map fun c =>
    match p.cacheEntry pf d res now with
    | none => { t with cache := c }
    | some (k, _) => { t.write (p.usesSubnets d) k tag with cache := c }

/-- The entry that `read` has the tag of. -/
def TaggedCache.entry (t : TaggedCache) (subnets : Bool) (k : Bytes) : Option Bytes :=
  if subnets then t.cache.itemsWithSubnet.bind (fun items => items k) else t.cache.items k

/-- The tags follow the entries: `cacheResp` changes nothing, or one entry and its
tag. -/
theorem storeTagged_entry {pf : Platform} {p : Proxy} {t t' : TaggedCache} {d : DNSContext}
    {res : Msg} {tag : Tag} {now : Instant} (h : p.storeTagged pf t d res tag now = some t')
    (subnets : Bool) (k : Bytes) :
    t'.entry subnets k = t.entry subnets k ∧ t'.read subnets k = t.read subnets k ∨
      subnets = p.usesSubnets d ∧ t'.read subnets k = tag ∧
        ∃ data, p.cacheEntry pf d res now = some (k, data) ∧ t'.entry subnets k = some data := by
  unfold Proxy.storeTagged at h
  rw [cacheResp_eq] at h
  cases he : p.cacheEntry pf d res now with
  | none =>
    simp only [he, Option.map_some, Option.some.injEq] at h
    subst h
    exact .inl ⟨rfl, rfl⟩
  | some e =>
    obtain ⟨k', data⟩ := e
    simp only [he, Option.map_eq_some_iff] at h
    obtain ⟨c, hc, rfl⟩ := h
    cases hu : p.usesSubnets d with
    | false =>
      obtain rfl : { t.cache with items := Function.update t.cache.items k' (some data) } = c := by
        simpa [hu] using hc
      cases subnets with
      | true => exact .inl ⟨rfl, rfl⟩
      | false =>
        by_cases hk : k = k'
        · subst hk
          exact .inr (by simp [TaggedCache.entry, TaggedCache.read, TaggedCache.write])
        · exact .inl (by simp [TaggedCache.entry, TaggedCache.read, TaggedCache.write, hk])
    | true =>
      obtain ⟨items, hitems, rfl⟩ := Option.map_eq_some_iff.mp (by simpa [hu] using hc)
      cases subnets with
      | false => exact .inl ⟨rfl, rfl⟩
      | true =>
        by_cases hk : k = k'
        · subst hk
          exact .inr (by simp [TaggedCache.entry, TaggedCache.read, TaggedCache.write])
        · refine .inl ?_
          simp [TaggedCache.entry, TaggedCache.read, TaggedCache.write, hk, hitems]

/-- The owner of the cache that `cacheForContext` returns, `none` for the proxy. -/
def cacheForContext (d : DNSContext) : Option CustomUpstreamConfig :=
  match d.customUpstreamConfig with
  | some c => if c.hasCache then some c else none
  | none => none

/-- The settings of the shared state. -/
structure SharedConfig where
  /-- Without it `pendingRequests` is the implementation that does nothing. -/
  pendingEnabled : Bool
  withECS : CustomUpstreamConfig → Bool
  optimistic : Bool
  optimisticTTL : Duration
  optimisticMaxAge : Duration

/-- The empty caches. Only the one of the proxy is optimistic. -/
def newCaches (p : Proxy) (conf : SharedConfig) : Option CustomUpstreamConfig → Cache
  | none =>
    newCache p.enableEDNSClientSubnet conf.optimistic conf.optimisticTTL conf.optimisticMaxAge
  | some c => newCache (conf.withECS c) false 0 0

/-- The settings of the examples: pending requests, and a cache that is not
optimistic. -/
def exampleShared : SharedConfig := ⟨true, fun _ => false, false, 0, 0⟩

/-! ## The state -/

/-- The reduced clone of a context that a refresh uses. -/
def refreshContext (d : DNSContext) : DNSContext where
  req := d.req
  reqECS := d.reqECS
  customUpstreamConfig := d.customUpstreamConfig
  isPrivateClient := d.isPrivateClient

namespace System

/-- How far a call is. `d` is the context as `prepare` left it, `works` tells whether
the cache works for it. -/
inductive Work
  | idle
  /-- Answered or dropped without the handler. -/
  | answered
  /-- Queued behind another call. -/
  | joined
  | looking (d : DNSContext)
  | exchanging (d : DNSContext) (works : Bool)
  | replied (d : DNSContext) (works : Bool) (r : Replied)
  | finished (d ctx : DNSContext) (err : Option Err) (tag : Tag) (works : Bool)

/-- A call of `resolveOnce`, caused by the call `cause`. -/
structure Job where
  cause : Nat
  d : DNSContext
  key : Bytes

inductive Refresh
  | idle
  | spawned (j : Job)
  | running (j : Job)
  | replied (j : Job) (r : Replied)
  | stored (j : Job)
  | finished

/-- An exchange with a server, for the call `cause`. -/
structure Exchange where
  cause : Nat
  u : Upstream
  req : Msg

structure State where
  pendingEnabled : Bool
  pending : Pending.State Tag
  work : Nat → Work
  cache : Option CustomUpstreamConfig → TaggedCache
  refresh : Nat → Refresh
  nextRefresh : Nat
  /-- The keys in the map of the optimistic resolver. -/
  inFlight : Bytes → Bool
  recDetector : RecursionDetector
  log : List Exchange

def init (p : Proxy) (conf : SharedConfig) (rd : RecursionDetector) : State where
  pendingEnabled := conf.pendingEnabled
  pending := Pending.init Tag
  work _ := .idle
  cache i := ⟨newCaches p conf i, fun _ => none, fun _ => none⟩
  refresh _ := .idle
  nextRefresh := 0
  inFlight _ := false
  recDetector := rd
  log := []

inductive Action
  /-- `Resolve` is called. -/
  | resolve (c : Nat) (d : DNSContext)
  /-- `processDNSRequest` is called. -/
  | serve (c : Nat) (d : DNSContext) (now : Instant)
  | lookup (c : Nat) (now : Instant)
  | exchange (c : Nat) (env : UpstreamEnv) (now : Instant)
  | store (c : Nat) (now : Instant)
  | load (c : Nat)
  | fill (c : Nat)
  | delete (c : Nat)
  | close (c : Nat)
  | wake (c : Nat)
  | beginRefresh (r : Nat)
  | exchangeRefresh (r : Nat) (env : UpstreamEnv) (now : Instant)
  | storeRefresh (r : Nat) (now : Instant)
  | endRefresh (r : Nat)
  /-- An entry is evicted. -/
  | drop (i : Option CustomUpstreamConfig) (key : Bytes)
  | dropWithSubnet (i : Option CustomUpstreamConfig) (key : Bytes)
  | clear (i : Option CustomUpstreamConfig)

/-! ## Steps -/

section Step

variable (pf : Platform) (p : Proxy)

def State.setWork (s : State) (c : Nat) (w : Work) : State :=
  { s with work := Function.update s.work c w }

def State.setCache (s : State) (i : Option CustomUpstreamConfig) (t : TaggedCache) : State :=
  { s with cache := Function.update s.cache i t }

def State.setRefresh (s : State) (r : Nat) (f : Refresh) : State :=
  { s with refresh := Function.update s.refresh r f }

/-- `Resolve` up to the cache lookup or the exchange. -/
def start (s : State) (c : Nat) (d : DNSContext) : Option State :=
  match s.work c, p.prepare pf d with
  | .idle, (d, false) => some (s.setWork c (.exchanging d false))
  | .idle, (d, true) =>
    if s.pendingEnabled then
      (Pending.step s.pending (.queue c d)).map fun q =>
        { s with pending := q }.setWork c
          (match q.call c with
            | .waiting .. => .joined
            | _ => .looking d)
    else some (s.setWork c (.looking d))
  | _, _ => none

/-- The tag of the response that an exchange for `d` left. -/
def tagOf (d : DNSContext) (r : Replied) : Tag :=
  r.source.map fun u => ⟨d.customUpstreamConfig, (p.selectUpstreams pf d).2, u⟩

/-- An exchange for `d` is logged, and a private request is remembered. -/
def State.asked (s : State) (c : Nat) (d : DNSContext) (r : Replied) (now : Instant) : State :=
  let (ups, isPrivate) := p.selectUpstreams pf d
  { s with
    log := s.log ++ r.asked.map fun a => ⟨c, a.1, a.2⟩
    recDetector :=
      if ups.length ≠ 0 ∧ isPrivate then s.recDetector.add d.req now else s.recDetector }

/-- `replyFromCache`, with the rest of `Resolve` after a hit. -/
def lookup (s : State) (c : Nat) (d : DNSContext) (now : Instant) : State :=
  let i := cacheForContext d
  let t := s.cache i
  let l := p.lookup pf t.cache d now
  let s := s.setCache i { t with cache := l.cache }
  match l.ci with
  | none => s.setWork c (.exchanging d true)
  | some ci =>
    let key := l.key.getD []
    let s := s.setWork c
      (.finished d (complete pf (fromCache d ci)) none (t.read (p.usesSubnets d) key) true)
    if t.cache.optimistic && l.expired then
      { s.setRefresh s.nextRefresh (.spawned ⟨c, refreshContext d, key⟩) with
        nextRefresh := s.nextRefresh + 1 }
    else s

/-- The rest of `Resolve` after an exchange. -/
def store (s : State) (c : Nat) (d : DNSContext) (works : Bool) (r : Replied) (now : Instant) :
    State :=
  let tag := tagOf pf p d r
  let i := cacheForContext r.ctx
  let done := Work.finished d (complete pf r.ctx) r.err tag works
  match r.ctx.res with
  | none => s.setWork c done
  | some res =>
    if works && r.ok && !res.checkingDisabled then
      match p.storeTagged pf (s.cache i) r.ctx res tag now with
      -- The deferred `done` runs in a panic too, with the context as it is.
      | none => s.setWork c (.finished d r.ctx r.err tag works)
      | some t => (s.setCache i t).setWork c done
    else s.setWork c done

/-- `cacheResp` at the end of a refresh. -/
def storeRefresh (s : State) (j : Job) (r : Replied) (now : Instant) : State :=
  let i := cacheForContext r.ctx
  match r.ctx.res with
  | none => s
  | some res =>
    if r.ok then
      match p.storeTagged pf (s.cache i) r.ctx res (tagOf pf p j.d r) now with
      | none => s
      | some t => s.setCache i t
    else s

/-- One step; `none` when it is not possible. -/
def step (s : State) : Action → Option State
  | .resolve c d => start pf p s c d
  | .serve c d now =>
    match s.work c, p.processDNSRequest pf s.recDetector d now with
    | .idle, .handled d => start pf p s c d
    | .idle, _ => some (s.setWork c .answered)
    | _, _ => none
  | .lookup c now =>
    match s.work c with
    | .looking d => some (lookup pf p s c d now)
    | _ => none
  | .exchange c env now =>
    match s.work c with
    | .exchanging d works =>
      let r := p.replyFromUpstream pf env d
      some ((s.asked pf p c d r now).setWork c (.replied d works r))
    | _ => none
  | .store c now =>
    match s.work c with
    | .replied d works r => some (store pf p s c d works r now)
    | _ => none
  | .load c =>
    match s.work c with
    | .finished _ ctx err tag true =>
      (Pending.step s.pending (.load c ctx err tag)).map fun q => { s with pending := q }
    | _ => none
  | .fill c => (Pending.step s.pending (.fill c)).map fun q => { s with pending := q }
  | .delete c => (Pending.step s.pending (.delete c)).map fun q => { s with pending := q }
  | .close c => (Pending.step s.pending (.close c)).map fun q => { s with pending := q }
  | .wake c => (Pending.step s.pending (.wake c)).map fun q => { s with pending := q }
  | .beginRefresh r =>
    match s.refresh r with
    | .spawned j =>
      if s.inFlight j.key then some (s.setRefresh r .finished)
      else
        some { s.setRefresh r (.running j) with
          inFlight := Function.update s.inFlight j.key true }
    | _ => none
  | .exchangeRefresh r env now =>
    match s.refresh r with
    | .running j =>
      let x := p.replyFromUpstream pf env j.d
      some ((s.asked pf p j.cause j.d x now).setRefresh r (.replied j x))
    | _ => none
  | .storeRefresh r now =>
    match s.refresh r with
    | .replied j x => some ((storeRefresh pf p s j x now).setRefresh r (.stored j))
    | _ => none
  | .endRefresh r =>
    match s.refresh r with
    | .stored j =>
      some { s.setRefresh r .finished with inFlight := Function.update s.inFlight j.key false }
    | _ => none
  | .drop i key => some (s.setCache i { s.cache i with cache := (s.cache i).cache.del key })
  | .dropWithSubnet i key =>
    some (s.setCache i { s.cache i with cache := (s.cache i).cache.delWithSubnet key })
  | .clear i =>
    some (s.setCache i
      { s.cache i with cache := (s.cache i).cache.clearItems.clearItemsWithSubnet })

/-- The states of the runs in which every action is allowed. -/
abbrev Reach (s₀ : State) (allowed : State → Action → Prop) : State → Prop :=
  Runs.Run (step pf p) allowed s₀

/-- The state after some actions. -/
abbrev run (s : State) (as : List Action) : Option State :=
  Runs.replay (step pf p) (fun _ _ => true) s as

def Action.isStart : Action → Bool
  | .resolve .. | .serve .. => true
  | _ => false

/-- The action starts the call `c` of `Resolve` with the context `d`. -/
def Starts (s : State) (a : Action) (c : Nat) (d : DNSContext) : Prop :=
  a = .resolve c d ∨
    ∃ d₀ now, a = .serve c d₀ now ∧ p.processDNSRequest pf s.recDetector d₀ now = .handled d

/-- The action starts a call, with the context `d₁` as prepared, that joins the
request that another call stored with the context `d'`. -/
def Joins (s : State) (a : Action) (d' d₁ : DNSContext) : Prop :=
  ∃ c d c' k e, Starts pf p s a c d ∧ p.prepare pf d = (d₁, true) ∧ pendingKey d₁ = some k ∧
    s.pending.storage k = some e ∧ (s.pending.call c').stored? = some (d', k, e)

/-- The steps that are about the pending requests only. -/
def Action.pending? : Action → Option (Pending.Action Tag)
  | .fill c => some (.fill c)
  | .delete c => some (.delete c)
  | .close c => some (.close c)
  | .wake c => some (.wake c)
  | _ => none

/-- The call waits for another one, or else looks for its request in the cache. -/
def Work.Queued (w : Work) (c : Nat) (d : DNSContext) (q : Pending.State Tag) : Prop :=
  (∃ d k e, q.call c = .waiting d k e) ∧ w = .joined ∨
    (∀ d k e, q.call c ≠ .waiting d k e) ∧ w = .looking d

/-- What `step` does, by the state that it takes. -/
inductive Stepped (s : State) : Action → State → Prop
  /-- The cache does not work for the request. -/
  | bypass {a : Action} {c : Nat} {d₀ d : DNSContext} : Starts pf p s a c d₀ →
      s.work c = .idle → p.prepare pf d₀ = (d, false) →
      Stepped s a (s.setWork c (.exchanging d false))
  | alone {a : Action} {c : Nat} {d₀ d : DNSContext} : Starts pf p s a c d₀ →
      s.work c = .idle → p.prepare pf d₀ = (d, true) → s.pendingEnabled = false →
      Stepped s a (s.setWork c (.looking d))
  | queue {a : Action} {c : Nat} {d₀ d : DNSContext} {q : Pending.State Tag} {w : Work} :
      Starts pf p s a c d₀ → s.work c = .idle → p.prepare pf d₀ = (d, true) →
      s.pendingEnabled = true → Pending.step s.pending (.queue c d) = some q →
      w.Queued c d q → Stepped s a ({ s with pending := q }.setWork c w)
  /-- `processDNSRequest` does not call the handler. -/
  | refuse {c : Nat} {d : DNSContext} {now : Instant} : s.work c = .idle →
      Stepped s (.serve c d now) (s.setWork c .answered)
  | lookup {c : Nat} {d : DNSContext} {now : Instant} : s.work c = .looking d →
      Stepped s (.lookup c now) (lookup pf p s c d now)
  | exchange {c : Nat} {d : DNSContext} {works : Bool} {env : UpstreamEnv} {now : Instant}
      {r : Replied} : s.work c = .exchanging d works → p.replyFromUpstream pf env d = r →
      Stepped s (.exchange c env now) ((s.asked pf p c d r now).setWork c (.replied d works r))
  | store {c : Nat} {d : DNSContext} {works : Bool} {r : Replied} {now : Instant} :
      s.work c = .replied d works r → Stepped s (.store c now) (store pf p s c d works r now)
  | load {c : Nat} {d ctx : DNSContext} {err : Option Err} {tag : Tag} {q : Pending.State Tag} :
      s.work c = .finished d ctx err tag true →
      Pending.step s.pending (.load c ctx err tag) = some q →
      Stepped s (.load c) { s with pending := q }
  | finish {a : Action} {b : Pending.Action Tag} {q : Pending.State Tag} : a.pending? = some b →
      Pending.step s.pending b = some q → Stepped s a { s with pending := q }
  /-- A refresh with the same key is in progress. -/
  | busy {r : Nat} {j : Job} : s.refresh r = .spawned j → s.inFlight j.key = true →
      Stepped s (.beginRefresh r) (s.setRefresh r .finished)
  | begin {r : Nat} {j : Job} : s.refresh r = .spawned j → s.inFlight j.key = false →
      Stepped s (.beginRefresh r)
        { s.setRefresh r (.running j) with inFlight := Function.update s.inFlight j.key true }
  | exchangeRefresh {r : Nat} {j : Job} {env : UpstreamEnv} {now : Instant} {x : Replied} :
      s.refresh r = .running j → p.replyFromUpstream pf env j.d = x →
      Stepped s (.exchangeRefresh r env now)
        ((s.asked pf p j.cause j.d x now).setRefresh r (.replied j x))
  | storeRefresh {r : Nat} {j : Job} {x : Replied} {now : Instant} : s.refresh r = .replied j x →
      Stepped s (.storeRefresh r now) ((storeRefresh pf p s j x now).setRefresh r (.stored j))
  | endRefresh {r : Nat} {j : Job} : s.refresh r = .stored j →
      Stepped s (.endRefresh r)
        { s.setRefresh r .finished with inFlight := Function.update s.inFlight j.key false }
  | evict {a : Action} {i : Option CustomUpstreamConfig} {cache : Cache} :
      (∃ key, a = .drop i key) ∨ (∃ key, a = .dropWithSubnet i key) ∨ a = .clear i →
      Stepped s a (s.setCache i { s.cache i with cache := cache })

variable {pf p} {s s' : State} {a : Action}

theorem store_eq (c : Nat) (d : DNSContext) (works : Bool) (r : Replied) (now : Instant) :
    ∃ cache ctx, store pf p s c d works r now =
        { s with cache := cache }.setWork c (.finished d ctx r.err (tagOf pf p d r) works) ∧
      (ctx = complete pf r.ctx ∨ ctx = r.ctx) := by
  unfold store
  dsimp only
  split
  · exact ⟨s.cache, _, rfl, .inl rfl⟩
  · split
    · split
      · exact ⟨s.cache, _, rfl, .inr rfl⟩
      · exact ⟨_, _, rfl, .inl rfl⟩
    · exact ⟨s.cache, _, rfl, .inl rfl⟩

theorem storeRefresh_eq (j : Job) (r : Replied) (now : Instant) :
    ∃ cache, storeRefresh pf p s j r now = { s with cache := cache } := by
  unfold storeRefresh
  dsimp only
  split
  · exact ⟨s.cache, rfl⟩
  · split
    · split
      · exact ⟨s.cache, rfl⟩
      · exact ⟨_, rfl⟩
    · exact ⟨s.cache, rfl⟩

theorem stepped_start {c : Nat} {d : DNSContext} (hstarts : Starts pf p s a c d)
    (h : start pf p s c d = some s') : Stepped pf p s a s' := by
  unfold start at h
  split at h
  · next hidle hprep =>
    obtain rfl := Option.some.inj h
    exact .bypass hstarts hidle hprep
  · next hidle hprep =>
    split at h
    · next henabled =>
      obtain ⟨q, hq, rfl⟩ := Option.map_eq_some_iff.mp h
      refine .queue hstarts hidle hprep henabled hq ?_
      split
      · next hwait => exact .inl ⟨⟨_, _, _, hwait⟩, rfl⟩
      · next hwait => exact .inr ⟨hwait, rfl⟩
    · next hdisabled =>
      obtain rfl := Option.some.inj h
      exact .alone hstarts hidle hprep (Bool.not_eq_true _ ▸ hdisabled)
  · cases h

theorem stepped_pending {b : Pending.Action Tag} (ha : a.pending? = some b)
    (h : ((Pending.step s.pending b).map fun q => { s with pending := q }) = some s') :
    Stepped pf p s a s' := by
  obtain ⟨q, hq, rfl⟩ := Option.map_eq_some_iff.mp h
  exact .finish ha hq

theorem stepped_step (h : step pf p s a = some s') : Stepped pf p s a s' := by
  cases a <;> simp only [step] at h
  case resolve c d => exact stepped_start (.inl rfl) h
  case serve c d now =>
    split at h
    · next hhandled => exact stepped_start (.inr ⟨_, _, rfl, hhandled⟩) h
    · next hidle _ =>
      obtain rfl := Option.some.inj h
      exact .refuse hidle
    · cases h
  case lookup c now =>
    split at h
    · next hc =>
      obtain rfl := Option.some.inj h
      exact .lookup hc
    · cases h
  case exchange c env now =>
    split at h
    · next hc =>
      obtain rfl := Option.some.inj h
      exact .exchange hc rfl
    · cases h
  case store c now =>
    split at h
    · next hc =>
      obtain rfl := Option.some.inj h
      exact .store hc
    · cases h
  case load c =>
    split at h
    · next hc =>
      obtain ⟨q, hq, rfl⟩ := Option.map_eq_some_iff.mp h
      exact .load hc hq
    · cases h
  case fill c => exact stepped_pending rfl h
  case delete c => exact stepped_pending rfl h
  case close c => exact stepped_pending rfl h
  case wake c => exact stepped_pending rfl h
  case beginRefresh r =>
    split at h
    · next hr =>
      split at h
      · next hkey =>
        obtain rfl := Option.some.inj h
        exact .busy hr hkey
      · next hkey =>
        obtain rfl := Option.some.inj h
        exact .begin hr (Bool.not_eq_true _ ▸ hkey)
    · cases h
  case exchangeRefresh r env now =>
    split at h
    · next hr =>
      obtain rfl := Option.some.inj h
      exact .exchangeRefresh hr rfl
    · cases h
  case storeRefresh r now =>
    split at h
    · next hr =>
      obtain rfl := Option.some.inj h
      exact .storeRefresh hr
    · cases h
  case endRefresh r =>
    split at h
    · next hr =>
      obtain rfl := Option.some.inj h
      exact .endRefresh hr
    · cases h
  case drop i key =>
    obtain rfl := Option.some.inj h
    exact .evict (.inl ⟨_, rfl⟩)
  case dropWithSubnet i key =>
    obtain rfl := Option.some.inj h
    exact .evict (.inr (.inl ⟨_, rfl⟩))
  case clear i =>
    obtain rfl := Option.some.inj h
    exact .evict (.inr (.inr rfl))

end Step

/-- What a call returned: its context as prepared and as left, its error and the tag
of its response. -/
structure Result where
  d : DNSContext
  ctx : DNSContext
  err : Option Err
  tag : Tag
deriving DecidableEq, Repr

/-- The result of a call that has returned. -/
def State.result? (s : State) (c : Nat) : Option Result :=
  match s.pending.call c with
  | .idle =>
    match s.work c with
    | .finished d ctx err tag _ => some ⟨d, ctx, err, tag⟩
    | _ => none
  | .done f => some ⟨f.queued, f.ctx, f.err, f.tag⟩
  | .skipped d ctx err tag => some ⟨d, ctx, err, tag⟩
  | .returned d _ _ clone err => some ⟨d, Pending.follow d clone, err, clone.tag⟩
  | _ => none

end System

end DnsProxy
