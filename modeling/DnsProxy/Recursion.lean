import DnsProxy.Chained
import DnsProxy.Isolation

/-!
# A proxy that is its own private upstream

A request that goes to the private upstreams is remembered for a second, and refused if it
comes in again. Requests are told apart by their id, type and name. The id does not stay as it
is on the way: a request without one gets one over UDP, and over HTTPS and QUIC requests have
none. So a request that is sent back to the proxy is not always refused at once.

The requests are calls of the system, between which anything else may happen.

* `moved_step`: what a step does to the requests that are still to be sent, to those that are
  remembered, and to the log.
* `recursion_bounded`: a request is sent to the private upstreams at most three times in the
  second after the first time, whatever the transports on its way are.
-/

namespace DnsProxy.System

open Chained (Link Near unnumbered)
open DnsCrypt (uncompressed)

variable {pf : Platform} {p : Proxy}

/-! ## Requests that are still to be sent -/

/-- The context of a call that may still ask the upstreams. -/
def Work.asking? : Work → Option DNSContext
  | .looking d | .exchanging d _ => some d
  | _ => none

def Refresh.asking? : Refresh → Option Job
  | .spawned j | .running j => some j
  | _ => none

/-- The call `c`, or a refresh that it caused, may still send the request `m`. -/
def Holds (s : State) (c : Nat) (m : Msg) : Prop :=
  (∃ d, (s.work c).asking? = some d ∧ d.req = m) ∨
    ∃ r j, (s.refresh r).asking? = some j ∧ j.cause = c ∧ j.d.req = m

/-- The context of a call or a refresh that may still ask the upstreams. -/
def Asking (s : State) (d : DNSContext) : Prop :=
  (∃ c, (s.work c).asking? = some d) ∨ ∃ r j, (s.refresh r).asking? = some j ∧ j.d = d

/-- The time that an action reads off the clock. -/
def Action.now? : Action → Option Instant
  | .serve _ _ now | .lookup _ now | .exchange _ _ now | .store _ now => some now
  | .exchangeRefresh _ _ now | .storeRefresh _ now => some now
  | _ => none

/-- What a step does to the requests that are still to be sent, to those that are remembered, and
to the log. -/
structure Moved (pf : Platform) (p : Proxy) (s : State) (a : Action) (s' : State) : Prop where
  /-- A call goes on with its request, or has just been started. -/
  work : ∀ c d, (s'.work c).asking? = some d → (s.work c).asking? = some d ∨
    ∃ d₀, Starts pf p s a c d₀ ∧ s.work c = .idle ∧ d = (p.prepare pf d₀).1
  idle : ∀ c, s'.work c = .idle → s.work c = .idle
  /-- A refresh goes on with its request, or has got it from a call. -/
  refresh : ∀ r j, (s'.refresh r).asking? = some j → (s.refresh r).asking? = some j ∨
    ∃ d, (s.work j.cause).asking? = some d ∧ j.d.req = d.req
  remembers : s'.recDetector = s.recDetector ∨
    ∃ m now, a.now? = some now ∧ s'.recDetector = s.recDetector.add m now
  /-- What is sent is about a request that was still to be sent. -/
  log : s'.log = s.log ∨ ∃ c d env, Asking s d ∧
    s'.log = s.log ++ (p.replyFromUpstream pf env d).asked.map fun a => ⟨c, a.1, a.2⟩

theorem update_cases {β : Type} {f : Nat → β} {i j : Nat} {b : β} (P : β → Prop)
    (h : P (Function.update f i b j)) : (j = i ∧ P b) ∨ P (f j) := by
  by_cases hij : j = i
  · subst hij
    rw [Function.update_self] at h
    exact .inl ⟨rfl, h⟩
  · rw [Function.update_of_ne hij] at h
    exact .inr h

section Steps

variable {s s' : State} {a : Action}

theorem Moved.of_eq (hwork : s'.work = s.work) (hrefresh : s'.refresh = s.refresh)
    (hrd : s'.recDetector = s.recDetector) (hlog : s'.log = s.log) : Moved pf p s a s' :=
  ⟨fun _ _ h => .inl (hwork ▸ h), fun _ h => hwork ▸ h, fun _ _ h => .inl (hrefresh ▸ h), .inl hrd,
    .inl hlog⟩

theorem Moved.of_work {c : Nat} {w : Work} (hwork : s'.work = Function.update s.work c w)
    (hnot : w ≠ .idle)
    (hasking : ∀ d, w.asking? = some d → (s.work c).asking? = some d ∨
      ∃ d₀, Starts pf p s a c d₀ ∧ s.work c = .idle ∧ d = (p.prepare pf d₀).1)
    (hrefresh : ∀ r j, (s'.refresh r).asking? = some j → (s.refresh r).asking? = some j ∨
      ∃ d, (s.work j.cause).asking? = some d ∧ j.d.req = d.req)
    (hrd : s'.recDetector = s.recDetector ∨
      ∃ m now, a.now? = some now ∧ s'.recDetector = s.recDetector.add m now)
    (hlog : s'.log = s.log ∨ ∃ c d env, Asking s d ∧
      s'.log = s.log ++ (p.replyFromUpstream pf env d).asked.map fun a => ⟨c, a.1, a.2⟩) :
    Moved pf p s a s' where
  work c' d h := by
    rw [hwork] at h
    rcases update_cases (Work.asking? · = some d) h with ⟨rfl, hw⟩ | hold
    · exact hasking d hw
    · exact .inl hold
  idle c' h := by
    rw [hwork] at h
    rcases update_cases (· = Work.idle) h with ⟨-, hw⟩ | hold
    · exact absurd hw hnot
    · exact hold
  refresh := hrefresh
  remembers := hrd
  log := hlog

theorem Moved.of_refresh {r : Nat} {f : Refresh} (hwork : s'.work = s.work)
    (hrefresh : s'.refresh = Function.update s.refresh r f)
    (hasking : ∀ j, f.asking? = some j → (s.refresh r).asking? = some j)
    (hrd : s'.recDetector = s.recDetector ∨
      ∃ m now, a.now? = some now ∧ s'.recDetector = s.recDetector.add m now)
    (hlog : s'.log = s.log ∨ ∃ c d env, Asking s d ∧
      s'.log = s.log ++ (p.replyFromUpstream pf env d).asked.map fun a => ⟨c, a.1, a.2⟩) :
    Moved pf p s a s' where
  work _ _ h := .inl (hwork ▸ h)
  idle _ h := hwork ▸ h
  refresh r' j h := by
    rw [hrefresh] at h
    rcases update_cases (Refresh.asking? · = some j) h with ⟨rfl, hf⟩ | hold
    · exact .inl (hasking j hf)
    · exact .inl hold
  remembers := hrd
  log := hlog

theorem moved_lookup {c : Nat} {d : DNSContext} {now : Instant} (hc : s.work c = .looking d) :
    Moved pf p s (.lookup c now) (lookup pf p s c d now) := by
  have hcall : (s.work c).asking? = some d := by rw [hc]; rfl
  unfold lookup
  dsimp only
  split
  · exact .of_work rfl nofun (fun d' h => .inl (hcall.trans h)) (fun _ _ h => .inl h) (.inl rfl)
      (.inl rfl)
  · split
    · -- The result is expired, and a refresh is started for the same request.
      refine .of_work rfl nofun (fun d' h => by cases h) (fun r j h => ?_) (.inl rfl) (.inl rfl)
      rcases update_cases (Refresh.asking? · = some j) h with ⟨-, hj⟩ | hold
      · obtain rfl := Option.some.inj hj
        exact .inr ⟨d, hcall, rfl⟩
      · exact .inl hold
    · exact .of_work rfl nofun (fun d' h => by cases h) (fun _ _ h => .inl h) (.inl rfl) (.inl rfl)

theorem asked_recDetector (c : Nat) (d : DNSContext) (r : Replied) (now : Instant) :
    (s.asked pf p c d r now).recDetector = s.recDetector ∨
      (s.asked pf p c d r now).recDetector = s.recDetector.add d.req now := by
  unfold State.asked
  dsimp only
  split
  · exact .inr rfl
  · exact .inl rfl

/-- Every step. -/
theorem moved_stepped (h : Stepped pf p s a s') : Moved pf p s a s' := by
  have hstarted : ∀ {c d₀ d works}, Starts pf p s a c d₀ → s.work c = .idle →
      p.prepare pf d₀ = (d, works) → ∀ d', some d = some d' → (s.work c).asking? = some d' ∨
        ∃ d₀, Starts pf p s a c d₀ ∧ s.work c = .idle ∧ d' = (p.prepare pf d₀).1 := by
    rintro c d₀ d works hstarts hidle hprep d' ⟨⟩
    exact .inr ⟨d₀, hstarts, hidle, by rw [hprep]⟩
  cases h with
  | bypass hstarts hidle hprep =>
    exact .of_work rfl nofun (hstarted hstarts hidle hprep) (fun _ _ h => .inl h) (.inl rfl)
      (.inl rfl)
  | alone hstarts hidle hprep _ =>
    exact .of_work rfl nofun (hstarted hstarts hidle hprep) (fun _ _ h => .inl h) (.inl rfl)
      (.inl rfl)
  | queue hstarts hidle hprep _ _ hw =>
    obtain ⟨-, rfl⟩ | ⟨-, rfl⟩ := hw
    · exact .of_work rfl nofun (fun d' h => by cases h) (fun _ _ h => .inl h) (.inl rfl) (.inl rfl)
    · exact .of_work rfl nofun (hstarted hstarts hidle hprep) (fun _ _ h => .inl h) (.inl rfl)
        (.inl rfl)
  | refuse _ =>
    exact .of_work rfl nofun (fun d' h => by cases h) (fun _ _ h => .inl h) (.inl rfl) (.inl rfl)
  | lookup hc => exact moved_lookup hc
  | @exchange c d _ env now _ hc hr =>
    subst hr
    refine .of_work rfl nofun (fun d' h => by cases h) (fun _ _ h => .inl h) ?_
      (.inr ⟨c, d, env, .inl ⟨c, by rw [hc]; rfl⟩, rfl⟩)
    exact (asked_recDetector c d (p.replyFromUpstream pf env d) now).imp id fun h =>
      ⟨d.req, now, rfl, h⟩
  | @store c d works r now _ =>
    obtain ⟨_, _, heq, -⟩ := @store_eq pf p s c d works r now
    rw [heq]
    exact .of_work rfl nofun (fun d' h => by cases h) (fun _ _ h => .inl h) (.inl rfl) (.inl rfl)
  | load _ _ => exact .of_eq rfl rfl rfl rfl
  | finish _ _ => exact .of_eq rfl rfl rfl rfl
  | busy _ _ => exact .of_refresh rfl rfl (fun j' h => by cases h) (.inl rfl) (.inl rfl)
  | @begin r j hr _ =>
    have hasking : (s.refresh r).asking? = some j := by rw [hr]; rfl
    exact .of_refresh rfl rfl (fun j' h => hasking.trans h) (.inl rfl) (.inl rfl)
  | @exchangeRefresh r j env now _ hr hx =>
    subst hx
    refine .of_refresh rfl rfl (fun j' h => by cases h) ?_
      (.inr ⟨j.cause, j.d, env, .inr ⟨r, j, by rw [hr]; rfl, rfl⟩, rfl⟩)
    exact (asked_recDetector j.cause j.d (p.replyFromUpstream pf env j.d) now).imp id fun h =>
      ⟨j.d.req, now, rfl, h⟩
  | @storeRefresh r j x now _ =>
    obtain ⟨_, heq⟩ := @storeRefresh_eq pf p s j x now
    rw [heq]
    exact .of_refresh rfl rfl (fun j' h => by cases h) (.inl rfl) (.inl rfl)
  | endRefresh _ => exact .of_refresh rfl rfl (fun j' h => by cases h) (.inl rfl) (.inl rfl)
  | evict _ => exact .of_eq rfl rfl rfl rfl

theorem moved_step (h : step pf p s a = some s') : Moved pf p s a s' :=
  moved_stepped (stepped_step h)

/-! ## Requests that are remembered -/

/-- The request is remembered up to the time `limit` at least. -/
def Remembers (s : State) (limit : Int) (m : Msg) : Prop :=
  ∃ expire, limit ≤ expire ∧ s.recDetector.recentRequests (msgToSignature m) = some expire

/-- The action reads a time from `start` on, before `limit`. -/
def Action.Between (a : Action) (start limit : Int) : Prop :=
  ∀ now, a.now? = some now → start ≤ now.nano ∧ now.nano < limit

theorem ttl_add (rd : RecursionDetector) (m : Msg) (now : Instant) :
    (rd.add m now).ttl = rd.ttl := by
  unfold RecursionDetector.add
  split <;> rfl

theorem Moved.ttl (h : Moved pf p s a s') : s'.recDetector.ttl = s.recDetector.ttl := by
  rcases h.remembers with heq | ⟨m, now, -, heq⟩
  · rw [heq]
  · rw [heq, ttl_add]

theorem Moved.remembered {start limit : Int} {m : Msg} (h : Moved pf p s a s')
    (hlimit : start + s.recDetector.ttl = limit) (htime : a.Between start limit)
    (hm : Remembers s limit m) : Remembers s' limit m := by
  obtain ⟨expire, hle, hexpire⟩ := hm
  rcases h.remembers with heq | ⟨m', now, hnow, heq⟩
  · exact ⟨expire, hle, heq ▸ hexpire⟩
  · by_cases hsame : m'.question.length ≠ 0 ∧ msgToSignature m = msgToSignature m'
    · refine ⟨now.nano + s.recDetector.ttl, ?_, ?_⟩
      · rw [← hlimit]
        exact Int.add_le_add_right (htime now hnow).1 _
      · rw [heq, RecursionDetector.add, if_neg hsame.1, hsame.2]
        exact Function.update_self ..
    · refine ⟨expire, hle, ?_⟩
      rw [heq, RecursionDetector.add]
      split
      · exact hexpire
      · next hq => exact (Function.update_of_ne (fun hsig => hsame ⟨hq, hsig⟩) _ _).trans hexpire

theorem check_of_remembers {limit : Int} {m : Msg} {now : Instant} (h : Remembers s limit m)
    (hq : m.question.length ≠ 0) (hnow : now.nano < limit) :
    s.recDetector.check m now = true := by
  obtain ⟨expire, hle, hexpire⟩ := h
  rw [RecursionDetector.check, if_neg hq, hexpire]
  exact decide_eq_true (Int.lt_of_lt_of_le hnow hle)

end Steps

/-! ## The way of a request -/

/-- The action sends the request `m` of the call `c` to the private upstreams. -/
def Sends (pf : Platform) (p : Proxy) (s : State) (a : Action) (c : Nat) (m : Msg) (now : Instant) :
    Prop :=
  ∃ d env, d.req = m ∧ ((p.selectUpstreams pf d).1.length ≠ 0 ∧
      (p.selectUpstreams pf d).2 = true) ∧
    ((a = .exchange c env now ∧ ∃ works, s.work c = .exchanging d works) ∨
      ∃ r j, a = .exchangeRefresh r env now ∧ s.refresh r = .running j ∧ j.cause = c ∧ j.d = d)

/-- A request and what becomes of it in the time from `start` on: the requests that the proxy
has sent to its private upstreams, the last one first, and the call as which the last one has
come in to it again, over whatever link. In between there may be any other actions. -/
inductive Course (pf : Platform) (p : Proxy) (s₀ : State) (start limit : Int) :
    List Msg → Option Nat → State → Prop
  | first {s s' : State} {a : Action} {c : Nat} {m : Msg} {now : Instant}
      (hreach : Reach pf p s₀ (fun _ _ => True) s) (hsends : Sends pf p s a c m now)
      (hstart : now.nano = start) (hq : m.question.length ≠ 0) (hstep : step pf p s a = some s') :
      Course pf p s₀ start limit [m] none s'
  | other {ms : List Msg} {o : Option Nat} {s s' : State} {a : Action}
      (h : Course pf p s₀ start limit ms o s) (htime : a.Between start limit)
      (hstep : step pf p s a = some s') : Course pf p s₀ start limit ms o s'
  | arrive {m : Msg} {ms : List Msg} {s s' : State} {c : Nat} {d : DNSContext} {now : Instant}
      (h : Course pf p s₀ start limit (m :: ms) none s) (link : Link) (near : Near)
      (hreq : d.req = uncompressed (link.request near m))
      (htime : (Action.serve c d now).Between start limit)
      (hstep : step pf p s (.serve c d now) = some s') :
      Course pf p s₀ start limit (m :: ms) (some c) s'
  | forward {ms : List Msg} {c : Nat} {s s' : State} {a : Action} {m : Msg} {now : Instant}
      (h : Course pf p s₀ start limit ms (some c) s) (hsends : Sends pf p s a c m now)
      (htime : a.Between start limit) (hstep : step pf p s a = some s') :
      Course pf p s₀ start limit (m :: ms) none s'

section Courses

variable {s s' : State} {a : Action} {c : Nat} {m : Msg} {now : Instant}

theorem Sends.holds (h : Sends pf p s a c m now) : Holds s c m := by
  obtain ⟨d, env, rfl, -, ⟨-, works, hc⟩ | ⟨r, j, -, hr, hcause, rfl⟩⟩ := h
  · exact .inl ⟨d, by rw [hc]; rfl, rfl⟩
  · exact .inr ⟨r, j, by rw [hr]; rfl, hcause, rfl⟩

theorem Sends.now_eq (h : Sends pf p s a c m now) : a.now? = some now := by
  obtain ⟨d, env, -, -, ⟨rfl, -⟩ | ⟨r, j, rfl, -⟩⟩ := h <;> rfl

theorem Sends.remembers (h : Sends pf p s a c m now) (hq : m.question.length ≠ 0)
    (hstep : step pf p s a = some s') : Remembers s' (now.nano + s.recDetector.ttl) m := by
  have hrd : s'.recDetector = s.recDetector.add m now := by
    obtain ⟨d, env, rfl, hprivate, ⟨rfl, works, hc⟩ | ⟨r, j, rfl, hr, -, rfl⟩⟩ := h
    · simp only [step, hc] at hstep
      obtain rfl := Option.some.inj hstep
      exact if_pos hprivate
    · simp only [step, hr] at hstep
      obtain rfl := Option.some.inj hstep
      exact if_pos hprivate
  refine ⟨_, Int.le_refl _, ?_⟩
  rw [hrd, RecursionDetector.add, if_neg hq]
  exact Function.update_self ..

theorem Moved.holds (h : Moved pf p s a s') (hm : Holds s' c m) : Holds s c m ∨
    ∃ d₀, Starts pf p s a c d₀ ∧ s.work c = .idle ∧ m = (p.prepare pf d₀).1.req := by
  rcases hm with ⟨d, hd, rfl⟩ | ⟨r, j, hj, rfl, rfl⟩
  · rcases h.work c d hd with hold | ⟨d₀, hstarts, hidle, rfl⟩
    · exact .inl (.inl ⟨d, hold, rfl⟩)
    · exact .inr ⟨d₀, hstarts, hidle, rfl⟩
  · rcases h.refresh r j hj with hold | ⟨d, hd, hreq⟩
    · exact .inl (.inr ⟨r, j, hold, rfl, rfl⟩)
    · exact .inl (.inl ⟨d, hd, hreq.symm⟩)

/-- A refresh belongs to a call that has been started. -/
def Settled (s : State) : Prop := ∀ r j, (s.refresh r).asking? = some j → s.work j.cause ≠ .idle

theorem not_idle_of_asking {w : Work} {d : DNSContext} (h : w.asking? = some d) : w ≠ .idle := by
  rintro rfl
  cases h

theorem Moved.settled (h : Moved pf p s a s') (hs : Settled s) : Settled s' := by
  intro r j hj hidle
  rcases h.refresh r j hj with hold | ⟨d, hd, -⟩
  · exact hs r j hold (h.idle _ hidle)
  · exact not_idle_of_asking hd (h.idle _ hidle)

theorem not_holds_of_idle (hs : Settled s) (hidle : s.work c = .idle) : ¬Holds s c m := by
  rintro (⟨d, hd, -⟩ | ⟨r, j, hj, rfl, -⟩)
  · exact not_idle_of_asking hd hidle
  · exact hs r j hj hidle

/-- What stays the same on the way of a request, and what may happen to its id. -/
def Follows (m m' : Msg) : Prop :=
  m'.firstQuestion = m.firstQuestion ∧ (m'.id = m.id ∨ m'.id = 0 ∨ m.id = 0)

theorem follows_request (link : Link) (near : Near) (m : Msg) :
    Follows m (uncompressed (link.request near m)) := by
  cases link with
  | udp =>
    show Follows m (uncompressed (near.udpRequest m))
    unfold Near.udpRequest
    split
    · next hzero => exact ⟨rfl, .inr (.inr hzero)⟩
    · exact ⟨rfl, .inl rfl⟩
  | tcp => exact ⟨rfl, .inl rfl⟩
  | tls => exact ⟨rfl, .inl rfl⟩
  | https => exact ⟨rfl, .inr (.inl rfl)⟩
  | quic => exact ⟨rfl, .inr (.inl rfl)⟩

theorem signature_congr {m m' : Msg} (hid : m'.id = m.id)
    (hq : m'.firstQuestion = m.firstQuestion) : msgToSignature m' = msgToSignature m := by
  unfold msgToSignature
  rw [hid, hq]

/-- Four requests of which each follows the one before cannot all be told apart: as long as
they can be, every other one has no id. -/
theorem length_le_three {ms : List Msg} (hfollows : ms.IsChain fun m' m => Follows m m')
    (hdistinct : (ms.map msgToSignature).Nodup) : ms.length ≤ 3 := by
  match ms with
  | [] | [_] | [_, _] | [_, _, _] => simp
  | m₄ :: m₃ :: m₂ :: m₁ :: ms =>
    simp only [List.isChain_cons_cons] at hfollows
    obtain ⟨⟨hq₄, hid₄⟩, ⟨hq₃, hid₃⟩, ⟨hq₂, hid₂⟩, -⟩ := hfollows
    simp only [List.map_cons, List.nodup_cons, List.mem_cons, not_or] at hdistinct
    obtain ⟨⟨hsig₄₃, hsig₄₂, -⟩, ⟨hsig₃₂, hsig₃₁, -⟩, ⟨hsig₂₁, -⟩, -⟩ := hdistinct
    have h₄₃ : m₄.id ≠ m₃.id := fun h => hsig₄₃ (signature_congr h hq₄)
    have h₄₂ : m₄.id ≠ m₂.id := fun h => hsig₄₂ (signature_congr h (hq₄.trans hq₃))
    have h₃₂ : m₃.id ≠ m₂.id := fun h => hsig₃₂ (signature_congr h hq₃)
    have h₃₁ : m₃.id ≠ m₁.id := fun h => hsig₃₁ (signature_congr h (hq₃.trans hq₂))
    rcases hid₃.resolve_left h₃₂ with hzero | hzero
    · have hzero₁ := (hid₂.resolve_left fun h => hsig₂₁ (signature_congr h hq₂)).resolve_left
        fun h => h₃₂ (hzero.trans h.symm)
      exact absurd (hzero.trans hzero₁.symm) h₃₁
    · have hzero₄ := (hid₄.resolve_left h₄₃).resolve_right fun h => h₃₂ (h.trans hzero.symm)
      exact absurd (hzero₄.trans hzero.symm) h₄₂

theorem prepare_signature (d : DNSContext) :
    (p.prepare pf d).1.req.id = d.req.id ∧
      (p.prepare pf d).1.req.question = d.req.question := by
  have hecs : (if p.enableEDNSClientSubnet then processECS pf p.ednsAddr d else d).req.id =
      d.req.id := by
    split
    · obtain ⟨extra, ecs, heq⟩ := processECS_eq pf p.ednsAddr d
      rw [heq]
    · rfl
  refine ⟨?_, (prepare_spec (Prod.mk.eta (p := p.prepare pf d)).symm).1.question⟩
  unfold Proxy.prepare
  dsimp only
  generalize (if p.enableEDNSClientSubnet then processECS pf p.ednsAddr d else d) = d₁ at hecs
  have hflags : (calcFlagsAndSize d₁).req = d₁.req := by
    unfold calcFlagsAndSize
    split
    · rfl
    · split <;> rfl
  split
  · obtain ⟨extra, hadd⟩ := addDO_eq p (calcFlagsAndSize d₁).req
    rw [hadd, hflags]
    exact hecs
  · rw [hflags]
    exact hecs

/-- What holds on the way of a request. -/
structure OnWay (start limit : Int) (ms : List Msg) (o : Option Nat) (s : State) : Prop where
  limit_eq : start + s.recDetector.ttl = limit
  settled : Settled s
  remembered : ∀ m ∈ ms, Remembers s limit m
  follows : ms.IsChain fun m' m => Follows m m'
  distinct : (ms.map msgToSignature).Nodup
  started : ∀ c, o = some c → s.work c ≠ .idle
  /-- The request that has come in again is none of those that are remembered. -/
  arrived : ∀ c, o = some c → ∀ m', Holds s c m' → m'.question.length ≠ 0 ∧
    msgToSignature m' ∉ ms.map msgToSignature ∧ ∀ m ∈ ms.head?, Follows m m'

variable {start limit : Int} {ms : List Msg} {o : Option Nat}

theorem OnWay.other (h : OnWay start limit ms o s) (htime : a.Between start limit)
    (hstep : step pf p s a = some s') : OnWay start limit ms o s' := by
  have hmoved := moved_step hstep
  refine ⟨hmoved.ttl ▸ h.limit_eq, hmoved.settled h.settled,
    fun m hm => hmoved.remembered h.limit_eq htime (h.remembered m hm), h.follows, h.distinct,
    fun c hc hidle => h.started c hc (hmoved.idle c hidle), fun c hc m' hm' => ?_⟩
  rcases hmoved.holds hm' with hold | ⟨_, -, hidle, -⟩
  · exact h.arrived c hc m' hold
  · exact absurd hidle (h.started c hc)

theorem serve_work {d : DNSContext} (hstep : step pf p s (.serve c d now) = some s') :
    s.work c = .idle ∧ s'.work c ≠ .idle := by
  unfold step at hstep
  dsimp only at hstep
  split at hstep
  · next d' hidle _ =>
    refine ⟨hidle, ?_⟩
    unfold start at hstep
    split at hstep
    · obtain rfl := Option.some.inj hstep
      simp [State.setWork]
    · split at hstep
      · obtain ⟨q, -, rfl⟩ := Option.map_eq_some_iff.mp hstep
        simp only [State.setWork, Function.update_self]
        split <;> exact nofun
      · obtain rfl := Option.some.inj hstep
        simp [State.setWork]
    · cases hstep
  · next hidle _ =>
    obtain rfl := Option.some.inj hstep
    exact ⟨hidle, by simp [State.setWork]⟩
  · cases hstep

theorem OnWay.arrive {d : DNSContext} (h : OnWay start limit (m :: ms) none s)
    (hfollows : Follows m d.req) (htime : (Action.serve c d now).Between start limit)
    (hstep : step pf p s (.serve c d now) = some s') :
    OnWay start limit (m :: ms) (some c) s' := by
  have hmoved := moved_step hstep
  obtain ⟨hidle, hnot⟩ := serve_work hstep
  refine ⟨hmoved.ttl ▸ h.limit_eq, hmoved.settled h.settled,
    fun m hm => hmoved.remembered h.limit_eq htime (h.remembered m hm), h.follows, h.distinct,
    ?_, ?_⟩
  · rintro _ ⟨⟩
    exact hnot
  · rintro _ ⟨⟩ m' hm'
    obtain ⟨d₀, hstarts, -, rfl⟩ :=
      (hmoved.holds hm').resolve_left (not_holds_of_idle h.settled hidle)
    -- The handler has got the request, so that it was not remembered when it came in.
    rcases hstarts with heq | ⟨d', now', heq, hhandled⟩
    · cases heq
    · cases heq
      obtain ⟨⟨r, hd₀⟩, -, hone, hcheck⟩ := processDNSRequest_handled hhandled
      have hreq : d₀.req = d.req := by rw [hd₀]
      obtain ⟨hid, hquestion⟩ := @prepare_signature pf p d₀
      rw [hreq] at hid hquestion
      have hfirst := Msg.firstQuestion_congr hquestion
      refine ⟨by rw [hquestion, hone]; exact Nat.one_ne_zero, fun hmem => ?_, ?_⟩
      · obtain ⟨m', hm', hsig⟩ := List.mem_map.mp hmem
        have hrem : Remembers s limit d.req := by
          obtain ⟨expire, hle, hexpire⟩ := h.remembered m' hm'
          rw [hsig, signature_congr hid hfirst] at hexpire
          exact ⟨expire, hle, hexpire⟩
        cases (check_of_remembers hrem (by rw [hone]; exact Nat.one_ne_zero)
          (htime now rfl).2).symm.trans hcheck
      · rintro _ ⟨⟩
        exact ⟨hfirst.trans hfollows.1, hid ▸ hfollows.2⟩

theorem OnWay.forward (h : OnWay start limit ms (some c) s) (hsends : Sends pf p s a c m now)
    (htime : a.Between start limit) (hstep : step pf p s a = some s') :
    OnWay start limit (m :: ms) none s' := by
  have hmoved := moved_step hstep
  obtain ⟨hq, hnew, hfollows⟩ := h.arrived c rfl m hsends.holds
  refine ⟨hmoved.ttl ▸ h.limit_eq, hmoved.settled h.settled, ?_, ?_, ?_, nofun, nofun⟩
  · refine List.forall_mem_cons.mpr ⟨?_, fun m hm =>
      hmoved.remembered h.limit_eq htime (h.remembered m hm)⟩
    obtain ⟨expire, hle, hexpire⟩ := hsends.remembers hq hstep
    refine ⟨expire, ?_, hexpire⟩
    rw [← h.limit_eq]
    exact Int.le_trans (Int.add_le_add_right (htime now hsends.now_eq).1 _) hle
  · exact List.isChain_cons.mpr ⟨hfollows, h.follows⟩
  · exact List.nodup_cons.mpr ⟨hnew, h.distinct⟩

theorem settled_of_reach {s₀ : State} (hs₀ : Settled s₀)
    (h : Reach pf p s₀ (fun _ _ => True) s) :
    Settled s ∧ s.recDetector.ttl = s₀.recDetector.ttl := by
  induction h with
  | refl => exact ⟨hs₀, rfl⟩
  | step _ _ hstep ih =>
    have hmoved := moved_step hstep
    exact ⟨hmoved.settled ih.1, hmoved.ttl.trans ih.2⟩

theorem Course.onWay {s₀ : State} (hs₀ : Settled s₀) (hlimit : start + s₀.recDetector.ttl = limit)
    (h : Course pf p s₀ start limit ms o s) : OnWay start limit ms o s := by
  induction h with
  | @first s s' a c m now hreach hsends hstart hq hstep =>
    obtain ⟨hsettled, httl⟩ := settled_of_reach hs₀ hreach
    have hmoved := moved_step hstep
    have hrem := hsends.remembers hq hstep
    rw [hstart, httl, hlimit] at hrem
    exact ⟨by rw [hmoved.ttl, httl, hlimit], hmoved.settled hsettled,
      fun _ hm => List.mem_singleton.mp hm ▸ hrem, .singleton m, List.nodup_singleton _, nofun,
      nofun⟩
  | other _ htime hstep ih => exact ih.other htime hstep
  | arrive _ link near hreq htime hstep ih =>
    exact ih.arrive (hreq ▸ follows_request link near _) htime hstep
  | forward _ hsends htime hstep ih => exact ih.forward hsends htime hstep

end Courses

/-- A request that comes back to the proxy over whatever links is sent to the private upstreams
at most three times, as long as the first time is remembered, whatever else the proxy does at
the same time. -/
theorem recursion_bounded (conf : SharedConfig) (rd : RecursionDetector) {start : Int}
    {ms : List Msg} {o : Option Nat} {s : State}
    (h : Course pf p (init p conf rd) start (start + rd.ttl) ms o s) : ms.length ≤ 3 := by
  have hsettled : Settled (init p conf rd) := fun r j hj => by cases hj
  have hway := h.onWay hsettled rfl
  exact length_le_three hway.follows hway.distinct

/-! ### Three times -/

section Three

variable {s₀ s : State} {c : Nat} {d d' d₁ : DNSContext}

/-- The servers fail. -/
def failingEnv : UpstreamEnv := ⟨timingOut, timingOut, timingOut, 0⟩

theorem setWork_self (s : State) (c : Nat) (w : Work) : (s.setWork c w).work c = w :=
  Function.update_self ..

theorem serve_private (hidle : s.work c = .idle)
    (hhandled : p.processDNSRequest pf s.recDetector d .epoch = .handled d')
    (hprep : p.prepare pf d' = (d₁, false)) :
    step pf p s (.serve c d .epoch) = some (s.setWork c (.exchanging d₁ false)) := by
  simp only [step, hidle, hhandled, start, hprep]

theorem send_private (hwork : s.work c = .exchanging d₁ false)
    (hprivate : (p.selectUpstreams pf d₁).1.length ≠ 0 ∧ (p.selectUpstreams pf d₁).2 = true) :
    Sends pf p s (.exchange c failingEnv .epoch) c d₁.req .epoch ∧
      ∃ s', step pf p s (.exchange c failingEnv .epoch) = some s' ∧
        s'.recDetector = s.recDetector.add d₁.req .epoch ∧
        ∀ c', c' ≠ c → s'.work c' = s.work c' := by
  refine ⟨⟨d₁, failingEnv, rfl, hprivate, .inl ⟨rfl, false, hwork⟩⟩, _,
    by simp only [step, hwork]; rfl, if_pos hprivate, fun c' hc => Function.update_of_ne hc _ _⟩

theorem Course.next {limit : Int} {m : Msg} {ms : List Msg}
    (h : Course pf p s₀ 0 limit (m :: ms) none s) (link : Link) (near : Near)
    (hidle : s.work c = .idle) (hreq : d.req = uncompressed (link.request near m))
    (hlimit : 0 < limit) (hhandled : p.processDNSRequest pf s.recDetector d .epoch = .handled d')
    (hprep : p.prepare pf d' = (d₁, false))
    (hprivate : (p.selectUpstreams pf d₁).1.length ≠ 0 ∧ (p.selectUpstreams pf d₁).2 = true) :
    ∃ s', Course pf p s₀ 0 limit (d₁.req :: m :: ms) none s' ∧
      s'.recDetector = s.recDetector.add d₁.req .epoch ∧
      ∀ c', c' ≠ c → s'.work c' = s.work c' := by
  have htime : ∀ a : Action, (∀ now, a.now? = some now → now = .epoch) → a.Between 0 limit := by
    intro a ha now hnow
    rw [ha now hnow]
    exact ⟨Int.le_refl _, hlimit⟩
  have harrived := h.arrive link near hreq
    (htime _ fun now hnow => (Option.some.inj hnow).symm) (serve_private hidle hhandled hprep)
  obtain ⟨hsends, s', hstep, hrd, hothers⟩ := send_private (setWork_self s c _) hprivate
  refine ⟨s', harrived.forward hsends (htime _ fun now hnow => (Option.some.inj hnow).symm) hstep,
    hrd, fun c' hc => (hothers c' hc).trans (Function.update_of_ne hc _ _)⟩

end Three

deriving instance DecidableEq for Served

/-- The private client, which asks about a private address with the given id. -/
def localContext (id : UInt16) : DNSContext :=
  clientContext [192, 168, 0, 2] { ptrQuery localName with id }

/-- The context of the handler, and as it is prepared. -/
def handledContext (id : UInt16) : DNSContext :=
  { localContext id with
    isPrivateClient := true
    requestedPrivateRDNS := some ⟨[192, 168, 0, 7], 32⟩ }

def preparedContext (id : UInt16) : DNSContext :=
  (dns64Proxy.prepare dns64Platform (handledContext id)).1

/-- The request goes out with its id, comes in without one over HTTPS, goes out again, comes in
with a new id over UDP, and goes out a third time. -/
theorem recursion_bounded_reached : ∃ ms s,
    Course dns64Platform dns64Proxy (init dns64Proxy exampleShared noRecursion) 0 second ms none s ∧
      ms.map Msg.id = [9, 0, 1] ∧ ms.length ≤ 3 := by
  have hprep : ∀ id ∈ [1, 0, 9], dns64Proxy.prepare dns64Platform (handledContext id) =
      (preparedContext id, false) := by
    simp only [List.forall_mem_cons]
    exact ⟨by decide +kernel, by decide +kernel, by decide +kernel, List.forall_mem_nil _⟩
  have hprivate : ∀ id ∈ [1, 0, 9],
      (dns64Proxy.selectUpstreams dns64Platform (preparedContext id)).1.length ≠ 0 ∧
        (dns64Proxy.selectUpstreams dns64Platform (preparedContext id)).2 = true := by
    simp only [List.forall_mem_cons]
    exact ⟨by decide +kernel, by decide +kernel, by decide +kernel, List.forall_mem_nil _⟩
  have hfirst : dns64Proxy.processDNSRequest dns64Platform noRecursion (localContext 1) .epoch =
      .handled (handledContext 1) := by decide +kernel
  have hsecond : dns64Proxy.processDNSRequest dns64Platform
      (noRecursion.add (preparedContext 1).req .epoch) (localContext 0) .epoch =
      .handled (handledContext 0) := by decide +kernel
  have hthird : dns64Proxy.processDNSRequest dns64Platform
      ((noRecursion.add (preparedContext 1).req .epoch).add (preparedContext 0).req .epoch)
      (localContext 9) .epoch = .handled (handledContext 9) := by decide +kernel
  let s₀ := init dns64Proxy exampleShared noRecursion
  have hserve : step dns64Platform dns64Proxy s₀ (.serve 0 (localContext 1) .epoch) = _ :=
    serve_private rfl hfirst (hprep 1 (by simp))
  obtain ⟨hsends, s₁, hstep, hrd₁, hidle₁⟩ :=
    send_private (setWork_self s₀ 0 _) (hprivate 1 (by simp))
  have hcourse : Course dns64Platform dns64Proxy s₀ 0 second [(preparedContext 1).req] none s₁ :=
    .first (.step .refl trivial hserve) hsends rfl (by decide +kernel) hstep
  obtain ⟨s₂, hcourse, hrd₂, hidle₂⟩ := hcourse.next .https ⟨9, false, [], []⟩
    (c := 1) (d := localContext 0) (hidle₁ 1 (by decide)) (by decide +kernel) (by decide)
    (by rw [hrd₁]; exact hsecond) (hprep 0 (by simp)) (hprivate 0 (by simp))
  obtain ⟨s₃, hcourse, -, -⟩ := hcourse.next .udp ⟨9, false, [], []⟩
    (c := 2) (d := localContext 9)
    ((hidle₂ 2 (by decide)).trans (hidle₁ 2 (by decide))) (by decide +kernel) (by decide)
    (by rw [hrd₂, hrd₁]; exact hthird) (hprep 9 (by simp)) (hprivate 9 (by simp))
  exact ⟨_, s₃, hcourse, by decide +kernel,
    recursion_bounded exampleShared noRecursion hcourse⟩

end DnsProxy.System
