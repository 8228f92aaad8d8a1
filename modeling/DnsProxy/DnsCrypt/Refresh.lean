import DnsProxy.DnsCrypt.Encryption
import DnsProxy.Lib.Custody
import DnsProxy.Lib.Permits
import DnsProxy.Lib.Tasks

/-!
# Refreshing the shared certificate

The exchanges of a DNSCrypt upstream share one `ResolverInfo`. A call of `certificate` returns
it while its certificate is valid. Otherwise the call takes the slot of the channel `refresh`,
looks again, fetches a certificate, has it verified and publishes it. The context of a call may
be done at any time: the upstream is closed, or the timeout of the exchange has passed.

A state is what the upstream holds and the calls, each at one point of `certificate`. What
happens between two points happens at once: the shared field has a lock, and the rest of the
code touches nothing that is shared.

* `Effect`: what a move can do. `step_effect`: that it does no more.
* `Effect.keeps`, `inv_reached`: the invariant, for one move and for all runs.
* `late_effect`, `late_run`: a call whose context is done before it takes the slot.
* `certificate_refresh`: both together.
-/

namespace DnsProxy.DnsCrypt.Refresh

open Checked Tasks

/-! ## The upstream -/

/-- What `ctx.Err()` returns. -/
inductive ContextError
  | canceled
  | deadlineExceeded
deriving DecidableEq, Repr

/-- The errors of `certificate`. -/
inductive CertificateError (ε : Type)
  | context (err : ContextError)
  /-- "fetching certificate info from %s: %w" -/
  | fetching (address : String) (err : ε)
  /-- "verifying certificate info from %s: %w" -/
  | verifying (address : String) (err : ε)

/-- The fields of a `dnsCrypt` that do not change. -/
structure Settings where
  address : String
  timeout : Int
  /-- There is a callback `verifyCert`. -/
  verifyCert : Bool

/-- The other fields. The last two are a record of what has happened. -/
structure Shared where
  closed : Bool := false
  resolverInfo : Option ResolverInfo := none
  /-- The number of values in the channel, which has room for one. -/
  refresh : Nat := 0
  /-- Those for which `verifyCert` has returned no error. -/
  accepted : List ResolverInfo := []
  /-- The calls that have set `resolverInfo`, and what they have set it to, the last one first. -/
  published : List (Nat × ResolverInfo) := []

def currentCertificate (p : Shared) (now : Int) : Option ResolverInfo :=
  p.resolverInfo.filter fun info => info.resolverCert.verifyDate now

/-! ## A call of `certificate` -/

variable {ε : Type}

/-- What is next. -/
inductive Phase (ε : Type)
  /-- The first `ctx.Err()`. -/
  | started
  /-- The first `currentCertificate`. -/
  | checked
  /-- The `select`. -/
  | waiting
  /-- The second `ctx.Err()`. The call has the slot, up to `leaving`. -/
  | entered
  /-- The second `currentCertificate`. -/
  | rechecked
  /-- `DialContext` returns. -/
  | fetching
  /-- `verifyCert` returns. -/
  | verifying (info : ResolverInfo)
  | publishing (info : ResolverInfo)
  /-- The slot is given back. -/
  | leaving (r : Result (CertificateError ε) ResolverInfo)
  | returned (r : Result (CertificateError ε) ResolverInfo)

/-- The last three fields are a record of what the call has done. -/
structure Call (ε : Type) where
  ctxErr : Option ContextError
  phase : Phase ε := .started
  /-- How often the call has started to fetch. -/
  fetches : Nat := 0
  fetched : Option ResolverInfo := none
  /-- What the call has found valid in the shared field, and when. -/
  read : Option (ResolverInfo × Int) := none

inductive Move (ε : Type)
  /-- The context of the closed upstream cancels that of the call. -/
  | cancel
  | deadline
  | check
  | read (now : Int)
  /-- The `select` sends to the channel. -/
  | enter
  /-- The `select` finds the context done. -/
  | giveUp
  | fetched (outcome : Result ε ResolverInfo)
  | verified (outcome : Result ε Unit)
  | publish
  | leave

/-- One move of the call `i`. A panic unwinds through the deferred function. -/
def step (cfg : Settings) (i : Nat) (p : Shared) (c : Call ε) :
    Move ε → Option (Shared × Call ε)
  | .cancel =>
    if p.closed = true ∧ c.ctxErr = none then some (p, { c with ctxErr := some .canceled })
    else none
  | .deadline =>
    if 0 < cfg.timeout ∧ c.ctxErr = none then
      some (p, { c with ctxErr := some .deadlineExceeded })
    else none
  | .check =>
    match c.phase, c.ctxErr with
    | .started, none => some (p, { c with phase := .checked })
    | .started, some err => some (p, { c with phase := .returned (.error (.context err)) })
    | .entered, none => some (p, { c with phase := .rechecked })
    | .entered, some err => some (p, { c with phase := .leaving (.error (.context err)) })
    | _, _ => none
  | .read now =>
    match c.phase, currentCertificate p now with
    | .checked, some info =>
      some (p, { c with phase := .returned (.ok info), read := some (info, now) })
    | .checked, none => some (p, { c with phase := .waiting })
    | .rechecked, some info =>
      some (p, { c with phase := .leaving (.ok info), read := some (info, now) })
    | .rechecked, none => some (p, { c with phase := .fetching, fetches := c.fetches + 1 })
    | _, _ => none
  | .enter =>
    match c.phase with
    | .waiting =>
      if p.refresh < 1 then
        some ({ p with refresh := p.refresh + 1 }, { c with phase := .entered })
      else none
    | _ => none
  | .giveUp =>
    match c.phase, c.ctxErr with
    | .waiting, some err => some (p, { c with phase := .returned (.error (.context err)) })
    | _, _ => none
  | .fetched outcome =>
    match c.phase, outcome with
    | .fetching, .ok info =>
      some (p, { c with
        fetched := some info
        phase := if cfg.verifyCert then .verifying info else .publishing info })
    | .fetching, .error err =>
      some (p, { c with phase := .leaving (.error (.fetching cfg.address err)) })
    | .fetching, .panic => some (p, { c with phase := .leaving .panic })
    | _, _ => none
  | .verified outcome =>
    match c.phase, outcome with
    | .verifying info, .ok () =>
      some ({ p with accepted := info :: p.accepted }, { c with phase := .publishing info })
    | .verifying _, .error err =>
      some (p, { c with phase := .leaving (.error (.verifying cfg.address err)) })
    | .verifying _, .panic => some (p, { c with phase := .leaving .panic })
    | _, _ => none
  | .publish =>
    match c.phase with
    | .publishing info =>
      some ({ p with resolverInfo := some info, published := (i, info) :: p.published },
        { c with phase := .leaving (.ok info) })
    | _ => none
  | .leave =>
    match c.phase with
    | .leaving r =>
      if 0 < p.refresh then
        some ({ p with refresh := p.refresh - 1 }, { c with phase := .returned r })
      else none
    | _ => none

/-- What a move does to the upstream and the call. -/
inductive Effect (cfg : Settings) (i : Nat) (p : Shared) (c : Call ε) : Shared → Call ε → Prop
  | contextDone (err : ContextError) (hctx : c.ctxErr = none) :
      Effect cfg i p c p { c with ctxErr := some err }
  | check (hphase : c.phase = .started) (hctx : c.ctxErr = none) :
      Effect cfg i p c p { c with phase := .checked }
  /-- The first look at the context, or the `select`. -/
  | refuse (err : ContextError) (hphase : c.phase = .started ∨ c.phase = .waiting)
      (hctx : c.ctxErr = some err) :
      Effect cfg i p c p { c with phase := .returned (.error (.context err)) }
  | hit (info : ResolverInfo) (now : Int) (hphase : c.phase = .checked)
      (hcurrent : currentCertificate p now = some info) :
      Effect cfg i p c p { c with phase := .returned (.ok info), read := some (info, now) }
  | miss (hphase : c.phase = .checked) : Effect cfg i p c p { c with phase := .waiting }
  | enter (hphase : c.phase = .waiting) (hfree : p.refresh < 1) :
      Effect cfg i p c { p with refresh := p.refresh + 1 } { c with phase := .entered }
  | recheck (hphase : c.phase = .entered) (hctx : c.ctxErr = none) :
      Effect cfg i p c p { c with phase := .rechecked }
  | stop (err : ContextError) (hphase : c.phase = .entered) (hctx : c.ctxErr = some err) :
      Effect cfg i p c p { c with phase := .leaving (.error (.context err)) }
  | rehit (info : ResolverInfo) (now : Int) (hphase : c.phase = .rechecked)
      (hcurrent : currentCertificate p now = some info) :
      Effect cfg i p c p { c with phase := .leaving (.ok info), read := some (info, now) }
  | fetch (hphase : c.phase = .rechecked) :
      Effect cfg i p c p { c with phase := .fetching, fetches := c.fetches + 1 }
  | fetched (info : ResolverInfo) (hphase : c.phase = .fetching) :
      Effect cfg i p c p { c with
        fetched := some info
        phase := if cfg.verifyCert then .verifying info else .publishing info }
  | accept (info : ResolverInfo) (hphase : c.phase = .verifying info) :
      Effect cfg i p c { p with accepted := info :: p.accepted }
        { c with phase := .publishing info }
  /-- The fetch or the verification has failed. -/
  | fail (r : Result (CertificateError ε) ResolverInfo)
      (hphase : c.phase = .fetching ∨ ∃ info, c.phase = .verifying info)
      (hr : ∀ info, r ≠ .ok info) : Effect cfg i p c p { c with phase := .leaving r }
  | publish (info : ResolverInfo) (hphase : c.phase = .publishing info) :
      Effect cfg i p c
        { p with resolverInfo := some info, published := (i, info) :: p.published }
        { c with phase := .leaving (.ok info) }
  | leave (r : Result (CertificateError ε) ResolverInfo) (hphase : c.phase = .leaving r)
      (htaken : 0 < p.refresh) :
      Effect cfg i p c { p with refresh := p.refresh - 1 } { c with phase := .returned r }

variable {cfg : Settings} {i : Nat} {p p' : Shared} {c : Call ε}

theorem step_effect {c' : Call ε} {m : Move ε} (h : step cfg i p c m = some (p', c')) :
    Effect cfg i p c p' c' := by
  cases m <;> simp only [step] at h
  case cancel =>
    split at h <;> cases h
    next hdone => exact .contextDone _ hdone.2
  case deadline =>
    split at h <;> cases h
    next hdone => exact .contextDone _ hdone.2
  case check =>
    split at h <;> cases h
    · next hphase hctx => exact .check hphase hctx
    · next err hphase hctx => exact .refuse err (Or.inl hphase) hctx
    · next hphase hctx => exact .recheck hphase hctx
    · next err hphase hctx => exact .stop err hphase hctx
  case read now =>
    split at h <;> cases h
    · next info hphase hcurrent => exact .hit info now hphase hcurrent
    · next hphase _ => exact .miss hphase
    · next info hphase hcurrent => exact .rehit info now hphase hcurrent
    · next hphase _ => exact .fetch hphase
  case enter =>
    split at h
    · next hphase =>
      split at h <;> cases h
      next hfree => exact .enter hphase hfree
    · cases h
  case giveUp =>
    split at h <;> cases h
    next err hphase hctx => exact .refuse err (Or.inr hphase) hctx
  case fetched outcome =>
    split at h <;> cases h
    · next info hphase => exact .fetched info hphase
    · next err hphase => exact .fail _ (Or.inl hphase) nofun
    · next hphase => exact .fail _ (Or.inl hphase) nofun
  case verified outcome =>
    split at h <;> cases h
    · next info hphase => exact .accept info hphase
    · next info err hphase => exact .fail _ (Or.inr ⟨info, hphase⟩) nofun
    · next info hphase => exact .fail _ (Or.inr ⟨info, hphase⟩) nofun
  case publish =>
    split at h <;> cases h
    next info hphase => exact .publish info hphase
  case leave =>
    split at h
    · next r hphase =>
      split at h <;> cases h
      next htaken => exact .leave r hphase htaken
    · cases h

/-! ## The system -/

abbrev State (ε : Type) := System Shared (Call ε)

inductive Action (ε : Type)
  /-- `Exchange` calls `certificate`. -/
  | call
  /-- `Close`. -/
  | close
  | move (i : Nat) (m : Move ε)

/-- The action is a move of the call `i`. -/
def Action.isMove (i : Nat) : Action ε → Bool
  | .move j _ => i = j
  | _ => false

def next (cfg : Settings) (s : State ε) : Action ε → Option (State ε)
  | .call => some (s.spawn { ctxErr := if s.shared.closed then some .canceled else none })
  | .close => some { s with shared := { s.shared with closed := true } }
  | .move i m =>
    (s.tasks[i]?).bind fun c => (step cfg i s.shared c m).map fun (p, c) => s.put i p c

def init : State ε := { shared := {} }

/-- The states of all interleavings. -/
def Reached (cfg : Settings) : State ε → Prop := Runs.Run (next cfg) Runs.anyStep init

theorem next_move {s s' : State ε} {m : Move ε} (h : next cfg s (.move i m) = some s') :
    ∃ c p' c', s.tasks[i]? = some c ∧ step cfg i s.shared c m = some (p', c') ∧
      s' = s.put i p' c' := by
  obtain ⟨c, hc, hmap⟩ := Option.bind_eq_some_iff.1 h
  obtain ⟨⟨p', c'⟩, hstep, rfl⟩ := Option.map_eq_some_iff.1 hmap
  exact ⟨c, p', c', hc, hstep, rfl⟩

/-! ## The invariant -/

/-- The call has the slot. -/
def Call.inside (c : Call ε) : Bool :=
  match c.phase with
  | .started | .checked | .waiting | .returned _ => false
  | _ => true

def Call.isFetching (c : Call ε) : Bool :=
  match c.phase with
  | .fetching => true
  | _ => false

/-- The info has passed the callback, if there is one. -/
def Passed (cfg : Settings) (p : Shared) (info : ResolverInfo) : Prop :=
  cfg.verifyCert = true → info ∈ p.accepted

structure Shared.Ok (cfg : Settings) (p : Shared) : Prop where
  field : p.resolverInfo = p.published.head?.map Prod.snd
  passed : ∀ x ∈ p.published, Passed cfg p x.2

/-- Where the info that a call returns comes from. -/
def Call.Sourced (c : Call ε) (info : ResolverInfo) : Prop :=
  (∃ now, c.read = some (info, now) ∧ info.resolverCert.verifyDate now = true) ∨
    c.fetched = some info

/-- The call has published nothing. -/
def Silent (p : Shared) (i : Nat) : Prop := ∀ x ∈ p.published, x.1 ≠ i

/-- What is known of the result of a call. -/
def Call.ResultOk (cfg : Settings) (p : Shared) (i : Nat) (c : Call ε) :
    Result (CertificateError ε) ResolverInfo → Prop
  | .ok info => c.Sourced info ∧ Passed cfg p info
  | _ => Silent p i

def Call.Ok (cfg : Settings) (p : Shared) (i : Nat) (c : Call ε) : Prop :=
  match c.phase with
  | .started | .checked | .waiting | .entered | .rechecked => c.fetches = 0 ∧ Silent p i
  | .fetching => Silent p i
  | .verifying info => c.fetched = some info ∧ Silent p i
  | .publishing info => c.fetched = some info ∧ Silent p i ∧ Passed cfg p info
  | .leaving r | .returned r => c.ResultOk cfg p i r

/-- What a move of the call `i` does to the record. -/
structure Grows (i : Nat) (p p' : Shared) : Prop where
  accepted : p.accepted ⊆ p'.accepted
  published : ∀ x ∈ p'.published, x ∈ p.published ∨ x.1 = i

theorem Grows.refl (i : Nat) (p : Shared) : Grows i p p := ⟨fun _ h => h, fun _ h => Or.inl h⟩

theorem Passed.mono {info : ResolverInfo} (h : Passed cfg p info) (hp : Grows i p p') :
    Passed cfg p' info :=
  fun hset => hp.accepted (h hset)

theorem Silent.mono {j : Nat} (h : Silent p j) (hp : Grows i p p') (hij : j ≠ i) : Silent p' j := by
  intro x hx
  rcases hp.published x hx with hmem | rfl
  · exact h x hmem
  · exact hij.symm

theorem Call.ResultOk.mono {j : Nat} {r : Result (CertificateError ε) ResolverInfo}
    (h : c.ResultOk cfg p j r) (hp : Grows i p p') (hij : j ≠ i) : c.ResultOk cfg p' j r := by
  cases r with
  | ok info => exact ⟨h.1, h.2.mono hp⟩
  | error err => exact Silent.mono h hp hij
  | panic => exact Silent.mono h hp hij

theorem Call.Ok.mono {j : Nat} (h : c.Ok cfg p j) (hp : Grows i p p') (hij : j ≠ i) :
    c.Ok cfg p' j := by
  unfold Call.Ok at h ⊢
  cases hphase : c.phase <;> rw [hphase] at h
  case fetching => exact h.mono hp hij
  case publishing info => exact ⟨h.1, h.2.1.mono hp hij, h.2.2.mono hp⟩
  case leaving r => exact h.mono hp hij
  case returned r => exact h.mono hp hij
  all_goals exact ⟨h.1, h.2.mono hp hij⟩

theorem Shared.Ok.current {now : Int} {info : ResolverInfo} (hp : p.Ok cfg)
    (h : currentCertificate p now = some info) :
    info.resolverCert.verifyDate now = true ∧ Passed cfg p info := by
  obtain ⟨hfield, hdate⟩ := Option.filter_eq_some_iff.1 h
  rw [hp.field] at hfield
  obtain ⟨x, hx, rfl⟩ := Option.map_eq_some_iff.1 hfield
  exact ⟨hdate, hp.passed x (List.mem_of_head? hx)⟩

/-- What a move of the call `i` keeps. The slot is counted for the calls that have it. -/
structure Keeps (cfg : Settings) (i : Nat) (p : Shared) (c : Call ε) (p' : Shared)
    (c' : Call ε) : Prop where
  shared : p'.Ok cfg
  grows : Grows i p p'
  call : c'.Ok cfg p' i
  slot : p'.refresh + (if c.inside then 1 else 0) = p.refresh + if c'.inside then 1 else 0
  one : p.refresh ≤ 1 → p'.refresh ≤ 1

section Moves

variable {cfg : Settings} {i : Nat} {p p' : Shared} {c c' : Call ε}

theorem Keeps.quiet (hp : p.Ok cfg) (hc : c'.Ok cfg p i) (hslot : c'.inside = c.inside) :
    Keeps cfg i p c p c' :=
  ⟨hp, .refl i p, hc, by rw [hslot], id⟩

theorem resultOk_of_silent {r : Result (CertificateError ε) ResolverInfo} (h : Silent p i)
    (hr : ∀ info, r ≠ .ok info) : c.ResultOk cfg p i r := by
  cases r with
  | ok info => exact absurd rfl (hr info)
  | error err => exact h
  | panic => exact h

theorem Effect.keeps (h : Effect cfg i p c p' c') (hp : p.Ok cfg) (hc : c.Ok cfg p i) :
    Keeps cfg i p c p' c' := by
  unfold Call.Ok at hc
  cases h with
  | contextDone err _ => exact .quiet hp hc rfl
  | check hphase _ =>
    rw [hphase] at hc
    exact .quiet hp hc (by simp [Call.inside, hphase])
  | refuse err hphase _ =>
    have hsilent : Silent p i := by
      rcases hphase with hphase | hphase <;> rw [hphase] at hc <;> exact hc.2
    refine .quiet hp hsilent ?_
    rcases hphase with hphase | hphase <;> simp [Call.inside, hphase]
  | hit info now hphase hcurrent =>
    obtain ⟨hdate, hpassed⟩ := hp.current hcurrent
    exact .quiet hp ⟨Or.inl ⟨now, rfl, hdate⟩, hpassed⟩ (by simp [Call.inside, hphase])
  | miss hphase =>
    rw [hphase] at hc
    exact .quiet hp hc (by simp [Call.inside, hphase])
  | enter hphase hfree =>
    rw [hphase] at hc
    exact ⟨⟨hp.field, hp.passed⟩, ⟨fun _ h => h, fun _ h => Or.inl h⟩, hc,
      by simp [Call.inside, hphase], fun _ => hfree⟩
  | recheck hphase _ =>
    rw [hphase] at hc
    exact .quiet hp hc (by simp [Call.inside, hphase])
  | stop err hphase _ =>
    rw [hphase] at hc
    exact .quiet hp hc.2 (by simp [Call.inside, hphase])
  | rehit info now hphase hcurrent =>
    obtain ⟨hdate, hpassed⟩ := hp.current hcurrent
    exact .quiet hp ⟨Or.inl ⟨now, rfl, hdate⟩, hpassed⟩ (by simp [Call.inside, hphase])
  | fetch hphase =>
    rw [hphase] at hc
    exact .quiet hp hc.2 (by simp [Call.inside, hphase])
  | fetched info hphase =>
    rw [hphase] at hc
    -- Without a callback the info is published as it is.
    cases hset : cfg.verifyCert with
    | true => exact .quiet hp ⟨rfl, hc⟩ (by simp [Call.inside, hphase])
    | false =>
      exact .quiet hp ⟨rfl, hc, by simp [Passed, hset]⟩ (by simp [Call.inside, hphase])
  | accept info hphase =>
    rw [hphase] at hc
    have hgrows : Grows i p { p with accepted := info :: p.accepted } :=
      ⟨List.subset_cons_self _ _, fun _ h => Or.inl h⟩
    exact ⟨⟨hp.field, fun x hx => (hp.passed x hx).mono hgrows⟩, hgrows,
      ⟨hc.1, hc.2, fun _ => List.mem_cons_self⟩, by simp [Call.inside, hphase], id⟩
  | fail r hphase hr =>
    have hsilent : Silent p i := by
      rcases hphase with hphase | ⟨info, hphase⟩ <;> rw [hphase] at hc
      · exact hc
      · exact hc.2
    refine .quiet hp (resultOk_of_silent hsilent hr) ?_
    rcases hphase with hphase | ⟨info, hphase⟩ <;> simp [Call.inside, hphase]
  | publish info hphase =>
    rw [hphase] at hc
    obtain ⟨hfetched, _, hpassed⟩ := hc
    refine ⟨⟨rfl, ?_⟩, ⟨fun _ h => h, ?_⟩, ⟨Or.inr hfetched, hpassed⟩,
      by simp [Call.inside, hphase], id⟩
    · exact List.forall_mem_cons.2 ⟨hpassed, hp.passed⟩
    · exact List.forall_mem_cons.2 ⟨Or.inr rfl, fun _ h => Or.inl h⟩
  | leave r hphase htaken =>
    rw [hphase] at hc
    have hgrows : Grows i p { p with refresh := p.refresh - 1 } :=
      ⟨fun _ h => h, fun _ h => Or.inl h⟩
    refine ⟨⟨hp.field, hp.passed⟩, hgrows, hc, ?_, (Nat.sub_le _ _).trans⟩
    simp only [Call.inside, hphase]
    exact Nat.sub_add_cancel htaken

end Moves

/-! ## Runs -/

structure Inv (cfg : Settings) (s : State ε) : Prop where
  shared : s.shared.Ok cfg
  calls : Each (fun p i c => c.Ok cfg p i) s
  slot : s.shared.refresh = s.tasks.countP Call.inside
  one : s.shared.refresh ≤ 1
  known : ∀ x ∈ s.shared.published, x.1 < s.tasks.length

section Runs

variable {cfg : Settings} {s s' : State ε} {a : Action ε}

theorem inv_init : Inv cfg (init : State ε) where
  shared := ⟨rfl, nofun⟩
  calls _ _ hi := absurd hi (by simp [init])
  slot := rfl
  one := Nat.zero_le _
  known := nofun

theorem Inv.call (h : Inv cfg s) (ctxErr : Option ContextError) :
    Inv cfg (s.spawn { ctxErr := ctxErr }) where
  shared := h.shared
  calls := h.calls.spawn ⟨rfl, fun x hx => (h.known x hx).ne⟩
  slot := by
    rw [System.spawn, List.countP_append]
    exact h.slot
  one := h.one
  known x hx := by
    rw [System.spawn, List.length_append]
    exact Nat.lt_add_right 1 (h.known x hx)

theorem Inv.close (h : Inv cfg s) :
    Inv cfg { s with shared := { s.shared with closed := true } } where
  shared := ⟨h.shared.field, h.shared.passed⟩
  calls := h.calls
  slot := h.slot
  one := h.one
  known := h.known

theorem Inv.move (h : Inv cfg s) {i : Nat} {m : Move ε} (hs : next cfg s (.move i m) = some s') :
    Inv cfg s' := by
  obtain ⟨c, p', c', hi, hstep, rfl⟩ := next_move hs
  have hkeeps := (step_effect hstep).keeps h.shared (h.calls i c hi)
  refine ⟨hkeeps.shared, ?_, ?_, hkeeps.one h.one, ?_⟩
  · exact h.calls.put hi hkeeps.call fun j d hj hd => hd.mono hkeeps.grows hj
  · have hcount := Permits.Pool.countP_set_add Call.inside hi c'
    have hslot := hkeeps.slot
    rw [h.slot] at hslot
    show p'.refresh = (s.tasks.set i c').countP Call.inside
    omega
  · intro x hx
    rw [System.put, List.length_set]
    rcases hkeeps.grows.published x hx with hmem | rfl
    · exact h.known x hmem
    · exact (List.getElem?_eq_some_iff.1 hi).1

theorem Inv.next (h : Inv cfg s) (hs : next cfg s a = some s') : Inv cfg s' := by
  cases a with
  | call =>
    cases hs
    exact h.call _
  | close =>
    cases hs
    exact h.close
  | move i m => exact h.move hs

theorem inv_reached (h : Reached cfg s) : Inv cfg s :=
  h.invariant inv_init fun _ _ _ hinv _ hs => hinv.next hs

theorem Inv.fetching_le (h : Inv cfg s) : s.tasks.countP Call.isFetching ≤ 1 := by
  have hmono : s.tasks.countP Call.isFetching ≤ s.tasks.countP Call.inside := by
    refine List.countP_mono_left fun c _ hc => ?_
    unfold Call.isFetching at hc
    unfold Call.inside
    split at hc
    · next hphase => rw [hphase]
    · cases hc
  exact hmono.trans (h.slot ▸ h.one)

theorem Inv.taken (h : Inv cfg s) {i : Nat} {c : Call ε} (hi : s.tasks[i]? = some c)
    (hc : c.inside = true) : 0 < s.shared.refresh := by
  rw [h.slot]
  exact List.countP_pos_iff.2 ⟨c, List.mem_of_getElem? hi, hc⟩

end Runs

/-! ## Calls whose context is done -/

/-- The call has not yet had the slot, and may still ask for it. -/
def Call.Before (c : Call ε) : Prop :=
  match c.phase with
  | .started | .checked | .waiting => True
  | _ => False

/-- A call whose context was done before it had the slot. `fast` tells that it was about to
read the shared field for the first time. -/
def Late (fast : Prop) (err : ContextError) (c : Call ε) : Prop :=
  c.ctxErr = some err ∧ c.fetches = 0 ∧
  match c.phase with
  | .started | .waiting | .entered => True
  | .checked => fast
  | .leaving r => r = .error (.context err)
  | .returned r => r = .error (.context err) ∨
      fast ∧ ∃ info now, r = .ok info ∧ c.read = some (info, now) ∧
        info.resolverCert.verifyDate now = true
  | _ => False

/-- How many moves such a call has left. -/
def Call.left (c : Call ε) : Nat :=
  match c.phase with
  | .checked => 4
  | .waiting => 3
  | .entered => 2
  | .started | .leaving _ => 1
  | _ => 0

section Late

variable {fast : Prop} {err : ContextError} {cfg : Settings} {i : Nat} {p p' : Shared}
  {c c' : Call ε}

/-- Such a call stays so, and comes closer to its return. -/
theorem late_effect (hc : Late fast err c) (h : Effect cfg i p c p' c') :
    Late fast err c' ∧ c'.left < c.left := by
  obtain ⟨hctx, hfetches, hphase⟩ := hc
  cases h with
  | check _ hnone | recheck _ hnone | contextDone _ hnone =>
    rw [hctx] at hnone
    cases hnone
  | refuse err' hbefore herr =>
    obtain rfl := Option.some.inj (hctx.symm.trans herr)
    refine ⟨⟨hctx, hfetches, Or.inl rfl⟩, ?_⟩
    rcases hbefore with hbefore | hbefore <;> simp [Call.left, hbefore]
  | hit info now hchecked hcurrent =>
    rw [hchecked] at hphase
    have hdate := (Option.filter_eq_some_iff.1 hcurrent).2
    exact ⟨⟨hctx, hfetches, Or.inr ⟨hphase, info, now, rfl, rfl, hdate⟩⟩,
      by simp [Call.left, hchecked]⟩
  | miss hchecked => exact ⟨⟨hctx, hfetches, trivial⟩, by simp [Call.left, hchecked]⟩
  | enter hwaiting _ => exact ⟨⟨hctx, hfetches, trivial⟩, by simp [Call.left, hwaiting]⟩
  | stop err' hentered herr =>
    obtain rfl := Option.some.inj (hctx.symm.trans herr)
    exact ⟨⟨hctx, hfetches, rfl⟩, by simp [Call.left, hentered]⟩
  | leave r hleaving _ =>
    rw [hleaving] at hphase
    exact ⟨⟨hctx, hfetches, Or.inl hphase⟩, by simp [Call.left, hleaving]⟩
  -- The second look at the context comes before the others.
  | rehit _ _ hlater | fetch hlater | fetched _ hlater | accept _ hlater | publish _ hlater =>
    rw [hlater] at hphase
    cases hphase
  | fail r hlater _ =>
    rcases hlater with hlater | ⟨_, hlater⟩ <;> rw [hlater] at hphase <;> cases hphase

variable {s s' : State ε}

theorem late_next {a : Action ε} (hi : s.tasks[i]? = some c) (hc : Late fast err c)
    (hs : next cfg s a = some s') : ∃ c', s'.tasks[i]? = some c' ∧ Late fast err c' ∧
      (if a.isMove i then 1 else 0) + c'.left ≤ c.left := by
  cases a with
  | call =>
    cases hs
    exact ⟨c, System.getElem?_spawn hi _, hc, by simp [Action.isMove]⟩
  | close =>
    cases hs
    exact ⟨c, hi, hc, by simp [Action.isMove]⟩
  | move j m =>
    obtain ⟨d, p', d', hj, hstep, rfl⟩ := next_move hs
    by_cases hij : i = j
    · subst hij
      obtain rfl : c = d := Option.some.inj (hi.symm.trans hj)
      obtain ⟨hlate, hless⟩ := late_effect hc (step_effect hstep)
      refine ⟨d', System.getElem?_put_self hi d', hlate, ?_⟩
      simp only [Action.isMove, decide_true, if_true]
      omega
    · refine ⟨c, ?_, hc, by simp [Action.isMove, hij]⟩
      rw [System.getElem?_put_ne (Ne.symm hij)]
      exact hi

theorem late_run {as : List (Action ε)} (hi : s.tasks[i]? = some c) (hc : Late fast err c)
    (hs : Runs.replay (next cfg) (fun _ _ => true) s as = some s') :
    ∃ c', s'.tasks[i]? = some c' ∧ Late fast err c' ∧
      as.countP (·.isMove i) + c'.left ≤ c.left := by
  induction as generalizing s c with
  | nil =>
    cases hs
    exact ⟨c, hi, hc, by simp⟩
  | cons a as ih =>
    rw [Runs.replay, if_pos rfl] at hs
    obtain ⟨t, ht, hrest⟩ := Option.bind_eq_some_iff.1 hs
    obtain ⟨d, hd, hlate, hless⟩ := late_next hi hc ht
    obtain ⟨c', hc', hlate', hless'⟩ := ih hd hlate hrest
    refine ⟨c', hc', hlate', ?_⟩
    rw [List.countP_cons]
    omega

theorem Late.returned (hc : Late fast err c) (hleft : c.left = 0) :
    c.phase = .returned (.error (.context err)) ∨
      fast ∧ ∃ info now, c.phase = .returned (.ok info) ∧ c.read = some (info, now) ∧
        info.resolverCert.verifyDate now = true := by
  obtain ⟨_, _, hphase⟩ := hc
  cases hcase : c.phase <;> simp_all [Call.left]

theorem late_free (h : Inv cfg s) (hi : s.tasks[i]? = some c) (hc : Late fast err c)
    (hleft : 0 < c.left) : ∃ m, next cfg s (.move i m) ≠ none := by
  obtain ⟨hctx, _, hphase⟩ := hc
  have hmove {m : Move ε} (hm : step cfg i s.shared c m ≠ none) :
      next cfg s (.move i m) ≠ none := by
    simpa [next, hi] using hm
  cases hcase : c.phase <;> rw [hcase] at hphase
  case started | entered => exact ⟨.check, hmove (by simp [step, hcase, hctx])⟩
  case checked =>
    refine ⟨.read 0, hmove ?_⟩
    cases hcurrent : currentCertificate s.shared 0 <;> simp [step, hcase, hcurrent]
  case waiting => exact ⟨.giveUp, hmove (by simp [step, hcase, hctx])⟩
  case leaving r =>
    have htaken := h.taken hi (by simp [Call.inside, hcase])
    exact ⟨.leave, hmove (by simp [step, hcase, htaken])⟩
  case returned r => simp [Call.left, hcase] at hleft
  all_goals exact absurd hphase id

end Late

/-- The call has returned, or is about to return, without an info. -/
def Call.Failed (c : Call ε) : Prop :=
  ∃ r, (c.phase = .leaving r ∨ c.phase = .returned r) ∧ ∀ info, r ≠ .ok info

theorem Call.Ok.result {r : Result (CertificateError ε) ResolverInfo} (h : c.Ok cfg p i)
    (hc : c.phase = .leaving r ∨ c.phase = .returned r) : c.ResultOk cfg p i r := by
  unfold Call.Ok at h
  rcases hc with hc | hc
  · rwa [hc] at h
  · rwa [hc] at h

theorem Call.Before.late {err : ContextError} (hc : c.Before) (hok : c.Ok cfg p i)
    (herr : c.ctxErr = some err) : Late (c.phase = .checked) err c := by
  unfold Call.Before at hc
  unfold Call.Ok at hok
  cases hphase : c.phase <;> simp_all [Late]

/-- In every interleaving, whatever the fetches and verifications return:

1. at most one call fetches;
2. an info that is returned was valid when the call read it from the shared field, or was
   fetched by the call;
3. what was published or returned has passed the callback, if there is one;
4. the shared field is what was published last, and a call that fails has published nothing;
5. a call whose context is done before it takes the slot never fetches. Whatever the others do,
   it can move until it has returned, and makes four moves at most. It returns the error of the
   context, or, if it was past the first look at the context, the info that it finds valid in
   the shared field before it asks for the slot. -/
theorem certificate_refresh (cfg : Settings) (s : State ε) (h : Reached cfg s) :
    s.tasks.countP Call.isFetching ≤ 1 ∧
    (∀ c ∈ s.tasks, ∀ info, c.phase = .returned (.ok info) → c.Sourced info) ∧
    ((∀ x ∈ s.shared.published, Passed cfg s.shared x.2) ∧
      ∀ c ∈ s.tasks, ∀ info, c.phase = .returned (.ok info) → Passed cfg s.shared info) ∧
    (s.shared.resolverInfo = s.shared.published.head?.map Prod.snd ∧
      ∀ i c, s.tasks[i]? = some c → c.Failed → ∀ x ∈ s.shared.published, x.1 ≠ i) ∧
    ∀ i c err, s.tasks[i]? = some c → c.Before → c.ctxErr = some err →
      ∀ as s', Runs.replay (next cfg) (fun _ _ => true) s as = some s' →
        as.countP (·.isMove i) ≤ 4 ∧
        ∃ c', s'.tasks[i]? = some c' ∧ c'.fetches = 0 ∧
          ((∃ m, next cfg s' (.move i m) ≠ none) ∨
            c'.phase = .returned (.error (.context err)) ∨
            c.phase = .checked ∧ ∃ info now, c'.phase = .returned (.ok info) ∧
              c'.read = some (info, now) ∧ info.resolverCert.verifyDate now = true) := by
  have hinv := inv_reached h
  have hresult : ∀ c ∈ s.tasks, ∀ info, c.phase = .returned (.ok info) →
      c.Sourced info ∧ Passed cfg s.shared info := by
    intro c hc info hphase
    obtain ⟨i, hi⟩ := List.mem_iff_getElem?.1 hc
    exact (hinv.calls i c hi).result (Or.inr hphase)
  refine ⟨hinv.fetching_le, fun c hc info hphase => (hresult c hc info hphase).1,
    ⟨hinv.shared.passed, fun c hc info hphase => (hresult c hc info hphase).2⟩,
    ⟨hinv.shared.field, ?_⟩, ?_⟩
  · rintro i c hi ⟨r, hphase, hfailed⟩
    have hok := (hinv.calls i c hi).result hphase
    cases r with
    | ok info => exact absurd rfl (hfailed info)
    | error err => exact hok
    | panic => exact hok
  · intro i c err hi hbefore herr as s' hs
    have hlate := hbefore.late (hinv.calls i c hi) herr
    obtain ⟨c', hi', hlate', hmoves⟩ := late_run hi hlate hs
    have hleft : c.left ≤ 4 := by
      unfold Call.left
      split <;> decide
    have hinv' : Inv cfg s' := (Runs.run_of_replay hs .refl).invariant hinv
      fun _ _ _ hinv _ hs => hinv.next hs
    refine ⟨by omega, c', hi', hlate'.2.1, ?_⟩
    rcases Nat.eq_zero_or_pos c'.left with hzero | hpos
    · exact Or.inr (hlate'.returned hzero)
    · exact Or.inl (late_free hinv' hi' hlate' hpos)

/-- A certificate for the seconds up to 100. -/
def exampleInfo : ResolverInfo where
  publicKey := Octets.zero keySize
  sharedKey := Octets.zero keySize
  resolverCert :=
    { serial := 1, esVersion := 1, signature := Octets.zero signatureSize
      resolverPk := Octets.zero keySize, resolverSk := Octets.zero keySize
      clientMagic := Octets.zero clientMagicSize, notBefore := 0, notAfter := 100 }

/-- A call finds no certificate, fetches one and publishes it. Another call looks at its context
before the deadline, which then passes. -/
def exampleRun : List (Action Unit) :=
  [.call, .move 0 .check, .move 0 (.read 10), .move 0 .enter, .move 0 .check,
    .move 0 (.read 10), .move 0 (.fetched (.ok exampleInfo)), .move 0 (.verified (.ok ())),
    .move 0 .publish, .move 0 .leave, .call, .move 1 .check, .move 1 .deadline]

def exampleSettings : Settings := { address := "sdns://", timeout := 1, verifyCert := true }

theorem certificate_refresh_example :
    ∃ s s' : State Unit, Reached exampleSettings s ∧
      Runs.replay (next exampleSettings) (fun _ _ => true) s [.move 1 (.read 200)] = some s' ∧
      ∃ c, s'.tasks[1]? = some c ∧ c.fetches = 0 := by
  obtain ⟨s, s', hs, ⟨c, hc, hbefore, herr⟩, hs'⟩ : ∃ s s' : State Unit,
      Runs.replay (next exampleSettings) (fun _ _ => true) init exampleRun = some s ∧
      (∃ c, s.tasks[1]? = some c ∧ c.Before ∧ c.ctxErr = some .deadlineExceeded) ∧
      Runs.replay (next exampleSettings) (fun _ _ => true) s [.move 1 (.read 200)] = some s' :=
    ⟨_, _, rfl, ⟨_, rfl, trivial, rfl⟩, rfl⟩
  have hrun : Reached exampleSettings s := (Runs.run_of_replay hs .refl).any
  obtain ⟨_, c', hc', hfetches, _⟩ :=
    (certificate_refresh exampleSettings s hrun).2.2.2.2 1 c _ hc hbefore herr _ s' hs'
  exact ⟨s, s', hrun, hs', c', hc', hfetches⟩

/-- The context of the second call is done, and it has not asked for the slot. It returns the
info of the first, not the error of its context. -/
theorem cached_after_deadline :
    ∃ s s' : State Unit, Reached exampleSettings s ∧
      (∃ c, s.tasks[1]? = some c ∧ c.Before ∧ c.ctxErr = some .deadlineExceeded) ∧
      next exampleSettings s (.move 1 (.read 20)) = some s' ∧
      ∃ c, s'.tasks[1]? = some c ∧ c.phase = .returned (.ok exampleInfo) := by
  obtain ⟨s, s', hs, hdone, hs', hreturned⟩ : ∃ s s' : State Unit,
      Runs.replay (next exampleSettings) (fun _ _ => true) init exampleRun = some s ∧
      (∃ c, s.tasks[1]? = some c ∧ c.Before ∧ c.ctxErr = some .deadlineExceeded) ∧
      next exampleSettings s (.move 1 (.read 20)) = some s' ∧
      ∃ c, s'.tasks[1]? = some c ∧ c.phase = .returned (.ok exampleInfo) :=
    ⟨_, _, rfl, ⟨_, rfl, trivial, rfl⟩, rfl, _, rfl, rfl⟩
  exact ⟨s, s', (Runs.run_of_replay hs .refl).any, hdone, hs', hreturned⟩

end DnsProxy.DnsCrypt.Refresh
