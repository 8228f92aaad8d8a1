import DnsProxy.Lib.SingleFlight
import DnsProxy.PendingKey

/-!
# Pending requests

`defaultPendingRequests` for any number of `Resolve` calls. A call is `queue` and,
if that returned false, a later `done`, which computes the key again from the
context it is given. The steps are the accesses to the shared map and to the stored
requests, so that any other step may come between two of them.

The state refines a single flight whose keys are fixed when a call queues
(`sim_step`, `sim_reach`), as long as a resolution leaves the fields of the key
alone (`Keeps`).

* `pending_protocol_safe`: the protocol;
* `follower_response_iff`: when a follower gets the leader's response;
* `coalesced_identical_iff`: which requests share a response.
-/

namespace DnsProxy

theorem exists_of_any {σ : Type} (o : Option σ) (P : σ → Prop) [DecidablePred P]
    (h : o.any (fun s => P s) = true) : ∃ s, o = some s ∧ P s := by
  obtain ⟨s, hs, hP⟩ := (Option.any_eq_true _ _).mp h
  exact ⟨s, hs, of_decide_eq_true hP⟩

namespace Pending

variable {α : Type}

/-! ## The model -/

/-- The reduced clone of a context. The tag is what a larger model wants to know of
the response; the code has no such field. -/
structure Clone (α : Type) where
  upstream : Option Upstream
  queryStatistics : Option QueryStatistics
  res : Option Msg
  tag : α
deriving DecidableEq, Repr

/-- `pendingRequest`. The channel `finish` is the number of times it was closed. -/
structure PendingRequest (α : Type) where
  finish : Nat
  resolveErr : Option Err
  cloneDNSCtx : Option (Clone α)

/-- A call inside `done`: the context with which it queued and the key and request
it stored then, the arguments of `done`, and the key and request that `done` found. -/
structure Finish (α : Type) where
  queued : DNSContext
  stored : Option (Bytes × Nat)
  ctx : DNSContext
  err : Option Err
  tag : α
  key : Bytes
  pending : Nat
deriving DecidableEq, Repr

def Finish.clone (f : Finish α) : Clone α :=
  ⟨f.ctx.upstream, f.ctx.queryStatistics, f.ctx.res, f.tag⟩

/-- How far a call is. -/
inductive Call (α : Type)
  | idle
  /-- `queue` returned false; `stored` is `none` for a rejected subnet. -/
  | resolving (queued : DNSContext) (stored : Option (Bytes × Nat))
  | loaded (f : Finish α)
  | filled (f : Finish α)
  | deleted (f : Finish α)
  | done (f : Finish α)
  /-- `done` returned at once, for a rejected subnet. -/
  | skipped (queued ctx : DNSContext) (err : Option Err) (tag : α)
  | panicked
  | waiting (queued : DNSContext) (key : Bytes) (joined : Nat)
  /-- `queue` returned true. -/
  | returned (queued : DNSContext) (key : Bytes) (joined : Nat) (clone : Clone α) (err : Option Err)
deriving DecidableEq, Repr

structure State (α : Type) where
  storage : Bytes → Option Nat
  requests : Nat → PendingRequest α
  next : Nat
  call : Nat → Call α

def init (α : Type) : State α := ⟨fun _ => none, fun _ => ⟨0, none, none⟩, 0, fun _ => .idle⟩

inductive Action (α : Type)
  /-- `queue` up to `LoadOrStore`. -/
  | queue (c : Nat) (d : DNSContext)
  /-- `done` up to `Load`. -/
  | load (c : Nat) (d : DNSContext) (err : Option Err) (tag : α)
  | fill (c : Nat)
  | delete (c : Nat)
  | close (c : Nat)
  /-- The rest of `queue`, after the channel is closed. -/
  | wake (c : Nat)

def State.setCall (s : State α) (c : Nat) (p : Call α) : State α :=
  { s with call := Function.update s.call c p }

/-- One step; `none` when the call is not at this point. -/
def step (s : State α) : Action α → Option (State α)
  | .queue c d =>
    match s.call c with
    | .idle =>
      match pendingKey d with
      | none => some (s.setCall c (.resolving d none))
      | some key =>
        match s.storage key with
        | some e => some (s.setCall c (.waiting d key e))
        | none =>
          some { s with
            storage := Function.update s.storage key (some s.next)
            requests := Function.update s.requests s.next ⟨0, none, none⟩
            next := s.next + 1
            call := Function.update s.call c (.resolving d (some (key, s.next))) }
    | _ => none
  | .load c d err tag =>
    match s.call c with
    | .resolving queued stored =>
      match pendingKey d with
      | none => some (s.setCall c (.skipped queued d err tag))
      | some key =>
        match s.storage key with
        | none => some (s.setCall c .panicked)
        | some e => some (s.setCall c (.loaded ⟨queued, stored, d, err, tag, key, e⟩))
    | _ => none
  | .fill c =>
    match s.call c with
    | .loaded f =>
      some { s with
        requests := Function.update s.requests f.pending
          { s.requests f.pending with resolveErr := f.err, cloneDNSCtx := some f.clone }
        call := Function.update s.call c (.filled f) }
    | _ => none
  | .delete c =>
    match s.call c with
    | .filled f =>
      some { s with
        storage := Function.update s.storage f.key none
        call := Function.update s.call c (.deleted f) }
    | _ => none
  | .close c =>
    match s.call c with
    | .deleted f =>
      -- Closing a closed channel panics.
      if (s.requests f.pending).finish = 0 then
        some { s with
          requests := Function.update s.requests f.pending
            { s.requests f.pending with finish := 1 }
          call := Function.update s.call c (.done f) }
      else some (s.setCall c .panicked)
    | _ => none
  | .wake c =>
    match s.call c with
    | .waiting d key e =>
      if (s.requests e).finish = 0 then none
      else
        match (s.requests e).cloneDNSCtx with
        | none => some (s.setCall c .panicked)
        | some clone => some (s.setCall c (.returned d key e clone (s.requests e).resolveErr))
    | _ => none

/-- The context of a follower when `queue` returns. -/
def follow (d : DNSContext) (clone : Clone α) : DNSContext :=
  { d with
    queryStatistics := clone.queryStatistics
    upstream := clone.upstream
    res :=
      match clone.res with
      | some m => some (m.setReply d.req)
      | none => d.res }

/-- What a resolution leaves alone between `queue` and `done`. -/
def Keeps (d d' : DNSContext) : Prop :=
  d'.req.question = d.req.question ∧ d'.req.doBit = d.req.doBit ∧ d'.reqECS = d.reqECS

instance (d d' : DNSContext) : Decidable (Keeps d d') := inferInstanceAs (Decidable (_ ∧ _))

/-- The context that a call passes to `done` keeps the fields of its key. -/
def Call.Keeps : Call α → DNSContext → Prop
  | .resolving queued _, d => Pending.Keeps queued d
  | _, _ => True

instance (p : Call α) (d : DNSContext) : Decidable (p.Keeps d) := by
  cases p with
  | resolving queued _ => exact inferInstanceAs (Decidable (Pending.Keeps queued d))
  | _ => exact .isTrue trivial

def Action.Honest (s : State α) : Action α → Prop
  | .load c d .. => (s.call c).Keeps d
  | _ => True

instance (s : State α) (a : Action α) : Decidable (a.Honest s) := by
  cases a with
  | load c d err tag => exact inferInstanceAs (Decidable ((s.call c).Keeps d))
  | _ => exact .isTrue trivial

/-- The states of all runs in which every resolution keeps the fields of the key. -/
abbrev Reach : State α → Prop := Runs.Run step (fun s a => a.Honest s) (init α)

/-- The state after some actions, all of them possible and honest. -/
abbrev run (s : State α) (as : List (Action α)) : Option (State α) :=
  Runs.replay step (fun s a => decide (a.Honest s)) s as

variable {s s' : State α} {c e : Nat} {k : Bytes} {d : DNSContext} {p : Call α} {a : Action α}

theorem reach_run {as : List (Action α)} (h : Reach s) (hr : run s as = some s') : Reach s' :=
  h.of_replay (fun _ _ _ => of_decide_eq_true) hr

theorem Keeps.pendingKey_eq {d' : DNSContext} (h : Keeps d d') : pendingKey d' = pendingKey d := by
  obtain ⟨hq, hdo, hecs⟩ := h
  have hhead : keyHead d'.req = keyHead d.req := by
    rw [keyHead, keyHead, Msg.firstQuestion, Msg.firstQuestion, hq, hdo]
  unfold pendingKey
  rw [hecs]
  simp only [msgToKey, msgToKeyWithSubnet, hhead, Msg.firstQuestion, hq]

/-! ## What a step does to a call -/

/-- The context with which a call queued, the key and the request it stored. -/
def Call.stored? : Call α → Option (DNSContext × Bytes × Nat)
  | .resolving d stored => stored.map fun (k, e) => (d, k, e)
  | .loaded f | .filled f | .deleted f | .done f => f.stored.map fun (k, e) => (f.queued, k, e)
  | _ => none

/-- The context with which a call queued, the key and the request it joined. -/
def Call.joined? : Call α → Option (DNSContext × Bytes × Nat)
  | .waiting d k e | .returned d k e .. => some (d, k, e)
  | _ => none

def Action.caller : Action α → Nat
  | .queue c _ | .load c .. | .fill c | .delete c | .close c | .wake c => c

inductive Next (s : State α) : Action α → Call α → Call α → Prop
  | bypass {c : Nat} {d : DNSContext} : pendingKey d = none →
      Next s (.queue c d) .idle (.resolving d none)
  | join {c : Nat} {d : DNSContext} {k : Bytes} {e : Nat} : pendingKey d = some k →
      s.storage k = some e → Next s (.queue c d) .idle (.waiting d k e)
  | lead {c : Nat} {d : DNSContext} {k : Bytes} : pendingKey d = some k → s.storage k = none →
      Next s (.queue c d) .idle (.resolving d (some (k, s.next)))
  | skip {c : Nat} {d queued : DNSContext} {stored : Option (Bytes × Nat)} {err : Option Err}
      {tag : α} : Next s (.load c d err tag) (.resolving queued stored) (.skipped queued d err tag)
  | load {c : Nat} {d queued : DNSContext} {stored : Option (Bytes × Nat)} {err : Option Err}
      {tag : α} {k : Bytes} {e : Nat} : Next s (.load c d err tag) (.resolving queued stored)
        (.loaded ⟨queued, stored, d, err, tag, k, e⟩)
  | fill {c : Nat} {f : Finish α} : Next s (.fill c) (.loaded f) (.filled f)
  | delete {c : Nat} {f : Finish α} : Next s (.delete c) (.filled f) (.deleted f)
  | close {c : Nat} {f : Finish α} : Next s (.close c) (.deleted f) (.done f)
  | wake {c : Nat} {d : DNSContext} {k : Bytes} {e : Nat} {clone : Clone α} {err : Option Err} :
      Next s (.wake c) (.waiting d k e) (.returned d k e clone err)
  | panic {a : Action α} {q : Call α} : Next s a q .panicked

theorem call_step (h : step s a = some s') :
    ∃ q, s'.call = Function.update s.call a.caller q ∧ Next s a (s.call a.caller) q := by
  cases a with
  | queue c d =>
    simp only [step] at h
    simp only [Action.caller]
    split at h
    · next hc =>
      rw [hc]
      split at h
      · next hk => obtain rfl := Option.some.inj h; exact ⟨_, rfl, .bypass hk⟩
      · next k hk =>
        split at h
        · next e he => obtain rfl := Option.some.inj h; exact ⟨_, rfl, .join hk he⟩
        · next he => obtain rfl := Option.some.inj h; exact ⟨_, rfl, .lead hk he⟩
    · cases h
  | load c d err tag =>
    simp only [step] at h
    simp only [Action.caller]
    split at h
    · next hc =>
      rw [hc]
      split at h
      · obtain rfl := Option.some.inj h; exact ⟨_, rfl, .skip⟩
      · split at h
        · obtain rfl := Option.some.inj h; exact ⟨_, rfl, .panic⟩
        · obtain rfl := Option.some.inj h; exact ⟨_, rfl, .load⟩
    · cases h
  | fill c =>
    simp only [step] at h
    simp only [Action.caller]
    split at h
    · next hc => obtain rfl := Option.some.inj h; exact ⟨_, rfl, hc ▸ .fill⟩
    · cases h
  | delete c =>
    simp only [step] at h
    simp only [Action.caller]
    split at h
    · next hc => obtain rfl := Option.some.inj h; exact ⟨_, rfl, hc ▸ .delete⟩
    · cases h
  | close c =>
    simp only [step] at h
    simp only [Action.caller]
    split at h
    · next hc =>
      split at h
      · obtain rfl := Option.some.inj h; exact ⟨_, rfl, hc ▸ .close⟩
      · obtain rfl := Option.some.inj h; exact ⟨_, rfl, .panic⟩
    · cases h
  | wake c =>
    simp only [step] at h
    simp only [Action.caller]
    split at h
    · next hc =>
      split at h
      · cases h
      · split at h
        · obtain rfl := Option.some.inj h; exact ⟨_, rfl, .panic⟩
        · obtain rfl := Option.some.inj h; exact ⟨_, rfl, hc ▸ .wake⟩
    · cases h

theorem call_cases (h : step s a = some s') (c : Nat) :
    s'.call c = s.call c ∨ a.caller = c ∧ Next s a (s.call c) (s'.call c) := by
  obtain ⟨q, hq, hn⟩ := call_step h
  by_cases hc : c = a.caller
  · subst hc
    refine .inr ⟨rfl, ?_⟩
    rw [hq, Function.update_self]
    exact hn
  · exact .inl (by rw [hq, Function.update_of_ne hc])

/-- The step of a call that has stored a request keeps it, and another one stores a new
request. -/
theorem Next.stored {q q' : Call α} (h : Next s a q q') {x : DNSContext × Bytes × Nat}
    (hx : q'.stored? = some x) : q.stored? = some x ∨
      ∃ c d k, a = .queue c d ∧ pendingKey d = some k ∧ s.storage k = none ∧
        x = (d, k, s.next) := by
  cases h with
  | lead hk hs =>
    obtain rfl := Option.some.inj hx
    exact .inr ⟨_, _, _, rfl, hk, hs, rfl⟩
  | load | fill | delete | close => exact .inl hx
  | bypass _ | join _ _ | skip | wake | panic => cases hx

theorem Next.joined {q q' : Call α} (h : Next s a q q') {x : DNSContext × Bytes × Nat}
    (hx : q'.joined? = some x) : q.joined? = some x ∨
      ∃ c d k e, a = .queue c d ∧ pendingKey d = some k ∧ s.storage k = some e ∧ x = (d, k, e) := by
  cases h with
  | join hk hs =>
    obtain rfl := Option.some.inj hx
    exact .inr ⟨_, _, _, _, rfl, hk, hs, rfl⟩
  | wake => exact .inl hx
  | _ => cases hx

/-! ## Refinement -/

/-- What a leader leaves to its followers. -/
abbrev Outcome (α : Type) : Type := Clone α × Option Err

abbrev Flight (α : Type) : Type := SingleFlight.State Bytes (Outcome α)

def PendingRequest.entry (r : PendingRequest α) : SingleFlight.Entry (Outcome α) :=
  ⟨r.cloneDNSCtx.map fun clone => (clone, r.resolveErr), r.finish⟩

/-- The context with which `f` queued has the key of `f`, and `own` is its request. -/
def Finish.Owns (f : Finish α) (own : Nat) : Prop :=
  pendingKey f.queued = some f.key ∧ f.stored = some (f.key, own)

/-- The phase of a single flight at which a call is. -/
inductive Call.At : Call α → SingleFlight.Phase Bytes (Outcome α) → Prop
  | idle : At .idle .idle
  | bypass {d : DNSContext} : pendingKey d = none → At (.resolving d none) .bypass
  | leading {d : DNSContext} {k : Bytes} {e : Nat} : pendingKey d = some k →
      At (.resolving d (some (k, e))) (.leading k e)
  | loaded {f : Finish α} {e : Nat} : f.Owns e →
      At (.loaded f) (.loaded f.key e f.pending (f.clone, f.err))
  | filled {f : Finish α} {e : Nat} : f.Owns e →
      At (.filled f) (.published f.key e f.pending (f.clone, f.err))
  | deleted {f : Finish α} {e : Nat} : f.Owns e →
      At (.deleted f) (.deleted f.key e f.pending (f.clone, f.err))
  | done {f : Finish α} {e : Nat} : f.Owns e →
      At (.done f) (.done f.key e f.pending (f.clone, f.err))
  | skipped {d d' : DNSContext} {err : Option Err} {tag : α} : pendingKey d = none →
      At (.skipped d d' err tag) .bypass
  | panicked : At .panicked .panicked
  | waiting {d : DNSContext} {k : Bytes} {e : Nat} : pendingKey d = some k →
      At (.waiting d k e) (.waiting k e)
  | returned {d : DNSContext} {k : Bytes} {e : Nat} {clone : Clone α} {err : Option Err} :
      pendingKey d = some k → At (.returned d k e clone err) (.returned k e (some (clone, err)))

structure Sim (s : State α) (f : Flight α) : Prop where
  storage : f.storage = s.storage
  entry : ∀ e, f.entry e = (s.requests e).entry
  next : f.next = s.next
  call : ∀ c, (s.call c).At (f.phase c)

theorem sim_init : Sim (init α) (SingleFlight.init Bytes (Outcome α)) :=
  ⟨rfl, fun _ => rfl, rfl, fun _ => .idle⟩

variable {f : Flight α} {q : SingleFlight.Phase Bytes (Outcome α)}

theorem at_update (h : Sim s f) (hpq : p.At q) (c' : Nat) :
    (Function.update s.call c p c').At (Function.update f.phase c q c') := by
  by_cases hc : c' = c
  · subst hc
    rw [Function.update_self, Function.update_self]
    exact hpq
  · rw [Function.update_of_ne hc, Function.update_of_ne hc]
    exact h.call c'

theorem sim_setCall (h : Sim s f) (hpq : p.At q) : Sim (s.setCall c p) (f.setPhase c q) :=
  ⟨h.storage, h.entry, h.next, at_update h hpq⟩

theorem Sim.at (h : Sim s f) (hc : s.call c = p) : p.At (f.phase c) :=
  hc ▸ h.call c

theorem entry_update (h : Sim s f) {r : PendingRequest α} {n : SingleFlight.Entry (Outcome α)}
    (hr : n = r.entry) (e' : Nat) :
    Function.update f.entry e n e' = (Function.update s.requests e r e').entry := by
  by_cases he : e' = e
  · rw [he, Function.update_self, Function.update_self, hr]
  · rw [Function.update_of_ne he, Function.update_of_ne he, h.entry]

theorem sim_queue (h : Sim s f) (hs : step s (.queue c d) = some s') :
    ∃ f', SingleFlight.step f (.queue c (pendingKey d)) = some f' ∧ Sim s' f' := by
  simp only [step] at hs
  split at hs
  · next hc =>
    have hat := h.at hc
    generalize hp : f.phase c = q at hat
    cases hat
    split at hs
    · next hk =>
      obtain rfl := Option.some.inj hs
      refine ⟨_, ?_, sim_setCall h (.bypass hk)⟩
      simp only [SingleFlight.step, hp, hk]
    · next key hk =>
      split at hs
      · next e he =>
        obtain rfl := Option.some.inj hs
        refine ⟨_, ?_, sim_setCall h (.waiting hk)⟩
        simp only [SingleFlight.step, hp, hk, h.storage, he]
      · next he =>
        obtain rfl := Option.some.inj hs
        refine ⟨{ f with
            storage := Function.update f.storage key (some f.next)
            entry := Function.update f.entry f.next ⟨none, 0⟩
            next := f.next + 1
            phase := Function.update f.phase c (.leading key f.next) }, ?_, ?_, ?_, ?_, ?_⟩
        · simp only [SingleFlight.step, hp, hk, h.storage, he]
        · rw [h.storage, h.next]
        · rw [h.next]
          exact entry_update h rfl
        · rw [h.next]
        · rw [h.next]
          exact at_update h (.leading hk)
  · cases hs

theorem sim_load {err : Option Err} {tag : α} (h : Sim s f)
    (hd : (Action.load c d err tag).Honest s) (hs : step s (.load c d err tag) = some s') :
    Sim s' f ∨ ∃ f' r, SingleFlight.step f (.load c r) = some f' ∧ Sim s' f' := by
  simp only [step] at hs
  split at hs
  · next queued stored hc =>
    have hkeep : (s.call c).Keeps d := hd
    rw [hc] at hkeep
    have hkey : pendingKey d = pendingKey queued := Keeps.pendingKey_eq hkeep
    have hat := h.at hc
    generalize hp : f.phase c = q at hat
    cases hat with
    | bypass hk =>
      rw [hkey, hk] at hs
      obtain rfl := Option.some.inj hs
      refine .inl ⟨h.storage, h.entry, h.next, fun c' => ?_⟩
      have := at_update h (.skipped hk : (Call.skipped queued d err tag).At _) c' (c := c)
      rwa [← hp, Function.update_eq_self] at this
    | @leading _ k e hk =>
      rw [hkey, hk] at hs
      simp only at hs
      refine .inr ?_
      split at hs
      · next he =>
        obtain rfl := Option.some.inj hs
        refine ⟨_, (⟨none, none, none, tag⟩, none), ?_, sim_setCall h .panicked⟩
        simp only [SingleFlight.step, hp, h.storage, he]
      · next e' he =>
        obtain rfl := Option.some.inj hs
        refine ⟨_, (Finish.clone ⟨queued, some (k, e), d, err, tag, k, e'⟩, err), ?_,
          sim_setCall h (.loaded ⟨hk, rfl⟩)⟩
        simp only [SingleFlight.step, hp, h.storage, he]
  · cases hs

theorem sim_fill (h : Sim s f) (hs : step s (.fill c) = some s') :
    ∃ f', SingleFlight.step f (.publish c) = some f' ∧ Sim s' f' := by
  simp only [step] at hs
  split at hs
  · next g hc =>
    obtain rfl := Option.some.inj hs
    have hat := h.at hc
    generalize hp : f.phase c = q at hat
    cases hat with
    | loaded hown =>
      simp only [SingleFlight.step, hp]
      refine ⟨_, rfl, h.storage, entry_update h ?_, h.next, at_update h (.filled hown)⟩
      rw [h.entry]
      rfl
  · cases hs

theorem sim_delete (h : Sim s f) (hs : step s (.delete c) = some s') :
    ∃ f', SingleFlight.step f (.delete c) = some f' ∧ Sim s' f' := by
  simp only [step] at hs
  split at hs
  · next g hc =>
    obtain rfl := Option.some.inj hs
    have hat := h.at hc
    generalize hp : f.phase c = q at hat
    cases hat with
    | filled hown =>
      simp only [SingleFlight.step, hp]
      exact ⟨_, rfl, by rw [h.storage], h.entry, h.next, at_update h (.deleted hown)⟩
  · cases hs

theorem sim_close (h : Sim s f) (hs : step s (.close c) = some s') :
    ∃ f', SingleFlight.step f (.close c) = some f' ∧ Sim s' f' := by
  simp only [step] at hs
  split at hs
  · next g hc =>
    have hat := h.at hc
    generalize hp : f.phase c = q at hat
    cases hat with
    | deleted hown =>
      have hcloses : (f.entry g.pending).closes = (s.requests g.pending).finish := by
        rw [h.entry]
        rfl
      simp only [SingleFlight.step, hp, hcloses]
      split at hs
      · next h0 =>
        obtain rfl := Option.some.inj hs
        rw [if_pos h0]
        refine ⟨_, rfl, h.storage, entry_update h ?_, h.next, at_update h (.done hown)⟩
        rw [h.entry]
        rfl
      · next h0 =>
        obtain rfl := Option.some.inj hs
        rw [if_neg h0]
        exact ⟨_, rfl, sim_setCall h .panicked⟩
  · cases hs

theorem sim_wake (h : Sim s f) (hi : SingleFlight.Inv f) (hs : step s (.wake c) = some s') :
    ∃ f', SingleFlight.step f (.wake c) = some f' ∧ Sim s' f' := by
  simp only [step] at hs
  split at hs
  · next d key e hc =>
    have hat := h.at hc
    generalize hp : f.phase c = q at hat
    cases hat with
    | waiting hk =>
      split at hs
      · cases hs
      · next h0 =>
        have hclosed : (f.entry e).closes ≠ 0 := by
          rw [h.entry]
          exact h0
        -- A closed entry has a result, so the clone is there.
        obtain ⟨_, r, _, hr⟩ := SingleFlight.closed_of_waiting hi hp hclosed
        have hr' := hr
        rw [h.entry] at hr'
        obtain ⟨clone, hclone, rfl⟩ := Option.map_eq_some_iff.mp hr'
        rw [hclone] at hs
        obtain rfl := Option.some.inj hs
        simp only [SingleFlight.step, hp, if_neg hclosed, hr]
        exact ⟨_, rfl, sim_setCall h (.returned hk)⟩
  · cases hs

/-- A step is a step of the single flight, or leaves it as it is. -/
theorem sim_step (h : Sim s f) (hi : SingleFlight.Inv f) (ha : a.Honest s)
    (hs : step s a = some s') : Sim s' f ∨ ∃ f' b, SingleFlight.step f b = some f' ∧ Sim s' f' := by
  cases a with
  | queue c d =>
    obtain ⟨f', hf, h'⟩ := sim_queue h hs
    exact .inr ⟨f', _, hf, h'⟩
  | load c d err tag =>
    rcases sim_load h ha hs with h' | ⟨f', r, hf, h'⟩
    · exact .inl h'
    · exact .inr ⟨f', _, hf, h'⟩
  | fill c =>
    obtain ⟨f', hf, h'⟩ := sim_fill h hs
    exact .inr ⟨f', _, hf, h'⟩
  | delete c =>
    obtain ⟨f', hf, h'⟩ := sim_delete h hs
    exact .inr ⟨f', _, hf, h'⟩
  | close c =>
    obtain ⟨f', hf, h'⟩ := sim_close h hs
    exact .inr ⟨f', _, hf, h'⟩
  | wake c =>
    obtain ⟨f', hf, h'⟩ := sim_wake h hi hs
    exact .inr ⟨f', _, hf, h'⟩

theorem sim_reach (h : Reach s) : ∃ f, SingleFlight.Run (SingleFlight.init _ _) f ∧ Sim s f := by
  induction h with
  | refl => exact ⟨_, .refl, sim_init⟩
  | step _ ha hs ih =>
    obtain ⟨f, hrun, hsim⟩ := ih
    rcases sim_step hsim (SingleFlight.inv_run hrun) ha hs with h' | ⟨f', b, hf, h'⟩
    · exact ⟨f, hrun, h'⟩
    · exact ⟨f', .step hrun trivial hf, h'⟩

/-! ## The protocol -/

/-- A leader: it stored `e` under `k` and has not deleted it. -/
def Call.Leads (p : Call α) (k : Bytes) (e : Nat) : Prop :=
  match p with
  | .resolving _ stored => stored = some (k, e)
  | .loaded f | .filled f => f.stored = some (k, e)
  | _ => False

/-- The call is in `done` or has left it. -/
def Call.finish? : Call α → Option (Finish α)
  | .loaded f | .filled f | .deleted f | .done f => some f
  | _ => none

def Call.InProgress : Call α → Prop
  | .resolving .. | .loaded _ | .filled _ | .deleted _ | .waiting .. => True
  | _ => False

theorem Call.At.leads_iff (h : p.At q) : p.Leads k e ↔ q.Leads k e := by
  have hown : ∀ {f : Finish α} {e' : Nat}, f.Owns e' →
      (f.stored = some (k, e) ↔ f.key = k ∧ e' = e) := by
    intro f e' ho
    rw [ho.2, Option.some.injEq, Prod.mk.injEq]
  cases h with
  | leading _ => simp [Call.Leads, SingleFlight.Phase.Leads]
  | loaded ho => exact hown ho
  | filled ho => exact hown ho
  | bypass _ => simp [Call.Leads, SingleFlight.Phase.Leads]
  | _ => exact Iff.rfl

theorem Call.At.finish (h : p.At q) {f : Finish α} (hf : p.finish? = some f) : ∃ e, f.Owns e ∧
      (q = .loaded f.key e f.pending (f.clone, f.err) ∨
        q = .published f.key e f.pending (f.clone, f.err) ∨
        q = .deleted f.key e f.pending (f.clone, f.err) ∨
        q = .done f.key e f.pending (f.clone, f.err)) := by
  cases h with
  | loaded ho => obtain rfl := Option.some.inj hf; exact ⟨_, ho, .inl rfl⟩
  | filled ho => obtain rfl := Option.some.inj hf; exact ⟨_, ho, .inr (.inl rfl)⟩
  | deleted ho => obtain rfl := Option.some.inj hf; exact ⟨_, ho, .inr (.inr (.inl rfl))⟩
  | done ho => obtain rfl := Option.some.inj hf; exact ⟨_, ho, .inr (.inr (.inr rfl))⟩
  | _ => cases hf

theorem Call.At.eq_done {own found : Nat} {r : Outcome α} (h : p.At (.done k own found r)) :
    ∃ f, p = .done f ∧ f.Owns own ∧ f.key = k ∧
      f.pending = found ∧ (f.clone, f.err) = r := by
  cases h with
  | done ho => exact ⟨_, rfl, ho, rfl, rfl, rfl⟩

section Safety

variable {s : State α} (h : Reach s)
include h

theorem leader_unique {c c' : Nat} {k : Bytes} {e e' : Nat} (hl : (s.call c).Leads k e)
    (hl' : (s.call c').Leads k e') : c = c' ∧ e = e' := by
  obtain ⟨f, hrun, hsim⟩ := sim_reach h
  exact SingleFlight.leader_unique (SingleFlight.inv_run hrun) ((hsim.call c).leads_iff.mp hl)
    ((hsim.call c').leads_iff.mp hl')

theorem storage_of_leads {c : Nat} {k : Bytes} {e : Nat} (hl : (s.call c).Leads k e) :
    s.storage k = some e := by
  obtain ⟨f, hrun, hsim⟩ := sim_reach h
  rw [← hsim.storage]
  exact (SingleFlight.inv_run hrun).storage_of_leads ((hsim.call c).leads_iff.mp hl)

theorem leads_of_storage {k : Bytes} {e : Nat} (hk : s.storage k = some e) :
    ∃ c, (s.call c).Leads k e := by
  obtain ⟨f, hrun, hsim⟩ := sim_reach h
  rw [← hsim.storage] at hk
  obtain ⟨c, hl⟩ := (SingleFlight.inv_run hrun).stored k e hk
  exact ⟨c, (hsim.call c).leads_iff.mpr hl⟩

theorem finish_own {c : Nat} {f : Finish α} (hf : (s.call c).finish? = some f) :
    f.Owns f.pending := by
  obtain ⟨g, hrun, hsim⟩ := sim_reach h
  obtain ⟨e, ho, hq⟩ := (hsim.call c).finish hf
  rwa [SingleFlight.found_own (SingleFlight.inv_run hrun) hq]

theorem not_panicked (c : Nat) : s.call c ≠ .panicked := by
  intro hc
  obtain ⟨f, hrun, hsim⟩ := sim_reach h
  have hat := hsim.at hc
  generalize hp : f.phase c = q at hat
  cases hat
  exact SingleFlight.not_panicked (SingleFlight.inv_run hrun) c hp

theorem resolving_key {c : Nat} {d : DNSContext} {stored : Option (Bytes × Nat)}
    (hc : s.call c = .resolving d stored) : pendingKey d = stored.map Prod.fst := by
  obtain ⟨f, _, hsim⟩ := sim_reach h
  have hat := hsim.at hc
  generalize f.phase c = q at hat
  cases hat with
  | bypass hk => exact hk
  | leading hk => exact hk

theorem finish_closed {c : Nat} {f : Finish α} (hf : (s.call c).finish? = some f) :
    (s.requests f.pending).finish = 1 ∧ s.call c = .done f ∨
      (s.requests f.pending).finish = 0 ∧ s.call c ≠ .done f := by
  obtain ⟨g, hrun, hsim⟩ := sim_reach h
  have hi := SingleFlight.inv_run hrun
  obtain ⟨e, ho, hq⟩ := (hsim.call c).finish hf
  obtain rfl := SingleFlight.found_own hi hq
  have howns : (g.phase c).Owns f.key f.pending := by
    rcases hq with hq | hq | hq | hq <;> rw [hq] <;> exact ⟨rfl, rfl⟩
  have hcloses : (g.entry f.pending).closes = (s.requests f.pending).finish := by
    rw [hsim.entry]
    rfl
  rcases SingleFlight.closes_of_owner hi howns with ⟨h1, found, r, hd⟩ | ⟨h0, hnd⟩
  · have hat := hsim.call c
    rw [hd] at hat
    obtain ⟨f', hc, _⟩ := hat.eq_done
    rw [hc] at hf
    obtain rfl := Option.some.inj hf
    exact .inl ⟨hcloses.symm.trans h1, hc⟩
  · refine .inr ⟨hcloses.symm.trans h0, fun hc => ?_⟩
    have hat := hsim.at hc
    generalize hp : g.phase c = q at hat
    cases hat with
    | done ho' =>
      obtain rfl : _ = f.pending := congrArg Prod.snd (Option.some.inj (ho'.2.symm.trans ho.2))
      exact hnd _ _ hp

theorem returned_of_leader {c : Nat} {d : DNSContext} {k : Bytes} {e : Nat} {clone : Clone α}
    {err : Option Err} (hc : s.call c = .returned d k e clone err) :
    ∃ c' f, s.call c' = .done f ∧ f.Owns e ∧ f.key = k ∧ f.pending = e ∧ clone = f.clone ∧
      err = f.err := by
  obtain ⟨g, hrun, hsim⟩ := sim_reach h
  have hat := hsim.at hc
  generalize hp : g.phase c = q at hat
  cases hat with
  | returned hk =>
    obtain ⟨c', r, hd, hr⟩ := SingleFlight.returned_of_leader (SingleFlight.inv_run hrun) hp
    have hat' := hsim.call c'
    rw [hd] at hat'
    obtain ⟨f, hc', ho, hkey, hpend, hout⟩ := hat'.eq_done
    obtain ⟨hclone, herr⟩ := Prod.mk.inj (hout.trans (Option.some.inj hr).symm)
    exact ⟨c', f, hc', ho, hkey, hpend, hclone.symm, herr.symm⟩

end Safety

/-- The safety of the protocol in a state. -/
structure Safe (s : State α) : Prop where
  /-- At most one call per key is a leader. -/
  leader : ∀ c c' k e e', (s.call c).Leads k e → (s.call c').Leads k e' → c = c'
  /-- The `done` of a leader that kept its key finds the request it stored. -/
  loads : ∀ c d k e d' err tag, s.call c = .resolving d (some (k, e)) → Keeps d d' →
    step s (.load c d' err tag) =
      some (s.setCall c (.loaded ⟨d, some (k, e), d', err, tag, k, e⟩))
  finds : ∀ c f, (s.call c).finish? = some f → f.stored = some (f.key, f.pending)
  noPanic : ∀ c, s.call c ≠ .panicked
  /-- Its channel is closed once, by the end of `done`. -/
  closed : ∀ c f, (s.call c).finish? = some f →
    (s.requests f.pending).finish = 1 ∧ s.call c = .done f ∨
      (s.requests f.pending).finish = 0 ∧ s.call c ≠ .done f
  /-- A follower that returned has the error, the upstream and the statistics of the
  leader whose request it joined, and that leader is done. -/
  follower : ∀ c d k e clone err, s.call c = .returned d k e clone err →
    ∃ c' f, s.call c' = .done f ∧ f.stored = some (k, e) ∧ err = f.err ∧
      (follow d clone).upstream = f.ctx.upstream ∧
      (follow d clone).queryStatistics = f.ctx.queryStatistics
  /-- A follower that waits joined a request that some call stored. -/
  waits : ∀ c d k e, s.call c = .waiting d k e → ∃ c' d', (s.call c').stored? = some (d', k, e)
  /-- A call that arrives joins the leader of its key, if there is one, and becomes a
  leader with a new request if not. -/
  arrives : ∀ c d k, s.call c = .idle → pendingKey d = some k →
    ∃ s', step s (.queue c d) = some s' ∧
      ((∃ c' e, (s.call c').Leads k e ∧ s'.call c = .waiting d k e) ∨
        (∀ c' e, ¬(s.call c').Leads k e) ∧ (s'.call c).Leads k s.next)
  /-- A deleted request is not found again. -/
  deletes : ∀ c f, s.call c = .deleted f ∨ s.call c = .done f → s.storage f.key ≠ some f.pending
  empty : (∀ c, ¬(s.call c).InProgress) → ∀ k, s.storage k = none
  /-- A request with a rejected subnet takes no part. -/
  rejected : ∀ c d, pendingKey d = none →
    (s.call c = .idle → step s (.queue c d) = some (s.setCall c (.resolving d none))) ∧
    (∀ stored, s.call c = .resolving d stored → stored = none ∧ ∀ d' err tag, Keeps d d' →
      step s (.load c d' err tag) = some (s.setCall c (.skipped d d' err tag)))

theorem Call.Leads.inProgress (h : p.Leads k e) : p.InProgress := by
  cases p with
  | resolving d stored => trivial
  | loaded f => trivial
  | filled f => trivial
  | _ => cases h

theorem queue_arrives (h : Reach s) (hc : s.call c = .idle) (hk : pendingKey d = some k) :
    ∃ s', step s (.queue c d) = some s' ∧
      ((∃ c' e, (s.call c').Leads k e ∧ s'.call c = .waiting d k e) ∨
        (∀ c' e, ¬(s.call c').Leads k e) ∧ (s'.call c).Leads k s.next) := by
  simp only [step, hc, hk]
  cases he : s.storage k with
  | some e =>
    obtain ⟨c', hl⟩ := leads_of_storage h he
    exact ⟨_, rfl, .inl ⟨c', e, hl, Function.update_self _ _ _⟩⟩
  | none =>
    refine ⟨_, rfl, .inr ⟨fun c' e hl => ?_, ?_⟩⟩
    · rw [storage_of_leads h hl] at he
      cases he
    · show (Function.update s.call c (.resolving d (some (k, s.next))) c).Leads k s.next
      rw [Function.update_self]
      rfl

theorem Call.At.stored (h : p.At q) (ho : q.Owns k e) :
    ∃ d, p.stored? = some (d, k, e) ∧ pendingKey d = some k := by
  have hfin : ∀ {f : Finish α} {e' : Nat}, f.Owns e' → f.key = k ∧ e' = e →
      f.stored.map (fun (k, e) => (f.queued, k, e)) = some (f.queued, k, e) ∧
        pendingKey f.queued = some k := by
    rintro f e' ⟨hk, hst⟩ ⟨rfl, rfl⟩
    exact ⟨by rw [hst]; rfl, hk⟩
  cases h with
  | leading hk =>
    obtain ⟨rfl, rfl⟩ := ho
    exact ⟨_, rfl, hk⟩
  | loaded ho' => exact ⟨_, hfin ho' ho⟩
  | filled ho' => exact ⟨_, hfin ho' ho⟩
  | deleted ho' => exact ⟨_, hfin ho' ho⟩
  | done ho' => exact ⟨_, hfin ho' ho⟩
  | _ => cases ho

theorem Call.At.owns (h : p.At q) (hp : p.stored? = some (d, k, e)) :
    q.Owns k e ∧ pendingKey d = some k := by
  have hfin : ∀ {f : Finish α} {e' : Nat}, f.Owns e' →
      f.stored.map (fun (k, e) => (f.queued, k, e)) = some (d, k, e) →
        (f.key = k ∧ e' = e) ∧ pendingKey d = some k := by
    rintro f e' ⟨hk, hst⟩ hf
    rw [hst] at hf
    cases hf
    exact ⟨⟨rfl, rfl⟩, hk⟩
  cases h with
  | leading hk => cases hp; exact ⟨⟨rfl, rfl⟩, hk⟩
  | loaded ho => exact hfin ho hp
  | filled ho => exact hfin ho hp
  | deleted ho => exact hfin ho hp
  | done ho => exact hfin ho hp
  | _ => cases hp

theorem stored_key (h : Reach s) (hc : (s.call c).stored? = some (d, k, e)) :
    pendingKey d = some k := by
  obtain ⟨g, _, hsim⟩ := sim_reach h
  exact ((hsim.call c).owns hc).2

theorem stored_lt (h : Reach s) (hc : (s.call c).stored? = some (d, k, e)) : e < s.next := by
  obtain ⟨g, hrun, hsim⟩ := sim_reach h
  rw [← hsim.next]
  exact (SingleFlight.inv_run hrun).lt_of_owns ((hsim.call c).owns hc).1

theorem waiting_of_leader (h : Reach s) (hc : s.call c = .waiting d k e) :
    ∃ c' d', (s.call c').stored? = some (d', k, e) := by
  obtain ⟨g, hrun, hsim⟩ := sim_reach h
  have hat := hsim.at hc
  generalize hp : g.phase c = q at hat
  cases hat with
  | waiting hk =>
    obtain ⟨c', ho⟩ := SingleFlight.owner_of_waiting (SingleFlight.inv_run hrun) hp
    obtain ⟨d', hd', _⟩ := (hsim.call c').stored ho
    exact ⟨c', d', hd'⟩

theorem deleted_ne (h : Reach s) {f : Finish α} (hc : s.call c = .deleted f ∨ s.call c = .done f) :
    s.storage f.key ≠ some f.pending := by
  intro hst
  have hf : (s.call c).finish? = some f := by
    rcases hc with hc | hc <;> rw [hc] <;> rfl
  obtain ⟨c', hl⟩ := leads_of_storage h hst
  obtain ⟨g, hrun, hsim⟩ := sim_reach h
  obtain rfl : c = c' := by
    obtain ⟨e, ho, hq⟩ := (hsim.call c).finish hf
    obtain rfl := SingleFlight.found_own (SingleFlight.inv_run hrun) hq
    refine (SingleFlight.inv_run hrun).owner c c' f.key f.key f.pending ?_
      ((hsim.call c').leads_iff.mp hl).owns
    rcases hq with hq | hq | hq | hq <;> rw [hq] <;> exact ⟨rfl, rfl⟩
  rcases hc with hc | hc <;> rw [hc] at hl <;> cases hl

theorem pending_protocol_safe {s : State α} (h : Reach s) : Safe s where
  leader c c' k e e' hl hl' := (leader_unique h hl hl').1
  loads c d k e d' err tag hc hkeep := by
    have hk : pendingKey d' = some k := hkeep.pendingKey_eq.trans (resolving_key h hc)
    have hst : s.storage k = some e := storage_of_leads h (c := c) (by rw [hc]; rfl)
    simp only [step, hc, hk, hst]
  finds c f hf := (finish_own h hf).2
  noPanic c := not_panicked h c
  closed c f hf := finish_closed h hf
  follower c d k e clone err hc := by
    obtain ⟨c', f, hc', ho, hkey, _, rfl, herr⟩ := returned_of_leader h hc
    exact ⟨c', f, hc', hkey ▸ ho.2, herr, rfl, rfl⟩
  waits c d k e hc := waiting_of_leader h hc
  arrives c d k hc hk := queue_arrives h hc hk
  deletes c f hc := deleted_ne h hc
  empty hidle k := by
    cases hk : s.storage k with
    | none => rfl
    | some e =>
      obtain ⟨c, hl⟩ := leads_of_storage h hk
      exact absurd hl.inProgress (hidle c)
  rejected c d hk := by
    refine ⟨fun hc => by simp only [step, hc, hk], fun stored hc => ?_⟩
    have hkey := resolving_key h hc
    rw [hk] at hkey
    refine ⟨Option.map_eq_none_iff.mp hkey.symm, fun d' err tag hkeep => ?_⟩
    simp only [step, hc, hkeep.pendingKey_eq, hk]

/-- A second client asks while the first one resolves, and a third one after the
first has deleted its request. -/
def coalescedRun (res : Msg) : List (Action Unit) :=
  let d := udpContext exampleQuery
  [.queue 0 d, .queue 1 (udpContext { exampleQuery with id := 7 }),
    .load 0 { d with res := some res, upstream := some exampleUpstream } none (), .fill 0,
    .delete 0, .queue 2 d, .close 0, .wake 1]

theorem pending_protocol_safe_coalesced :
    ∃ s, run (init Unit) (coalescedRun exampleAnswer) = some s ∧ Safe s ∧
      s.call 1 = .returned (udpContext { exampleQuery with id := 7 }) (msgToKey exampleQuery) 0
        ⟨some exampleUpstream, none, some exampleAnswer, ()⟩ none ∧
      s.call 2 = .resolving (udpContext exampleQuery) (some (msgToKey exampleQuery, 1)) := by
  exact (exists_of_any _ _ (by decide +kernel)).imp fun s ⟨hs, h12⟩ =>
    ⟨hs, pending_protocol_safe (reach_run .refl hs), h12⟩

/-! ## The response of a follower -/

/-- Two questions that differ at most in letter case. -/
def SameUpToCase (q q' : Question) : Prop :=
  toLower q.name = toLower q'.name ∧ q.qtype = q'.qtype ∧ q.qclass = q'.qclass

instance (q q' : Question) : Decidable (SameUpToCase q q') :=
  inferInstanceAs (Decidable (_ ∧ _))

/-- `m'` means what `m` means: the response code and the records are the same, and
of the rest only the id, the letter case of the question and the RD and CD bits
may differ. -/
structure SameMeaning (m m' : Msg) : Prop where
  rcode : m'.rcode = m.rcode
  answer : m'.answer = m.answer
  ns : m'.ns = m.ns
  extra : m'.extra = m.extra
  header : ∃ id rd cd question, m' = { m with
    id := id, recursionDesired := rd, checkingDisabled := cd, question := question }
  question : ∃ q q', m.question = [q] ∧ m'.question = [q'] ∧ SameUpToCase q q'

/-- A successful response to the question of `req`. -/
structure Succeeds (m req : Msg) : Prop where
  rcode : m.rcode = rcodeSuccess
  response : m.response = true
  opcode : m.opcode = req.opcode
  question : ∃ q, m.question = [q] ∧ ∀ q', req.question.head? = some q' → SameUpToCase q q'

theorem sameMeaning_setReply_iff (m req : Msg) :
    SameMeaning m (m.setReply req) ↔ Succeeds m req := by
  constructor
  · rintro ⟨hrcode, _, _, _, ⟨id, rd, cd, question, heq⟩, q, q', hq, hq', hsame⟩
    have hresp := congrArg Msg.response heq
    have hop := congrArg Msg.opcode heq
    refine ⟨hrcode.symm, hresp.symm, hop.symm, q, hq, fun q₀ hq₀ => ?_⟩
    cases hr : req.question with
    | nil => rw [hr] at hq₀; cases hq₀
    | cons r rs =>
      rw [hr] at hq₀
      obtain rfl := Option.some.inj hq₀
      simp only [Msg.setReply, hr, List.cons.injEq, and_true] at hq'
      exact hq' ▸ hsame
  · rintro ⟨hrcode, hresp, hop, q, hq, hsame⟩
    refine ⟨hrcode.symm, rfl, rfl, rfl, ⟨(m.setReply req).id, (m.setReply req).recursionDesired,
      (m.setReply req).checkingDisabled, (m.setReply req).question, ?_⟩, ?_⟩
    · simp only [Msg.setReply, hrcode, hop, hresp]
    · cases hr : req.question with
      | nil => exact ⟨q, q, hq, by simp only [Msg.setReply, hr, hq], rfl, rfl, rfl⟩
      | cons r rs =>
        exact ⟨q, r, hq, by simp only [Msg.setReply, hr], hsame r (by rw [hr]; rfl)⟩

/-- A follower gets the response of its leader, up to the fields of its own request,
exactly when that is a successful response to its question: `SetReply` sets the
response code of every other one to NOERROR. -/
theorem follower_response_iff {s : State α} (h : Reach s) {c : Nat} {d : DNSContext} {k : Bytes}
    {e : Nat} {clone : Clone α} {err : Option Err} (hc : s.call c = .returned d k e clone err) :
    ∃ c' f, s.call c' = .done f ∧ f.stored = some (k, e) ∧
      ((∀ m, f.ctx.res = some m → ∃ m', (follow d clone).res = some m' ∧ SameMeaning m m') ↔
        ∀ m, f.ctx.res = some m → Succeeds m d.req) := by
  obtain ⟨c', f, hc', ho, rfl, _, rfl, _⟩ := returned_of_leader h hc
  refine ⟨c', f, hc', ho.2, ?_⟩
  have hres : ∀ m, f.ctx.res = some m → (follow d f.clone).res = some (m.setReply d.req) := by
    intro m hm
    simp only [follow, Finish.clone, hm]
  constructor
  · intro hall m hm
    obtain ⟨m', hm', hsame⟩ := hall m hm
    obtain rfl := Option.some.inj ((hres m hm).symm.trans hm')
    exact (sameMeaning_setReply_iff m d.req).mp hsame
  · intro hall m hm
    exact ⟨_, hres m hm, (sameMeaning_setReply_iff m d.req).mpr (hall m hm)⟩

theorem follower_response_answered : ∃ s c' f,
    run (init Unit) (coalescedRun exampleAnswer) = some s ∧
    s.call c' = .done f ∧ f.stored = some (msgToKey exampleQuery, 0) ∧
    ((∀ m, f.ctx.res = some m → ∃ m', (follow (udpContext { exampleQuery with id := 7 })
        (⟨some exampleUpstream, none, some exampleAnswer, ()⟩ : Clone Unit)).res = some m' ∧
        SameMeaning m m') ↔
      ∀ m, f.ctx.res = some m → Succeeds m { exampleQuery with id := 7 }) := by
  obtain ⟨s, hs, hc⟩ := exists_of_any (run (init Unit) (coalescedRun exampleAnswer))
    (fun s => s.call 1 = .returned (udpContext { exampleQuery with id := 7 })
      (msgToKey exampleQuery) 0 ⟨some exampleUpstream, none, some exampleAnswer, ()⟩ none)
    (by decide +kernel)
  obtain ⟨c', f, h⟩ := follower_response_iff (reach_run .refl hs) hc
  exact ⟨s, c', f, hs, h⟩

/-- The leader got NXDOMAIN and its follower NOERROR. -/
theorem follower_response_nxdomain :
    ∃ s f m m', run (init Unit) (coalescedRun (newMsgNXDOMAIN exampleQuery)) = some s ∧
      s.call 0 = .done f ∧ f.ctx.res = some m ∧ m.rcode = rcodeNameError ∧
      s.call 1 = .returned (udpContext { exampleQuery with id := 7 }) (msgToKey exampleQuery)
        f.pending f.clone none ∧
      (follow (udpContext { exampleQuery with id := 7 }) f.clone).res = some m' ∧
      m'.rcode = rcodeSuccess := by
  let d := udpContext exampleQuery
  let f : Finish Unit := ⟨d, some (msgToKey exampleQuery, 0),
    { d with res := some (newMsgNXDOMAIN exampleQuery), upstream := some exampleUpstream },
    none, (), msgToKey exampleQuery, 0⟩
  obtain ⟨s, hs, h0, h1⟩ := exists_of_any
    (run (init Unit) (coalescedRun (newMsgNXDOMAIN exampleQuery)))
    (fun s => s.call 0 = .done f ∧ s.call 1 = .returned (udpContext { exampleQuery with id := 7 })
      (msgToKey exampleQuery) f.pending f.clone none) (by decide +kernel)
  exact ⟨s, f, _, _, hs, h0, rfl, rfl, h1, rfl, rfl⟩

/-! ## Which requests are coalesced -/

theorem joined_key (h : Reach s) (hc : (s.call c).joined? = some (d, k, e)) :
    pendingKey d = some k := by
  obtain ⟨g, _, hsim⟩ := sim_reach h
  have hat := hsim.call c
  generalize g.phase c = q at hat
  generalize s.call c = p at hat hc
  cases hat with
  | waiting hk => cases hc; exact hk
  | returned hk => cases hc; exact hk
  | _ => cases hc

theorem stored_of_joined (h : Reach s) (hc : (s.call c).joined? = some (d, k, e)) :
    ∃ c' d', (s.call c').stored? = some (d', k, e) := by
  cases hp : s.call c with
  | waiting d₀ k₀ e₀ =>
    rw [hp] at hc
    cases hc
    exact waiting_of_leader h hp
  | returned d₀ k₀ e₀ clone err =>
    rw [hp] at hc
    cases hc
    obtain ⟨c', f, hc', ho, rfl, -⟩ := returned_of_leader h hp
    exact ⟨c', f.queued, by rw [hc']; simp [Call.stored?, ho.2]⟩
  | _ => rw [hp] at hc; cases hc

/-- Neither name spells the subnet of the other request, and the subnets are not two
different ones of prefix length zero. -/
def Distinguished (d d' : DNSContext) : Prop :=
  ¬Spells d d' ∧ ¬Spells d' d ∧ ¬ZeroPrefixes d d'

/-- Two requests with one key are identical exactly if they are distinguished; so a
call waits for, and receives, the response to its own question exactly if it is
distinguished from the call it joined. -/
theorem coalesced_identical_iff {d d' : DNSContext}
    (hname : UnpackedName d.req.firstQuestion.name)
    (hname' : UnpackedName d'.req.firstQuestion.name) :
    ((∀ k, pendingKey d = some k → pendingKey d' = some k → Identical d d') ↔
      Distinguished d d') ∧
    ∀ s : State α, Reach s → ∀ c c' k e, (s.call c).joined? = some (d, k, e) →
      (s.call c').stored? = some (d', k, e) → (Identical d d' ↔ Distinguished d d') := by
  have hkey : ∀ k, pendingKey d = some k → pendingKey d' = some k →
      (Identical d d' ↔ Distinguished d d') := by
    intro k hk hk'
    constructor
    · intro hi
      exact ⟨fun h => h.not_identical.1 hi, fun h => h.not_identical.2 hi,
        fun h => h.not_identical hi⟩
    · rintro ⟨h₁, h₂, h₃⟩
      rcases identical_of_key_eq hname hname' hk hk' with h | h | h | h
      · exact h
      · exact absurd h h₁
      · exact absurd h h₂
      · exact absurd h h₃
  refine ⟨⟨fun hall => ?_, fun hd k hk hk' => (hkey k hk hk').mpr hd⟩, ?_⟩
  · refine ⟨fun h => ?_, fun h => ?_, fun h => ?_⟩
    · obtain ⟨k, hk, hk'⟩ := h.key_eq
      exact h.not_identical.1 (hall k hk hk')
    · obtain ⟨k, hk', hk⟩ := h.key_eq
      exact h.not_identical.2 (hall k hk hk')
    · obtain ⟨k, hk, hk'⟩ := h.key_eq
      exact h.not_identical (hall k hk hk')
  · intro s hs c c' k e hc hc'
    exact hkey k (joined_key hs hc) (stored_key hs hc')

theorem unpacked_exampleOrg : UnpackedName exampleOrg :=
  ⟨[[101, 120, 97, 109, 112, 108, 101], [111, 114, 103]], by decide, by decide, by decide⟩

theorem coalesced_identical_example :
    (∀ k, pendingKey (udpContext exampleQuery) = some k →
      pendingKey (udpContext { exampleQuery with id := 7 }) = some k →
        Identical (udpContext exampleQuery) (udpContext { exampleQuery with id := 7 })) ↔
      Distinguished (udpContext exampleQuery) (udpContext { exampleQuery with id := 7 }) := by
  have h : UnpackedName (udpContext exampleQuery).req.firstQuestion.name := unpacked_exampleOrg
  have h' : UnpackedName (udpContext { exampleQuery with id := 7 }).req.firstQuestion.name :=
    unpacked_exampleOrg
  exact (@coalesced_identical_iff Unit _ _ h h').1

/-- A query for `|2aaaaaaaaaaaaaa0example.org.` without a subnet. -/
def spellingContext : DNSContext :=
  udpContext { exampleQuery with
    question := [⟨[124, 50] ++ List.replicate 14 97 ++ [48] ++ exampleOrg, typeA, classINET⟩] }

/-- A query for `example.org.` with the subnet 3261:6161:6161:6161:6161:6161:6161:6130/124. -/
def spelledContext : DNSContext :=
  { udpContext exampleQuery with
    reqECS := some ⟨some ([50] ++ List.replicate 14 97 ++ [48]), some (BitPrefix.mask 124 16)⟩ }

/-- A client waits for the response to a question that it did not ask. -/
theorem coalesced_other_question :
    UnpackedName spellingContext.req.firstQuestion.name ∧
    UnpackedName spelledContext.req.firstQuestion.name ∧
    pendingKey spellingContext = pendingKey spelledContext ∧
    ¬Identical spellingContext spelledContext ∧
    ∃ s, run (init Unit) [.queue 0 spelledContext, .queue 1 spellingContext] = some s ∧
      (s.call 1).joined?.map Prod.fst = some spellingContext ∧
      (s.call 1).joined?.map Prod.snd = (s.call 0).stored?.map Prod.snd := by
  refine ⟨⟨[[124, 50] ++ List.replicate 14 97 ++ [48, 101, 120, 97, 109, 112, 108, 101],
    [111, 114, 103]], by decide, by decide, by decide⟩, unpacked_exampleOrg,
    by decide +kernel, fun h => absurd h.1 (by decide +kernel), ?_⟩
  exact exists_of_any _ _ (by decide +kernel)

end Pending

end DnsProxy
