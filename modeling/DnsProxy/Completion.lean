import DnsProxy.Isolation
import DnsProxy.Lib.KeyLock
import Mathlib.Algebra.BigOperators.Group.Finset.Piecewise

/-!
# Calls and refreshes come to an end

A call that has started takes a bounded number of steps, its own ones and those of the refresh
that it may cause. As long as it has not returned, it can go on, or the call that it waits for
can. An exchange with upstreams is one step here, so that each is taken to come to an end.

* `Control`: how far the calls and the refreshes are. `control_step` says what a step of the
  system does to it, and the rest is about this machine.
* `Fits`, `Flights`: its invariants.
* `refresh_single`: the refreshes with one key come one after the other.
* `resolve_completes`: the bound on the steps, and what is left when no more are possible.
-/

namespace DnsProxy.System

variable {pf : Platform} {p : Proxy}

/-! ## The control of the system -/

/-- The state without the caches, the recursion detector and the log. -/
structure Control where
  enabled : Bool
  pending : Pending.State Tag
  work : Nat → Work
  refresh : Nat → Refresh
  nextRefresh : Nat
  inFlight : Bytes → Bool

def State.control (s : State) : Control where
  enabled := s.pendingEnabled
  pending := s.pending
  work := s.work
  refresh := s.refresh
  nextRefresh := s.nextRefresh
  inFlight := s.inFlight

/-- A step of a call that has started, or of a refresh. -/
def Action.proceeds : Action → Bool
  | .resolve .. | .serve .. | .drop .. | .dropWithSubnet .. | .clear _ => false
  | _ => true

theorem Action.proceeds_of_isStart {a : Action} (h : a.isStart = true) : a.proceeds = false := by
  cases a <;> first | rfl | cases h

/-- The call that makes the step. -/
def Action.caller? : Action → Option Nat
  | .resolve c _ | .serve c _ _ | .lookup c _ | .exchange c _ _ | .store c _ | .load c | .fill c
  | .delete c | .close c | .wake c => some c
  | _ => none

/-- The call that the action starts, with its context. -/
def Action.starts? : Action → Option (Nat × DNSContext)
  | .resolve c d | .serve c d _ => some (c, d)
  | _ => none

theorem Action.isStart_of_starts? {a : Action} {x : Nat × DNSContext} (h : a.starts? = some x) :
    a.isStart = true := by
  cases a <;> first | rfl | cases h

theorem Action.caller?_of_starts? {a : Action} {c : Nat} {d : DNSContext}
    (h : a.starts? = some (c, d)) : a.caller? = some c := by
  cases a <;> cases h <;> rfl

/-- The action starts the call `c`, for which `prepare` leaves the context `d`. Requests from
clients have been checked to have one question. -/
structure Action.Begins (pf : Platform) (p : Proxy) (a : Action) (c : Nat) (d : DNSContext)
    (works : Bool) : Prop where
  starts : ∃ d₀ d', a.starts? = some (c, d₀) ∧ d'.req = d₀.req ∧ p.prepare pf d' = (d, works)
  checked : ∀ d₀ now, a = .serve c d₀ now → d₀.req.question.length = 1

def Control.setWork (k : Control) (c : Nat) (w : Work) : Control :=
  { k with work := Function.update k.work c w }

def Control.setRefresh (k : Control) (r : Nat) (f : Refresh) : Control :=
  { k with refresh := Function.update k.refresh r f }

/-- A step, with the contexts and the responses that it makes. -/
inductive Control.Step (pf : Platform) (p : Proxy) (k : Control) : Action → Control → Prop
  /-- `processDNSRequest` does not call the handler. -/
  | refuse {a : Action} {c : Nat} {d : DNSContext} : a.starts? = some (c, d) → k.work c = .idle →
      Step pf p k a (k.setWork c .answered)
  /-- The cache does not work for the request. -/
  | bypass {a : Action} {c : Nat} {d : DNSContext} : a.Begins pf p c d false →
      k.work c = .idle → Step pf p k a (k.setWork c (.exchanging d false))
  | alone {a : Action} {c : Nat} {d : DNSContext} : a.Begins pf p c d true →
      k.work c = .idle → k.enabled = false → Step pf p k a (k.setWork c (.looking d))
  | queue {a : Action} {c : Nat} {d : DNSContext} {q : Pending.State Tag} {w : Work} :
      a.Begins pf p c d true → k.work c = .idle → k.enabled = true →
      Pending.step k.pending (.queue c d) = some q → w.Queued c d q →
      Step pf p k a ({ k with pending := q }.setWork c w)
  | miss {c : Nat} {now : Instant} {d : DNSContext} : k.work c = .looking d →
      Step pf p k (.lookup c now) (k.setWork c (.exchanging d true))
  | hit {c : Nat} {now : Instant} {d : DNSContext} {t : Cache} {ci : CacheItem} {tag : Tag} :
      k.work c = .looking d → (p.lookup pf t d now).ci = some ci →
      Step pf p k (.lookup c now)
        (k.setWork c (.finished d (complete pf (fromCache d ci)) none tag true))
  /-- A hit of an entry that has expired, which is refreshed. -/
  | expired {c : Nat} {now : Instant} {d : DNSContext} {t : Cache} {ci : CacheItem} {tag : Tag}
      {j : Job} : k.work c = .looking d → (p.lookup pf t d now).ci = some ci →
      Step pf p k (.lookup c now)
        { (k.setWork c (.finished d (complete pf (fromCache d ci)) none tag true)).setRefresh
            k.nextRefresh (.spawned j) with
          nextRefresh := k.nextRefresh + 1 }
  | exchange {c : Nat} {env : UpstreamEnv} {now : Instant} {d : DNSContext} {works : Bool} :
      k.work c = .exchanging d works →
      Step pf p k (.exchange c env now)
        (k.setWork c (.replied d works (p.replyFromUpstream pf env d)))
  /-- `Resolve` does not come to its end if `cacheResp` panics. -/
  | store {c : Nat} {now : Instant} {d ctx : DNSContext} {works : Bool} {r : Replied}
      {tag : Tag} : k.work c = .replied d works r → ctx = complete pf r.ctx ∨ ctx = r.ctx →
      Step pf p k (.store c now) (k.setWork c (.finished d ctx r.err tag works))
  | load {c : Nat} {d ctx : DNSContext} {err : Option Err} {tag : Tag} {q : Pending.State Tag} :
      k.work c = .finished d ctx err tag true →
      Pending.step k.pending (.load c ctx err tag) = some q →
      Step pf p k (.load c) { k with pending := q }
  | finish {a : Action} {b : Pending.Action Tag} {q : Pending.State Tag} : a.pending? = some b →
      Pending.step k.pending b = some q → Step pf p k a { k with pending := q }
  /-- A refresh with the same key is in progress. -/
  | busy {r : Nat} {j : Job} : k.refresh r = .spawned j → k.inFlight j.key = true →
      Step pf p k (.beginRefresh r) (k.setRefresh r .finished)
  | begin {r : Nat} {j : Job} : k.refresh r = .spawned j → k.inFlight j.key = false →
      Step pf p k (.beginRefresh r)
        { k.setRefresh r (.running j) with inFlight := Function.update k.inFlight j.key true }
  | exchangeRefresh {r : Nat} {env : UpstreamEnv} {now : Instant} {j : Job} {x : Replied} :
      k.refresh r = .running j →
      Step pf p k (.exchangeRefresh r env now) (k.setRefresh r (.replied j x))
  | storeRefresh {r : Nat} {now : Instant} {j : Job} {x : Replied} : k.refresh r = .replied j x →
      Step pf p k (.storeRefresh r now) (k.setRefresh r (.stored j))
  | endRefresh {r : Nat} {j : Job} : k.refresh r = .stored j →
      Step pf p k (.endRefresh r)
        { k.setRefresh r .finished with inFlight := Function.update k.inFlight j.key false }
  | evict {a : Action} : a.proceeds = false → a.isStart = false → Step pf p k a k

section Refinement

variable {s s' : State} {a : Action}

theorem begins_of_starts {c : Nat} {d₀ d : DNSContext} {works : Bool}
    (hstarts : Starts pf p s a c d₀) (hprep : p.prepare pf d₀ = (d, works)) :
    a.Begins pf p c d works := by
  rcases hstarts with rfl | ⟨_, _, rfl, hhandled⟩
  · exact ⟨⟨d₀, d₀, rfl, rfl, hprep⟩, fun _ _ ha => by cases ha⟩
  · obtain ⟨⟨_, rfl⟩, -, hone, -⟩ := processDNSRequest_handled hhandled
    refine ⟨⟨_, _, rfl, ?_, hprep⟩, ?_⟩
    · rfl
    · rintro _ _ ⟨⟩
      exact hone

theorem control_lookup {c : Nat} {d : DNSContext} {now : Instant} (hc : s.work c = .looking d) :
    Control.Step pf p s.control (.lookup c now) (lookup pf p s c d now).control := by
  unfold lookup
  dsimp only
  split
  · exact .miss hc
  · next hci =>
    split
    · exact .expired hc hci
    · exact .hit hc hci

/-- A step of the system is one of its control. -/
theorem control_step (h : step pf p s a = some s') : Control.Step pf p s.control a s'.control := by
  cases stepped_step h with
  | bypass hstarts hidle hprep => exact .bypass (begins_of_starts hstarts hprep) hidle
  | alone hstarts hidle hprep henabled =>
    exact .alone (begins_of_starts hstarts hprep) hidle henabled
  | queue hstarts hidle hprep henabled hq hw =>
    exact .queue (begins_of_starts hstarts hprep) hidle henabled hq hw
  | refuse hidle => exact .refuse rfl hidle
  | lookup hc => exact control_lookup hc
  | exchange hc hr =>
    subst hr
    exact .exchange hc
  | @store c d works r now hc =>
    obtain ⟨_, _, heq, hctx⟩ := @store_eq pf p s c d works r now
    rw [heq]
    exact .store hc hctx
  | load hc hq => exact .load hc hq
  | finish ha hq => exact .finish ha hq
  | busy hr hkey => exact .busy hr hkey
  | begin hr hkey => exact .begin hr hkey
  | exchangeRefresh hr _ => exact .exchangeRefresh hr
  | @storeRefresh r j x now hr =>
    obtain ⟨_, heq⟩ := @storeRefresh_eq pf p s j x now
    rw [heq]
    exact .storeRefresh hr
  | endRefresh hr => exact .endRefresh hr
  | evict ha => rcases ha with ⟨_, rfl⟩ | ⟨_, rfl⟩ | rfl <;> exact .evict rfl rfl

end Refinement

/-! ## Where a call is -/

/-- The place of a call in the pending requests, by how far `Resolve` is with it. -/
inductive Work.Fits (enabled : Bool) : Work → Pending.Call Tag → Prop
  | apart {w : Work} : (enabled = true → w.working? = none) → w ≠ .joined → Fits enabled w .idle
  | resolving {w : Work} {d : DNSContext} {stored : Option (Bytes × Nat)} : enabled = true →
      w.working? = some d → Fits enabled w (.resolving d stored)
  | finishing {d ctx : DNSContext} {err : Option Err} {tag : Tag} {q : Pending.Call Tag} :
      q.finish? ≠ none → Fits enabled (.finished d ctx err tag true) q
  | skipped {d ctx : DNSContext} {err : Option Err} {tag : Tag} :
      Fits enabled (.finished d ctx err tag true) (.skipped d ctx err tag)
  | joined {q : Pending.Call Tag} : q.joined? ≠ none → Fits enabled .joined q

/-- A call that has not come to its end. -/
def Work.running : Work → Bool
  | .looking _ | .exchanging .. | .replied .. => true
  | _ => false

theorem Work.Fits.next {enabled : Bool} {w : Work} {st : Pending.State Tag}
    {b : Pending.Action Tag} {q q' : Pending.Call Tag} (h : w.Fits enabled q)
    (hn : Pending.Next st b q q') (hpanic : q' ≠ .panicked) (hqueue : ∀ c d, b ≠ .queue c d)
    (hload : ∀ c ctx err tag, b = .load c ctx err tag → ∃ d, w = .finished d ctx err tag true) :
    w.Fits enabled q' := by
  cases hn with
  | bypass _ => exact absurd rfl (hqueue _ _)
  | join _ _ => exact absurd rfl (hqueue _ _)
  | lead _ _ => exact absurd rfl (hqueue _ _)
  | panic => exact absurd rfl hpanic
  | skip =>
    obtain ⟨d, rfl⟩ := hload _ _ _ _ rfl
    cases h with
    | resolving _ hw =>
      obtain rfl := Option.some.inj hw
      exact .skipped
    | finishing hq => exact absurd rfl hq
  | load =>
    obtain ⟨d, rfl⟩ := hload _ _ _ _ rfl
    exact .finishing (Option.some_ne_none _)
  | fill | delete | close =>
    cases h with
    | finishing _ => exact .finishing (Option.some_ne_none _)
    | joined hq => exact absurd rfl hq
  | wake =>
    cases h with
    | finishing hq => exact absurd rfl hq
    | joined _ => exact .joined (Option.some_ne_none _)

def Control.Fits (k : Control) : Prop := ∀ c, (k.work c).Fits k.enabled (k.pending.call c)

section Fits

variable {k k' : Control} {a : Action}

theorem Control.Fits.setWork (h : k.Fits) {c : Nat} {w : Work}
    (hw : w.Fits k.enabled (k.pending.call c)) : (k.setWork c w).Fits :=
  (Function.forall_update_iff k.work fun c w => w.Fits k.enabled (k.pending.call c)).mpr
    ⟨hw, fun c' _ => h c'⟩

theorem Control.Fits.call_idle (h : k.Fits) {c : Nat} (hc : k.work c = .idle) :
    k.pending.call c = .idle := by
  have hfits := h c
  rw [hc] at hfits
  generalize k.pending.call c = q at hfits
  cases hfits with
  | apart _ _ => rfl
  | resolving _ hw => cases hw

theorem Control.Fits.goesOn (h : k.Fits) {c : Nat} {w w' : Work} (hc : k.work c = w)
    (hrun : w.running = true) (hw : w'.working? = w.working?) (hjoined : w' ≠ .joined) :
    (k.setWork c w').Fits := by
  refine h.setWork ?_
  have hfits := h c
  rw [hc] at hfits
  generalize k.pending.call c = q at hfits
  cases hfits with
  | apart henabled _ => exact .apart (fun he => hw.trans (henabled he)) hjoined
  | resolving he hd => exact .resolving he (hw.trans hd)
  | finishing _ => cases hrun
  | skipped => cases hrun
  | joined _ => cases hrun

theorem Control.Fits.pending (h : k.Fits) {b : Pending.Action Tag} {q : Pending.State Tag}
    (hq : Pending.step k.pending b = some q) (hpanic : ∀ c, q.call c ≠ .panicked)
    (hqueue : ∀ c d, b ≠ .queue c d)
    (hload : ∀ c ctx err tag, b = .load c ctx err tag →
      ∃ d, k.work c = .finished d ctx err tag true) : { k with pending := q }.Fits := by
  intro c
  rcases Pending.call_cases hq c with hsame | ⟨hcaller, hn⟩
  · exact hsame ▸ h c
  · refine (h c).next hn (hpanic c) hqueue fun c' ctx err tag hb => ?_
    subst hb
    obtain rfl := hcaller
    exact hload _ _ _ _ rfl

theorem Control.Fits.queue (h : k.Fits) {c : Nat} {d : DNSContext} {q : Pending.State Tag}
    {w : Work} (henabled : k.enabled = true) (hq : Pending.step k.pending (.queue c d) = some q)
    (hpanic : ∀ c, q.call c ≠ .panicked) (hw : w.Queued c d q) :
    ({ k with pending := q }.setWork c w).Fits := by
  obtain ⟨x, hx, hn⟩ := Pending.call_step hq
  have hself : q.call c = x := by rw [hx]; exact Function.update_self ..
  have hother : ∀ c', c' ≠ c → q.call c' = k.pending.call c' := fun c' hc => by
    rw [hx]
    exact Function.update_of_ne hc ..
  refine (Function.forall_update_iff k.work fun c w => w.Fits k.enabled (q.call c)).mpr
    ⟨?_, fun c' hc => hother c' hc ▸ h c'⟩
  rw [Work.Queued, hself] at hw
  rw [hself]
  have hpanic := hself ▸ hpanic c
  generalize k.pending.call _ = x₀ at hn
  cases hn with
  | bypass _ =>
    obtain ⟨⟨_, _, _, hwait⟩, _⟩ | ⟨_, rfl⟩ := hw
    · cases hwait
    · exact .resolving henabled rfl
  | lead _ _ =>
    obtain ⟨⟨_, _, _, hwait⟩, _⟩ | ⟨_, rfl⟩ := hw
    · cases hwait
    · exact .resolving henabled rfl
  | join _ _ =>
    obtain ⟨_, rfl⟩ | ⟨hwait, _⟩ := hw
    · exact .joined (Option.some_ne_none _)
    · exact absurd rfl (hwait _ _ _)
  | panic => exact absurd rfl hpanic

theorem Control.Fits.step (h : k.Fits) (hs : Control.Step pf p k a k')
    (hpanic : ∀ c, k'.pending.call c ≠ .panicked) : k'.Fits := by
  have hstart : ∀ {c w}, k.work c = .idle → (k.enabled = true → w.working? = none) →
      w ≠ .joined → (k.setWork c w).Fits := by
    intro c w hc hw hjoined
    refine h.setWork ?_
    rw [h.call_idle hc]
    exact .apart hw hjoined
  cases hs with
  | refuse _ hc => exact hstart hc (fun _ => rfl) Work.noConfusion
  | bypass _ hc => exact hstart hc (fun _ => rfl) Work.noConfusion
  | alone _ hc he =>
    exact hstart hc (fun he' => absurd he' (by rw [he]; exact Bool.false_ne_true)) Work.noConfusion
  | queue _ _ he hq hw => exact h.queue he hq hpanic hw
  | miss hc => exact h.goesOn hc rfl rfl Work.noConfusion
  | hit hc _ => exact h.goesOn hc rfl rfl Work.noConfusion
  | expired hc _ => exact h.goesOn hc rfl rfl Work.noConfusion
  | @exchange _ _ _ _ works hc =>
    cases works <;> exact h.goesOn hc rfl rfl Work.noConfusion
  | @store _ _ _ _ works _ _ hc _ =>
    cases works <;> exact h.goesOn hc rfl rfl Work.noConfusion
  | load hc hq =>
    refine h.pending hq hpanic (fun _ _ hb => by cases hb) ?_
    rintro c ctx err tag ⟨⟩
    exact ⟨_, hc⟩
  | finish ha hq =>
    refine h.pending hq hpanic ?_ ?_
    · rintro c d rfl
      cases a <;> cases ha
    · rintro c ctx err tag rfl
      cases a <;> cases ha
  | busy _ _ | begin _ _ | exchangeRefresh _ | storeRefresh _ | endRefresh _ | evict _ _ => exact h

end Fits

/-! ## Refreshes -/

/-- The key of a refresh that is in progress. -/
def Refresh.key? : Refresh → Option Bytes
  | .running j | .replied j _ | .stored j => some j.key
  | _ => none

/-- A refresh that has not looked for its key yet. -/
def Refresh.spawned? : Refresh → Option Job
  | .spawned j => some j
  | _ => none

/-- The map of the optimistic resolver has the keys of the refreshes in progress. -/
structure Control.Flights (k : Control) : Prop where
  idle : ∀ r, k.nextRefresh ≤ r → k.refresh r = .idle
  keys : KeyLock.Inv (Refresh.key? ∘ k.refresh) k.inFlight

section Flights

variable {k k' : Control} {a : Action}

theorem Control.Flights.lt (h : k.Flights) {r : Nat} {f : Refresh} (hr : k.refresh r = f)
    (hf : f ≠ .idle) : r < k.nextRefresh := by
  by_contra hle
  exact hf (hr.symm.trans (h.idle r (Nat.not_lt.mp hle)))

theorem Control.Flights.setRefresh (h : k.Flights) {r : Nat} {f f' : Refresh}
    {inFlight : Bytes → Bool} (hr : k.refresh r = f) (hf : f ≠ .idle)
    (hkeys : KeyLock.Inv (Function.update (Refresh.key? ∘ k.refresh) r f'.key?) inFlight) :
    { k.setRefresh r f' with inFlight := inFlight }.Flights where
  idle r' hr' := by
    have hne : r' ≠ r := Nat.ne_of_gt (Nat.lt_of_lt_of_le (h.lt hr hf) hr')
    exact (Function.update_of_ne hne ..).trans (h.idle r' hr')
  keys := by
    rw [← Function.comp_update] at hkeys
    exact hkeys

theorem Control.Flights.keeps (h : k.Flights) {r : Nat} {f f' : Refresh} (hr : k.refresh r = f)
    (hf : f ≠ .idle) (hkey : f'.key? = f.key?) : (k.setRefresh r f').Flights := by
  refine h.setRefresh hr hf ?_
  rw [hkey, ← hr]
  exact (Function.update_eq_self r (Refresh.key? ∘ k.refresh)).symm ▸ h.keys

theorem Control.Flights.spawns (h : k.Flights) (j : Job) :
    { k.setRefresh k.nextRefresh (.spawned j) with nextRefresh := k.nextRefresh + 1 }.Flights where
  idle r hr :=
    (Function.update_of_ne (Nat.ne_of_gt hr) ..).trans (h.idle r (Nat.le_of_succ_le hr))
  keys := by
    show KeyLock.Inv (Refresh.key? ∘ Function.update k.refresh k.nextRefresh (.spawned j)) _
    have hnone : (Refresh.spawned j).key? = (Refresh.key? ∘ k.refresh) k.nextRefresh := by
      rw [Function.comp_apply, h.idle _ (Nat.le_refl _)]
      rfl
    rw [Function.comp_update, hnone, Function.update_eq_self]
    exact h.keys

theorem Control.Flights.step (h : k.Flights) (hs : Control.Step pf p k a k') : k'.Flights := by
  have hholds : ∀ {r f}, k.refresh r = f → (Refresh.key? ∘ k.refresh) r = f.key? :=
    fun hr => congrArg Refresh.key? hr
  cases hs with
  | expired _ _ => exact { h.spawns _ with }
  | busy hr _ => exact h.keeps hr Refresh.noConfusion rfl
  | begin hr hfree =>
    exact h.setRefresh hr Refresh.noConfusion (h.keys.take (hholds hr) hfree)
  | exchangeRefresh hr => exact h.keeps hr Refresh.noConfusion rfl
  | storeRefresh hr => exact h.keeps hr Refresh.noConfusion rfl
  | endRefresh hr =>
    exact h.setRefresh hr Refresh.noConfusion (h.keys.giveBack (hholds hr))
  | _ => exact { h with }

end Flights

/-! ## What is left to do -/

/-- The steps that `Resolve` has still to make, and those of the refresh that it may cause. -/
def Work.left : Work → Nat
  | .looking _ => 5
  | .exchanging .. => 2
  | .replied .. => 1
  | _ => 0

/-- The steps of `done`, or of the wait for another call. -/
def callLeft : Pending.Call Tag → Nat
  | .resolving .. => 4
  | .loaded _ => 3
  | .filled _ => 2
  | .deleted _ => 1
  | .waiting .. => 1
  | _ => 0

def Refresh.left : Refresh → Nat
  | .spawned _ => 4
  | .running _ => 3
  | .replied .. => 2
  | .stored _ => 1
  | _ => 0

/-- The steps of the calls before `n`, and of the refreshes. -/
def Control.left (k : Control) (n : Nat) : Nat :=
  ∑ c ∈ Finset.range n, (k.work c).left + ∑ c ∈ Finset.range n, callLeft (k.pending.call c) +
    ∑ r ∈ Finset.range k.nextRefresh, (k.refresh r).left

section Left

variable {k k' : Control} {a : Action} {n : Nat}

theorem sum_update {β : Type} (f : Nat → β) (g : β → Nat) {i : Nat} (hi : i < n) (b : β) :
    ∑ j ∈ Finset.range n, g (Function.update f i b j) + g (f i) =
      ∑ j ∈ Finset.range n, g (f j) + g b := by
  have hmem : i ∈ Finset.range n := Finset.mem_range.mpr hi
  have hcomp : ∀ j, g (Function.update f i b j) = Function.update (g ∘ f) i (g b) j :=
    fun j => congrFun (Function.comp_update g f i b) j
  simp only [hcomp]
  rw [Finset.sum_update_of_mem hmem, Finset.sdiff_singleton_eq_erase,
    ← Finset.add_sum_erase _ (fun j => g (f j)) hmem]
  simp only [Function.comp_apply]
  omega

theorem Control.left_setWork (k : Control) {c : Nat} (hc : c < n) (w : Work) :
    (k.setWork c w).left n + (k.work c).left = k.left n + w.left := by
  have hsum := sum_update k.work Work.left hc w
  unfold Control.left Control.setWork
  dsimp only
  omega

theorem Control.left_setRefresh (k : Control) {r : Nat} (hr : r < k.nextRefresh) (f : Refresh) :
    (k.setRefresh r f).left n + (k.refresh r).left = k.left n + f.left := by
  have hsum := sum_update k.refresh Refresh.left hr f
  unfold Control.left Control.setRefresh
  dsimp only
  omega

theorem Control.left_spawn (k : Control) (j : Job) :
    { k.setRefresh k.nextRefresh (.spawned j) with nextRefresh := k.nextRefresh + 1 }.left n =
      k.left n + 4 := by
  have hsame : ∀ r ∈ Finset.range k.nextRefresh,
      (Function.update k.refresh k.nextRefresh (.spawned j) r).left = (k.refresh r).left := by
    intro r hr
    rw [Function.update_of_ne (Nat.ne_of_lt (Finset.mem_range.mp hr))]
  unfold Control.left Control.setRefresh
  dsimp only
  rw [Finset.sum_range_succ, Finset.sum_congr rfl hsame, Function.update_self]
  exact (Nat.add_assoc ..).symm

variable {b : Pending.Action Tag}

theorem Control.left_pending (k : Control) {q : Pending.State Tag}
    (hq : Pending.step k.pending b = some q) (hc : b.caller < n) :
    Pending.Next k.pending b (k.pending.call b.caller) (q.call b.caller) ∧
      { k with pending := q }.left n + callLeft (k.pending.call b.caller) =
        k.left n + callLeft (q.call b.caller) := by
  obtain ⟨x, hx, hn⟩ := Pending.call_step hq
  have hsum := sum_update k.pending.call callLeft hc x
  have hself : q.call b.caller = x := by rw [hx, Function.update_self]
  rw [hself]
  refine ⟨hn, ?_⟩
  unfold Control.left
  dsimp only
  rw [hx]
  omega

theorem callLeft_next {st : Pending.State Tag} {q q' : Pending.Call Tag}
    (hn : Pending.Next st b q q') (hpanic : q' ≠ .panicked) (hqueue : ∀ c d, b ≠ .queue c d) :
    callLeft q' + 1 ≤ callLeft q := by
  cases hn with
  | bypass _ => exact absurd rfl (hqueue _ _)
  | join _ _ => exact absurd rfl (hqueue _ _)
  | lead _ _ => exact absurd rfl (hqueue _ _)
  | panic => exact absurd rfl hpanic
  | skip => exact Nat.le_add_left 1 3
  | _ => exact Nat.le_refl _

theorem callLeft_queue {st : Pending.State Tag} {c : Nat} {d : DNSContext}
    {q q' : Pending.Call Tag} (hn : Pending.Next st (.queue c d) q q') : callLeft q' ≤ 4 := by
  cases hn with
  | bypass _ => exact Nat.le_refl 4
  | join _ _ => exact Nat.le_add_left 1 3
  | lead _ _ => exact Nat.le_refl 4
  | panic => exact Nat.zero_le 4

theorem Control.left_finish (k : Control) {q : Pending.State Tag}
    (hq : Pending.step k.pending b = some q) (hpanic : ∀ c, q.call c ≠ .panicked)
    (hqueue : ∀ c d, b ≠ .queue c d) (hc : b.caller < n) :
    { k with pending := q }.left n + 1 ≤ k.left n := by
  obtain ⟨hn, hsum⟩ := k.left_pending hq hc
  have hnext := callLeft_next hn (hpanic _) hqueue
  omega

/-- The steps that are left: one less for each that is made, and nine more for a call that
starts. -/
theorem Control.Step.left_le (hs : Control.Step pf p k a k') (h : k.Flights)
    (hpanic : ∀ c, k'.pending.call c ≠ .panicked) (hn : ∀ c, a.caller? = some c → c < n) :
    k'.left n + a.proceeds.toNat ≤ k.left n + 9 * a.isStart.toNat := by
  have hstart : ∀ {c d}, a.starts? = some (c, d) → (c < n → k'.left n ≤ k.left n + 9) →
      k'.left n + a.proceeds.toNat ≤ k.left n + 9 * a.isStart.toNat := by
    intro c d ha hle
    have hisStart := Action.isStart_of_starts? ha
    rw [hisStart, Action.proceeds_of_isStart hisStart]
    exact hle (hn c (Action.caller?_of_starts? ha))
  have hwork : ∀ {c w w'}, k.work c = w → c < n →
      (k.setWork c w').left n + w.left = k.left n + w'.left :=
    fun hc hlt => hc ▸ k.left_setWork hlt _
  have hgo : ∀ {c w w'}, k.work c = w → c < n → w'.left + 1 ≤ w.left →
      (k.setWork c w').left n + 1 ≤ k.left n := by
    intro c w w' hc hlt hle
    have hsum := @hwork c w w' hc hlt
    omega
  have hrefresh : ∀ {r f f'}, k.refresh r = f → f ≠ .idle → f'.left + 1 ≤ f.left →
      (k.setRefresh r f').left n + 1 ≤ k.left n := by
    intro r f f' hr hf hle
    have hsum := k.left_setRefresh (n := n) (h.lt hr hf) f'
    rw [hr] at hsum
    omega
  cases hs with
  | refuse ha hc =>
    exact hstart ha fun hlt => (hwork hc hlt).le.trans (Nat.le_add_right _ 9)
  | bypass ha hc =>
    obtain ⟨⟨_, _, ha, -⟩, -⟩ := ha
    exact hstart ha fun hlt =>
      (hwork hc hlt).le.trans (Nat.add_le_add_left (by decide : 2 ≤ 9) _)
  | alone ha hc _ =>
    obtain ⟨⟨_, _, ha, -⟩, -⟩ := ha
    exact hstart ha fun hlt =>
      (hwork hc hlt).le.trans (Nat.add_le_add_left (by decide : 5 ≤ 9) _)
  | @queue _ c d q w ha hc _ hq hw =>
    obtain ⟨⟨_, _, ha, -⟩, -⟩ := ha
    refine hstart ha fun hlt => ?_
    obtain ⟨hnext, hsum⟩ := k.left_pending hq hlt
    have hset := { k with pending := q }.left_setWork hlt w
    have hcall := callLeft_queue hnext
    have hleft : w.left ≤ 5 := by
      rcases hw with ⟨-, rfl⟩ | ⟨-, rfl⟩
      · exact Nat.zero_le 5
      · exact Nat.le_refl 5
    omega
  | miss hc => exact hgo hc (hn _ rfl) (by decide : 2 + 1 ≤ 5)
  | hit hc _ => exact hgo hc (hn _ rfl) (by decide : 0 + 1 ≤ 5)
  | @expired c now d t ci tag j hc _ =>
    let done := Work.finished d (complete pf (fromCache d ci)) none tag true
    have hset := @hwork c _ done hc (hn _ rfl)
    have hspawn := (k.setWork c done).left_spawn (n := n) j
    exact (congrArg (· + 1) hspawn).le.trans hset.le
  | exchange hc => exact hgo hc (hn _ rfl) (Nat.le_refl 2)
  | store hc _ => exact hgo hc (hn _ rfl) (Nat.le_refl 1)
  | load hc hq =>
    exact k.left_finish hq hpanic (fun _ _ hb => by cases hb) (hn _ rfl)
  | @finish _ b q ha hq =>
    have hcaller : a.caller? = some b.caller := by cases a <;> cases ha <;> rfl
    have hgoes : a.proceeds = true ∧ a.isStart = false := by
      cases a <;> cases ha <;> exact ⟨rfl, rfl⟩
    rw [hgoes.1, hgoes.2]
    refine k.left_finish hq hpanic ?_ (hn _ hcaller)
    rintro c d rfl
    cases a <;> cases ha
  | busy hr _ => exact hrefresh hr Refresh.noConfusion (by decide : 0 + 1 ≤ 4)
  | begin hr _ => exact hrefresh hr Refresh.noConfusion (Nat.le_refl 4)
  | exchangeRefresh hr => exact hrefresh hr Refresh.noConfusion (Nat.le_refl 3)
  | storeRefresh hr => exact hrefresh hr Refresh.noConfusion (Nat.le_refl 2)
  | endRefresh hr => exact hrefresh hr Refresh.noConfusion (Nat.le_refl 1)
  | evict hproceeds _ =>
    rw [hproceeds]
    exact Nat.le_add_right _ _

end Left

/-! ## Runs -/

/-- No condition on where responses come from. -/
def anyOrigin (pf : Platform) (p : Proxy) : Discipline pf p where
  Start _ _ _ := True
  Hold _ _ _ := True
  Keep _ _ := True
  Renew _ _ := True
  Join _ _ := True
  Ask _ _ := True
  keep_none _ := trivial
  hit _ _ _ _ _ := trivial
  exchange _ _ _ _ _ := trivial
  keep _ _ _ _ _ := trivial
  renew _ _ _ := trivial
  renew_keep _ _ _ _ := trivial
  follow _ _ _ _ _ := trivial
  ask _ _ _ _ _ _ := trivial
  renew_ask _ _ _ _ _ := trivial

section Runs

variable {conf : SharedConfig} {rd : RecursionDetector} {allowed : State → Action → Prop}
  {s : State}

theorem pending_reach (h : Reach pf p (init p conf rd) allowed s) : Pending.Reach s.pending := by
  have hinv : (anyOrigin pf p).Inv s := by
    refine inv_reach (fun s a _ => ?_) h
    exact (anyOrigin pf p).allows_of (fun _ _ _ _ _ _ => trivial) fun _ _ _ => trivial
  exact hinv.pending.reach

theorem control_reach (h : Reach pf p (init p conf rd) allowed s) :
    s.control.Fits ∧ s.control.Flights := by
  induction h with
  | refl =>
    exact ⟨fun _ => .apart (fun _ => rfl) Work.noConfusion, fun _ _ => rfl, KeyLock.Inv.init⟩
  | step hreach ha hs ih =>
    have hpanic := Pending.not_panicked (pending_reach (hreach.step ha hs))
    exact ⟨ih.1.step (control_step hs) hpanic, ih.2.step (control_step hs)⟩

/-- The refreshes of the optimistic cache with one key come one after the other: the key is in
the map just as long as one of them is in progress, and another one is given up at once. -/
theorem refresh_single (h : Reach pf p (init p conf rd) allowed s) :
    (∀ key, s.inFlight key = true ↔ ∃ r, (s.refresh r).key? = some key) ∧
      (∀ r r' key, (s.refresh r).key? = some key → (s.refresh r').key? = some key → r = r') ∧
      ∀ r r' j, (s.refresh r).key? = some j.key → (s.refresh r').spawned? = some j →
        step pf p s (.beginRefresh r') = some (s.setRefresh r' .finished) := by
  obtain ⟨-, -, hkeys⟩ := control_reach h
  refine ⟨hkeys.taken_iff, hkeys.single, fun r r' j hr hr' => ?_⟩
  have htaken : s.inFlight j.key = true := (hkeys.taken_iff j.key).mpr ⟨r, hr⟩
  unfold step
  dsimp only
  cases hw : s.refresh r' with
  | spawned j' =>
    rw [hw] at hr'
    obtain rfl := Option.some.inj hr'
    exact if_pos htaken
  | _ =>
    rw [hw] at hr'
    cases hr'

/-- The settings of the examples with an optimistic cache. -/
def optimisticShared : SharedConfig where
  pendingEnabled := true
  withECS _ := false
  optimistic := true
  optimisticTTL := 10000000000
  optimisticMaxAge := 3600000000000

/-- A time at which the response of the examples has expired. -/
def lateInstant : Instant := ⟨100 * second, by decide⟩

/-- A call gets a response that has expired. -/
def staleSteps (c : Nat) : List Action :=
  [.resolve c (udpContext exampleQuery), .lookup c lateInstant, .load c, .fill c, .delete c,
    .close c]

/-- Two calls get the expired response of a third, and the refresh of one of them begins. -/
def staleRun : List Action :=
  .resolve 0 (udpContext exampleQuery) :: soloSteps 0 exampleEnv .epoch ++ staleSteps 1 ++
    staleSteps 2 ++ [.beginRefresh 0]

/-- The refresh of the other one is given up. -/
theorem refresh_single_two : ∃ s,
    run examplePlatform exampleProxy (init exampleProxy optimisticShared noRecursion) staleRun =
      some s ∧
    (s.refresh 0).key? = some (msgToKey exampleQuery) ∧
    (∀ r, (s.refresh r).key? = some (msgToKey exampleQuery) → r = 0) ∧
    step examplePlatform exampleProxy s (.beginRefresh 1) = some (s.setRefresh 1 .finished) := by
  obtain ⟨s, hs, hzero, hone⟩ := exists_of_any
    (run examplePlatform exampleProxy (init exampleProxy optimisticShared noRecursion) staleRun)
    (fun s => (s.refresh 0).key? = some (msgToKey exampleQuery) ∧
      (s.refresh 1).spawned?.map Job.key = some (msgToKey exampleQuery)) (by decide +kernel)
  have hreach : Reach examplePlatform exampleProxy (init exampleProxy optimisticShared noRecursion)
      (fun _ _ => True) s := .of_replay .refl (fun _ _ _ _ => trivial) hs
  obtain ⟨-, hsingle, hbegin⟩ := refresh_single hreach
  obtain ⟨j, hj, hkey⟩ := Option.map_eq_some_iff.mp hone
  exact ⟨s, hs, hzero, fun r hr => hsingle r 0 _ hr hzero, hbegin 0 1 j (hkey ▸ hzero) hj⟩

/-! ## The end of a run -/

/-- The call has not been started, or has come to its end. -/
def HasEnded (s : State) (c : Nat) : Prop :=
  s.work c = .idle ∨ s.work c = .answered ∨ ∃ r, s.result? c = some r

/-- Every call has returned, every refresh has ended, and the two maps are empty. -/
structure Completed (s : State) : Prop where
  calls : ∀ c, HasEnded s c
  refreshes : ∀ r, s.refresh r = .idle ∨ s.refresh r = .finished
  pending : ∀ key, s.pending.storage key = none
  inFlight : ∀ key, s.inFlight key = false

/-- The call can make a step of its own. -/
def CanGoOn (pf : Platform) (p : Proxy) (s : State) (c : Nat) : Prop :=
  ∃ a s', a.proceeds = true ∧ a.caller? = some c ∧ step pf p s a = some s'

/-- The call waits for the one that has stored the entry. -/
def WaitsFor (s : State) (c c' : Nat) : Prop :=
  ∃ d d' k e, s.pending.call c = .waiting d k e ∧ (s.pending.call c').stored? = some (d', k, e)

/-- No call and no refresh can go on. -/
def Stuck (pf : Platform) (p : Proxy) (s : State) : Prop :=
  ∀ a : Action, a.proceeds = true → step pf p s a = none

/-- The call cannot go on. -/
def Halted (pf : Platform) (p : Proxy) (s : State) (c : Nat) : Prop :=
  ∀ a : Action, a.proceeds = true → a.caller? = some c → step pf p s a = none

theorem Stuck.halted (h : Stuck pf p s) (c : Nat) : Halted pf p s c := fun a ha _ => h a ha

theorem canGoOn_or_halted (pf : Platform) (p : Proxy) (s : State) (c : Nat) :
    CanGoOn pf p s c ∨ Halted pf p s c := by
  by_cases hc : CanGoOn pf p s c
  · exact .inl hc
  · refine .inr fun a ha hcaller => Option.eq_none_iff_forall_ne_some.mpr fun s' hs => ?_
    exact hc ⟨a, s', ha, hcaller, hs⟩

variable {c : Nat}

theorem Halted.not_running (h : Halted pf p s c) : (s.work c).running = false := by
  have hlookup := h (.lookup c .epoch) rfl rfl
  have hexchange := h (.exchange c (answeringEnv fun _ _ => none) .epoch) rfl rfl
  have hstore := h (.store c .epoch) rfl rfl
  unfold step at hlookup hexchange hstore
  dsimp only at hlookup hexchange hstore
  cases hw : s.work c with
  | looking d => rw [hw] at hlookup; cases hlookup
  | exchanging d works => rw [hw] at hexchange; cases hexchange
  | replied d works r => rw [hw] at hstore; cases hstore
  | _ => rfl

theorem Stuck.refresh (h : Stuck pf p s) (r : Nat) :
    s.refresh r = .idle ∨ s.refresh r = .finished := by
  have hbegin := h (.beginRefresh r) rfl
  have hexchange := h (.exchangeRefresh r (answeringEnv fun _ _ => none) .epoch) rfl
  have hstore := h (.storeRefresh r .epoch) rfl
  have hend := h (.endRefresh r) rfl
  unfold step at hbegin hexchange hstore hend
  dsimp only at hbegin hexchange hstore hend
  cases hr : s.refresh r with
  | idle => exact .inl rfl
  | finished => exact .inr rfl
  | spawned j =>
    rw [hr] at hbegin
    dsimp only at hbegin
    split at hbegin <;> cases hbegin
  | running j => rw [hr] at hexchange; cases hexchange
  | replied j x => rw [hr] at hstore; cases hstore
  | stored j => rw [hr] at hend; cases hend

theorem Halted.pending (h : Halted pf p s c) {a : Action} {b : Pending.Action Tag}
    (ha : a.pending? = some b) (hc : a.caller? = some c) : Pending.step s.pending b = none := by
  have hnone : step pf p s a = none := h a (by cases a <;> first | rfl | cases ha) hc
  cases a <;> cases ha <;> exact Option.map_eq_none_iff.mp hnone

theorem load_possible {st : Pending.State Tag} {queued : DNSContext} {stored : Option (Bytes × Nat)}
    (hc : st.call c = .resolving queued stored) (d : DNSContext) (err : Option Err) (tag : Tag) :
    Pending.step st (.load c d err tag) ≠ none := by
  unfold Pending.step
  dsimp only
  rw [hc]
  dsimp only
  split
  · exact Option.some_ne_none _
  · split <;> exact Option.some_ne_none _

theorem Work.finished_of_working {w : Work} {d : DNSContext} (hw : w.working? = some d)
    (hrun : w.running = false) : ∃ ctx err tag, w = .finished d ctx err tag true := by
  cases w with
  | idle | answered | joined => cases hw
  | looking d' | exchanging d' works | replied d' works r => cases hrun
  | finished d' ctx err tag works =>
    cases works with
    | false => cases hw
    | true =>
      obtain rfl := Option.some.inj hw
      exact ⟨ctx, err, tag, rfl⟩

theorem Halted.at_rest (h : Halted pf p s c) (hfits : s.control.Fits) :
    callLeft (s.pending.call c) = 0 ∨ ∃ d k e, s.pending.call c = .waiting d k e := by
  have hfill := h.pending (show (Action.fill c).pending? = _ from rfl) rfl
  have hdelete := h.pending (show (Action.delete c).pending? = _ from rfl) rfl
  have hclose := h.pending (show (Action.close c).pending? = _ from rfl) rfl
  unfold Pending.step at hfill hdelete hclose
  dsimp only at hfill hdelete hclose
  cases hc : s.pending.call c with
  | resolving d stored =>
    have hf : (s.work c).Fits s.pendingEnabled (s.pending.call c) := hfits c
    rw [hc] at hf
    have hwork : (s.work c).working? = some d := by
      generalize s.work c = w at hf
      cases hf with
      | resolving _ hw => exact hw
      | finishing hq => exact absurd rfl hq
      | joined hq => exact absurd rfl hq
    obtain ⟨ctx, err, tag, hw⟩ := Work.finished_of_working hwork h.not_running
    have hload := h (.load c) rfl rfl
    unfold step at hload
    dsimp only at hload
    rw [hw] at hload
    exact absurd (Option.map_eq_none_iff.mp hload) (load_possible hc ctx err tag)
  | loaded f => rw [hc] at hfill; cases hfill
  | filled f => rw [hc] at hdelete; cases hdelete
  | deleted f =>
    rw [hc] at hclose
    dsimp only at hclose
    split at hclose <;> cases hclose
  | waiting d k e => exact .inr ⟨d, k, e, rfl⟩
  | _ => exact .inl rfl

theorem Halted.not_waitsFor {c' : Nat} (h : Halted pf p s c) (h' : Halted pf p s c')
    (hfits : s.control.Fits) (hreach : Pending.Reach s.pending) : ¬ WaitsFor s c c' := by
  rintro ⟨d, d', k, e, hc, hstored⟩
  have hdone : ∃ f, s.pending.call c' = .done f := by
    rcases h'.at_rest hfits with hzero | ⟨_, _, _, hwait⟩
    · cases hq : s.pending.call c' with
      | done f => exact ⟨f, rfl⟩
      | resolving d stored => rw [hq] at hzero; cases hzero
      | loaded f | filled f | deleted f => rw [hq] at hzero; cases hzero
      | _ => rw [hq] at hstored; cases hstored
    · rw [hwait] at hstored
      cases hstored
  obtain ⟨f, hf⟩ := hdone
  have hfin : (s.pending.call c').finish? = some f := by rw [hf]; rfl
  have hpending : f.pending = e := by
    rw [hf] at hstored
    have hown := (Pending.finish_own hreach hfin).2
    simp only [Pending.Call.stored?, hown, Option.map_some, Option.some.injEq,
      Prod.mk.injEq] at hstored
    exact hstored.2.2
  have hclosed : (s.pending.requests e).finish = 1 := by
    rcases Pending.finish_closed hreach hfin with ⟨hone, -⟩ | ⟨-, hnot⟩
    · exact hpending ▸ hone
    · exact absurd hf hnot
  have hwake := h.pending (show (Action.wake c).pending? = _ from rfl) rfl
  unfold Pending.step at hwake
  dsimp only at hwake
  rw [hc] at hwake
  simp only [hclosed] at hwake
  split at hwake
  · next hzero => exact absurd hzero Nat.one_ne_zero
  · split at hwake <;> cases hwake

theorem result_of_rest (hfits : s.control.Fits) (hrun : (s.work c).running = false)
    (hrest : callLeft (s.pending.call c) = 0) (hpanic : s.pending.call c ≠ .panicked) :
    HasEnded s c := by
  have hf : (s.work c).Fits s.pendingEnabled (s.pending.call c) := hfits c
  unfold HasEnded State.result?
  generalize s.work c = w at hf hrun
  generalize s.pending.call c = q at hf hrest hpanic
  cases hf with
  | apart _ hjoined =>
    cases w with
    | idle => exact .inl rfl
    | answered => exact .inr (.inl rfl)
    | joined => exact absurd rfl hjoined
    | looking d | exchanging d works | replied d works r => cases hrun
    | finished d ctx err tag works => exact .inr (.inr ⟨_, rfl⟩)
  | resolving _ _ => cases hrest
  | finishing hq =>
    cases q with
    | done f => exact .inr (.inr ⟨_, rfl⟩)
    | loaded f | filled f | deleted f => cases hrest
    | _ => exact absurd rfl hq
  | skipped => exact .inr (.inr ⟨_, rfl⟩)
  | joined hq =>
    cases q with
    | returned d k e clone err => exact .inr (.inr ⟨_, rfl⟩)
    | waiting d k e => cases hrest
    | _ => exact absurd rfl hq

theorem ended_or_goes_on (hreach : Reach pf p (init p conf rd) allowed s) (c : Nat) :
    HasEnded s c ∨ CanGoOn pf p s c ∨ ∃ c', WaitsFor s c c' ∧ CanGoOn pf p s c' := by
  obtain ⟨hfits, -⟩ := control_reach hreach
  have hpending := pending_reach hreach
  rcases canGoOn_or_halted pf p s c with hc | hc
  · exact .inr (.inl hc)
  · rcases hc.at_rest hfits with hzero | ⟨d, k, e, hwaiting⟩
    · exact .inl
        (result_of_rest hfits hc.not_running hzero (Pending.not_panicked hpending c))
    · obtain ⟨c', d', hstored⟩ := Pending.waiting_of_leader hpending hwaiting
      have hwaits : WaitsFor s c c' := ⟨d, d', k, e, hwaiting, hstored⟩
      refine .inr (.inr ⟨c', hwaits, (canGoOn_or_halted pf p s c').resolve_right fun hc' => ?_⟩)
      exact hc.not_waitsFor hc' hfits hpending hwaits

theorem Stuck.completed (h : Stuck pf p s) (hreach : Reach pf p (init p conf rd) allowed s) :
    Completed s := by
  obtain ⟨hfits, hflights⟩ := control_reach hreach
  have hpending := pending_reach hreach
  have hzero : ∀ c, callLeft (s.pending.call c) = 0 := by
    refine fun c => ((h.halted c).at_rest hfits).resolve_right ?_
    rintro ⟨d, k, e, hwaiting⟩
    obtain ⟨c', d', hstored⟩ := Pending.waiting_of_leader hpending hwaiting
    exact (h.halted c).not_waitsFor (h.halted c') hfits hpending ⟨d, d', k, e, hwaiting, hstored⟩
  refine ⟨fun c => ?_, h.refresh, fun key => ?_, fun key => ?_⟩
  · exact result_of_rest hfits (h.halted c).not_running (hzero c)
      (Pending.not_panicked hpending c)
  · cases hkey : s.pending.storage key with
    | none => rfl
    | some e =>
      obtain ⟨c, hleads⟩ := Pending.leads_of_storage hpending hkey
      have hc := hzero c
      cases hq : s.pending.call c with
      | resolving d stored => rw [hq] at hc; cases hc
      | loaded f | filled f => rw [hq] at hc; cases hc
      | _ => rw [hq] at hleads; cases hleads
  · cases hkey : s.inFlight key with
    | false => rfl
    | true =>
      obtain ⟨r, hr⟩ := (hflights.keys.taken_iff key).mp hkey
      rcases h.refresh r with hidle | hfin
      · rw [show (Refresh.key? ∘ s.control.refresh) r = (s.refresh r).key? from rfl, hidle] at hr
        cases hr
      · rw [show (Refresh.key? ∘ s.control.refresh) r = (s.refresh r).key? from rfl, hfin] at hr
        cases hr

theorem left_run {s s' : State} {as : List Action} {n : Nat}
    (hreach : Reach pf p (init p conf rd) (fun _ _ => True) s)
    (hn : ∀ a ∈ as, ∀ c, a.caller? = some c → c < n) (hr : run pf p s as = some s') :
    s'.control.left n + as.countP Action.proceeds ≤
      s.control.left n + 9 * as.countP Action.isStart := by
  induction as generalizing s with
  | nil =>
    obtain rfl := Option.some.inj hr
    exact Nat.le_refl _
  | cons a as ih =>
    obtain ⟨t, ht, hr⟩ := Option.bind_eq_some_iff.mp hr
    have hreach' := hreach.step trivial ht
    have hstep := (control_step ht).left_le (control_reach hreach).2
      (Pending.not_panicked (pending_reach hreach')) (hn a List.mem_cons_self)
    have hrest := ih hreach' (fun a' ha' => hn a' (List.mem_cons_of_mem _ ha')) hr
    have hcount : ∀ f : Action → Bool, (a :: as).countP f = as.countP f + (f a).toNat := by
      intro f
      rw [List.countP_cons]
      cases f a <;> rfl
    rw [hcount, hcount]
    omega

theorem left_init (n : Nat) : (init p conf rd).control.left n = 0 := by
  simp [Control.left, State.control, init, Pending.init, Work.left, callLeft]

theorem caller_bound (as : List Action) : ∃ n, ∀ a ∈ as, ∀ c, a.caller? = some c → c < n := by
  induction as with
  | nil => exact ⟨0, fun _ h => by cases h⟩
  | cons a as ih =>
    obtain ⟨n, hn⟩ := ih
    refine ⟨max n (a.caller?.getD 0 + 1), List.forall_mem_cons.mpr ⟨fun c hc => ?_, ?_⟩⟩
    · rw [hc]
      exact Nat.lt_of_lt_of_le (Nat.lt_succ_self c) (Nat.le_max_right ..)
    · exact fun a' ha' c hc => Nat.lt_of_lt_of_le (hn a' ha' c hc) (Nat.le_max_left ..)

theorem Control.Step.started {k k' : Control} {a : Action} (hs : Control.Step pf p k a k')
    (hfits : k.Fits) (hpanic : ∀ c, k'.pending.call c ≠ .panicked) (ha : a.proceeds = true)
    (hc : a.caller? = some c) : k.work c ≠ .idle := by
  intro hidle
  have hcall := hfits.call_idle hidle
  have hpending : ∀ {b : Pending.Action Tag} {q : Pending.State Tag}, b.caller = c →
      (∀ c d, b ≠ .queue c d) → Pending.step k.pending b = some q →
      (∀ c, q.call c ≠ .panicked) → False := by
    intro b q hb hqueue hq hpanic
    obtain ⟨x, hx, hn⟩ := Pending.call_step hq
    have hx : q.call b.caller = x := by rw [hx, Function.update_self]
    have hle := callLeft_next hn (hx ▸ hpanic _) hqueue
    rw [hb, hcall] at hle
    cases hle
  cases hs with
  | refuse hstart _ =>
    cases (Action.proceeds_of_isStart (Action.isStart_of_starts? hstart)).symm.trans ha
  | bypass hstart _ | alone hstart _ _ | queue hstart _ _ _ _ =>
    obtain ⟨⟨_, _, hstart, -⟩, -⟩ := hstart
    cases (Action.proceeds_of_isStart (Action.isStart_of_starts? hstart)).symm.trans ha
  | miss hw | hit hw _ | expired hw _ | exchange hw | store hw _ =>
    obtain rfl := Option.some.inj hc
    cases hw.symm.trans hidle
  | load _ hq =>
    obtain rfl := Option.some.inj hc
    exact hpending rfl (fun _ _ hb => by cases hb) hq hpanic
  | @finish _ b q hb hq =>
    refine hpending ?_ ?_ hq hpanic
    · cases a <;> cases hb <;> exact Option.some.inj hc
    · rintro c d rfl
      cases a <;> cases hb
  | evict hproceeds _ => cases hproceeds.symm.trans ha
  | _ => cases hc

/-- The calls from `n` on have not been started. -/
def Control.Unstarted (k : Control) (n : Nat) : Prop := ∀ c, n ≤ c → k.work c = .idle

theorem Control.Step.unstarted {k k' : Control} {a : Action} {n : Nat}
    (hs : Control.Step pf p k a k') (h : k.Unstarted n) (hn : ∀ c, a.caller? = some c → c < n) :
    k'.Unstarted n := by
  have hset : ∀ {c} w, a.caller? = some c → (k.setWork c w).Unstarted n := by
    intro c w hc c' hc'
    have hne : c' ≠ c := Nat.ne_of_gt (Nat.lt_of_lt_of_le (hn c hc) hc')
    exact (Function.update_of_ne hne ..).trans (h c' hc')
  cases hs with
  | refuse hstart _ => exact hset _ (Action.caller?_of_starts? hstart)
  | bypass hstart _ | alone hstart _ _ | queue hstart _ _ _ _ =>
    obtain ⟨⟨_, _, hstart, -⟩, -⟩ := hstart
    exact hset _ (Action.caller?_of_starts? hstart)
  | miss _ | hit _ _ | expired _ _ | exchange _ | store _ _ => exact hset _ rfl
  | _ => exact h

theorem unstarted_reach (h : Reach pf p (init p conf rd) allowed s) :
    ∃ n, s.control.Unstarted n := by
  induction h with
  | refl => exact ⟨0, fun _ _ => rfl⟩
  | @step _ _ a _ _ hs ih =>
    obtain ⟨n, hn⟩ := ih
    obtain ⟨m, hm⟩ := caller_bound [a]
    refine ⟨max n m, (control_step hs).unstarted (fun c hc => ?_) fun c hc => ?_⟩
    · exact hn c (Nat.le_trans (Nat.le_max_left n m) hc)
    · exact Nat.lt_of_lt_of_le (hm a (List.mem_singleton_self a) c hc) (Nat.le_max_right n m)

theorem exists_completed (h : Reach pf p (init p conf rd) (fun _ _ => True) s) :
    ∃ as s', (∀ a ∈ as, a.proceeds = true) ∧ run pf p s as = some s' ∧ Completed s' := by
  obtain ⟨n, hn⟩ := unstarted_reach h
  -- As long as the state is not completed there is a step, and each uses up one that is left.
  induction hleft : s.control.left n using Nat.strong_induction_on generalizing s with
  | _ m ih =>
    by_cases hstuck : Stuck pf p s
    · exact ⟨[], s, List.forall_mem_nil _, rfl, hstuck.completed h⟩
    · obtain ⟨a, ha⟩ := not_forall.mp hstuck
      obtain ⟨ha, hsome⟩ := Classical.not_imp.mp ha
      obtain ⟨t, ht⟩ := Option.ne_none_iff_exists'.mp hsome
      have hreach := h.step trivial ht
      have hpanic := Pending.not_panicked (pending_reach hreach)
      have hcaller : ∀ c, a.caller? = some c → c < n := by
        intro c hc
        by_contra hle
        exact (control_step ht).started (control_reach h).1 hpanic ha hc (hn c (Nat.not_lt.mp hle))
      have hless : t.control.left n < m := by
        have hle := (control_step ht).left_le (control_reach h).2 hpanic hcaller
        have hnot : a.isStart = false := by
          cases hstart : a.isStart with
          | false => rfl
          | true => cases (Action.proceeds_of_isStart hstart).symm.trans ha
        rw [ha, hnot, hleft] at hle
        exact hle
      obtain ⟨as, s', has, hrun, hcompleted⟩ :=
        ih _ hless hreach ((control_step ht).unstarted hn hcaller) rfl
      exact ⟨a :: as, s', List.forall_mem_cons.mpr ⟨ha, has⟩,
        Option.bind_eq_some_iff.mpr ⟨t, ht, hrun⟩, hcompleted⟩

/-- In every run the calls and the refreshes make at most nine steps for each call that was
started. A call that has not come to its end can go on, or the one that it waits for can. When
no call and no refresh can go on, they have all come to an end; and from every state they
can. -/
theorem resolve_completes {as : List Action} (h : run pf p (init p conf rd) as = some s) :
    as.countP Action.proceeds ≤ 9 * as.countP Action.isStart ∧
      (∀ c, HasEnded s c ∨ CanGoOn pf p s c ∨ ∃ c', WaitsFor s c c' ∧ CanGoOn pf p s c') ∧
      (Stuck pf p s → Completed s) ∧
      ∃ as' s', (∀ a ∈ as', a.proceeds = true) ∧ run pf p s as' = some s' ∧ Completed s' := by
  obtain ⟨n, hn⟩ := caller_bound as
  have hreach : Reach pf p (init p conf rd) (fun _ _ => True) s :=
    .of_replay .refl (fun _ _ _ _ => trivial) h
  refine ⟨?_, ended_or_goes_on hreach, fun hstuck => hstuck.completed hreach,
    exists_completed hreach⟩
  have hleft := left_run .refl hn h
  rw [left_init] at hleft
  omega

/-- A call has got an expired response, and its refresh is still to come. -/
theorem resolve_completes_stale : ∃ s as s',
    run examplePlatform exampleProxy (init exampleProxy optimisticShared noRecursion)
      (.resolve 0 (udpContext exampleQuery) :: soloSteps 0 exampleEnv .epoch ++ staleSteps 1) =
      some s ∧
    s.nextRefresh = 1 ∧ run examplePlatform exampleProxy s as = some s' ∧ Completed s' := by
  obtain ⟨s, hs, hnext⟩ := exists_of_any
    (run examplePlatform exampleProxy (init exampleProxy optimisticShared noRecursion)
      (.resolve 0 (udpContext exampleQuery) :: soloSteps 0 exampleEnv .epoch ++ staleSteps 1))
    (fun s => s.nextRefresh = 1) (by decide +kernel)
  obtain ⟨-, -, -, as, s', -, hrun, hcompleted⟩ := resolve_completes hs
  exact ⟨s, as, s', hs, hnext, hrun, hcompleted⟩

end Runs

end DnsProxy.System
