import DnsProxy.Proxy
import DnsProxy.Lib.Permits
import DnsProxy.Lib.Runs

/-!
# The request semaphore

The permits of `requestsSema`, which the listeners share. A UDP packet, a TCP or TLS
connection and a DNSCrypt request take one each. A QUIC connection takes one for as long
as it is handled, and its handler then takes a further one from the same pool for each
stream before it accepts the next.

* `deadlocked_run`: when all permits are held by handlers of QUIC connections that wait
  for a permit for a stream, nothing but the shutdown of the listener ends that.
* `progress`: in every other state a task that waits can go on after some task has
  finished.
* `permits_safe`: a permit is released once, and if a connection is given a permit only
  while one more is left over by the connections, such a state is not reached.
-/

namespace DnsProxy.RequestsSema

open Permits

/-- What a permit is held for. -/
inductive Holder
  /-- A packet, connection or request of a protocol other than QUIC. -/
  | request (proto : Proto)
  /-- `handleQUICConnection`. -/
  | connection
  /-- `handleQUICStream`, on the connection of the task with this index. -/
  | stream (conn : Nat)
deriving DecidableEq, Repr

/-- The task `c` is the handler of a connection and is in `Acquire` for a stream. -/
def blocked (s : Pool Holder) (c : Nat) : Bool :=
  (s.tasks[c]?.any fun t => t.label = .connection) &&
    s.tasks.any fun t => t.phase = .waiting ∧ t.label = .stream c

/-- The task `c` is the handler of a connection that waits for a stream: it is not in
`Acquire`, and `Acquire` has returned no error. -/
def accepting (s : Pool Holder) (c : Nat) : Bool :=
  (s.tasks[c]?.any fun t => t.phase = .holding ∧ t.label = .connection) &&
    !s.tasks.any fun t => (t.phase = .waiting ∨ t.phase = .refused) ∧ t.label = .stream c

inductive Action
  /-- A listener, or a DNSCrypt handler, calls `Acquire`. -/
  | request (proto : Proto)
  /-- The QUIC listener has accepted a connection and calls `Acquire`. -/
  | connection
  /-- The handler of the connection has accepted a stream and calls `Acquire`. -/
  | stream (c : Nat)
  /-- `Acquire` returns, and the task is started. -/
  | acquire (i : Nat)
  /-- `Acquire` returns an error, since its context is done. -/
  | refuse (i : Nat)
  /-- The task returns, and its deferred `Release` runs. -/
  | finish (i : Nat)
deriving DecidableEq, Repr

/-- One step with `n` permits. -/
def step (n : Nat) (s : Pool Holder) : Action → Option (Pool Holder)
  | .request proto => some (s.enter (.request proto))
  | .connection => some (s.enter .connection)
  | .stream c => if accepting s c then some (s.enter (.stream c)) else none
  | .acquire i => s.acquire n i
  | .refuse i => s.refuse i
  | .finish i => if blocked s i then none else s.release i

/-- The states reached from `s₀` by steps that meet `guard`. -/
abbrev Run (n : Nat) (guard : Pool Holder → Action → Prop) : Pool Holder → Pool Holder → Prop :=
  Runs.Run (step n) guard

/-- The states reached from the start. -/
def Reached (n : Nat) (guard : Pool Holder → Action → Prop) : Pool Holder → Prop :=
  Run n guard {}

/-- All permits are held by handlers of QUIC connections that are waiting for another. -/
def Deadlocked (n : Nat) (s : Pool Holder) : Prop :=
  s.used = n ∧ ∀ (i : Nat) (t : Claimant Holder), s.tasks[i]? = some t → t.phase = .holding →
    blocked s i = true

/-- The handlers of QUIC connections that hold permits. -/
def connections (s : Pool Holder) : Nat := s.count (· = .connection)

/-- A connection is given a permit only while one more is left over by the connections. -/
def LeavesRoom (n : Nat) (s : Pool Holder) (a : Action) : Prop :=
  ∀ (i : Nat) (t : Claimant Holder), a = .acquire i → s.tasks[i]? = some t →
    t.label = .connection → connections s + 1 < n

/-- No stream is refused its permit: the context of its listener is done only after
`Shutdown`. -/
def BeforeShutdown (s : Pool Holder) (a : Action) : Prop :=
  ∀ (i : Nat) (t : Claimant Holder), a = .refuse i → s.tasks[i]? = some t → ∀ c,
    t.label ≠ .stream c

/-! ## Invariants -/

section Steps

variable {n : Nat} {s s' : Pool Holder} {a : Action} {guard : Pool Holder → Action → Prop}

/-- What one step does to the pool. -/
inductive Effect (n : Nat) (s : Pool Holder) : Action → Pool Holder → Prop
  | enter (a : Action) (label : Holder) : Effect n s a (s.enter label)
  | acquire {i : Nat} {s' : Pool Holder} (h : s.acquire n i = some s') : Effect n s (.acquire i) s'
  | refuse {i : Nat} {s' : Pool Holder} (h : s.refuse i = some s') : Effect n s (.refuse i) s'
  | release {i : Nat} {s' : Pool Holder} (hfree : ¬blocked s i = true)
      (h : s.release i = some s') : Effect n s (.finish i) s'

theorem step_effect (hs : step n s a = some s') : Effect n s a s' := by
  cases a with
  | request proto => cases hs; exact .enter _ _
  | connection => cases hs; exact .enter _ _
  | stream c =>
    simp only [step] at hs
    split at hs
    · cases hs
      exact .enter _ _
    · cases hs
  | acquire i => exact .acquire hs
  | refuse i => exact .refuse hs
  | finish i =>
    simp only [step] at hs
    split at hs
    · cases hs
    · next hfree => exact .release hfree hs

theorem inv_step (h : s.Inv n) (hs : step n s a = some s') : s'.Inv n := by
  cases step_effect hs with
  | enter _ label => exact h.enter label
  | acquire hs => exact h.acquire hs
  | refuse hs => exact h.refuse hs
  | release _ hs => exact h.release hs

theorem inv_reached (h : Reached n guard s) : s.Inv n := by
  induction h with
  | refl => exact .init n
  | step _ _ hs ih => exact inv_step ih hs

theorem connections_step (h : connections s < n) (hguard : LeavesRoom n s a)
    (hs : step n s a = some s') : connections s' < n := by
  cases step_effect hs with
  | enter _ label => exact (Pool.count_enter _ label).trans_lt h
  | @acquire i _ hs =>
    obtain ⟨t, ht, -⟩ := Pool.acquire_some hs
    have hcount := Pool.count_acquire (· = .connection) ht hs
    by_cases hlabel : t.label = .connection
    · rw [if_pos (by simpa using hlabel)] at hcount
      exact hcount.trans_lt (hguard i t rfl ht hlabel)
    · rw [if_neg (by simpa using hlabel)] at hcount
      exact hcount.trans_lt h
  | refuse hs => exact (Pool.count_refuse _ hs).trans_lt h
  | release _ hs =>
    obtain ⟨t, ht, -⟩ := Pool.release_some hs
    have hcount := Pool.count_release (· = .connection) ht hs
    exact Nat.lt_of_le_of_lt (Nat.le_of_add_right_le hcount.le) h

theorem connections_reached (hn : 1 ≤ n) (h : Reached n (LeavesRoom n) s) :
    connections s < n := by
  induction h with
  | refl => exact hn
  | step _ hguard hs ih => exact connections_step ih hguard hs

theorem blocked_iff {i : Nat} {t : Claimant Holder} (ht : s.tasks[i]? = some t) :
    blocked s i = true ↔ t.label = .connection ∧
      ∃ (j : Nat) (u : Claimant Holder), s.tasks[j]? = some u ∧ u.phase = .waiting ∧
        u.label = .stream i := by
  simp only [blocked, ht, Bool.and_eq_true, List.any_eq_true, decide_eq_true_eq, Option.any_some,
    List.mem_iff_getElem?]
  exact and_congr_right fun _ => ⟨fun ⟨u, ⟨j, hj⟩, hu⟩ => ⟨j, u, hj, hu⟩,
    fun ⟨j, u, hj, hu⟩ => ⟨u, ⟨j, hj⟩, hu⟩⟩

theorem connections_of_deadlocked (h : s.Inv n) (hdead : Deadlocked n s) : connections s = n := by
  rw [← hdead.1]
  refine (h.used_eq_count fun t ht hphase => ?_).symm
  obtain ⟨i, hi⟩ := List.mem_iff_getElem?.mp ht
  exact decide_eq_true ((blocked_iff hi).mp (hdead.2 i t hi hphase)).1

/-! ## What a deadlock is -/

theorem deadlocked_enter (h : Deadlocked n s) (label : Holder) :
    Deadlocked n (s.enter label) := by
  refine ⟨h.1, ?_⟩
  intro i t ht hphase
  have hentered : ∀ {j : Nat} {u : Claimant Holder}, s.tasks[j]? = some u →
      (s.enter label).tasks[j]? = some u := by
    intro j u hu
    rw [Pool.enter, List.getElem?_append_left (List.getElem?_eq_some_iff.mp hu).1]
    exact hu
  rcases Nat.lt_or_ge i s.tasks.length with hi | hi
  · have ht' : s.tasks[i]? = some t := by rwa [Pool.enter, List.getElem?_append_left hi] at ht
    obtain ⟨hlabel, j, u, hu, hwait⟩ := (blocked_iff ht').mp (h.2 i t ht' hphase)
    exact (blocked_iff ht).mpr ⟨hlabel, j, u, hentered hu, hwait⟩
  · -- the task that has entered waits
    rw [Pool.enter, List.getElem?_append_right hi] at ht
    obtain rfl := List.mem_singleton.mp (List.mem_of_getElem? ht)
    cases hphase

theorem deadlocked_refuse {i : Nat} {t : Claimant Holder} (h : Deadlocked n s)
    (hs : s.refuse i = some s') (ht : s.tasks[i]? = some t) (hlabel : ∀ c, t.label ≠ .stream c) :
    Deadlocked n s' := by
  obtain ⟨t', ht', hwaiting, rfl⟩ := Pool.refuse_some hs
  obtain rfl : t = t' := Option.some.inj (ht.symm.trans ht')
  refine ⟨h.1, ?_⟩
  intro j u hu hphase
  have hne : i ≠ j := by
    rintro rfl
    rw [List.getElem?_set_self (List.getElem?_eq_some_iff.mp ht).1] at hu
    obtain rfl := Option.some.inj hu
    cases hphase
  have hu' : s.tasks[j]? = some u := by rwa [List.getElem?_set_ne hne] at hu
  obtain ⟨hconn, k, v, hv, hwait, hstream⟩ := (blocked_iff hu').mp (h.2 j u hu' hphase)
  refine (blocked_iff hu).mpr ⟨hconn, k, v, ?_, hwait, hstream⟩
  have hne' : i ≠ k := by
    rintro rfl
    rw [← Option.some.inj (ht.symm.trans hv)] at hstream
    exact hlabel j hstream
  rwa [List.getElem?_set_ne hne']

theorem deadlocked_step (h : Deadlocked n s) (hrefuse : BeforeShutdown s a)
    (hs : step n s a = some s') : Deadlocked n s' := by
  cases step_effect hs with
  | enter _ label => exact deadlocked_enter h label
  | acquire hs =>
    obtain ⟨t, -, -, hlt, -⟩ := Pool.acquire_some hs
    exact absurd h.1 (Nat.ne_of_lt hlt)
  | @refuse i _ hs =>
    obtain ⟨t, ht, -⟩ := Pool.refuse_some hs
    exact deadlocked_refuse h hs ht (hrefuse i t rfl ht)
  | @release i _ hfree hs =>
    obtain ⟨t, ht, hphase, -⟩ := Pool.release_some hs
    exact absurd (h.2 i t ht hphase) hfree

theorem deadlocked_run (h : Deadlocked n s) (hrun : Run n BeforeShutdown s s') :
    Deadlocked n s' := by
  induction hrun with
  | refl => exact h
  | step _ hguard hs ih => exact deadlocked_step ih hguard hs

/-- Without a deadlock a task that waits is given a permit, or some task can finish. -/
theorem progress (h : s.Inv n) (hlive : ¬Deadlocked n s) {i : Nat} {t : Claimant Holder}
    (ht : s.tasks[i]? = some t) (hwaiting : t.phase = .waiting) :
    step n s (.acquire i) ≠ none ∨ ∃ j, step n s (.finish j) ≠ none := by
  by_cases hlt : s.used < n
  · left
    simp [step, Pool.acquire, ht, hwaiting, hlt]
  · right
    have hfull : s.used = n := Nat.le_antisymm h.le (Nat.le_of_not_lt hlt)
    obtain ⟨j, u, hu, hholding, hfree⟩ : ∃ (j : Nat) (u : Claimant Holder),
        s.tasks[j]? = some u ∧ u.phase = .holding ∧ ¬blocked s j = true := by
      by_contra hno
      refine hlive ⟨hfull, fun j u hu hholding => ?_⟩
      by_contra hfree
      exact hno ⟨j, u, hu, hholding, hfree⟩
    refine ⟨j, ?_⟩
    simp [step, Pool.release, hu, hholding, hfree]

end Steps

/-- Whatever the interleaving, every permit that was acquired is released once, unless it
is still held, and those in use are held. If every step leaves room for one more than the
connections, no state is reached in which they hold all permits and wait for others. -/
theorem permits_safe (n : Nat) (hn : 1 ≤ n) :
    (∀ guard s, Reached n guard s →
      s.used = s.tasks.countP Claimant.holds ∧ s.used ≤ n ∧ ∀ t ∈ s.tasks, t.Once) ∧
    ∀ s, Reached n (LeavesRoom n) s → ¬Deadlocked n s := by
  refine ⟨?_, ?_⟩
  · intro guard s hs
    have hinv := inv_reached hs
    refine ⟨hinv.used.trans ?_, hinv.le, hinv.once⟩
    simp only [Pool.count, Bool.and_true]
  · intro s hs hdead
    have hlt := connections_reached hn hs
    rw [connections_of_deadlocked (inv_reached hs) hdead] at hlt
    exact Nat.lt_irrefl n hlt

theorem permits_safe_one_connection :
    ¬Deadlocked 2 ⟨1, [⟨.connection, .holding, 1, 0⟩, ⟨.stream 0, .waiting, 0, 0⟩]⟩ := by
  refine (permits_safe 2 (by decide)).2 _ (.step (e := .stream 0) (.step (e := .acquire 0)
    (.step (e := .connection) .refl ?_ rfl) ?_ rfl) ?_ rfl)
  · exact nofun
  · intro i t _ _ _
    decide
  · exact nofun

/-- Two connections that have accepted a stream each, with two permits. -/
def deadlock : Pool Holder :=
  ⟨2, [⟨.connection, .holding, 1, 0⟩, ⟨.connection, .holding, 1, 0⟩,
    ⟨.stream 0, .waiting, 0, 0⟩, ⟨.stream 1, .waiting, 0, 0⟩]⟩

theorem deadlocked_deadlock : Deadlocked 2 deadlock := by
  refine ⟨rfl, ?_⟩
  intro i t ht hphase
  rcases i with _ | _ | _ | _ | i
  · decide
  · decide
  · cases ht
    cases hphase
  · cases ht
    cases hphase
  · cases ht

/-- The deadlock is reached, and lasts until the shutdown. -/
theorem deadlock_reached :
    Reached 2 (fun _ _ => True) deadlock ∧ ∀ s, Run 2 BeforeShutdown deadlock s → Deadlocked 2 s :=
  ⟨.step (e := .stream 1) (.step (e := .stream 0) (.step (e := .acquire 1)
    (.step (e := .connection) (.step (e := .acquire 0) (.step (e := .connection) .refl
      trivial rfl) trivial rfl) trivial rfl) trivial rfl) trivial rfl) trivial rfl,
    fun _ => deadlocked_run deadlocked_deadlock⟩

end DnsProxy.RequestsSema
