import DnsProxy.DoTPool

/-!
# The connection of a DoQ upstream

All exchanges use one connection. `getConnection` opens it under the lock if there is none, and an
exchange that fails closes it. When the first attempt fails on a connection that was there
before, it is made once more on the connection that is there then, or on a new one.

* `Effect`: what a step can do to the connection.
* `Inv`: every connection that was opened is closed, or is the one in use.
* `closed_after_close`: what `Close` leaves open, for this upstream and for the DoT one.
-/

namespace DnsProxy.DoQConn

open Runs

/-- Where an exchange is. -/
inductive Phase
  | starting
  /-- In `exchangeQUIC` for the first time. -/
  | exchanging (conn : Nat) (cached : Bool)
  /-- Before `closeConnWithError`; `again` if another attempt follows. -/
  | failed (conn : Nat) (again : Bool)
  /-- Before `getConnection` for the second time. -/
  | reconnecting
  | retrying (conn : Nat)
  | returned
deriving DecidableEq, Repr

structure State where
  conn : Option Nat := none
  dialed : Nat := 0
  /-- The connections that were closed. -/
  ended : List Nat := []
  closed : Bool := false
  tasks : List Phase := []
deriving DecidableEq, Repr

/-- What comes of `exchangeQUIC`. -/
inductive Outcome
  | ok
  /-- A protocol error, or the time is up. -/
  | final
  | error
deriving DecidableEq, Repr

inductive Event
  /-- `Exchange` is called. -/
  | exchange
  /-- It returns at once: the exchange state is in use. -/
  | refuse (i : Nat)
  /-- `opens` tells if `openConnection` succeeds. -/
  | getConnection (i : Nat) (opens : Bool)
  /-- `exchangeQUIC` returns. -/
  | attempt (i : Nat) (outcome : Outcome)
  | closeConnWithError (i : Nat)
  /-- `Close` of the upstream. -/
  | close
deriving DecidableEq, Repr

def State.setTask (s : State) (i : Nat) (t : Phase) : State := { s with tasks := s.tasks.set i t }

/-- The state, and the connection with `cached`. -/
def State.getConnection (s : State) (opens : Bool) : State × Option (Nat × Bool) :=
  match s.conn with
  | some x => (s, some (x, true))
  | none =>
    if opens then
      ({ s with conn := some s.dialed, dialed := s.dialed + 1 }, some (s.dialed, false))
    else (s, none)

def State.closeConnWithError (s : State) (x : Nat) : State :=
  { s with
    ended := s.ended ++ [x]
    conn := if s.conn = some x then none else s.conn }

/-- The connection is closed, but stays the one in use. -/
def State.close (s : State) : State := { s with ended := s.ended ++ s.conn.toList, closed := true }

/-- Where an exchange goes after `getConnection`. -/
def Phase.connected (again : Bool) : Option (Nat × Bool) → Phase
  | none => .returned
  | some (x, cached) => if again then .retrying x else .exchanging x cached

/-- Where an exchange goes after an attempt on `x`; `cached` is false for the second one. -/
def Phase.attempted (x : Nat) (cached : Bool) : Outcome → Phase
  | .ok => .returned
  | .final => .failed x false
  | .error => .failed x cached

def step (s : State) : Event → Option State
  | .exchange => some { s with tasks := s.tasks ++ [.starting] }
  | .close => some s.close
  | .refuse i => if s.tasks[i]? = some .starting then some (s.setTask i .returned) else none
  | .getConnection i opens =>
    let (s', conn) := s.getConnection opens
    match s.tasks[i]? with
    | some .starting => some (s'.setTask i (.connected false conn))
    | some .reconnecting => some (s'.setTask i (.connected true conn))
    | _ => none
  | .attempt i outcome =>
    match s.tasks[i]? with
    | some (.exchanging x cached) => some (s.setTask i (.attempted x cached outcome))
    | some (.retrying x) => some (s.setTask i (.attempted x false outcome))
    | _ => none
  | .closeConnWithError i =>
    match s.tasks[i]? with
    | some (.failed x again) =>
      some ((s.closeConnWithError x).setTask i (if again then .reconnecting else .returned))
    | _ => none

/-! ## What a step can do -/

inductive Effect (s : State) (e : Event) : State → Prop
  | tasks (l : List Phase) : Effect s e { s with tasks := l }
  | opened {i : Nat} (l : List Phase) (he : e = .getConnection i true) (hconn : s.conn = none) :
      Effect s e { s with conn := some s.dialed, dialed := s.dialed + 1, tasks := l }
  | failed (l : List Phase) (x : Nat) :
      Effect s e { s.closeConnWithError x with tasks := l }
  | close : Effect s e s.close

section Steps

variable {s s' : State} {e : Event}

theorem getConnection_effect (i : Nat) (opens : Bool) (t : Phase) :
    Effect s (.getConnection i opens) ((s.getConnection opens).1.setTask i t) := by
  unfold State.getConnection
  split
  · exact .tasks _
  · next hconn =>
    cases opens with
    | true => exact .opened _ rfl hconn
    | false => exact .tasks _

theorem step_effect (h : step s e = some s') : Effect s e s' := by
  cases e with
  | exchange => cases h; exact .tasks _
  | close => cases h; exact .close
  | refuse i =>
    simp only [step] at h
    split at h
    · cases h
      exact .tasks _
    · cases h
  | getConnection i opens =>
    simp only [step] at h
    split at h
    · cases h
      exact getConnection_effect i opens _
    · cases h
      exact getConnection_effect i opens _
    · cases h
  | attempt i outcome =>
    simp only [step] at h
    split at h
    · cases h
      exact .tasks _
    · cases h
      exact .tasks _
    · cases h
  | closeConnWithError i =>
    simp only [step] at h
    split at h
    · next x again _ =>
      cases h
      exact .failed _ x
    · cases h

/-- A connection that was opened is closed, or it is the one in use. -/
def Inv (s : State) : Prop := ∀ x < s.dialed, x ∈ s.ended ∨ s.conn = some x

theorem inv_step (hinv : Inv s) (h : step s e = some s') : Inv s' := by
  intro x hx
  cases step_effect h with
  | tasks => exact hinv x hx
  | opened l he hconn =>
    rcases Nat.lt_succ_iff_lt_or_eq.mp hx with hold | rfl
    · refine (hinv x hold).imp_right fun hx => ?_
      rw [hconn] at hx
      cases hx
    · exact .inr rfl
  | failed l y =>
    rcases hinv x hx with hended | hconn
    · exact .inl (List.mem_append_left _ hended)
    · rcases eq_or_ne x y with rfl | hne
      · exact .inl (List.mem_append_right _ (List.mem_singleton_self _))
      · exact .inr (by simp [State.closeConnWithError, hconn, hne])
  | close => exact (hinv x hx).imp_left (List.mem_append_left _)

/-- No connection is opened after `Close`. -/
def openedBeforeClose (s : State) : Event → Bool
  | .getConnection _ opens => !(opens && s.closed && s.conn.isNone)
  | _ => true

/-- Nothing is open. -/
def AllEnded (s : State) : Prop := ∀ x < s.dialed, x ∈ s.ended

theorem allEnded_step (hinv : Inv s) (hended : s.closed = true → AllEnded s)
    (hguard : openedBeforeClose s e = true) (h : step s e = some s') :
    s'.closed = true → AllEnded s' := by
  intro hclosed x hx
  cases step_effect h with
  | tasks => exact hended hclosed x hx
  | opened l he hconn =>
    subst he
    have hopen : s.closed = false := by simpa [openedBeforeClose, hconn] using hguard
    exact absurd hclosed (by simp [hopen])
  | failed l y => exact List.mem_append_left _ (hended hclosed x hx)
  | close =>
    rcases hinv x hx with hmem | hconn
    · exact List.mem_append_left _ hmem
    · exact List.mem_append_right _ (by simp [hconn])

theorem allEnded_of_run (h : Run step (fun s e => openedBeforeClose s e = true) {} s)
    (hclosed : s.closed = true) : AllEnded s := by
  have hinv : Inv s ∧ (s.closed = true → AllEnded s) := by
    refine h.invariant (p := fun s => Inv s ∧ (s.closed = true → AllEnded s)) ⟨nofun, nofun⟩ ?_
    intro s e s' ⟨hinv, hended⟩ hguard hs
    exact ⟨inv_step hinv hs, allEnded_step hinv hended hguard hs⟩
  exact hinv.2 hclosed

end Steps

/-! ## `Close` -/

/-- After `Close` and the return of all exchanges every connection is closed: those of a DoT
upstream if no reply was still to be handled when it was closed and none came later, those of a DoQ
upstream if none was opened later. -/
theorem closed_after_close (tls : DoTPool.State) (quic : State) :
    (Run DoTPool.step (fun s e => DoTPool.answeredBeforeClose s e = true) {} tls →
      tls.closed = true → (∀ t ∈ tls.tasks, t.phase = .returned) →
      ∀ x < tls.dialed, x ∈ tls.retired ∨ x ∈ tls.shut) ∧
    (Run step (fun s e => openedBeforeClose s e = true) {} quic →
      quic.closed = true → ∀ x < quic.dialed, x ∈ quic.ended) := by
  refine ⟨fun h hclosed hreturned x hx => ?_, fun h hclosed => allEnded_of_run h hclosed⟩
  rcases DoTPool.closed_or_held h hclosed hx with hret | hshut | ⟨t, ht, hheld⟩
  · exact .inl hret
  · exact .inr hshut
  · rw [DoTPool.Task.held, hreturned t ht] at hheld
    exact absurd hheld (Multiset.notMem_zero x)

/-- An exchange has used the connection, another one uses it when the upstream is closed, fails and
finds the server gone. -/
def quietRun : List Event :=
  [.exchange, .getConnection 0 true, .attempt 0 .ok, .exchange, .getConnection 1 true, .close,
    .attempt 1 .error, .closeConnWithError 1, .getConnection 1 false]

def quietState : State where
  dialed := 1
  ended := [0, 0]
  closed := true
  tasks := [.returned, .returned]

/-- The pool of a DoT upstream is closed when all exchanges have returned. -/
def quietPool : DoTPool.State := { DoTPool.busyState with shut := [1, 2], closed := true }

theorem closed_after_close_quiet :
    (replay DoTPool.step DoTPool.answeredBeforeClose {} (DoTPool.busyRun ++ [.close]) =
      some quietPool ∧ ∀ x < 3, x ∈ quietPool.retired ∨ x ∈ quietPool.shut) ∧
    (replay step openedBeforeClose {} quietRun = some quietState ∧
      ∀ x < 1, x ∈ quietState.ended) := by
  have htls : replay DoTPool.step DoTPool.answeredBeforeClose {} (DoTPool.busyRun ++ [.close]) =
      some quietPool := by decide
  have hquic : replay step openedBeforeClose {} quietRun = some quietState := by decide
  obtain ⟨hpool, hconn⟩ := closed_after_close quietPool quietState
  exact ⟨⟨htls, hpool (run_of_replay htls .refl) rfl (by decide)⟩,
    hquic, hconn (run_of_replay hquic .refl) rfl⟩

/-- The reply comes after `Close`. -/
def lateReply : List DoTPool.Event :=
  [.exchange, .conn 0 true, .dial 0 .ok, .close, .attempt 0 true, .putBack 0]

def lateReplyState : DoTPool.State where
  conns := [0]
  dialed := 1
  closed := true
  tasks := [{ phase := .returned, taken := [0], putBack := [0] }]

/-- The exchange that `Close` has interrupted opens a connection of its own. -/
def lateDial : List Event :=
  [.exchange, .getConnection 0 true, .attempt 0 .ok, .exchange, .getConnection 1 true, .close,
    .attempt 1 .error, .closeConnWithError 1, .getConnection 1 true, .attempt 1 .ok]

def lateDialState : State where
  conn := some 1
  dialed := 2
  ended := [0, 0]
  closed := true
  tasks := [.returned, .returned]

theorem open_after_close :
    (replay DoTPool.step (fun _ _ => true) {} lateReply = some lateReplyState ∧
      (∀ t ∈ lateReplyState.tasks, t.phase = .returned) ∧
      0 < lateReplyState.dialed ∧ 0 ∉ lateReplyState.retired ∧ 0 ∉ lateReplyState.shut) ∧
    (replay step (fun _ _ => true) {} lateDial = some lateDialState ∧
      (∀ t ∈ lateDialState.tasks, t = .returned) ∧
      1 < lateDialState.dialed ∧ 1 ∉ lateDialState.ended) := by
  decide

end DnsProxy.DoQConn
