import DnsProxy.Lib.Custody

/-!
# The runs of a DNSCrypt server over TCP

`Start` begins a run: a loop accepts connections and starts a handler for each of them. A
connection is in the map of the server while its handler is not through. `Shutdown` stops the
run and closes the connections in the map; the channel of the run is closed when the loop
has ended and its handlers are through. What is done under the lock is one step.

Connections are numbered in the order in which they are accepted, and runs in the order in
which they are started. The channel that the server has in a field is that of the last run.

* `Effect`: what a step can do.
* `Order`: a run is over before the next one begins, and so are its handlers.
* `Conns`: every accepted connection was refused, or has one handler.
* `lifecycle`: what follows for the runs.
-/

namespace DnsProxy.DnsCrypt.Lifecycle

open Custody Runs

/-- Where the goroutine of a run is. -/
inductive Loop
  /-- Before `isStarted`. -/
  | checking
  | accepting
  /-- A connection was accepted, but the lock is not there yet. -/
  | adopting (conn : Nat)
  /-- The loop has ended; its handlers are waited for. -/
  | draining
  /-- The channel is closed. -/
  | done
deriving DecidableEq, Repr

def Loop.held : Loop → Multiset Nat
  | .adopting x => {x}
  | .checking | .accepting | .draining | .done => 0

inductive Serving
  | active
  /-- The connection is closed, but still in the map. -/
  | closing
  | exited
deriving DecidableEq, Repr

structure Handler where
  conn : Nat
  run : Nat
  phase : Serving := .active
deriving DecidableEq, Repr

def Handler.owned (h : Handler) : Multiset Nat := {h.conn}

def Handler.tracked (h : Handler) : Multiset Nat :=
  match h.phase with
  | .active | .closing => {h.conn}
  | .exited => 0

inductive Waiting
  | waiting
  | joined
  /-- The context is done. -/
  | expired
deriving DecidableEq, Repr

/-- A call of `Shutdown` after its critical section. -/
structure Waiter where
  run : Nat
  phase : Waiting := .waiting
deriving DecidableEq, Repr

structure State where
  started : Bool := false
  runs : List Loop := []
  /-- `tcpConns`. -/
  conns : List Nat := []
  handlers : List Handler := []
  waiters : List Waiter := []
  accepted : Nat := 0
  /-- The connections that the loops have closed at once. -/
  refused : List Nat := []
  closed : List Nat := []
deriving DecidableEq, Repr

inductive StartErr
  | cancelled
  | alreadyStarted
  | stillClosing
  | binding
deriving DecidableEq, Repr

def State.bindListener (s : State) (bound : Bool) : State × Option StartErr :=
  if bound then ({ s with started := true, runs := s.runs ++ [.checking] }, none)
  else (s, some .binding)

def State.start (s : State) (cancelled bound : Bool) : State × Option StartErr :=
  if cancelled then (s, some .cancelled)
  else if s.started then (s, some .alreadyStarted)
  else
    match s.runs.getLast? with
    | none => s.bindListener bound
    | some loop => if loop = .done then s.bindListener bound else (s, some .stillClosing)

/-- The critical section of `Shutdown`; `none` for `ErrServerNotStarted`. -/
def State.shutdown (s : State) : Option State :=
  match s.runs.length with
  | 0 => none
  | n + 1 =>
    let waiters := s.waiters ++ [{ run := n }]
    if s.started then
      some { s with started := false, closed := s.closed ++ s.conns, waiters := waiters }
    else some { s with waiters := waiters }

/-- The critical section of `serveTCPLoop`. -/
def State.adopt (s : State) (i x : Nat) : State :=
  if s.started then
    { s with
      runs := s.runs.set i .checking
      conns := s.conns ++ [x]
      handlers := s.handlers ++ [{ conn := x, run := i }] }
  else
    { s with
      runs := s.runs.set i .draining
      refused := s.refused ++ [x]
      closed := s.closed ++ [x] }

inductive Event
  | start (cancelled bound : Bool)
  /-- `isStarted` at the head of the loop. -/
  | check (i : Nat)
  | accept (i : Nat)
  /-- `Accept` fails, and `isStarted` is asked again. -/
  | acceptError (i : Nat) (timeout : Bool)
  /-- The critical section after `Accept`. -/
  | adopt (i : Nat)
  /-- A handler is through and closes its connection. -/
  | exit (k : Nat)
  /-- It removes the connection from the map. -/
  | release (k : Nat)
  /-- The loop has ended and all handlers are through. -/
  | drain (i : Nat)
  | shutdown
  /-- A `Shutdown` returns, because the run is over, or because its context is done. -/
  | join (k : Nat)
  | expire (k : Nat)
deriving DecidableEq, Repr

def step (s : State) : Event → Option State
  | .start cancelled bound => some (s.start cancelled bound).1
  | .check i =>
    if s.runs[i]? = some .checking then
      some { s with runs := s.runs.set i (if s.started then .accepting else .draining) }
    else none
  | .accept i =>
    if s.runs[i]? = some .accepting then
      some { s with runs := s.runs.set i (.adopting s.accepted), accepted := s.accepted + 1 }
    else none
  | .acceptError i timeout =>
    if s.runs[i]? = some .accepting then
      some { s with runs := s.runs.set i (if s.started && timeout then .checking else .draining) }
    else none
  | .adopt i =>
    match s.runs[i]? with
    | some (.adopting x) => some (s.adopt i x)
    | _ => none
  | .exit k =>
    match s.handlers[k]? with
    | some h =>
      if h.phase = .active then
        some { s with
          handlers := s.handlers.set k { h with phase := .closing }
          closed := s.closed ++ [h.conn] }
      else none
    | none => none
  | .release k =>
    match s.handlers[k]? with
    | some h =>
      if h.phase = .closing then
        some { s with
          handlers := s.handlers.set k { h with phase := .exited }
          conns := s.conns.erase h.conn }
      else none
    | none => none
  | .drain i =>
    if s.runs[i]? = some .draining ∧ ∀ h ∈ s.handlers, h.run = i → h.phase = .exited then
      some { s with runs := s.runs.set i .done }
    else none
  | .shutdown => some (s.shutdown.getD s)
  | .join k =>
    match s.waiters[k]? with
    | some w =>
      if w.phase = .waiting ∧ s.runs[w.run]? = some .done then
        some { s with waiters := s.waiters.set k { w with phase := .joined } }
      else none
    | none => none
  | .expire k =>
    match s.waiters[k]? with
    | some w =>
      if w.phase = .waiting then
        some { s with waiters := s.waiters.set k { w with phase := .expired } }
      else none
    | none => none

/-! ## What a step can do -/

inductive Effect (s : State) : State → Prop
  | nothing : Effect s s
  | start (hstopped : s.started = false)
      (hlast : ∀ loop, s.runs.getLast? = some loop → loop = .done) :
      Effect s { s with started := true, runs := s.runs ++ [.checking] }
  /-- A loop goes on or ends. -/
  | turn {i : Nat} {loop : Loop} (loop' : Loop) (hi : s.runs[i]? = some loop)
      (hne : loop ≠ .done) (hne' : loop' ≠ .done) (hheld : loop'.held = loop.held) :
      Effect s { s with runs := s.runs.set i loop' }
  | accept {i : Nat} (hi : s.runs[i]? = some .accepting) :
      Effect s { s with
        runs := s.runs.set i (.adopting s.accepted), accepted := s.accepted + 1 }
  | adopt {i x : Nat} (hi : s.runs[i]? = some (.adopting x)) (hstarted : s.started = true) :
      Effect s { s with
        runs := s.runs.set i .checking
        conns := s.conns ++ [x]
        handlers := s.handlers ++ [{ conn := x, run := i }] }
  | refuse {i x : Nat} (hi : s.runs[i]? = some (.adopting x)) :
      Effect s { s with
        runs := s.runs.set i .draining
        refused := s.refused ++ [x]
        closed := s.closed ++ [x] }
  | exit {k : Nat} {h : Handler} (hk : s.handlers[k]? = some h) (hphase : h.phase = .active) :
      Effect s { s with
        handlers := s.handlers.set k { h with phase := .closing }
        closed := s.closed ++ [h.conn] }
  | release {k : Nat} {h : Handler} (hk : s.handlers[k]? = some h) (hphase : h.phase = .closing) :
      Effect s { s with
        handlers := s.handlers.set k { h with phase := .exited }
        conns := s.conns.erase h.conn }
  | drain {i : Nat} (hi : s.runs[i]? = some .draining)
      (hall : ∀ h ∈ s.handlers, h.run = i → h.phase = .exited) :
      Effect s { s with runs := s.runs.set i .done }
  | shutdown (l : List Waiter) (hl : ∀ w ∈ l, w.phase = .joined → w ∈ s.waiters) :
      Effect s { s with started := false, closed := s.closed ++ s.conns, waiters := l }
  | wait (l : List Waiter)
      (hl : ∀ w ∈ l, w.phase = .joined → w ∈ s.waiters ∨ s.runs[w.run]? = some .done) :
      Effect s { s with waiters := l }

section Steps

variable {s s' : State} {e : Event}

theorem bindListener_effect (hstopped : s.started = false)
    (hlast : ∀ loop, s.runs.getLast? = some loop → loop = .done) (bound : Bool) :
    Effect s (s.bindListener bound).1 := by
  cases bound with
  | true => exact .start hstopped hlast
  | false => exact .nothing

theorem start_effect (cancelled bound : Bool) : Effect s (s.start cancelled bound).1 := by
  unfold State.start
  split
  · exact .nothing
  · split
    · exact .nothing
    · next hstarted =>
      have hstopped := Bool.eq_false_iff.mpr hstarted
      split
      · next hnone =>
        refine bindListener_effect hstopped (fun loop hloop => ?_) bound
        rw [hnone] at hloop
        cases hloop
      · next last hlast =>
        split
        · next hdone =>
          refine bindListener_effect hstopped (fun loop hloop => ?_) bound
          exact (Option.some.inj (hloop.symm.trans hlast)).trans hdone
        · exact .nothing

theorem joined_concat {l : List Waiter} {n : Nat} :
    ∀ w ∈ l ++ [{ run := n }], w.phase = .joined → w ∈ l := by
  intro w hw hphase
  rcases List.mem_append.mp hw with hmem | hnew
  · exact hmem
  · obtain rfl := List.mem_singleton.mp hnew
    cases hphase

theorem shutdown_effect : Effect s (s.shutdown.getD s) := by
  unfold State.shutdown
  split
  · exact .nothing
  · dsimp only
    split
    · exact .shutdown _ joined_concat
    · exact .wait _ fun w hw hphase => .inl (joined_concat w hw hphase)

theorem step_effect (h : step s e = some s') : Effect s s' := by
  cases e with
  | start cancelled bound =>
    cases h
    exact start_effect cancelled bound
  | check i =>
    simp only [step] at h
    split at h
    · next hi =>
      cases h
      refine .turn _ hi nofun ?_ ?_
      · split <;> nofun
      · split <;> rfl
    · cases h
  | accept i =>
    simp only [step] at h
    split at h
    · next hi =>
      cases h
      exact .accept hi
    · cases h
  | acceptError i timeout =>
    simp only [step] at h
    split at h
    · next hi =>
      cases h
      refine .turn _ hi nofun ?_ ?_
      · split <;> nofun
      · split <;> rfl
    · cases h
  | adopt i =>
    simp only [step] at h
    split at h
    · next x hi =>
      cases h
      unfold State.adopt
      split
      · next hstarted => exact .adopt hi hstarted
      · exact .refuse hi
    · cases h
  | exit k =>
    simp only [step] at h
    split at h
    · next hd hk =>
      split at h
      · next hphase =>
        cases h
        exact .exit hk hphase
      · cases h
    · cases h
  | release k =>
    simp only [step] at h
    split at h
    · next hd hk =>
      split at h
      · next hphase =>
        cases h
        exact .release hk hphase
      · cases h
    · cases h
  | drain i =>
    simp only [step] at h
    split at h
    · next hi =>
      cases h
      exact .drain hi.1 hi.2
    · cases h
  | shutdown =>
    cases h
    exact shutdown_effect
  | join k =>
    simp only [step] at h
    split at h
    · next w hk =>
      split at h
      · next hw =>
        cases h
        refine .wait _ fun v hv _ => ?_
        rcases List.mem_or_eq_of_mem_set hv with hmem | rfl
        · exact .inl hmem
        · exact .inr hw.2
      · cases h
    · cases h
  | expire k =>
    simp only [step] at h
    split at h
    · next w hk =>
      split at h
      · cases h
        refine .wait _ fun v hv hphase => ?_
        rcases List.mem_or_eq_of_mem_set hv with hmem | rfl
        · exact .inl hmem
        · cases hphase
      · cases h
    · cases h

/-! ## One run after the other -/

/-- A run is over before the next one begins. The handlers of a run that is over have exited, and
a `Shutdown` that has joined a run was right. -/
structure Order (s : State) : Prop where
  past : ∀ i, i + 1 < s.runs.length → s.runs[i]? = some .done
  running : s.started = true → s.runs ≠ []
  alive : ∀ h ∈ s.handlers, h.phase ≠ .exited → ∃ loop, s.runs[h.run]? = some loop ∧ loop ≠ .done
  joined : ∀ w ∈ s.waiters, w.phase = .joined → s.runs[w.run]? = some .done

theorem done_set {l : List Loop} {i j : Nat} {loop : Loop} (hi : l[i]? = some loop)
    (hne : loop ≠ .done) (loop' : Loop) (hj : l[j]? = some .done) :
    (l.set i loop')[j]? = some .done := by
  rcases eq_or_ne i j with rfl | hij
  · exact absurd (Option.some.inj (hi.symm.trans hj)) hne
  · rw [List.getElem?_set_ne hij, hj]

theorem alive_set {l : List Loop} {i j : Nat} {loop : Loop} (hi : l[i]? = some loop)
    {loop' : Loop} (hne' : loop' ≠ .done) (hj : ∃ p, l[j]? = some p ∧ p ≠ .done) :
    ∃ p, (l.set i loop')[j]? = some p ∧ p ≠ .done := by
  rcases eq_or_ne i j with rfl | hij
  · exact ⟨loop', List.getElem?_set_self (List.getElem?_eq_some_iff.mp hi).1, hne'⟩
  · rwa [List.getElem?_set_ne hij]

namespace Order

theorem init : Order {} where
  past := nofun
  running := nofun
  alive := nofun
  joined := nofun

theorem all_done (h : Order s) (hlast : ∀ loop, s.runs.getLast? = some loop → loop = .done)
    {i : Nat} (hi : i < s.runs.length) : s.runs[i]? = some .done := by
  rcases Nat.lt_or_ge (i + 1) s.runs.length with hlt | hge
  · exact h.past i hlt
  · have hlen : s.runs.length - 1 = i := by omega
    have heq : s.runs.getLast? = s.runs[i]? := by rw [List.getLast?_eq_getElem?, hlen]
    rw [List.getElem?_eq_getElem hi] at heq ⊢
    rw [hlast _ heq]

theorem setLoop (h : Order s) {i : Nat} {loop : Loop} (hi : s.runs[i]? = some loop)
    (hne : loop ≠ .done) (loop' : Loop)
    (halive : loop' = .done → ∀ hd ∈ s.handlers, hd.run = i → hd.phase = .exited) :
    Order { s with runs := s.runs.set i loop' } where
  past j hj := by
    rw [List.length_set] at hj
    exact done_set hi hne loop' (h.past j hj)
  running hs := by
    have hruns := h.running hs
    simpa using hruns
  alive hd hhd hphase := by
    rcases eq_or_ne loop' .done with rfl | hne'
    · have hrun : i ≠ hd.run := fun heq => hphase (halive rfl hd hhd heq.symm)
      rw [List.getElem?_set_ne hrun]
      exact h.alive hd hhd hphase
    · exact alive_set hi hne' (h.alive hd hhd hphase)
  joined w hw hphase := done_set hi hne loop' (h.joined w hw hphase)

theorem setHandler (h : Order s) {k : Nat} {hd : Handler} (hk : s.handlers[k]? = some hd)
    (hphase : hd.phase ≠ .exited) (phase : Serving) :
    Order { s with handlers := s.handlers.set k { hd with phase := phase } } where
  past := h.past
  running := h.running
  alive := forall_mem_set h.alive fun _ => h.alive hd (List.mem_of_getElem? hk) hphase
  joined := h.joined

end Order

theorem order_step (hord : Order s) (h : step s e = some s') : Order s' := by
  cases step_effect h with
  | nothing => exact hord
  | start hstopped hlast =>
    have hold : ∀ {i : Nat} {loop : Loop}, s.runs[i]? = some loop →
        (s.runs ++ [Loop.checking])[i]? = some loop := by
      intro i loop hi
      rw [List.getElem?_append_left (List.getElem?_eq_some_iff.mp hi).1, hi]
    refine ⟨fun i hi => ?_, fun _ => by simp, fun hd hhd hphase => ?_, fun w hw hphase => ?_⟩
    · rw [List.length_append, List.length_singleton] at hi
      exact hold (hord.all_done hlast (Nat.lt_of_succ_lt_succ hi))
    · obtain ⟨loop, hloop, hne⟩ := hord.alive hd hhd hphase
      exact ⟨loop, hold hloop, hne⟩
    · exact hold (hord.joined w hw hphase)
  | turn loop' hi hne hne' => exact hord.setLoop hi hne loop' fun hdone => absurd hdone hne'
  | accept hi =>
    obtain ⟨hpast, hrunning, halive, hjoined⟩ :=
      hord.setLoop hi nofun (.adopting s.accepted) nofun
    exact ⟨hpast, hrunning, halive, hjoined⟩
  | @adopt i x hi hstarted =>
    obtain ⟨hpast, hrunning, halive, hjoined⟩ := hord.setLoop hi nofun .checking nofun
    refine ⟨hpast, hrunning, forall_mem_concat halive fun _ => ?_, hjoined⟩
    exact ⟨.checking, List.getElem?_set_self (List.getElem?_eq_some_iff.mp hi).1, nofun⟩
  | refuse hi =>
    obtain ⟨hpast, hrunning, halive, hjoined⟩ := hord.setLoop hi nofun .draining nofun
    exact ⟨hpast, hrunning, halive, hjoined⟩
  | exit hk hphase =>
    obtain ⟨hpast, hrunning, halive, hjoined⟩ :=
      hord.setHandler hk (by rw [hphase]; nofun) .closing
    exact ⟨hpast, hrunning, halive, hjoined⟩
  | release hk hphase =>
    obtain ⟨hpast, hrunning, halive, hjoined⟩ :=
      hord.setHandler hk (by rw [hphase]; nofun) .exited
    exact ⟨hpast, hrunning, halive, hjoined⟩
  | drain hi hall => exact hord.setLoop hi nofun .done fun _ => hall
  | shutdown l hl =>
    exact ⟨hord.past, nofun, hord.alive, fun w hw hphase => hord.joined w (hl w hw hphase) hphase⟩
  | wait l hl =>
    refine ⟨hord.past, hord.running, hord.alive, fun w hw hphase => ?_⟩
    rcases hl w hw hphase with hmem | hdone
    · exact hord.joined w hmem hphase
    · exact hdone

/-! ## Whose a connection is -/

/-- Every accepted connection is one that a loop has not decided about, one that was refused, or
that of one handler. It is in the map until its handler has exited. When the server is stopped, the
connections in the map are closed. -/
structure Conns (s : State) : Prop where
  accounts : Accounts s.accepted
    (total Loop.held s.runs + s.refused + total Handler.owned s.handlers)
  tracked : (s.conns : Multiset Nat) = total Handler.tracked s.handlers
  refused : ∀ x ∈ s.refused, x ∈ s.closed
  ended : ∀ h ∈ s.handlers, h.phase ≠ .active → h.conn ∈ s.closed
  stopped : s.started = false → ∀ x ∈ s.conns, x ∈ s.closed

namespace Conns

theorem init : Conns {} where
  accounts := rfl
  tracked := rfl
  refused := nofun
  ended := nofun
  stopped := nofun

theorem mem_conns (h : Conns s) {x : Nat} :
    x ∈ s.conns ↔ ∃ hd ∈ s.handlers, x ∈ hd.tracked := by
  rw [← Multiset.mem_coe, h.tracked, mem_total]

theorem mem_conns_of_handler (h : Conns s) {hd : Handler} (hhd : hd ∈ s.handlers)
    (hphase : hd.phase ≠ .exited) : hd.conn ∈ s.conns := by
  refine h.mem_conns.mpr ⟨hd, hhd, ?_⟩
  unfold Handler.tracked
  split
  · exact Multiset.mem_singleton_self _
  · exact Multiset.mem_singleton_self _
  · next hexited => exact absurd hexited hphase

theorem close (h : Conns s) (l : List Nat) : Conns { s with closed := s.closed ++ l } where
  accounts := h.accounts
  tracked := h.tracked
  refused x hx := List.mem_append_left _ (h.refused x hx)
  ended hd hhd hphase := List.mem_append_left _ (h.ended hd hhd hphase)
  stopped hs x hx := List.mem_append_left _ (h.stopped hs x hx)

end Conns

theorem mem_conn_of_tracked {hd : Handler} {x : Nat} (hx : x ∈ hd.tracked) :
    x = hd.conn ∧ hd.phase ≠ .exited := by
  unfold Handler.tracked at hx
  split at hx
  · next hphase => exact ⟨Multiset.mem_singleton.mp hx, by rw [hphase]; nofun⟩
  · next hphase => exact ⟨Multiset.mem_singleton.mp hx, by rw [hphase]; nofun⟩
  · exact absurd hx (Multiset.notMem_zero x)

theorem conns_step (hinv : Conns s) (h : step s e = some s') : Conns s' := by
  cases step_effect h with
  | nothing => exact hinv
  | start hstopped hlast =>
    refine ⟨hinv.accounts.of_eq ?_, hinv.tracked, hinv.refused, hinv.ended, nofun⟩
    rw [total_concat]
    show _ = _ + (0 : Multiset Nat) + _ + _
    rw [add_zero]
  | turn loop' hi hne hne' hheld =>
    refine ⟨hinv.accounts.of_eq ?_, hinv.tracked, hinv.refused, hinv.ended, hinv.stopped⟩
    rw [total_set_same hi hheld]
  | accept hi =>
    refine ⟨hinv.accounts.fresh.of_eq ?_, hinv.tracked, hinv.refused, hinv.ended, hinv.stopped⟩
    rw [total_set_gain hi rfl]
    show _ + _ + _ + {s.accepted} = _ + {s.accepted} + _ + _
    abel
  | @adopt i x hi hstarted =>
    refine ⟨hinv.accounts.of_eq ?_, ?_, hinv.refused, ?_, fun hs => ?_⟩
    · rw [total_set_lose (u := Loop.checking) hi rfl, total_concat]
      show _ + {x} + _ + _ = _ + _ + (_ + {x})
      abel
    · rw [total_concat, ← hinv.tracked, ← Multiset.coe_add]
      rfl
    · exact forall_mem_concat hinv.ended fun hphase => absurd rfl hphase
    · rw [hstarted] at hs
      cases hs
  | @refuse i x hi =>
    obtain ⟨haccounts, htracked, hrefused, hended, hstopped⟩ := hinv.close [x]
    refine ⟨haccounts.of_eq ?_, htracked, forall_mem_concat hrefused ?_, hended, hstopped⟩
    · rw [total_set_lose (u := Loop.draining) hi rfl]
      simp only [← Multiset.coe_add]
      show _ + {x} + _ + _ = _ + (_ + {x}) + _
      abel
    · exact List.mem_append_right _ (List.mem_singleton_self x)
  | @exit k hd hk hphase =>
    obtain ⟨haccounts, htracked, hrefused, hended, hstopped⟩ := hinv.close [hd.conn]
    refine ⟨haccounts.of_eq ?_, htracked.trans ?_, hrefused, forall_mem_set hended fun _ => ?_,
      hstopped⟩
    · rw [total_set_same hk]
      rfl
    · refine (total_set_same hk ?_).symm
      simp [Handler.tracked, hphase]
    · exact List.mem_append_right _ (List.mem_singleton_self _)
  | @release k hd hk hphase =>
    have hmem := List.mem_of_getElem? hk
    refine ⟨hinv.accounts.of_eq ?_, ?_, hinv.refused, forall_mem_set hinv.ended fun _ => ?_,
      fun hs x hx => hinv.stopped hs x (List.mem_of_mem_erase hx)⟩
    · rw [total_set_same hk]
      rfl
    · have htracked := hinv.tracked
      rw [total_set_lose (u := { hd with phase := .exited }) hk rfl] at htracked
      have hone : hd.tracked = {hd.conn} := by simp [Handler.tracked, hphase]
      rw [← Multiset.coe_erase, htracked, hone, add_comm, Multiset.singleton_add,
        Multiset.erase_cons_head]
    · exact hinv.ended hd hmem (by rw [hphase]; nofun)
  | drain hi hall =>
    refine ⟨hinv.accounts.of_eq ?_, hinv.tracked, hinv.refused, hinv.ended, hinv.stopped⟩
    rw [total_set_same (u := Loop.done) hi rfl]
  | shutdown l hl =>
    obtain ⟨haccounts, htracked, hrefused, hended, -⟩ := hinv.close s.conns
    exact ⟨haccounts, htracked, hrefused, hended, fun _ x hx => List.mem_append_right _ hx⟩
  | wait l hl => exact ⟨hinv.accounts, hinv.tracked, hinv.refused, hinv.ended, hinv.stopped⟩

/-! ## After `Shutdown` -/

/-- The connections of the first `n` runs are those of `l`, and these runs are over when the server
is started again. -/
structure Frozen (n : Nat) (l : List Handler) (s : State) : Prop where
  order : Order s
  adopted : ∀ hd ∈ s.handlers, hd.run < n → ∃ h₀ ∈ l, h₀.run = hd.run ∧ h₀.conn = hd.conn
  ended : s.started = true → ∀ i < n, s.runs[i]? = some .done

theorem frozen_step {n : Nat} {l : List Handler} (hfrozen : Frozen n l s) (hn : n ≤ s.runs.length)
    (h : step s e = some s') : Frozen n l s' := by
  have hord := order_step hfrozen.order h
  obtain ⟨hold, hadopted, hended⟩ := hfrozen
  have hset : ∀ {k : Nat} {hd : Handler} (phase : Serving), s.handlers[k]? = some hd →
      ∀ u ∈ s.handlers.set k { hd with phase := phase }, u.run < n →
        ∃ h₀ ∈ l, h₀.run = u.run ∧ h₀.conn = u.conn :=
    fun {_ hd} _ hk => forall_mem_set hadopted (hadopted hd (List.mem_of_getElem? hk))
  cases step_effect h with
  | nothing => exact ⟨hord, hadopted, hended⟩
  | start hstopped hlast =>
    refine ⟨hord, hadopted, fun _ i hi => ?_⟩
    have hlt := Nat.lt_of_lt_of_le hi hn
    rw [List.getElem?_append_left hlt]
    exact hold.all_done hlast hlt
  | turn loop' hi hne =>
    exact ⟨hord, hadopted, fun hs j hj => done_set hi hne loop' (hended hs j hj)⟩
  | accept hi =>
    exact ⟨hord, hadopted, fun hs j hj => done_set hi nofun _ (hended hs j hj)⟩
  | @adopt i x hi hstarted =>
    refine ⟨hord, forall_mem_concat hadopted fun hlt => ?_,
      fun hs j hj => done_set hi nofun _ (hended hs j hj)⟩
    -- the run that adopts is not one of the first `n`, as those are over
    have hdone := hended hstarted i hlt
    rw [hi] at hdone
    cases hdone
  | refuse hi => exact ⟨hord, hadopted, fun hs j hj => done_set hi nofun _ (hended hs j hj)⟩
  | exit hk => exact ⟨hord, hset .closing hk, hended⟩
  | release hk => exact ⟨hord, hset .exited hk, hended⟩
  | drain hi => exact ⟨hord, hadopted, fun hs j hj => done_set hi nofun _ (hended hs j hj)⟩
  | shutdown => exact ⟨hord, hadopted, nofun⟩
  | wait => exact ⟨hord, hadopted, hended⟩

theorem runs_le (h : step s e = some s') : s.runs.length ≤ s'.runs.length := by
  cases step_effect h with
  | start => simp
  | turn | accept | adopt | refuse | drain => simp
  | nothing | exit | release | shutdown | wait => exact Nat.le_refl _

theorem frozen_run {n : Nat} {l : List Handler} (hfrozen : Frozen n l s) (hn : n ≤ s.runs.length)
    (h : Run step anyStep s s') : Frozen n l s' := by
  have hlater : Frozen n l s' ∧ n ≤ s'.runs.length := by
    refine h.invariant (p := fun u => Frozen n l u ∧ n ≤ u.runs.length) ⟨hfrozen, hn⟩ ?_
    intro u e u' ⟨hu, hlen⟩ _ hs
    exact ⟨frozen_step hu hlen hs, Nat.le_trans hlen (runs_le hs)⟩
  exact hlater.1

theorem inv_of_run (h : Run step anyStep {} s) : Order s ∧ Conns s :=
  h.invariant (p := fun s => Order s ∧ Conns s) ⟨.init, .init⟩
    fun _ _ _ hinv _ hs => ⟨order_step hinv.1 hs, conns_step hinv.2 hs⟩

theorem started_shutdown (hord : Order s) : (s.shutdown.getD s).started = false := by
  unfold State.shutdown
  split
  · next hlen =>
    refine Bool.eq_false_iff.mpr fun hstarted => ?_
    exact hord.running hstarted (List.length_eq_zero_iff.mp hlen)
  · dsimp only
    split
    · rfl
    · next hstarted => exact Bool.eq_false_iff.mpr hstarted

theorem runs_shutdown : (s.shutdown.getD s).runs = s.runs := by
  unfold State.shutdown
  split
  · rfl
  · dsimp only
    split <;> rfl

theorem Conns.closed_of_stopped (h : Conns s) (hstopped : s.started = false) {hd : Handler}
    (hhd : hd ∈ s.handlers) : hd.conn ∈ s.closed := by
  rcases eq_or_ne hd.phase .active with hactive | hne
  · exact h.stopped hstopped _ (h.mem_conns_of_handler hhd (by rw [hactive]; nofun))
  · exact h.ended hd hhd hne

theorem Conns.fate (h : Conns s) {x : Nat} (hx : x < s.accepted) :
    (∃ i : Nat, s.runs[i]? = some (.adopting x)) ∨
    (x ∈ s.refused ∧ x ∈ s.closed) ∨
    ∃ hd ∈ s.handlers, hd.conn = x ∧
      (hd.phase ≠ .exited → x ∈ s.conns) ∧ (hd.phase = .exited → x ∈ s.closed) := by
  have hmem := h.accounts.mem_iff.mpr hx
  rcases Multiset.mem_add.mp hmem with hmem | howned
  · rcases Multiset.mem_add.mp hmem with hheld | hrefused
    · obtain ⟨loop, hloop, hxloop⟩ := mem_total.mp hheld
      obtain ⟨i, hi⟩ := List.mem_iff_getElem?.mp hloop
      cases loop with
      | adopting y =>
        obtain rfl := Multiset.mem_singleton.mp hxloop
        exact .inl ⟨i, hi⟩
      | checking | accepting | draining | done => exact absurd hxloop (Multiset.notMem_zero x)
    · exact .inr (.inl ⟨hrefused, h.refused x hrefused⟩)
  · obtain ⟨hd, hhd, hxhd⟩ := mem_total.mp howned
    obtain rfl := Multiset.mem_singleton.mp hxhd
    exact .inr (.inr ⟨hd, hhd, rfl, h.mem_conns_of_handler hhd,
      fun hexited => h.ended hd hhd (by rw [hexited]; nofun)⟩)

theorem not_tracked_of_done (hord : Order s) (hinv : Conns s) {hd : Handler}
    (hhd : hd ∈ s.handlers) (hdone : s.runs[hd.run]? = some .done) :
    hd.phase = .exited ∧ hd.conn ∉ s.conns := by
  have hexited : ∀ u ∈ s.handlers, s.runs[u.run]? = some .done → u.phase = .exited := by
    intro u hu hudone
    by_contra hphase
    obtain ⟨loop, hloop, hne⟩ := hord.alive u hu hphase
    exact hne (Option.some.inj (hloop.symm.trans hudone))
  refine ⟨hexited hd hhd hdone, fun htracked => ?_⟩
  obtain ⟨u, hu, hxu⟩ := hinv.mem_conns.mp htracked
  obtain ⟨hconn, hphase⟩ := mem_conn_of_tracked hxu
  -- no other handler has the connection
  obtain ⟨i, hi⟩ := List.mem_iff_getElem?.mp hhd
  obtain ⟨j, hj⟩ := List.mem_iff_getElem?.mp hu
  have hij : i = j := holder_unique (f := Handler.owned) hinv.accounts.nodup_right hi hj
    (Multiset.mem_singleton_self _) (Multiset.mem_singleton.mpr hconn)
  subst hij
  obtain rfl := Option.some.inj (hi.symm.trans hj)
  exact hphase (hexited hd hhd hdone)

theorem conns_eq_nil (hord : Order s) (hinv : Conns s) (hlast : s.runs.getLast? = some .done) :
    s.conns = [] := by
  refine List.eq_nil_iff_forall_not_mem.mpr fun x hx => ?_
  obtain ⟨hd, hhd, hxhd⟩ := hinv.mem_conns.mp hx
  obtain ⟨-, hphase⟩ := mem_conn_of_tracked hxhd
  obtain ⟨loop, hloop, hne⟩ := hord.alive hd hhd hphase
  have hdone := hord.all_done (fun _ h => Option.some.inj (h.symm.trans hlast))
    (List.getElem?_eq_some_iff.mp hloop).1
  exact hne (Option.some.inj (hloop.symm.trans hdone))

/-- A connection that was accepted is closed by the loop at once, or in the map until its handler
exits, and the handler has closed it. After the critical section of `Shutdown` all connections of
the runs so far are closed, and none is added to them. When the channel of a run is closed, its
handlers have exited and none of its connections is in the map. A run begins when the one before is
over, and a `Shutdown` that returns without an error has waited for it. -/
theorem lifecycle (h : Run step anyStep {} s) :
    (∀ x < s.accepted, (∃ i : Nat, s.runs[i]? = some (.adopting x)) ∨
      (x ∈ s.refused ∧ x ∈ s.closed) ∨
      ∃ hd ∈ s.handlers, hd.conn = x ∧
        (hd.phase ≠ .exited → x ∈ s.conns) ∧ (hd.phase = .exited → x ∈ s.closed)) ∧
    (∀ i x s', s.runs[i]? = some (.adopting x) → step s (.adopt i) = some s' →
      x ∈ s'.refused ∧ x ∈ s'.closed ∨ x ∈ s'.conns) ∧
    (∀ s', step s .shutdown = some s' → s'.conns ⊆ s'.closed ∧
      ∀ s'', Run step anyStep s' s'' → ∀ hd ∈ s''.handlers, hd.run < s.runs.length →
        hd.conn ∈ s'.closed ∧ ∃ h₀ ∈ s'.handlers, h₀.run = hd.run ∧ h₀.conn = hd.conn) ∧
    (∀ hd ∈ s.handlers, s.runs[hd.run]? = some .done →
      hd.phase = .exited ∧ hd.conn ∉ s.conns) ∧
    (s.runs.getLast? = some .done → s.conns = []) ∧
    (∀ i, i + 1 < s.runs.length → s.runs[i]? = some .done) ∧
    (∀ w ∈ s.waiters, w.phase = .joined → s.runs[w.run]? = some .done) := by
  obtain ⟨hord, hinv⟩ := inv_of_run h
  refine ⟨fun x hx => hinv.fate hx, ?_, ?_, fun hd hhd => not_tracked_of_done hord hinv hhd,
    conns_eq_nil hord hinv, hord.past, hord.joined⟩
  · intro i x s' hi hs
    simp only [step, hi] at hs
    obtain rfl := Option.some.inj hs
    unfold State.adopt
    split
    · exact .inr (by simp)
    · exact .inl (by simp)
  · intro s' hs
    have hord' := order_step hord hs
    have hinv' := conns_step hinv hs
    obtain rfl := Option.some.inj hs
    have hstopped := started_shutdown hord
    refine ⟨hinv'.stopped hstopped, fun s'' hrun hd hhd hlt => ?_⟩
    have hfrozen : Frozen s.runs.length (s.shutdown.getD s).handlers (s.shutdown.getD s) :=
      ⟨hord', fun hd hhd _ => ⟨hd, hhd, rfl, rfl⟩, fun hstarted => by simp [hstopped] at hstarted⟩
    have hlen : s.runs.length ≤ (s.shutdown.getD s).runs.length := by rw [runs_shutdown]
    obtain ⟨h₀, hmem, hrun₀, hconn⟩ := (frozen_run hfrozen hlen hrun).adopted hd hhd hlt
    exact ⟨hconn ▸ hinv'.closed_of_stopped hstopped hmem, h₀, hmem, hrun₀, hconn⟩

end Steps

/-- A connection is served when the server is stopped by a `Shutdown` with a context that is done;
another one was accepted just before and comes too late. `Start` fails until the handler is through,
and succeeds after the run was joined. -/
def restartRun : List Event :=
  [.start false true, .check 0, .accept 0, .adopt 0, .check 0, .accept 0, .shutdown, .expire 0,
    .adopt 0, .start false true, .exit 0, .release 0, .shutdown, .drain 0, .join 1,
    .start false true]

def restartState : State where
  started := true
  runs := [.done, .checking]
  handlers := [⟨0, 0, .exited⟩]
  waiters := [⟨0, .expired⟩, ⟨0, .joined⟩]
  accepted := 2
  refused := [1]
  closed := [0, 1, 0]

theorem lifecycle_restart :
    replay step (fun _ _ => true) {} restartRun = some restartState ∧
      0 ∉ restartState.conns ∧ restartState.runs[0]? = some .done := by
  have hrun : replay step (fun _ _ => true) {} restartRun = some restartState := by decide
  obtain ⟨-, -, -, htracked, -, hpast, -⟩ := lifecycle (run_of_replay hrun .refl).any
  exact ⟨hrun, (htracked ⟨0, 0, .exited⟩ (by decide) (by decide)).2, hpast 0 (by decide)⟩

end DnsProxy.DnsCrypt.Lifecycle
