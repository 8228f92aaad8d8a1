import DnsProxy.Lib.Custody

/-!
# The connections of a DoT upstream

`Exchange` takes a connection from the pool of the upstream or dials one, and hands it back
after it has got a reply. When the first attempt fails on a connection from the pool, it is
made once more on a new one. Any number of exchanges run at the same time; what is done
under the lock of the pool is one step.

Connections are numbered in the order in which they are dialed. What the exchanges did with
them is recorded beside the state: the connections that an attempt failed on, and those that
each exchange took, closed and handed back.

* `Effect`: what a step can do.
* `Inv`: every connection is in the pool, with one exchange, or closed by one.
* `conns_never_shared`: what follows for the exchanges.
* `closed_or_held`: after `Close` a connection is open only while an exchange has it, unless it
  is handed back later.
-/

namespace DnsProxy.DoTPool

open Custody Runs

/-- Where an exchange is. -/
inductive Phase
  | starting
  /-- In `tlsDial`. -/
  | dialing
  /-- In `exchangeWithConn`; `cached` is false for a connection that was dialed. -/
  | exchanging (conn : Nat) (cached : Bool)
  | failed (conn : Nat) (cached : Bool)
  | succeeded (conn : Nat)
  | returned
deriving DecidableEq, Repr

/-- The connection that the exchange has to itself. -/
def Phase.held : Phase → Multiset Nat
  | .exchanging x _ | .failed x _ | .succeeded x => {x}
  | .starting | .dialing | .returned => 0

structure Task where
  phase : Phase := .starting
  taken : List Nat := []
  closed : List Nat := []
  putBack : List Nat := []
deriving DecidableEq, Repr

namespace Task

def held (t : Task) : Multiset Nat := t.phase.held

/-- The exchange gets the connection `x`. -/
def take (t : Task) (x : Nat) (cached : Bool) : Task :=
  { t with phase := .exchanging x cached, taken := t.taken ++ [x] }

/-- The exchange gets the connection `x` and closes it. -/
def discard (t : Task) (x : Nat) (phase : Phase) : Task :=
  { t with phase := phase, taken := t.taken ++ [x], closed := t.closed ++ [x] }

/-- The exchange closes the connection it has. -/
def close (t : Task) (x : Nat) (phase : Phase) : Task :=
  { t with phase := phase, closed := t.closed ++ [x] }

/-- The exchange hands its connection back and returns. -/
def giveBack (t : Task) (x : Nat) : Task :=
  { t with phase := .returned, putBack := t.putBack ++ [x] }

/-- All connections that the exchange took are closed or handed back, but for the one it has. -/
def Balanced (t : Task) : Prop := (t.taken : Multiset Nat) = t.held + t.closed + t.putBack

end Task

structure State where
  conns : List Nat := []
  dialed : Nat := 0
  /-- The connections that exchanges have closed. -/
  retired : List Nat := []
  /-- The connections that attempts failed on. -/
  broken : List Nat := []
  /-- The connections that `Close` of the upstream has closed. It leaves them in the pool. -/
  shut : List Nat := []
  closed : Bool := false
  tasks : List Task := []
deriving DecidableEq, Repr

/-- What comes of `tlsDial`. -/
inductive Dial
  | refused
  /-- There is a connection, but its deadline or handshake fails, and it is closed. -/
  | unusable
  | ok
deriving DecidableEq, Repr

inductive Event
  /-- `Exchange` is called. -/
  | exchange
  /-- It returns at once: the exchange state is in use, or there is no dialer. -/
  | refuse (i : Nat)
  /-- The critical section of `conn`; the deadline of a connection is set, or not. -/
  | conn (i : Nat) (deadlineSet : Bool)
  | dial (i : Nat) (outcome : Dial)
  /-- `exchangeWithConn` returns. -/
  | attempt (i : Nat) (ok : Bool)
  /-- The connection is closed after a failure. A further attempt is only made if it was
  from the pool; whether it is depends on the error and on the clock. -/
  | giveUp (i : Nat) (retry : Bool)
  | putBack (i : Nat)
  /-- `Close` of the upstream. -/
  | close
deriving DecidableEq, Repr

def State.setTask (s : State) (i : Nat) (t : Task) : State := { s with tasks := s.tasks.set i t }

/-- The critical section of `conn`. -/
def State.takeConn (s : State) (i : Nat) (t : Task) (deadlineSet : Bool) : State :=
  match s.conns.getLast? with
  | none => s.setTask i { t with phase := .dialing }
  | some x =>
    let s := { s with conns := s.conns.dropLast }
    if deadlineSet then s.setTask i (t.take x true)
    else { s with retired := s.retired ++ [x] }.setTask i (t.discard x .dialing)

/-- `tlsDial`. -/
def State.dial (s : State) (i : Nat) (t : Task) : Dial → State
  | .refused => s.setTask i { t with phase := .returned }
  | .unusable =>
    { s with dialed := s.dialed + 1, retired := s.retired ++ [s.dialed] }.setTask i
      (t.discard s.dialed .returned)
  | .ok => { s with dialed := s.dialed + 1 }.setTask i (t.take s.dialed false)

def step (s : State) : Event → Option State
  | .exchange => some { s with tasks := s.tasks ++ [{}] }
  | .close => some { s with shut := s.shut ++ s.conns, closed := true }
  | .refuse i =>
    match s.tasks[i]? with
    | some t =>
      if t.phase = .starting then some (s.setTask i { t with phase := .returned }) else none
    | none => none
  | .conn i deadlineSet =>
    match s.tasks[i]? with
    | some t => if t.phase = .starting then some (s.takeConn i t deadlineSet) else none
    | none => none
  | .dial i outcome =>
    match s.tasks[i]? with
    | some t => if t.phase = .dialing then some (s.dial i t outcome) else none
    | none => none
  | .attempt i ok =>
    match s.tasks[i]? with
    | some t =>
      match t.phase with
      | .exchanging x cached =>
        if ok then some (s.setTask i { t with phase := .succeeded x })
        else
          some ({ s with broken := s.broken ++ [x] }.setTask i { t with phase := .failed x cached })
      | _ => none
    | none => none
  | .giveUp i retry =>
    match s.tasks[i]? with
    | some t =>
      match t.phase with
      | .failed x cached =>
        some ({ s with retired := s.retired ++ [x] }.setTask i
          (t.close x (if cached && retry then .dialing else .returned)))
      | _ => none
    | none => none
  | .putBack i =>
    match s.tasks[i]? with
    | some t =>
      match t.phase with
      | .succeeded x => some ({ s with conns := s.conns ++ [x] }.setTask i (t.giveBack x))
      | _ => none
    | none => none

/-! ## What a step can do -/

inductive Effect (s : State) (e : Event) : State → Prop
  | exchange : Effect s e { s with tasks := s.tasks ++ [{}] }
  | close (he : e = .close) : Effect s e { s with shut := s.shut ++ s.conns, closed := true }
  /-- The task goes on, with the connection it has. -/
  | goOn {i : Nat} {t : Task} (phase : Phase) (ht : s.tasks[i]? = some t)
      (hfine : ∀ x cached, t.phase ≠ .failed x cached) (hheld : phase.held = t.phase.held)
      (hreply : ∀ x, phase = .succeeded x → e = .attempt i true) :
      Effect s e (s.setTask i { t with phase := phase })
  | failed {i x : Nat} {t : Task} {cached : Bool} (ht : s.tasks[i]? = some t)
      (hphase : t.phase = .exchanging x cached) :
      Effect s e ({ s with broken := s.broken ++ [x] }.setTask i
        { t with phase := .failed x cached })
  /-- A connection from the pool is taken, or closed at once. -/
  | take {i x : Nat} {t : Task} {pool : List Nat} (ht : s.tasks[i]? = some t)
      (hphase : t.phase = .starting) (hpool : s.conns = pool ++ [x]) :
      Effect s e ({ s with conns := pool }.setTask i (t.take x true))
  | discard {i x : Nat} {t : Task} {pool : List Nat} (ht : s.tasks[i]? = some t)
      (hphase : t.phase = .starting) (hpool : s.conns = pool ++ [x]) :
      Effect s e ({ s with conns := pool, retired := s.retired ++ [x] }.setTask i
        (t.discard x .dialing))
  /-- A connection is dialed, or dialed and closed. -/
  | dial {i : Nat} {t : Task} (ht : s.tasks[i]? = some t)
      (hphase : t.phase = .dialing) :
      Effect s e ({ s with dialed := s.dialed + 1 }.setTask i (t.take s.dialed false))
  | unusable {i : Nat} {t : Task} (ht : s.tasks[i]? = some t)
      (hphase : t.phase = .dialing) :
      Effect s e ({ s with dialed := s.dialed + 1, retired := s.retired ++ [s.dialed] }.setTask i
        (t.discard s.dialed .returned))
  | retire {i x : Nat} {t : Task} {cached : Bool} (phase : Phase)
      (ht : s.tasks[i]? = some t) (hphase : t.phase = .failed x cached) (hheld : phase.held = 0) :
      Effect s e ({ s with retired := s.retired ++ [x] }.setTask i (t.close x phase))
  | putBack {i x : Nat} {t : Task} (ht : s.tasks[i]? = some t)
      (hphase : t.phase = .succeeded x) :
      Effect s e ({ s with conns := s.conns ++ [x] }.setTask i (t.giveBack x))

section Steps

variable {s s' : State} {e : Event}

theorem step_effect (h : step s e = some s') : Effect s e s' := by
  cases e with
  | exchange => cases h; exact .exchange
  | close => cases h; exact .close rfl
  | refuse i =>
    simp only [step] at h
    split at h
    · next t ht =>
      split at h
      · next hphase =>
        cases h
        exact .goOn .returned ht (by rw [hphase]; nofun) (by rw [hphase]; rfl) nofun
      · cases h
    · cases h
  | conn i deadlineSet =>
    simp only [step] at h
    split at h
    · next t ht =>
      split at h
      · next hphase =>
        cases h
        unfold State.takeConn
        split
        · exact .goOn .dialing ht (by rw [hphase]; nofun) (by rw [hphase]; rfl) nofun
        · next x hx =>
          have hpool : s.conns = s.conns.dropLast ++ [x] :=
            (List.dropLast_append_getLast? x hx).symm
          dsimp only
          split
          · exact .take ht hphase hpool
          · exact .discard ht hphase hpool
      · cases h
    · cases h
  | dial i outcome =>
    simp only [step] at h
    split at h
    · next t ht =>
      split at h
      · next hphase =>
        cases h
        cases outcome with
        | refused => exact .goOn .returned ht (by rw [hphase]; nofun) (by rw [hphase]; rfl) nofun
        | unusable => exact .unusable ht hphase
        | ok => exact .dial ht hphase
      · cases h
    · cases h
  | attempt i ok =>
    simp only [step] at h
    split at h
    · next t ht =>
      split at h
      · next x cached hphase =>
        split at h
        · next hok =>
          cases h
          refine .goOn (.succeeded x) ht (by rw [hphase]; nofun) (by rw [hphase]; rfl) fun _ _ => ?_
          rw [hok]
        · cases h
          exact .failed ht hphase
      · cases h
    · cases h
  | giveUp i retry =>
    simp only [step] at h
    split at h
    · next t ht =>
      split at h
      · next x cached hphase =>
        cases h
        refine .retire _ ht hphase ?_
        split <;> rfl
      · cases h
    · cases h
  | putBack i =>
    simp only [step] at h
    split at h
    · next t ht =>
      split at h
      · next x hphase =>
        cases h
        exact .putBack ht hphase
      · cases h
    · cases h

namespace Task

variable {t : Task} {x : Nat}

theorem Balanced.take (h : t.Balanced) (hnone : t.held = 0) (cached : Bool) :
    (t.take x cached).Balanced := by
  show ((t.taken ++ [x] : List Nat) : Multiset Nat) = {x} + t.closed + t.putBack
  rw [← Multiset.coe_add, h, hnone, Multiset.coe_singleton]
  abel

theorem Balanced.discard (h : t.Balanced) (hnone : t.held = 0) {phase : Phase}
    (hphase : phase.held = 0) : (t.discard x phase).Balanced := by
  show ((t.taken ++ [x] : List Nat) : Multiset Nat) =
    phase.held + (t.closed ++ [x] : List Nat) + t.putBack
  rw [← Multiset.coe_add, ← Multiset.coe_add, h, hnone, hphase]
  abel

theorem Balanced.close (h : t.Balanced) (hone : t.held = {x}) {phase : Phase}
    (hphase : phase.held = 0) : (t.close x phase).Balanced := by
  show (t.taken : Multiset Nat) = phase.held + (t.closed ++ [x] : List Nat) + t.putBack
  rw [← Multiset.coe_add, h, hone, hphase, Multiset.coe_singleton]
  abel

theorem Balanced.giveBack (h : t.Balanced) (hone : t.held = {x}) : (t.giveBack x).Balanced := by
  show (t.taken : Multiset Nat) = 0 + t.closed + (t.putBack ++ [x] : List Nat)
  rw [← Multiset.coe_add, h, hone, Multiset.coe_singleton]
  abel

theorem Balanced.goOn (h : t.Balanced) {phase : Phase} (hphase : phase.held = t.held) :
    Balanced { t with phase := phase } := by
  show (t.taken : Multiset Nat) = phase.held + t.closed + t.putBack
  rw [h, hphase]

end Task

/-- Every connection dialed is in one place: in the pool, with an exchange, or closed by one. A
connection that an attempt failed on is closed, or about to be. -/
structure Inv (s : State) : Prop where
  accounts : Accounts s.dialed (s.conns + total Task.held s.tasks + s.retired)
  books : ∀ t ∈ s.tasks, t.Balanced
  broken : ∀ x ∈ s.broken, x ∈ s.retired ∨ ∃ t ∈ s.tasks, ∃ cached, t.phase = .failed x cached

theorem Inv.init : Inv {} where
  accounts := rfl
  books := nofun
  broken := nofun

theorem broken_set {l : List Task} {i x : Nat} {t : Task} (ht : l[i]? = some t) (t' : Task)
    (h : ∃ u ∈ l, ∃ cached, u.phase = .failed x cached) :
    (∃ cached, t.phase = .failed x cached) ∨
      ∃ u ∈ l.set i t', ∃ cached, u.phase = .failed x cached := by
  obtain ⟨u, hu, cached, hphase⟩ := h
  rcases mem_set_or_eq ht hu t' with hmem | rfl
  · exact .inr ⟨u, hmem, cached, hphase⟩
  · exact .inl ⟨cached, hphase⟩

theorem Inv.broken_set_of_fine (hinv : Inv s) {i : Nat} {t : Task} (ht : s.tasks[i]? = some t)
    (hfine : ∀ x cached, t.phase ≠ .failed x cached) (t' : Task) :
    ∀ x ∈ s.broken,
      x ∈ s.retired ∨ ∃ u ∈ s.tasks.set i t', ∃ cached, u.phase = .failed x cached := by
  intro x hx
  rcases hinv.broken x hx with hret | hfailed
  · exact .inl hret
  · rcases broken_set ht t' hfailed with ⟨cached, hphase⟩ | hfailed
    · exact absurd hphase (hfine x cached)
    · exact .inr hfailed

theorem inv_step (hinv : Inv s) (h : step s e = some s') : Inv s' := by
  have ⟨haccounts, hbooks, hbroken⟩ := hinv
  have hbook : ∀ {i : Nat} {t : Task}, s.tasks[i]? = some t → t.Balanced :=
    fun {_ t} ht => hbooks t (List.mem_of_getElem? ht)
  cases step_effect h with
  | exchange =>
    refine ⟨haccounts.of_eq (by simp [Task.held, Phase.held]), forall_mem_concat hbooks rfl, ?_⟩
    intro x hx
    rcases hbroken x hx with hret | ⟨t, ht, hphase⟩
    · exact .inl hret
    · exact .inr ⟨t, List.mem_append_left _ ht, hphase⟩
  | close _ => exact ⟨haccounts, hbooks, hbroken⟩
  | @goOn i t phase ht hfine hheld _ =>
    have hbroken' := hinv.broken_set_of_fine ht hfine { t with phase := phase }
    refine ⟨haccounts.of_eq ?_, forall_mem_set hbooks ((hbook ht).goOn hheld), hbroken'⟩
    rw [State.setTask, total_set_same ht (show Task.held { t with phase := phase } = _ from hheld)]
  | @failed i x t cached ht hphase =>
    have hheld : (Phase.failed x cached).held = t.held := by
      simp [Task.held, Phase.held, hphase]
    refine ⟨haccounts.of_eq ?_, forall_mem_set hbooks ((hbook ht).goOn hheld),
      forall_mem_concat ?_ ?_⟩
    · rw [State.setTask, total_set_same ht (show Task.held { t with phase := _ } = _ from hheld)]
    · exact hinv.broken_set_of_fine ht (by rw [hphase]; nofun) _
    · exact .inr ⟨_, List.mem_set (List.getElem?_eq_some_iff.mp ht).1 _, cached, rfl⟩
  | @take i x t pool ht hphase hpool =>
    have hnone : t.held = 0 := by simp [Task.held, hphase, Phase.held]
    have hbroken' := hinv.broken_set_of_fine ht (by rw [hphase]; nofun) (t.take x true)
    refine ⟨haccounts.of_eq ?_, forall_mem_set hbooks ((hbook ht).take hnone true), hbroken'⟩
    rw [State.setTask, total_set_gain ht hnone, hpool, ← Multiset.coe_add]
    show (pool : Multiset Nat) + {x} + _ + _ = pool + (_ + {x}) + _
    abel
  | @discard i x t pool ht hphase hpool =>
    have hnone : t.held = 0 := by simp [Task.held, hphase, Phase.held]
    have hbroken' := hinv.broken_set_of_fine ht (by rw [hphase]; nofun) (t.discard x .dialing)
    refine ⟨haccounts.of_eq ?_, forall_mem_set hbooks ((hbook ht).discard hnone rfl),
      fun y hy => (hbroken' y hy).imp_left (List.mem_append_left _)⟩
    rw [State.setTask, total_set_gain ht hnone, hpool]
    simp only [← Multiset.coe_add]
    show (pool : Multiset Nat) + {x} + _ + _ = pool + (_ + 0) + (_ + {x})
    abel
  | @dial i t ht hphase =>
    have hnone : t.held = 0 := by simp [Task.held, hphase, Phase.held]
    have hbroken' := hinv.broken_set_of_fine ht (by rw [hphase]; nofun) (t.take s.dialed false)
    refine ⟨haccounts.fresh.of_eq ?_, forall_mem_set hbooks ((hbook ht).take hnone false), hbroken'⟩
    rw [State.setTask, total_set_gain ht hnone]
    show _ + _ + _ + {s.dialed} = _ + (_ + {s.dialed}) + _
    abel
  | @unusable i t ht hphase =>
    have hnone : t.held = 0 := by simp [Task.held, hphase, Phase.held]
    have hbroken' := hinv.broken_set_of_fine ht (by rw [hphase]; nofun)
      (t.discard s.dialed .returned)
    refine ⟨haccounts.fresh.of_eq ?_, forall_mem_set hbooks ((hbook ht).discard hnone rfl),
      fun y hy => (hbroken' y hy).imp_left (List.mem_append_left _)⟩
    rw [State.setTask, total_set_gain ht hnone]
    simp only [← Multiset.coe_add]
    show _ + _ + _ + {s.dialed} = (s.conns : Multiset Nat) + (_ + 0) + (_ + {s.dialed})
    abel
  | @retire i x t cached phase ht hphase hheld =>
    have hone : t.held = {x} := by simp [Task.held, hphase, Phase.held]
    have hnone : (t.close x phase).held = 0 := hheld
    refine ⟨haccounts.of_eq ?_, forall_mem_set hbooks ((hbook ht).close hone hheld),
      fun y hy => ?_⟩
    · rw [total_set_lose ht hnone, hone]
      simp only [State.setTask, ← Multiset.coe_add]
      show _ + (_ + {x}) + _ = _ + _ + (_ + {x})
      abel
    · rcases hbroken y hy with hret | hfailed
      · exact .inl (List.mem_append_left _ hret)
      · rcases broken_set ht (t.close x phase) hfailed with ⟨c, hc⟩ | hfailed
        · rw [hphase] at hc
          cases hc
          exact .inl (List.mem_append_right _ (List.mem_singleton_self _))
        · exact .inr hfailed
  | @putBack i x t ht hphase =>
    have hone : t.held = {x} := by simp [Task.held, hphase, Phase.held]
    have hnone : (t.giveBack x).held = 0 := rfl
    have hbroken' := hinv.broken_set_of_fine ht (by rw [hphase]; nofun) (t.giveBack x)
    refine ⟨haccounts.of_eq ?_, forall_mem_set hbooks ((hbook ht).giveBack hone), hbroken'⟩
    rw [total_set_lose ht hnone, hone]
    simp only [State.setTask, ← Multiset.coe_add]
    show _ + (_ + {x}) + _ = _ + {x} + _ + _
    abel

theorem mono_step (h : step s e = some s') : s.broken ⊆ s'.broken ∧ s.retired ⊆ s'.retired := by
  cases step_effect h with
  | failed | discard | unusable | retire => simp [State.setTask]
  | exchange | close | goOn | take | dial | putBack => exact ⟨fun _ => id, fun _ => id⟩

/-! ## Who has a connection -/

namespace Inv

theorem notMem_conns_of_held (h : Inv s) {x : Nat} {t : Task} (ht : t ∈ s.tasks)
    (hx : x ∈ t.held) : x ∉ s.conns := by
  intro hconns
  have hapart := (Multiset.nodup_add.mp h.accounts.nodup_left).2.2
  exact Multiset.disjoint_left.mp hapart (Multiset.mem_coe.mpr hconns) (mem_total.mpr ⟨t, ht, hx⟩)

theorem notMem_conns_of_retired (h : Inv s) {x : Nat} (hx : x ∈ s.retired) : x ∉ s.conns :=
  fun hconns => h.accounts.notMem_right
    (Multiset.mem_add.mpr (.inl (Multiset.mem_coe.mpr hconns))) (Multiset.mem_coe.mpr hx)

theorem notMem_conns_of_broken (h : Inv s) {x : Nat} (hx : x ∈ s.broken) : x ∉ s.conns := by
  rcases h.broken x hx with hret | ⟨t, ht, cached, hphase⟩
  · exact h.notMem_conns_of_retired hret
  · exact h.notMem_conns_of_held ht (by simp [Task.held, hphase, Phase.held])

theorem place (h : Inv s) {x : Nat} (hx : x < s.dialed) :
    x ∈ s.conns ∨ (∃ t ∈ s.tasks, x ∈ t.held) ∨ x ∈ s.retired := by
  have hmem := h.accounts.mem_iff.mpr hx
  simpa [mem_total, or_assoc] using hmem

end Inv

theorem inv_of_run (h : Run step anyStep {} s) : Inv s :=
  h.invariant Inv.init fun _ _ _ hinv _ hs => inv_step hinv hs

theorem stays_out (hinv : Inv s) {x : Nat} (hx : x ∈ s.broken ∨ x ∈ s.retired)
    (h : Run step anyStep s s') : x ∉ s'.conns := by
  have hlater : Inv s' ∧ (x ∈ s'.broken ∨ x ∈ s'.retired) := by
    refine h.invariant (p := fun u => Inv u ∧ (x ∈ u.broken ∨ x ∈ u.retired)) ⟨hinv, hx⟩ ?_
    intro u e u' ⟨hu, hxu⟩ _ hs
    obtain ⟨hbroken, hretired⟩ := mono_step hs
    exact ⟨inv_step hu hs, hxu.imp (@hbroken x) (@hretired x)⟩
  rcases hlater.2 with hb | hr
  · exact hlater.1.notMem_conns_of_broken hb
  · exact hlater.1.notMem_conns_of_retired hr

/-- A connection is with one exchange at most, or once in the pool. One that an attempt failed
on, or that an exchange has closed, is not in the pool then and never again. An exchange that
has returned has closed or handed back each connection that it took. -/
theorem conns_never_shared (h : Run step anyStep {} s) :
    (∀ (i j x : Nat) (t u : Task), s.tasks[i]? = some t → s.tasks[j]? = some u →
      x ∈ t.held → x ∈ u.held → i = j) ∧
    s.conns.Nodup ∧
    (∀ t ∈ s.tasks, ∀ x ∈ t.held, x ∉ s.conns) ∧
    (∀ x, x ∈ s.broken ∨ x ∈ s.retired → ∀ s', Run step anyStep s s' → x ∉ s'.conns) ∧
    (∀ t ∈ s.tasks, t.phase = .returned → ∀ x ∈ t.taken, x ∈ t.closed ∨ x ∈ t.putBack) := by
  have hinv := inv_of_run h
  have hplaces := Multiset.nodup_add.mp hinv.accounts.nodup_left
  refine ⟨?_, Multiset.coe_nodup.mp hplaces.1, fun t ht x => hinv.notMem_conns_of_held ht,
    fun x hx s' hs' => stays_out hinv hx hs', ?_⟩
  · intro i j x t u hi hj ht hu
    exact holder_unique hplaces.2.1 hi hj ht hu
  · intro t ht hphase x hx
    have hbook := hinv.books t ht
    have hnone : t.held = 0 := by simp [Task.held, hphase, Phase.held]
    rw [Task.Balanced, hnone, zero_add] at hbook
    have hmem : x ∈ (t.closed : Multiset Nat) + t.putBack := hbook ▸ Multiset.mem_coe.mpr hx
    simpa using hmem

end Steps

/-- Two exchanges dial. A third takes the connection that the first has handed back, fails on it
and dials again. -/
def busyRun : List Event :=
  [.exchange, .conn 0 true, .dial 0 .ok, .exchange, .conn 1 true, .dial 1 .ok, .attempt 0 true,
    .putBack 0, .exchange, .conn 2 true, .attempt 2 false, .attempt 1 true, .putBack 1,
    .giveUp 2 true, .dial 2 .ok, .attempt 2 true, .putBack 2]

def busyState : State where
  conns := [1, 2]
  dialed := 3
  retired := [0]
  broken := [0]
  tasks := [⟨.returned, [0], [], [0]⟩, ⟨.returned, [1], [], [1]⟩, ⟨.returned, [0, 2], [0], [2]⟩]

theorem conns_never_shared_busy :
    replay step (fun _ _ => true) {} busyRun = some busyState ∧ busyState.conns.Nodup ∧
      ∀ s', Run step anyStep busyState s' → 0 ∉ s'.conns := by
  have hrun : replay step (fun _ _ => true) {} busyRun = some busyState := by decide
  obtain ⟨-, hnodup, -, hout, -⟩ := conns_never_shared (run_of_replay hrun .refl).any
  exact ⟨hrun, hnodup, hout 0 (.inl (List.mem_singleton_self 0))⟩

/-! ## After `Close` -/

/-- Between a reply and the hand-back. -/
def Phase.answered : Phase → Bool
  | .succeeded _ => true
  | _ => false

/-- No exchange gets its reply after `Close`, and none is between its reply and the hand-back when
`Close` is called. -/
def answeredBeforeClose (s : State) : Event → Bool
  | .attempt _ ok => !(ok && s.closed)
  | .close => s.tasks.all fun t => !t.phase.answered
  | _ => true

/-- After `Close` nothing is handed back any more, and what is in the pool is closed. -/
def Drained (s : State) : Prop :=
  s.closed = true → (∀ t ∈ s.tasks, t.phase.answered = false) ∧ s.conns ⊆ s.shut

section Close

variable {s s' : State} {e : Event}

theorem drained_step (hinv : Drained s) (hguard : answeredBeforeClose s e = true)
    (h : step s e = some s') : Drained s' := by
  intro hclosed
  cases step_effect h with
  | close he =>
    subst he
    refine ⟨fun t ht => ?_, List.subset_append_right _ _⟩
    simpa using List.all_eq_true.mp hguard t ht
  | exchange =>
    obtain ⟨htasks, hconns⟩ := hinv hclosed
    exact ⟨forall_mem_concat htasks rfl, hconns⟩
  | @goOn i t phase ht hfine hheld hreply =>
    obtain ⟨htasks, hconns⟩ := hinv hclosed
    refine ⟨forall_mem_set htasks ?_, hconns⟩
    cases phase with
    | succeeded x =>
      obtain rfl := hreply x rfl
      have hopen : s.closed = false := by simpa [answeredBeforeClose] using hguard
      exact absurd hclosed (by simp [State.setTask, hopen])
    | starting | dialing | exchanging | failed | returned => rfl
  | failed ht hphase =>
    obtain ⟨htasks, hconns⟩ := hinv hclosed
    exact ⟨forall_mem_set htasks rfl, hconns⟩
  | take ht hphase hpool | discard ht hphase hpool =>
    obtain ⟨htasks, hconns⟩ := hinv hclosed
    rw [hpool] at hconns
    exact ⟨forall_mem_set htasks rfl, (List.append_subset.mp hconns).1⟩
  | dial ht hphase | unusable ht hphase =>
    obtain ⟨htasks, hconns⟩ := hinv hclosed
    exact ⟨forall_mem_set htasks rfl, hconns⟩
  | retire phase ht hphase hheld =>
    obtain ⟨htasks, hconns⟩ := hinv hclosed
    refine ⟨forall_mem_set htasks ?_, hconns⟩
    cases phase with
    | succeeded x => exact absurd hheld (Multiset.singleton_ne_zero x)
    | starting | dialing | exchanging | failed | returned => rfl
  | @putBack i x t ht hphase =>
    obtain ⟨htasks, -⟩ := hinv hclosed
    have hanswered := htasks t (List.mem_of_getElem? ht)
    rw [hphase] at hanswered
    cases hanswered

/-- After `Close`, a connection is open only while it is with an exchange. -/
theorem closed_or_held (h : Run step (fun s e => answeredBeforeClose s e = true) {} s)
    (hclosed : s.closed = true) {x : Nat} (hx : x < s.dialed) :
    x ∈ s.retired ∨ x ∈ s.shut ∨ ∃ t ∈ s.tasks, x ∈ t.held := by
  have hdrained : Drained s :=
    h.invariant nofun fun _ _ _ hinv hguard hs => drained_step hinv hguard hs
  rcases (inv_of_run h.any).place hx with hconns | hheld | hretired
  · exact .inr (.inl ((hdrained hclosed).2 hconns))
  · exact .inr (.inr hheld)
  · exact .inl hretired

end Close

end DnsProxy.DoTPool
