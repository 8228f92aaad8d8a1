import DnsProxy.Lib.Custody

/-!
# The HTTP clients of a DoH upstream

At most one client is published at a time. `getClient` creates it when it is needed,
`resetClient` replaces it when it has failed, and `Close` takes it away for good. Each of them does
this under the lock of the upstream, and hands the client that it has taken away to
`closeClient` afterwards, while other calls go on.

Clients are numbered in the order in which they are created. For each call it is recorded which
client was published before its critical section and no longer after it, and which
ones it has handed to `closeClient`.

* `Effect`: what a step can do.
* `Inv`: every client is published, or some call has taken it away.
* `generations`: what follows for runs.
-/

namespace DnsProxy.DoHClient

open Custody Runs

inductive Err
  | closed
  | timeoutExceeded
  | createClient
deriving DecidableEq, Repr

/-- What a call has to do after its critical section. -/
inductive Phase
  /-- `resetClient` closes the old client. -/
  | resetting (oldClient : Option Nat)
  /-- The first `Close` closes the client. -/
  | closing (client : Option Nat)
  /-- Another `Close` waits for the first one. -/
  | waiting
  | returned
deriving DecidableEq, Repr

structure Call where
  phase : Phase
  unpublished : Option Nat
  handed : List Nat := []
deriving DecidableEq, Repr

/-- The client that the call is about to close. -/
def Call.pending (c : Call) : Multiset Nat :=
  match c.phase with
  | .resetting x | .closing x => x.toList
  | .waiting | .returned => 0

structure State where
  client : Option Nat := none
  created : Nat := 0
  closed : Bool := false
  /-- The channel that a second `Close` waits for is closed. -/
  closeDone : Bool := false
  calls : List Call := []
deriving DecidableEq, Repr

/-- What was given to `closeClient` so far. -/
def State.handovers (s : State) : Multiset Nat := total (fun c => c.handed) s.calls

/-- `createClient`, and what the callers make of its result: the client is published, or none is. -/
def State.createClient (s : State) (creates : Bool) : State × Except Err Nat :=
  if creates then ({ s with client := some s.created, created := s.created + 1 }, .ok s.created)
  else ({ s with client := none }, .error .createClient)

/-- The client with `isCached`; `tooLate` if the time was up before the lock was there. -/
def State.getClient (s : State) (tooLate creates : Bool) : State × Except Err (Nat × Bool) :=
  if s.closed then (s, .error .closed)
  else
    match s.client with
    | some x => (s, .ok (x, true))
    | none =>
      if tooLate then (s, .error .timeoutExceeded)
      else
        let (s, client) := s.createClient creates
        (s, client.map fun x => (x, false))

/-- The critical section, with the old client and what is returned. -/
def State.resetClient (s : State) (failed : Nat) (creates : Bool) :
    State × Option Nat × Except Err Nat :=
  if s.closed then (s, none, .error .closed)
  else
    let create := (s.createClient creates).2
    match s.client with
    | some x =>
      -- another exchange has replaced the failed client already
      if x ≠ failed then (s, none, .ok x) else ((s.createClient creates).1, some x, create)
    | none => ((s.createClient creates).1, none, create)

/-- The critical section of `Close`. -/
def State.close (s : State) : State × Phase :=
  if s.closed then (s, .waiting)
  else ({ s with client := none, closed := true }, .closing s.client)

inductive Event
  | getClient (tooLate creates : Bool)
  | resetClient (failed : Nat) (creates : Bool)
  | close
  /-- The call `i` goes on after its critical section. -/
  | goOn (i : Nat)
deriving DecidableEq, Repr

/-- The critical section of a call has made `s'` of `s`. -/
def State.enter (s s' : State) (phase : Phase) : State :=
  { s' with
    calls := s.calls ++ [⟨phase, if s'.client = s.client then none else s.client, []⟩] }

/-- The call hands the client to `closeClient`, if there is one, and returns. -/
def State.retire (s : State) (i : Nat) (c : Call) (client : Option Nat) : State :=
  { s with
    calls := s.calls.set i { c with phase := .returned, handed := c.handed ++ client.toList } }

def step (s : State) : Event → Option State
  | .getClient tooLate creates => some (s.enter (s.getClient tooLate creates).1 .returned)
  | .resetClient failed creates =>
    let reset := s.resetClient failed creates
    some (s.enter reset.1 (.resetting reset.2.1))
  | .close => some (s.enter s.close.1 s.close.2)
  | .goOn i =>
    match s.calls[i]? with
    | none => none
    | some c =>
      match c.phase with
      | .resetting oldClient => some (s.retire i c oldClient)
      | .closing client => some { s.retire i c client with closeDone := true }
      | .waiting => if s.closeDone then some (s.retire i c none) else none
      | .returned => none

/-! ## What a step can do -/

inductive Effect (s : State) : State → Prop
  /-- A call leaves the client as it is. -/
  | look (phase : Phase) (hphase : (Call.mk phase none []).pending = 0) :
      Effect s { s with calls := s.calls ++ [⟨phase, none, []⟩] }
  /-- A call publishes a client that it has created. -/
  | publish (phase : Phase) (hopen : s.closed = false)
      (hphase : (Call.mk phase s.client []).pending = s.client.toList) :
      Effect s { s with
        client := some s.created, created := s.created + 1
        calls := s.calls ++ [⟨phase, s.client, []⟩] }
  /-- A call leaves none, and may close the upstream. -/
  | clear (phase : Phase) (closed : Bool) (hopen : s.closed = false)
      (hphase : (Call.mk phase s.client []).pending = s.client.toList) :
      Effect s { s with
        client := none, closed := closed, calls := s.calls ++ [⟨phase, s.client, []⟩] }
  | retire {i : Nat} {c : Call} (client : Option Nat) (done : Bool) (hc : s.calls[i]? = some c)
      (hpending : c.pending = client.toList) :
      Effect s { s.retire i c client with closeDone := done }

section Steps

variable {s s' : State} {e : Event}

theorem enter_same (phase : Phase) :
    s.enter s phase = { s with calls := s.calls ++ [⟨phase, none, []⟩] } := by
  simp [State.enter]

theorem enter_clear {s' : State} (h : s'.client = none) (phase : Phase) :
    s.enter s' phase = { s' with calls := s.calls ++ [⟨phase, s.client, []⟩] } := by
  have hclient : (if none = s.client then none else s.client) = s.client := by
    split
    · next hnone => exact hnone
    · rfl
  simp [State.enter, h, hclient]

theorem createClient_effect (hclient : ∀ x, s.client = some x → x < s.created) (creates : Bool)
    {phase : Phase} (hopen : s.closed = false)
    (hphase : (Call.mk phase s.client []).pending = s.client.toList) :
    Effect s (s.enter (s.createClient creates).1 phase) := by
  cases creates with
  | true =>
    have hne : some s.created ≠ s.client := fun h => Nat.lt_irrefl _ (hclient _ h.symm)
    have hs : s.enter (s.createClient true).1 phase = { s with
        client := some s.created, created := s.created + 1
        calls := s.calls ++ [⟨phase, s.client, []⟩] } := by
      simp [State.enter, State.createClient, hne]
    rw [hs]
    exact .publish phase hopen hphase
  | false =>
    rw [enter_clear rfl]
    exact .clear phase s.closed hopen hphase

theorem step_effect (hclient : ∀ x, s.client = some x → x < s.created)
    (h : step s e = some s') : Effect s s' := by
  cases e with
  | getClient tooLate creates =>
    cases h
    unfold State.getClient
    split
    · rw [enter_same]
      exact .look _ rfl
    · next hopen =>
      split
      · rw [enter_same]
        exact .look _ rfl
      · next hnone =>
        split
        · rw [enter_same]
          exact .look _ rfl
        · have hopen := Bool.eq_false_iff.mpr hopen
          exact createClient_effect hclient creates hopen (by rw [hnone]; rfl)
  | resetClient failed creates =>
    cases h
    unfold State.resetClient
    split
    · rw [enter_same]
      exact .look _ rfl
    · next hopen =>
      have hopen := Bool.eq_false_iff.mpr hopen
      dsimp only
      split
      · next x hx =>
        split
        · rw [enter_same]
          exact .look _ rfl
        · exact createClient_effect hclient creates hopen (by rw [hx]; rfl)
      · next hx => exact createClient_effect hclient creates hopen (by rw [hx]; rfl)
  | close =>
    cases h
    unfold State.close
    split
    · rw [enter_same]
      exact .look _ rfl
    · next hopen =>
      rw [enter_clear rfl]
      exact .clear _ true (Bool.eq_false_iff.mpr hopen) rfl
  | goOn i =>
    simp only [step] at h
    split at h
    · cases h
    · next c hc =>
      split at h
      · next hphase =>
        cases h
        exact .retire _ s.closeDone hc (by simp [Call.pending, hphase])
      · next hphase =>
        cases h
        exact .retire _ true hc (by simp [Call.pending, hphase])
      · next hphase =>
        split at h
        · cases h
          exact .retire none s.closeDone hc (by simp [Call.pending, hphase])
        · cases h
      · cases h

/-! ## Whose a client is -/

/-- The client that the call has taken away. -/
def Call.owned (c : Call) : Multiset Nat := c.unpublished.toList

/-- Every client is the published one, or one call has taken it away. A call has closed the
client that it has taken away, or is about to. -/
structure Inv (s : State) : Prop where
  accounts : Accounts s.created (s.client.toList + total Call.owned s.calls)
  books : ∀ c ∈ s.calls, c.owned = c.pending + c.handed
  closed : s.closed = true → s.client = none

namespace Inv

theorem init : Inv {} where
  accounts := rfl
  books := nofun
  closed := nofun

theorem client_lt (h : Inv s) : ∀ x, s.client = some x → x < s.created := by
  intro x hx
  refine h.accounts.mem_iff.mp (Multiset.mem_add.mpr (.inl ?_))
  simp [hx]

theorem owned_eq (h : Inv s) :
    total Call.owned s.calls = total Call.pending s.calls + s.handovers := by
  rw [total_congr h.books, total_add]
  rfl

theorem nodup_owned (h : Inv s) : (total Call.owned s.calls).Nodup := h.accounts.nodup_right

theorem nodup_pending_handovers (h : Inv s) :
    (total Call.pending s.calls + s.handovers).Nodup := h.owned_eq ▸ h.nodup_owned

theorem unpublished_of_handed (h : Inv s) {c : Call} (hc : c ∈ s.calls) {x : Nat}
    (hx : x ∈ c.handed) : c.unpublished = some x := by
  have howned : x ∈ c.owned := by
    rw [h.books c hc]
    exact Multiset.mem_add.mpr (.inr (Multiset.mem_coe.mpr hx))
  simpa [Call.owned] using howned

theorem unpublished_of_pending (h : Inv s) {c : Call} (hc : c ∈ s.calls) {x : Nat}
    (hx : x ∈ c.pending) : c.unpublished = some x := by
  have howned : x ∈ c.owned := by
    rw [h.books c hc]
    exact Multiset.mem_add.mpr (.inl hx)
  simpa [Call.owned] using howned

end Inv

theorem books_concat {l : List Call} (h : ∀ c ∈ l, c.owned = c.pending + c.handed) {phase : Phase}
    {client : Option Nat} (hphase : (Call.mk phase client []).pending = client.toList) :
    ∀ c ∈ l ++ [Call.mk phase client []], c.owned = c.pending + c.handed := by
  refine forall_mem_concat h ?_
  rw [hphase]
  exact (add_zero (M := Multiset Nat) _).symm

theorem inv_step (hinv : Inv s) (h : step s e = some s') : Inv s' := by
  cases step_effect hinv.client_lt h with
  | look phase hphase =>
    refine ⟨hinv.accounts.of_eq ?_, books_concat hinv.books hphase, hinv.closed⟩
    rw [total_concat]
    show _ = _ + (_ + (0 : Multiset Nat))
    rw [add_zero]
  | publish phase hopen hphase =>
    refine ⟨hinv.accounts.fresh.of_eq ?_, books_concat hinv.books hphase, fun hclosed => ?_⟩
    · rw [total_concat]
      show _ + _ + {s.created} = {s.created} + (_ + (s.client.toList : Multiset Nat))
      abel
    · rw [hopen] at hclosed
      cases hclosed
  | clear phase closed hopen hphase =>
    refine ⟨hinv.accounts.of_eq ?_, books_concat hinv.books hphase, fun _ => rfl⟩
    rw [total_concat]
    show _ + _ = 0 + (_ + (s.client.toList : Multiset Nat))
    abel
  | @retire i c client done hc hpending =>
    have hbook := hinv.books c (List.mem_of_getElem? hc)
    refine ⟨hinv.accounts.of_eq ?_, forall_mem_set hinv.books ?_, hinv.closed⟩
    · show _ = (s.client.toList : Multiset Nat) + total Call.owned (s.calls.set i _)
      rw [total_set_same hc]
      rfl
    · show c.owned = 0 + (c.handed ++ client.toList : List Nat)
      rw [hbook, hpending, ← Multiset.coe_add]
      abel

theorem inv_of_run (h : Run step anyStep {} s) : Inv s :=
  h.invariant Inv.init fun _ _ _ hinv _ hs => inv_step hinv hs

theorem closed_step (hinv : Inv s) (hclosed : s.closed = true) (h : step s e = some s') :
    s'.closed = true ∧ s'.created = s.created := by
  cases step_effect hinv.client_lt h with
  | look => exact ⟨hclosed, rfl⟩
  | publish _ hopen | clear _ _ hopen => exact absurd hclosed (by simp [hopen])
  | retire => exact ⟨hclosed, rfl⟩

theorem closed_run (hinv : Inv s) (hclosed : s.closed = true) (h : Run step anyStep s s') :
    s'.client = none ∧ s'.created = s.created := by
  have hlater : Inv s' ∧ s'.closed = true ∧ s'.created = s.created := by
    refine h.invariant (p := fun u => Inv u ∧ u.closed = true ∧ u.created = s.created)
      ⟨hinv, hclosed, rfl⟩ ?_
    intro u e u' ⟨hu, huclosed, hcreated⟩ _ hs
    obtain ⟨hclosed', hcreated'⟩ := closed_step hu huclosed hs
    exact ⟨inv_step hu hs, hclosed', hcreated'.trans hcreated⟩
  exact ⟨hlater.1.closed hlater.2.1, hlater.2.2⟩

theorem resetClient_stale {failed x : Nat} (hx : s.client = some x) (hne : x ≠ failed)
    (creates : Bool) : (s.resetClient failed creates).1.client = some x := by
  unfold State.resetClient
  split
  · exact hx
  · simp only [hx, if_pos hne]

/-- A client that is not published: the call that has taken it away is about to close it, or has
done so, and no other call does. -/
theorem Inv.unpublished (h : Inv s) {x : Nat} (hx : x < s.created) (hne : s.client ≠ some x) :
    (x ∉ s.handovers ∧ ∃ c ∈ s.calls, c.phase ≠ .returned ∧ c.unpublished = some x ∧
      x ∈ c.pending) ∨ s.handovers.count x = 1 := by
  have hmem := h.accounts.mem_iff.mpr hx
  rw [h.owned_eq, Multiset.mem_add, Multiset.mem_add] at hmem
  have hapart := Multiset.nodup_add.mp h.nodup_pending_handovers
  rcases hmem with hclient | hpending | hhanded
  · exact absurd (by simpa using hclient) hne
  · obtain ⟨c, hc, hxc⟩ := mem_total.mp hpending
    refine .inl ⟨Multiset.disjoint_left.mp hapart.2.2 hpending, c, hc, fun hphase => ?_,
      h.unpublished_of_pending hc hxc, hxc⟩
    simp [Call.pending, hphase] at hxc
  · exact .inr (Multiset.count_eq_one_of_mem hapart.2.1 hhanded)

theorem Inv.published (h : Inv s) {x : Nat} (hx : s.client = some x) : x ∉ s.handovers := by
  intro hhanded
  have hclient : x ∈ (s.client.toList : Multiset Nat) := by simp [hx]
  refine h.accounts.notMem_right hclient ?_
  rw [h.owned_eq]
  exact Multiset.mem_add.mpr (.inr hhanded)

/-- Each client created is published and not given to `closeClient`, or it is not published and
given to it once, as soon as the call that has taken it away is through. Only that call
does so, and it is one call. A reset for another client than the published one leaves that
published. After `Close` none is published or created. -/
theorem generations (h : Run step anyStep {} s) :
    (∀ x < s.created,
      (s.client = some x ∧ x ∉ s.handovers) ∨
      (s.client ≠ some x ∧ x ∉ s.handovers ∧
        ∃ c ∈ s.calls, c.phase ≠ .returned ∧ c.unpublished = some x ∧ x ∈ c.pending) ∨
      (s.client ≠ some x ∧ s.handovers.count x = 1)) ∧
    (∀ c ∈ s.calls, ∀ x ∈ c.handed, c.unpublished = some x) ∧
    (∀ (i j x : Nat) (c d : Call), s.calls[i]? = some c → s.calls[j]? = some d →
      c.unpublished = some x → d.unpublished = some x → i = j) ∧
    (∀ failed creates x s', s.client = some x → x ≠ failed →
      step s (.resetClient failed creates) = some s' → s'.client = some x) ∧
    (s.closed = true →
      ∀ s', Run step anyStep s s' → s'.client = none ∧ s'.created = s.created) := by
  have hinv := inv_of_run h
  refine ⟨fun x hx => ?_, fun c hc x => hinv.unpublished_of_handed hc, ?_, ?_,
    fun hclosed s' hs' => closed_run hinv hclosed hs'⟩
  · rcases eq_or_ne s.client (some x) with hclient | hne
    · exact .inl ⟨hclient, hinv.published hclient⟩
    · rcases hinv.unpublished hx hne with ⟨hnot, hpending⟩ | honce
      · exact .inr (.inl ⟨hne, hnot, hpending⟩)
      · exact .inr (.inr ⟨hne, honce⟩)
  · intro i j x c d hi hj hc hd
    refine holder_unique (f := Call.owned) hinv.nodup_owned hi hj (x := x) ?_ ?_
    · simp [Call.owned, hc]
    · simp [Call.owned, hd]
  · intro failed creates x s' hx hne hs
    obtain rfl := Option.some.inj hs
    exact resetClient_stale hx hne creates

end Steps

/-- Two exchanges fail with the client 0. The first of them replaces it, the second one finds the
client 1. Later a reset leaves no client, another one is created, and the upstream is closed. -/
def generationRun : List Event :=
  [.getClient false true, .resetClient 0 true, .resetClient 0 true, .goOn 1, .goOn 2,
    .resetClient 1 false, .getClient false true, .close, .goOn 3, .close, .goOn 5, .goOn 6]

def generationState : State where
  created := 3
  closed := true
  closeDone := true
  calls := [⟨.returned, none, []⟩, ⟨.returned, some 0, [0]⟩, ⟨.returned, none, []⟩,
    ⟨.returned, some 1, [1]⟩, ⟨.returned, none, []⟩, ⟨.returned, some 2, [2]⟩,
    ⟨.returned, none, []⟩]

theorem generations_closed :
    replay step (fun _ _ => true) {} generationRun = some generationState ∧
      ∀ s', Run step anyStep generationState s' → s'.client = none ∧ s'.created = 3 := by
  have hrun : replay step (fun _ _ => true) {} generationRun = some generationState := by decide
  obtain ⟨-, -, -, -, hclosed⟩ := generations (run_of_replay hrun .refl).any
  exact ⟨hrun, hclosed rfl⟩

end DnsProxy.DoHClient
