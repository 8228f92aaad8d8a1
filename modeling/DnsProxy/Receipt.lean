import DnsProxy.Basic
import Mathlib.Data.List.Induction

/-!
# The decision owner of one exchange

`ExchangeState` belongs to one `Exchange` call of an upstream. Its methods are
atomic (they hold its mutex), so a run is a list of calls in the order in which
they took the mutex, each with the clock reading it made there. The `done`
channel is a count of its `close` calls: a second one would panic.

The ticket counter is unbounded here (a `uint64` in the source).

Results:
1. `run_result_stable`, `run_closes`: a published result never changes, and the
   channel is closed once, by the publication.
2. `outstanding_unique`: at most one reservation is outstanding.
3. `run_response`: where a published response comes from.
4. `run_after_expire`, `reject_after_expire`: what an expiry leaves behind.

All four are read off one inversion lemma, `step_effect`, which says what a call
can do to the state.
-/

namespace DnsProxy.Receipt

/-- Nanoseconds since the zero `time.Time`. -/
abbrev Time := Nat

/-- `time.Time.IsZero`. -/
def isZero (t : Time) : Bool := t == 0

/-- `time.Time.After`. -/
def after (t u : Time) : Bool := decide (u < t)

inductive ExchangeError
  | deadlineExceeded
  | exchangeAbandoned
  | noReply
  | native (code : Nat)
deriving DecidableEq, Repr

structure ExchangeResult where
  response : Option Msg := none
  receivedAt : Time := 0
  err : Option ExchangeError := none
deriving DecidableEq, Repr

structure ExchangeState where
  result : ExchangeResult := {}
  deadline : Time
  received : Time := 0
  closes : Nat := 0
  ticket : Nat := 0
  original : UInt16 := 0
  started : Bool := false
  reserved : Bool := false
  sealed : Bool := false
  finished : Bool := false
deriving DecidableEq, Repr

def newExchangeState (cutoff : Time) : ExchangeState := { deadline := cutoff }

namespace ExchangeState

/-- The admission cutoff has passed at `now`. -/
def late (s : ExchangeState) (now : Time) : Bool := !isZero s.deadline && after now s.deadline

def completeLocked (s : ExchangeState) (result : ExchangeResult) : ExchangeState :=
  if !s.finished then
    { s with result := result, finished := true, reserved := false, closes := s.closes + 1 }
  else s

def expire (s : ExchangeState) : ExchangeState :=
  let s := { s with sealed := true }
  if !s.reserved then s.completeLocked { err := some .deadlineExceeded } else s

def abandon (s : ExchangeState) : ExchangeState :=
  s.completeLocked { err := some .exchangeAbandoned }

/-- `start` fails, with the state unchanged, on a state that was started. -/
def start (s : ExchangeState) (id : UInt16) : Option ExchangeState :=
  if s.started then none else some { s with started := true, original := id }

/-- Returns the ticket, `0` when no reservation was made. -/
def reserveCandidate (s : ExchangeState) (now : Time) : Nat × ExchangeState :=
  if s.finished || s.sealed || s.reserved then (0, s)
  else if s.late now then (0, s.completeLocked { err := some .deadlineExceeded })
  else (s.ticket + 1, { s with ticket := s.ticket + 1, reserved := true, received := now })

/-- The bytes of a complete possible final response to `id`: a full header with
this id and the QR bit, and over UDP without the TC bit. -/
def candidate (wire : Bytes) (id : UInt16) (udp : Bool) : Bool :=
  match wire with
  | b0 :: b1 :: b2 :: _ =>
    !(wire.length < 12 || b0.toUInt16 <<< 8 ||| b1.toUInt16 != id || b2 &&& 0x80 == 0 ||
      (udp && b2 &&& 0x02 != 0))
  | _ => false

def reserve (s : ExchangeState) (wire : Bytes) (id : UInt16) (udp : Bool) (now : Time) :
    Nat × ExchangeState :=
  if candidate wire id udp then s.reserveCandidate now else (0, s)

def reject (s : ExchangeState) (ticket : Nat) (now : Time) : ExchangeState :=
  if ticket == 0 then s
  else if s.finished || !s.reserved || ticket != s.ticket then s
  else
    let s := { s with reserved := false }
    if s.sealed || s.late now then s.completeLocked { err := some .deadlineExceeded } else s

def accept (s : ExchangeState) (ticket : Nat) (response : Msg) : ExchangeState :=
  if ticket == 0 then s
  else if !s.finished && s.reserved && ticket == s.ticket then
    s.completeLocked
      { response := some { response with id := s.original }, receivedAt := s.received }
  else s

def finish (s : ExchangeState) (err : Option ExchangeError) : ExchangeState :=
  s.completeLocked { err := some (err.getD .noReply) }

end ExchangeState

/-! ## Runs -/

/-- One atomic call, with the clock reading it makes. -/
inductive Call
  | start (id : UInt16)
  | reserve (wire : Bytes) (id : UInt16) (udp : Bool) (now : Time)
  | reserveCandidate (now : Time)
  | reject (ticket : Nat) (now : Time)
  | accept (ticket : Nat) (response : Msg)
  | finish (err : Option ExchangeError)
  | expire
  | abandon
deriving DecidableEq, Repr

def step (s : ExchangeState) : Call → ExchangeState
  | .start id => (s.start id).getD s
  | .reserve wire id udp now => (s.reserve wire id udp now).2
  | .reserveCandidate now => (s.reserveCandidate now).2
  | .reject ticket now => s.reject ticket now
  | .accept ticket response => s.accept ticket response
  | .finish err => s.finish err
  | .expire => s.expire
  | .abandon => s.abandon

/-- The state after `calls` on a fresh state with this cutoff. -/
def run (cutoff : Time) (calls : List Call) : ExchangeState :=
  calls.foldl step (newExchangeState cutoff)

/-- The clock reading of a reservation call. -/
def Call.reservesAt : Call → Option Time
  | .reserve _ _ _ now => some now
  | .reserveCandidate now => some now
  | _ => none

/-- The ticket that a call returns: `0` when it is not a reservation or did not
get one. -/
def ticketOf (s : ExchangeState) : Call → Nat
  | .reserve wire id udp now => (s.reserve wire id udp now).1
  | .reserveCandidate now => (s.reserveCandidate now).1
  | _ => 0

/-- The id given to the first `start` of the run. -/
def firstStart : List Call → Option UInt16
  | [] => none
  | .start id :: _ => some id
  | _ :: calls => firstStart calls

/-- A `start` precedes the first reservation. -/
def StartsFirst (calls : List Call) : Prop :=
  ∀ pre c post, calls = pre ++ c :: post → c.reservesAt ≠ none → firstStart pre ≠ none

/-- The reservation with ticket `tk` is outstanding after `calls`: the ticket was
issued, it has not been rejected since, and no result is published. -/
def Outstanding (cutoff : Time) (calls : List Call) (tk : Nat) : Prop :=
  tk ≠ 0 ∧ (run cutoff calls).finished = false ∧
  ∃ pre c post, calls = pre ++ c :: post ∧ ticketOf (run cutoff pre) c = tk ∧
    ∀ now, Call.reject tk now ∉ post

@[simp] theorem run_nil (cutoff : Time) : run cutoff [] = newExchangeState cutoff := rfl

@[simp] theorem run_snoc (cutoff : Time) (calls : List Call) (c : Call) :
    run cutoff (calls ++ [c]) = step (run cutoff calls) c := by
  simp [run]

/-! ## What one call can do -/

/-- The state that publishing `r` leaves. -/
def published (s : ExchangeState) (c : Call) (r : ExchangeResult) : ExchangeState :=
  { s with
    result := r, finished := true, reserved := false, closes := s.closes + 1
    sealed := s.sealed || c == .expire }

/-- The effects of a call. A call that leaves the state alone is not a
reservation that got a ticket, nor a `reject` or `accept` of a reservation that is
held, nor the first `expire`. -/
inductive Effect (s : ExchangeState) (c : Call) : ExchangeState → Prop
  | keep : ticketOf s c = 0 →
      (∀ now, c = .reject s.ticket now → s.finished = true ∨ s.reserved = false ∨ s.ticket = 0) →
      (∀ id, c = .start id → s.started = true) → c ≠ .expire → Effect s c s
  | started {id : UInt16} : c = .start id → s.started = false →
      Effect s c { s with started := true, original := id }
  | issued {now : Time} : c.reservesAt = some now → ticketOf s c = s.ticket + 1 →
      s.finished = false → s.sealed = false → s.reserved = false → s.late now = false →
      Effect s c { s with ticket := s.ticket + 1, reserved := true, received := now }
  | released {now : Time} : c = .reject s.ticket now → s.finished = false → s.sealed = false →
      Effect s c { s with reserved := false }
  | sealed : c = .expire → s.finished = true ∨ s.reserved = true →
      Effect s c { s with sealed := true }
  | failed {r : ExchangeResult} : s.finished = false → ticketOf s c = 0 →
      r.response = none → (∀ id, c ≠ .start id) → Effect s c (published s c r)
  | accepted {response : Msg} : s.finished = false → s.reserved = true →
      c = .accept s.ticket response →
      Effect s c (published s c
        { response := some { response with id := s.original }, receivedAt := s.received })

variable {s s' : ExchangeState} {cutoff : Time} {c : Call} {calls pre : List Call}

theorem completeLocked_of_finished (h : s.finished = true) (r : ExchangeResult) :
    s.completeLocked r = s := by
  simp [ExchangeState.completeLocked, h]

theorem completeLocked_eq_published (h : s.finished = false) (hc : c ≠ .expire)
    (r : ExchangeResult) : s.completeLocked r = published s c r := by
  simp [ExchangeState.completeLocked, published, h, beq_false_of_ne hc]

/-- A reservation call either leaves the state alone, or is late and publishes the
timeout, or is issued. -/
theorem reserveCandidate_effect {now : Time} (hc : c.reservesAt = some now)
    (ht : ticketOf s c = (s.reserveCandidate now).1) : Effect s c (s.reserveCandidate now).2 := by
  have hstart : ∀ id, c ≠ .start id := by
    intro id h
    subst h
    cases hc
  have hexp : c ≠ .expire := by
    intro h
    subst h
    cases hc
  have hrej : ∀ t, c ≠ .reject s.ticket t := by
    intro t h
    subst h
    cases hc
  unfold ExchangeState.reserveCandidate at ht ⊢
  split at ht
  · next h =>
    rw [if_pos h]
    exact .keep ht (fun t h => absurd h (hrej t)) (fun id h => absurd h (hstart id)) hexp
  · next h =>
    rw [if_neg h]
    simp only [Bool.or_eq_true, not_or, Bool.not_eq_true] at h
    obtain ⟨⟨hf, hs⟩, hr⟩ := h
    split at ht
    · next hl =>
      rw [if_pos hl, completeLocked_eq_published hf hexp]
      exact .failed hf ht rfl hstart
    · next hl =>
      rw [if_neg hl]
      exact .issued hc ht hf hs hr (by simpa using hl)

/-- A call that completes with an error and is no `expire` either finds the state
finished or publishes that error. -/
theorem completeLocked_effect {r : ExchangeResult} (ht : ticketOf s c = 0) (hr : r.response = none)
    (hrej : ∀ t now, c ≠ .reject t now) (hstart : ∀ id, c ≠ .start id) (hexp : c ≠ .expire) :
    Effect s c (s.completeLocked r) := by
  cases hf : s.finished with
  | true =>
    rw [completeLocked_of_finished hf]
    exact .keep ht (fun now h => absurd h (hrej _ now)) (fun id h => absurd h (hstart id)) hexp
  | false =>
    rw [completeLocked_eq_published hf hexp]
    exact .failed hf ht hr hstart

theorem reject_effect (s : ExchangeState) (ticket : Nat) (now : Time) :
    Effect s (.reject ticket now) (s.reject ticket now) := by
  unfold ExchangeState.reject
  split
  · next h0 =>
    refine .keep rfl (fun t he => ?_) (fun _ h => nomatch h) (fun h => nomatch h)
    simp only [Call.reject.injEq] at he
    exact .inr (.inr (he.1 ▸ by simpa using h0))
  · split
    · next h =>
      refine .keep rfl (fun t he => ?_) (fun _ h => nomatch h) (fun h => nomatch h)
      simp only [Call.reject.injEq] at he
      simp only [he.1, Bool.or_eq_true, Bool.not_eq_true', bne_self_eq_false, Bool.false_eq_true,
        or_false] at h
      exact h.imp id .inl
    · next h =>
      simp only [Bool.or_eq_true, not_or, Bool.not_eq_true, Bool.not_eq_false', bne_iff_ne,
        ne_eq, not_not] at h
      obtain ⟨⟨hf, hr⟩, rfl⟩ := h
      simp only
      split
      · rw [completeLocked_eq_published (s := { s with reserved := false }) hf
          (c := .reject s.ticket now) (fun h => nomatch h)]
        exact .failed hf rfl rfl (fun _ h => nomatch h)
      · next hl =>
        simp only [Bool.or_eq_true, not_or, Bool.not_eq_true] at hl
        exact .released rfl hf hl.1

theorem step_effect (s : ExchangeState) (c : Call) : Effect s c (step s c) := by
  cases c with
  | start id =>
    simp only [step, ExchangeState.start]
    split
    · next h => exact .keep rfl (fun _ h => nomatch h) (fun _ _ => h) (fun h => nomatch h)
    · next h => exact .started rfl (by simpa using h)
  | reserve wire id udp now =>
    simp only [step, ExchangeState.reserve]
    split
    · next h => exact reserveCandidate_effect rfl (by simp [ticketOf, ExchangeState.reserve, h])
    · next h =>
      exact .keep (by simp [ticketOf, ExchangeState.reserve, h]) (fun _ h => nomatch h)
        (fun _ h => nomatch h) (fun h => nomatch h)
  | reserveCandidate now => exact reserveCandidate_effect rfl rfl
  | reject ticket now => exact reject_effect s ticket now
  | accept ticket response =>
    have hkeep : Effect s (.accept ticket response) s :=
      .keep rfl (fun _ h => nomatch h) (fun _ h => nomatch h) (fun h => nomatch h)
    simp only [step, ExchangeState.accept]
    split
    · exact hkeep
    · split
      · next h =>
        simp only [Bool.and_eq_true, Bool.not_eq_true', beq_iff_eq] at h
        obtain ⟨⟨hf, hr⟩, rfl⟩ := h
        rw [completeLocked_eq_published (c := .accept s.ticket response) hf (fun h => nomatch h)]
        exact .accepted hf hr rfl
      · exact hkeep
  | finish err =>
    exact completeLocked_effect rfl rfl (fun _ _ h => nomatch h) (fun _ h => nomatch h)
      (fun h => nomatch h)
  | expire =>
    simp only [step, ExchangeState.expire]
    split
    · next h =>
      rcases Bool.eq_false_or_eq_true s.finished with hf | hf
      · rw [completeLocked_of_finished (s := { s with sealed := true }) hf]
        exact .sealed rfl (.inl hf)
      · have hpub := Effect.failed (s := s) (c := .expire)
          (r := { err := some .deadlineExceeded }) hf rfl rfl (fun _ h => nomatch h)
        simpa [ExchangeState.completeLocked, published, hf] using hpub
    · next h => exact .sealed rfl (.inr (by simpa using h))
  | abandon =>
    exact completeLocked_effect rfl rfl (fun _ _ h => nomatch h) (fun _ h => nomatch h)
      (fun h => nomatch h)

/-! ## The invariant -/

/-- The ticket `tk` was issued in the run at clock reading `now`, by a reservation
before any expiry and any publication and not after a non-zero cutoff, and it has
not been rejected since. -/
def ReservedAt (cutoff : Time) (calls : List Call) (tk : Nat) (now : Time) : Prop :=
  ∃ pre c mid, calls = pre ++ c :: mid ∧ c.reservesAt = some now ∧
    ticketOf (run cutoff pre) c = tk ∧ tk ≠ 0 ∧ (run cutoff pre).finished = false ∧
    Call.expire ∉ pre ∧ (cutoff ≠ 0 → now ≤ cutoff) ∧ ∀ t, Call.reject tk t ∉ mid

structure Inv (cutoff : Time) (calls : List Call) (s : ExchangeState) : Prop where
  deadline : s.deadline = cutoff
  closes : s.closes = if s.finished then 1 else 0
  start : firstStart calls = if s.started then some s.original else none
  sealed : s.sealed = true ↔ Call.expire ∈ calls
  released : s.finished = true → s.reserved = false
  holder : s.reserved = true → ReservedAt cutoff calls s.ticket s.received

theorem firstStart_append (xs ys : List Call) :
    firstStart (xs ++ ys) = (firstStart xs).or (firstStart ys) := by
  induction xs with
  | nil => rfl
  | cons c xs ih => cases c <;> simp [firstStart, ih]

theorem firstStart_snoc_of_ne (h : ∀ id, c ≠ .start id) :
    firstStart (calls ++ [c]) = firstStart calls := by
  rw [firstStart_append]
  cases c with
  | start id => exact absurd rfl (h id)
  | _ => simp [firstStart]

theorem ReservedAt.snoc {tk : Nat} {now : Time} (h : ReservedAt cutoff calls tk now)
    (hc : ∀ t, c ≠ .reject tk t) : ReservedAt cutoff (calls ++ [c]) tk now := by
  obtain ⟨pre, c', mid, rfl, hres, htk, h0, hf, he, hcut, hrej⟩ := h
  refine ⟨pre, c', mid ++ [c], by simp, hres, htk, h0, hf, he, hcut, fun t ht => ?_⟩
  rcases List.mem_append.mp ht with ht | ht
  · exact hrej t ht
  · exact hc t (List.mem_singleton.mp ht).symm

theorem le_cutoff_of_not_late {now : Time} (h : s.late now = false) (hd : s.deadline ≠ 0) :
    now ≤ s.deadline := by
  simpa [ExchangeState.late, isZero, after, hd] using h

theorem Inv.keepHolder (hi : Inv cutoff calls s) (hc : ∀ now, c ≠ .reject s.ticket now)
    (h : s.reserved = true) : ReservedAt cutoff (calls ++ [c]) s.ticket s.received :=
  (hi.holder h).snoc hc

theorem inv_step (hi : Inv cutoff calls (run cutoff calls)) (he : Effect (run cutoff calls) c s') :
    Inv cutoff (calls ++ [c]) s' := by
  cases he with
  | keep ht hrej hstart hexp =>
    refine ⟨hi.deadline, hi.closes, ?_, ?_, hi.released, fun hr => ?_⟩
    · rw [firstStart_append, hi.start]
      cases c with
      | start id => simp [hstart id rfl]
      | _ => simp [firstStart]
    · simp [hi.sealed, Ne.symm hexp]
    · refine hi.keepHolder (fun now hc => ?_) hr
      obtain ⟨_, _, _, _, _, _, h0, _⟩ := hi.holder hr
      rcases hrej now hc with h | h | h
      · simp [hi.released h] at hr
      · simp [h] at hr
      · exact h0 h
  | @started id hc hs =>
    subst hc
    refine ⟨hi.deadline, hi.closes, ?_, by simpa using hi.sealed, hi.released,
      hi.keepHolder (fun _ h => nomatch h)⟩
    rw [firstStart_append, hi.start, hs]
    simp [firstStart]
  | @issued now hc ht hf hs hr hl =>
    refine ⟨hi.deadline, hi.closes, ?_, ?_, fun h => ?_, fun _ => ?_⟩
    · rw [firstStart_snoc_of_ne (fun id h => by subst h; cases hc)]
      exact hi.start
    · have hne : c ≠ .expire := fun h => by subst h; cases hc
      simp [hi.sealed, Ne.symm hne]
    · simp [hf] at h
    · refine ⟨calls, c, [], rfl, hc, ht, by simp, hf, fun h => ?_, fun h0 => ?_, by simp⟩
      · simp [hi.sealed.mpr h] at hs
      · have := le_cutoff_of_not_late hl (by rwa [hi.deadline])
        rwa [hi.deadline] at this
  | @released now hc hf hs =>
    subst hc
    refine ⟨hi.deadline, hi.closes, ?_, by simpa using hi.sealed, fun _ => rfl, fun h => nomatch h⟩
    rw [firstStart_snoc_of_ne (by simp)]
    exact hi.start
  | sealed hc h =>
    subst hc
    refine ⟨hi.deadline, hi.closes, ?_, by simp, hi.released,
      hi.keepHolder (fun _ h => nomatch h)⟩
    rw [firstStart_snoc_of_ne (by simp)]
    exact hi.start
  | failed hf ht hr hstart =>
    have hcl := hi.closes
    refine ⟨hi.deadline, ?_, ?_, ?_, fun _ => rfl, fun h => nomatch h⟩
    · simpa [published, hf] using hcl
    · rw [firstStart_snoc_of_ne hstart]
      exact hi.start
    · simp [published, hi.sealed, eq_comm (a := Call.expire)]
  | accepted hf hr hc =>
    subst hc
    have hcl := hi.closes
    refine ⟨hi.deadline, ?_, ?_, ?_, fun _ => rfl, fun h => nomatch h⟩
    · simpa [published, hf] using hcl
    · rw [firstStart_snoc_of_ne (by simp)]
      exact hi.start
    · simp [published, hi.sealed]

theorem inv_run (cutoff : Time) (calls : List Call) : Inv cutoff calls (run cutoff calls) := by
  induction calls using List.reverseRecOn with
  | nil =>
    exact ⟨rfl, rfl, rfl, by simp [newExchangeState], (fun h => nomatch h), fun h => nomatch h⟩
  | append_singleton calls c ih =>
    rw [run_snoc]
    exact inv_step ih (step_effect _ c)

/-! ## Publication -/

theorem effect_finished (he : Effect s c s') (h : s.finished = true) :
    s'.finished = true ∧ s'.result = s.result := by
  cases he with
  | keep => exact ⟨h, rfl⟩
  | started => exact ⟨h, rfl⟩
  | sealed => exact ⟨h, rfl⟩
  | issued _ _ hf => simp [h] at hf
  | released _ hf => simp [h] at hf
  | failed hf => simp [h] at hf
  | accepted hf => simp [h] at hf

/-- A published result stays as it is under any further calls. -/
theorem run_result_stable (h : (run cutoff pre).finished = true) (post : List Call) :
    (run cutoff (pre ++ post)).finished = true ∧
      (run cutoff (pre ++ post)).result = (run cutoff pre).result := by
  induction post using List.reverseRecOn with
  | nil => simpa using h
  | append_singleton post c ih =>
    rw [← List.append_assoc, run_snoc]
    obtain ⟨hf, hr⟩ := effect_finished (step_effect _ c) ih.1
    exact ⟨hf, hr.trans ih.2⟩

theorem not_finished_of_append {post : List Call}
    (h : (run cutoff (pre ++ post)).finished = false) : (run cutoff pre).finished = false := by
  by_contra hp
  simp [(run_result_stable (by simpa using hp) post).1] at h

/-- The channel is closed by the publication and never again. -/
theorem run_closes (cutoff : Time) (calls : List Call) :
    (run cutoff calls).closes = if (run cutoff calls).finished then 1 else 0 :=
  (inv_run cutoff calls).closes

/-! ## Reservations -/

theorem effect_ticketOf (he : Effect s c s') (h : ticketOf s c ≠ 0) :
    s'.reserved = true ∧ s'.ticket = ticketOf s c := by
  cases he with
  | issued _ ht => exact ⟨rfl, ht.symm⟩
  | keep ht => exact absurd ht h
  | failed _ ht => exact absurd ht h
  | started hc => subst hc; exact absurd rfl h
  | released hc => subst hc; exact absurd rfl h
  | sealed hc => subst hc; exact absurd rfl h
  | accepted _ _ hc => subst hc; exact absurd rfl h

/-- A call that neither rejects the held reservation nor publishes leaves it
held. -/
theorem effect_holds (he : Effect s c s') (hr : s.reserved = true)
    (hc : ∀ now, c ≠ .reject s.ticket now) (hf : s'.finished = false) :
    s'.reserved = true ∧ s'.ticket = s.ticket := by
  cases he with
  | keep => exact ⟨hr, rfl⟩
  | started => exact ⟨hr, rfl⟩
  | sealed => exact ⟨hr, rfl⟩
  | issued _ _ _ _ h => simp [hr] at h
  | released h => exact absurd h (hc _)
  | failed => cases hf
  | accepted => cases hf

theorem outstanding_held {tk : Nat} (h : Outstanding cutoff calls tk) :
    (run cutoff calls).reserved = true ∧ (run cutoff calls).ticket = tk := by
  induction calls using List.reverseRecOn with
  | nil => obtain ⟨_, _, pre, c, post, hcalls, _⟩ := h; simp at hcalls
  | append_singleton calls c ih =>
    obtain ⟨h0, hf, pre, c', post, hcalls, htk, hrej⟩ := h
    rw [run_snoc]
    rcases List.eq_nil_or_concat' post with rfl | ⟨post', c'', rfl⟩
    · obtain ⟨rfl, hc⟩ := List.append_inj' hcalls rfl
      obtain rfl : c = c' := by simpa using hc
      subst htk
      exact effect_ticketOf (step_effect _ c) h0
    · rw [← List.cons_append, ← List.append_assoc] at hcalls
      obtain ⟨rfl, hc⟩ := List.append_inj' hcalls rfl
      obtain rfl : c = c'' := by simpa using hc
      obtain ⟨hr, ht⟩ := ih ⟨h0, not_finished_of_append hf, pre, c', post', rfl, htk,
        fun now hm => hrej now (by simp [hm])⟩
      rw [run_snoc] at hf
      obtain ⟨hr', ht'⟩ := effect_holds (step_effect _ c) hr
        (fun now hc => hrej now (by simp [hc, ht])) hf
      exact ⟨hr', ht'.trans ht⟩

/-- At most one reservation is outstanding. -/
theorem outstanding_unique {tk tk' : Nat} (h : Outstanding cutoff calls tk)
    (h' : Outstanding cutoff calls tk') : tk = tk' :=
  (outstanding_held h).2.symm.trans (outstanding_held h').2

theorem outstanding_of_reserved (h : (run cutoff calls).reserved = true) :
    Outstanding cutoff calls (run cutoff calls).ticket := by
  have hi := inv_run cutoff calls
  obtain ⟨pre, c, mid, hcalls, _, htk, h0, _, _, _, hrej⟩ := hi.holder h
  refine ⟨h0, ?_, pre, c, mid, hcalls, htk, hrej⟩
  by_contra hf
  simp [hi.released (by simpa using hf)] at h

/-! ## Where a published response comes from -/

/-- The response `r` is published by an `accept` of a reservation made at
`r.receivedAt`, which was held until then; it carries the id of the first
`start`. -/
def FromReservation (cutoff : Time) (calls : List Call) (res : ExchangeResult) : Prop :=
  ∃ pre tk response post id,
    calls = pre ++ .accept tk response :: post ∧ (run cutoff pre).finished = false ∧
    ReservedAt cutoff pre tk res.receivedAt ∧ firstStart calls = some id ∧
    res.response = some { response with id := id } ∧ res.err = none

theorem StartsFirst.of_append {post : List Call} (h : StartsFirst (pre ++ post)) :
    StartsFirst pre := by
  rintro a c b rfl hc
  exact h a c (b ++ post) (by simp) hc

theorem FromReservation.snoc {res : ExchangeResult} (h : FromReservation cutoff calls res)
    (c : Call) : FromReservation cutoff (calls ++ [c]) res := by
  obtain ⟨pre, tk, response, post, id, rfl, hf, hres, hid, hr⟩ := h
  refine ⟨pre, tk, response, post ++ [c], id, by simp, hf, hres, ?_, hr⟩
  rw [firstStart_append, hid]
  rfl

/-- With a `start` before the first reservation, the id a held reservation
publishes is that of the first `start`. -/
theorem firstStart_of_reserved (h : StartsFirst calls) (hr : (run cutoff calls).reserved = true) :
    firstStart calls = some (run cutoff calls).original := by
  have hi := inv_run cutoff calls
  obtain ⟨pre, c, mid, rfl, hc, _⟩ := hi.holder hr
  have hpre := h pre c mid rfl (by simp [hc])
  rw [hi.start]
  refine if_pos ?_
  by_contra hs
  have hnone := hi.start
  rw [if_neg hs, firstStart_append] at hnone
  exact hpre (by simpa using (Option.or_eq_none_iff.mp hnone).1)

theorem run_response (h : StartsFirst calls) (hr : (run cutoff calls).result.response ≠ none) :
    FromReservation cutoff calls (run cutoff calls).result := by
  induction calls using List.reverseRecOn with
  | nil => exact absurd rfl hr
  | append_singleton calls c ih =>
    have hpre := StartsFirst.of_append h
    rw [run_snoc] at hr ⊢
    have he := step_effect (run cutoff calls) c
    generalize step (run cutoff calls) c = s' at he hr ⊢
    cases he with
    | keep => exact (ih hpre hr).snoc c
    | started => exact (ih hpre hr).snoc c
    | issued => exact (ih hpre hr).snoc c
    | released => exact (ih hpre hr).snoc c
    | sealed => exact (ih hpre hr).snoc c
    | failed _ _ hn => exact absurd hn hr
    | @accepted response hf hheld hc =>
      subst hc
      refine ⟨calls, _, response, [], _, rfl, hf, (inv_run cutoff calls).holder hheld, ?_, rfl, rfl⟩
      rw [firstStart_snoc_of_ne (by simp)]
      exact firstStart_of_reserved hpre hheld

/-! ## Expiry -/

theorem reject_after_expire (hf : s.finished = false) (hs : s.sealed = true)
    (hr : s.reserved = true) (h0 : s.ticket ≠ 0) (now : Time) :
    (s.reject s.ticket now).finished = true ∧
      (s.reject s.ticket now).result = { err := some .deadlineExceeded } := by
  simp [ExchangeState.reject, ExchangeState.completeLocked, hf, hs, hr, h0]

theorem expire_unfinished (hf : s.expire.finished = false) :
    s.reserved = true ∧ s.expire = { s with sealed := true } := by
  unfold ExchangeState.expire at hf ⊢
  by_cases hr : s.reserved
  · simp [hr]
  · cases hs : s.finished <;> simp [hr, hs, ExchangeState.completeLocked] at hf

/-- Once sealed, a state that does not publish keeps its reservation: even a
reject of it would publish. -/
theorem effect_sealed (he : Effect s c s') (hs : s.sealed = true) (hr : s.reserved = true)
    (hf : s'.finished = false) : s'.sealed = true ∧ s'.reserved = true ∧ s'.ticket = s.ticket := by
  cases he with
  | keep => exact ⟨hs, hr, rfl⟩
  | started => exact ⟨hs, hr, rfl⟩
  | sealed => exact ⟨rfl, hr, rfl⟩
  | issued _ _ _ h => simp [hs] at h
  | released _ _ h => simp [hs] at h
  | failed => cases hf
  | accepted => cases hf

theorem run_after_expire_held {post : List Call}
    (hf : (run cutoff (pre ++ .expire :: post)).finished = false) :
    (run cutoff pre).reserved = true ∧ (run cutoff (pre ++ .expire :: post)).sealed = true ∧
      (run cutoff (pre ++ .expire :: post)).reserved = true ∧
      (run cutoff (pre ++ .expire :: post)).ticket = (run cutoff pre).ticket := by
  induction post using List.reverseRecOn with
  | nil =>
    rw [run_snoc] at hf ⊢
    obtain ⟨hr, he⟩ := expire_unfinished hf
    rw [step, he]
    exact ⟨hr, rfl, hr, rfl⟩
  | append_singleton post c ih =>
    rw [← List.cons_append, ← List.append_assoc] at hf ⊢
    obtain ⟨hpre, hs, hr, ht⟩ := ih (not_finished_of_append hf)
    rw [run_snoc] at hf ⊢
    obtain ⟨hs', hr', ht'⟩ := effect_sealed (step_effect _ c) hs hr hf
    exact ⟨hpre, hs', hr', ht'.trans ht⟩

/-- After an expiry the state is finished, or it still holds the reservation that
was outstanding at the expiry, and a reject of it publishes the timeout. -/
theorem run_after_expire (cutoff : Time) (pre post : List Call) :
    (run cutoff (pre ++ .expire :: post)).finished = true ∨
    ∃ tk, Outstanding cutoff pre tk ∧ Outstanding cutoff (pre ++ .expire :: post) tk ∧
      ∀ now, (run cutoff (pre ++ .expire :: post ++ [.reject tk now])).finished = true ∧
        (run cutoff (pre ++ .expire :: post ++ [.reject tk now])).result =
          { err := some .deadlineExceeded } := by
  rcases Bool.eq_false_or_eq_true (run cutoff (pre ++ .expire :: post)).finished with hf | hf
  · exact .inl hf
  · obtain ⟨hpre, hs, hr, ht⟩ := run_after_expire_held hf
    have hout := outstanding_of_reserved hr
    refine .inr ⟨_, outstanding_of_reserved hpre, ht ▸ hout, fun now => ?_⟩
    rw [← ht, run_snoc]
    exact reject_after_expire hf hs hr hout.1 now

/-! ## The contract of the state machine -/

/-- `ExchangeState` makes a single decision, in every order of the calls and with
any clock readings:

* a published result never changes, and `done` is closed exactly once;
* at most one reservation is outstanding;
* a published response comes from a reservation as in `FromReservation`;
* after an expiry the state is finished or holds the reservation that was
  outstanding then, whose reject publishes the timeout. -/
theorem exchangeState_single_decision (cutoff : Time) (calls : List Call)
    (hstart : StartsFirst calls) :
    ((∀ pre post, calls = pre ++ post → (run cutoff pre).finished = true →
        (run cutoff calls).finished = true ∧
          (run cutoff calls).result = (run cutoff pre).result) ∧
      (run cutoff calls).closes = if (run cutoff calls).finished then 1 else 0) ∧
    (∀ tk tk', Outstanding cutoff calls tk → Outstanding cutoff calls tk' → tk = tk') ∧
    ((run cutoff calls).result.response ≠ none →
      FromReservation cutoff calls (run cutoff calls).result) ∧
    (∀ pre post, calls = pre ++ .expire :: post →
      (run cutoff calls).finished = true ∨
      ∃ tk, Outstanding cutoff pre tk ∧ Outstanding cutoff calls tk ∧
        ∀ now, (run cutoff (calls ++ [.reject tk now])).finished = true ∧
          (run cutoff (calls ++ [.reject tk now])).result =
            { err := some .deadlineExceeded }) := by
  refine ⟨⟨?_, run_closes cutoff calls⟩, fun _ _ => outstanding_unique, run_response hstart, ?_⟩
  · rintro pre post rfl hf
    exact run_result_stable hf post
  · rintro pre post rfl
    exact run_after_expire cutoff pre post

theorem startsFirst_start (id : UInt16) (calls : List Call) : StartsFirst (.start id :: calls) := by
  intro pre c post h hc
  cases pre with
  | nil =>
    obtain ⟨rfl, _⟩ := List.cons.inj h
    exact absurd rfl hc
  | cons c' pre =>
    obtain ⟨rfl, _⟩ := List.cons.inj h
    simp [firstStart]

/-- A candidate observed at 50, within the cutoff 100, is accepted after the
expiry: the response is published with the id of the `start`. -/
theorem exchangeState_accept_after_expire :
    FromReservation 100 [.start 7, .reserveCandidate 50, .expire, .accept 1 { id := 9 }]
      { response := some { id := 7 }, receivedAt := 50 } :=
  (exchangeState_single_decision 100
    [.start 7, .reserveCandidate 50, .expire, .accept 1 { id := 9 }]
    (startsFirst_start 7 _)).2.2.1 (by decide)

end DnsProxy.Receipt
