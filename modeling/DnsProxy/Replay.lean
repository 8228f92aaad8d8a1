import DnsProxy.Delivery

/-!
# How often a query is sent

The exchanges over TLS, QUIC and HTTPS repeat a query that failed on a connection from an
earlier exchange. Each exchange is run here with a record of its attempts.

* `dotRun_fst`, `doqRun_fst`, `dohRun_fst`: the recorded exchange is the exchange.
* `Conn.replied`, `QUICStream.replied`, `httpReplied`: a complete reply came in, by what the
  network did.
* `dotExchangeWithConn_rejects` and its like: an attempt to which a complete reply came in and
  that failed has the error of an invalid response.
* `no_hidden_replay`: when a further attempt is made, and how many there are.
-/

namespace DnsProxy.Transport

/-! ## Complete replies -/

/-- A whole frame, which may be too short for a message. -/
def Read.complete : Read → Bool
  | .frame _ => true
  | .shortRead => true
  | .failed _ => false

/-- The first frame of a stream is the reply. -/
def Conn.replied (conn : Conn) : Bool := conn.send.isNone && conn.reads.head?.any Read.complete

/-- The peer has ended the stream, or has sent all that it announced and more. -/
def QUICStream.replied (stream : QUICStream) : Bool :=
  stream.send.isNone && (stream.broken.isNone ||
    match stream.data with
    | b0 :: b1 :: data =>
      let msgLen := (b0.toUInt16 <<< 8 ||| b1.toUInt16).toNat
      msgLen = 0 || msgLen < data.length
    | _ => false)

/-- There is a response, and its body could be read to the end. -/
def httpReplied : HTTPAttempt → Bool
  | .error _ => false
  | .ok httpResp => httpResp.body.isOk

/-! ## Attempts -/

/-- An attempt: whether a complete reply came in, and what came of it. -/
structure Try where
  replied : Bool
  result : Attempt
deriving DecidableEq, Repr

/-- A complete reply came in, and the attempt failed all the same. -/
def Try.Rejected (t : Try) : Prop := t.replied = true ∧ t.result.err ≠ none

/-- The attempt failed with a timeout. -/
def Try.timedOut (t : Try) : Bool := t.result.err.any ExchErr.isExchangeTimeout

/-- The attempts of an exchange, and whether the first one was over a connection that was
there before. -/
structure Trace where
  established : Bool := false
  tries : List Try := []
deriving DecidableEq, Repr

section

variable (c : Codec)

/-- `dotExchange` with its attempts. -/
def dotRun (env : DoTEnv) (req : Msg) (s : Session) : Attempt × Trace :=
  match env.getDialer, env.conn with
  | some e, _ => (fail (.native e) s, {})
  | none, .error e => (fail (.native e) s, {})
  | none, .ok cached =>
    let a := dotExchangeWithConn c env.first req s
    match a.err with
    | none => (a, ⟨cached, [⟨env.first.replied, a⟩]⟩)
    | some err =>
      if !cached || err.isProtocol || env.expired then
        (fail err a.session, ⟨cached, [⟨env.first.replied, a⟩]⟩)
      else
        match env.second.dial with
        | some e => (fail (.native e) a.session, ⟨cached, [⟨env.first.replied, a⟩]⟩)
        | none =>
          let a' := dotExchangeWithConn c env.second req a.session
          (a', ⟨cached, [⟨env.first.replied, a⟩, ⟨env.second.replied, a'⟩]⟩)

/-- `doqAttempts` with its attempts. -/
def doqAttemptsRun (env : DoQEnv) (req : Msg) (cached : Bool) (s : Session) : Attempt × Trace :=
  let a := exchangeQUIC c req env.first s
  match a.err with
  | none => (a, ⟨cached, [⟨env.first.replied, a⟩]⟩)
  | some err =>
    if cached && !err.isProtocol && !err.isExchangeTimeout then
      match env.reconnect with
      | some e => (fail (.native e) a.session, ⟨cached, [⟨env.first.replied, a⟩]⟩)
      | none =>
        let a' := exchangeQUIC c req env.second a.session
        (a', ⟨cached, [⟨env.first.replied, a⟩, ⟨env.second.replied, a'⟩]⟩)
    else (a, ⟨cached, [⟨env.first.replied, a⟩]⟩)

/-- `doqExchange` with its attempts. -/
def doqRun (env : DoQEnv) (req : Msg) (s : Session) : Attempt × Trace :=
  match env.getConnection with
  | .error e => (fail (.native e) s, {})
  | .ok cached =>
    let (a, trace) := doqAttemptsRun c env { req with id := 0 } cached s
    ({ a with resp := a.resp.map fun resp => { resp with id := req.id } }, trace)

/-- `retryHTTPS` with its attempts. -/
def retryHTTPSRun (env : DoHEnv) (req : Msg) (isCached : Bool) :
    (n i : Nat) → Attempt → Attempt × List Try
  | 0, _, a => (a, [])
  | n + 1, i, a =>
    if isCached && a.err.any ExchErr.shouldRetry then
      match env.resetClient i with
      | some e => (fail (.native e) a.session, [])
      | none =>
        let a' := exchangeHTTPSClient c req a.session (env.attempts (i + 1))
        let (last, tries) := retryHTTPSRun env req isCached n (i + 1) a'
        (last, ⟨httpReplied (env.attempts (i + 1)), a'⟩ :: tries)
    else (a, [])

/-- `dohExchange` with its attempts. -/
def dohRun (env : DoHEnv) (req : Msg) (s : Session) : Attempt × Trace :=
  match env.getClient with
  | .error e => (fail (.native e) s, {})
  | .ok isCached =>
    let a₀ := exchangeHTTPSClient c req s (env.attempts 0)
    let (a, tries) := retryHTTPSRun c env req isCached 2 0 a₀
    let trace : Trace := ⟨isCached, ⟨httpReplied (env.attempts 0), a₀⟩ :: tries⟩
    match a.err with
    | some err => (fail err (a.session.finish (some err)), trace)
    | none => (a, trace)

end

section Recorded

variable {c : Codec} {req : Msg} {s : Session}

theorem dotRun_fst (env : DoTEnv) : (dotRun c env req s).1 = dotExchange c env req s := by
  unfold dotRun dotExchange
  cases env.getDialer with
  | some e => rfl
  | none =>
    cases env.conn with
    | error e => rfl
    | ok cached =>
      dsimp only
      cases (dotExchangeWithConn c env.first req s).err with
      | none => rfl
      | some err =>
        dsimp only
        split
        · rfl
        · cases env.second.dial <;> rfl

theorem doqAttemptsRun_fst (env : DoQEnv) (cached : Bool) :
    (doqAttemptsRun c env req cached s).1 = doqAttempts c env req cached s := by
  unfold doqAttemptsRun doqAttempts
  dsimp only
  cases (exchangeQUIC c req env.first s).err with
  | none => rfl
  | some err =>
    dsimp only
    split
    · cases env.reconnect <;> rfl
    · rfl

theorem doqRun_fst (env : DoQEnv) : (doqRun c env req s).1 = doqExchange c env req s := by
  unfold doqRun doqExchange
  cases env.getConnection with
  | error e => rfl
  | ok cached => simp only [← doqAttemptsRun_fst]

theorem retryHTTPSRun_fst (env : DoHEnv) (isCached : Bool) (n i : Nat) (a : Attempt) :
    (retryHTTPSRun c env req isCached n i a).1 = retryHTTPS c env req isCached n i a := by
  induction n generalizing i a with
  | zero => rfl
  | succ n ih =>
    rw [retryHTTPSRun, retryHTTPS]
    split
    · cases env.resetClient i with
      | some e => rfl
      | none => exact ih _ _
    · rfl

theorem dohRun_fst (env : DoHEnv) : (dohRun c env req s).1 = dohExchange c env req s := by
  unfold dohRun dohExchange
  cases env.getClient with
  | error e => rfl
  | ok isCached =>
    simp only [← retryHTTPSRun_fst]
    cases (retryHTTPSRun c env req isCached 2 0
      (exchangeHTTPSClient c req s (env.attempts 0))).1.err <;> rfl

end Recorded

/-! ## Replies that are rejected -/

/-- If a complete reply came in and the attempt failed, it is because the reply is invalid. -/
def RejectsInvalid (replied : Bool) (a : Attempt) : Prop :=
  replied = true → ∀ err, a.err = some err → err.isProtocol = true

section Rejected

variable {c : Codec} {req : Msg} {s : Session}

theorem RejectsInvalid.fail_invalid {replied : Bool} (f : Fault) (s' : Session) :
    RejectsInvalid replied (fail (.invalid f) s') := by
  intro _ err herr
  cases herr
  rfl

theorem RejectsInvalid.accepted {replied : Bool} (resp : Option Msg) (s' : Session) :
    RejectsInvalid replied ⟨resp, none, s'⟩ := by
  intro _ err herr
  cases herr

theorem readDNSResponse_rejects (checkQuestion : Bool) (reads : List Read) :
    RejectsInvalid (reads.head?.any Read.complete)
      (readDNSResponse c req false checkQuestion reads s) := by
  intro hreplied err herr
  cases reads with
  | nil => cases hreplied
  | cons r reads =>
    cases r with
    | failed e => cases hreplied
    | shortRead =>
      cases herr
      rfl
    | frame f =>
      simp only [readDNSResponse, Bool.false_eq_true, if_false] at herr
      repeat' split at herr
      all_goals
        cases herr
      all_goals rfl

theorem dotExchangeWithConn_rejects (conn : Conn) :
    RejectsInvalid conn.replied (dotExchangeWithConn c conn req s) := by
  intro hreplied err herr
  obtain ⟨hsend, hread⟩ := Bool.and_eq_true_iff.mp hreplied
  refine @readDNSResponse_rejects c req s true conn.reads hread err ?_
  simp only [dotExchangeWithConn, Option.isNone_iff_eq_none.mp hsend] at herr
  split at herr
  · next e he =>
    cases herr
    exact he
  · exact herr

theorem readMsg_rejects (stream : QUICStream) (hsend : stream.send = none) :
    RejectsInvalid stream.replied (readMsg c stream req s) := by
  intro hreplied
  unfold QUICStream.replied at hreplied
  rw [hsend] at hreplied
  have hended : stream.broken = none → ∀ s' : Session, ∀ err,
      (fail stream.cutShort s').err = some err → err.isProtocol = true := by
    intro hbroken s' err herr
    rw [QUICStream.cutShort, hbroken] at herr
    cases herr
    rfl
  unfold readMsg
  split
  · next b0 b1 data hdata =>
    simp only [hdata] at hreplied
    dsimp only
    generalize (b0.toUInt16 <<< 8 ||| b1.toUInt16).toNat = msgLen at hreplied ⊢
    split
    · exact RejectsInvalid.fail_invalid .frame s rfl
    · next hzero =>
      split
      · next hshort =>
        have hbroken : stream.broken = none := by
          simpa [hzero, Nat.not_lt_of_gt hshort] using hreplied
        exact hended hbroken s
      · split
        · exact RejectsInvalid.fail_invalid .frame s rfl
        · next hlong =>
          have hbroken : stream.broken = none := by simpa [hzero, hlong] using hreplied
          rw [hbroken]
          dsimp only
          split
          · exact RejectsInvalid.fail_invalid _ _ rfl
          · split
            · exact RejectsInvalid.fail_invalid _ _ rfl
            · split
              · exact RejectsInvalid.fail_invalid _ _ rfl
              · exact RejectsInvalid.accepted _ _ rfl
  · next hdata =>
    have hbroken : stream.broken = none := by
      cases h : stream.data with
      | nil => simpa [h] using hreplied
      | cons b0 rest =>
        cases rest with
        | nil => simpa [h] using hreplied
        | cons b1 data => exact absurd h (hdata b0 b1 data)
    exact hended hbroken s

theorem exchangeQUIC_rejects (stream : QUICStream) :
    RejectsInvalid stream.replied (exchangeQUIC c req stream s) := by
  unfold exchangeQUIC
  split
  · next e hsend =>
    intro hreplied
    simp [QUICStream.replied, hsend] at hreplied
  · next hsend => exact readMsg_rejects stream hsend

theorem exchangeHTTPSClient_rejects (h : HTTPAttempt) :
    RejectsInvalid (httpReplied h) (exchangeHTTPSClient c req s h) := by
  intro hreplied
  cases h with
  | error e => cases hreplied
  | ok httpResp =>
    unfold exchangeHTTPSClient
    dsimp only
    cases hbody : httpResp.body with
    | error e =>
      rw [httpReplied, hbody] at hreplied
      cases hreplied
    | ok body =>
      dsimp only
      split
      · exact RejectsInvalid.fail_invalid _ _ rfl
      · split
        · exact RejectsInvalid.fail_invalid _ _ rfl
        · split
          · exact RejectsInvalid.fail_invalid _ _ rfl
          · split
            · exact RejectsInvalid.fail_invalid _ _ rfl
            · split
              · exact RejectsInvalid.fail_invalid _ _ rfl
              · split
                · exact RejectsInvalid.fail_invalid _ _ rfl
                · split
                  · exact RejectsInvalid.fail_invalid _ _ rfl
                  · split
                    · exact RejectsInvalid.fail_invalid _ _ rfl
                    · exact RejectsInvalid.accepted _ _ rfl

theorem RejectsInvalid.not_rejected {t : Try} (h : RejectsInvalid t.replied t.result)
    {err : ExchErr} (herr : t.result.err = some err) (hproto : err.isProtocol = false) :
    ¬ t.Rejected := by
  rintro ⟨hreplied, -⟩
  rw [h hreplied err herr] at hproto
  cases hproto

end Rejected

/-! ## When a further attempt is made -/

/-- There are at most `n` attempts, more than one only if the first one was over a connection
that was there before; every attempt but the last one failed, not because the deadline of the
exchange had passed, and not because a complete reply was rejected as invalid: none came in, and
the error is not the one of an invalid reply. -/
structure Disciplined (n : Nat) (expired : Nat → Prop) (trace : Trace) : Prop where
  le : trace.tries.length ≤ n
  established : 1 < trace.tries.length → trace.established = true
  further : ∀ i t, trace.tries[i]? = some t → i + 1 < trace.tries.length →
    t.result.err ≠ none ∧ ¬ expired i ∧ ¬ t.Rejected ∧
      ∀ err, t.result.err = some err → err.isProtocol = false

section Disciplined

variable {c : Codec} {req : Msg} {s : Session} {n : Nat} {expired : Nat → Prop}

theorem Disciplined.of_le_one {trace : Trace} (hn : 1 ≤ n) (h : trace.tries.length ≤ 1) :
    Disciplined n expired trace where
  le := Nat.le_trans h hn
  established hlt := absurd h (Nat.not_le.mpr hlt)
  further i _ _ hlt := absurd h (by omega)

theorem RejectsInvalid.further {t : Try} (h : RejectsInvalid t.replied t.result) {err : ExchErr}
    (herr : t.result.err = some err) (hproto : err.isProtocol = false) {i : Nat}
    (hlive : ¬ expired i) : t.result.err ≠ none ∧ ¬ expired i ∧ ¬ t.Rejected ∧
      ∀ err, t.result.err = some err → err.isProtocol = false := by
  refine ⟨?_, hlive, h.not_rejected herr hproto, fun err' herr' => ?_⟩
  · rw [herr]
    exact Option.some_ne_none err
  · obtain rfl := Option.some.inj (herr.symm.trans herr')
    exact hproto

theorem not_expired_of_err {t : Try} {i : Nat} (hexpired : expired i → t.timedOut = true)
    {err : ExchErr} (herr : t.result.err = some err) (htimeout : err.isExchangeTimeout = false) :
    ¬ expired i := by
  intro h
  have htimedOut := hexpired h
  rw [Try.timedOut, herr, Option.any_some, htimeout] at htimedOut
  cases htimedOut

theorem Disciplined.of_two {cached : Bool} {t t' : Try} (hn : 2 ≤ n) (hcached : cached = true)
    (h : t.result.err ≠ none ∧ ¬ expired 0 ∧ ¬ t.Rejected ∧
      ∀ err, t.result.err = some err → err.isProtocol = false) :
    Disciplined n expired ⟨cached, [t, t']⟩ where
  le := hn
  established _ := hcached
  further i u hu hlt := by
    obtain rfl : i = 0 := by
      simp only [List.length_cons, List.length_nil] at hlt
      omega
    obtain rfl : t = u := Option.some.inj hu
    exact h

theorem dotRun_disciplined (env : DoTEnv) (hexpired : expired 0 → env.expired = true) :
    Disciplined 2 expired (dotRun c env req s).2 := by
  unfold dotRun
  split
  · exact .of_le_one (by decide) (Nat.zero_le _)
  · exact .of_le_one (by decide) (Nat.zero_le _)
  · next cached _ _ =>
    have hreject := @dotExchangeWithConn_rejects c req s env.first
    generalize dotExchangeWithConn c env.first req s = a at hreject
    dsimp only
    split
    · exact .of_le_one (by decide) (Nat.le_refl _)
    · next err herr =>
      split
      · exact .of_le_one (by decide) (Nat.le_refl _)
      · next hretry =>
        simp only [Bool.or_eq_true, Bool.not_eq_true', not_or, Bool.not_eq_false,
          Bool.not_eq_true] at hretry
        obtain ⟨⟨hcached, hproto⟩, hlive⟩ := hretry
        split
        · exact .of_le_one (by decide) (Nat.le_refl _)
        · have hlive : ¬ expired 0 := fun h => Bool.eq_false_iff.mp hlive (hexpired h)
          exact .of_two (Nat.le_refl _) hcached
            (RejectsInvalid.further hreject herr hproto hlive)

theorem doqAttemptsRun_first (env : DoQEnv) (cached : Bool) :
    (doqAttemptsRun c env req cached s).2.tries[0]? =
      some ⟨env.first.replied, exchangeQUIC c req env.first s⟩ := by
  unfold doqAttemptsRun
  dsimp only
  cases (exchangeQUIC c req env.first s).err with
  | none => rfl
  | some err =>
    dsimp only
    split
    · cases env.reconnect <;> rfl
    · rfl

theorem doqAttemptsRun_disciplined (env : DoQEnv) (cached : Bool)
    (hexpired : expired 0 →
      (Try.mk env.first.replied (exchangeQUIC c req env.first s)).timedOut = true) :
    Disciplined 2 expired (doqAttemptsRun c env req cached s).2 := by
  unfold doqAttemptsRun
  have hreject := @exchangeQUIC_rejects c req s env.first
  generalize exchangeQUIC c req env.first s = a at hreject hexpired
  dsimp only
  split
  · exact .of_le_one (by decide) (Nat.le_refl _)
  · next err herr =>
    split
    · next hretry =>
      simp only [Bool.and_eq_true, Bool.not_eq_true'] at hretry
      obtain ⟨⟨hcached, hproto⟩, htimeout⟩ := hretry
      split
      · exact .of_le_one (by decide) (Nat.le_refl _)
      · have hlive : ¬ expired 0 := not_expired_of_err hexpired herr htimeout
        exact .of_two (Nat.le_refl _) hcached (RejectsInvalid.further hreject herr hproto hlive)
    · exact .of_le_one (by decide) (Nat.le_refl _)

theorem doqRun_disciplined (env : DoQEnv)
    (hexpired : ∀ i t, (doqRun c env req s).2.tries[i]? = some t → expired i →
      t.timedOut = true) : Disciplined 2 expired (doqRun c env req s).2 := by
  unfold doqRun at hexpired ⊢
  cases hconn : env.getConnection with
  | error e => exact .of_le_one (by decide) (Nat.zero_le _)
  | ok cached =>
    simp only [hconn] at hexpired
    exact doqAttemptsRun_disciplined env cached
      (hexpired 0 _ (doqAttemptsRun_first env cached))

theorem shouldRetry_native {err : ExchErr} (h : err.shouldRetry = true) :
    err.isProtocol = false ∧ err.isExchangeTimeout = false := by
  cases err with
  | stateReused => cases h
  | invalid f => cases h
  | native e =>
    simp only [ExchErr.shouldRetry, Bool.and_eq_true, Bool.not_eq_true'] at h
    exact ⟨rfl, h.1⟩

/-- Attempts of which every one but the last is one to be repeated. -/
structure Repeated (isCached : Bool) (n : Nat) (tries : List Try) : Prop where
  le : tries.length ≤ n
  cached : 1 < tries.length → isCached = true
  rejects : ∀ t ∈ tries, RejectsInvalid t.replied t.result
  retry : ∀ i t, tries[i]? = some t → i + 1 < tries.length →
    t.result.err.any ExchErr.shouldRetry = true

theorem Repeated.single {isCached : Bool} {t : Try} (h : RejectsInvalid t.replied t.result)
    (n : Nat) : Repeated isCached (n + 1) [t] where
  le := Nat.le_add_left 1 n
  cached hlt := absurd hlt (Nat.lt_irrefl 1)
  rejects u hu := by
    rw [List.mem_singleton.mp hu]
    exact h
  retry i u _ hlt := absurd hlt (by simp)

theorem Repeated.cons {isCached : Bool} {t : Try} {tries : List Try}
    (h : Repeated isCached n tries) (hcached : isCached = true)
    (ht : RejectsInvalid t.replied t.result)
    (hretry : t.result.err.any ExchErr.shouldRetry = true) :
    Repeated isCached (n + 1) (t :: tries) where
  le := Nat.succ_le_succ h.le
  cached _ := hcached
  rejects u hu := by
    rcases List.mem_cons.mp hu with rfl | hu
    · exact ht
    · exact h.rejects u hu
  retry i u hu hlt := by
    cases i with
    | zero =>
      obtain rfl : t = u := Option.some.inj hu
      exact hretry
    | succ i => exact h.retry i u hu (Nat.lt_of_succ_lt_succ hlt)

theorem retryHTTPSRun_repeated (env : DoHEnv) (isCached : Bool) (n i : Nat) (t : Try)
    (ht : RejectsInvalid t.replied t.result) :
    Repeated isCached (n + 1) (t :: (retryHTTPSRun c env req isCached n i t.result).2) := by
  induction n generalizing i t with
  | zero => exact .single ht 0
  | succ n ih =>
    rw [retryHTTPSRun]
    split
    · next hretry =>
      obtain ⟨hcached, hshould⟩ := Bool.and_eq_true_iff.mp hretry
      cases env.resetClient i with
      | some e => exact .single ht (n + 1)
      | none => exact (ih (i + 1) ⟨_, _⟩ (exchangeHTTPSClient_rejects _)).cons hcached ht hshould
    · exact .single ht (n + 1)

theorem Repeated.disciplined {isCached : Bool} {tries : List Try} (h : Repeated isCached n tries)
    (hexpired : ∀ i t, tries[i]? = some t → expired i → t.timedOut = true) :
    Disciplined n expired ⟨isCached, tries⟩ where
  le := h.le
  established := h.cached
  further i t ht hlt := by
    have hretry := h.retry i t ht hlt
    cases herr : t.result.err with
    | none =>
      rw [herr] at hretry
      cases hretry
    | some err =>
      rw [herr, Option.any_some] at hretry
      obtain ⟨hproto, htimeout⟩ := shouldRetry_native hretry
      have hlive : ¬ expired i := not_expired_of_err (hexpired i t ht) herr htimeout
      rw [← herr]
      exact (h.rejects t (List.mem_of_getElem? ht)).further herr hproto hlive

theorem dohRun_disciplined (env : DoHEnv)
    (hexpired : ∀ i t, (dohRun c env req s).2.tries[i]? = some t → expired i →
      t.timedOut = true) : Disciplined 3 expired (dohRun c env req s).2 := by
  unfold dohRun at hexpired ⊢
  cases hclient : env.getClient with
  | error e => exact .of_le_one (by decide) (Nat.zero_le _)
  | ok isCached =>
    have hrepeated := @retryHTTPSRun_repeated c req env isCached 2 0
      ⟨httpReplied (env.attempts 0), exchangeHTTPSClient c req s (env.attempts 0)⟩
      (exchangeHTTPSClient_rejects _)
    simp only [hclient] at hexpired ⊢
    split at hexpired <;> exact hrepeated.disciplined hexpired

end Disciplined

/-- Exchanges over TLS and QUIC make at most two attempts, and those over HTTPS at most three.
A deadline of the exchange that passes during an attempt is seen by the clock over TLS, and is
a timeout of the attempt over QUIC and HTTPS. -/
theorem no_hidden_replay (c : Codec) (req : Msg) (s : Session) (expired : Nat → Prop) :
    (∀ env : DoTEnv, (dotRun c env req s).1 = dotExchange c env req s ∧
      ((expired 0 → env.expired = true) → Disciplined 2 expired (dotRun c env req s).2)) ∧
    (∀ env : DoQEnv, (doqRun c env req s).1 = doqExchange c env req s ∧
      ((∀ i t, (doqRun c env req s).2.tries[i]? = some t → expired i → t.timedOut = true) →
        Disciplined 2 expired (doqRun c env req s).2)) ∧
    (∀ env : DoHEnv, (dohRun c env req s).1 = dohExchange c env req s ∧
      ((∀ i t, (dohRun c env req s).2.tries[i]? = some t → expired i → t.timedOut = true) →
        Disciplined 3 expired (dohRun c env req s).2)) :=
  ⟨fun env => ⟨dotRun_fst env, dotRun_disciplined env⟩,
    fun env => ⟨doqRun_fst env, doqRun_disciplined env⟩,
    fun env => ⟨dohRun_fst env, dohRun_disciplined env⟩⟩

/-- A cached client whose connection is closed at every attempt. -/
def closingEnv : DoHEnv where
  getClient := .ok true
  attempts _ := .error { code := 1, connClosed := true }

/-- A connection from the pool on which a frame comes in that is too short for a message. -/
def shortFrameEnv : DoTEnv where
  conn := .ok true
  first := { reads := [.shortRead] }
  second := {}

/-- The client makes three attempts; after the short frame there is no second one. -/
theorem no_hidden_replay_three :
    (dohRun answerCodec closingEnv exampleQuery fresh).2.tries.length = 3 ∧
    Disciplined 3 (fun _ => False) (dohRun answerCodec closingEnv exampleQuery fresh).2 ∧
    (dotRun answerCodec shortFrameEnv exampleQuery fresh).2.tries.length = 1 ∧
    Disciplined 2 (fun _ => False) (dotRun answerCodec shortFrameEnv exampleQuery fresh).2 :=
  ⟨by decide +kernel,
    ((no_hidden_replay answerCodec exampleQuery fresh fun _ => False).2.2 closingEnv).2
      fun _ _ _ h => h.elim,
    by decide +kernel,
    ((no_hidden_replay answerCodec exampleQuery fresh fun _ => False).1 shortFrameEnv).2
      fun h => h.elim⟩

end DnsProxy.Transport
