import DnsProxy.Lib.WaitGroup

/-!
# The work of an HTTP exchange

An exchange with a DoH upstream has an `httpWork`: a wait group that the dials of its request and
the probes of its transport belong to. The transport may start a dial at any time, also when the
exchange is over. `join` refuses further dials and waits for those that were admitted.

The exchange, the two functions that dial and the goroutines that they start are programs over the
wait group. What else they do is a call, which may return an error, or a test; either may have any
outcome.

* `dialTLSContext_balanced`, `dial_balanced`: on every path of a dial, one `Done` belongs to each
  `begin` that has succeeded.
* `exchange_balanced`: `Add` is called before `join`.
* `httpWork_joined`: every interleaving.
-/

namespace DnsProxy.HTTPWork

open WaitGroup Custody

inductive HTTPVersion
  | http11
  | http2
  | http3
deriving DecidableEq, Repr

/-- What the code reads of the upstream that does not change. -/
structure Settings where
  nextProtos : List HTTPVersion
  /-- `networkDialer` is set. -/
  networkDialer : Bool
  addrRedacted : String

namespace Settings

def supportsH3 (p : Settings) : Bool := p.nextProtos.contains .http3

def supportsHTTP (p : Settings) : Bool := p.nextProtos.any fun v => v == .http11 || v == .http2

end Settings

inductive WorkError (ε : Type)
  /-- `net.ErrClosed`. -/
  | errClosed
  | text (msg : String)
  /-- `fmt.Errorf` with `%w`. -/
  | wrapped (msg : String) (err : WorkError ε)
  /-- `errors.WithDeferred`. -/
  | withDeferred (returned : WorkError ε) (deferred : Option (WorkError ε))
  /-- Any error of a function that is called. -/
  | other (err : ε)

/-- The calls and the tests. -/
inductive Op
  /-- The context has an `httpRequestScope`. -/
  | scope
  /-- `stop()` and `cancel()`. -/
  | cancel
  | ctxErr
  | tlsDial
  /-- The negotiated protocol is HTTP/2. -/
  | negotiatedHTTP2
  | connClose
  | setDeadline
  | dialQUIC
  | handshakeComplete
  /-- The context of the connection is done. -/
  | connectionDone
  /-- One of the two. -/
  | completion
  | dialUDP
  /-- The connection is a `*net.UDPConn`. -/
  | isUDPConn
  | probeQUIC
  | probeTLS
  /-- The `select` receives from `chQUIC`. -/
  | quicFirst
  /-- What is received from a channel. -/
  | receive
  | getDialer
  | configureTransports
  | closed
  /-- There is a client. -/
  | client
  /-- There is a client, and it is not the one that has failed. -/
  | replaced
  | timeoutExceeded
  | closeClient
  | stateFinish
  | exchangeHTTPS
  | shouldRetry
deriving DecidableEq, Repr

variable {ε : Type}

abbrev Work (ε : Type) := Prog Op (WorkError ε)

/-! ## `httpWork` -/

/-- The closure that `beginHTTPDial` returns. -/
def finish (k : Work ε) : Work ε := .call .cancel fun _ => .done k

def join (k : Work ε) : Work ε := .close (.wait k)

/-- It goes on with the error. If there is none, `finish` is to be called. -/
def beginHTTPDial (k : Option (WorkError ε) → Work ε) : Work ε :=
  .test .scope fun ok =>
    if ok then
      .begin fun admitted =>
        if admitted then
          .call .ctxErr fun
            | some err => finish (k (some err))
            | none => k none
        else k (some .errClosed)
    else k (some .errClosed)

/-! ## The dials -/

/-- The body of `DialTLSContext` after the deferred `finish`. -/
def dialTLS (p : Settings) (k : Option (WorkError ε) → Work ε) : Work ε :=
  let setDeadline : Work ε := .call .setDeadline fun
    | some err => .call .connClose fun closeErr => k (some (.withDeferred err closeErr))
    | none => k none
  .call .tlsDial fun
    | some err => k (some err)
    | none =>
      if p.nextProtos.contains .http11 then setDeadline
      else
        .test .negotiatedHTTP2 fun ok =>
          if ok then setDeadline
          else
            .call .connClose fun closeErr =>
              k (some (.withDeferred (.text "upstream did not negotiate required HTTP/2") closeErr))

/-- `DialTLSContext` of the HTTP/1.1 and HTTP/2 transport. -/
def dialTLSContext (p : Settings) : Work ε :=
  beginHTTPDial fun
    | some err => .ret (some err)
    | none => dialTLS p fun err => finish (.ret err)

/-- `Dial` of the HTTP/3 transport. Where the handshake is not complete, a goroutine takes over
the reference. -/
def dial : Work ε :=
  beginHTTPDial fun
    | some err => .ret (some err)
    | none =>
      .call .dialQUIC fun
        | some err => finish (.ret (some err))
        | none =>
          .test .handshakeComplete fun complete =>
            if complete then finish (.ret none)
            else
              .test .connectionDone fun done =>
                if done then finish (.ret none)
                else .go 1 (.call .completion fun _ => finish (.ret none)) (.ret none)

/-! ## The exchange -/

/-- The goroutine of a probe, whose `Done` is deferred. -/
def probe (op : Op) : Work ε := .call op fun _ => .done (.ret none)

def probeH3 (p : Settings) (k : Option (WorkError ε) → Work ε) : Work ε :=
  let run : Work ε :=
    if p.supportsH3 && !p.supportsHTTP then k none
    else
      .add 2 <| .go 1 (probe .probeQUIC) <| .go 1 (probe .probeTLS) <|
        .test .quicFirst fun quicFirst =>
          if quicFirst then .call .receive k
          else
            .call .receive fun
              | some _ => k none
              | none => k (some (.text "TLS was faster than QUIC, prefer it"))
  if p.networkDialer then run
  else
    .call .dialUDP fun
      | some err => k (some (.wrapped "failed to dial" err))
      | none =>
        .test .isUDPConn fun ok =>
          if ok then run else k (some (.text s!"not a UDP connection to {p.addrRedacted}"))

def createTransportH3 (p : Settings) (k : Option (WorkError ε) → Work ε) : Work ε :=
  if p.supportsH3 then probeH3 p k else k (some (.text "HTTP3 support is not enabled"))

def createTransport (p : Settings) (k : Option (WorkError ε) → Work ε) : Work ε :=
  .call .getDialer fun
    | some err => k (some (.wrapped s!"bootstrapping {p.addrRedacted}" err))
    | none =>
      createTransportH3 p fun
        | none => k none
        | some _ =>
          if p.supportsHTTP then
            if p.nextProtos.contains .http2 then .call .configureTransports k else k none
          else k (some (.text "HTTP1/1 and HTTP2 are not supported by this upstream"))

def createClient (p : Settings) (k : Option (WorkError ε) → Work ε) : Work ε :=
  createTransport p fun
    | some err => k (some (.wrapped "initializing http transport" err))
    | none => k none

/-- It goes on with whether there was a client already, and the error. -/
def getClient (p : Settings) (k : Bool → Option (WorkError ε) → Work ε) : Work ε :=
  .test .closed fun closed =>
    if closed then k false (some .errClosed)
    else
      .test .client fun cached =>
        if cached then k true none
        else
          .test .timeoutExceeded fun late =>
            if late then k false (some (.text "timeout exceeded"))
            else createClient p (k false)

def resetClient (p : Settings) (k : Option (WorkError ε) → Work ε) : Work ε :=
  .test .closed fun closed =>
    if closed then k (some .errClosed)
    else
      .test .replaced fun replaced =>
        if replaced then k none
        else
          createClient p fun err =>
            .test .client fun old => if old then .call .closeClient fun _ => k err else k err

/-- The deferred function, and the return. -/
def leave (err : Option (WorkError ε)) : Work ε := .call .stateFinish fun _ => join (.ret err)

/-- What follows the attempts to send the query. -/
def conclude (p : Settings) : Option (WorkError ε) → Work ε
  | none => leave none
  | some err =>
    .call .stateFinish fun _ =>
      resetClient p fun resErr => leave (some (.withDeferred err resErr))

/-- The loop, with the number of attempts that are left. -/
def retry (p : Settings) (isCached : Bool) : Nat → Option (WorkError ε) → Work ε
  | 0, err => conclude p err
  | n + 1, err =>
    if isCached then
      .test .shouldRetry fun again =>
        if again then
          resetClient p fun
            | some err => leave (some (.wrapped "failed to reset http client" err))
            | none => .call .exchangeHTTPS fun err => retry p isCached n err
        else conclude p err
    else conclude p err

/-- `Exchange`, from where it has its `httpWork`. -/
def exchange (p : Settings) : Work ε :=
  getClient p fun isCached err =>
    match err with
    | some err => leave (some (.wrapped "failed to init http client" err))
    | none => .call .exchangeHTTPS fun err => retry p isCached 2 err

/-! ## Every path -/

section Balanced

variable {p : Settings} {role : Role} {n : Nat}

theorem finish_balanced {k : Work ε} (hk : k.Balanced role n) :
    (finish k).Balanced role (n + 1) :=
  fun _ => ⟨Nat.succ_pos n, hk⟩

theorem join_balanced {err : Option (WorkError ε)} : (join (.ret err) : Work ε).Balanced .owner 0 :=
  ⟨rfl, rfl, rfl, Or.inr rfl, rfl⟩

section Continuation

variable {k : Option (WorkError ε) → Work ε}

theorem beginHTTPDial_balanced (hok : (k none).Balanced role (n + 1))
    (herr : ∀ err, (k (some err)).Balanced role n) : (beginHTTPDial k).Balanced role n := by
  refine balanced_test ⟨?_, herr _⟩ (herr _)
  exact balanced_call hok fun err => finish_balanced (herr err)

theorem dialTLS_balanced (hk : ∀ err, (k err).Balanced role n) :
    (dialTLS p k).Balanced role n := by
  have hdeadline : (Prog.call .setDeadline fun
      | some err => .call .connClose fun closeErr => k (some (.withDeferred err closeErr))
      | none => k none : Work ε).Balanced role n :=
    balanced_call (hk none) fun _ _ => hk _
  refine balanced_call (balanced_ite hdeadline ?_) fun _ => hk _
  exact balanced_test hdeadline fun _ => hk _

theorem probe_balanced (op : Op) : (probe op : Work ε).Balanced .worker 1 :=
  fun _ => ⟨Nat.one_pos, Or.inl rfl, rfl⟩

theorem probeH3_balanced (hk : ∀ err, (k err).Balanced .owner n) :
    (probeH3 p k).Balanced .owner n := by
  have hselect : (Prog.test .quicFirst fun quicFirst =>
      if quicFirst then .call .receive k
      else
        .call .receive fun
          | some _ => k none
          | none => k (some (.text "TLS was faster than QUIC, prefer it")) : Work ε).Balanced
      .owner n :=
    balanced_test hk (balanced_call (hk _) fun _ => hk _)
  have hrun := balanced_ite (c := (p.supportsH3 && !p.supportsHTTP) = true) (hk none)
    (q := .add 2 (.go 1 (probe .probeQUIC) (.go 1 (probe .probeTLS) _)))
    ⟨rfl, Nat.le_add_left 1 (n + 1), probe_balanced _, Nat.le_add_left 1 n, probe_balanced _,
      hselect⟩
  refine balanced_ite hrun (balanced_call ?_ fun _ => hk _)
  exact balanced_test hrun (hk _)

theorem createTransportH3_balanced (hk : ∀ err, (k err).Balanced .owner n) :
    (createTransportH3 p k).Balanced .owner n :=
  balanced_ite (probeH3_balanced hk) (hk _)

theorem createTransport_balanced (hk : ∀ err, (k err).Balanced .owner n) :
    (createTransport p k).Balanced .owner n := by
  refine balanced_call (createTransportH3_balanced fun err => ?_) fun _ => hk _
  cases err with
  | none => exact hk none
  | some err => exact balanced_ite (balanced_ite hk (hk none)) (hk _)

theorem createClient_balanced (hk : ∀ err, (k err).Balanced .owner n) :
    (createClient p k).Balanced .owner n := by
  refine createTransport_balanced fun err => ?_
  cases err with
  | none => exact hk none
  | some err => exact hk _

theorem resetClient_balanced (hk : ∀ err, (k err).Balanced .owner n) :
    (resetClient p k).Balanced .owner n := by
  refine balanced_test (hk _) (balanced_test (hk none) ?_)
  rw [if_neg Bool.false_ne_true]
  exact createClient_balanced fun err => balanced_test (fun _ => hk err) (hk err)

end Continuation

theorem getClient_balanced {k : Bool → Option (WorkError ε) → Work ε}
    (hk : ∀ cached err, (k cached err).Balanced .owner n) : (getClient p k).Balanced .owner n := by
  refine balanced_test (hk _ _) (balanced_test (hk _ _) (balanced_test (hk _ _) ?_))
  exact createClient_balanced (hk false)

theorem dialTLSContext_balanced : (dialTLSContext p : Work ε).Balanced .worker 0 :=
  beginHTTPDial_balanced
    (dialTLS_balanced fun _ => finish_balanced ⟨Or.inl rfl, rfl⟩)
    (fun _ => ⟨Or.inl rfl, rfl⟩)

theorem dial_balanced : (dial : Work ε).Balanced .worker 0 := by
  have hret (err : Option (WorkError ε)) : (Prog.ret err : Work ε).Balanced .worker 0 :=
    ⟨Or.inl rfl, rfl⟩
  have hfinish (err : Option (WorkError ε)) : (finish (.ret err) : Work ε).Balanced .worker 1 :=
    finish_balanced (hret err)
  refine beginHTTPDial_balanced (balanced_call ?_ fun _ => hfinish _) fun _ => hret _
  refine balanced_test (hfinish _) (balanced_test (hfinish _) ?_)
  exact ⟨le_rfl, fun _ => hfinish _, hret _⟩

theorem leave_balanced (err : Option (WorkError ε)) : (leave err).Balanced .owner 0 :=
  fun _ => join_balanced

theorem conclude_balanced (err : Option (WorkError ε)) : (conclude p err).Balanced .owner 0 := by
  cases err with
  | none => exact leave_balanced none
  | some err => exact fun _ => resetClient_balanced fun _ => leave_balanced _

theorem retry_balanced (isCached : Bool) (attempts : Nat) (err : Option (WorkError ε)) :
    (retry p isCached attempts err).Balanced .owner 0 := by
  induction attempts generalizing err with
  | zero => exact conclude_balanced err
  | succ attempts ih =>
    refine balanced_ite (balanced_test ?_ (conclude_balanced err)) (conclude_balanced err)
    refine resetClient_balanced fun err => ?_
    cases err with
    | none => exact ih
    | some err => exact leave_balanced _

theorem exchange_balanced : (exchange p : Work ε).Balanced .owner 0 := by
  refine getClient_balanced fun cached err => ?_
  cases err with
  | none => exact retry_balanced cached 2
  | some err => exact leave_balanced _

end Balanced

/-! ## Every interleaving -/

/-- Where a transport starts to dial. -/
inductive Dial
  | tls
  | quic
deriving DecidableEq, Repr

def dialOf (p : Settings) : Dial → Work ε
  | .tls => dialTLSContext p
  | .quic => dial

theorem dialOf_balanced (p : Settings) (d : Dial) : (dialOf p d : Work ε).Balanced .worker 0 := by
  cases d with
  | tls => exact dialTLSContext_balanced
  | quic => exact dial_balanced

/-- Whenever the transports start to dial, and whatever the calls return:

1. on every path of the two dials and of the exchange, one `Done` belongs to each `begin` that
   has succeeded and to each `Add`;
2. once `join` has sealed the admission, a `begin` is refused, and nothing is added;
3. each admission belongs to one goroutine, which has not returned, or has had its `Done`;
4. the counter is the number of those that have not, and so is never negative;
5. when `join` has returned, as it has when the exchange returns, all have had their `Done`. -/
theorem httpWork_joined (p : Settings) (s : State Op (WorkError ε))
    (h : Reached (dialOf p) (exchange p) s) :
    ((∀ d, (dialOf p d : Work ε).Balanced .worker 0) ∧
      (exchange p : Work ε).Balanced .owner 0) ∧
    (s.shared.sealed = true →
      (∀ t ∈ s.tasks, ∀ k, t.prog = .begin k →
        t.step s.shared .run = some (s.shared, { t with prog := k false }, none)) ∧
      ∀ a s', next (dialOf p) s a = some s' →
        s'.shared.sealed = true ∧ s'.shared.made = s.shared.made) ∧
    (total Thread.refs s.tasks + s.shared.finished = Multiset.range s.shared.made ∧
      ∀ t ∈ s.tasks, ∀ err, t.prog = .ret err → t.held = []) ∧
    (s.shared.counter = (total Thread.refs s.tasks).card ∧ 0 ≤ s.shared.counter) ∧
    ((∀ t ∈ s.tasks, t.role = .joined →
        s.shared.finished = Multiset.range s.shared.made ∧ ∀ u ∈ s.tasks, u.held = []) ∧
      ∀ t err, s.tasks[0]? = some t → t.prog = .ret err → t.role = .joined) := by
  have hinv := inv_reached (dialOf_balanced p) exchange_balanced h
  refine ⟨⟨dialOf_balanced p, exchange_balanced⟩, fun hsealed => ⟨?_, ?_⟩,
    ⟨hinv.accounts, fun t ht err hret => hinv.returned ht hret⟩,
    ⟨hinv.counter, hinv.counter_nonneg⟩, fun t ht hjoined => hinv.all_finished ht hjoined, ?_⟩
  · intro t _ k hprog
    simp [Thread.step, hprog, hsealed]
  · exact fun a s' hs => hinv.made_of_sealed hsealed hs
  · intro t err ht hret
    exact hinv.joined_of_returned ht hret

/-- A dial is admitted and still runs when the exchange seals the admission; another one comes too
late. The exchange returns when the first one is done. -/
def exampleRun : List (Action Dial (WorkError Unit)) :=
  [.move 0 (.choose false), .move 0 (.choose true), .start .tls, .move 1 (.choose true),
    .move 1 .run, .move 1 (.answer none), .move 0 (.answer none), .move 0 (.choose false),
    .move 0 (.answer none), .move 0 .run, .start .quic, .move 2 (.choose true), .move 2 .run,
    .move 1 (.answer none), .move 1 (.answer none), .move 1 (.answer none), .move 1 .run,
    .move 0 .run]

def exampleSettings : Settings := ⟨[.http11, .http3], true, "https://dns.example/"⟩

theorem httpWork_joined_example :
    ∃ s : State Op (WorkError Unit), Reached (dialOf exampleSettings) (exchange exampleSettings) s ∧
      s.shared.made = 1 ∧ (s.shared.finished : Multiset Nat) = Multiset.range 1 := by
  obtain ⟨s, hs, hmade, t, ht, hjoined⟩ : ∃ s : State Op (WorkError Unit),
      Runs.replay (next (dialOf exampleSettings)) (fun _ _ => true)
        (init (exchange exampleSettings)) exampleRun = some s ∧
      s.shared.made = 1 ∧ ∃ t, s.tasks[0]? = some t ∧ t.role = .joined :=
    ⟨_, rfl, rfl, _, rfl, rfl⟩
  have hrun : Reached (dialOf exampleSettings) (exchange exampleSettings) s :=
    (Runs.run_of_replay hs .refl).any
  have hjoin := (httpWork_joined exampleSettings s hrun).2.2.2.2.1 t (List.mem_of_getElem? ht)
  exact ⟨s, hrun, hmade, hmade ▸ (hjoin hjoined).1⟩

end DnsProxy.HTTPWork
