import DnsProxy.Transport

/-!
# What an exchange delivers

The two ways in which an exchange reports: the response it returns and the decision it
publishes. Both are made of the last message that was received, but the published one is
reserved by its header before it is decoded.

* `decision_agrees_iff`: the two agree if and only if that message has the QR bit, which
  only the reservation looks at.
* `returned_answers_iff`: a returned response answers the question that was asked if and
  only if that message has the QR bit and the class of the question.
-/

namespace DnsProxy.Transport

open Receipt

/-! ## What is assumed of the codec -/

/-- The QR bit of a message. -/
def HasQR (wire : Bytes) : Prop := ∃ b, wire[2]? = some b ∧ b &&& 0x80 ≠ 0

/-- A message that is decoded has a header, and its id and bits are decoded from there. -/
structure Codec.DecodesHeader (c : Codec) : Prop where
  header : ∀ wire m, c.unpack wire = some m → ∃ b0 b1 b2 rest,
    wire = b0 :: b1 :: b2 :: rest ∧ 12 ≤ wire.length ∧ m.id = b0.toUInt16 <<< 8 ||| b1.toUInt16 ∧
    m.response = (b2 &&& 0x80 != 0) ∧ m.truncated = (b2 &&& 0x02 != 0)

variable {c : Codec} {m req : Msg} {s : Session}

theorem hasQR_iff (hc : c.DecodesHeader) {wire : Bytes} (h : c.unpack wire = some m) :
    HasQR wire ↔ m.response = true := by
  obtain ⟨b0, b1, b2, rest, rfl, -, -, hqr, -⟩ := hc.header wire m h
  rw [hqr, bne_iff_ne]
  constructor
  · rintro ⟨b, hb, hne⟩
    rwa [← Option.some.inj hb] at hne
  · exact fun hne => ⟨b2, rfl, hne⟩

/-- A message that is not left to a continuation over TCP. -/
def Final (udp : Bool) (wire : Bytes) (m : Msg) : Prop :=
  HasQR wire ∧ ¬(udp = true ∧ m.truncated = true)

/-- A decoded message is reserved if and only if it has the QR bit, unless it is
truncated and came over UDP. -/
theorem candidate_iff (hc : c.DecodesHeader) {wire : Bytes} (h : c.unpack wire = some m)
    (udp : Bool) : ExchangeState.candidate wire m.id udp = true ↔ Final udp wire m := by
  rw [Final, hasQR_iff hc h]
  obtain ⟨b0, b1, b2, rest, rfl, hlen, hid, hqr, htc⟩ := hc.header wire m h
  rw [hid, hqr, htc, ExchangeState.candidate, decide_eq_false (Nat.not_lt.mpr hlen)]
  cases udp <;> simp [bne]

/-! ## The state -/

/-- The state of an exchange for the request `id` without a decision, on which neither
`Expire` nor `Abandon` was called, and with no cutoff. -/
structure Undecided (id : UInt16) (st : ExchangeState) : Prop where
  finished : st.finished = false
  reserved : st.reserved = false
  sealed : st.sealed = false
  deadline : st.deadline = 0
  original : st.original = id

/-- `Result` is ready and holds `m` and no error. -/
def Decided (m : Msg) (st : ExchangeState) : Prop :=
  st.finished = true ∧ st.result.response = some m ∧ st.result.err = none

namespace Undecided

variable {id : UInt16} {st : ExchangeState}

theorem late (h : Undecided id st) (now : Time) : st.late now = false := by
  rw [ExchangeState.late, h.deadline]
  rfl

theorem reserveCandidate (h : Undecided id st) (now : Time) :
    st.reserveCandidate now =
      (st.ticket + 1, { st with ticket := st.ticket + 1, reserved := true, received := now }) := by
  rw [ExchangeState.reserveCandidate, h.finished, h.sealed, h.reserved, h.late now]
  rfl

theorem reserve_of_candidate (h : Undecided id st) {wire : Bytes} {qid : UInt16} {udp : Bool}
    (hcand : ExchangeState.candidate wire qid udp = true) (now : Time) :
    st.reserve wire qid udp now =
      (st.ticket + 1, { st with ticket := st.ticket + 1, reserved := true, received := now }) := by
  rw [ExchangeState.reserve, if_pos hcand, h.reserveCandidate]

theorem reject_reserved (h : Undecided id st) (now now' : Time) :
    Undecided id ({ st with ticket := st.ticket + 1, reserved := true, received := now }.reject
      (st.ticket + 1) now') := by
  have heq : { st with ticket := st.ticket + 1, reserved := true, received := now }.reject
      (st.ticket + 1) now' =
      { st with ticket := st.ticket + 1, reserved := false, received := now } := by
    simp [ExchangeState.reject, ExchangeState.late, isZero, h.finished, h.sealed, h.deadline]
  rw [heq]
  exact ⟨h.finished, rfl, h.sealed, h.deadline, h.original⟩

theorem accept_reserved (h : Undecided id st) (now : Time) (m : Msg) :
    Decided { m with id := id }
      ({ st with ticket := st.ticket + 1, reserved := true, received := now }.accept
        (st.ticket + 1) m) := by
  simp [Decided, ExchangeState.accept, ExchangeState.completeLocked, h.finished, h.original]

theorem reserve_reject (h : Undecided id st) (wire : Bytes) (qid : UInt16) (udp : Bool)
    (now now' : Time) :
    Undecided id ((st.reserve wire qid udp now).2.reject (st.reserve wire qid udp now).1 now') := by
  by_cases hcand : ExchangeState.candidate wire qid udp = true
  · rw [h.reserve_of_candidate hcand]
    exact h.reject_reserved now now'
  · rw [ExchangeState.reserve, if_neg hcand]
    exact h

theorem reserve_accept (h : Undecided id st) (wire : Bytes) (qid : UInt16) (udp : Bool)
    (now : Time) (m : Msg) :
    (ExchangeState.candidate wire qid udp = true → Decided { m with id := id }
      ((st.reserve wire qid udp now).2.accept (st.reserve wire qid udp now).1 m)) ∧
    (¬ExchangeState.candidate wire qid udp = true → Undecided id
      ((st.reserve wire qid udp now).2.accept (st.reserve wire qid udp now).1 m)) := by
  constructor
  · intro hcand
    rw [h.reserve_of_candidate hcand]
    exact h.accept_reserved now m
  · intro hcand
    rw [ExchangeState.reserve, if_neg hcand]
    exact h

theorem finish (h : Undecided id st) (err : Option ExchangeError) (m : Msg) :
    ¬Decided m (st.finish err) := by
  rintro ⟨-, hresp, -⟩
  rw [ExchangeState.finish, ExchangeState.completeLocked, h.finished] at hresp
  cases hresp

end Undecided

theorem Decided.finish {st : ExchangeState} (h : Decided m st) (err : Option ExchangeError) :
    Decided m (st.finish err) := by
  rw [ExchangeState.finish, completeLocked_of_finished h.1]
  exact h

/-! ## One attempt -/

namespace Session

def Undecided (id : UInt16) (s : Session) : Prop :=
  ∃ st, s.state = some st ∧ Transport.Undecided id st

def Decided (m : Msg) (s : Session) : Prop := ∃ st, s.state = some st ∧ Transport.Decided m st

/-- Whoever has made no decision at `s` has made none at `s'`. -/
def Keeps (s s' : Session) : Prop := ∀ id, s.Undecided id → s'.Undecided id

variable (s : Session) (wire : Bytes) (qid : UInt16) (udp : Bool) (now now' : Time)

theorem Keeps.rfl : s.Keeps s := fun _ h => h

theorem Keeps.trans {s s' s'' : Session} (h : s.Keeps s') (h' : s'.Keeps s'') : s.Keeps s'' :=
  fun id hs => h' id (h id hs)

theorem reserve_frames : (s.reserve wire qid udp now).2.frames = s.frames := by
  unfold reserve
  split <;> rfl

theorem reserve_reject_keeps :
    s.Keeps ((s.reserve wire qid udp now).2.reject (s.reserve wire qid udp now).1 now') := by
  rintro id ⟨st, hst, h⟩
  refine ⟨_, ?_, h.reserve_reject wire qid udp now now'⟩
  simp only [reserve, hst, reject]
  rfl

theorem reserve_accept_state {id : UInt16} (h : s.Undecided id) (m : Msg) :
    (ExchangeState.candidate wire qid udp = true →
      ((s.reserve wire qid udp now).2.accept (s.reserve wire qid udp now).1 m).Decided
        { m with id := id }) ∧
    (¬ExchangeState.candidate wire qid udp = true →
      ((s.reserve wire qid udp now).2.accept (s.reserve wire qid udp now).1 m).Undecided id) := by
  obtain ⟨st, hst, h⟩ := h
  obtain ⟨hyes, hno⟩ := h.reserve_accept wire qid udp now m
  simp only [reserve, hst, accept]
  exact ⟨fun hcand => ⟨_, rfl, hyes hcand⟩, fun hcand => ⟨_, rfl, hno hcand⟩⟩

end Session

/-- What an attempt comes to that started at `s`. The response has the id `rid`. -/
inductive Outcome (c : Codec) (req : Msg) (udp checked : Bool) (rid : UInt16) (s : Session) :
    Attempt → Prop
  | failed {resp : Option Msg} {err : ExchErr} {s' : Session} (hkeeps : s.Keeps s') :
      Outcome c req udp checked rid s ⟨resp, some err, s'⟩
  | delivered (m : Msg) (wire : Bytes) {s' : Session} (hlast : s'.frames.getLast? = some wire)
      (hdec : c.unpack wire = some m)
      (hvalid : checked = true → validateResponse c req m = none)
      (hdecided : Final udp wire m → ∀ id, s.Undecided id → s'.Decided { m with id := id })
      (hkeeps : ¬Final udp wire m → s.Keeps s') :
      Outcome c req udp checked rid s ⟨some { m with id := rid }, none, s'⟩

section Outcome

variable {c : Codec} {req : Msg} {udp checked : Bool} {rid : UInt16} {s s' : Session} {a : Attempt}

theorem Outcome.of_keeps (h : Outcome c req udp checked rid s' a) (hkeeps : s.Keeps s') :
    Outcome c req udp checked rid s a := by
  cases h with
  | failed hk => exact .failed (hkeeps.trans hk)
  | delivered m wire hlast hdec hvalid hdecided hk =>
    exact .delivered m wire hlast hdec hvalid (fun hf id hs => hdecided hf id (hkeeps id hs))
      fun hf => hkeeps.trans (hk hf)

theorem Outcome.keeps_of_err (h : Outcome c req udp checked rid s a) {err : ExchErr}
    (herr : a.err = some err) : s.Keeps a.session := by
  cases h with
  | failed hk => exact hk
  | delivered => cases herr

theorem Outcome.withID (h : Outcome c req udp checked rid s a) (rid' : UInt16) :
    Outcome c req udp checked rid' s
      { a with resp := a.resp.map fun resp => { resp with id := rid' } } := by
  cases h with
  | failed hk => exact .failed hk
  | delivered m wire hlast hdec hvalid hdecided hk =>
    exact .delivered m wire hlast hdec hvalid hdecided hk

theorem Outcome.of_accept (hc : c.DecodesHeader) {wire : Bytes} {m : Msg}
    (hdec : c.unpack wire = some m) (hvalid : checked = true → validateResponse c req m = none)
    (now : Time) (x rid : UInt16) :
    Outcome c req udp checked rid s
      ⟨some { m with id := rid }, none,
        ((s.receive wire).reserve wire m.id udp now).2.accept
          ((s.receive wire).reserve wire m.id udp now).1 { m with id := x }⟩ := by
  refine .delivered m wire ?_ hdec hvalid ?_ ?_
  · show List.getLast? (((s.receive wire).reserve wire m.id udp now).2.frames) = some wire
    rw [Session.reserve_frames, Session.receive, List.getLast?_concat]
  · intro hfinal id hs
    exact ((s.receive wire).reserve_accept_state wire m.id udp now hs { m with id := x }).1
      ((candidate_iff hc hdec udp).mpr hfinal)
  · intro hfinal id hs
    exact ((s.receive wire).reserve_accept_state wire m.id udp now hs { m with id := x }).2
      fun hcand => hfinal ((candidate_iff hc hdec udp).mp hcand)

end Outcome

theorem readDNSResponse_outcome (hc : c.DecodesHeader) (req : Msg) (udp checkQuestion : Bool)
    (reads : List Read) (s : Session) :
    Outcome c req udp checkQuestion req.id s
      (readDNSResponse c req udp checkQuestion reads s) := by
  induction reads generalizing s with
  | nil => exact .failed (.rfl s)
  | cons r reads ih =>
    cases r with
    | failed e => exact .failed (.rfl s)
    | shortRead => exact .failed (.rfl s)
    | frame f =>
      have hreject := (s.receive f.wire).reserve_reject_keeps f.wire req.id udp f.received f.decoded
      simp only [readDNSResponse]
      cases hdec : c.unpack f.wire with
      | none => exact .failed hreject
      | some m =>
        simp only
        split
        · exact .failed hreject
        · split
          · split
            · exact (ih _).of_keeps hreject
            · exact .failed hreject
          · next hid =>
            have hid : m.id = req.id := Decidable.not_not.mp hid
            split
            · exact .failed hreject
            · next hvalid =>
              have hvalid : checkQuestion = true → validateResponse c req m = none := by
                rintro rfl
                exact hvalid
              rw [← hid]
              exact Outcome.of_accept hc hdec hvalid f.received m.id m.id

/-! ## DoT, DoH and DoQ -/

theorem err_of_any {err : Option ExchErr} {f : ExchErr → Bool} (h : err.any f = true) :
    ∃ e, err = some e := by
  cases err with
  | none => cases h
  | some e => exact ⟨e, rfl⟩

section Streams

variable {c : Codec} (hc : c.DecodesHeader) (req : Msg) (s : Session)
include hc

theorem dotExchangeWithConn_outcome (conn : Conn) :
    Outcome c req false true req.id s (dotExchangeWithConn c conn req s) := by
  unfold dotExchangeWithConn
  split
  · exact .failed (.rfl s)
  · have h := readDNSResponse_outcome hc req false true conn.reads s
    simp only
    split
    · next err herr => exact .failed (h.keeps_of_err herr)
    · exact h

theorem exchangeHTTPSClient_outcome (h : HTTPAttempt) :
    Outcome c req false true req.id s (exchangeHTTPSClient c req s h) := by
  cases h with
  | error e => exact .failed (.rfl s)
  | ok httpResp =>
    simp only [exchangeHTTPSClient]
    iterate 3
      split
      · exact .failed (.rfl s)
    split
    · exact .failed (.rfl s)
    · next body hbody =>
      iterate 2
        split
        · exact .failed (.rfl s)
      have hreject := (s.receive body.wire).reserve_reject_keeps body.wire 0 false body.received
        body.decoded
      cases hdec : c.unpack body.wire with
      | none => exact .failed hreject
      | some m =>
        simp only
        split
        · exact .failed hreject
        · next hid =>
          have hid : m.id = 0 := Decidable.not_not.mp hid
          split
          · exact .failed hreject
          · next hvalid =>
            rw [← hid]
            exact Outcome.of_accept hc hdec (fun _ => hvalid) body.received req.id req.id

theorem retryHTTPS_outcome (env : DoHEnv) (isCached : Bool) (n i : Nat) (a : Attempt)
    (h : Outcome c req false true req.id s a) :
    Outcome c req false true req.id s (retryHTTPS c env req isCached n i a) := by
  induction n generalizing i a with
  | zero => exact h
  | succ n ih =>
    unfold retryHTTPS
    split
    · next hretry =>
      obtain ⟨err, herr⟩ := err_of_any (Bool.and_eq_true_iff.mp hretry).2
      have hkeeps := h.keeps_of_err herr
      split
      · exact .failed hkeeps
      · exact ih _ _ ((exchangeHTTPSClient_outcome hc req a.session _).of_keeps hkeeps)
    · exact h

theorem readMsg_outcome (stream : QUICStream) :
    Outcome c req false true 0 s (readMsg c stream req s) := by
  unfold readMsg
  split
  · next b0 b1 data hdata =>
    simp only
    iterate 3
      split
      · exact .failed (.rfl s)
    split
    · exact .failed (.rfl s)
    · have hreject := (s.receive data).reserve_reject_keeps data 0 false stream.received
        stream.decoded
      cases hdec : c.unpack data with
      | none => exact .failed hreject
      | some m =>
        simp only
        split
        · exact .failed hreject
        · next hid =>
          have hid : m.id = 0 := Decidable.not_not.mp hid
          split
          · exact .failed hreject
          · next hvalid =>
            rw [← hid]
            exact Outcome.of_accept hc hdec (fun _ => hvalid) stream.received m.id m.id
  · exact .failed (.rfl s)

theorem exchangeQUIC_outcome (stream : QUICStream) :
    Outcome c req false true 0 s (exchangeQUIC c req stream s) := by
  unfold exchangeQUIC
  split
  · exact .failed (.rfl s)
  · exact readMsg_outcome hc req s stream

theorem doqAttempts_outcome (env : DoQEnv) (cached : Bool) :
    Outcome c req false true 0 s (doqAttempts c env req cached s) := by
  have h := exchangeQUIC_outcome hc req s env.first
  unfold doqAttempts
  simp only
  split
  · exact h
  · next err herr =>
    have hkeeps := h.keeps_of_err herr
    split
    · split
      · exact .failed hkeeps
      · exact (exchangeQUIC_outcome hc req _ env.second).of_keeps hkeeps
    · exact h

end Streams

/-! ## Plain DNS and DNSCrypt -/

/-- An attempt after which a connection was closed, which may fail as well. -/
inductive Closed (c : Codec) (req : Msg) (udp checked : Bool) (rid : UInt16) (s : Session) :
    Attempt → Prop
  | mk {o : Attempt} (h : Outcome c req udp checked rid s o) (deferred : Option NetErr) :
      Closed c req udp checked rid s { o with err := withDeferred o.err deferred }

section Closed

variable {c : Codec} {req : Msg} {udp checked : Bool} {rid : UInt16} {s s' : Session} {a : Attempt}

theorem Outcome.closed (h : Outcome c req udp checked rid s a) :
    Closed c req udp checked rid s a := by
  have hnone : withDeferred a.err none = a.err := by cases a.err <;> rfl
  have hmk := Closed.mk h none
  rwa [hnone] at hmk

theorem Closed.close (h : Closed c req udp checked rid s a) (deferred : Option NetErr) :
    Closed c req udp checked rid s { a with err := withDeferred a.err deferred } := by
  obtain @⟨o, ho, d⟩ := h
  have hassoc : withDeferred (withDeferred o.err d) deferred =
      withDeferred o.err (d.or deferred) := by
    cases o.err <;> cases d <;> rfl
  simp only [hassoc]
  exact .mk ho _

theorem Closed.of_keeps (h : Closed c req udp checked rid s' a) (hkeeps : s.Keeps s') :
    Closed c req udp checked rid s a := by
  obtain @⟨o, ho, d⟩ := h
  exact .mk (ho.of_keeps hkeeps) d

theorem Closed.withID (h : Closed c req udp checked rid s a) (rid' : UInt16) :
    Closed c req udp checked rid' s
      { a with resp := a.resp.map fun resp => { resp with id := rid' } } := by
  obtain @⟨o, ho, d⟩ := h
  exact .mk (ho.withID rid') d

theorem Closed.outcome (h : Closed c req udp checked rid s a) (herr : a.err = none) :
    Outcome c req udp checked rid s a := by
  obtain @⟨o, ho, d⟩ := h
  have hor := Option.or_eq_none_iff.mp herr
  have heq : withDeferred o.err d = o.err := herr.trans hor.1.symm
  simpa only [heq] using ho

theorem Closed.keeps_of_continued (h : Closed c req true checked rid s a)
    (hcont : a.err.any ExchErr.isQuestion = true ∨ a.resp.any Msg.truncated = true) :
    s.Keeps a.session := by
  obtain @⟨o, ho, d⟩ := h
  cases ho with
  | failed hk => exact hk
  | delivered m wire hlast hdec hvalid hdecided hk =>
    refine hk fun hfinal => ?_
    rcases hcont with hquestion | htruncated
    · cases d <;> cases hquestion
    · exact hfinal.2 ⟨rfl, htruncated⟩

end Closed

theorem Outcome.of_question {req' : Msg} {udp checked : Bool} {rid : UInt16} {a : Attempt}
    (h : Outcome c req udp checked rid s a) (hq : req'.question = req.question) :
    Outcome c req' udp checked rid s a := by
  have hvalidate : ∀ m, validateResponse c req' m = validateResponse c req m := by
    intro m
    unfold validateResponse Msg.firstQuestion
    rw [hq]
  cases h with
  | failed hk => exact .failed hk
  | delivered m wire hlast hdec hvalid hdecided hk =>
    exact .delivered m wire hlast hdec (fun hch => (hvalidate m).trans (hvalid hch)) hdecided hk

theorem setRequestForNetwork_question (env : PlainEnv) (req : Msg) (network : Network) :
    (PlainDNS.setRequestForNetwork env req network).question = req.question := by
  unfold PlainDNS.setRequestForNetwork
  split
  · rfl
  · split <;> rfl

section Plain

variable {c : Codec} (hc : c.DecodesHeader) (p : PlainDNS) (req : Msg) (s : Session)
include hc

theorem exchangeWithConn_outcome (conn : Conn) (network : Network) :
    Outcome c req (network = .udp) (!p.bootstrap) req.id s
      (p.exchangeWithConn c req conn network s) := by
  unfold PlainDNS.exchangeWithConn
  split
  · exact .failed (.rfl s)
  · exact readDNSResponse_outcome hc req _ _ conn.reads s

theorem dialExchange_closed (env : PlainEnv) (network : Network) :
    Closed c req (network = .udp) (!p.bootstrap) req.id s
      (p.dialExchange c env network req s) := by
  have hq := (setRequestForNetwork_question env req network).symm
  unfold PlainDNS.dialExchange
  generalize PlainDNS.setRequestForNetwork env req network = upstreamReq at hq ⊢
  simp only
  split
  · exact (Outcome.failed (.rfl s)).closed
  · have h := exchangeWithConn_outcome hc p upstreamReq s (env.conns network).1 network
    suffices hclosed : Closed c req (network = .udp) (!p.bootstrap) upstreamReq.id s
        (if !p.bootstrap && (p.exchangeWithConn c upstreamReq (env.conns network).1 network
            s).err.any ExchErr.isExpectedConnErr then
          p.dialAgain c upstreamReq (env.conns network).2 network
            (p.exchangeWithConn c upstreamReq (env.conns network).1 network s).session
        else p.exchangeWithConn c upstreamReq (env.conns network).1 network s) from
      (hclosed.close _).withID req.id
    split
    · next hagain =>
      obtain ⟨err, herr⟩ := err_of_any (Bool.and_eq_true_iff.mp hagain).2
      have hkeeps := h.keeps_of_err herr
      unfold PlainDNS.dialAgain
      split
      · exact (Outcome.failed hkeeps).closed
      · exact .mk (((exchangeWithConn_outcome hc p upstreamReq _ _ network).of_question
          hq).of_keeps hkeeps) _
    · exact (h.of_question hq).closed

end Plain

theorem reserveCandidate_reject_keeps (s : Session) (now now' : Time) :
    s.Keeps ((s.reserveCandidate now).2.reject (s.reserveCandidate now).1 now') := by
  rintro id ⟨st, hst, h⟩
  simp only [Session.reserveCandidate, hst, Session.reject, h.reserveCandidate now]
  exact ⟨_, rfl, h.reject_reserved now now'⟩

theorem reserveCandidate_accept_decided {id : UInt16} (h : s.Undecided id) (now : Time) (m : Msg) :
    ((s.reserveCandidate now).2.accept (s.reserveCandidate now).1 m).Decided
      { m with id := id } := by
  obtain ⟨st, hst, h⟩ := h
  simp only [Session.reserveCandidate, hst, Session.accept, h.reserveCandidate now]
  exact ⟨_, rfl, h.accept_reserved now m⟩

theorem checkDecoded_eq_none (h : checkDecoded c req m = none) :
    m.response = true ∧ m.id = req.id ∧ validateResponse c req m = none := by
  unfold checkDecoded at h
  split at h
  · cases h
  · next hqr =>
    split at h
    · cases h
    · next hid =>
      exact ⟨by simpa using hqr, Decidable.not_not.mp hid, Option.map_eq_none_iff.mp h⟩

theorem exchangeConnContext_outcome (hc : c.DecodesHeader) (env : DNSCryptEnv) (req : Msg)
    (udp : Bool) (conn : CryptConn) (s : Session) :
    Outcome c req udp true req.id s (exchangeConnContext c env req udp conn s) := by
  unfold exchangeConnContext
  split
  · exact .failed (.rfl s)
  · exact .failed (.rfl s)
  · next f hsend hread =>
    have hreject := reserveCandidate_reject_keeps s f.received f.decoded
    simp only
    split
    · exact .failed hreject
    · next wire hplain =>
      cases hdec : c.unpack wire with
      | none => exact .failed hreject
      | some m =>
        simp only
        split
        · exact .failed hreject
        · next hcheck =>
          obtain ⟨hqr, hid, hvalid⟩ := checkDecoded_eq_none hcheck
          have hfinal : Final udp wire m ↔ (udp && m.truncated) = false := by
            rw [Final, hasQR_iff hc hdec, hqr]
            cases udp <;> simp
          rw [← hid]
          refine .delivered m wire ?_ hdec (fun _ => hvalid) ?_ ?_
          · split <;> exact List.getLast?_concat
          · intro hf id hs
            rw [hfinal.mp hf]
            exact reserveCandidate_accept_decided hs f.received m
          · intro hf
            have htc : (udp && m.truncated) = true := by simpa using fun h => hf (hfinal.mpr h)
            rw [htc]
            exact hreject

theorem exchangeContext_closed (hc : c.DecodesHeader) (env : DNSCryptEnv) (req : Msg) (udp : Bool)
    (conn : CryptConn) (s : Session) :
    Closed c req udp true req.id s (exchangeContext c env req udp conn s) := by
  unfold exchangeContext
  split
  · exact (Outcome.failed (.rfl s)).closed
  · exact .mk (exchangeConnContext_outcome hc env req udp conn s) _

/-! ## Whole exchanges -/

/-- The attempt returns the message `m`, which was the last to be received. -/
structure Delivery (c : Codec) (req : Msg) (checked : Bool) (s : Session) (a : Attempt) (m : Msg)
    (wire : Bytes) : Prop where
  resp : a.resp = some { m with id := req.id }
  last : a.session.frames.getLast? = some wire
  decoded : c.unpack wire = some m
  valid : checked = true → validateResponse c req m = none
  decided : HasQR wire → ∀ id, s.Undecided id → a.session.Decided { m with id := id }
  keeps : ¬HasQR wire → s.Keeps a.session

def Delivers (c : Codec) (req : Msg) (checked : Bool) (s : Session) (a : Attempt) : Prop :=
  a.err = none → ∃ m wire, Delivery c req checked s a m wire

theorem delivers_fail (c : Codec) (req : Msg) (checked : Bool) (s s' : Session) (err : ExchErr) :
    Delivers c req checked s (fail err s') := nofun

theorem Outcome.delivers {udp checked : Bool} {a : Attempt}
    (h : Outcome c req udp checked req.id s a)
    (hudp : udp = true → a.resp.any Msg.truncated = false) : Delivers c req checked s a := by
  intro herr
  cases h with
  | failed => cases herr
  | delivered m wire hlast hdec hvalid hdecided hk =>
    refine ⟨m, wire, rfl, hlast, hdec, hvalid, ?_, fun hqr => hk fun hf => hqr hf.1⟩
    refine fun hqr => hdecided ⟨hqr, ?_⟩
    rintro ⟨rfl, htc⟩
    have hfalse : m.truncated = false := hudp rfl
    rw [htc] at hfalse
    cases hfalse

/-- Whether the exchange validates the question of a response. -/
def Exchange.checked : Exchange → Bool
  | .plain p _ => !p.bootstrap
  | _ => true

section Run

variable {c : Codec} (hc : c.DecodesHeader) (req : Msg) (s : Session)
include hc

theorem plain_delivers (p : PlainDNS) (env : PlainEnv) :
    Delivers c req (!p.bootstrap) s (p.exchange c env req s) := by
  unfold PlainDNS.exchange
  split
  · exact delivers_fail c req _ s s _
  · have h := dialExchange_closed hc p req s env p.net
    -- a continuation starts from where the first network has left no decision
    have htcp : ∀ s', s.Keeps s' →
        Delivers c req (!p.bootstrap) s (p.dialExchange c env .tcp req s') := by
      intro s' hkeeps herr
      have htcp := (dialExchange_closed hc p req s' env .tcp).of_keeps hkeeps
      exact (htcp.outcome herr).delivers nofun herr
    have hdone :
        (p.net = .udp → (p.dialExchange c env p.net req s).resp.any Msg.truncated = false) →
        Delivers c req (!p.bootstrap) s (p.dialExchange c env p.net req s) := by
      intro htc herr
      exact (h.outcome herr).delivers (fun hudp => htc (of_decide_eq_true hudp)) herr
    simp only
    split
    · next hboot =>
      intro herr
      rw [herr] at hboot
      simp at hboot
    · split
      · next hnet => exact hdone fun hudp => absurd hudp hnet
      · next hnet =>
        have hudp : p.net = .udp := Decidable.not_not.mp hnet
        have hcont := Closed.keeps_of_continued
          (show Closed c req true (!p.bootstrap) req.id s (p.dialExchange c env p.net req s) by
            simpa [hudp] using h)
        split
        · next hresp => exact hdone fun _ => by rw [hresp]; rfl
        · next resp hresp =>
          split
          · next hquestion =>
            exact htcp _ (hcont (.inl (Bool.and_eq_true_iff.mp hquestion).2))
          · split
            · next htc => exact htcp _ (hcont (.inr (by rw [hresp]; exact htc)))
            · next htc => exact hdone fun _ => by rw [hresp]; simpa using htc

theorem dot_delivers (env : DoTEnv) : Delivers c req true s (dotExchange c env req s) := by
  unfold dotExchange
  split
  · exact delivers_fail c req _ s s _
  · exact delivers_fail c req _ s s _
  · have h := dotExchangeWithConn_outcome hc req s env.first
    simp only
    split
    · exact h.delivers nofun
    · next err herr =>
      split
      · exact delivers_fail c req _ s _ _
      · split
        · exact delivers_fail c req _ s _ _
        · exact ((dotExchangeWithConn_outcome hc req _ env.second).of_keeps
            (h.keeps_of_err herr)).delivers nofun

theorem doh_delivers (env : DoHEnv) : Delivers c req true s (dohExchange c env req s) := by
  unfold dohExchange
  split
  · exact delivers_fail c req _ s s _
  · simp only
    split
    · exact delivers_fail c req _ s _ _
    · exact (retryHTTPS_outcome hc req s env _ 2 0 _
        (exchangeHTTPSClient_outcome hc req s _)).delivers nofun

theorem doq_delivers (env : DoQEnv) : Delivers c req true s (doqExchange c env req s) := by
  unfold doqExchange
  split
  · exact delivers_fail c req _ s s _
  · next cached hconn =>
    have h : Outcome c req false true req.id s _ :=
      ((doqAttempts_outcome hc { req with id := 0 } s env cached).withID req.id).of_question rfl
    exact h.delivers nofun

theorem dnsCrypt_delivers (env : DNSCryptEnv) :
    Delivers c req true s (dnsCryptExchange c env req s) := by
  unfold dnsCryptExchange
  split
  · exact delivers_fail c req _ s s _
  · have h := exchangeContext_closed hc env req true env.udp s
    simp only
    split
    · next htcp =>
      have hkeeps := h.keeps_of_continued (.inr (Bool.and_eq_true_iff.mp htcp).2)
      intro herr
      exact (((exchangeContext_closed hc env req false env.tcp _).of_keeps hkeeps).outcome
        herr).delivers nofun herr
    · next hdone =>
      intro herr
      refine (h.outcome herr).delivers (fun _ => ?_) herr
      rw [herr] at hdone
      simpa using hdone

theorem attempts_delivers (x : Exchange) :
    Delivers c req x.checked s (x.attempts c req s) := by
  cases x with
  | plain p env => exact plain_delivers hc req s p env
  | tls env => exact dot_delivers hc req s env
  | https env => exact doh_delivers hc req s env
  | quic env => exact doq_delivers hc req s env
  | dnscrypt env => exact dnsCrypt_delivers hc req s env

end Run

/-- An exchange that returns no error has started on the state, and its last attempt has
delivered. -/
theorem run_delivery (hc : c.DecodesHeader) {x : Exchange} (herr : (x.run c req s).err = none) :
    ∃ s₁ a m wire, s.start req.id = some s₁ ∧ Delivery c req x.checked s₁ a m wire ∧
      x.run c req s = { a with session := a.session.finish none } := by
  unfold Exchange.run owned at herr ⊢
  cases hstart : s.start req.id with
  | none => rw [hstart] at herr; cases herr
  | some s₁ =>
    rw [hstart] at herr
    have herr : (x.attempts c req s₁).err = none := herr
    obtain ⟨m, wire, hdel⟩ := attempts_delivers hc req s₁ x herr
    refine ⟨s₁, x.attempts c req s₁, m, wire, rfl, hdel, ?_⟩
    simp only [herr]

/-! ## The decision -/

/-- A fresh state without a cutoff. -/
def fresh : Session := ⟨some (newExchangeState 0), []⟩

theorem fresh_start {id : UInt16} (h : fresh.start id = some s) : s.Undecided id := by
  cases h
  exact ⟨_, rfl, rfl, rfl, rfl, rfl, rfl⟩

/-- The decision of an exchange that returns a response is that response, if and only if
the message that was received last has the QR bit. -/
theorem decision_agrees_iff (c : Codec) (hc : c.DecodesHeader) (x : Exchange) (req resp : Msg)
    (hresp : (x.run c req fresh).resp = some resp) (herr : (x.run c req fresh).err = none) :
    (x.run c req fresh).session.Decided resp ↔
      ∃ wire, (x.run c req fresh).session.frames.getLast? = some wire ∧ HasQR wire := by
  obtain ⟨s, a, m, wire, hstart, hdel, hrun⟩ := run_delivery hc herr
  rw [hrun] at hresp ⊢
  have hresp : { m with id := req.id } = resp := Option.some.inj (hdel.resp.symm.trans hresp)
  have hundecided := fresh_start hstart
  constructor
  · rintro ⟨st, hst, hdecided⟩
    refine ⟨wire, hdel.last, ?_⟩
    by_contra hqr
    obtain ⟨st', hst', hundecided'⟩ := hdel.keeps hqr req.id hundecided
    simp only [Session.finish, hst', Option.map_some] at hst
    rw [← Option.some.inj hst] at hdecided
    exact hundecided'.finish _ _ hdecided
  · rintro ⟨wire', hlast, hqr⟩
    obtain rfl : wire = wire' := Option.some.inj (hdel.last.symm.trans hlast)
    obtain ⟨st, hst, hdecided⟩ := hdel.decided hqr req.id hundecided
    rw [hresp] at hdecided
    refine ⟨st.finish none, ?_, hdecided.finish none⟩
    simp only [Session.finish, hst, Option.map_some, Option.map_none]

/-- The codec of messages whose wire form is in a table. -/
def tableCodec (table : List (Msg × Bytes)) : Codec where
  toPlatform := .ofTable table
  undecoded _ := {}
  equalFold a b := toLower a = toLower b

theorem tableCodec_decodesHeader {table : List (Msg × Bytes)}
    (h : ∀ e ∈ table, ∃ b0 b1 b2 rest, e.2 = b0 :: b1 :: b2 :: rest ∧ 12 ≤ e.2.length ∧
      e.1.id = b0.toUInt16 <<< 8 ||| b1.toUInt16 ∧ e.1.response = (b2 &&& 0x80 != 0) ∧
      e.1.truncated = (b2 &&& 0x02 != 0)) :
    (tableCodec table).DecodesHeader where
  header := by
    intro wire m hdec
    obtain ⟨e, hfind, rfl⟩ := Option.map_eq_some_iff.mp hdec
    obtain rfl : e.2 = wire := by simpa using List.find?_some hfind
    exact h e (List.mem_of_find?_eq_some hfind)

/-- An upstream over TCP that sends one frame. -/
def sends (wire : Bytes) : Exchange :=
  .plain ⟨.tcp, false⟩ { conns := fun _ => (⟨none, none, [.frame ⟨wire, 1, 2⟩], none⟩, {}) }

def answerCodec : Codec := tableCodec [(exampleAnswer, exampleAnswerWire)]

theorem answerCodec_decodesHeader : answerCodec.DecodesHeader :=
  tableCodec_decodesHeader (by
    rintro e he
    obtain rfl := List.mem_singleton.mp he
    exact ⟨0, 1, 0x81, _, rfl, by decide, rfl, rfl, rfl⟩)

theorem decision_agrees_answer :
    ((sends exampleAnswerWire).run answerCodec exampleQuery fresh).session.Decided exampleAnswer :=
  (decision_agrees_iff answerCodec answerCodec_decodesHeader (sends exampleAnswerWire) exampleQuery
    exampleAnswer (by decide +kernel) (by decide +kernel)).mpr
    ⟨exampleAnswerWire, by decide +kernel, 0x81, rfl, by decide⟩

/-- The answer with the QR bit cleared: a query with an answer section. -/
def unflaggedAnswer : Msg := { exampleAnswer with response := false }

def unflaggedWire : Bytes := [0, 1, 0x01, 0x80] ++ exampleAnswerWire.drop 4

/-- The message without the QR bit is returned as the response, and the decision is that
there was none. -/
theorem decision_differs :
    let a := (sends unflaggedWire).run (tableCodec [(unflaggedAnswer, unflaggedWire)]) exampleQuery
      fresh
    a.resp = some unflaggedAnswer ∧ a.err = none ∧
      a.session.state.map (fun st => (st.finished, st.result)) =
        some (true, { err := some .noReply }) := by
  decide +kernel

/-! ## The answer -/

/-- The message answers the question of the request. -/
structure Answers (req m : Msg) : Prop where
  response : m.response = true
  id : m.id = req.id
  one : m.question.length = 1
  qtype : m.firstQuestion.qtype = req.firstQuestion.qtype
  qclass : m.firstQuestion.qclass = req.firstQuestion.qclass
  name : toLower m.firstQuestion.name = toLower req.firstQuestion.name

def ASCII (s : Bytes) : Prop := ∀ b ∈ s, b < 128

instance (s : Bytes) : Decidable (ASCII s) := inferInstanceAs (Decidable (∀ b ∈ s, b < 128))

/-- Names are decoded to printable characters, with escapes for the others. -/
def Codec.PresentsNames (c : Codec) : Prop :=
  ∀ wire m, c.unpack wire = some m → ∀ q ∈ m.question, ASCII q.name

/-- Between names of ASCII characters the folding is that of ASCII. -/
def Codec.FoldsASCII (c : Codec) : Prop :=
  ∀ a b, ASCII a → ASCII b → (c.equalFold a b = true ↔ toLower a = toLower b)

/-- What the received message must be for the response to be an answer. -/
structure Asked (c : Codec) (req : Msg) (wire : Bytes) : Prop where
  qr : HasQR wire
  qclass : ∀ m, c.unpack wire = some m → m.firstQuestion.qclass = req.firstQuestion.qclass
  name : ASCII req.firstQuestion.name ∨
    ∀ m, c.unpack wire = some m →
      toLower m.firstQuestion.name = toLower req.firstQuestion.name

theorem validateResponse_eq_none (h : validateResponse c req m = none) :
    m.question.length = 1 ∧ m.firstQuestion.qtype = req.firstQuestion.qtype ∧
      c.equalFold req.firstQuestion.name m.firstQuestion.name = true := by
  unfold validateResponse at h
  split at h
  · cases h
  · next hone =>
    simp only at h
    split at h
    · cases h
    · next htype =>
      split at h
      · cases h
      · next hname =>
        exact ⟨Decidable.not_not.mp hone, (Decidable.not_not.mp htype).symm, by simpa using hname⟩

theorem firstQuestion_mem (h : m.question.length = 1) : m.firstQuestion ∈ m.question := by
  obtain ⟨q, hq⟩ := List.length_eq_one_iff.mp h
  rw [Msg.firstQuestion, hq]
  exact List.mem_singleton.mpr rfl

/-- A response that is returned without an error answers the question that was asked, if
and only if the message that was received last has the QR bit and the class of the
question, and the name if that of the request is not of ASCII characters. -/
theorem returned_answers_iff (c : Codec) (hc : c.DecodesHeader) (hnames : c.PresentsNames)
    (hfold : c.FoldsASCII) (x : Exchange) (hchecked : x.checked = true) (req resp : Msg)
    (s : Session) (hresp : (x.run c req s).resp = some resp) (herr : (x.run c req s).err = none) :
    Answers req resp ↔
      ∃ wire, (x.run c req s).session.frames.getLast? = some wire ∧ Asked c req wire := by
  obtain ⟨s₁, a, m, wire, hstart, hdel, hrun⟩ := run_delivery hc herr
  rw [hrun] at hresp ⊢
  obtain rfl : { m with id := req.id } = resp := Option.some.inj (hdel.resp.symm.trans hresp)
  obtain ⟨hone, htype, heq⟩ := validateResponse_eq_none (hdel.valid hchecked)
  have hm : ∀ m', c.unpack wire = some m' → m' = m :=
    fun m' h => Option.some.inj (h.symm.trans hdel.decoded)
  constructor
  · intro hans
    refine ⟨wire, hdel.last, (hasQR_iff hc hdel.decoded).mpr hans.response, ?_, .inr ?_⟩
    · intro m' hm'
      rw [hm m' hm']
      exact hans.qclass
    · intro m' hm'
      rw [hm m' hm']
      exact hans.name
  · rintro ⟨wire', hlast, hasked⟩
    obtain rfl : wire = wire' := Option.some.inj (hdel.last.symm.trans hlast)
    refine ⟨(hasQR_iff hc hdel.decoded).mp hasked.qr, rfl, hone, htype,
      hasked.qclass m hdel.decoded, ?_⟩
    rcases hasked.name with hascii | hname
    · have hpresented := hnames wire m hdel.decoded _ (firstQuestion_mem hone)
      exact ((hfold _ _ hascii hpresented).mp heq).symm
    · exact hname m hdel.decoded

theorem tableCodec_presentsNames {table : List (Msg × Bytes)}
    (h : ∀ e ∈ table, ∀ q ∈ e.1.question, ASCII q.name) : (tableCodec table).PresentsNames := by
  intro wire m hdec
  obtain ⟨e, hfind, rfl⟩ := Option.map_eq_some_iff.mp hdec
  exact h e (List.mem_of_find?_eq_some hfind)

theorem tableCodec_foldsASCII (table : List (Msg × Bytes)) : (tableCodec table).FoldsASCII :=
  fun _ _ _ _ => decide_eq_true_iff

theorem returned_answers_example :
    ((sends exampleAnswerWire).run answerCodec exampleQuery fresh).resp = some exampleAnswer ∧
      Answers exampleQuery exampleAnswer := by
  have hresp : ((sends exampleAnswerWire).run answerCodec exampleQuery fresh).resp =
      some exampleAnswer := by decide +kernel
  have hdec : answerCodec.unpack exampleAnswerWire = some exampleAnswer := by decide +kernel
  refine ⟨hresp, (returned_answers_iff answerCodec answerCodec_decodesHeader
    (tableCodec_presentsNames (by decide +kernel)) (tableCodec_foldsASCII _)
    (sends exampleAnswerWire) rfl exampleQuery exampleAnswer fresh hresp
    (by decide +kernel)).mpr ⟨exampleAnswerWire, by decide +kernel, ⟨0x81, rfl, by decide⟩, ?_,
      .inl (by decide +kernel)⟩⟩
  intro m hm
  rw [← Option.some.inj (hdec.symm.trans hm)]
  rfl

/-- The answer to the question of another class. -/
def chaosAnswer : Msg := { exampleAnswer with question := [⟨exampleOrg, typeA, 3⟩] }

def chaosWire : Bytes :=
  exampleAnswerWire.take 12 ++ exampleOrgWire ++ [0, 1, 0, 3] ++ exampleAnswerWire.drop 29

/-- A message without the QR bit, and one with the question in another class, are
returned as responses. -/
theorem returned_not_answers :
    let a := (sends unflaggedWire).run (tableCodec [(unflaggedAnswer, unflaggedWire)]) exampleQuery
      fresh
    let a' := (sends chaosWire).run (tableCodec [(chaosAnswer, chaosWire)]) exampleQuery fresh
    a.resp = some unflaggedAnswer ∧ a.err = none ∧ unflaggedAnswer.response = false ∧
      a'.resp = some chaosAnswer ∧ a'.err = none ∧
      chaosAnswer.firstQuestion.qclass ≠ exampleQuery.firstQuestion.qclass := by
  decide +kernel

end DnsProxy.Transport
