import DnsProxy.Request

/-!
# Responses to clients

From a request that a listener has received to the messages that are written for it:
the pipeline with its handlers, the write, and what the loop of each protocol makes of
the error that the pipeline returns.

* `one_response_iff`: at most one response is written, unless the request came over
  DNSCrypt, was answered, and an error was returned nevertheless: the DNSCrypt server
  answers errors itself. A request that is dropped gets none.
-/

namespace DnsProxy

/-! ## The pipeline -/

inductive HandlerErr
  /-- `ErrDrop`, or an error that wraps it. -/
  | drop
  | failed (code : Nat)
deriving DecidableEq, Repr

/-- What a middleware does with a request. -/
inductive Passed
  /-- It calls the rest of the pipeline, and may have set the response. -/
  | next (res : Option Msg)
  /-- It returns by itself. -/
  | done (err : Option HandlerErr)

/-- What became of a write. -/
structure Written where
  sent : Bool
  err : Option Nat := none
deriving DecidableEq, Repr

/-- What the checks of a message ask about its QUIC connection. -/
structure QUICState where
  used0RTT : Bool
  handshakeComplete : Bool
deriving DecidableEq, Repr

def newQUICState : QUICState := ⟨false, true⟩

/-- The handlers, and what happens when the client is written to. A handler is given by
the response that it leaves in the context and by its error. -/
structure Handling where
  middleware : DNSContext → Passed := fun d => .next d.res
  requestHandler : DNSContext → Option Msg × Option HandlerErr
  /-- Without a response handler the response stays as it is. -/
  responseHandler : DNSContext → Option Msg × Option HandlerErr := fun d => (d.res, none)
  /-- The write of the response. -/
  write : Written
  /-- The error of closing a TCP connection. -/
  close : Option Nat := none
  /-- The error of acquiring a permit for a DNSCrypt request. -/
  acquire : Option Nat := none
  /-- The write of a server failure by the DNSCrypt server. -/
  writeFailure : Written
  /-- The QUIC connection that the request comes over. -/
  quic : QUICState := newQUICState

/-- The messages written to the client, and the error returned. -/
structure Reply where
  sent : List Msg
  err : Option HandlerErr
deriving DecidableEq, Repr

def Handling.writeMsg (h : Handling) (m : Msg) : Reply :=
  ⟨if h.write.sent then [m] else [], h.write.err.map .failed⟩

/-- Without a response a TCP or QUIC connection is closed, and an HTTP request gets a
status and no DNS message. -/
def Proxy.respond (pf : Platform) (h : Handling) (proto : Proto) : Option Msg → Reply
  | none =>
    match proto with
    | .udp | .https | .dnsCrypt => ⟨[], none⟩
    | .tcp | .tls => ⟨[], h.close.map .failed⟩
    | .quic | .unset => ⟨[], some (.failed 0)⟩
  | some m =>
    match proto with
    | .unset => ⟨[], some (.failed 0)⟩
    | .dnsCrypt => h.writeMsg m
    | _ =>
      match pf.pack m with
      | none => ⟨[], some (.failed 0)⟩
      | some _ => h.writeMsg m

section Pipeline

variable (pf : Platform) (p : Proxy) (rd : RecursionDetector) (h : Handling) (now : Instant)

/-- The response handler, which gets a context with the response, and its error joined to
that of the request handler. -/
def prepareResponse (d : DNSContext) (err : Option HandlerErr) :
    Except (Option HandlerErr) (Option Msg × Option HandlerErr) :=
  match h.responseHandler d with
  | (_, some .drop) => .error (some .drop)
  | (res, prepareErr) => .ok (res, err.or prepareErr)

/-- The pipeline up to the write: the response and the error of the handlers, or what is
returned without writing anything. -/
def Proxy.prepareReply (d : DNSContext) :
    Except (Option HandlerErr) (Option Msg × Option HandlerErr) :=
  match h.middleware d with
  | .done err => .error err
  | .next res =>
    match p.processDNSRequest pf rd { d with res := res } now with
    | .dropped => .error (some .drop)
    | .answered d => prepareResponse h d none
    | .handled d =>
      match h.requestHandler d with
      | (_, some .drop) => .error (some .drop)
      | (res, err) => prepareResponse h { d with res := res } err

def Proxy.requestPipeline (d : DNSContext) : Reply :=
  match p.prepareReply pf rd h now d with
  | .error err => ⟨[], err⟩
  | .ok (res, err) =>
    let r := Proxy.respond pf h d.proto res
    ⟨r.sent, err.or r.err⟩

/-- Drops are not errors to the loops of the protocols. -/
def Proxy.handleDNSRequest (d : DNSContext) : Reply :=
  let r := p.requestPipeline pf rd h now d
  if r.err = some .drop then ⟨r.sent, none⟩ else r

/-! ## The listeners -/

/-- What a listener has read: a message, or what `Unpack` has left of one that it cannot
decode. -/
inductive Arrival
  | request (req : Msg)
  | malformed (left : Msg)

/-- The context that is made for it. -/
def Arrival.context (addr : Addr) (proto : Proto) : Arrival → DNSContext
  | .request req => { addr := addr, proto := proto, req := req }
  | .malformed left =>
    { addr := addr, proto := proto, req := left, res := some (newMsgFORMERR left) }

/-- `dns.MsgHdr` of a message, as a message without the rest. -/
def Msg.header (m : Msg) : Msg :=
  { m with compress := false, question := [], answer := [], ns := [], extra := [] }

instance (m : Msg) : Decidable (m.header = {}) := inferInstanceAs (Decidable (_ = _))

def edns0TCPKeepalive : UInt16 := 11

def opcodeNotify : Nat := 4

def isReplayableOpcode (opcode : Nat) : Bool := opcode == opcodeQuery || opcode == opcodeNotify

def isNonReplayableEarlyData (conn : QUICState) (req : Msg) : Bool :=
  if isReplayableOpcode req.opcode then false
  else if !conn.used0RTT then false
  else !conn.handshakeComplete

/-- A connection is closed on a request with a keepalive option, and on early data that may
not be replayed. -/
def validQUICMsg (conn : QUICState) (req : Msg) : Bool :=
  (match req.isEdns0 with
    | none => true
    | some opt =>
      opt.options.all fun
        | .subnet .. => true
        | .other code _ => code != edns0TCPKeepalive) &&
    !isNonReplayableEarlyData conn req

/-- `dnsCryptHandler.ServeDNS`. -/
def Proxy.dnsCryptServeDNS (addr : Addr) (req : Msg) : Reply :=
  match h.acquire with
  | some e => ⟨[], some (.failed e)⟩
  | none => p.handleDNSRequest pf rd h now ((Arrival.request req).context addr .dnsCrypt)

/-- `dnscrypt.Server.serveDNS`. An error of the handler is answered with a server
failure. -/
def Proxy.serveDNSCrypt (addr : Addr) (req : Msg) : List Msg :=
  if req.question.length ≠ 1 ∨ req.response = true then []
  else
    let r := p.dnsCryptServeDNS pf rd h now addr req
    match r.err with
    | none => r.sent
    | some _ =>
      r.sent ++ if h.writeFailure.sent then [({} : Msg).setRcode req rcodeServerFailure] else []

/-- The messages written to the client at `addr` for what it has sent. -/
def Proxy.serve (addr : Addr) (proto : Proto) (a : Arrival) : List Msg :=
  match a with
  | .request req =>
    if proto = .dnsCrypt then p.serveDNSCrypt pf rd h now addr req
    else if proto = .quic ∧ ¬validQUICMsg h.quic req = true then []
    else (p.handleDNSRequest pf rd h now (a.context addr proto)).sent
  | .malformed left =>
    -- only over UDP a message that cannot be decoded is answered
    if proto = .udp ∧ left.header ≠ {} then
      (p.handleDNSRequest pf rd h now (a.context addr proto)).sent
    else []

/-- The pipeline is entered and returns `ErrDrop`. -/
def Proxy.Drops (addr : Addr) (proto : Proto) (a : Arrival) : Prop :=
  (proto = .dnsCrypt → h.acquire = none) ∧
    (p.requestPipeline pf rd h now (a.context addr proto)).err = some .drop

/-- The response handler is given the context `d'`, and the request handler returned
`err`. -/
inductive Proxy.Prepares (d : DNSContext) : DNSContext → Option HandlerErr → Prop
  /-- A check of the request has set the response. -/
  | checked {res : Option Msg} {d' : DNSContext} (hnext : h.middleware d = .next res)
      (hproc : p.processDNSRequest pf rd { d with res := res } now = .answered d') :
      Prepares d d' none
  | handled {res res' : Option Msg} {d' : DNSContext} {err : Option HandlerErr}
      (hnext : h.middleware d = .next res)
      (hproc : p.processDNSRequest pf rd { d with res := res } now = .handled d')
      (hreq : h.requestHandler d' = (res', err)) (hdrop : err ≠ some .drop) :
      Prepares d { d' with res := res' } err

/-- A DNSCrypt request is answered, its handlers or the write return an error
nevertheless, and the server failure of the DNSCrypt server can be written as well. -/
structure Proxy.AnsweredTwice (addr : Addr) (proto : Proto) (a : Arrival) : Prop where
  encrypted : proto = .dnsCrypt
  valid : ∃ req, a = .request req ∧ req.question.length = 1 ∧ req.response = false
  acquired : h.acquire = none
  failed : ∃ d err m err', p.Prepares pf rd h now (a.context addr proto) d err ∧
    h.responseHandler d = (some m, err') ∧ err' ≠ some .drop ∧
    (err ≠ none ∨ err' ≠ none ∨ h.write.err ≠ none)
  sent : h.write.sent = true
  failureSent : h.writeFailure.sent = true

end Pipeline

/-! ## At most one response -/

section Count

variable {pf : Platform} {p : Proxy} {rd : RecursionDetector} {h : Handling} {now : Instant}

theorem length_writeMsg_le (m : Msg) : (h.writeMsg m).sent.length ≤ 1 := by
  unfold Handling.writeMsg
  split <;> simp

theorem length_respond_le (proto : Proto) (res : Option Msg) :
    (Proxy.respond pf h proto res).sent.length ≤ 1 := by
  cases res with
  | none => cases proto <;> exact Nat.zero_le _
  | some m =>
    cases proto with
    | unset => exact Nat.zero_le _
    | dnsCrypt => exact length_writeMsg_le m
    | _ =>
      simp only [Proxy.respond]
      split
      · exact Nat.zero_le _
      · exact length_writeMsg_le m

theorem handleDNSRequest_sent (d : DNSContext) :
    (p.handleDNSRequest pf rd h now d).sent = (p.requestPipeline pf rd h now d).sent := by
  unfold Proxy.handleDNSRequest
  simp only
  split <;> rfl

variable (pf p rd h now) in
theorem length_handleDNSRequest_le (d : DNSContext) :
    (p.handleDNSRequest pf rd h now d).sent.length ≤ 1 := by
  rw [handleDNSRequest_sent, Proxy.requestPipeline]
  split
  · exact Nat.zero_le _
  · exact length_respond_le d.proto _

variable {d : DNSContext} {r : Option Msg × Option HandlerErr}

theorem prepareResponse_eq_ok {err : Option HandlerErr} : prepareResponse h d err = .ok r ↔
      ∃ res err', h.responseHandler d = (res, err') ∧ err' ≠ some .drop ∧
        r = (res, err.or err') := by
  unfold prepareResponse
  split
  · next res hresp => simp [hresp]
  · next res err' hdrop hresp =>
    constructor
    · rintro ⟨⟩
      exact ⟨res, err', hresp, hdrop, rfl⟩
    · rintro ⟨_, _, hresp', -, rfl⟩
      cases hresp.symm.trans hresp'
      rfl

theorem prepareReply_eq_ok :
    p.prepareReply pf rd h now d = .ok r ↔
      ∃ d' err, p.Prepares pf rd h now d d' err ∧ prepareResponse h d' err = .ok r := by
  unfold Proxy.prepareReply
  constructor
  · intro hok
    split at hok
    · cases hok
    · next res hnext =>
      split at hok
      · cases hok
      · next d' hproc => exact ⟨d', none, .checked hnext hproc, hok⟩
      · next d' hproc =>
        split at hok
        · cases hok
        · next res' err hdrop hreq =>
          exact ⟨_, err, .handled hnext hproc hreq hdrop, hok⟩
  · rintro ⟨d', err, hprep, hok⟩
    cases hprep with
    | checked hnext hproc => simp only [hnext, hproc, hok]
    | handled hnext hproc hreq hdrop => simp only [hnext, hproc, hreq, hok]

theorem prepareReply_err (hok : p.prepareReply pf rd h now d = .ok r) : r.2 ≠ some .drop := by
  obtain ⟨d', err, hprep, hok⟩ := prepareReply_eq_ok.mp hok
  obtain ⟨res, err', -, hdrop', rfl⟩ := prepareResponse_eq_ok.mp hok
  have hdrop : err ≠ some .drop := by
    cases hprep with
    | checked => exact (Option.some_ne_none _).symm
    | handled _ _ _ hdrop => exact hdrop
  intro heq
  rcases Option.or_eq_some_iff.mp heq with herr | ⟨-, herr⟩
  · exact hdrop herr
  · exact hdrop' herr

theorem respond_err (proto : Proto) (res : Option Msg) :
    (Proxy.respond pf h proto res).err ≠ some .drop := by
  have hmap : ∀ e : Option Nat, e.map HandlerErr.failed ≠ some .drop := by
    intro e heq
    cases e <;> cases heq
  cases res with
  | none => cases proto <;> first | exact hmap _ | exact fun heq => by cases heq
  | some m =>
    cases proto with
    | unset => exact fun heq => by cases heq
    | dnsCrypt => exact hmap _
    | _ =>
      simp only [Proxy.respond]
      split
      · exact fun heq => by cases heq
      · exact hmap _

theorem requestPipeline_drop (hdrop : (p.requestPipeline pf rd h now d).err = some .drop) :
    (p.requestPipeline pf rd h now d).sent = [] := by
  unfold Proxy.requestPipeline at hdrop ⊢
  split
  · rfl
  · next res err hok =>
    rw [hok] at hdrop
    rcases Option.or_eq_some_iff.mp hdrop with herr | ⟨-, herr⟩
    · exact absurd herr (prepareReply_err hok)
    · exact absurd herr (respond_err d.proto res)

theorem handleDNSRequest_err {res : Option Msg} {err : Option HandlerErr}
    (hok : p.prepareReply pf rd h now d = .ok (res, err)) :
    (p.handleDNSRequest pf rd h now d).err = err.or (Proxy.respond pf h d.proto res).err := by
  have hpipe : (p.requestPipeline pf rd h now d).err =
      err.or (Proxy.respond pf h d.proto res).err := by
    rw [Proxy.requestPipeline, hok]
  unfold Proxy.handleDNSRequest
  simp only
  split
  · next hdrop =>
    rw [hpipe] at hdrop
    rcases Option.or_eq_some_iff.mp hdrop with herr | ⟨-, herr⟩
    · exact absurd herr (prepareReply_err hok)
    · exact absurd herr (respond_err d.proto res)
  · exact hpipe

theorem or_ne_none {α : Type} {a b : Option α} : a.or b ≠ none ↔ a ≠ none ∨ b ≠ none := by
  cases a <;> simp

theorem prepares_failed_iff :
    (∃ d' err m err', p.Prepares pf rd h now d d' err ∧ h.responseHandler d' = (some m, err') ∧
      err' ≠ some .drop ∧ (err ≠ none ∨ err' ≠ none ∨ h.write.err ≠ none)) ↔
    ∃ m err, p.prepareReply pf rd h now d = .ok (some m, err) ∧
      (err ≠ none ∨ h.write.err ≠ none) := by
  constructor
  · rintro ⟨d', err, m, err', hprep, hresp, hdrop, hfail⟩
    refine ⟨m, err.or err', prepareReply_eq_ok.mpr ⟨d', err, hprep, ?_⟩, ?_⟩
    · exact prepareResponse_eq_ok.mpr ⟨_, _, hresp, hdrop, rfl⟩
    · rwa [or_ne_none, or_assoc]
  · rintro ⟨m, e, hok, hfail⟩
    obtain ⟨d', err, hprep, hok⟩ := prepareReply_eq_ok.mp hok
    obtain ⟨_, err', hresp, hdrop, heq⟩ := prepareResponse_eq_ok.mp hok
    cases heq
    rw [or_ne_none, or_assoc] at hfail
    exact ⟨d', err, m, err', hprep, hresp, hdrop, hfail⟩

theorem answered_failed_iff (hproto : d.proto = .dnsCrypt) :
    (p.handleDNSRequest pf rd h now d).sent.length = 1 ∧
      (p.handleDNSRequest pf rd h now d).err ≠ none ↔
    (∃ d' err m err', p.Prepares pf rd h now d d' err ∧ h.responseHandler d' = (some m, err') ∧
      err' ≠ some .drop ∧ (err ≠ none ∨ err' ≠ none ∨ h.write.err ≠ none)) ∧
      h.write.sent = true := by
  rw [prepares_failed_iff, handleDNSRequest_sent, Proxy.requestPipeline]
  cases hprep : p.prepareReply pf rd h now d with
  | error e => simp
  | ok r =>
    obtain ⟨res, err⟩ := r
    rw [handleDNSRequest_err hprep, hproto]
    cases res with
    | none => simp [Proxy.respond]
    | some m =>
      have herr : h.write.err.map HandlerErr.failed ≠ none ↔ h.write.err ≠ none := by simp
      simp only [Proxy.respond, Handling.writeMsg, or_ne_none, herr]
      cases h.write.sent <;> simp

theorem answeredTwice_iff (addr : Addr) (req : Msg) :
    p.AnsweredTwice pf rd h now addr .dnsCrypt (.request req) ↔
      (req.question.length = 1 ∧ req.response = false) ∧ h.acquire = none ∧
      ((p.handleDNSRequest pf rd h now ((Arrival.request req).context addr .dnsCrypt)).sent.length
        = 1 ∧
      (p.handleDNSRequest pf rd h now ((Arrival.request req).context addr .dnsCrypt)).err ≠ none) ∧
      h.writeFailure.sent = true := by
  rw [answered_failed_iff rfl]
  constructor
  · rintro ⟨-, ⟨_, heq, hvalid⟩, hacq, hfailed, hsent, hfailure⟩
    cases heq
    exact ⟨hvalid, hacq, ⟨hfailed, hsent⟩, hfailure⟩
  · rintro ⟨hvalid, hacq, ⟨hfailed, hsent⟩, hfailure⟩
    exact ⟨rfl, ⟨req, rfl, hvalid⟩, hacq, hfailed, hsent, hfailure⟩

theorem length_concat_le_one_iff {l : List Msg} (hl : l.length ≤ 1) (m : Msg) :
    (l ++ [m]).length ≤ 1 ↔ ¬l.length = 1 := by
  rw [List.length_append, List.length_singleton]
  omega

/-- Two messages are written for a DNSCrypt request if and only if it is answered by the
pipeline and the error is answered as well. -/
theorem length_serveDNSCrypt_le_iff (addr : Addr) (req : Msg) :
    (p.serveDNSCrypt pf rd h now addr req).length ≤ 1 ↔
      ¬p.AnsweredTwice pf rd h now addr .dnsCrypt (.request req) := by
  rw [answeredTwice_iff, Proxy.serveDNSCrypt]
  split
  · next hinvalid =>
    refine iff_of_true (Nat.zero_le _) ?_
    rintro ⟨⟨hone, hresp⟩, -⟩
    rcases hinvalid with h | h
    · exact h hone
    · rw [hresp] at h
      cases h
  · next hvalid =>
    have hvalid : req.question.length = 1 ∧ req.response = false := by simpa using hvalid
    simp only [hvalid, Proxy.dnsCryptServeDNS, true_and]
    cases hacq : h.acquire with
    | some e => cases h.writeFailure.sent <;> simp
    | none =>
      have hle := length_handleDNSRequest_le pf p rd h now
        ((Arrival.request req).context addr .dnsCrypt)
      simp only [true_and]
      split
      · next herr => simpa [herr] using hle
      · next e herr =>
        cases h.writeFailure.sent
        · simpa using hle
        · simpa [herr] using length_concat_le_one_iff hle (Msg.setRcode {} req rcodeServerFailure)

end Count

theorem serve_pipeline (pf : Platform) (p : Proxy) (rd : RecursionDetector) (h : Handling)
    (now : Instant) (addr : Addr) {proto : Proto} {a : Arrival}
    (ha : proto ≠ .dnsCrypt ∨ ∃ left, a = .malformed left) :
    p.serve pf rd h now addr proto a = [] ∨ p.serve pf rd h now addr proto a =
      (p.handleDNSRequest pf rd h now (a.context addr proto)).sent := by
  cases a with
  | request req =>
    rcases ha with hproto | ⟨left, heq⟩
    · rw [Proxy.serve, if_neg hproto]
      by_cases hclosed : proto = .quic ∧ ¬validQUICMsg h.quic req = true
      · exact .inl (if_pos hclosed)
      · exact .inr (if_neg hclosed)
    · cases heq
  | malformed left =>
    by_cases hanswered : proto = .udp ∧ left.header ≠ {}
    · exact .inr (if_pos hanswered)
    · exact .inl (if_neg hanswered)

/-- At most one response is written for what a client has sent, if and only if it is not
answered twice; and none for a request that is dropped. -/
theorem one_response_iff (pf : Platform) (p : Proxy) (rd : RecursionDetector) (h : Handling)
    (now : Instant) (addr : Addr) (proto : Proto) (a : Arrival) :
    ((p.serve pf rd h now addr proto a).length ≤ 1 ↔ ¬p.AnsweredTwice pf rd h now addr proto a) ∧
    (p.Drops pf rd h now addr proto a → p.serve pf rd h now addr proto a = []) := by
  by_cases ha : proto ≠ .dnsCrypt ∨ ∃ left, a = .malformed left
  · have hserve := serve_pipeline pf p rd h now addr ha
    refine ⟨iff_of_true ?_ ?_, ?_⟩
    · rcases hserve with heq | heq
      · rw [heq]
        exact Nat.zero_le _
      · rw [heq]
        exact length_handleDNSRequest_le pf p rd h now _
    · rintro ⟨hproto, ⟨req, rfl, -⟩, -⟩
      rcases ha with hne | ⟨left, heq⟩
      · exact hne hproto
      · cases heq
    · rintro ⟨-, hdrop⟩
      rcases hserve with heq | heq
      · exact heq
      · rw [heq, handleDNSRequest_sent, requestPipeline_drop hdrop]
  · rw [not_or, not_not] at ha
    obtain ⟨rfl, hrequest⟩ := ha
    cases a with
    | malformed left => exact absurd ⟨left, rfl⟩ hrequest
    | request req =>
      have hserve : p.serve pf rd h now addr .dnsCrypt (.request req) =
          p.serveDNSCrypt pf rd h now addr req := rfl
      rw [hserve]
      refine ⟨length_serveDNSCrypt_le_iff addr req, ?_⟩
      rintro ⟨hacq, hdrop⟩
      have hreply : p.handleDNSRequest pf rd h now ((Arrival.request req).context addr .dnsCrypt) =
          ⟨[], none⟩ := by
        simp only [Proxy.handleDNSRequest, hdrop, if_pos, requestPipeline_drop hdrop]
      simp only [Proxy.serveDNSCrypt, Proxy.dnsCryptServeDNS, hacq rfl, hreply, ite_self]

/-- `Resolve` of a request that is not in the cache when the upstream times out: it leaves
a server failure and returns the error. -/
def failingHandler (d : DNSContext) : Option Msg × Option HandlerErr :=
  let d := (exampleProxy.prepare examplePlatform d).1
  let r := exampleProxy.replyFromUpstream examplePlatform ⟨timingOut, timingOut, timingOut, 0⟩ d
  ((complete examplePlatform r.ctx).res, r.err.map fun _ => .failed 1)

def noRecursion : RecursionDetector := ⟨fun _ => none, 0⟩

/-- A DNSCrypt client gets two server failures. -/
theorem answered_twice :
    exampleProxy.serve examplePlatform noRecursion
      { requestHandler := failingHandler, write := ⟨true, none⟩, writeFailure := ⟨true, none⟩ }
      .epoch [192, 0, 2, 77] .dnsCrypt (.request exampleQuery) =
      [{ newMsgSERVFAIL exampleQuery with compress := true },
        ({} : Msg).setRcode exampleQuery rcodeServerFailure] := by
  decide +kernel

end DnsProxy
