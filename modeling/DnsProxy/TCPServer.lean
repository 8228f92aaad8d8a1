import DnsProxy.DnsCrypt.Session
import DnsProxy.DoQServer

/-!
# Connections of TCP and TLS clients

`handleTCPConnection` of the proxy, from the bytes that come in over a connection to the bytes
that are written to it. A client may send any number of requests before it reads the first
response.

* `serveTCP_eq`: what one request does to the connection.
* `handleTCPConnection_eq`: what all requests do.
* `tcpConnection_answers`: what the client reads are the responses to its requests, in their
  order.
-/

namespace DnsProxy

open ByteStream (Reader)
open DnsCrypt (uncompressed)

/-! ## The loop -/

/-- A connection as the proxy writes to it. -/
structure ClientConn where
  out : Outgoing := {}
  closed : Bool := false
deriving DecidableEq, Repr

inductive RespondTCPErr
  | packing
  | writing (e : WriteErr)
deriving DecidableEq, Repr

/-- `respondTCP`, without the error of closing the connection. -/
def respondTCP (pf : Platform) (res : Option Msg) (conn : ClientConn) :
    Option RespondTCPErr × ClientConn :=
  match res with
  | none => (none, { conn with closed := true })
  | some resp =>
    match pf.pack resp with
    | none => (some .packing, conn)
    | some bytes =>
      let (err, out) := writePrefixed bytes conn.out
      (err.map .writing, { conn with out })

/-- `readDNSReq`: the request, and the connection behind it. -/
def readDNSReq {ε : Type} (pf : Platform) (conn : Reader ε) : Option (Msg × Reader ε) :=
  match readPrefixed conn with
  | (.error _, _) => none
  | (.ok packet, conn) => (pf.unpack packet).map (·, conn)

theorem length_readDNSReq_lt {ε : Type} {pf : Platform} {conn conn' : Reader ε} {req : Msg}
    (h : readDNSReq pf conn = some (req, conn')) : conn'.data.length < conn.data.length := by
  unfold readDNSReq at h
  split at h
  · cases h
  · next packet conn₁ hread =>
    obtain ⟨_, -, heq⟩ := Option.map_eq_some_iff.mp h
    cases heq
    exact length_readPrefixed_lt .proxy hread

/-- What there is while one request of a connection is handled. -/
structure Turn where
  /-- `isStarted`, before the request is read. -/
  started : Bool := true
  rd : RecursionDetector
  handling : Handling
  now : Instant

section Loop

variable (pf : Platform) (p : Proxy) (addr : Addr) (proto : Proto)

/-- The pipeline up to the write, for a request of the client at `addr`. -/
def Proxy.prepareAt (t : Turn) (req : Msg) :
    Except (Option HandlerErr) (Option Msg × Option HandlerErr) :=
  p.prepareReply pf t.rd t.handling t.now ((Arrival.request req).context addr proto)

/-- `handleDNSRequest` on a connection; the loop only logs its error. -/
def Proxy.serveTCP (t : Turn) (req : Msg) (conn : ClientConn) : ClientConn :=
  match p.prepareAt pf addr proto t req with
  | .error _ => conn
  | .ok (res, _) => (respondTCP pf res conn).2

/-- `handleTCPConnection`, from the request with the number `turn` on. -/
def Proxy.handleTCPConnection {ε : Type} (turns : Nat → Turn) (turn : Nat) (conn : Reader ε)
    (client : ClientConn) : ClientConn :=
  -- A connection that has been closed is not read from.
  if (turns turn).started = false ∨ client.closed = true then { client with closed := true }
  else
    match h : readDNSReq pf conn with
    | none => { client with closed := true }
    | some (req, conn') =>
      have : conn'.data.length < conn.data.length := length_readDNSReq_lt h
      Proxy.handleTCPConnection turns (turn + 1) conn'
        (p.serveTCP pf addr proto (turns turn) req client)
termination_by conn.data.length

/-! ## What is written -/

/-- There is no response to the request, which closes the connection. -/
def Proxy.closes (t : Turn) (req : Msg) : Bool :=
  match p.prepareAt pf addr proto t req with
  | .ok (none, _) => true
  | _ => false

/-- The packed response to a request; there is none if the request is dropped, or if the
response has no frame. -/
def Proxy.answer (t : Turn) (req : Msg) : Option Bytes :=
  match p.prepareAt pf addr proto t req with
  | .ok (some res, _) => (pf.pack res).filter (·.length ≤ 65535)
  | _ => none

/-- The responses to the requests, up to the first that closes the connection. -/
def Proxy.answers (turns : Nat → Turn) (turn : Nat) (reqs : List Msg) : List Bytes :=
  ((reqs.zipIdx turn).takeWhile fun e =>
    (turns e.2).started && !p.closes pf addr proto (turns e.2) e.1).filterMap fun e =>
      p.answer pf addr proto (turns e.2) e.1

variable {pf p addr proto}

/-- One request adds its response to what is sent, and may close the connection. -/
theorem serveTCP_eq (t : Turn) (req : Msg) (sent : Bytes) :
    p.serveTCP pf addr proto t req ⟨⟨sent, none⟩, false⟩ =
      ⟨⟨sent ++ frames (p.answer pf addr proto t req).toList, none⟩,
        p.closes pf addr proto t req⟩ := by
  unfold Proxy.serveTCP Proxy.answer Proxy.closes
  match p.prepareAt pf addr proto t req with
  | .error _ => simp
  | .ok (none, _) => simp [respondTCP]
  | .ok (some res, _) =>
    cases hpack : pf.pack res with
    | none => simp [respondTCP, hpack]
    | some b =>
      rcases Nat.lt_or_ge 65535 b.length with hlong | hle
      · obtain ⟨err, herr⟩ := writePrefixed_tooLong .proxy hlong ⟨sent, none⟩
        simp [respondTCP, hpack, show writePrefixed b ⟨sent, none⟩ = _ from herr,
          Option.filter, Nat.not_le.mpr hlong]
      · simp [respondTCP, hpack,
          show writePrefixed b ⟨sent, none⟩ = _ from writePrefixed_sent .proxy hle sent,
          Option.filter, hle]

theorem length_of_answer {t : Turn} {req : Msg} {b : Bytes}
    (h : p.answer pf addr proto t req = some b) : b.length ≤ 65535 := by
  unfold Proxy.answer at h
  split at h
  · simpa using (Option.filter_eq_some_iff.mp h).2
  · cases h

theorem closes_of_answer {t : Turn} {req : Msg} (h : p.answer pf addr proto t req ≠ none) :
    p.closes pf addr proto t req = false := by
  unfold Proxy.answer at h
  unfold Proxy.closes
  split at h
  · next hprep => rw [hprep]
  · exact absurd rfl h

theorem length_of_mem_answers {turns : Nat → Turn} {turn : Nat} {reqs : List Msg} {b : Bytes}
    (h : b ∈ p.answers pf addr proto turns turn reqs) : b.length ≤ 65535 := by
  obtain ⟨e, -, hanswer⟩ := List.mem_filterMap.mp h
  exact length_of_answer hanswer

theorem answers_cons (turns : Nat → Turn) (turn : Nat) (req : Msg) (reqs : List Msg) :
    p.answers pf addr proto turns turn (req :: reqs) =
      if (turns turn).started && !p.closes pf addr proto (turns turn) req then
        (p.answer pf addr proto (turns turn) req).toList ++
          p.answers pf addr proto turns (turn + 1) reqs
      else [] := by
  unfold Proxy.answers
  rw [List.zipIdx_cons, List.takeWhile_cons]
  split
  · cases h : p.answer pf addr proto (turns turn) req <;> simp [h]
  · rfl

theorem answers_of_answered (turns : Nat → Turn) (turn : Nat) (reqs : List Msg)
    (h : ∀ e ∈ reqs.zipIdx turn, (turns e.2).started = true ∧
      p.answer pf addr proto (turns e.2) e.1 ≠ none) :
    (p.answers pf addr proto turns turn reqs).map some =
      (reqs.zipIdx turn).map fun e => p.answer pf addr proto (turns e.2) e.1 := by
  induction reqs generalizing turn with
  | nil => rfl
  | cons req reqs ih =>
    rw [List.zipIdx_cons] at h ⊢
    obtain ⟨⟨hstarted, hanswer⟩, hrest⟩ := List.forall_mem_cons.mp h
    obtain ⟨b, hb⟩ := Option.ne_none_iff_exists'.mp hanswer
    have hcloses := closes_of_answer hanswer
    dsimp only at hstarted hb hcloses
    rw [answers_cons, hstarted, hcloses, hb]
    simp [hb, ih (turn + 1) hrest]

end Loop

section Runs

variable {ε : Type} {pf : Platform} {p : Proxy} {addr : Addr} {proto : Proto}

theorem handleTCPConnection_over {turns : Nat → Turn} {turn : Nat} {conn : Reader ε}
    {client : ClientConn}
    (h : (turns turn).started = false ∨ client.closed = true ∨ readDNSReq pf conn = none) :
    p.handleTCPConnection pf addr proto turns turn conn client =
      { client with closed := true } := by
  rw [Proxy.handleTCPConnection]
  split
  · rfl
  · next hopen =>
    have hread : readDNSReq pf conn = none := by
      rcases h with h | h | h
      · exact absurd (.inl h) hopen
      · exact absurd (.inr h) hopen
      · exact h
    split
    · rfl
    · next hsome => cases hread.symm.trans hsome

theorem handleTCPConnection_next {turns : Nat → Turn} {turn : Nat} {conn conn' : Reader ε}
    {client : ClientConn} {req : Msg} (hstarted : (turns turn).started = true)
    (hopen : client.closed = false) (hread : readDNSReq pf conn = some (req, conn')) :
    p.handleTCPConnection pf addr proto turns turn conn client =
      p.handleTCPConnection pf addr proto turns (turn + 1) conn'
        (p.serveTCP pf addr proto (turns turn) req client) := by
  rw [Proxy.handleTCPConnection, if_neg (by simp [hstarted, hopen])]
  split
  · next hnone => cases hread.symm.trans hnone
  · next hsome =>
    cases hread.symm.trans hsome
    rfl

/-- The request goes over the connection in the frame of `b`, and is decoded to what it was. -/
structure Framed (pf : Platform) (req : Msg) (b : Bytes) : Prop where
  packed : pf.pack req = some b
  decoded : pf.unpack b = some (uncompressed req)
  fits : b.length ≤ 65535

theorem readDNSReq_frame {conn : Reader ε} {req : Msg} {b rest : Bytes}
    (h : Framed pf req b) (hdata : conn.data = frame b ++ rest) :
    ∃ conn', readDNSReq pf conn = some (uncompressed req, conn') ∧ conn'.data = rest := by
  obtain ⟨conn', hread, hrest, -⟩ := readPrefixed_frame .proxy h.fits hdata
  refine ⟨conn', ?_, hrest⟩
  simp only [readDNSReq, show readPrefixed conn = _ from hread, h.decoded, Option.map_some]

/-- What the proxy writes for the requests of a connection. -/
theorem handleTCPConnection_eq {reqs : List Msg} {bs : List Bytes}
    (hbs : List.Forall₂ (Framed pf) reqs bs) (turns : Nat → Turn) (turn : Nat) {conn : Reader ε}
    (hdata : conn.data = frames bs) (sent : Bytes) :
    p.handleTCPConnection pf addr proto turns turn conn ⟨⟨sent, none⟩, false⟩ =
      ⟨⟨sent ++ frames (p.answers pf addr proto turns turn (reqs.map uncompressed)), none⟩,
        true⟩ := by
  induction hbs generalizing turn conn sent with
  | nil =>
    have hread : readDNSReq pf conn = none := by
      unfold readDNSReq
      split
      · rfl
      · next hok =>
        cases (readPrefixed_end .proxy hdata).symm.trans (congrArg Prod.fst hok)
    rw [handleTCPConnection_over (.inr (.inr hread))]
    simp [Proxy.answers]
  | @cons req b reqs bs hreq _ ih =>
    rw [List.map_cons, answers_cons]
    cases hstarted : (turns turn).started with
    | false =>
      rw [handleTCPConnection_over (.inl hstarted)]
      simp
    | true =>
      obtain ⟨conn', hread, hrest⟩ := readDNSReq_frame hreq hdata
      rw [handleTCPConnection_next hstarted rfl hread, serveTCP_eq]
      cases hcloses : p.closes pf addr proto (turns turn) (uncompressed req) with
      | true =>
        rw [handleTCPConnection_over (.inr (.inl rfl))]
        have hnone : p.answer pf addr proto (turns turn) (uncompressed req) = none := by
          by_contra hanswer
          cases (closes_of_answer hanswer).symm.trans hcloses
        simp [hnone]
      | false =>
        rw [ih (turn + 1) hrest]
        simp

/-- A client that sends its requests over a connection, without waiting for the responses,
reads the responses to its requests in their order, in whatever pieces the bytes come. A
request that is dropped or whose response cannot be sent costs its own response only; one
without a response closes the connection. If all requests are answered, each gets its own
response. -/
theorem tcpConnection_answers {reqs : List Msg} {bs : List Bytes}
    (hbs : List.Forall₂ (Framed pf) reqs bs) (turns : Nat → Turn) {up : Reader ε}
    (hup : up.data = frames bs) {down : Reader ε}
    (hdown : down.data =
      (p.handleTCPConnection pf addr proto turns 0 up {}).out.sent) :
    (FramingPackage.proxy.readMsgs down).1 =
        p.answers pf addr proto turns 0 (reqs.map uncompressed) ∧
      ((∀ e ∈ (reqs.map uncompressed).zipIdx, (turns e.2).started = true ∧
          p.answer pf addr proto (turns e.2) e.1 ≠ none) →
        (FramingPackage.proxy.readMsgs down).1.map some =
          (reqs.map uncompressed).zipIdx.map fun e =>
            p.answer pf addr proto (turns e.2) e.1) := by
  have hsent : down.data = frames (p.answers pf addr proto turns 0 (reqs.map uncompressed)) := by
    rw [hdown]
    show (p.handleTCPConnection pf addr proto turns 0 up ⟨⟨[], none⟩, false⟩).out.sent = _
    rw [handleTCPConnection_eq hbs turns 0 hup []]
    rfl
  have hread := readMsgs_all .proxy hsent fun b hb => length_of_mem_answers hb
  refine ⟨hread, fun hall => ?_⟩
  rw [hread]
  exact answers_of_answered turns 0 _ hall

end Runs

/-! ### Two requests, of which the first one is dropped -/

/-- `exampleAnswer` with another id below 256. -/
def answerWith (id : UInt16) : Msg := { exampleAnswer with id }

def answerWire (id : UInt8) : Bytes := 0 :: id :: exampleAnswerWire.drop 2

def pipelinedPlatform : Platform :=
  .ofTable [(exampleQuery, queryWire 1), ({ exampleQuery with id := 27 }, queryWire 27),
    (answerWith 1, answerWire 1), (answerWith 27, answerWire 27)]

def droppingFirst : Turn where
  rd := noRecursion
  handling :=
    { requestHandler := fun d =>
        if d.req.id = 1 then (none, some .drop) else (some (answerWith d.req.id), none)
      write := ⟨true, none⟩
      writeFailure := ⟨true, none⟩ }
  now := .epoch

/-- The client reads the response to the second request. -/
theorem tcpConnection_answers_dropped :
    (FramingPackage.proxy.readMsgs (closedStream
      (exampleProxy.handleTCPConnection pipelinedPlatform [192, 0, 2, 77] .tcp
        (fun _ => droppingFirst) 0 (closedStream (frames [queryWire 1, queryWire 27]))
        {}).out.sent)).1 = [answerWire 27] := by
  have hbs : List.Forall₂ (Framed pipelinedPlatform)
      [exampleQuery, { exampleQuery with id := 27 }] [queryWire 1, queryWire 27] :=
    .cons ⟨by decide +kernel, by decide +kernel, by decide⟩
      (.cons ⟨by decide +kernel, by decide +kernel, by decide⟩ .nil)
  rw [(tcpConnection_answers hbs (fun _ => droppingFirst) rfl rfl).1]
  decide +kernel

end DnsProxy
