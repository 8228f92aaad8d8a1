import DnsProxy.Proxy

/-!
# Requests of clients

`processDNSRequest` up to the request handler: responses are dropped, invalid
requests are answered at once, and a question about the private address space marks
the context, or is refused to a client outside of it.

* `processDNSRequest_handled`: what the handler gets.
-/

namespace DnsProxy

/-! ## Recursion -/

/-- The suspected requests with their expiry, a nanosecond of the Unix time. -/
structure RecursionDetector where
  recentRequests : Bytes → Option Int
  ttl : Int

def maxDomainNameLen : Nat := 253

def msgToSignature (m : Msg) : Bytes :=
  let name := m.firstQuestion.name.take maxDomainNameLen
  BigEndian.encode 2 m.id.toNat ++ BigEndian.encode 2 m.firstQuestion.qtype.toNat ++ name ++
    List.replicate (maxDomainNameLen - name.length) 0

namespace RecursionDetector

def check (rd : RecursionDetector) (m : Msg) (now : Instant) : Bool :=
  if m.question.length = 0 then false
  else
    match rd.recentRequests (msgToSignature m) with
    | none => false
    | some expire => now.nano < expire

def add (rd : RecursionDetector) (m : Msg) (now : Instant) : RecursionDetector :=
  if m.question.length = 0 then rd
  else
    { rd with
      recentRequests :=
        Function.update rd.recentRequests (msgToSignature m) (some (now.nano + rd.ttl)) }

end RecursionDetector

/-! ## Validation -/

/-- Whether the request is refused, and the context with the private network that it
asks about. -/
def Proxy.isForbiddenARPA (pf : Platform) (p : Proxy) (d : DNSContext) : Bool × DNSContext :=
  let q := d.req.firstQuestion
  if q.qtype = typePTR ∨ q.qtype = typeSOA ∨ q.qtype = typeNS then
    match pf.extractReversedAddr q.name with
    | none => (false, d)
    | some requestedPref =>
      if p.privateNets requestedPref.addr then
        (!d.isPrivateClient, { d with requestedPrivateRDNS := some requestedPref })
      else (false, d)
  else (false, d)

/-- The response to an invalid request, `none` for a valid one. -/
def Proxy.validateRequest (pf : Platform) (p : Proxy) (rd : RecursionDetector) (d : DNSContext)
    (now : Instant) : Option Msg × DNSContext :=
  if d.req.question.length ≠ 1 then (some (newMsgFORMERR d.req), d)
  else if p.refuseAny && d.req.firstQuestion.qtype == typeANY then
    (some (newMsgNOTIMPLEMENTED d.req), d)
  else if rd.check d.req now then (some (newMsgNXDOMAIN d.req), d)
  else
    let (forbidden, d) := p.isForbiddenARPA pf d
    if forbidden then (some (newMsgNXDOMAIN d.req), d) else (none, d)

/-- What becomes of a request. -/
inductive Served
  | dropped
  /-- There is a response without the handler. -/
  | answered (d : DNSContext)
  | handled (d : DNSContext)

def Proxy.processDNSRequest (pf : Platform) (p : Proxy) (rd : RecursionDetector) (d : DNSContext)
    (now : Instant) : Served :=
  if d.req.response then .dropped
  else
    let d := { d with isPrivateClient := p.privateNets d.addr }
    if d.res ≠ none then .answered d
    else
      match p.validateRequest pf rd d now with
      | (some res, d) => .answered { d with res := some res }
      | (none, d) => .handled d

/-- A PTR, SOA or NS question about an address in the private networks. -/
def Proxy.AsksPrivate (pf : Platform) (p : Proxy) (req : Msg) : Prop :=
  (req.firstQuestion.qtype = typePTR ∨ req.firstQuestion.qtype = typeSOA ∨
    req.firstQuestion.qtype = typeNS) ∧
  ∃ pref, pf.extractReversedAddr req.firstQuestion.name = some pref ∧
    p.privateNets pref.addr = true

theorem isForbiddenARPA_private {pf : Platform} {p : Proxy} {d : DNSContext}
    (h : p.AsksPrivate pf d.req) : ∃ pref, p.isForbiddenARPA pf d =
      (!d.isPrivateClient, { d with requestedPrivateRDNS := some pref }) := by
  obtain ⟨hty, pref, hpref, hnet⟩ := h
  unfold Proxy.isForbiddenARPA
  simp only [if_pos hty, hpref, hnet]
  exact ⟨pref, rfl⟩

theorem isForbiddenARPA_frame (pf : Platform) (p : Proxy) (d : DNSContext) :
    ∃ r, (p.isForbiddenARPA pf d).2 = { d with requestedPrivateRDNS := r } := by
  unfold Proxy.isForbiddenARPA
  simp only
  split
  · split
    · exact ⟨_, rfl⟩
    · split <;> exact ⟨_, rfl⟩
  · exact ⟨_, rfl⟩

/-- The handler gets the context with the two fields that the validation sets, for a request
with one question that was not sent before. It gets a private question only from a private
client, marked as such. -/
theorem processDNSRequest_handled {pf : Platform} {p : Proxy} {rd : RecursionDetector}
    {d d' : DNSContext} {now : Instant} (h : p.processDNSRequest pf rd d now = .handled d') :
    (∃ r, d' = { d with isPrivateClient := p.privateNets d.addr, requestedPrivateRDNS := r }) ∧
      (p.AsksPrivate pf d.req → d'.requestedPrivateRDNS ≠ none) ∧
      d.req.question.length = 1 ∧ rd.check d.req now = false := by
  unfold Proxy.processDNSRequest at h
  split at h
  · cases h
  · simp only at h
    split at h
    · cases h
    · unfold Proxy.validateRequest at h
      simp only at h
      generalize hd₀ : ({ d with isPrivateClient := p.privateNets d.addr } : DNSContext) = d₀ at h
      split at h
      · cases h
      · next hvalid =>
        obtain rfl := Served.handled.inj h
        split at hvalid
        · cases hvalid
        next hone =>
        split at hvalid
        · cases hvalid
        split at hvalid
        · cases hvalid
        next hcheck =>
        split at hvalid
        · cases hvalid
        · obtain ⟨-, rfl⟩ := Prod.mk.inj hvalid
          obtain ⟨r, hr⟩ := isForbiddenARPA_frame pf p d₀
          refine ⟨⟨r, by rw [hr, ← hd₀]⟩, fun hpriv => ?_, not_not.mp hone,
            Bool.eq_false_of_not_eq_true hcheck⟩
          obtain ⟨pref, hpref⟩ := isForbiddenARPA_private (d := d₀) (by rw [← hd₀]; exact hpriv)
          rw [hpref]
          exact fun h => nomatch h

end DnsProxy
