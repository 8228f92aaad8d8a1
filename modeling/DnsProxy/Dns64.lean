import DnsProxy.Upstreams

/-!
# DNS64

The synthesis of AAAA answers from A answers, and the recognition of PTR questions
for synthesized addresses. The source changes the original response in place; here
the functions return the changed response.
-/

namespace DnsProxy

open BitPrefix

/-- `netip.Prefix.Contains`: the families must agree, and the zero address is in no
prefix. -/
def Prefix.contains (p : Prefix) (ip : Addr) : Bool :=
  ip.length != 0 && p.addr.length == ip.length && keepBits p.bits p.addr == keepBits p.bits ip

/-- `netutil.SliceSubnetSet.Contains`. -/
def subnetsContain (prefs : List Prefix) (ip : Addr) : Bool := prefs.any fun p => p.contains ip

/-- The well-known prefix 64:ff9b::/96. -/
def dns64WellKnownPref : Prefix :=
  ⟨[0x00, 0x64, 0xff, 0x9b, 0, 0, 0, 0, 0, 0, 0, 0, 0, 0, 0, 0], 96⟩

def nat64PrefixLength : Nat := 12

def maxDNS64SynTTL : UInt32 := 600

/-- Whether `filterNAT64Answers` deletes a record. -/
def isNAT64Excluded (pf : Platform) (prefs : List Prefix) (r : RR) : Bool :=
  match r.rdata with
  | .aaaa ip =>
    match pf.ipToAddrNoMapped (some ip) with
    | none => true
    | some addr => subnetsContain prefs addr
  | _ => false

def filterNAT64Answers (pf : Platform) (prefs : List Prefix) (rrs : List RR) : List RR × Bool :=
  let filtered := rrs.filter fun r => !isNAT64Excluded pf prefs r
  (filtered, filtered.any fun r => r.rrtype == typeAAAA)

/-- The request to make, if DNS64 is desired, and the response without the excluded
addresses. -/
def checkDNS64 (pf : Platform) (prefs : List Prefix) (newID : UInt16) (req resp : Msg) :
    Option Msg × Msg :=
  if prefs.length = 0 then (none, resp)
  else if req.firstQuestion.qtype ≠ typeAAAA ∨ req.firstQuestion.qclass ≠ classINET then
    (none, resp)
  else
    let dns64Req :=
      { req with
        id := newID
        question := req.question.modify 0 fun q => { q with qtype := typeA } }
    if resp.rcode = rcodeNameError then (none, resp)
    else if resp.rcode = rcodeSuccess then
      let (answer, hasAnswers) := filterNAT64Answers pf prefs resp.answer
      let resp := { resp with answer := answer }
      if hasAnswers then (none, resp) else (some dns64Req, resp)
    else (some dns64Req, resp)

/-- `netip.Addr.As16`, which is all zeroes for the zero address. -/
def as16 (addr : Addr) : Bytes := (Net.to16 (some addr)).getD (List.replicate Net.ipv6Len 0)

/-- There is a prefix when DNS64 is performed. -/
def mapDNS64 (prefs : List Prefix) (addr : Addr) : Bytes :=
  (as16 (prefs.headD dns64WellKnownPref).addr).take nat64PrefixLength ++ addr

def synthRR (pf : Platform) (prefs : List Prefix) (soaTTL : UInt32) (r : RR) : Option RR :=
  match r.rdata with
  | .a ip =>
    (pf.ipToAddrIPv4 (some ip)).map fun addr =>
      { r with ttl := min r.ttl soaTTL, rdata := .aaaa (mapDNS64 prefs addr) }
  | _ => some r

/-- The TTL of the first SOA record for the name of the question. -/
def soaTTL (origReq origResp : Msg) : UInt32 :=
  match origResp.ns.find? fun r => r.rrtype == typeSOA && r.name == origReq.firstQuestion.name with
  | some r => r.ttl
  | none => maxDNS64SynTTL

/-- `none` when the original response stays as it is. -/
def synthDNS64 (pf : Platform) (prefs : List Prefix) (origReq origResp resp : Msg) : Option Msg :=
  if resp.answer.length = 0 then none
  else
    (resp.answer.mapM (synthRR pf prefs (soaTTL origReq origResp))).map fun newAns =>
      { origResp with answer := newAns, ns := resp.ns, extra := resp.extra }

/-- What `performDNS64` leaves: the server of the synthesized response, if there is
one, the response, and the servers asked. -/
structure Dns64Result where
  u : Option Upstream
  resp : Option Msg
  asked : List (Upstream × Msg)

def performDNS64 (pf : Platform) (mode : UpstreamMode) (prefs : List Prefix) (env : Exchanges)
    (newID : UInt16) (origReq : Msg) (origResp : Option Msg) (ups : List Upstream) : Dns64Result :=
  match origResp with
  | none => ⟨none, none, []⟩
  | some origResp =>
    match checkDNS64 pf prefs newID origReq origResp with
    | (none, origResp) => ⟨none, some origResp, []⟩
    | (some dns64Req, origResp) =>
      let x := exchangeUpstreams pf mode env dns64Req ups
      match x.err, x.resp with
      | none, some dns64Resp =>
        match synthDNS64 pf prefs origReq origResp dns64Resp with
        | some resp => ⟨x.u, some resp, x.asked⟩
        | none => ⟨none, some origResp, x.asked⟩
      | _, _ => ⟨none, some origResp, x.asked⟩

/-- A PTR question for an address within one of the DNS64 prefixes. -/
def shouldStripDNS64 (pf : Platform) (prefs : List Prefix) (req : Msg) : Bool :=
  if prefs.length = 0 then false
  else if req.firstQuestion.qtype ≠ typePTR then false
  else
    match pf.ipFromReversedAddr req.firstQuestion.name with
    | none => false
    | some ip => subnetsContain prefs ip || dns64WellKnownPref.contains ip

/-! ## The configured prefixes -/

/-- A `netip.Prefix` as a configuration can hold it: `Bits` is -1 for one that was
made with a length its address does not have. -/
structure ConfPrefix where
  addr : Addr
  bits : Int
  family : addr.length = 0 ∨ addr.length = 4 ∨ addr.length = 16
  range : bits = -1 ∨ 0 ≤ bits ∧ bits ≤ 8 * addr.length ∧ addr.length ≠ 0

/-- `netip.Prefix.Masked`. An invalid prefix gives the zero prefix, in which there is
no address. -/
def ConfPrefix.masked (p : ConfPrefix) : Prefix :=
  if p.bits < 0 then ⟨[], 0⟩ else ⟨keepBits p.bits.toNat p.addr, p.bits.toNat⟩

def maxNAT64PrefixBitLen : Nat := 96

/-- Why `setupDNS64` refuses the prefix at an index: `"is not an ipv6 prefix"` or
`"is too long for dns64"`. -/
inductive Dns64Refusal
  | notIPv6 (index : Nat)
  | tooLong (index : Nat)
deriving DecidableEq, Repr

/-- The loop of `setupDNS64`, at the index `i`, with the prefixes taken so far. -/
def setupPrefixes : Nat → List ConfPrefix → List Prefix → Except Dns64Refusal (List Prefix)
  | _, [], prefs => .ok prefs
  | i, pref :: rest, prefs =>
    if pref.addr.length ≠ 16 then .error (.notIPv6 i)
    else if (maxNAT64PrefixBitLen : Int) < pref.bits then .error (.tooLong i)
    else setupPrefixes (i + 1) rest (prefs ++ [pref.masked])

def setupDNS64 (useDNS64 : Bool) (dns64Prefs : List ConfPrefix) :
    Except Dns64Refusal (List Prefix) :=
  if !useDNS64 then .ok []
  else if dns64Prefs.length = 0 then .ok [dns64WellKnownPref]
  else setupPrefixes 0 dns64Prefs []

/-! ## Who is asked for a synthesis -/

/-- DNS64 asks only the given servers, one of which is behind a synthesized
response, and there is a response afterwards only if there was one before. -/
theorem performDNS64_spec (pf : Platform) (mode : UpstreamMode) (prefs : List Prefix)
    (env : Exchanges) (newID : UInt16) (origReq : Msg) (origResp : Option Msg)
    (ups : List Upstream) :
    let s := performDNS64 pf mode prefs env newID origReq origResp ups
    (∀ a ∈ s.asked, a.1 ∈ ups) ∧ (∀ u, s.u = some u → u ∈ ups) ∧
      (s.resp.isSome = origResp.isSome) := by
  unfold performDNS64
  cases origResp with
  | none => exact ⟨by simp, by simp, rfl⟩
  | some m =>
    simp only
    split
    · exact ⟨by simp, by simp, rfl⟩
    · next dns64Req m' hcheck =>
      have hw := exchangeUpstreams_spec pf mode env dns64Req ups
      generalize exchangeUpstreams pf mode env dns64Req ups = x at hw
      have hasked : ∀ a ∈ x.asked, a.1 ∈ ups := fun a ha => (hw.asked a ha).1
      split
      · next resp herr hresp =>
        split
        · refine ⟨hasked, fun u hu => ?_, rfl⟩
          obtain ⟨v, hv, hxu, _⟩ := hw.answered resp hresp
          exact Option.some.inj (hxu.symm.trans hu) ▸ hv
        · exact ⟨hasked, by simp, rfl⟩
      · exact ⟨hasked, by simp, rfl⟩

end DnsProxy
