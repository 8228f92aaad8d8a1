import DnsProxy.AnswerPolicy

/-!
# Synthesized answers

Two results about DNS64. The first is about the mapping of addresses: with the
prefixes that `setupDNS64` leaves, the mapped addresses lie in the first prefix, keep
the address they come from, and are recognized in PTR questions. The second is about
the response as a whole: `synthDNS64` changes the sections of the original response
and nothing else of it, so the client sees the code of the original response over an
answer made from another one.
-/

namespace DnsProxy

open BitPrefix

/-! ## The mapping of addresses -/

/-- A valid IPv4 address. -/
abbrev IPv4 := { a : Addr // a.length = 4 }

/-- The nibbles of an address as labels, the last one first. -/
def nibbles (addr : Addr) : Bytes :=
  addr.reverse.flatMap fun b => [hexDigit (b % 16), 46, hexDigit (b / 16), 46]

/-- The name in `ip6.arpa` of an address. -/
def reverseName (addr : Addr) : Bytes := nibbles addr ++ ascii "ip6.arpa."

/-- `IPFromReversedAddr` is documented to undo the construction of the name. -/
def Platform.InvertsReverseName (pf : Platform) : Prop :=
  ∀ addr : Addr, addr.length = 16 → pf.ipFromReversedAddr (reverseName addr) = some addr

/-- What is expected of the mapping with the prefixes `prefs`. -/
structure MapsAddresses (pf : Platform) (prefs : List Prefix) : Prop where
  inside : ∀ a : IPv4, ∃ pref, prefs.head? = some pref ∧ pref.contains (mapDNS64 prefs a) = true
  embedded : ∀ a : IPv4, (mapDNS64 prefs a).length = 16 ∧ (mapDNS64 prefs a).drop 12 = a
  injective : ∀ a b : IPv4, mapDNS64 prefs a = mapDNS64 prefs b → a = b
  stripped : ∀ (a : IPv4) (req : Msg), req.firstQuestion.qtype = typePTR →
    req.firstQuestion.name = reverseName (mapDNS64 prefs a) → shouldStripDNS64 pf prefs req = true

theorem length_as16 (addr : Addr) : (as16 addr).length = 16 := by
  unfold as16
  cases h : Net.to16 (some addr) with
  | none => rfl
  | some bs => exact Net.length_to16 h

theorem length_take_as16 (addr : Addr) : ((as16 addr).take nat64PrefixLength).length = 12 := by
  rw [List.length_take, length_as16]
  rfl

theorem length_mapDNS64 (prefs : List Prefix) (a : IPv4) : (mapDNS64 prefs a).length = 16 := by
  rw [mapDNS64, List.length_append, length_take_as16, a.2]

theorem drop_mapDNS64 (prefs : List Prefix) (a : Addr) : (mapDNS64 prefs a).drop 12 = a := by
  rw [mapDNS64]
  exact List.drop_left' (length_take_as16 _)

theorem mapDNS64_injective {prefs : List Prefix} {a b : Addr}
    (h : mapDNS64 prefs a = mapDNS64 prefs b) : a = b := by
  rw [← drop_mapDNS64 prefs a, h, drop_mapDNS64]

theorem contains_mapDNS64 {pref : Prefix} (rest : List Prefix) (hlen : pref.addr.length = 16)
    (hbits : pref.bits ≤ maxNAT64PrefixBitLen) (a : IPv4) :
    pref.contains (mapDNS64 (pref :: rest) a) = true := by
  have has : as16 pref.addr = pref.addr := by simp [as16, Net.to16, Net.ipv4Len, Net.ipv6Len, hlen]
  have htake := length_take_as16 pref.addr
  have hle : pref.bits ≤ 8 * ((as16 pref.addr).take nat64PrefixLength).length := by
    rw [htake]
    exact hbits
  have hmap : (mapDNS64 (pref :: rest) a).length = 16 := length_mapDNS64 _ a
  have hsplit : pref.addr = (as16 pref.addr).take nat64PrefixLength ++
      pref.addr.drop nat64PrefixLength := by
    rw [has, List.take_append_drop]
  have hdrop : (pref.addr.drop nat64PrefixLength).length = 4 := by
    rw [List.length_drop, hlen]
    rfl
  have hkeep : keepBits pref.bits pref.addr = keepBits pref.bits (mapDNS64 (pref :: rest) a) := by
    nth_rewrite 1 [hsplit]
    rw [mapDNS64, List.headD_cons, keepBits_append_of_le hle, keepBits_append_of_le hle, hdrop, a.2]
  simp [Prefix.contains, hmap, hlen, hkeep]

theorem setupPrefixes_ok {i : Nat} {confs : List ConfPrefix} {taken prefs : List Prefix}
    (h : setupPrefixes i confs taken = .ok prefs) :
    prefs = taken ++ confs.map ConfPrefix.masked ∧
      ∀ c ∈ confs, c.addr.length = 16 ∧ c.bits ≤ maxNAT64PrefixBitLen := by
  induction confs generalizing i taken with
  | nil =>
    obtain rfl := Except.ok.inj h
    simp
  | cons c confs ih =>
    unfold setupPrefixes at h
    split at h
    · cases h
    · next hlen =>
      split at h
      · cases h
      · next hbits =>
        obtain ⟨hprefs, hall⟩ := ih h
        refine ⟨by rw [hprefs, List.map_cons, List.append_assoc]; rfl, ?_⟩
        exact List.forall_mem_cons.mpr ⟨⟨not_not.mp hlen, Int.not_lt.mp hbits⟩, hall⟩

theorem setupDNS64_head {confs : List ConfPrefix} {prefs : List Prefix}
    (h : setupDNS64 true confs = .ok prefs) :
    (confs = [] ∧ prefs = [dns64WellKnownPref]) ∨
      ∃ c rest masked, confs = c :: rest ∧ prefs = c.masked :: masked ∧ c.addr.length = 16 ∧
        c.bits ≤ maxNAT64PrefixBitLen := by
  cases confs with
  | nil => exact .inl ⟨rfl, (Except.ok.inj h).symm⟩
  | cons c rest =>
    obtain ⟨hprefs, hall⟩ :=
      setupPrefixes_ok (show setupPrefixes 0 (c :: rest) [] = .ok prefs from h)
    exact .inr ⟨c, rest, rest.map ConfPrefix.masked, rfl, hprefs, hall c List.mem_cons_self⟩

theorem mapsAddresses_of_head {pf : Platform} (hrev : pf.InvertsReverseName) (pref : Prefix)
    (rest : List Prefix) (hlen : pref.addr.length = 16)
    (hbits : pref.bits ≤ maxNAT64PrefixBitLen) : MapsAddresses pf (pref :: rest) where
  inside a := ⟨pref, rfl, contains_mapDNS64 rest hlen hbits a⟩
  embedded a := ⟨length_mapDNS64 _ a, drop_mapDNS64 _ _⟩
  injective _ _ h := Subtype.ext (mapDNS64_injective h)
  stripped a req htype hname := by
    have hip : pf.ipFromReversedAddr req.firstQuestion.name = some (mapDNS64 (pref :: rest) a) := by
      rw [hname]
      exact hrev _ (length_mapDNS64 _ a)
    simp [shouldStripDNS64, htype, hip, subnetsContain, contains_mapDNS64 rest hlen hbits a]

theorem zero_contains (ip : Addr) : (⟨[], 0⟩ : Prefix).contains ip = false := by
  cases ip <;> rfl

theorem masked_of_valid {c : ConfPrefix} (h : 0 ≤ c.bits) :
    c.masked = ⟨keepBits c.bits.toNat c.addr, c.bits.toNat⟩ := if_neg (Int.not_lt.mpr h)

/-- The mapping does what is expected of it exactly when the first prefix has a length
that its address can have. -/
theorem setupDNS64_mapsAddresses_iff (pf : Platform) (hrev : pf.InvertsReverseName)
    (confs : List ConfPrefix) (prefs : List Prefix) (h : setupDNS64 true confs = .ok prefs) :
    MapsAddresses pf prefs ↔ ∀ c, confs.head? = some c → 0 ≤ c.bits := by
  rcases setupDNS64_head h with ⟨rfl, rfl⟩ | ⟨c, rest, masked, rfl, rfl, hlen, hbits⟩
  · simpa using mapsAddresses_of_head hrev dns64WellKnownPref [] rfl (Nat.le_refl 96)
  · simp only [List.head?_cons, Option.some.injEq, forall_eq']
    constructor
    · intro hmaps
      by_contra hneg
      obtain ⟨pref, hpref, hin⟩ := hmaps.inside ⟨[0, 0, 0, 0], rfl⟩
      obtain rfl := Option.some.inj hpref
      have hzero : c.masked = ⟨[], 0⟩ := if_pos (Int.not_le.mp hneg)
      rw [hzero, zero_contains] at hin
      cases hin
    · intro hpos
      rw [masked_of_valid hpos]
      exact mapsAddresses_of_head hrev _ masked (by simpa using hlen) (Int.toNat_le.mpr hbits)

def hexValue (c : UInt8) : Nat := if c < 58 then c.toNat - 48 else c.toNat - 87

def readNibbles : Bytes → Bytes
  | lo :: _ :: hi :: _ :: rest =>
    readNibbles rest ++ [UInt8.ofNat (16 * hexValue hi + hexValue lo)]
  | _ => []

theorem hexValue_hexDigit : ∀ b : UInt8,
    UInt8.ofNat (16 * hexValue (hexDigit (b / 16)) + hexValue (hexDigit (b % 16))) = b :=
  forall_byte (by decide +kernel)

theorem nibbles_concat (bs : Bytes) (b : UInt8) :
    nibbles (bs ++ [b]) =
      hexDigit (b % 16) :: 46 :: hexDigit (b / 16) :: 46 :: nibbles bs := by
  simp [nibbles]

theorem readNibbles_nibbles (bs : Bytes) : readNibbles (nibbles bs) = bs := by
  induction bs using List.reverseRecOn with
  | nil => rfl
  | append_singleton bs b ih =>
    rw [nibbles_concat, readNibbles, ih, hexValue_hexDigit]

theorem length_nibbles (bs : Bytes) : (nibbles bs).length = 4 * bs.length := by
  induction bs using List.reverseRecOn with
  | nil => rfl
  | append_singleton bs b ih =>
    rw [nibbles_concat, List.length_append, Nat.mul_add, ← ih]
    rfl

/-- A platform that reads the names in `ip6.arpa` of full addresses. -/
def reversePlatform : Platform :=
  { examplePlatform with
    ipFromReversedAddr := fun name =>
      if name.drop 64 = ascii "ip6.arpa." then some (readNibbles (name.take 64)) else none }

theorem reversePlatform_inverts : reversePlatform.InvertsReverseName := by
  intro addr hlen
  have h64 : (nibbles addr).length = 64 := by rw [length_nibbles, hlen]
  have htake : (reverseName addr).take 64 = nibbles addr := List.take_left' h64
  have hdrop : (reverseName addr).drop 64 = ascii "ip6.arpa." := List.drop_left' h64
  simp only [reversePlatform, hdrop, htake, readNibbles_nibbles, if_true]

/-- The prefix 2001:db8::/32. -/
def examplePref : ConfPrefix where
  addr := [0x20, 0x01, 0x0d, 0xb8, 0, 0, 0, 0, 0, 0, 0, 0, 0, 0, 0, 0]
  bits := 32
  family := by decide
  range := by decide

theorem setupDNS64_mapsAddresses_examplePref :
    MapsAddresses reversePlatform [examplePref.masked] :=
  (setupDNS64_mapsAddresses_iff reversePlatform reversePlatform_inverts [examplePref] _ rfl).mpr
    (by rintro c ⟨⟩; decide)

/-- The same address with a length of 200, which no address has. -/
def overlongPref : ConfPrefix := { examplePref with bits := -1, range := by decide }

/-- The overlong prefix is accepted, and 192.0.2.1 is mapped to ::c000:201. -/
theorem setupDNS64_overlongPref :
    ∃ prefs, setupDNS64 true [overlongPref] = .ok prefs ∧ ¬ MapsAddresses reversePlatform prefs ∧
      mapDNS64 prefs [192, 0, 2, 1] = [0, 0, 0, 0, 0, 0, 0, 0, 0, 0, 0, 0, 192, 0, 2, 1] := by
  refine ⟨[overlongPref.masked], rfl, fun hmaps => ?_, by decide⟩
  obtain ⟨pref, hpref, hin⟩ := hmaps.inside ⟨[192, 0, 2, 1], rfl⟩
  obtain rfl := Option.some.inj hpref
  exact absurd hin (by decide)

/-! ## The response as a whole -/

section Synthesis

variable (pf : Platform) (mode : UpstreamMode) (prefs : List Prefix) (env : Exchanges)
  (newID : UInt16) (req resp : Msg) (ups : List Upstream)

/-- The request for the addresses to map. -/
def dns64Request : Msg :=
  { req with
    id := newID
    question := req.question.modify 0 fun q => { q with qtype := typeA } }

/-- The answer section without the NAT64-excluded records, which is what is left of a
successful response. -/
def usableAnswer : List RR :=
  if Dns64Applies prefs req ∧ resp.rcode = rcodeSuccess then
    resp.answer.filter fun r => !isNAT64Excluded pf prefs r
  else resp.answer

/-- The response to `req` calls for a synthesis. -/
def WantsSynthesis : Prop :=
  Dns64Applies prefs req ∧ resp.rcode ≠ rcodeNameError ∧
    (resp.rcode = rcodeSuccess → ∀ r ∈ usableAnswer pf prefs req resp, r.rrtype ≠ typeAAAA)

instance : Decidable (WantsSynthesis pf prefs req resp) := inferInstanceAs (Decidable (_ ∧ _ ∧ _))

/-- The exchange for the addresses to map. -/
def dns64Exchanged : Exchanged := exchangeUpstreams pf mode env (dns64Request newID req) ups

/-- There is an answer to map, and its A records have IPv4 addresses. -/
def Mappable (a : Msg) : Prop :=
  a.answer ≠ [] ∧ ∀ r ∈ a.answer, ∀ ip, r.rdata = .a ip → pf.ipToAddrIPv4 (some ip) ≠ none

/-- A response is synthesized from `a`, the response to the request for addresses. -/
def SynthesizesFrom (a : Msg) : Prop :=
  WantsSynthesis pf prefs req resp ∧
    (dns64Exchanged pf mode env newID req ups).err = none ∧
    (dns64Exchanged pf mode env newID req ups).resp = some a ∧ Mappable pf a

/-- The record `y` stands in a synthesized answer for the record `r`. -/
def StandsFor (limit : UInt32) (r y : RR) : Prop :=
  match r.rdata with
  | .a ip => ∃ addr, pf.ipToAddrIPv4 (some ip) = some addr ∧
      y = ⟨r.name, r.rclass, min r.ttl limit, .aaaa (mapDNS64 prefs addr)⟩
  | _ => y = r

/-- The limit for the TTLs: that of the first SOA record for the queried name, and ten
minutes without one. -/
def IsTTLLimit (limit : UInt32) : Prop :=
  (∃ before soa after, resp.ns = before ++ soa :: after ∧ soa.rrtype = typeSOA ∧
    soa.name = req.firstQuestion.name ∧ soa.ttl = limit ∧
    ∀ r ∈ before, ¬(r.rrtype = typeSOA ∧ r.name = req.firstQuestion.name)) ∨
  (∀ r ∈ resp.ns, ¬(r.rrtype = typeSOA ∧ r.name = req.firstQuestion.name)) ∧ limit = 600

/-- The result of DNS64 is a successful response with the addresses of the A response,
or the original response without the excluded addresses. -/
def PresentedAsSuccess : Prop :=
  let s := performDNS64 pf mode prefs env newID req (some resp) ups
  (s.u ≠ none → ∃ a m limit,
    (dns64Exchanged pf mode env newID req ups).resp = some a ∧ s.resp = some m ∧
      m.rcode = rcodeSuccess ∧ IsTTLLimit req resp limit ∧
      List.Forall₂ (StandsFor pf prefs limit) a.answer m.answer ∧
      m.ns = a.ns ∧ m.extra = a.extra) ∧
  (s.u = none → s.resp = some { resp with answer := usableAnswer pf prefs req resp })

end Synthesis

section SynthesisLemmas

variable {pf : Platform} {mode : UpstreamMode} {prefs : List Prefix} {env : Exchanges}
  {newID : UInt16} {req resp : Msg} {ups : List Upstream}

theorem usableAnswer_of_success (happ : Dns64Applies prefs req) (hok : resp.rcode = rcodeSuccess) :
    usableAnswer pf prefs req resp = resp.answer.filter fun r => !isNAT64Excluded pf prefs r :=
  if_pos ⟨happ, hok⟩

theorem usableAnswer_of_not_success (h : ¬(Dns64Applies prefs req ∧ resp.rcode = rcodeSuccess)) :
    usableAnswer pf prefs req resp = resp.answer := if_neg h

theorem checkDNS64_eq :
    checkDNS64 pf prefs newID req resp =
      (if WantsSynthesis pf prefs req resp then some (dns64Request newID req) else none,
        { resp with answer := usableAnswer pf prefs req resp }) := by
  by_cases happ : Dns64Applies prefs req
  · obtain ⟨hprefs, htype, hclass⟩ := happ
    have happ : Dns64Applies prefs req := ⟨hprefs, htype, hclass⟩
    unfold checkDNS64
    rw [if_neg (by simpa using hprefs), if_neg (by simp [htype, hclass])]
    by_cases hnx : resp.rcode = rcodeNameError
    · have hwants : ¬ WantsSynthesis pf prefs req resp := fun h => h.2.1 hnx
      rw [if_pos hnx, if_neg hwants, usableAnswer_of_not_success fun h =>
        absurd (hnx.symm.trans h.2) (by decide)]
    · rw [if_neg hnx]
      by_cases hok : resp.rcode = rcodeSuccess
      · have hwants : WantsSynthesis pf prefs req resp ↔
            ¬(filterNAT64Answers pf prefs resp.answer).2 = true := by
          simp only [WantsSynthesis, happ, hok, usableAnswer_of_success happ hok,
            filterNAT64Answers, List.any_eq_true, beq_iff_eq, not_exists, not_and, true_implies,
            true_and, ne_eq, show ¬rcodeSuccess = rcodeNameError by decide, not_false_eq_true]
        rw [if_pos hok, usableAnswer_of_success happ hok]
        simp only [hwants]
        cases hany : (filterNAT64Answers pf prefs resp.answer).2 with
        | true => rfl
        | false => rfl
      · have hwants : WantsSynthesis pf prefs req resp := ⟨happ, hnx, fun h => absurd h hok⟩
        rw [if_neg hok, if_pos hwants, usableAnswer_of_not_success fun h => hok h.2]
        rfl
  · have hwants : ¬ WantsSynthesis pf prefs req resp := fun h => happ h.1
    rw [if_neg hwants, usableAnswer_of_not_success fun h => happ h.1]
    unfold checkDNS64
    split
    · rfl
    · next hprefs =>
      rw [if_pos]
      by_contra hq
      rw [not_or, not_not, not_not] at hq
      exact happ ⟨by simpa using hprefs, hq⟩

theorem forall₂_of_mapM {α β : Type} {f : α → Option β} {l : List α} {l' : List β}
    (h : l.mapM f = some l') : List.Forall₂ (fun x y => f x = some y) l l' := by
  induction l generalizing l' with
  | nil =>
    obtain rfl : [] = l' := by simpa using h
    exact .nil
  | cons x l ih =>
    obtain ⟨y, hy, rest, hrest, rfl⟩ : ∃ y, f x = some y ∧ ∃ rest, l.mapM f = some rest ∧
        y :: rest = l' := by
      simpa [List.mapM_cons, Option.bind_eq_some_iff] using h
    exact .cons hy (ih hrest)

theorem mapM_eq_none_iff {α β : Type} {f : α → Option β} {l : List α} :
    l.mapM f = none ↔ ∃ x ∈ l, f x = none := by
  induction l with
  | nil => simp
  | cons x l ih =>
    cases hx : f x with
    | none => simp [List.mapM_cons, hx]
    | some y => cases hl : l.mapM f <;> simp [List.mapM_cons, hx, hl, ← ih]

theorem standsFor_of_synthRR {limit : UInt32} {r y : RR} (h : synthRR pf prefs limit r = some y) :
    StandsFor pf prefs limit r y := by
  unfold synthRR at h
  split at h
  · next ip hdata =>
    obtain ⟨addr, haddr, rfl⟩ := Option.map_eq_some_iff.mp h
    unfold StandsFor
    rw [hdata]
    exact ⟨addr, haddr, rfl⟩
  · next hdata =>
    obtain rfl := Option.some.inj h
    unfold StandsFor
    split
    · next ip hip => exact absurd hip (hdata ip)
    · rfl

theorem synthRR_eq_none {limit : UInt32} {r : RR} :
    synthRR pf prefs limit r = none ↔
      ∃ ip, r.rdata = .a ip ∧ pf.ipToAddrIPv4 (some ip) = none := by
  unfold synthRR
  split
  · next ip hdata => simp [hdata]
  · next hdata =>
    simp only [reduceCtorEq, false_iff, not_exists, not_and]
    exact fun ip hip => absurd hip (hdata ip)

theorem isTTLLimit_soaTTL : IsTTLLimit req resp (soaTTL req resp) := by
  unfold soaTTL
  split
  · next soa hfind =>
    obtain ⟨hsoa, before, after, hns, hbefore⟩ := List.find?_eq_some_iff_append.mp hfind
    simp only [Bool.and_eq_true, beq_iff_eq] at hsoa
    refine .inl ⟨before, soa, after, hns, hsoa.1, hsoa.2, rfl, fun r hr hboth => ?_⟩
    simpa [hboth.1, hboth.2] using hbefore r hr
  · next hnone => exact .inr ⟨by simpa using hnone, rfl⟩

theorem synthDNS64_cases (a : Msg) :
    (Mappable pf a ∧ ∃ newAns, a.answer.mapM (synthRR pf prefs (soaTTL req resp)) = some newAns ∧
      synthDNS64 pf prefs req resp a =
        some { resp with answer := newAns, ns := a.ns, extra := a.extra }) ∨
    (¬ Mappable pf a ∧ synthDNS64 pf prefs req resp a = none) := by
  unfold synthDNS64
  by_cases hne : a.answer = []
  · exact .inr ⟨fun h => h.1 hne, by simp [hne]⟩
  · rw [if_neg (by simpa using hne)]
    cases hmap : a.answer.mapM (synthRR pf prefs (soaTTL req resp)) with
    | some newAns =>
      refine .inl ⟨⟨hne, fun r hr ip hip hbad => ?_⟩, newAns, rfl, rfl⟩
      have hnone : a.answer.mapM (synthRR pf prefs (soaTTL req resp)) = none :=
        mapM_eq_none_iff.mpr ⟨r, hr, synthRR_eq_none.mpr ⟨ip, hip, hbad⟩⟩
      rw [hmap] at hnone
      cases hnone
    | none =>
      obtain ⟨r, hr, hbad⟩ := mapM_eq_none_iff.mp hmap
      obtain ⟨ip, hip, hnone⟩ := synthRR_eq_none.mp hbad
      exact .inr ⟨fun h => h.2 r hr ip hip hnone, rfl⟩

theorem performDNS64_synthesis :
    (∃ a newAns, SynthesizesFrom pf mode prefs env newID req resp ups a ∧
      a.answer.mapM (synthRR pf prefs (soaTTL req resp)) = some newAns ∧
      (performDNS64 pf mode prefs env newID req (some resp) ups).u ≠ none ∧
      (performDNS64 pf mode prefs env newID req (some resp) ups).resp =
        some { resp with answer := newAns, ns := a.ns, extra := a.extra }) ∨
    (∀ a, ¬ SynthesizesFrom pf mode prefs env newID req resp ups a) ∧
      (performDNS64 pf mode prefs env newID req (some resp) ups).u = none ∧
      (performDNS64 pf mode prefs env newID req (some resp) ups).resp =
        some { resp with answer := usableAnswer pf prefs req resp } := by
  unfold performDNS64
  simp only [checkDNS64_eq]
  by_cases hwants : WantsSynthesis pf prefs req resp
  · simp only [if_pos hwants]
    have hfrom := exchangeUpstreams_spec pf mode env (dns64Request newID req) ups
    unfold SynthesizesFrom dns64Exchanged
    generalize exchangeUpstreams pf mode env (dns64Request newID req) ups = x at hfrom ⊢
    cases herr : x.err with
    | some e => exact .inr ⟨fun a ha => (nomatch ha.2.1), rfl, rfl⟩
    | none =>
      cases hresp : x.resp with
      | none => exact .inr ⟨fun a ha => (nomatch ha.2.2.1), rfl, rfl⟩
      | some a =>
        obtain ⟨u, -, hu, -⟩ := hfrom.answered a hresp
        rcases @synthDNS64_cases pf prefs req
          { resp with answer := usableAnswer pf prefs req resp } a with
          ⟨hmappable, newAns, hmap, hsynth⟩ | ⟨hnot, hsynth⟩
        · refine .inl ⟨a, newAns, ⟨hwants, rfl, rfl, hmappable⟩, hmap, ?_, ?_⟩
          · simp [hsynth, hu]
          · simp [hsynth]
        · refine .inr ⟨fun b hb => ?_, by simp [hsynth], by simp [hsynth]⟩
          obtain rfl := Option.some.inj hb.2.2.1
          exact hnot hb.2.2.2
  · rw [if_neg hwants]
    exact .inr ⟨fun a ha => hwants ha.1, rfl, rfl⟩

end SynthesisLemmas

/-- DNS64 presents its result as a success exactly when no response is synthesized for
an original response with an error code. -/
theorem performDNS64_presentedAsSuccess_iff (pf : Platform) (mode : UpstreamMode)
    (prefs : List Prefix) (env : Exchanges) (newID : UInt16) (req resp : Msg)
    (ups : List Upstream) :
    PresentedAsSuccess pf mode prefs env newID req resp ups ↔
      ∀ a, SynthesizesFrom pf mode prefs env newID req resp ups a →
        resp.rcode = rcodeSuccess := by
  rcases @performDNS64_synthesis pf mode prefs env newID req resp ups with
    ⟨a, newAns, hfrom, hmap, hu, hresp⟩ | ⟨hno, hu, hresp⟩
  · constructor
    · intro hpres a' _
      obtain ⟨b, m, limit, -, hm, hcode, -⟩ := hpres.1 hu
      obtain rfl := Option.some.inj (hresp.symm.trans hm)
      exact hcode
    · intro hcode
      refine ⟨fun _ => ?_, fun hnone => absurd hnone hu⟩
      refine ⟨a, _, soaTTL req resp, hfrom.2.2.1, hresp, hcode a hfrom, isTTLLimit_soaTTL, ?_,
        rfl, rfl⟩
      exact (forall₂_of_mapM hmap).imp fun _ _ => standsFor_of_synthRR
  · constructor
    · intro _ a ha
      exact absurd ha (hno a)
    · intro _
      exact ⟨fun hne => absurd hu hne, fun _ => hresp⟩

def failedAAAA : Msg := { mappedAnswer with rcode := rcodeServerFailure, answer := [] }

/-- The upstream fails on AAAA questions and answers the A question: the client gets
the mapped address with the code of the failure. -/
theorem performDNS64_failedAAAA :
    ¬ PresentedAsSuccess examplePlatform .loadBalance [dns64WellKnownPref]
      (answering fun _ _ => some exampleAnswer) 0 exampleQueryAAAA failedAAAA
      [exampleUpstream] := by
  intro h
  have hdone : (performDNS64 examplePlatform .loadBalance [dns64WellKnownPref]
      (answering fun _ _ => some exampleAnswer) 0 exampleQueryAAAA (some failedAAAA)
      [exampleUpstream]).resp = some { mappedAnswer with rcode := rcodeServerFailure } ∧
    (performDNS64 examplePlatform .loadBalance [dns64WellKnownPref]
      (answering fun _ _ => some exampleAnswer) 0 exampleQueryAAAA (some failedAAAA)
      [exampleUpstream]).u ≠ none := by decide +kernel
  obtain ⟨a, m, limit, -, hm, hcode, -⟩ := h.1 hdone.2
  obtain rfl := Option.some.inj (hdone.1.symm.trans hm)
  exact absurd hcode (by decide)

end DnsProxy
