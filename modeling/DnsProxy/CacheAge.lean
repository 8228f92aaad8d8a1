import DnsProxy.Cache

/-!
# The age of cached answers

What a lookup returns for an entry that was stored earlier, and the TTLs it
returns.

* `unpackItem_pack`: unpacking a packed item gives back its message and its
  expiry, second for second;
* `cachedTTL_honest_iff`: the answers are honest about their age except in two
  cases, which come from `filterRRSlice` taking a TTL of zero for "leave as it
  is": at the very instant of expiry, and after it for an optimistic answer TTL
  below a second;
* `honestTTL_iff`: the other optimistic answer TTLs that fail are rounded up by the
  conversion to `uint32`, or out of its range.
-/

namespace DnsProxy

/-! ## The lifetime of a response -/

theorem minTTL_le (r : RR) (ttl : UInt32) : (minTTL r ttl).toNat ≤ ttl.toNat := by
  unfold minTTL
  split
  · exact Nat.le_refl _
  · split
    · next h => exact Nat.le_of_lt (UInt32.lt_iff_toNat_lt.mp h)
    · exact Nat.le_refl _

theorem minTTL_le_ttl {r : RR} (h : r.rrtype ≠ typeOPT) (ttl : UInt32) :
    (minTTL r ttl).toNat ≤ r.ttl.toNat := by
  unfold minTTL
  rw [if_neg h]
  split
  · exact Nat.le_refl _
  · next hlt => exact Nat.le_of_not_lt fun hc => hlt (UInt32.lt_iff_toNat_lt.mpr hc)

theorem scanTTL_le (rs : List RR) (ttl : UInt32) : (scanTTL rs ttl).toNat ≤ ttl.toNat := by
  induction rs generalizing ttl with
  | nil => exact Nat.le_refl _
  | cons r rs ih =>
    simp only [scanTTL]
    split
    · exact Nat.zero_le _
    · exact Nat.le_trans (ih _) (minTTL_le r ttl)

theorem scanTTL_le_ttl {rs : List RR} {r : RR} (hr : r ∈ rs) (hopt : r.rrtype ≠ typeOPT)
    (ttl : UInt32) : (scanTTL rs ttl).toNat ≤ r.ttl.toNat := by
  induction rs generalizing ttl with
  | nil => cases hr
  | cons x rs ih =>
    simp only [scanTTL]
    split
    · exact Nat.zero_le _
    · rcases List.mem_cons.mp hr with rfl | hmem
      · exact Nat.le_trans (scanTTL_le rs _) (minTTL_le_ttl hopt ttl)
      · exact ih hmem _

theorem calculateTTL_le (m : Msg) :
    (calculateTTL m).toNat ≤ (scanTTL m.records maxUint32).toNat := by
  unfold calculateTTL
  simp only
  split
  · exact Nat.zero_le _
  · split
    · next h => exact Nat.le_of_lt (UInt32.lt_iff_toNat_lt.mp h.2)
    · split
      · exact Nat.zero_le _
      · exact Nat.le_refl _

theorem cacheTTL_eq_or (m : Msg) : cacheTTL m = 0 ∨ cacheTTL m = calculateTTL m := by
  unfold cacheTTL
  grind

variable {m : Msg} {pf : Platform} {t : Instant} {c : Cache} {ci : CacheItem}

theorem cacheTTL_le_ttl {r : RR} (hr : r ∈ m.records) (hopt : r.rrtype ≠ typeOPT) :
    (cacheTTL m).toNat ≤ r.ttl.toNat := by
  rcases cacheTTL_eq_or m with h | h
  · rw [h]
    exact Nat.zero_le _
  · rw [h]
    exact Nat.le_trans (calculateTTL_le m) (scanTTL_le_ttl hr hopt _)

theorem cacheTTL_le_servFail (h : m.rcode = rcodeServerFailure) :
    (cacheTTL m).toNat ≤ servFailMaxCacheTTL.toNat := by
  have hcalc : (calculateTTL m).toNat ≤ servFailMaxCacheTTL.toNat := by
    unfold calculateTTL
    simp only [h, true_and]
    split
    · exact Nat.zero_le _
    · split
      · exact Nat.le_refl _
      · next hle =>
        have hle : (scanTTL m.records maxUint32).toNat ≤ servFailMaxCacheTTL.toNat :=
          Nat.le_of_not_lt fun hc => hle (UInt32.lt_iff_toNat_lt.mpr hc)
        split
        · exact Nat.zero_le _
        · exact hle
  rcases cacheTTL_eq_or m with h0 | hc
  · rw [h0]
    exact Nat.zero_le _
  · rw [hc]
    exact hcalc

/-! ## Packing and unpacking -/

theorem getInt64_putInt64 {x : Int} (hlo : -2 ^ 63 ≤ x) (hhi : x < 2 ^ 63) :
    getInt64 (putInt64 x) = x := by
  rw [getInt64, putInt64, BigEndian.decode_encode_of_lt (BitVec.isLt _), BitVec.ofNat_toNat,
    BitVec.setWidth_eq, BitVec.toInt_ofInt]
  exact Int.bmod_eq_of_le (by omega) (by omega)

/-- The end of the lifetime of a response stored at `t`, in Unix seconds. -/
def expiry (m : Msg) (t : Instant) : Int := t.unix + (cacheTTL m).toNat

theorem respToItem_eq_some {u : Bytes} {item : CacheItem} (h : respToItem m u = some item) :
    item = ⟨m, u, cacheTTL m⟩ ∧ cacheTTL m ≠ 0 := by
  unfold respToItem at h
  simp only at h
  split at h
  · cases h
  · next h0 => exact ⟨(Option.some.inj h).symm, h0⟩

theorem pack_eq_some {data : Bytes} (h : ci.pack pf t = some data) :
    ∃ pm, pf.pack ci.m = some pm ∧ pm.length ≤ 65535 ∧
      data = putInt64 (t.unix + ci.ttl.toNat) ++
        (BigEndian.encode packedMsgLenSz pm.length ++ (pm ++ ci.u)) := by
  simp only [CacheItem.pack, Option.bind_eq_bind, Option.bind_eq_some_iff, Option.some.injEq] at h
  obtain ⟨pm, hpm, lenBytes, hlen, rfl⟩ := h
  unfold lengthPrefix at hlen
  split at hlen
  · cases hlen
  · next hle =>
    obtain rfl := Option.some.inj hlen
    exact ⟨pm, hpm, Nat.le_of_not_lt hle, by simp only [List.append_assoc, packedMsgLenSz]⟩

/-- What unpacking gives for the packed item of a response, if anything: the
response as a reply to the request, with the TTL of an answer from an entry with
this expiry. -/
theorem unpackItem_pack (hrt : pf.RoundTrips m) {u data : Bytes} {item : CacheItem} {t₀ : Instant}
    (hitem : respToItem m u = some item) (hpack : item.pack pf t₀ = some data) {req : Msg}
    {expired : Bool} (h : c.unpackItem pf data req t = (some ci, expired)) :
    ∃ ttl, c.answerTTL pf (expiry m t₀) t = some ttl ∧
      ci = ⟨Cache.replyFrom req { m with compress := false } ttl, u, 0⟩ ∧
      expired = decide (expiry m t₀ * second < t.nano) := by
  obtain ⟨rfl, _⟩ := respToItem_eq_some hitem
  obtain ⟨pm, hpm, hle, rfl⟩ := pack_eq_some hpack
  -- The four parts of the entry, read back at their offsets.
  have hexpLen : (putInt64 (t₀.unix + (cacheTTL m).toNat)).length = expTimeSz :=
    BigEndian.length_encode _ _
  have hexp : getInt64 (putInt64 (t₀.unix + (cacheTTL m).toNat)) = expiry m t₀ := by
    have hr := t₀.range
    have hlt := (cacheTTL m).toNat_lt
    exact getInt64_putInt64 (by unfold Instant.unix; omega) (by unfold Instant.unix; omega)
  have hl : BigEndian.decode (BigEndian.encode packedMsgLenSz pm.length) = pm.length :=
    BigEndian.decode_encode_of_lt (Nat.lt_of_le_of_lt hle (by decide))
  have hlenLen : (BigEndian.encode packedMsgLenSz pm.length).length = packedMsgLenSz :=
    BigEndian.length_encode _ _
  unfold Cache.unpackItem at h
  rw [if_neg (by simp only [List.length_append, hexpLen, hlenLen, minPackedLen]; omega)] at h
  simp only [minPackedLen, ← List.drop_drop, List.take_left' hexpLen, List.drop_left' hexpLen,
    List.take_left' hlenLen, List.drop_left' hlenLen, hexp, hl, List.take_left, List.drop_left] at h
  split at h
  · cases h
  · next ttl httl =>
    split at h
    · cases h
    · rw [hrt pm hpm] at h
      obtain ⟨hci, hexpired⟩ := Prod.mk.inj h
      exact ⟨ttl, httl, (Option.some.inj hci).symm, hexpired.symm⟩

/-! ## The TTLs of an answer -/

/-- The records of `m` that a reply with this DO bit keeps. -/
def keptRecords (m : Msg) (dob : Bool) : List RR :=
  m.answer.filter (keepsRR dob m.firstQuestion.qtype) ++ m.ns.filter (keepsRR dob typeNone) ++
    m.extra.filter (keepsRR dob typeNone)

theorem records_replyFrom (req m : Msg) (ttl : UInt32) :
    (Cache.replyFrom req m ttl).records =
      (keptRecords m req.doBit).map (overwriteTTL ttl) := by
  simp only [Msg.records, Cache.replyFrom, filterMsg, filterRRSlice, keptRecords, List.map_append]

theorem overwriteTTL_ttl {ttl : UInt32} (h : ttl ≠ 0) (r : RR) :
    (overwriteTTL ttl r).ttl = ttl := by
  rw [overwriteTTL, if_pos h]

theorem overwriteTTL_zero (r : RR) : overwriteTTL 0 r = r := if_neg (not_not.mpr rfl)

theorem mem_keptRecords {dob : Bool} {r : RR} (h : r ∈ keptRecords m dob) :
    r ∈ m.records ∧ r.rrtype ≠ typeOPT := by
  have hopt : ∀ {except : UInt16}, keepsRR dob except r = true → r.rrtype ≠ typeOPT := by
    intro except hk ht
    simp [keepsRR, ht] at hk
  simp only [keptRecords, List.mem_append, List.mem_filter] at h
  simp only [Msg.records, List.mem_append]
  rcases h with (⟨hr, hk⟩ | ⟨hr, hk⟩) | ⟨hr, hk⟩
  · exact ⟨.inl (.inl hr), hopt hk⟩
  · exact ⟨.inl (.inr hr), hopt hk⟩
  · exact ⟨.inr hr, hopt hk⟩

theorem keptRecords_ttl_ne (hpos : cacheTTL m ≠ 0) {dob : Bool} {r : RR}
    (hr : r ∈ keptRecords m dob) : r.ttl ≠ 0 := by
  intro h0
  obtain ⟨hmem, hopt⟩ := mem_keptRecords hr
  have hle := cacheTTL_le_ttl hmem hopt
  rw [h0] at hle
  exact hpos (UInt32.toNat_inj.mp (Nat.le_zero.mp hle))

theorem answerTTL_fresh {t₀ : Instant} (ht : t₀.nano ≤ t.nano)
    (hfresh : t.nano ≤ expiry m t₀ * second) :
    ∃ ttl, c.answerTTL pf (expiry m t₀) t = some ttl ∧
      (ttl.toNat : Int) = expiry m t₀ - t.unix := by
  have hlt := (cacheTTL m).toNat_lt
  have hmono : t₀.unix ≤ t.unix := Int.ediv_le_ediv (by decide) ht
  have hle : t.unix ≤ expiry m t₀ := Int.ediv_le_of_le_mul (by decide) hfresh
  have hexp : expiry m t₀ = t₀.unix + (cacheTTL m).toNat := rfl
  have hmax : (maxUint32.toNat : Int) = 2 ^ 32 - 1 := by decide
  refine ⟨UInt32.ofNat (expiry m t₀ - t.unix).toNat, ?_, ?_⟩
  · unfold Cache.answerTTL
    rw [if_neg (by omega)]
    simp only
    rw [if_neg (by omega), if_neg (by omega)]
  · rw [UInt32.toNat_ofNat']
    omega

theorem answerTTL_expired {expire : Int} {ttl : UInt32} (hexp : expire * second < t.nano)
    (h : c.answerTTL pf expire t = some ttl) :
    c.optimistic = true ∧ t.nano ≤ expire * second + c.optimisticMaxAge.toInt ∧
      ttl = uint32Seconds pf c.optimisticTTL := by
  unfold Cache.answerTTL at h
  rw [if_pos hexp] at h
  split at h
  · cases h
  · next hc =>
    simp only [Bool.or_eq_true, Bool.not_eq_true', decide_eq_true_eq, not_or, Bool.not_eq_false,
      not_lt] at hc
    exact ⟨hc.1, hc.2, (Option.some.inj h).symm⟩

/-! ## Honest answers -/

/-- A lookup at `t` returns `ci` from an entry that `set` or `setWithSubnet` stored
for the response `m` at `t₀`. -/
def Cache.Returns (pf : Platform) (c : Cache) (req m : Msg) (u : Bytes) (t₀ t : Instant)
    (ci : CacheItem) (expired : Bool) : Prop :=
  ∃ item data, respToItem m u = some item ∧ item.pack pf t₀ = some data ∧
    (c.items (msgToKey req) = some data ∧
        (c.get pf req t).ci = some ci ∧ (c.get pf req t).expired = expired ∨
      ∃ n k, c.findWithSubnet req n = some (some data, k) ∧
        (c.getWithSubnet pf req n t).ci = some ci ∧ (c.getWithSubnet pf req n t).expired = expired)

/-- An answer `res` at `t` from an entry stored for `m` at `t₀` does not outlive the
TTLs of `m`. -/
structure HonestAge (pf : Platform) (c : Cache) (m : Msg) (t₀ t : Instant) (res : Msg)
    (expired : Bool) : Prop where
  /-- Before expiry no record has run out, -/
  lifetime : expired = false → ∀ r ∈ m.records, r.rrtype ≠ typeOPT →
    t.nano ≤ t₀.nano + r.ttl.toNat * second
  servFail : expired = false → m.rcode = rcodeServerFailure → t.nano ≤ t₀.nano + 30 * second
  /-- and no TTL goes beyond the expiry. -/
  remaining : expired = false → ∀ r ∈ res.records, (r.ttl.toNat : Int) ≤ expiry m t₀ - t.unix
  /-- After it, the cache is optimistic and the entry not too old, -/
  maxAge : expired = true →
    c.optimistic = true ∧ t.nano ≤ expiry m t₀ * second + c.optimisticMaxAge.toInt
  /-- and no TTL is above the one configured for such answers. -/
  optimisticTTL : expired = true → ∀ r ∈ res.records, r.ttl.toNat * second ≤ c.optimisticTTL.toInt
  /-- No TTL is the stored one: it is what is left, or the configured one. -/
  notOriginal : ∀ r ∈ res.records, (r.ttl.toNat : Int) =
    if expired then ((uint32Seconds pf c.optimisticTTL).toNat : Int) else expiry m t₀ - t.unix

/-- The optimistic answer TTLs that can be told in whole seconds: a second or more,
and either in the range of `uint32` and not rounded up to the next second, or out
of it on a platform that does not make it zero. -/
def HonestTTL (pf : Platform) (d : Duration) : Prop :=
  second ≤ d.toInt ∧
    (d.toInt < 2 ^ 32 * second ∧ ¬Binary64.RoundsUp d.toInt.natAbs ∨
      2 ^ 32 ≤ Binary64.wholeSeconds d.toInt.natAbs ∧
        pf.outOfRange (Binary64.wholeSeconds d.toInt.natAbs) ≠ 0)

/-- When an answer is honest: nothing is left of the response for this request, or
the entry has not expired and does not expire at this very instant, or it has
expired and the configured TTL can be told. -/
def HonestWhen (pf : Platform) (c : Cache) (m req : Msg) (t₀ t : Instant) : Prop :=
  keptRecords m req.doBit = [] ∨
  t.nano < expiry m t₀ * second ∨
  expiry m t₀ * second < t.nano ∧ HonestTTL pf c.optimisticTTL

theorem toNat_uint32Seconds (pf : Platform) {d : Duration} (hd : 0 < d.toInt)
    (h : Binary64.wholeSeconds d.toInt.natAbs < 2 ^ 32) :
    (uint32Seconds pf d).toNat = Binary64.wholeSeconds d.toInt.natAbs := by
  unfold uint32Seconds
  by_cases h0 : Binary64.wholeSeconds d.toInt.natAbs = 0
  · rw [if_pos h0, h0]
    rfl
  · rw [if_neg h0, if_pos ⟨hd, h⟩, UInt32.toNat_ofNat', Nat.mod_eq_of_lt h]

theorem uint32Seconds_outOfRange (pf : Platform) {d : Duration} (hd : 0 < d.toInt)
    (h : 2 ^ 32 ≤ Binary64.wholeSeconds d.toInt.natAbs) :
    uint32Seconds pf d = pf.outOfRange (Binary64.wholeSeconds d.toInt.natAbs) := by
  unfold uint32Seconds
  rw [if_neg (by omega), if_neg (by omega), Int.sign_eq_one_of_pos hd, Int.one_mul]

/-- These are the TTLs that the conversion leaves positive and does not raise. -/
theorem honestTTL_iff (pf : Platform) (d : Duration) :
    HonestTTL pf d ↔
      uint32Seconds pf d ≠ 0 ∧ (uint32Seconds pf d).toNat * second ≤ d.toInt := by
  have hmin := d.le_toInt
  have hmax := d.toInt_lt
  unfold HonestTTL second
  have hwhole : 0 < d.toInt → Binary64.wholeSeconds d.toInt.natAbs =
      d.toInt.natAbs / 10 ^ 9 + if Binary64.RoundsUp d.toInt.natAbs then 1 else 0 :=
    fun _ => Binary64.wholeSeconds_eq (by omega)
  constructor
  · rintro ⟨hone, ⟨hlt, hr⟩ | ⟨hbig, h0⟩⟩
    · rw [if_neg hr] at hwhole
      have hval := toNat_uint32Seconds pf (d := d) (by omega) (by omega)
      refine ⟨fun h0 => ?_, by omega⟩
      rw [h0] at hval
      have : (0 : UInt32).toNat = 0 := rfl
      omega
    · rw [uint32Seconds_outOfRange pf (by omega) hbig]
      have := (pf.outOfRange (Binary64.wholeSeconds d.toInt.natAbs)).toNat_lt
      refine ⟨h0, ?_⟩
      split at hwhole <;> omega
  · rintro ⟨h0, hle⟩
    have hone : 10 ^ 9 ≤ d.toInt := by
      have hne : (uint32Seconds pf d).toNat ≠ 0 := fun h => h0 (UInt32.toNat_inj.mp h)
      omega
    refine ⟨hone, ?_⟩
    by_cases hbig : 2 ^ 32 ≤ Binary64.wholeSeconds d.toInt.natAbs
    · rw [uint32Seconds_outOfRange pf (by omega) hbig] at h0
      exact .inr ⟨hbig, h0⟩
    · rw [toNat_uint32Seconds pf (by omega) (by omega)] at hle
      refine .inl ⟨by split at hwhole <;> omega, fun hr => ?_⟩
      rw [if_pos hr] at hwhole
      omega

theorem Cache.unpackItem_of_get {req : Msg} {data : Bytes}
    (hdata : c.items (msgToKey req) = some data) (hci : (c.get pf req t).ci = some ci) :
    c.unpackItem pf data req t = (some ci, (c.get pf req t).expired) := by
  have hq : canLookUpInCache req = true := by
    by_contra hq
    rw [get, if_pos (by simpa using hq)] at hci
    cases hci
  rcases hu : c.unpackItem pf data req t with ⟨r, e⟩
  cases r with
  | none => simp [get, hq, hdata, hu] at hci
  | some x => simpa [get, hq, hdata, hu] using hci

theorem Cache.unpackItem_of_getWithSubnet {req : Msg} {n : Option Net.IPNet} {k data : Bytes}
    (hdata : c.findWithSubnet req n = some (some data, k))
    (hci : (c.getWithSubnet pf req n t).ci = some ci) :
    c.unpackItem pf data req t = (some ci, (c.getWithSubnet pf req n t).expired) := by
  rcases hu : c.unpackItem pf data req t with ⟨r, e⟩
  cases r with
  | none => simp [getWithSubnet, hdata, hu] at hci
  | some x => simpa [getWithSubnet, hdata, hu] using hci

theorem Cache.Returns.unpackItem {req : Msg} {u : Bytes} {t₀ : Instant} {expired : Bool}
    (h : c.Returns pf req m u t₀ t ci expired) :
    ∃ item data, respToItem m u = some item ∧ item.pack pf t₀ = some data ∧
      c.unpackItem pf data req t = (some ci, expired) := by
  obtain ⟨item, data, hitem, hpack, ⟨hdata, hci, rfl⟩ | ⟨n, k, hfind, hci, rfl⟩⟩ := h
  · exact ⟨item, data, hitem, hpack, unpackItem_of_get hdata hci⟩
  · exact ⟨item, data, hitem, hpack, unpackItem_of_getWithSubnet hfind hci⟩

section Honest

variable {pf : Platform} {c : Cache} {req m res : Msg} {t₀ t : Instant} {ttl : UInt32}
  (hrec : res.records = (keptRecords m req.doBit).map (overwriteTTL ttl)) (hpos : cacheTTL m ≠ 0)

include hrec in
theorem ttl_of_ne_zero (h0 : ttl ≠ 0) : ∀ r ∈ res.records, r.ttl = ttl := by
  intro r hr
  rw [hrec] at hr
  obtain ⟨r', _, rfl⟩ := List.mem_map.mp hr
  exact overwriteTTL_ttl h0 r'

include hrec hpos in
theorem exists_ttl_pos (hk : keptRecords m req.doBit ≠ []) :
    ∃ r ∈ res.records, (ttl ≠ 0 → r.ttl = ttl) ∧ (ttl = 0 → 0 < r.ttl.toNat) := by
  obtain ⟨r, hr⟩ := List.exists_mem_of_ne_nil _ hk
  have hmem : overwriteTTL ttl r ∈ res.records := by
    rw [hrec]
    exact List.mem_map_of_mem hr
  refine ⟨_, hmem, fun h0 => overwriteTTL_ttl h0 r, ?_⟩
  rintro rfl
  rw [overwriteTTL_zero]
  exact Nat.pos_of_ne_zero fun h => keptRecords_ttl_ne hpos hr (UInt32.toNat_inj.mp h)

include hrec hpos in
theorem honestAge_expired_iff (hexp : expiry m t₀ * second < t.nano)
    (httl : c.answerTTL pf (expiry m t₀) t = some ttl) :
    HonestAge pf c m t₀ t res true ↔ HonestWhen pf c m req t₀ t := by
  obtain ⟨hopt, hage, rfl⟩ := answerTTL_expired hexp httl
  constructor
  · intro hon
    by_cases hk : keptRecords m req.doBit = []
    · exact .inl hk
    · obtain ⟨r, hr, hnew, hown⟩ := exists_ttl_pos hrec hpos hk
      have hval : (r.ttl.toNat : Int) = (uint32Seconds pf c.optimisticTTL).toNat :=
        hon.notOriginal r hr
      have h0 : uint32Seconds pf c.optimisticTTL ≠ 0 := by
        intro h0
        have hpos := hown h0
        rw [h0] at hval
        have : (0 : UInt32).toNat = 0 := rfl
        omega
      refine .inr (.inr ⟨hexp, (honestTTL_iff pf _).mpr ⟨h0, ?_⟩⟩)
      rw [← hnew h0]
      exact hon.optimisticTTL rfl r hr
  · intro hwhen
    have hage' : c.optimistic = true ∧ t.nano ≤ expiry m t₀ * second + c.optimisticMaxAge.toInt :=
      ⟨hopt, hage⟩
    rcases hwhen with hk | hlt | ⟨_, hd⟩
    · have hnone : res.records = [] := by rw [hrec, hk, List.map_nil]
      constructor <;> simp [hnone, hage']
    · omega
    · obtain ⟨h0, hle⟩ := (honestTTL_iff pf _).mp hd
      have hall := ttl_of_ne_zero hrec h0
      exact {
        lifetime := fun h => nomatch h
        servFail := fun h => nomatch h
        remaining := fun h => nomatch h
        maxAge := fun _ => hage'
        optimisticTTL := fun _ r hr => by rw [hall r hr]; exact hle
        notOriginal := fun r hr => by rw [hall r hr]; rfl }

/-- The stored second is not after the clock reading, so a fresh answer is not older than
what the TTL of the item is below. -/
theorem fresh_le {n : Nat} (hfresh : t.nano ≤ expiry m t₀ * second) (hn : (cacheTTL m).toNat ≤ n) :
    t.nano ≤ t₀.nano + n * second := by
  have hfloor : t₀.unix * second ≤ t₀.nano := Int.ediv_mul_le _ (by decide)
  have hle : ((cacheTTL m).toNat : Int) * second ≤ n * second :=
    Int.mul_le_mul_of_nonneg_right (Int.ofNat_le.mpr hn) (by decide)
  rw [expiry, Int.add_mul] at hfresh
  omega

include hrec hpos in
theorem honestAge_fresh_iff (ht : t₀.nano ≤ t.nano) (hfresh : t.nano ≤ expiry m t₀ * second)
    (httl : c.answerTTL pf (expiry m t₀) t = some ttl) :
    HonestAge pf c m t₀ t res false ↔ HonestWhen pf c m req t₀ t := by
  obtain ⟨ttl', httl', hrem⟩ := answerTTL_fresh ht hfresh
  obtain rfl := Option.some.inj (httl.symm.trans httl')
  constructor
  · intro hon
    by_cases hk : keptRecords m req.doBit = []
    · exact .inl hk
    · refine .inr (.inl (lt_of_le_of_ne hfresh fun heq => ?_))
      have hunix : t.unix = expiry m t₀ := by
        rw [Instant.unix, heq, Int.mul_ediv_cancel _ (by decide)]
      obtain ⟨r, hr, _, hown⟩ := exists_ttl_pos hrec hpos hk
      have hle := hon.remaining rfl r hr
      have hzero : ttl = 0 := UInt32.toNat_inj.mp (by
        show ttl.toNat = 0
        omega)
      have := hown hzero
      omega
  · intro hwhen
    have hrecords : ∀ r ∈ m.records, r.rrtype ≠ typeOPT →
        t.nano ≤ t₀.nano + r.ttl.toNat * second :=
      fun r hr hopt => fresh_le hfresh (cacheTTL_le_ttl hr hopt)
    have hserv : m.rcode = rcodeServerFailure → t.nano ≤ t₀.nano + 30 * second :=
      fun hs => fresh_le hfresh (cacheTTL_le_servFail hs)
    rcases hwhen with hk | hlt | ⟨hexp, _⟩
    · have hnone : res.records = [] := by rw [hrec, hk, List.map_nil]
      constructor <;> simp_all
    · have hlt' : t.unix < expiry m t₀ := Int.ediv_lt_of_lt_mul (by decide) hlt
      have h0 : ttl ≠ 0 := by
        rintro rfl
        have : (0 : UInt32).toNat = 0 := rfl
        omega
      have hall := ttl_of_ne_zero hrec h0
      exact {
        lifetime := fun _ => hrecords
        servFail := fun _ => hserv
        remaining := fun _ r hr => by rw [hall r hr]; exact Int.le_of_eq hrem
        maxAge := fun h => nomatch h
        optimisticTTL := fun h => nomatch h
        notOriginal := fun r hr => by rw [hall r hr]; exact hrem }
    · omega

end Honest

/-- The answers from the cache are honest about their age exactly under
`HonestWhen`. -/
theorem cachedTTL_honest_iff (pf : Platform) (c : Cache) (req m : Msg) (hrt : pf.RoundTrips m)
    (u : Bytes) (t₀ t : Instant) (ht : t₀.nano ≤ t.nano) (ci : CacheItem) (expired : Bool)
    (h : c.Returns pf req m u t₀ t ci expired) :
    HonestAge pf c m t₀ t ci.m expired ↔ HonestWhen pf c m req t₀ t := by
  obtain ⟨item, data, hitem, hpack, hunpack⟩ := h.unpackItem
  obtain ⟨ttl, httl, rfl, rfl⟩ := unpackItem_pack hrt hitem hpack hunpack
  have hpos := (respToItem_eq_some hitem).2
  have hrec := records_replyFrom req { m with compress := false } ttl
  by_cases hexp : expiry m t₀ * second < t.nano
  · rw [decide_eq_true hexp]
    exact honestAge_expired_iff hrec hpos hexp httl
  · rw [decide_eq_false hexp]
    exact honestAge_fresh_iff hrec hpos ht (Int.not_lt.mp hexp) httl

/-- A cache with `exampleAnswer`, stored half a second after the epoch. -/
def cacheOfExample (optimistic : Bool) (optimisticTTL : Duration) : Cache :=
  Cache.run examplePlatform false optimistic optimisticTTL 10000000000
    [.set exampleQuery exampleAnswer [] ⟨500000000, by decide⟩]

/-- After half of its lifetime the answer is returned with the other half. -/
theorem cachedTTL_honest_half :
    ∃ ci, (cacheOfExample false 0).Returns examplePlatform exampleQuery exampleAnswer []
        ⟨500000000, by decide⟩ ⟨30 * second, by decide⟩ ci false ∧
      HonestAge examplePlatform (cacheOfExample false 0) exampleAnswer
        ⟨500000000, by decide⟩ ⟨30 * second, by decide⟩ ci.m false := by
  have hret : (cacheOfExample false 0).Returns examplePlatform exampleQuery exampleAnswer []
      ⟨500000000, by decide⟩ ⟨30 * second, by decide⟩
      ⟨Cache.replyFrom exampleQuery exampleAnswer 30, [], 0⟩ false :=
    ⟨⟨exampleAnswer, [], 60⟩, putInt64 60 ++ [0, 56] ++ exampleAnswerWire, by decide +kernel,
      by decide +kernel, .inl ⟨by decide +kernel, by decide +kernel, by decide +kernel⟩⟩
  exact ⟨_, hret, (cachedTTL_honest_iff examplePlatform _ _ _ (examplePlatform_roundTrips _) _ _ _
    (by decide) _ _ hret).mpr (.inr (.inl (by decide +kernel)))⟩

/-- At the instant of expiry, and after it with an optimistic answer TTL of half a
second, the answer comes with the minute it had when it was stored. -/
theorem cachedTTL_original_returned :
    (∃ ci, (cacheOfExample false 0).Returns examplePlatform exampleQuery exampleAnswer []
        ⟨500000000, by decide⟩ ⟨60 * second, by decide⟩ ci false ∧
      ci.m.answer.map RR.ttl = [60] ∧
      ¬HonestAge examplePlatform (cacheOfExample false 0) exampleAnswer
        ⟨500000000, by decide⟩ ⟨60 * second, by decide⟩ ci.m false) ∧
    (∃ ci, (cacheOfExample true 500000000).Returns examplePlatform exampleQuery exampleAnswer []
        ⟨500000000, by decide⟩ ⟨61 * second, by decide⟩ ci true ∧
      ci.m.answer.map RR.ttl = [60] ∧
      ¬HonestAge examplePlatform (cacheOfExample true 500000000) exampleAnswer
        ⟨500000000, by decide⟩ ⟨61 * second, by decide⟩ ci.m true) := by
  have hstored : respToItem exampleAnswer [] = some ⟨exampleAnswer, [], 60⟩ ∧
      CacheItem.pack examplePlatform ⟨exampleAnswer, [], 60⟩ ⟨500000000, by decide⟩ =
        some (putInt64 60 ++ [0, 56] ++ exampleAnswerWire) := by
    decide +kernel
  refine ⟨⟨⟨Cache.replyFrom exampleQuery exampleAnswer 0, [], 0⟩,
    ⟨_, _, hstored.1, hstored.2, .inl (by decide +kernel)⟩, by decide, fun hon => ?_⟩,
    ⟨⟨Cache.replyFrom exampleQuery exampleAnswer 0, [], 0⟩,
    ⟨_, _, hstored.1, hstored.2, .inl (by decide +kernel)⟩, by decide, fun hon => ?_⟩⟩
  · exact absurd (hon.remaining rfl _ List.mem_cons_self) (by decide +kernel)
  · exact absurd (hon.optimisticTTL rfl _ List.mem_cons_self) (by decide +kernel)

end DnsProxy
