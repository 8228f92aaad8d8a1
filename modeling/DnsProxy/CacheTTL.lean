import DnsProxy.CacheAge

/-!
# The lifetime of a cached response, in closed form

`calculateTTL` keeps a running minimum with a sentinel and leaves its loop at the
first zero, and `isCacheableNegative` scans the authority section with a flag. Both
loops compute what a reader expects of them: the least TTL of the records that are
not OPT records, and whether the section has an SOA record and no NS record. The
lifetime of a response is a function of these, so no order of the records matters.
-/

namespace DnsProxy

/-! ## The running minimum -/

def ttls (rs : List RR) : List UInt32 := (rs.filter fun r => r.rrtype != typeOPT).map RR.ttl

/-- The least TTL of the records of a message, OPT records aside. -/
def leastTTL (m : Msg) : UInt32 := (ttls m.records).min?.getD maxUint32

theorem minTTL_eq_min (r : RR) (ttl : UInt32) :
    minTTL r ttl = (ttls [r]).foldl min ttl := by
  unfold minTTL
  by_cases hopt : r.rrtype = typeOPT
  · simp [hopt, ttls]
  · simp only [hopt, if_false, ttls, List.filter_cons, bne_iff_ne, ne_eq, not_false_eq_true,
      if_true, List.filter_nil, List.map_cons, List.map_nil, List.foldl_cons, List.foldl_nil]
    rw [Std.min_eq_if]
    by_cases hlt : r.ttl < ttl
    · rw [if_pos hlt, if_neg (UInt32.not_le.mpr hlt)]
    · rw [if_neg hlt, if_pos (UInt32.not_lt.mp hlt)]

theorem ttls_cons (r : RR) (rs : List RR) : ttls (r :: rs) = ttls [r] ++ ttls rs := by
  simp [ttls, List.filter_cons]
  split <;> simp

theorem foldl_min_zero (xs : List UInt32) : xs.foldl min 0 = 0 := by
  induction xs with
  | nil => rfl
  | cons x xs ih =>
    have hmin : min 0 x = 0 := by rw [Std.min_eq_if, if_pos UInt32.zero_le]
    rw [List.foldl_cons, hmin, ih]

theorem scanTTL_eq_foldl (rs : List RR) (ttl : UInt32) :
    scanTTL rs ttl = (ttls rs).foldl min ttl := by
  induction rs generalizing ttl with
  | nil => rfl
  | cons r rs ih =>
    rw [ttls_cons, List.foldl_append, ← minTTL_eq_min, scanTTL]
    by_cases h : minTTL r ttl = 0
    · simp only [h, if_true, foldl_min_zero]
    · simp only [h, if_false, ih]

theorem le_maxUint32 (x : UInt32) : x ≤ maxUint32 :=
  UInt32.le_iff_toNat_le.mpr (Nat.le_of_lt_succ x.toNat_lt)

theorem foldl_min_max (xs : List UInt32) : xs.foldl min maxUint32 = xs.min?.getD maxUint32 := by
  cases xs with
  | nil => rfl
  | cons x xs =>
    have hmin : min maxUint32 x = x := by
      rw [Std.min_eq_if]
      split
      · exact UInt32.le_antisymm ‹_› (le_maxUint32 x)
      · rfl
    rw [List.foldl_cons, hmin, List.min?_cons', Option.getD_some]

theorem scanTTL_records (m : Msg) : scanTTL m.records maxUint32 = leastTTL m := by
  rw [scanTTL_eq_foldl, foldl_min_max, leastTTL]

variable {m m' : Msg}

theorem leastTTL_congr (h : ∀ x, x ∈ ttls m.records ↔ x ∈ ttls m'.records) :
    leastTTL m = leastTTL m' := by
  unfold leastTTL
  congr 1
  cases hm : (ttls m.records).min? with
  | none =>
    have hnil : ttls m.records = [] := List.min?_eq_none_iff.mp hm
    have hnil' : ttls m'.records = [] :=
      List.eq_nil_iff_forall_not_mem.mpr fun x hx => by simpa [hnil] using (h x).mpr hx
    rw [hnil', List.min?_nil]
  | some t =>
    obtain ⟨hmem, hle⟩ := List.min?_eq_some_iff.mp hm
    exact (List.min?_eq_some_iff.mpr ⟨(h t).mp hmem, fun x hx => hle x ((h x).mpr hx)⟩).symm

/-! ## The scan of the authority section -/

/-- The authority section makes the response a negative one of an authoritative
server. -/
def Authoritative (m : Msg) : Prop :=
  (∃ r ∈ m.ns, r.rrtype = typeSOA) ∧ ∀ r ∈ m.ns, r.rrtype ≠ typeNS

def HasAddress (m : Msg) : Prop := ∃ r ∈ m.answer, r.rrtype = typeA ∨ r.rrtype = typeAAAA

theorem scanNegative_iff (rs : List RR) (ok : Bool) :
    scanNegative rs ok = true ↔
      (ok = true ∨ ∃ r ∈ rs, r.rrtype = typeSOA) ∧ ∀ r ∈ rs, r.rrtype ≠ typeNS := by
  induction rs generalizing ok with
  | nil => simp [scanNegative]
  | cons r rs ih =>
    unfold scanNegative
    by_cases hsoa : r.rrtype = typeSOA
    · have hns : r.rrtype ≠ typeNS := by rw [hsoa]; decide
      simp only [hsoa, if_true, ih, true_or, true_and, List.mem_cons, forall_eq_or_imp,
        exists_eq_or_imp, or_true]
      exact ⟨fun h => ⟨by decide, h⟩, fun h => h.2⟩
    · by_cases hns : r.rrtype = typeNS
      · simp [hns, show typeNS ≠ typeSOA by decide]
      · simp [hsoa, hns, ih]

theorem isCacheableNegative_iff (m : Msg) : isCacheableNegative m = true ↔ Authoritative m := by
  rw [isCacheableNegative, scanNegative_iff]
  simp [Authoritative]

theorem hasIPAns_iff (m : Msg) : hasIPAns m = true ↔ HasAddress m := by
  simp [hasIPAns, HasAddress]

theorem isCacheableSucceded_iff (m : Msg) :
    isCacheableSucceded m = true ↔
      (m.firstQuestion.qtype ≠ typeA ∧ m.firstQuestion.qtype ≠ typeAAAA) ∨ HasAddress m ∨
        Authoritative m := by
  simp [isCacheableSucceded, hasIPAns_iff, isCacheableNegative_iff, or_assoc]

/-! ## The lifetime -/

theorem calculateTTL_eq (m : Msg) :
    calculateTTL m =
      if m.rcode = rcodeServerFailure then min (leastTTL m) servFailMaxCacheTTL
      else if leastTTL m < maxUint32 then leastTTL m else 0 := by
  unfold calculateTTL
  simp only [scanTTL_records]
  generalize leastTTL m = t
  rw [Std.min_eq_if]
  have hmax : t < maxUint32 ↔ t ≠ maxUint32 :=
    ⟨UInt32.ne_of_lt, fun h => UInt32.lt_of_le_of_ne (le_maxUint32 t) h⟩
  by_cases hzero : t = 0
  · simp [hzero]
  · by_cases hfail : m.rcode = rcodeServerFailure
    · by_cases hcap : servFailMaxCacheTTL < t
      · simp [hzero, hfail, hcap]
      · have hle : t ≤ servFailMaxCacheTTL := UInt32.not_lt.mp hcap
        have hne : t ≠ maxUint32 := by
          rintro rfl
          exact absurd hle (by decide)
        simp [hzero, hfail, hcap, hle, hne]
    · simp only [hzero, hfail, false_and, if_false, hmax]
      split <;> simp_all

theorem calculateTTL_ne_zero_iff (m : Msg) :
    calculateTTL m ≠ 0 ↔
      0 < leastTTL m ∧ (m.rcode = rcodeServerFailure ∨ leastTTL m < maxUint32) := by
  rw [calculateTTL_eq]
  generalize leastTTL m = t
  by_cases hfail : m.rcode = rcodeServerFailure
  · simp only [hfail, if_true, true_or, and_true, UInt32.pos_iff_ne_zero]
    rw [Std.min_eq_if]
    split
    · rfl
    · next hle =>
      have hne : t ≠ 0 := by
        rintro rfl
        exact hle (by decide)
      simp [hne, show servFailMaxCacheTTL ≠ 0 by decide]
  · simp only [hfail, if_false, false_or, UInt32.pos_iff_ne_zero]
    split <;> simp_all

theorem cacheTTL_ne_zero_iff (m : Msg) :
    cacheTTL m ≠ 0 ↔
      m.truncated = false ∧ m.question.length = 1 ∧ calculateTTL m ≠ 0 ∧
        ((m.rcode = rcodeSuccess ∧ isCacheableSucceded m = true) ∨
          (m.rcode = rcodeNameError ∧ isCacheableNegative m = true) ∨
          m.rcode = rcodeServerFailure) := by
  have hne : rcodeNameError ≠ rcodeSuccess := by decide
  have hsf : rcodeServerFailure ≠ rcodeSuccess ∧ rcodeServerFailure ≠ rcodeNameError := by decide
  unfold cacheTTL
  cases htc : m.truncated with
  | true => simp
  | false =>
    by_cases hq : m.question.length = 1
    · by_cases hzero : calculateTTL m = 0
      · simp [hq, hzero]
      · by_cases hok : m.rcode = rcodeSuccess
        · simp [hq, hzero, hok, hne.symm, hsf.1.symm]
        · by_cases hnx : m.rcode = rcodeNameError
          · simp [hq, hzero, hnx, hne, hsf.2.symm]
          · simp [hq, hzero, hok, hnx]
    · simp [hq]

theorem cacheTTL_eq_calculateTTL (h : cacheTTL m ≠ 0) : cacheTTL m = calculateTTL m := by
  unfold cacheTTL at h ⊢
  split_ifs at h ⊢ <;> simp_all

/-! ## The order of the records -/

/-- The fields of the message that are not sections and that the lifetime reads. -/
structure SameHead (m m' : Msg) : Prop where
  truncated : m'.truncated = m.truncated
  question : m'.question = m.question
  rcode : m'.rcode = m.rcode

theorem cacheTTL_congr (hdr : SameHead m m') (hleast : leastTTL m' = leastTTL m)
    (haddr : HasAddress m' ↔ HasAddress m) (hauth : Authoritative m' ↔ Authoritative m) :
    cacheTTL m' = cacheTTL m := by
  have hcalc : calculateTTL m' = calculateTTL m := by
    rw [calculateTTL_eq, calculateTTL_eq, hdr.rcode, hleast]
  have hneg : isCacheableNegative m' = isCacheableNegative m := by
    rw [Bool.eq_iff_iff, isCacheableNegative_iff, isCacheableNegative_iff, hauth]
  have hip : hasIPAns m' = hasIPAns m := by
    rw [Bool.eq_iff_iff, hasIPAns_iff, hasIPAns_iff, haddr]
  unfold cacheTTL isCacheableSucceded Msg.firstQuestion
  rw [hdr.truncated, hdr.question, hdr.rcode, hcalc, hneg, hip]

theorem leastTTL_perm (h : m'.records.Perm m.records) : leastTTL m' = leastTTL m :=
  leastTTL_congr fun _ => ((h.filter _).map _).mem_iff

theorem records_perm (ha : m'.answer.Perm m.answer) (hn : m'.ns.Perm m.ns)
    (he : m'.extra.Perm m.extra) : m'.records.Perm m.records :=
  (ha.append hn).append he

theorem authoritative_perm (h : m'.ns.Perm m.ns) : Authoritative m' ↔ Authoritative m := by
  simp only [Authoritative, h.mem_iff]

theorem hasAddress_perm (h : m'.answer.Perm m.answer) : HasAddress m' ↔ HasAddress m := by
  simp only [HasAddress, h.mem_iff]

/-- A response is stored exactly when it is whole, asks one question, has a positive
TTL, and is a success with data, a negative response of an authoritative server, or a
server failure. Records may be reordered, and moved between the sections as long as
the kinds of records that are looked for stay where they are. -/
theorem cacheTTL_eq_leastTTL (m : Msg) :
    (cacheTTL m ≠ 0 ↔
      m.truncated = false ∧ m.question.length = 1 ∧ 0 < leastTTL m ∧
        ((m.rcode = rcodeSuccess ∧ leastTTL m < maxUint32 ∧
            ((m.firstQuestion.qtype ≠ typeA ∧ m.firstQuestion.qtype ≠ typeAAAA) ∨
              HasAddress m ∨ Authoritative m)) ∨
          (m.rcode = rcodeNameError ∧ leastTTL m < maxUint32 ∧ Authoritative m) ∨
          m.rcode = rcodeServerFailure)) ∧
    (cacheTTL m ≠ 0 →
      cacheTTL m =
        if m.rcode = rcodeServerFailure then min (leastTTL m) servFailMaxCacheTTL
        else leastTTL m) ∧
    (∀ m' : Msg, SameHead m m' → m'.answer.Perm m.answer → m'.ns.Perm m.ns →
      m'.extra.Perm m.extra → cacheTTL m' = cacheTTL m) ∧
    (∀ m' : Msg, SameHead m m' → m'.records.Perm m.records →
      (HasAddress m' ↔ HasAddress m) → (Authoritative m' ↔ Authoritative m) →
      cacheTTL m' = cacheTTL m) := by
  refine ⟨?_, ?_, ?_, ?_⟩
  · rw [cacheTTL_ne_zero_iff, calculateTTL_ne_zero_iff, isCacheableSucceded_iff,
      isCacheableNegative_iff]
    constructor
    · rintro ⟨htc, hq, ⟨hpos, hlt⟩, hcase⟩
      refine ⟨htc, hq, hpos, ?_⟩
      rcases hcase with ⟨hok, h⟩ | ⟨hnx, h⟩ | hfail
      · exact Or.inl ⟨hok, hlt.resolve_left (by rw [hok]; decide), h⟩
      · exact Or.inr (Or.inl ⟨hnx, hlt.resolve_left (by rw [hnx]; decide), h⟩)
      · exact Or.inr (Or.inr hfail)
    · rintro ⟨htc, hq, hpos, hcase⟩
      refine ⟨htc, hq, ?_⟩
      rcases hcase with ⟨hok, hlt, h⟩ | ⟨hnx, hlt, h⟩ | hfail
      · exact ⟨⟨hpos, Or.inr hlt⟩, Or.inl ⟨hok, h⟩⟩
      · exact ⟨⟨hpos, Or.inr hlt⟩, Or.inr (Or.inl ⟨hnx, h⟩)⟩
      · exact ⟨⟨hpos, Or.inl hfail⟩, Or.inr (Or.inr hfail)⟩
  · intro h
    obtain ⟨-, -, hcalc, -⟩ := (cacheTTL_ne_zero_iff m).mp h
    have hlt := ((calculateTTL_ne_zero_iff m).mp hcalc).2
    rw [cacheTTL_eq_calculateTTL h, calculateTTL_eq]
    split
    · rfl
    · next hfail => rw [if_pos (hlt.resolve_left hfail)]
  · intro m' hdr ha hn he
    exact cacheTTL_congr hdr (leastTTL_perm (records_perm ha hn he)) (hasAddress_perm ha)
      (authoritative_perm hn)
  · intro m' hdr hrec haddr hauth
    exact cacheTTL_congr hdr (leastTTL_perm hrec) haddr hauth

end DnsProxy
