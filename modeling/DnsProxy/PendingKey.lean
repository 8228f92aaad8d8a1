import DnsProxy.Proxy

/-!
# Keys of pending requests

`pendingKey` is the key under which `defaultPendingRequests` stores a request. It
uses one map for two encodings: with a subnet the prefix length and the address
stand before the name, without one the name comes at once.

* `UnpackedName`: the names the message library can produce;
* `identical_of_key_eq`: when two requests have one key. Within each encoding only
  identical questions do, up to the address of a zero-length prefix; across the
  two, a name can spell the prefix length and the address of an IPv6 subnet
  (`Spells`), which takes a prefix length between 122 and 126.
-/

namespace DnsProxy

open BitPrefix Net

/-- The key that `queue` and `done` compute; `none` for a subnet that `cacheSubnet`
rejects. -/
def pendingKey (d : DNSContext) : Option Bytes :=
  match d.reqECS with
  | some n => (cacheSubnet (some n)).map fun (ip, ones) => msgToKeyWithSubnet d.req ip ones
  | none => some (msgToKey d.req)

/-! ## Names -/

/-- The bytes that the message library writes behind a backslash. -/
def isDomainNameLabelSpecial (b : UInt8) : Bool :=
  b ∈ ([46, 32, 39, 64, 59, 40, 41, 34, 92] : Bytes)

/-- One byte of a label in the presentation of a name: the unprintable ones are
written as three decimal digits. -/
def presentByte (b : UInt8) : Bytes :=
  if isDomainNameLabelSpecial b then [92, b]
  else if b < 32 ∨ 126 < b then [92, 48 + b / 100, 48 + b / 10 % 10, 48 + b % 10]
  else [b]

def presentName : List Bytes → Bytes
  | [] => [46]
  | labels => labels.flatMap fun l => l.flatMap presentByte ++ [46]

/-- The names that the unpacker produces: presentations of at most 255 bytes of
labels. -/
def UnpackedName (n : Bytes) : Prop :=
  ∃ labels : List Bytes, (∀ l ∈ labels, l ≠ [] ∧ l.length ≤ 63) ∧
    (labels.map fun l => l.length + 1).sum + 1 ≤ 255 ∧ n = presentName labels

theorem digit_printable {n : UInt8} (h : n < 10) : Printable (48 + n) := by
  simp only [Printable, UInt8.le_iff_toNat_le, UInt8.lt_iff_toNat_lt, UInt8.toNat_add] at h ⊢
  have h' : n.toNat < 10 := h
  show 32 ≤ (48 + n.toNat) % 2 ^ 8 ∧ (48 + n.toNat) % 2 ^ 8 ≤ 126
  omega

theorem special_printable {b : UInt8} (h : isDomainNameLabelSpecial b) : Printable b := by
  simp only [isDomainNameLabelSpecial, List.mem_cons, List.not_mem_nil, or_false,
    decide_eq_true_eq] at h
  rcases h with rfl | rfl | rfl | rfl | rfl | rfl | rfl | rfl | rfl <;> decide

theorem presentByte_printable (b : UInt8) : PrintableName (presentByte b) := by
  unfold presentByte
  split
  · next h =>
    intro x hx
    simp only [List.mem_cons, List.not_mem_nil, or_false] at hx
    rcases hx with rfl | rfl
    · decide
    · exact special_printable h
  · split
    · intro x hx
      have hb := b.toNat_lt
      simp only [List.mem_cons, List.not_mem_nil, or_false] at hx
      rcases hx with rfl | rfl | rfl | rfl
      · decide
      all_goals
        apply digit_printable
        rw [UInt8.lt_iff_toNat_lt]
      · show b.toNat / 100 < 10
        omega
      · show b.toNat / 10 % 10 < 10
        omega
      · show b.toNat % 10 < 10
        omega
    · next h =>
      intro x hx
      obtain rfl := List.mem_singleton.mp hx
      simp only [not_or, UInt8.not_lt] at h
      exact h

theorem UnpackedName.printable {n : Bytes} (h : UnpackedName n) : PrintableName n := by
  obtain ⟨labels, _, _, rfl⟩ := h
  unfold presentName
  split
  · decide
  · intro b hb
    obtain ⟨l, _, hb⟩ := List.mem_flatMap.mp hb
    rcases List.mem_append.mp hb with hb | hb
    · obtain ⟨x, _, hb⟩ := List.mem_flatMap.mp hb
      exact presentByte_printable x b hb
    · obtain rfl := List.mem_singleton.mp hb
      decide

theorem UnpackedName.head_ne_blank {n : Bytes} (h : UnpackedName n) : n.head? ≠ some 32 := by
  obtain ⟨labels, hl, _, rfl⟩ := h
  cases labels with
  | nil => decide
  | cons l labels =>
    obtain ⟨hne, _⟩ := hl l (List.mem_cons_self)
    obtain ⟨b, bs, rfl⟩ := List.exists_cons_of_ne_nil hne
    show (((b :: bs).flatMap presentByte ++ [46]) ++ _).head? ≠ some 32
    rw [List.flatMap_cons, presentByte]
    split
    · simp
    · next hs =>
      split
      · simp
      · intro h32
        obtain rfl : b = 32 := by simpa using h32
        exact hs (by decide)

/-! ## Equal keys -/

/-- `d` carries no subnet, and its name spells the prefix length, the address and the
name of `d'`, which carries an IPv6 subnet of prefix length 122 to 126. -/
def Spells (d d' : DNSContext) : Prop :=
  d.reqECS = none ∧ ∃ n s, d'.reqECS = some n ∧ subnetOf n = some s ∧
    s.ip.length = 16 ∧ 122 ≤ s.ones ∧ s.ones ≤ 126 ∧
    d.req.doBit = d'.req.doBit ∧ d.req.firstQuestion.qtype = d'.req.firstQuestion.qtype ∧
    d.req.firstQuestion.qclass = d'.req.firstQuestion.qclass ∧
    toLower d.req.firstQuestion.name =
      UInt8.ofNat s.ones :: (s.ip ++ toLower d'.req.firstQuestion.name)

/-- The same question for the same subnet: `d` and `d'` agree in the DO bit, the type,
the class and the case-folded name, and in the masked subnet, if any. -/
def Identical (d d' : DNSContext) : Prop :=
  SameQuestion d.req d'.req ∧ (d.reqECS = none ∧ d'.reqECS = none ∨
    ∃ n n' s, d.reqECS = some n ∧ d'.reqECS = some n' ∧ subnetOf n = some s ∧ subnetOf n' = some s)

/-- The same question with two subnets of prefix length zero that are not the same,
as those of the two families. -/
def ZeroPrefixes (d d' : DNSContext) : Prop :=
  SameQuestion d.req d'.req ∧ ∃ n n' s s', d.reqECS = some n ∧ d'.reqECS = some n' ∧
    subnetOf n = some s ∧ subnetOf n' = some s' ∧ s.ones = 0 ∧ s'.ones = 0 ∧ s.ip ≠ s'.ip

variable {d d' : DNSContext}

theorem pendingKey_of_subnet {n : IPNet} {k : Bytes} (hd : d.reqECS = some n)
    (hk : pendingKey d = some k) :
    ∃ s, subnetOf n = some s ∧ k = msgToKeyWithSubnet d.req s.ip s.ones := by
  unfold pendingKey at hk
  rw [hd] at hk
  obtain ⟨⟨ip, ones⟩, hc, rfl⟩ := Option.map_eq_some_iff.mp hk
  have hcan := cacheSubnet_canonical hc
  exact ⟨⟨ip, ones, hcan.1, hcan.2.1, hcan.2.2⟩, subnetOf_eq_some.mpr hc, rfl⟩

theorem pendingKey_of_subnetOf {n : IPNet} {s : Subnet} (hd : d.reqECS = some n)
    (hs : subnetOf n = some s) : pendingKey d = some (msgToKeyWithSubnet d.req s.ip s.ones) := by
  unfold pendingKey
  rw [hd]
  simp only [subnetOf_eq_some.mp hs, Option.map_some]

theorem pendingKey_of_none (hd : d.reqECS = none) : pendingKey d = some (msgToKey d.req) := by
  unfold pendingKey
  rw [hd]

theorem prefix_of_printable {s : Subnet} (h16 : s.ip.length = 16) (hp : PrintableName s.ip) :
    122 ≤ s.ones := by
  by_contra hlt
  obtain ⟨xs, b, hxs⟩ := List.eq_nil_or_concat s.ip |>.resolve_left (by
    intro h
    rw [h] at h16
    cases h16)
  rw [List.concat_eq_append] at hxs
  have hlen : xs.length = 15 := by
    rw [hxs, List.length_append, List.length_singleton] at h16
    omega
  have hb : b &&& topOnes (min (s.ones - 120) 8) = b := by
    have hm := s.masked
    rw [hxs, keepBits_append, hlen] at hm
    obtain ⟨_, hm⟩ := List.append_inj hm (length_keepBits _ _)
    exact (List.cons.inj hm).1
  obtain ⟨hlo, hhi⟩ : Printable b := hp b (by rw [hxs]; simp)
  rw [UInt8.le_iff_toNat_le] at hlo hhi
  -- Only the top bit can be left, and a byte with the top bit is not printable.
  have hsmall : ∀ m < 127, 32 ≤ m → UInt8.ofNat m &&& topOnes 0 ≠ UInt8.ofNat m ∧
      UInt8.ofNat m &&& topOnes 1 ≠ UInt8.ofNat m := by decide
  obtain ⟨h0, h1⟩ := hsmall b.toNat (Nat.lt_succ_of_le hhi) hlo
  rw [UInt8.ofNat_toNat] at h0 h1
  rcases Nat.lt_or_ge s.ones 121 with h | h
  · rw [show min (s.ones - 120) 8 = 0 by omega] at hb
    exact h0 hb
  · rw [show min (s.ones - 120) 8 = 1 by omega] at hb
    exact h1 hb

theorem lowerByte_eq_blank {b : UInt8} (h : lowerByte b = 32) : b = 32 := by
  unfold lowerByte at h
  split at h
  · next hupper =>
    have h65 : 65 ≤ b.toNat := UInt8.le_iff_toNat_le.mp hupper.1
    have h90 : b.toNat ≤ 90 := UInt8.le_iff_toNat_le.mp hupper.2
    have hsum := congrArg UInt8.toNat h
    rw [UInt8.toNat_add] at hsum
    have hsum : (b.toNat + 32) % 2 ^ 8 = 32 := hsum
    omega
  · exact h

theorem UnpackedName.toLower_ne_blank {name bs : Bytes} (h : UnpackedName name) :
    toLower name ≠ 32 :: bs := by
  intro heq
  apply h.head_ne_blank
  cases name with
  | nil => cases heq
  | cons b _ =>
    rw [lowerByte_eq_blank (List.cons.inj heq).1]
    rfl

/-- A key without a subnet and one with a subnet are equal only if the name of the
first spells the second. -/
theorem spells_of_eq {n : IPNet} {k : Bytes} (hname : UnpackedName d.req.firstQuestion.name)
    (hd : d.reqECS = none) (hd' : d'.reqECS = some n) (hk : pendingKey d = some k)
    (hk' : pendingKey d' = some k) : Spells d d' := by
  obtain ⟨s, hs, rfl⟩ := pendingKey_of_subnet hd' hk'
  rw [pendingKey_of_none hd, Option.some.injEq] at hk
  obtain ⟨hhead, hrest⟩ := List.append_inj hk (by simp)
  obtain ⟨hdo, hty, hcl⟩ := keyHead_inj hhead
  have hprint := hname.printable.toLower
  rw [hrest] at hprint
  have hones : s.ones < 256 := by
    have := s.bound
    have := s.family
    omega
  -- The prefix length is the first byte of the name, which is printable and no blank.
  have hbyte : (UInt8.ofNat s.ones).toNat = s.ones := by
    rw [UInt8.toNat_ofNat']
    omega
  obtain ⟨hlo, hhi⟩ : Printable (UInt8.ofNat s.ones) := hprint _ List.mem_cons_self
  rw [UInt8.le_iff_toNat_le, hbyte] at hlo hhi
  have hne : s.ones ≠ 32 := by
    intro h32
    rw [h32] at hrest
    exact hname.toLower_ne_blank hrest
  have h32 : 32 ≤ s.ones := hlo
  have h126 : s.ones ≤ 126 := hhi
  have h16 : s.ip.length = 16 := by
    have := s.bound
    rcases s.family with h | h | h <;> omega
  rw [if_pos (by omega)] at hrest hprint
  have hip : PrintableName s.ip := fun b hb =>
    hprint b (List.mem_cons_of_mem _ (List.mem_append_left _ hb))
  exact ⟨hd, n, s, hd', hs, h16, prefix_of_printable h16 hip, h126, hdo, hty, hcl, hrest⟩

theorem Spells.key_eq (h : Spells d d') : ∃ k, pendingKey d = some k ∧ pendingKey d' = some k := by
  obtain ⟨hd, n, s, hd', hs, _, hlo, _, hdo, hty, hcl, hname⟩ := h
  refine ⟨_, pendingKey_of_none hd, ?_⟩
  rw [pendingKey_of_subnetOf hd' hs, msgToKeyWithSubnet, if_pos (by omega), msgToKey, hname,
    keyHead, keyHead, hdo, hty, hcl]

theorem Spells.not_identical (h : Spells d d') : ¬Identical d d' ∧ ¬Identical d' d := by
  obtain ⟨hd, n, s, hd', _⟩ := h
  constructor
  · rintro ⟨_, ⟨_, h'⟩ | ⟨_, _, _, h, _⟩⟩
    · rw [hd'] at h'
      cases h'
    · rw [hd] at h
      cases h
  · rintro ⟨_, ⟨h', _⟩ | ⟨_, _, _, _, h, _⟩⟩
    · rw [hd'] at h'
      cases h'
    · rw [hd] at h
      cases h

theorem ZeroPrefixes.key_eq (h : ZeroPrefixes d d') :
    ∃ k, pendingKey d = some k ∧ pendingKey d' = some k := by
  obtain ⟨hq, n, n', s, s', hd, hd', hs, hs', h0, h0', _⟩ := h
  refine ⟨_, pendingKey_of_subnetOf hd hs, ?_⟩
  rw [pendingKey_of_subnetOf hd' hs',
    keyWithSubnet_congr hq ⟨h0.trans h0'.symm, fun h => absurd h0 h⟩]

theorem ZeroPrefixes.not_identical (h : ZeroPrefixes d d') : ¬Identical d d' := by
  obtain ⟨_, n, n', s, s', hd, hd', hs, hs', _, _, hne⟩ := h
  rintro ⟨_, ⟨h, _⟩ | ⟨m, m', t, hm, hm', ht, ht'⟩⟩
  · rw [hd] at h
    cases h
  · obtain rfl := Option.some.inj (hd.symm.trans hm)
    obtain rfl := Option.some.inj (hd'.symm.trans hm')
    obtain rfl := Option.some.inj (hs.symm.trans ht)
    obtain rfl := Option.some.inj (hs'.symm.trans ht')
    exact hne rfl

/-- One key for two requests: they are identical, or one of the exceptions. -/
theorem identical_of_key_eq {k : Bytes} (hname : UnpackedName d.req.firstQuestion.name)
    (hname' : UnpackedName d'.req.firstQuestion.name) (hk : pendingKey d = some k)
    (hk' : pendingKey d' = some k) :
    Identical d d' ∨ Spells d d' ∨ Spells d' d ∨ ZeroPrefixes d d' := by
  cases hd : d.reqECS with
  | none =>
    cases hd' : d'.reqECS with
    | none =>
      rw [pendingKey_of_none hd, Option.some.injEq] at hk
      rw [pendingKey_of_none hd', ← hk, Option.some.injEq] at hk'
      exact .inl ⟨msgToKey_inj.mp hk'.symm, .inl ⟨hd, hd'⟩⟩
    | some n => exact .inr (.inl (spells_of_eq hname hd hd' hk hk'))
  | some n =>
    cases hd' : d'.reqECS with
    | none => exact .inr (.inr (.inl (spells_of_eq hname' hd' hd hk' hk)))
    | some n' =>
      obtain ⟨s, hs, rfl⟩ := pendingKey_of_subnet hd hk
      obtain ⟨s', hs', heq⟩ := pendingKey_of_subnet hd' hk'
      obtain ⟨hq, hones, hip⟩ :=
        keyWithSubnet_inj hname.printable.noNul hname'.printable.noNul heq
      by_cases hs_eq : s.ip = s'.ip
      · obtain rfl : s = s' := by
          cases s
          cases s'
          simp only [Subnet.mk.injEq]
          exact ⟨hs_eq, hones⟩
        exact .inl ⟨hq, .inr ⟨n, n', s, hd, hd', hs, hs'⟩⟩
      · have h0 : s.ones = 0 := by
          by_contra h
          exact hs_eq (hip h)
        exact .inr (.inr (.inr ⟨hq, n, n', s, s', hd, hd', hs, hs', h0, hones ▸ h0, hs_eq⟩))

end DnsProxy
