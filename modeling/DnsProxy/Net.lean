import DnsProxy.Basic
import DnsProxy.Lib.BitPrefix

/-!
# Addresses, masks and subnets

The operations of Go's `net` package on `IP`, `IPMask` and `IPNet` that the proxy
calls. A nil slice is `none`; most of these functions only look at the length,
for which nil and empty are the same (`bytesOf`).

`simpleMaskLength_eq_some` says that the masks with a prefix length are exactly
the masks of `BitPrefix`, so that masking an address keeps a bit prefix of it.
-/

namespace DnsProxy.Net

open BitPrefix

/-- `net.IP`. -/
abbrev IP := Option Bytes

/-- `net.IPMask`. -/
abbrev IPMask := Option Bytes

structure IPNet where
  ip : IP
  mask : IPMask
deriving DecidableEq, Repr

def bytesOf (x : Option Bytes) : Bytes := x.getD []

@[simp] theorem bytesOf_some (bs : Bytes) : bytesOf (some bs) = bs := rfl

@[simp] theorem bytesOf_none : bytesOf none = [] := rfl

def ipv4Len : Nat := 4
def ipv6Len : Nat := 16

def v4InV6Prefix : Bytes := [0, 0, 0, 0, 0, 0, 0, 0, 0, 0, 0xff, 0xff]

/-- A 16-byte address that holds an IPv4 one. -/
def isMapped (ip : Bytes) : Bool := ip.length == 16 && ip.take 12 == v4InV6Prefix

/-- `netip.Addr.Unmap`, on the bytes of the address. -/
def unmap (ip : Bytes) : Bytes := if isMapped ip then ip.drop 12 else ip

/-- `IP.To4`. -/
def to4 (ip : IP) : IP :=
  if (bytesOf ip).length = ipv4Len then ip
  else if isMapped (bytesOf ip) then some ((bytesOf ip).drop 12)
  else none

/-- `IP.To16`. -/
def to16 (ip : IP) : IP :=
  if (bytesOf ip).length = ipv4Len then some (v4InV6Prefix ++ bytesOf ip)
  else if (bytesOf ip).length = ipv6Len then ip
  else none

/-- `CIDRMask`. -/
def cidrMask (ones bits : Nat) : IPMask :=
  if bits ≠ 8 * ipv4Len ∧ bits ≠ 8 * ipv6Len then none
  else if bits < ones then none
  else some (mask ones (bits / 8))

/-- Shifts out the leading ones of a byte, with their number. -/
def shiftOnes : Nat → UInt8 → Nat × UInt8
  | 0, v => (0, v)
  | fuel + 1, v =>
    if v &&& 0x80 = 0 then (0, v)
    else
      let (n, v) := shiftOnes fuel (v <<< 1)
      (n + 1, v)

/-- `simpleMaskLength`, with `none` for the `-1` of a mask that is no prefix. -/
def simpleMaskLength : Bytes → Option Nat
  | [] => some 0
  | v :: rest =>
    if v = 0xff then (simpleMaskLength rest).map (8 + ·)
    else
      let (n, v) := shiftOnes 8 v
      if v ≠ 0 then none
      else if rest.all (· == 0) then some n
      else none

/-- `IPMask.Size`: the number of leading ones and the number of bits, both zero
for a mask that is no prefix. -/
def maskSize (m : IPMask) : Nat × Nat :=
  match simpleMaskLength (bytesOf m) with
  | none => (0, 0)
  | some n => (n, 8 * (bytesOf m).length)

/-- The tail of a 16-byte mask that can be applied to a 4-byte address. -/
def maskFor (i m : Bytes) : Bytes :=
  if m.length = 16 ∧ i.length = 4 ∧ (m.take 12).all (· == 0xff) then m.drop 12 else m

/-- The IPv4 address in a 16-byte one that a 4-byte mask can be applied to. -/
def addressFor (i m : Bytes) : Bytes :=
  if m.length = 4 ∧ i.length = 16 ∧ i.take 12 = v4InV6Prefix then i.drop 12 else i

/-- `IP.Mask`. -/
def ipMask (ip : IP) (m : IPMask) : IP :=
  let m := maskFor (bytesOf ip) (bytesOf m)
  let i := addressFor (bytesOf ip) m
  if i.length ≠ m.length then none else some (andBytes i m)

/-- `IP.Equal`: an IPv4 address and its mapped form are equal. -/
def ipEqual (a b : IP) : Bool :=
  let a := bytesOf a
  let b := bytesOf b
  if a.length = b.length then a == b
  else if a.length = 4 ∧ b.length = 16 then b.take 12 == v4InV6Prefix && b.drop 12 == a
  else if a.length = 16 ∧ b.length = 4 then a.take 12 == v4InV6Prefix && a.drop 12 == b
  else false

/-! ## Masks with a prefix length -/

theorem shiftOnes_topOnes {k : Nat} (hk : k < 8) : shiftOnes 8 (topOnes k) = (k, 0) := by
  interval_cases k <;> decide

theorem eq_topOnes_of_shiftOnes :
    ∀ n < 256, UInt8.ofNat n ≠ 0xff → (shiftOnes 8 (UInt8.ofNat n)).2 = 0 →
      (shiftOnes 8 (UInt8.ofNat n)).1 < 8 ∧
        UInt8.ofNat n = topOnes (shiftOnes 8 (UInt8.ofNat n)).1 := by
  decide +kernel

theorem topOnes_ne_ff {k : Nat} (hk : k < 8) : topOnes k ≠ 0xff := by
  interval_cases k <;> decide

theorem mask_succ (n w : Nat) : mask n (w + 1) = topOnes (min n 8) :: mask (n - 8) w := by
  rw [mask, List.replicate_succ, keepBits, show (0xff : UInt8) = -1 from rfl, UInt8.neg_one_and]
  rfl

theorem mask_zero (w : Nat) : mask 0 w = List.replicate w 0 := by
  rw [mask, keepBits_zero, List.length_replicate]

variable {n w : Nat}

theorem simpleMaskLength_mask (h : n ≤ 8 * w) : simpleMaskLength (mask n w) = some n := by
  induction w generalizing n with
  | zero =>
    obtain rfl : n = 0 := by omega
    rfl
  | succ w ih =>
    rw [mask_succ, simpleMaskLength]
    by_cases hn : n < 8
    · rw [Nat.min_eq_left (by omega), if_neg (topOnes_ne_ff hn), shiftOnes_topOnes hn,
        Nat.sub_eq_zero_of_le (by omega), mask_zero]
      simp
    · rw [Nat.min_eq_right (by omega), if_pos (by rfl), ih (by omega)]
      simp only [Option.map_some, Option.some.injEq]
      omega

/-- The masks with a prefix length are the masks of that many ones. -/
theorem simpleMaskLength_eq_some {m : Bytes} (h : simpleMaskLength m = some n) :
    m = mask n m.length ∧ n ≤ 8 * m.length := by
  induction m generalizing n with
  | nil =>
    rw [simpleMaskLength, Option.some.injEq] at h
    subst h
    exact ⟨rfl, Nat.le_refl _⟩
  | cons v rest ih =>
    rw [simpleMaskLength] at h
    rw [List.length_cons, mask_succ]
    split at h
    · next hv =>
      obtain ⟨k, hk, rfl⟩ := Option.map_eq_some_iff.mp h
      obtain ⟨hrest, hle⟩ := ih hk
      rw [Nat.min_eq_right (by omega), Nat.add_sub_cancel_left, ← hrest]
      exact ⟨by rw [hv]; rfl, by omega⟩
    · next hv =>
      have hbyte := eq_topOnes_of_shiftOnes v.toNat v.toNat_lt
      rw [UInt8.ofNat_toNat] at hbyte
      simp only at h
      split at h
      · cases h
      · next h0 =>
        obtain ⟨hlt, htop⟩ := hbyte hv (not_not.mp h0)
        split at h
        · next hz =>
          obtain rfl := Option.some.inj h
          have hrest : rest = List.replicate rest.length 0 :=
            List.eq_replicate_of_mem fun b hb => by simpa using List.all_eq_true.mp hz b hb
          rw [Nat.min_eq_left (by omega), Nat.sub_eq_zero_of_le (by omega), mask_zero, ← hrest,
            ← htop]
          exact ⟨rfl, by omega⟩
        · cases h

@[simp] theorem maskSize_none : maskSize none = (0, 0) := rfl

theorem maskSize_mask (h : n ≤ 8 * w) : maskSize (some (mask n w)) = (n, 8 * w) := by
  simp [maskSize, simpleMaskLength_mask h]

theorem eq_mask_of_maskSize {m : IPMask} {bits : Nat} (h : maskSize m = (n, bits)) (hb : bits ≠ 0) :
    ∃ w, bits = 8 * w ∧ n ≤ bits ∧ m = some (mask n w) := by
  unfold maskSize at h
  split at h
  · simp only [Prod.mk.injEq] at h
    exact absurd h.2.symm hb
  · next k hk =>
    simp only [Prod.mk.injEq] at h
    obtain ⟨rfl, rfl⟩ := h
    obtain ⟨hm, hle⟩ := simpleMaskLength_eq_some hk
    cases m with
    | none => simp at hb
    | some bs => exact ⟨bs.length, rfl, hle, congrArg some hm⟩

/-! ## Masked addresses -/

theorem length_to4 {ip : IP} {bs : Bytes} (h : to4 ip = some bs) : bs.length = 4 := by
  unfold to4 at h
  split at h
  · next hl => subst h; exact hl
  · split at h
    · next hm =>
      simp only [isMapped, Bool.and_eq_true, beq_iff_eq] at hm
      obtain rfl := Option.some.inj h
      simp [hm.1]
    · cases h

theorem length_to16 {ip : IP} {bs : Bytes} (h : to16 ip = some bs) : bs.length = 16 := by
  unfold to16 at h
  split at h
  · next hl =>
    obtain rfl := Option.some.inj h
    simp only [ipv4Len] at hl
    simp [v4InV6Prefix, hl]
  · split at h
    · next hl => subst h; exact hl
    · cases h

theorem ipMask_of_length {i m : Bytes} (h : i.length = m.length) :
    ipMask (some i) (some m) = some (andBytes i m) := by
  have hm : maskFor i m = m := if_neg fun hc => by omega
  have hi : addressFor i m = i := if_neg fun hc => by omega
  simp [ipMask, hm, hi, h]

theorem ipMask_mask {bs : Bytes} (h : bs.length = w) :
    ipMask (some bs) (some (mask n w)) = some (keepBits n bs) := by
  rw [ipMask_of_length (by simpa using h), andBytes_mask h]

theorem mask_add (n v w : Nat) : mask n (v + w) = mask n v ++ mask (n - 8 * v) w := by
  rw [mask, List.replicate_add, keepBits_append, List.length_replicate]
  rfl

theorem le_of_mask_all (h : (mask n w).all (· == 0xff)) : 8 * w ≤ n := by
  induction w generalizing n with
  | zero => omega
  | succ w ih =>
    rw [mask_succ, List.all_cons, Bool.and_eq_true, beq_iff_eq] at h
    have h8 : 8 ≤ n := by
      by_contra hn
      exact topOnes_ne_ff (Nat.lt_of_not_le hn) (Nat.min_eq_left (by omega : n ≤ 8) ▸ h.1)
    have := ih h.2
    omega

/-- The ways of masking an address: of the width of the mask, an IPv4 one under a
long enough IPv6 mask, or the IPv4 one in a mapped address. -/
theorem ipMask_eq_some {ip : IP} {r : Bytes} (h : ipMask ip (some (mask n w)) = some r) :
    (bytesOf ip).length = w ∧ r = keepBits n (bytesOf ip) ∨
    w = 16 ∧ (bytesOf ip).length = 4 ∧ 96 ≤ n ∧ r = keepBits (n - 96) (bytesOf ip) ∨
    w = 4 ∧ (bytesOf ip).length = 16 ∧ (bytesOf ip).take 12 = v4InV6Prefix ∧
      r = keepBits n ((bytesOf ip).drop 12) := by
  have h' : ipMask (some (bytesOf ip)) (some (mask n w)) = some r := h
  generalize bytesOf ip = i at h' ⊢
  by_cases h4 : w = 16 ∧ i.length = 4 ∧ ((mask n w).take 12).all (· == 0xff)
  · obtain ⟨rfl, hi, hall⟩ := h4
    have hsplit : mask n 16 = mask n 12 ++ mask (n - 96) 4 := mask_add n 12 4
    have htake : (mask n 16).take 12 = mask n 12 := by
      rw [hsplit, List.take_left' (length_mask _ _)]
    have hdrop : (mask n 16).drop 12 = mask (n - 96) 4 := by
      rw [hsplit, List.drop_left' (length_mask _ _)]
    have hm : maskFor i (mask n 16) = mask (n - 96) 4 := by
      rw [maskFor, if_pos ⟨length_mask _ _, hi, hall⟩, hdrop]
    have ha : addressFor i (mask (n - 96) 4) = i := if_neg fun hc => by omega
    simp only [ipMask, bytesOf_some, hm, ha, length_mask, hi, ne_eq, not_true_eq_false, if_false,
      Option.some.injEq, andBytes_mask hi] at h'
    exact .inr (.inl ⟨rfl, hi, le_of_mask_all (htake ▸ hall), h'.symm⟩)
  · have hm : maskFor i (mask n w) = mask n w := if_neg fun hc => h4 (by simpa using hc)
    by_cases h6 : w = 4 ∧ i.length = 16 ∧ i.take 12 = v4InV6Prefix
    · obtain ⟨rfl, hi, hpre⟩ := h6
      have ha : addressFor i (mask n 4) = i.drop 12 := if_pos ⟨length_mask _ _, hi, hpre⟩
      have hlen : (i.drop 12).length = 4 := by rw [List.length_drop, hi]
      simp only [ipMask, bytesOf_some, hm, ha, length_mask, hlen, ne_eq, not_true_eq_false,
        if_false, Option.some.injEq, andBytes_mask hlen] at h'
      exact .inr (.inr ⟨rfl, hi, hpre, h'.symm⟩)
    · have ha : addressFor i (mask n w) = i := if_neg fun hc => h6 (by simpa using hc)
      simp only [ipMask, bytesOf_some, hm, ha, length_mask] at h'
      split at h'
      · cases h'
      · next hlen =>
        have hlen := not_not.mp hlen
        rw [andBytes_mask hlen, Option.some.injEq] at h'
        exact .inl ⟨hlen, h'.symm⟩

/-! ## Comparing masked addresses -/

/-- The address of a network in the family of its mask. -/
def IPNet.address (n : IPNet) : IP :=
  if (maskSize n.mask).2 = 32 then to4 n.ip
  else if (maskSize n.mask).2 = 128 then to16 n.ip
  else none

theorem keepBits_ne_mapped {bs : Bytes} (h16 : bs.length = 16) (hn : n ≤ 32) :
    (keepBits n bs).take 12 ≠ v4InV6Prefix := by
  have hz : keepBits n bs = keepBits n (bs.take 4) ++ List.replicate 12 0 := by
    rw [← List.take_append_drop 4 bs, keepBits_append_of_le (by simp; omega)]
    simp [h16]
  intro h
  have h11 := congrArg (·[11]?) h
  rw [hz] at h11
  simp [v4InV6Prefix, h16] at h11

theorem ipEqual_cases {a b : IP} (h : ipEqual a b = true) :
    bytesOf a = bytesOf b ∨
    (bytesOf a).length = 4 ∧ (bytesOf b).length = 16 ∧
      bytesOf b = v4InV6Prefix ++ bytesOf a ∨
    (bytesOf a).length = 16 ∧ (bytesOf b).length = 4 ∧
      bytesOf a = v4InV6Prefix ++ bytesOf b := by
  unfold ipEqual at h
  simp only at h
  split at h
  · exact .inl (beq_iff_eq.mp h)
  · split at h
    · next hl =>
      rw [Bool.and_eq_true, beq_iff_eq, beq_iff_eq] at h
      exact .inr (.inl ⟨hl.1, hl.2, by rw [← h.1, ← h.2, List.take_append_drop]⟩)
    · split at h
      · next hl =>
        rw [Bool.and_eq_true, beq_iff_eq, beq_iff_eq] at h
        exact .inr (.inr ⟨hl.1, hl.2, by rw [← h.1, ← h.2, List.take_append_drop]⟩)
      · cases h

theorem maskSize_le (m : IPMask) : (maskSize m).1 ≤ (maskSize m).2 := by
  unfold maskSize
  split
  · exact Nat.le_refl _
  · next h => exact (simpleMaskLength_eq_some h).2

theorem to4_of_length {ip : IP} (h : (bytesOf ip).length = 4) : to4 ip = some (bytesOf ip) := by
  cases ip with
  | none => cases h
  | some i => exact if_pos h

theorem to16_of_length {ip : IP} (h : (bytesOf ip).length = 16) : to16 ip = some (bytesOf ip) := by
  cases ip with
  | none => cases h
  | some i => exact (if_neg (by rw [h]; decide)).trans (if_pos h)

/-- The address of a network of which some bits are masked, with what masking it
gives. -/
theorem address_of_ipMask {s : IPNet} {bits : Nat} {r : Bytes} (hsize : maskSize s.mask = (n, bits))
    (hn : n ≠ 0) (hr : ipMask s.ip s.mask = some r) (hlen : r.length = 4 ∨ r.length = 16) :
    ∃ addr, s.address = some addr ∧ 8 * addr.length = bits ∧
      (r = keepBits n addr ∨
        r.length = 4 ∧ bits = 128 ∧ 96 ≤ n ∧ keepBits n addr = v4InV6Prefix ++ r) := by
  have hle := maskSize_le s.mask
  rw [hsize] at hle
  obtain ⟨w, rfl, -, hmask⟩ := eq_mask_of_maskSize hsize (by simp only at hle; omega)
  rw [hmask] at hr
  unfold IPNet.address
  rw [hsize]
  rcases ipMask_eq_some hr with ⟨hi, rfl⟩ | ⟨rfl, hi, h96, rfl⟩ | ⟨rfl, hi, hpre, rfl⟩
  · rw [length_keepBits, hi] at hlen
    refine ⟨bytesOf s.ip, ?_, by rw [hi], .inl rfl⟩
    rcases hlen with rfl | rfl
    · exact to4_of_length hi
    · exact to16_of_length hi
  · refine ⟨v4InV6Prefix ++ bytesOf s.ip, if_pos hi, by simp [hi, v4InV6Prefix], .inr ?_⟩
    refine ⟨by rw [length_keepBits, hi], rfl, h96, ?_⟩
    rw [keepBits_append, keepBits_of_le (by simpa [v4InV6Prefix] using h96)]
    rfl
  · refine ⟨(bytesOf s.ip).drop 12, ?_, by rw [List.length_drop, hi], .inl rfl⟩
    have hmapped : isMapped (bytesOf s.ip) = true := by simp [isMapped, hi, hpre]
    show to4 s.ip = _
    exact (if_neg (by rw [hi]; decide)).trans (if_pos hmapped)

/-- Networks of one prefix length whose masked addresses are equal are the same
network: the lengths keep the families apart. -/
theorem address_of_ipEqual {e : Bytes} {s : IPNet} (hw : w = 4 ∨ w = 16) (he : e.length = w)
    (hn : n ≠ 0) (hnw : n ≤ 8 * w) (hs : (maskSize s.mask).1 = n)
    (h : ipEqual (ipMask (some e) (some (mask n w))) (ipMask s.ip s.mask) = true) :
    ∃ addr, s.address = some addr ∧ addr.length = w ∧ keepBits n addr = keepBits n e := by
  rw [ipMask_mask he] at h
  have hcases := ipEqual_cases h
  cases hr : ipMask s.ip s.mask with
  | none =>
    rw [hr] at hcases
    have hl : (keepBits n e).length ≠ 0 := by rw [length_keepBits, he]; omega
    rcases hcases with h | ⟨_, h, _⟩ | ⟨_, h, _⟩
    · exact absurd (congrArg List.length h) hl
    · cases h
    · cases h
  | some r =>
    rw [hr] at hcases
    simp only [bytesOf_some, length_keepBits, he] at hcases
    have hlen : r.length = 4 ∨ r.length = 16 := by
      rcases hcases with h | ⟨_, h, _⟩ | ⟨_, h, _⟩
      · rw [← h, length_keepBits, he]
        exact hw
      · exact .inr h
      · exact .inl h
    have hsize : maskSize s.mask = (n, (maskSize s.mask).2) := Prod.ext hs rfl
    obtain ⟨addr, haddr, hbits, hm⟩ := address_of_ipMask hsize hn hr hlen
    have hle := maskSize_le s.mask
    rcases hcases with heq | ⟨h4, h16, heq⟩ | ⟨h16, h4, heq⟩
    · rcases hm with hm | ⟨h4, _, h96, _⟩
      · refine ⟨addr, haddr, ?_, (heq.trans hm).symm⟩
        rw [← length_keepBits n addr, ← hm, ← heq, length_keepBits, he]
      · rw [← heq, length_keepBits, he] at h4
        omega
    · -- An IPv4 network and a masked IPv6 address that is mapped.
      rcases hm with hm | ⟨h4', _⟩
      · rw [hm, length_keepBits] at h16
        refine absurd ?_ (keepBits_ne_mapped (n := n) h16 (by omega))
        rw [← hm, heq]
        rfl
      · omega
    · rcases hm with hm | ⟨_, h128, _, hm⟩
      · have hl : addr.length = 4 := by rw [← length_keepBits n addr, ← hm, h4]
        refine absurd ?_ (keepBits_ne_mapped (n := n) (he.trans h16) (by omega))
        rw [heq]
        rfl
      · exact ⟨addr, haddr, by omega, hm.trans heq.symm⟩

end DnsProxy.Net
